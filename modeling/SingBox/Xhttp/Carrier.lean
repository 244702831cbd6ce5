import SingBox.Xhttp.Request

/-!
# XHTTP requests carry their session id and their sequence number
-/

namespace SingBox.Xhttp

open SingBox.Lib List Function

/-! ### Names and writes -/

/-- Where a write goes.  All cookies go to one header. -/
inductive Name where
  | path
  | query (key : GoString)
  | header (key : GoString)
  | cookie
  deriving DecidableEq

/-- A write to the first name destroys or extends what the second holds: the same query key, the same
header, or a cookie and the header of cookies.  A path segment and a cookie are added to the others. -/
def Name.overwrites : Name → Name → Bool
  | .query k, .query k' => k = k'
  | .header k, .header k' => k = k'
  | .header k, .cookie => k = cookieKey
  | .cookie, .header k => k = cookieKey
  | _, _ => false

inductive Write where
  | path (seg : GoString)
  | query (key value : GoString)
  | header (key value : GoString)
  | cookie (name value : GoString)

def Write.name : Write → Name
  | .path _ => .path
  | .query k _ => .query k
  | .header k _ => .header (canonicalHeaderKey k)
  | .cookie _ _ => .cookie

def Request.write (r : Request) : Write → Request
  | .path seg => { r with url.path := appendPathSegment r.url.path seg }
  | .query k v => { r with url.rawQuery := setQuery r.url.rawQuery k v }
  | .header k v => { r with header := Header.set r.header k v }
  | .cookie n v => { r with header := Header.addCookie r.header n v }

/-- The write of a session id or a sequence number. -/
def idWrite (placement : Placement) (key value : GoString) : Write :=
  match placement with
  | .path => .path value
  | .query => .query key value
  | .header => .header key value
  | _ => .cookie key value

/-- What a reader of a placement sees of a request. -/
def carrier (r : Request) (placement : Placement) (key : GoString) : List GoString :=
  match placement with
  | .path => [r.url.path]
  | .query => Values.get (parseQuery r.url.rawQuery) key
  | .header => r.header (canonicalHeaderKey key)
  | _ => r.header cookieKey

/-- The rest of a text begins with the byte `c`, if there is a rest. -/
def StartsWith (c : Byte) (rest : GoString) : Prop := ∀ b ∈ rest.head?, b = c

/-- The cookies a request has, before another one is added. -/
def cookiesBefore (h : Header) : GoString :=
  if Header.get h cookieKey ≠ [] then Header.get h cookieKey ++ ascii "; " else []

/-- The request `r` carries what the write `w` put into `r₀`. -/
def Carries (r₀ : Request) (w : Write) (r : Request) : Prop :=
  match w with
  | .path seg => ∃ rest, StartsWith 0x2f rest ∧ r.url.path = appendPathSegment r₀.url.path seg ++ rest
  | .query k v => Values.get (parseQuery r.url.rawQuery) k = [v]
  | .header k v => r.header (canonicalHeaderKey k) = [v]
  | .cookie n v => ∃ rest, StartsWith 0x3b rest ∧
      r.header cookieKey = [cookiesBefore r₀.header ++ cookieText n v ++ rest]

lemma Carries.congr {r₀ r r' : Request} {w : Write} (hurl : r'.url = r.url) (hheader : r'.header = r.header)
    (h : Carries r₀ w r) : Carries r₀ w r' := by
  cases w <;> simpa only [Carries, hurl, hheader] using h

lemma canonicalHeaderKey_cookie : canonicalHeaderKey cookieKey = cookieKey := by decide

lemma startsWith_nil (c : Byte) : StartsWith c [] := by rintro b ⟨⟩

lemma startsWith_append {c : Byte} {a b : GoString} (ha : StartsWith c a) (hb : StartsWith c b) :
    StartsWith c (a ++ b) := by
  cases a with
  | nil => exact hb
  | cons x a => exact ha

lemma addCookie_eq (h : Header) (name value : GoString) :
    Header.addCookie h name value = Header.set h cookieKey (cookiesBefore h ++ cookieText name value) := by
  unfold Header.addCookie cookiesBefore
  split <;> simp

/-! ### Queries -/

lemma parseQuery_intercalate : ∀ (q : Values), parseQuery ([0x26].intercalate (q.map queryPair)) = q
  | [] => by decide
  | [p] => by simpa using parseQuery_pair p
  | p :: p' :: q => by
    have ih := parseQuery_intercalate (p' :: q)
    rw [map_cons, map_cons, intercalate_cons_cons, ← map_cons, append_assoc,
      singleton_append, parseQuery, split_append, filterMap_append, ← parseQuery, ← parseQuery, ih,
      parseQuery_pair]
    rfl

lemma parseQuery_encode_perm (q : Values) : (parseQuery (Values.encode q)).Perm q := by
  rw [Values.encode, parseQuery_intercalate]
  exact mergeSort_perm _ _

lemma get_perm {q q' : Values} (h : q.Perm q') {key v : GoString} (hv : Values.get q' key = [v]) :
    Values.get q key = [v] := by
  have hp : (Values.get q key).Perm (Values.get q' key) := (h.filter _).map _
  rw [hv] at hp
  exact hp.eq_singleton

lemma get_set_of_ne {key key' : GoString} (h : key ≠ key') (q : Values) (value : GoString) :
    Values.get (Values.set q key value) key' = Values.get q key' := by
  have hf : ∀ p : GoString × GoString, (decide (p.1 = key') && decide (p.1 ≠ key)) = decide (p.1 = key') := by
    intro p
    by_cases hp : p.1 = key'
    · simp [hp, Ne.symm h]
    · simp [hp]
  simp only [Values.get, Values.set, filter_append, filter_filter, hf]
  simp [h]

lemma get_setQuery_self (raw key value : GoString) :
    Values.get (parseQuery (setQuery raw key value)) key = [value] := by
  unfold setQuery
  split
  · rw [parseQuery_pair]
    simp [Values.get]
  · dsimp only
    split
    next hget =>
      rw [parseQuery_append]
      simp only [Values.get, filter_append] at hget ⊢
      simp [hget]
    · exact get_perm (parseQuery_encode_perm _) (by simp [Values.get, Values.set])

lemma get_setQuery_of_ne {raw key key' v : GoString} (h : key ≠ key')
    (hv : Values.get (parseQuery raw) key' = [v]) (value : GoString) :
    Values.get (parseQuery (setQuery raw key value)) key' = [v] := by
  unfold setQuery
  split
  next hraw =>
    subst hraw
    simp [parseQuery, split, parseQueryPart, Values.get] at hv
  · dsimp only
    split
    · rw [parseQuery_append]
      simp only [Values.get, filter_append] at hv ⊢
      simp [hv, h]
    · exact get_perm (parseQuery_encode_perm _) ((get_set_of_ne h _ _).trans hv)

/-! ### What a write leaves alone -/

/-- A path segment is one: not empty and without a slash. -/
def Write.Clean : Write → Prop
  | .path seg => seg ≠ [] ∧ 0x2f ∉ seg
  | _ => True

lemma carries_write (r : Request) (w : Write) : Carries r w (r.write w) := by
  cases w with
  | query k v => exact get_setQuery_self _ _ _
  | header k v => simp [Carries, Request.write, Header.set]
  | cookie n v | path seg =>
    refine ⟨[], startsWith_nil _, ?_⟩
    simp [Request.write, addCookie_eq, Header.set, canonicalHeaderKey_cookie]

lemma getLast?_appendPathSegment {path seg : GoString} (h : seg ≠ []) (hs : 0x2f ∉ seg) :
    (appendPathSegment path seg).getLast? ≠ some 0x2f := by
  intro hl
  have hmem : (appendPathSegment path seg).getLast? = seg.getLast? := by
    unfold appendPathSegment
    split
    · rw [getLast?_append_of_ne_nil _ h]
    · rw [getLast?_append_of_ne_nil _ (cons_ne_nil _ _), getLast?_cons_of_ne_nil h]
  rw [hmem] at hl
  exact hs (mem_of_getLast? hl)

lemma appendPathSegment_rest (path seg' : GoString) {seg rest : GoString} (h : seg ≠ []) (hs : 0x2f ∉ seg)
    (hrest : StartsWith 0x2f rest) : ∃ rest', StartsWith 0x2f rest' ∧
      appendPathSegment (appendPathSegment path seg ++ rest) seg' = appendPathSegment path seg ++ rest' := by
  rw [appendPathSegment.eq_def (appendPathSegment path seg ++ rest)]
  cases rest with
  | nil =>
    rw [append_nil, if_neg (getLast?_appendPathSegment h hs)]
    exact ⟨0x2f :: seg', by rintro b ⟨⟩; rfl, rfl⟩
  | cons b rest =>
    split
    · exact ⟨b :: rest ++ seg', hrest, by simp⟩
    · exact ⟨b :: rest ++ 0x2f :: seg', hrest, by simp⟩

lemma get_cookieKey {h : Header} {a n v b : GoString} (hh : h cookieKey = [a ++ cookieText n v ++ b]) :
    Header.get h cookieKey = a ++ cookieText n v ++ b ∧ a ++ cookieText n v ++ b ≠ [] := by
  refine ⟨by rw [Header.get, canonicalHeaderKey_cookie, hh]; rfl, ?_⟩
  simp [cookieText]

/-- **What a request carries, it carries after every write to another name.** -/
theorem Carries.write {r₀ r : Request} {w : Write} (h : Carries r₀ w r) (hw : w.Clean) (w' : Write)
    (hne : w'.name.overwrites w.name = false) : Carries r₀ w (r.write w') := by
  cases w with
  | path seg =>
    cases w' with
    | path seg' =>
      obtain ⟨rest, hrest, hpath⟩ := h
      obtain ⟨rest', hrest', he⟩ := appendPathSegment_rest r₀.url.path seg' hw.1 hw.2 hrest
      exact ⟨rest', hrest', by simp only [Request.write, hpath, he]⟩
    | query k' v' | header k' v' | cookie n' v' => exact h
  | query k v =>
    cases w' with
    | query k' v' => exact get_setQuery_of_ne (by simpa [Write.name, Name.overwrites] using hne) h v'
    | path seg' | header k' v' | cookie n' v' => exact h
  | header k v =>
    cases w' with
    | header k' v' =>
      have hk : canonicalHeaderKey k ≠ canonicalHeaderKey k' := by
        simpa [Write.name, Name.overwrites, eq_comm] using hne
      simpa only [Carries, Request.write, Header.set, update_of_ne hk] using h
    | cookie n' v' =>
      have hk : canonicalHeaderKey k ≠ cookieKey := by simpa [Write.name, Name.overwrites] using hne
      simpa only [Carries, Request.write, addCookie_eq, Header.set, canonicalHeaderKey_cookie, update_of_ne hk] using h
    | path seg' | query k' v' => exact h
  | cookie n v =>
    cases w' with
    | header k' v' =>
      have hk : cookieKey ≠ canonicalHeaderKey k' := by simpa [Write.name, Name.overwrites, eq_comm] using hne
      simpa only [Carries, Request.write, Header.set, update_of_ne hk] using h
    | cookie n' v' =>
      obtain ⟨rest, hrest, hcookie⟩ := h
      obtain ⟨hget, hnil⟩ := get_cookieKey hcookie
      refine ⟨rest ++ (ascii "; " ++ cookieText n' v'), startsWith_append hrest ?_, ?_⟩
      · rintro b ⟨⟩
        rfl
      · have hbefore : cookiesBefore r.header = Header.get r.header cookieKey ++ ascii "; " :=
          if_pos (by rw [hget]; exact hnil)
        simp only [Request.write, addCookie_eq, hbefore, hget, Header.set, canonicalHeaderKey_cookie,
          update_self, append_assoc]
    | path seg' | query k' v' => exact h

/-! ### The steps of a request as writes -/

/-- Where the padding goes. -/
def paddingName (m : MetaConfig) : Name :=
  if ¬ m.xPaddingObfsMode then .header (canonicalHeaderKey (ascii "Referer"))
  else match m.xPaddingPlacement with
    | .cookie => .cookie
    | .query => .query m.xPaddingKey
    | _ => .header (canonicalHeaderKey m.xPaddingHeader)

/-- Where the chunk number `i` of the payload goes, or the type of a payload in the body. -/
def dataName (m : MetaConfig) (i : ℕ) : Name :=
  match m.uplinkDataPlacement with
  | .header => .header (canonicalHeaderKey (m.uplinkDataKey ++ ascii "-" ++ formatUint i))
  | .cookie => .cookie
  | _ => .header (canonicalHeaderKey (ascii "Content-Type"))

lemma putMeta_eq {placement : Placement} (hp : placement ∈ idPlacements) (key value : GoString)
    (p : Request × GoString) : (putMeta placement key value p).1.setPath (putMeta placement key value p).2 =
      (p.1.setPath p.2).write (idWrite placement key value) := by
  rcases p with ⟨r, path⟩
  simp only [idPlacements, mem_cons, not_mem_nil, or_false] at hp
  rcases hp with rfl | rfl | rfl | rfl <;> rfl

lemma applyMeta_eq {m : MetaConfig} (hm : m.WF) (r : Request) {sessionID seqStr : GoString}
    (hsid : sessionID ≠ []) (hseq : seqStr ≠ []) : applyMeta m r r.url.path sessionID seqStr =
      (r.write (idWrite m.sessionPlacement m.sessionKey sessionID)).write (idWrite m.seqPlacement m.seqKey seqStr) := by
  unfold applyMeta
  simp only [if_neg hsid, if_neg hseq, putMeta_eq hm.seq, putMeta_eq hm.session]
  rfl

section Steps

variable {r₀ r : Request} {w : Write} (h : Carries r₀ w r) (hw : w.Clean)

include h hw

lemma Carries.applyXPadding {deps : Deps} {c : Client} {d : PaddingDraw}
    (hne : (∃ draw, 0 < c.paddingRange.rand draw) → (paddingName c.config).overwrites w.name = false) :
    Carries r₀ w (applyXPadding deps c d r) := by
  unfold Xhttp.applyXPadding
  dsimp only
  split
  next hobfs =>
    split
    · exact h
    · have hname : paddingName c.config = (Write.header (ascii "Referer") []).name := if_pos hobfs
      refine h.write hw (.header (ascii "Referer") _) ?_
      rw [← hne ⟨d.length, by omega⟩, hname]
      rfl
  next hobfs =>
    split
    · exact h
    next hpad =>
      have hpos : 0 < c.paddingRange.rand d.length := by
        by_contra hle
        exact hpad (if_pos (by omega))
      have hne := hne ⟨d.length, hpos⟩
      unfold paddingName at hne
      rw [if_neg hobfs] at hne
      split <;> rename_i hp <;> (try rw [hp] at hne)
      · exact h.write hw (.cookie _ _) hne
      · exact h.write hw (.header _ _) hne
      · exact h.write hw (.query _ _) hne
      · exact h.write hw (.header _ _) hne
      · exact h

lemma Carries.foldl {α : Type} {f : α → Write} (l : List α)
    (hne : ∀ a ∈ l, (f a).name.overwrites w.name = false) : Carries r₀ w (l.foldl (fun r a => r.write (f a)) r) := by
  induction l generalizing r with
  | nil => exact h
  | cons a l ih =>
    refine ih (h.write hw (f a) (hne a (by simp))) fun b hb => hne b (mem_cons_of_mem _ hb)

lemma Carries.applyUplinkData {m : MetaConfig} {payload : List Byte} {draw : ℕ → ℕ}
    (hne : ∀ i, (dataName m i).overwrites w.name = false) : Carries r₀ w (applyUplinkData m payload draw r) := by
  unfold Xhttp.applyUplinkData
  unfold dataName at hne
  split
  next hp =>
    simp only [hp] at hne
    let f (p : GoString × ℕ) : Write := .header (m.uplinkDataKey ++ ascii "-" ++ formatUint p.2) p.1
    exact h.foldl (f := f) hw _ fun p _ => hne p.2
  next hp =>
    simp only [hp] at hne
    let f (p : GoString × ℕ) : Write := .cookie (m.uplinkDataKey ++ ascii "_" ++ formatUint p.2) p.1
    exact h.foldl (f := f) hw _ fun p _ => hne p.2
  next hheader hcookie =>
    have hname : (Write.header (ascii "Content-Type") []).name.overwrites w.name = false := by
      rw [← hne 0]
      split
      · exact absurd ‹_› hheader
      · exact absurd ‹_› hcookie
      · rfl
    exact Carries.congr rfl rfl (h.write hw (.header (ascii "Content-Type") (ascii "application/octet-stream")) hname)

end Steps

end SingBox.Xhttp
