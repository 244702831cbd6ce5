import SingBox.Xhttp.Carrier

/-!
# XHTTP uploads can be told apart

Under an accepted configuration whose names are separate, the request of an upload holds its session id and
its sequence number where the configuration puts them, and two uploads with different ids or numbers
differ there.  Nothing checks that the names are separate, and nothing checks that the bytes of a session
table survive in a cookie.
-/

namespace SingBox.Xhttp

open SingBox.Lib List

/-! ### Texts that end at a separator -/

lemma eq_of_append_eq {c : Byte} {a a' rest rest' : GoString} (ha : c ∉ a) (ha' : c ∉ a')
    (hr : StartsWith c rest) (hr' : StartsWith c rest') (h : a ++ rest = a' ++ rest') : a = a' := by
  induction a generalizing a' with
  | nil =>
    cases a' with
    | nil => rfl
    | cons b a' =>
      rw [nil_append] at h
      have hb : b = c := hr b (by rw [h]; rfl)
      exact absurd (hb ▸ mem_cons_self) ha'
  | cons b a ih =>
    cases a' with
    | nil =>
      rw [nil_append] at h
      have hb : b = c := hr' b (by rw [← h]; rfl)
      exact absurd (hb ▸ mem_cons_self) ha
    | cons b' a' =>
      obtain ⟨rfl, htail⟩ := cons.inj h
      rw [ih (fun hc => ha (mem_cons_of_mem _ hc)) (fun hc => ha' (mem_cons_of_mem _ hc)) htail]

lemma appendPathSegment_inj {path seg seg' rest rest' : GoString} (hs : 0x2f ∉ seg) (hs' : 0x2f ∉ seg')
    (hr : StartsWith 0x2f rest) (hr' : StartsWith 0x2f rest')
    (h : appendPathSegment path seg ++ rest = appendPathSegment path seg' ++ rest') : seg = seg' := by
  unfold appendPathSegment at h
  split at h
  · rw [append_assoc, append_assoc, append_cancel_left_eq] at h
    exact eq_of_append_eq hs hs' hr hr' h
  · rw [append_assoc, append_assoc, append_cancel_left_eq] at h
    exact eq_of_append_eq hs hs' hr hr' (cons.inj h).2

/-! ### Cookie values -/

lemma not_mem_sanitizeCookieValue (v : GoString) : 0x3b ∉ sanitizeCookieValue v := by
  have hv : 0x3b ∉ v.filter validCookieValueByte := by
    rw [mem_filter]
    rintro ⟨-, h⟩
    exact absurd h (by decide)
  unfold sanitizeCookieValue
  dsimp only
  split
  · simp only [cons_append, mem_cons, mem_append, not_mem_nil, not_or]
    exact ⟨by decide, hv, by decide⟩
  · exact hv

lemma sanitizeCookieValue_inj {v v' : GoString} (hv : v.all validCookieValueByte)
    (hv' : v'.all validCookieValueByte) (h : sanitizeCookieValue v = sanitizeCookieValue v') : v = v' := by
  have hq : ∀ {u : GoString}, u.all validCookieValueByte → 0x22 ∉ u := by
    intro u hu hmem
    exact absurd (all_eq_true.1 hu _ hmem) (by decide)
  unfold sanitizeCookieValue at h
  rw [filter_eq_self.2 (all_eq_true.1 hv), filter_eq_self.2 (all_eq_true.1 hv')] at h
  dsimp only at h
  -- a quoted value starts with a quote, the other one has none
  split at h <;> split at h
  · simpa using h
  · exact absurd (h ▸ mem_cons_self) (hq hv')
  · exact absurd (h ▸ mem_cons_self) (hq hv)
  · exact h

lemma cookieText_inj {a name v v' rest rest' : GoString} (hv : v.all validCookieValueByte)
    (hv' : v'.all validCookieValueByte) (hr : StartsWith 0x3b rest) (hr' : StartsWith 0x3b rest')
    (h : a ++ cookieText name v ++ rest = a ++ cookieText name v' ++ rest') : v = v' := by
  simp only [cookieText, append_assoc, cons_append, append_cancel_left_eq, cons.injEq, true_and] at h
  exact sanitizeCookieValue_inj hv hv'
    (eq_of_append_eq (not_mem_sanitizeCookieValue v) (not_mem_sanitizeCookieValue v') hr hr' h)

/-! ### Session ids -/

lemma mem_newUUIDSessionID {P : Byte → Prop} (hP : ∀ n < 16, P (lowerHex n)) (hdash : P 0x2d) {b : ℕ → Byte}
    {x : Byte} (h : x ∈ newUUIDSessionID b) : P x := by
  simp only [newUUIDSessionID, mem_append, mem_cons] at h
  rcases h with (((h | rfl | h) | rfl | h) | rfl | h) | rfl | h
  all_goals first
    | exact mem_encodeHex hP h
    | exact hdash

variable {m : MetaConfig}

lemma mem_newSessionID {P : Byte → Prop} (hP : ∀ n < 16, P (lowerHex n)) (hdash : P 0x2d)
    (htable : ∀ b ∈ m.sessionTable, P b) {d : SessionDraw} {x : Byte} (h : x ∈ newSessionID m d) : P x := by
  unfold newSessionID at h
  split at h
  · exact mem_newUUIDSessionID hP hdash h
  next hne =>
    obtain ⟨i, -, rfl⟩ := mem_map.1 h
    have hpos : 0 < m.sessionTable.length := length_pos_of_ne_nil hne
    have hlt : (sessionRandomInt m.sessionTable.length (d.index i)).toNat < m.sessionTable.length := by
      unfold sessionRandomInt
      have := Int.emod_lt_of_pos (d.index i : ℤ) (show (0 : ℤ) < m.sessionTable.length by omega)
      omega
    rw [getD_eq_getElem?_getD, getElem?_eq_getElem hlt]
    exact htable _ (getElem_mem hlt)

lemma newSessionID_ne_nil (hm : m.WF) (d : SessionDraw) : newSessionID m d ≠ [] := by
  unfold newSessionID
  split
  · simp [newUUIDSessionID]
  next hne =>
    obtain ⟨hmin, -⟩ := hm.length hne
    intro h
    have hlen := congrArg length h
    rw [length_map, length_range, length_nil] at hlen
    split at hlen
    · have := Int.emod_nonneg (d.length : ℤ) (show m.sessionLength.max - m.sessionLength.min + 1 ≠ 0 by omega)
      unfold sessionRandomInt at hlen
      omega
    · omega

lemma newSessionID_no_slash (hm : m.WF) (hp : m.sessionPlacement = .path) (d : SessionDraw) :
    0x2f ∉ newSessionID m d := by
  intro h
  refine mem_newSessionID (P := (· ≠ 0x2f)) (by decide) (by decide) ?_ h rfl
  rintro b hb rfl
  exact hm.path hp hb

lemma newSessionID_valid (ht : m.sessionTable.all validCookieValueByte) (d : SessionDraw) :
    (newSessionID m d).all validCookieValueByte :=
  all_eq_true.2 fun _ =>
    mem_newSessionID (P := (validCookieValueByte · = true)) (by decide) (by decide) (all_eq_true.1 ht)

lemma formatUint_no_slash (n : ℕ) : 0x2f ∉ formatUint n := by
  intro h
  exact absurd (mem_formatUint h).1 (by decide)

lemma formatUint_valid (n : ℕ) : (formatUint n).all validCookieValueByte := by
  have hdigit : ∀ b : Byte, 0x30 ≤ b ∧ b ≤ 0x39 → validCookieValueByte b = true := by decide
  exact all_eq_true.2 fun b hb => hdigit b (mem_formatUint hb)

lemma seqStr_inj {u u' : Upload} (h : u.seqStr = u'.seqStr) : u.seq = u'.seq := by
  have hu : parseUint 64 (formatUint u.seq.toNat) = .ok u.seq.toNat := parseUint_format u.seq.isLt
  have hu' : parseUint 64 (formatUint u'.seq.toNat) = .ok u'.seq.toNat := parseUint_format u'.seq.isLt
  unfold Upload.seqStr at h
  rw [h, hu'] at hu
  exact BitVec.eq_of_toNat_eq (Except.ok.inj hu).symm

/-! ### Reading an id -/

def Holds (r : Request) (placement : Placement) (key value : GoString) : Prop :=
  match placement with
  | .path => ∃ before rest, r.url.path = before ++ 0x2f :: value ++ rest ∧ StartsWith 0x2f rest
  | .query => Values.get (parseQuery r.url.rawQuery) key = [value]
  | .header => r.header (canonicalHeaderKey key) = [value]
  | _ => ∃ before rest, r.header cookieKey = [before ++ cookieText key value ++ rest] ∧
      (before = [] ∨ ascii "; " <:+ before) ∧ StartsWith 0x3b rest

lemma appendPathSegment_eq (path seg : GoString) : ∃ before, appendPathSegment path seg = before ++ 0x2f :: seg := by
  unfold appendPathSegment
  split
  next hl =>
    obtain ⟨before, rfl⟩ := getLast?_eq_some_iff.1 hl
    exact ⟨before, by simp⟩
  · exact ⟨path, rfl⟩

lemma cookiesBefore_cases (h : Header) : cookiesBefore h = [] ∨ ascii "; " <:+ cookiesBefore h := by
  unfold cookiesBefore
  split
  · exact .inr (suffix_append _ _)
  · exact .inl rfl

variable {placement : Placement}

lemma Carries.holds {r₀ r : Request} {key value : GoString}
    (hp : placement ∈ idPlacements) (h : Carries r₀ (idWrite placement key value) r) : Holds r placement key value := by
  simp only [idPlacements, mem_cons, not_mem_nil, or_false] at hp
  rcases hp with rfl | rfl | rfl | rfl
  · obtain ⟨rest, hrest, hpath⟩ := h
    obtain ⟨before, hbefore⟩ := appendPathSegment_eq r₀.url.path value
    exact ⟨before, rest, by rw [hpath, hbefore], hrest⟩
  · exact h
  · exact h
  · obtain ⟨rest, hrest, hcookie⟩ := h
    exact ⟨_, rest, hcookie, cookiesBefore_cases _, hrest⟩

/-- **Two requests that agree at a placement got the same value there.** -/
theorem Carries.inj {r₀ r r' : Request} {key value value' : GoString}
    (hp : placement ∈ idPlacements) (h : Carries r₀ (idWrite placement key value) r)
    (h' : Carries r₀ (idWrite placement key value') r') (hpath : placement = .path → 0x2f ∉ value ∧ 0x2f ∉ value')
    (hcookie : placement = .cookie → value.all validCookieValueByte ∧ value'.all validCookieValueByte)
    (heq : carrier r placement key = carrier r' placement key) : value = value' := by
  simp only [idPlacements, mem_cons, not_mem_nil, or_false] at hp
  rcases hp with rfl | rfl | rfl | rfl
  · obtain ⟨rest, hrest, hr⟩ := h
    obtain ⟨rest', hrest', hr'⟩ := h'
    have hr2 := cons.inj heq
    rw [hr, hr'] at hr2
    exact appendPathSegment_inj (hpath rfl).1 (hpath rfl).2 hrest hrest' hr2.1
  · exact (cons.inj (h.symm.trans (heq.trans h'))).1
  · exact (cons.inj (h.symm.trans (heq.trans h'))).1
  · obtain ⟨rest, hrest, hr⟩ := h
    obtain ⟨rest', hrest', hr'⟩ := h'
    have hr2 := (cons.inj (hr.symm.trans (heq.trans hr'))).1
    exact cookieText_inj (hcookie rfl).1 (hcookie rfl).2 hrest hrest' hr2

/-! ### Uploads -/

def idName (placement : Placement) (key : GoString) : Name := (idWrite placement key []).name

/-- No write goes to the name of the session id after it, nor to the name of the sequence number, and the
table of a session id in a cookie has only bytes that a cookie keeps. -/
structure Separate (c : Client) : Prop where
  seq : (idName c.config.seqPlacement c.config.seqKey).overwrites
    (idName c.config.sessionPlacement c.config.sessionKey) = false
  padding : (∃ draw, 0 < c.paddingRange.rand draw) →
    (paddingName c.config).overwrites (idName c.config.sessionPlacement c.config.sessionKey) = false ∧
      (paddingName c.config).overwrites (idName c.config.seqPlacement c.config.seqKey) = false
  data : ∀ i, (dataName c.config i).overwrites (idName c.config.sessionPlacement c.config.sessionKey) = false ∧
    (dataName c.config i).overwrites (idName c.config.seqPlacement c.config.seqKey) = false
  table : c.config.sessionPlacement = .cookie → c.config.sessionTable.all validCookieValueByte

lemma idWrite_name (placement : Placement) (key value : GoString) :
    (idWrite placement key value).name = idName placement key := by
  cases placement <;> rfl

lemma idWrite_clean {key value : GoString} (hne : value ≠ [])
    (hpath : placement = .path → 0x2f ∉ value) : (idWrite placement key value).Clean := by
  cases placement with
  | path => exact ⟨hne, hpath rfl⟩
  | _ => trivial

/-- The request of an upload before anything is written. -/
def bareRequest (c : Client) (url : URL) : Request := ⟨c.config.uplinkHTTPMethod, url, c.headers, c.host, .nil, 0⟩

/-- The writes of the session id and of the sequence number. -/
def Upload.sessionWrite (c : Client) (u : Upload) : Write :=
  idWrite c.config.sessionPlacement c.config.sessionKey (u.sessionID c)

def Upload.seqWrite (c : Client) (u : Upload) : Write := idWrite c.config.seqPlacement c.config.seqKey u.seqStr

/-- The request of an upload carries the session id from the start, and the sequence number from then on. -/
lemma uploadRequest_carries {deps : Deps} {c : Client} {url : URL} (hm : c.config.WF) (hsep : Separate c)
    (hurl : baseURL deps c = .ok url) (u : Upload) : ∃ r, uploadRequest deps c u = .ok r ∧
      Carries (bareRequest c url) (u.sessionWrite c) r ∧
      Carries ((bareRequest c url).write (u.sessionWrite c)) (u.seqWrite c) r := by
  have hsid : u.sessionID c ≠ [] := newSessionID_ne_nil hm _
  have hseq : u.seqStr ≠ [] := formatUint_ne_nil _
  have hsclean : (u.sessionWrite c).Clean := idWrite_clean hsid fun hp => newSessionID_no_slash hm hp _
  have hqclean : (u.seqWrite c).Clean := idWrite_clean hseq fun _ => formatUint_no_slash _
  have hsname : (u.sessionWrite c).name = _ := idWrite_name _ _ _
  have hqname : (u.seqWrite c).name = _ := idWrite_name _ _ _
  -- what the padding and the payload leave of a write
  have hrest : ∀ {r₀ r : Request} {w : Write}, Carries r₀ w r → w.Clean →
      ((∃ draw, 0 < c.paddingRange.rand draw) → (paddingName c.config).overwrites w.name = false) →
      (∀ i, (dataName c.config i).overwrites w.name = false) →
      Carries r₀ w (applyUplinkData c.config u.payload u.chunk
        { applyXPadding deps c u.padding r with body := .nil }) := by
    intro r₀ r w h hw hpad hdata
    have hbody : Carries r₀ w { applyXPadding deps c u.padding r with body := .nil } :=
      Carries.congr rfl rfl (h.applyXPadding hw hpad)
    exact hbody.applyUplinkData hw hdata
  refine ⟨applyUplinkData c.config u.payload u.chunk { applyXPadding deps c u.padding
    (((bareRequest c url).write (u.sessionWrite c)).write (u.seqWrite c)) with body := .nil }, ?_, ?_, ?_⟩
  · simp only [uploadRequest, newRequest, hurl]
    rw [show url.path = (bareRequest c url).url.path from rfl]
    rw [← bareRequest, applyMeta_eq hm _ hsid hseq]
    rfl
  · refine hrest ((carries_write _ _).write hsclean _ ?_) hsclean ?_ ?_
    · rw [hsname, hqname]
      exact hsep.seq
    · intro hpos
      rw [hsname]
      exact (hsep.padding hpos).1
    · intro i
      rw [hsname]
      exact (hsep.data i).1
  · refine hrest (carries_write _ _) hqclean ?_ ?_
    · intro hpos
      rw [hqname]
      exact (hsep.padding hpos).2
    · intro i
      rw [hqname]
      exact (hsep.data i).2

/-- **Uploads can be told apart.**  The request of an upload holds its session id and its sequence number, and
uploads with different ids or different numbers differ at the placement of the one or of the other. -/
theorem upload_metadata_recoverable {toUpper : GoString → GoString} {opts : MetaOptions} {c : Client}
    (hm : normalizeMeta toUpper opts .packetUp = .ok c.config) (hsep : Separate c) {deps : Deps} {url : URL}
    (hurl : baseURL deps c = .ok url) (u u' : Upload) :
    ∃ r r', uploadRequest deps c u = .ok r ∧ uploadRequest deps c u' = .ok r' ∧
      Holds r c.config.sessionPlacement c.config.sessionKey (u.sessionID c) ∧
      Holds r c.config.seqPlacement c.config.seqKey u.seqStr ∧ ((u.sessionID c, u.seq) ≠ (u'.sessionID c, u'.seq) →
        carrier r c.config.sessionPlacement c.config.sessionKey ≠
            carrier r' c.config.sessionPlacement c.config.sessionKey ∨
          carrier r c.config.seqPlacement c.config.seqKey ≠ carrier r' c.config.seqPlacement c.config.seqKey) := by
  have hwf := normalizeMeta_wf hm
  obtain ⟨r, hr, hsession, hseq⟩ := uploadRequest_carries hwf hsep hurl u
  obtain ⟨r', hr', hsession', hseq'⟩ := uploadRequest_carries hwf hsep hurl u'
  refine ⟨r, r', hr, hr', hsession.holds hwf.session, hseq.holds hwf.seq, fun hne => ?_⟩
  by_contra hcon
  rw [not_or, not_not, not_not] at hcon
  -- the session id comes first: the sequence number is read relative to the request that has it
  have hsid : u.sessionID c = u'.sessionID c := by
    refine Carries.inj hwf.session hsession hsession' (fun hp => ?_) (fun hp => ?_) hcon.1
    · exact ⟨newSessionID_no_slash hwf hp _, newSessionID_no_slash hwf hp _⟩
    · exact ⟨newSessionID_valid (hsep.table hp) _, newSessionID_valid (hsep.table hp) _⟩
  have hwrite : u'.sessionWrite c = u.sessionWrite c := by
    unfold Upload.sessionWrite
    rw [hsid]
  rw [hwrite] at hseq'
  have hstr : u.seqStr = u'.seqStr := by
    refine Carries.inj hwf.seq hseq hseq' (fun _ => ?_) (fun _ => ?_) hcon.2
    · exact ⟨formatUint_no_slash _, formatUint_no_slash _⟩
    · exact ⟨formatUint_valid _, formatUint_valid _⟩
  exact hne (by rw [hsid, seqStr_inj hstr])

/-! ### Configurations -/

/-- A client with the default padding and no headers of its own. -/
def sampleClient (m : MetaConfig) : Client :=
  ⟨ascii "192.0.2.1:80", ascii "http", ascii "example.org", ascii "/x", fun _ => [], ⟨100, 1000⟩, m⟩

def sampleDeps : Deps := ⟨.ok, List.length⟩

/-- An upload whose session id repeats one byte of the table. -/
def sampleUpload (index : ℕ) (seq : BitVec 64) : Upload :=
  ⟨⟨0, fun _ => index, fun _ => BitVec.ofNat 8 index⟩, seq, ⟨0, fun _ => 0⟩, ascii "data", fun _ => 0⟩

/-- The session id in a header, the sequence number in the query, padding in a cookie. -/
def separateOptions : MetaOptions :=
  { sessionPlacement := ascii "header", seqPlacement := ascii "query", xPaddingObfsMode := true,
    xPaddingPlacement := ascii "cookie" }

def separateConfig : MetaConfig where
  sessionPlacement := .header
  sessionKey := ascii "X-Session"
  seqPlacement := .query
  seqKey := ascii "x_seq"
  sessionTable := []
  sessionLength := ⟨0, 0⟩
  uplinkDataPlacement := .auto
  uplinkDataKey := ascii "X-Data"
  uplinkChunkSize := ⟨1000000, 1000000⟩
  uplinkHTTPMethod := ascii "POST"
  xPaddingObfsMode := true
  xPaddingKey := ascii "x_padding"
  xPaddingHeader := ascii "X-Padding"
  xPaddingPlacement := .cookie
  xPaddingMethod := .repeatX
  scMaxEachPostBytes := ⟨1000000, 1000000⟩
  scMinPostsIntervalMs := ⟨30, 30⟩

lemma separateConfig_separate : Separate (sampleClient separateConfig) where
  seq := by decide
  padding := fun _ => by decide
  data := fun i => by
    rw [show dataName (sampleClient separateConfig).config i = .header (ascii "Content-Type") from rfl]
    decide
  table := by decide

theorem separate_uploads_differ : ∃ r r',
    uploadRequest sampleDeps (sampleClient separateConfig) (sampleUpload 1 0) = .ok r ∧
      uploadRequest sampleDeps (sampleClient separateConfig) (sampleUpload 2 0) = .ok r' ∧
      (carrier r .header (ascii "X-Session") ≠ carrier r' .header (ascii "X-Session") ∨
        carrier r .query (ascii "x_seq") ≠ carrier r' .query (ascii "x_seq")) := by
  have hm : normalizeMeta id separateOptions .packetUp = .ok separateConfig := by decide +kernel
  obtain ⟨r, r', hr, hr', -, -, hne⟩ := upload_metadata_recoverable hm
    separateConfig_separate (rfl : baseURL sampleDeps (sampleClient separateConfig) = .ok _) (sampleUpload 1 0)
    (sampleUpload 2 0)
  exact ⟨r, r', hr, hr', hne (by decide +kernel)⟩

/-- The session id and the sequence number in one header. -/
def clashOptions : MetaOptions :=
  { sessionPlacement := ascii "header", sessionKey := ascii "x-seq", seqPlacement := ascii "header" }

def clashConfig : MetaConfig :=
  { separateConfig with
    sessionKey := ascii "x-seq"
    seqPlacement := .header
    seqKey := ascii "X-Seq"
    xPaddingObfsMode := false
    xPaddingPlacement := .queryInHeader }

/-- The session id in a cookie, drawn from two bytes that a cookie does not keep. -/
def quoteOptions : MetaOptions :=
  { sessionPlacement := ascii "cookie", sessionTable := [0x22, 0x3b], sessionLength := ascii "31" }

def quoteConfig : MetaConfig :=
  { clashConfig with
    sessionPlacement := .cookie
    sessionKey := ascii "x_session"
    seqPlacement := .path
    seqKey := []
    sessionTable := [0x22, 0x3b]
    sessionLength := ⟨31, 31⟩ }

/-- The session id in the header of cookies, the sequence number in a cookie. -/
def cookieOptions : MetaOptions :=
  { sessionPlacement := ascii "header", sessionKey := ascii "cookie", seqPlacement := ascii "cookie" }

def cookieConfig : MetaConfig :=
  { clashConfig with sessionKey := ascii "cookie", seqPlacement := .cookie, seqKey := ascii "x_seq" }

/-- What a placement of an upload's request shows. -/
def uploadCarrier (m : MetaConfig) (u : Upload) (placement : Placement) (key : GoString) :
    Except RequestError (List GoString) :=
  (uploadRequest sampleDeps (sampleClient m) u).map fun r => carrier r placement key

/-- **Accepted configurations that lose a session id.**  Its header is overwritten by the sequence number, its
bytes are dropped from its cookie, or a cookie is appended to its header. -/
theorem upload_session_lost : (normalizeMeta id clashOptions .packetUp = .ok clashConfig ∧
      newSessionID clashConfig (sampleUpload 1 0).session ≠ newSessionID clashConfig (sampleUpload 2 0).session ∧
      uploadCarrier clashConfig (sampleUpload 1 0) .header (ascii "x-seq") = .ok [ascii "0"] ∧
      uploadCarrier clashConfig (sampleUpload 2 0) .header (ascii "x-seq") = .ok [ascii "0"]) ∧
    (normalizeMeta id quoteOptions .packetUp = .ok quoteConfig ∧
      newSessionID quoteConfig (sampleUpload 0 0).session ≠ newSessionID quoteConfig (sampleUpload 1 0).session ∧
      uploadCarrier quoteConfig (sampleUpload 0 0) .cookie (ascii "x_session") = .ok [ascii "x_session="] ∧
      uploadCarrier quoteConfig (sampleUpload 1 0) .cookie (ascii "x_session") = .ok [ascii "x_session="] ∧
      uploadCarrier quoteConfig (sampleUpload 0 0) .path [] = .ok [ascii "/x/0"] ∧
      uploadCarrier quoteConfig (sampleUpload 1 0) .path [] = .ok [ascii "/x/0"]) ∧
    (normalizeMeta id cookieOptions .packetUp = .ok cookieConfig ∧
      uploadCarrier cookieConfig (sampleUpload 1 0) .header (ascii "cookie") =
        .ok [newSessionID cookieConfig (sampleUpload 1 0).session ++ ascii "; x_seq=0"]) := by
  decide +kernel

end SingBox.Xhttp
