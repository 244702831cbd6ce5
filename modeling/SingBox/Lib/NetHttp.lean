import SingBox.Lib.GoString

/-!
# The parts of `net/url` and `net/http` that build requests
-/

namespace SingBox.Lib

open List

/-! ### Queries -/

/-- The bytes `url.QueryEscape` leaves as they are. -/
def isUnreserved (b : Byte) : Bool :=
  (0x30 ≤ b ∧ b ≤ 0x39) ∨ (0x41 ≤ b ∧ b ≤ 0x5a) ∨ (0x61 ≤ b ∧ b ≤ 0x7a) ∨ b = 0x2d ∨ b = 0x5f ∨ b = 0x2e ∨ b = 0x7e

def upperHex (n : ℕ) : Byte := if n < 10 then BitVec.ofNat 8 (48 + n) else BitVec.ofNat 8 (55 + n)

def queryEscapeByte (b : Byte) : GoString :=
  if isUnreserved b then [b]
  else if b = 0x20 then [0x2b]
  else [0x25, upperHex (b.toNat / 16), upperHex (b.toNat % 16)]

def queryEscape (s : GoString) : GoString := s.flatMap queryEscapeByte

/-- `url.QueryUnescape`; `none` for a percent sign that two hexadecimal digits do not follow. -/
def queryUnescape : GoString → Option GoString
  | [] => some []
  | b :: s =>
    if b = 0x25 then
      match s with
      | x :: y :: t =>
        match hexDigit? x, hexDigit? y with
        | some x, some y => (queryUnescape t).map (BitVec.ofNat 8 (16 * x + y) :: ·)
        | _, _ => none
      | _ => none
    else (queryUnescape s).map ((if b = 0x2b then 0x20 else b) :: ·)

/-- `url.Values`: pairs of a key and a value, for each key in the order of its values. -/
abbrev Values := List (GoString × GoString)

def Values.get (q : Values) (key : GoString) : List GoString := (q.filter (·.1 = key)).map Prod.snd

def Values.set (q : Values) (key value : GoString) : Values := q.filter (·.1 ≠ key) ++ [(key, value)]

def stringLE : GoString → GoString → Bool
  | [], _ => true
  | _ :: _, [] => false
  | a :: s, b :: t => if a = b then stringLE s t else a < b

def queryPair (p : GoString × GoString) : GoString := queryEscape p.1 ++ 0x3d :: queryEscape p.2

/-- `Values.Encode`: the keys in order. -/
def Values.encode (q : Values) : GoString :=
  [0x26].intercalate ((q.mergeSort fun a b => stringLE a.1 b.1).map queryPair)

/-- One part of a query between ampersands; parts that cannot be read are skipped. -/
def parseQueryPart (part : GoString) : Option (GoString × GoString) :=
  if part.contains 0x3b || part.isEmpty then none
  else
    let (key, value) := (cut 0x3d part).getD (part, [])
    match queryUnescape key, queryUnescape value with
    | some key, some value => some (key, value)
    | _, _ => none

/-- `url.ParseQuery`, without its error. -/
def parseQuery (raw : GoString) : Values := (split 0x26 raw).filterMap parseQueryPart

lemma hexDigit?_upperHex : ∀ n < 16, hexDigit? (upperHex n) = some n := by decide

lemma queryEscapeByte_cases (b : Byte) : queryEscapeByte b = [b] ∧ isUnreserved b = true ∨
    b = 0x20 ∧ queryEscapeByte b = [0x2b] ∨
    queryEscapeByte b = [0x25, upperHex (b.toNat / 16), upperHex (b.toNat % 16)] := by
  unfold queryEscapeByte
  split
  · exact .inl ⟨rfl, ‹_›⟩
  · split
    · exact .inr (.inl ⟨‹_›, rfl⟩)
    · exact .inr (.inr rfl)

lemma queryUnescape_cons {b : Byte} (hb : b ≠ 0x25) (s : GoString) :
    queryUnescape (b :: s) = (queryUnescape s).map ((if b = 0x2b then 0x20 else b) :: ·) := by
  rw [queryUnescape.eq_def]
  exact if_neg hb

lemma queryUnescape_escapeByte (b : Byte) (s : GoString) :
    queryUnescape (queryEscapeByte b ++ s) = (queryUnescape s).map (b :: ·) := by
  rcases queryEscapeByte_cases b with ⟨hb, hu⟩ | ⟨rfl, hb⟩ | hb
  · have h25 : b ≠ 0x25 := by rintro rfl; exact absurd hu (by decide)
    have h2b : b ≠ 0x2b := by rintro rfl; exact absurd hu (by decide)
    rw [hb, singleton_append, queryUnescape_cons h25, if_neg h2b]
  · rw [hb, singleton_append, queryUnescape_cons (by decide), if_pos rfl]
  · have hx := hexDigit?_upperHex (b.toNat / 16) (by omega)
    have hy := hexDigit?_upperHex (b.toNat % 16) (by omega)
    have hval : BitVec.ofNat 8 (16 * (b.toNat / 16) + b.toNat % 16) = b := by
      rw [Nat.div_add_mod]
      simp
    simp [hb, queryUnescape, hx, hy, hval]

lemma queryUnescape_escape (s : GoString) : queryUnescape (queryEscape s) = some s := by
  induction s with
  | nil => rfl
  | cons b s ih =>
    rw [queryEscape, flatMap_cons, queryUnescape_escapeByte, ← queryEscape, ih]
    rfl

variable {s : GoString}

lemma not_mem_queryEscape {c : Byte} (hc : c = 0x26 ∨ c = 0x3d ∨ c = 0x3b) : c ∉ queryEscape s := by
  intro h
  obtain ⟨b, -, hb⟩ := mem_flatMap.1 h
  have hhex : ∀ n < 16, upperHex n ≠ 0x26 ∧ upperHex n ≠ 0x3d ∧ upperHex n ≠ 0x3b := by decide
  rcases queryEscapeByte_cases b with ⟨he, hu⟩ | ⟨rfl, he⟩ | he
  · rw [he, mem_singleton] at hb
    subst hb
    rcases hc with rfl | rfl | rfl <;> exact absurd hu (by decide)
  · rw [he, mem_singleton] at hb
    subst hb
    rcases hc with hc | hc | hc <;> exact absurd hc (by decide)
  · have h1 := hhex (b.toNat / 16) (by omega)
    have h2 := hhex (b.toNat % 16) (by omega)
    rw [he] at hb
    simp only [mem_cons, not_mem_nil, or_false] at hb
    rcases hb with rfl | rfl | rfl
    · rcases hc with hc | hc | hc <;> exact absurd hc (by decide)
    · exact hc.elim h1.1 fun hc => hc.elim h1.2.1 h1.2.2
    · exact hc.elim h2.1 fun hc => hc.elim h2.2.1 h2.2.2

lemma not_mem_queryPair {p : GoString × GoString} {c : Byte} (hc : c = 0x26 ∨ c = 0x3b) : c ∉ queryPair p := by
  have hc' : c = 0x26 ∨ c = 0x3d ∨ c = 0x3b := hc.imp_right .inr
  have hne : c ≠ 0x3d := by rcases hc with rfl | rfl <;> decide
  rw [queryPair, mem_append, mem_cons]
  rintro (h | h | h)
  · exact not_mem_queryEscape hc' h
  · exact hne h
  · exact not_mem_queryEscape hc' h

lemma parseQueryPart_pair (p : GoString × GoString) : parseQueryPart (queryPair p) = some p := by
  have hsemicolon : (queryPair p).contains 0x3b = false := by
    simpa using not_mem_queryPair (.inr rfl)
  have hne : (queryPair p).isEmpty = false := by simp [queryPair]
  rw [parseQueryPart, hsemicolon, hne, if_neg (by decide)]
  have hcut : cut 0x3d (queryPair p) = some (queryEscape p.1, queryEscape p.2) :=
    cut_append (not_mem_queryEscape (.inr (.inl rfl)))
  simp only [hcut, Option.getD_some, queryUnescape_escape]

lemma split_append {sep : Byte} (a b : GoString) : split sep (a ++ sep :: b) = split sep a ++ split sep b := by
  induction a with
  | nil => simp [split]
  | cons c a ih =>
    by_cases hc : c = sep
    · simp [split, hc, ih]
    · simp only [cons_append, split, if_neg hc, ih]
      cases hs : split sep a with
      | nil => exact absurd hs (split_ne_nil sep a)
      | cons p ps => rfl

lemma split_concat {sep b : Byte} (hb : b ≠ sep) (s : GoString) :
    ∃ front last, split sep s = front ++ [last] ∧ split sep (s ++ [b]) = front ++ [last ++ [b]] := by
  induction s with
  | nil => exact ⟨[], [], rfl, by simp [split, hb]⟩
  | cons c s ih =>
    obtain ⟨front, last, hs, hsb⟩ := ih
    rw [cons_append, split, split, hs, hsb]
    split
    · exact ⟨[] :: front, last, rfl, rfl⟩
    · cases front with
      | nil => exact ⟨[], c :: last, rfl, rfl⟩
      | cons p front => exact ⟨(c :: p) :: front, last, rfl, rfl⟩

lemma split_of_not_mem {sep : Byte} (h : sep ∉ s) : split sep s = [s] := by
  rw [split_eq_cut, cut_eq_none.2 h]

lemma parseQuery_pair (p : GoString × GoString) : parseQuery (queryPair p) = [p] := by
  rw [parseQuery, split_of_not_mem (not_mem_queryPair (.inl rfl))]
  simp [parseQueryPart_pair]

/-- **A pair that is appended to a query is read back after the others.** -/
theorem parseQuery_append (raw : GoString) (p : GoString × GoString) :
    parseQuery (raw ++ 0x26 :: queryPair p) = parseQuery raw ++ [p] := by
  rw [parseQuery, split_append, filterMap_append, ← parseQuery, ← parseQuery, parseQuery_pair]

/-! ### Headers -/

/-- The bytes of a token, of which header names consist. -/
def isTokenByte (b : Byte) : Bool :=
  (0x30 ≤ b ∧ b ≤ 0x39) ∨ (0x41 ≤ b ∧ b ≤ 0x5a) ∨ (0x61 ≤ b ∧ b ≤ 0x7a) ∨ (ascii "!#$%&'*+-.^_`|~").contains b

/-- The loop of `canonicalMIMEHeaderKey`: a letter is a capital at the start and after a dash. -/
def canonicalLoop : Bool → GoString → GoString
  | _, [] => []
  | upper, b :: s =>
    let c :=
      if upper ∧ 0x61 ≤ b ∧ b ≤ 0x7a then b - 0x20
      else if ¬ upper ∧ 0x41 ≤ b ∧ b ≤ 0x5a then b + 0x20
      else b
    c :: canonicalLoop (c = 0x2d) s

/-- `textproto.CanonicalMIMEHeaderKey`. -/
def canonicalHeaderKey (s : GoString) : GoString := if s.all isTokenByte then canonicalLoop true s else s

/-- `http.Header`. -/
abbrev Header := GoString → List GoString

def Header.get (h : Header) (key : GoString) : GoString := (h (canonicalHeaderKey key)).headD []

def Header.set (h : Header) (key value : GoString) : Header := Function.update h (canonicalHeaderKey key) [value]

/-- What follows a text is written with capitals or not according to that text. -/
lemma canonicalLoop_append (upper : Bool) (a : GoString) :
    ∃ upper', ∀ b, canonicalLoop upper (a ++ b) = canonicalLoop upper a ++ canonicalLoop upper' b := by
  induction a generalizing upper with
  | nil => exact ⟨upper, fun b => rfl⟩
  | cons c a ih =>
    simp only [cons_append, canonicalLoop]
    obtain ⟨upper', h⟩ := ih _
    exact ⟨upper', fun b => by rw [h]⟩

lemma canonicalLoop_digits {d : GoString} (h : ∀ b ∈ d, 0x30 ≤ b ∧ b ≤ 0x39) (upper : Bool) :
    canonicalLoop upper d = d := by
  induction d generalizing upper with
  | nil => rfl
  | cons b d ih =>
    obtain ⟨hb, hd⟩ := forall_mem_cons.1 h
    have hup : ∀ b : Byte, 0x30 ≤ b ∧ b ≤ 0x39 → ¬ (0x61 ≤ b ∧ b ≤ 0x7a) ∧ ¬ (0x41 ≤ b ∧ b ≤ 0x5a) := by decide
    simp only [canonicalLoop, hup b hb, and_false, if_false, ih hd]

lemma canonicalHeaderKey_number {key d e : GoString} (hd : ∀ b ∈ d, 0x30 ≤ b ∧ b ≤ 0x39)
    (he : ∀ b ∈ e, 0x30 ≤ b ∧ b ≤ 0x39) (h : canonicalHeaderKey (key ++ d) = canonicalHeaderKey (key ++ e)) :
    d = e := by
  have htoken : ∀ {d : GoString}, (∀ b ∈ d, 0x30 ≤ b ∧ b ≤ 0x39) → d.all isTokenByte = true := by
    intro d hd
    have hdigit : ∀ b : Byte, 0x30 ≤ b ∧ b ≤ 0x39 → isTokenByte b = true := by decide
    exact all_eq_true.2 fun b hb => hdigit b (hd b hb)
  simp only [canonicalHeaderKey, all_append, htoken hd, htoken he] at h
  split at h
  · obtain ⟨upper, happ⟩ := canonicalLoop_append true key
    rw [happ, happ, canonicalLoop_digits hd, canonicalLoop_digits he] at h
    exact append_cancel_left h
  · exact append_cancel_left h

/-! ### Cookies -/

def validCookieValueByte (b : Byte) : Bool := 0x20 ≤ b ∧ b < 0x7f ∧ b ≠ 0x22 ∧ b ≠ 0x3b ∧ b ≠ 0x5c

def sanitizeCookieName (name : GoString) : GoString := name.map fun b => if b = 0x0a ∨ b = 0x0d then 0x2d else b

def sanitizeCookieValue (value : GoString) : GoString :=
  let v := value.filter validCookieValueByte
  if v.contains 0x20 || v.contains 0x2c then 0x22 :: v ++ [0x22] else v

/-- A cookie as a request carries it. -/
def cookieText (name value : GoString) : GoString := sanitizeCookieName name ++ 0x3d :: sanitizeCookieValue value

def cookieKey : GoString := ascii "Cookie"

def Header.addCookie (h : Header) (name value : GoString) : Header :=
  if Header.get h cookieKey ≠ [] then
    Header.set h cookieKey (Header.get h cookieKey ++ ascii "; " ++ cookieText name value)
  else Header.set h cookieKey (cookieText name value)

/-! ### Reading cookies -/

/-- `isASCIISpace` of `net/textproto`. -/
def isASCIISpace (b : Byte) : Bool := b = 0x20 ∨ b = 0x09 ∨ b = 0x0a ∨ b = 0x0d

/-- `textproto.TrimString`. -/
def trimString (s : GoString) : GoString := ((s.dropWhile isASCIISpace).reverse.dropWhile isASCIISpace).reverse

/-- The value of a cookie, without the quotes around it; `none` for a byte that is not valid. -/
def parseCookieValue (raw : GoString) : Option GoString :=
  let raw := if 1 < raw.length ∧ raw.head? = some 0x22 ∧ raw.getLast? = some 0x22 then (raw.drop 1).dropLast else raw
  if raw.all validCookieValueByte then some raw else none

/-- One part of the header of cookies; parts that cannot be read are skipped. -/
def readCookiePart (part : GoString) : Option (GoString × GoString) :=
  let part := trimString part
  if part = [] then none
  else
    let name := trimString ((cut 0x3d part).getD (part, [])).1
    if name = [] ∨ ¬ name.all isTokenByte then none
    else (parseCookieValue ((cut 0x3d part).getD (part, [])).2).map fun value => (name, value)

/-- `Request.Cookies`. -/
def readCookies (h : Header) : List (GoString × GoString) :=
  (h cookieKey).flatMap fun line => (split 0x3b (trimString line)).filterMap readCookiePart

lemma trimString_of_all (h : ∀ b ∈ s, isASCIISpace b = false) : trimString s = s := by
  have hdrop : ∀ {s : GoString}, (∀ b ∈ s, isASCIISpace b = false) → s.dropWhile isASCIISpace = s := by
    intro s h
    cases s with
    | nil => rfl
    | cons b s => rw [dropWhile_cons_of_neg (by simp [h b mem_cons_self])]
  rw [trimString, hdrop h, hdrop (by simpa using h), reverse_reverse]

section Blank

variable {b : Byte}

lemma trimString_cons (hb : isASCIISpace b = true) (s : GoString) : trimString (b :: s) = trimString s := by
  rw [trimString, dropWhile_cons_of_pos hb, ← trimString]

lemma trimString_concat (hb : isASCIISpace b = true) (s : GoString) : trimString (s ++ [b]) = trimString s := by
  rw [trimString, trimString, dropWhile_append]
  split
  next hs =>
    rw [isEmpty_iff.1 hs, dropWhile_cons_of_pos hb]
    rfl
  · rw [reverse_append, reverse_singleton, singleton_append, dropWhile_cons_of_pos hb]

lemma readCookiePart_congr {s t : GoString} (h : trimString s = trimString t) :
    readCookiePart s = readCookiePart t := by
  rw [readCookiePart, readCookiePart, h]

def cookieParts (line : GoString) : List (GoString × GoString) := (split 0x3b line).filterMap readCookiePart

lemma cookieParts_append (s t : GoString) : cookieParts (s ++ 0x3b :: t) = cookieParts s ++ cookieParts t := by
  rw [cookieParts, split_append, filterMap_append, ← cookieParts, ← cookieParts]

lemma cookieParts_cons (hb : isASCIISpace b = true) (s : GoString) : cookieParts (b :: s) = cookieParts s := by
  have hsep : b ≠ 0x3b := by
    rintro rfl
    cases hb
  rw [cookieParts, cookieParts]
  cases hs : split 0x3b s with
  | nil => exact absurd hs (split_ne_nil _ _)
  | cons p ps =>
    rw [split, if_neg hsep, hs, filterMap_cons, filterMap_cons, readCookiePart_congr (trimString_cons hb p)]

lemma cookieParts_concat (hb : isASCIISpace b = true) (s : GoString) : cookieParts (s ++ [b]) = cookieParts s := by
  have hsep : b ≠ 0x3b := by
    rintro rfl
    cases hb
  obtain ⟨front, last, hs, hsb⟩ := split_concat hsep s
  rw [cookieParts, cookieParts, hs, hsb, filterMap_append, filterMap_append, filterMap_cons,
    filterMap_cons, readCookiePart_congr (trimString_concat hb last)]

/-- What is trimmed off a line is trimmed off its first and its last part anyway. -/
lemma cookieParts_trimString (line : GoString) : cookieParts (trimString line) = cookieParts line := by
  have hleft (s : GoString) : cookieParts (s.dropWhile isASCIISpace) = cookieParts s := by
    induction s with
    | nil => rfl
    | cons b s ih =>
      rw [dropWhile_cons]
      split
      next hb => rw [ih, cookieParts_cons hb]
      · rfl
  -- on the reversed line, so that the last byte is the first one
  have hright (s : GoString) : cookieParts (s.dropWhile isASCIISpace).reverse = cookieParts s.reverse := by
    induction s with
    | nil => rfl
    | cons b s ih =>
      rw [dropWhile_cons]
      split
      next hb => rw [ih, reverse_cons, cookieParts_concat hb]
      · rfl
  rw [trimString, hright, reverse_reverse, hleft]

lemma readCookies_eq (h : Header) : readCookies h = (h cookieKey).flatMap cookieParts :=
  flatMap_congr fun line _ => cookieParts_trimString line

end Blank

/-- A cookie that a reader understands: its name is a token and its value has no blank. -/
structure PlainCookie (c : GoString × GoString) : Prop where
  name_ne : c.1 ≠ []
  name : ∀ b ∈ c.1, isTokenByte b = true
  value_ne : c.2 ≠ []
  value : ∀ b ∈ c.2, validCookieValueByte b = true ∧ b ≠ 0x20

def plainText (c : GoString × GoString) : GoString := c.1 ++ 0x3d :: c.2

namespace PlainCookie

variable {c : GoString × GoString}

lemma name_not_space (h : PlainCookie c) : ∀ b ∈ c.1, isASCIISpace b = false ∧ b ≠ 0x3d ∧ b ≠ 0x3b := by
  have htoken : ∀ b : Byte, isTokenByte b = true → isASCIISpace b = false ∧ b ≠ 0x3d ∧ b ≠ 0x3b := by decide
  exact fun b hb => htoken b (h.name b hb)

lemma value_not_space (h : PlainCookie c) : ∀ b ∈ c.2, isASCIISpace b = false ∧ b ≠ 0x22 ∧ b ≠ 0x3b := by
  have hvalid : ∀ b : Byte, validCookieValueByte b = true ∧ b ≠ 0x20 →
      isASCIISpace b = false ∧ b ≠ 0x22 ∧ b ≠ 0x3b := by decide
  exact fun b hb => hvalid b (h.value b hb)

lemma text_not_space (h : PlainCookie c) : ∀ b ∈ plainText c, isASCIISpace b = false ∧ b ≠ 0x3b := by
  intro b hb
  rw [plainText, mem_append, mem_cons] at hb
  rcases hb with hb | rfl | hb
  · exact ⟨(h.name_not_space b hb).1, (h.name_not_space b hb).2.2⟩
  · decide
  · exact ⟨(h.value_not_space b hb).1, (h.value_not_space b hb).2.2⟩

lemma readCookiePart_text (h : PlainCookie c) : readCookiePart (plainText c) = some c := by
  have htrim : trimString (plainText c) = plainText c := trimString_of_all fun b hb => (h.text_not_space b hb).1
  have hcut : cut 0x3d (plainText c) = some (c.1, c.2) := cut_append fun hb => (h.name_not_space _ hb).2.1 rfl
  have hname : trimString c.1 = c.1 := trimString_of_all fun b hb => (h.name_not_space b hb).1
  have hvalue : parseCookieValue c.2 = some c.2 := by
    have hquote : ¬ (1 < c.2.length ∧ c.2.head? = some 0x22 ∧ c.2.getLast? = some 0x22) := by
      rintro ⟨-, hhead, -⟩
      exact (h.value_not_space _ (mem_of_mem_head? hhead)).2.1 rfl
    rw [parseCookieValue]
    simp only [if_neg hquote]
    rw [if_pos (all_eq_true.2 fun b hb => (h.value b hb).1)]
  have hne : plainText c ≠ [] := by simp [plainText]
  simp only [readCookiePart, htrim, if_neg hne, hcut, Option.getD_some, hname, h.name_ne, all_eq_true.2 h.name,
    hvalue, Option.map_some, not_true_eq_false, or_self, if_false]

end PlainCookie

/-- The cookies of a request as one text. -/
def joinCookies (cs : List (GoString × GoString)) : GoString := (ascii "; ").intercalate (cs.map plainText)

lemma cookieParts_join {cs : List (GoString × GoString)} (hcs : ∀ c ∈ cs, PlainCookie c) :
    cookieParts (joinCookies cs) = cs := by
  induction cs with
  | nil => rfl
  | cons c cs ih =>
    obtain ⟨hc, hcs⟩ := forall_mem_cons.1 hcs
    have hself : cookieParts (plainText c) = [c] := by
      rw [cookieParts, split_of_not_mem fun hb => (hc.text_not_space _ hb).2 rfl,
        filterMap_cons_some hc.readCookiePart_text]
      rfl
    cases cs with
    | nil => simpa [joinCookies] using hself
    | cons c' cs =>
      change cookieParts (plainText c ++ 0x3b :: 0x20 :: joinCookies (c' :: cs)) = _
      rw [cookieParts_append, cookieParts_cons rfl, hself, ih hcs]
      rfl

end SingBox.Lib
