import Mathlib.Data.List.Basic
import Mathlib.Tactic.IntervalCases
import Mathlib.Tactic.Ring

/-!
# Byte strings and the parts of `strings`, `strconv` and `encoding/hex` that work on them

A Go string is a list of bytes, not necessarily valid UTF-8.  White space is that of
`unicode.IsSpace`: since the first byte of an encoded rune is never a continuation byte, a rune is
white space exactly when the bytes from its start spell one of `spaceRunes`.
-/

namespace SingBox.Lib

open List

abbrev Byte := BitVec 8
abbrev GoString := List Byte

/-- The bytes of an ASCII literal. -/
def ascii (s : String) : GoString := s.toList.map fun c => BitVec.ofNat 8 c.toNat

lemma Except.bind_ok {ε : Type*} {α β : Type} {a : Except ε α} {f : α → Except ε β} {b : β}
    (h : (a >>= f) = .ok b) : ∃ v, a = .ok v ∧ f v = .ok b := by
  cases a with
  | error e => cases h
  | ok v => exact ⟨v, rfl, h⟩

/-! ### White space -/

/-- The UTF-8 encodings of the runes `unicode.IsSpace` accepts. -/
def spaceRunes : List GoString :=
  [[0x20], [0x09], [0x0a], [0x0b], [0x0c], [0x0d], [0xc2, 0x85], [0xc2, 0xa0], [0xe1, 0x9a, 0x80],
   [0xe2, 0x80, 0x80], [0xe2, 0x80, 0x81], [0xe2, 0x80, 0x82], [0xe2, 0x80, 0x83],
   [0xe2, 0x80, 0x84], [0xe2, 0x80, 0x85], [0xe2, 0x80, 0x86], [0xe2, 0x80, 0x87],
   [0xe2, 0x80, 0x88], [0xe2, 0x80, 0x89], [0xe2, 0x80, 0x8a], [0xe2, 0x80, 0xa8],
   [0xe2, 0x80, 0xa9], [0xe2, 0x80, 0xaf], [0xe2, 0x81, 0x9f], [0xe3, 0x80, 0x80]]

/-- The rest of `s` after one of the given byte sequences. -/
def stripOne (runes : List GoString) (s : GoString) : Option GoString :=
  runes.findSome? fun r => if r.isPrefixOf s then some (s.drop r.length) else none

/-- `s` without the leading byte sequences of the list, at most `n` of them. -/
def stripMany (runes : List GoString) : ℕ → GoString → GoString
  | 0, s => s
  | n + 1, s =>
    match stripOne runes s with
    | some t => stripMany runes n t
    | none => s

def trimSpace (s : GoString) : GoString :=
  let t := stripMany spaceRunes s.length s
  (stripMany (spaceRunes.map List.reverse) t.length t.reverse).reverse

/-- The loop of `strings.Fields`: `cur` is the field being read. -/
def fieldsLoop : ℕ → GoString → GoString → List GoString
  | 0, cur, _ => if cur = [] then [] else [cur]
  | _ + 1, cur, [] => if cur = [] then [] else [cur]
  | n + 1, cur, b :: s =>
    match stripOne spaceRunes (b :: s) with
    | some t => (if cur = [] then [] else [cur]) ++ fieldsLoop n [] t
    | none => fieldsLoop n (cur ++ [b]) s

def fields (s : GoString) : List GoString := fieldsLoop (s.length + 1) [] s

/-- A printable ASCII character other than the blank. -/
def isGraphic (b : Byte) : Bool := 0x21 ≤ b ∧ b ≤ 0x7e

section Graphic

variable {runes : List GoString} (hr : ∀ r ∈ runes, r.head?.any (!isGraphic ·)) {s : GoString}

include hr

lemma stripOne_graphic (hs : ∀ b ∈ s.head?, isGraphic b) : stripOne runes s = none := by
  rw [stripOne, findSome?_eq_none_iff]
  intro r hmem
  obtain ⟨c, hc, hblank⟩ := (Option.any_eq_true _ _).1 (hr r hmem)
  refine if_neg fun hpre => ?_
  obtain ⟨t, rfl⟩ := isPrefixOf_iff_prefix.1 hpre
  have hgraphic := hs c (by rw [head?_append, hc]; rfl)
  simp [hgraphic] at hblank

lemma stripMany_graphic (hs : ∀ b ∈ s, isGraphic b) (n : ℕ) : stripMany runes n s = s := by
  cases n with
  | zero => rfl
  | succ n => rw [stripMany, stripOne_graphic hr fun b hb => hs b (mem_of_head? hb)]

end Graphic

variable {s : GoString}

lemma trimSpace_graphic (hs : ∀ b ∈ s, isGraphic b) : trimSpace s = s := by
  have hrev : ∀ b ∈ s.reverse, isGraphic b := fun b hb => hs b (mem_reverse.1 hb)
  rw [trimSpace, stripMany_graphic (by decide) hs, stripMany_graphic (by decide) hrev, reverse_reverse]

variable {n : ℕ}

lemma fieldsLoop_graphic (cur : GoString) {w s : GoString} (hw : ∀ b ∈ w, isGraphic b) :
    fieldsLoop (w.length + n) cur (w ++ s) = fieldsLoop n (cur ++ w) s := by
  induction w generalizing cur with
  | nil => simp
  | cons b w ih =>
    obtain ⟨hb, hw⟩ := forall_mem_cons.1 hw
    rw [show (b :: w).length + n = w.length + n + 1 by simp; omega, cons_append, fieldsLoop,
      stripOne_graphic (by decide) (by simpa using hb)]
    simpa using ih (cur ++ [b]) hw

lemma fields_two {a b : GoString} (ha : ∀ c ∈ a, isGraphic c) (hb : ∀ c ∈ b, isGraphic c) (ha0 : a ≠ [])
    (hb0 : b ≠ []) : fields (a ++ 0x20 :: b) = [a, b] := by
  have hspace : stripOne spaceRunes (0x20 :: b) = some b := by
    simp [stripOne, spaceRunes]
  have hlen : (a ++ 0x20 :: b).length + 1 = a.length + (b.length + 1 + 1) := by simp; omega
  rw [fields, hlen, fieldsLoop_graphic [] ha, fieldsLoop, hspace]
  have hrest := fieldsLoop_graphic (n := 1) [] (s := []) hb
  rw [append_nil] at hrest
  simp [hrest, fieldsLoop, ha0, hb0]

/-! ### Cutting and splitting at a byte -/

/-- `strings.Cut` at a one-byte separator; `none` when the separator does not occur. -/
def cut (sep : Byte) : GoString → Option (GoString × GoString)
  | [] => none
  | b :: s => if b = sep then some ([], s) else (cut sep s).map fun p => (b :: p.1, p.2)

/-- `strings.Split` at a one-byte separator. -/
def split (sep : Byte) : GoString → List GoString
  | [] => [[]]
  | b :: s =>
    if b = sep then [] :: split sep s
    else match split sep s with
      | [] => [[b]]
      | p :: ps => (b :: p) :: ps

/-- `strings.ContainsAny(s, "\r\n")`. -/
def hasLineBreak (s : GoString) : Bool := s.any fun b => b = 0x0d || b = 0x0a

/-! ### Numbers -/

inductive NumError where
  | errSyntax
  | errRange
  deriving DecidableEq, Repr

def digit? (b : Byte) : Option ℕ := if 0x30 ≤ b ∧ b ≤ 0x39 then some (b.toNat - 48) else none

/-- The loop of `strconv.ParseUint` in base 10. -/
def parseUintLoop (maxVal : ℕ) : ℕ → GoString → Except NumError ℕ
  | n, [] => .ok n
  | n, b :: s =>
    match digit? b with
    | none => .error .errSyntax
    | some d => if maxVal < 10 * n + d then .error .errRange else parseUintLoop maxVal (10 * n + d) s

/-- `strconv.ParseUint(s, 10, bitSize)`. -/
def parseUint (bitSize : ℕ) (s : GoString) : Except NumError ℕ :=
  if s = [] then .error .errSyntax else parseUintLoop (2 ^ bitSize - 1) 0 s

/-- `strconv.Atoi`, where `int` has 64 bits. -/
def atoi : GoString → Except NumError ℤ
  | [] => .error .errSyntax
  | b :: t =>
    if b = 0x2d then
      match parseUint 64 t with
      | .error e => .error e
      | .ok un => if 2 ^ 63 < un then .error .errRange else .ok (-(un : ℤ))
    else
      match parseUint 64 (if b = 0x2b then t else b :: t) with
      | .error e => .error e
      | .ok un => if 2 ^ 63 ≤ un then .error .errRange else .ok un

/-- `strconv.FormatUint(n, 10)`. -/
def formatUint (n : ℕ) : GoString := (Nat.toDigits 10 n).map fun c => BitVec.ofNat 8 c.toNat

def parseBool (s : GoString) : Except NumError Bool :=
  if s ∈ ["1", "t", "T", "TRUE", "true", "True"].map ascii then .ok true
  else if s ∈ ["0", "f", "F", "FALSE", "false", "False"].map ascii then .ok false
  else .error .errSyntax

def formatBool (b : Bool) : GoString := if b then ascii "true" else ascii "false"

/-! ### Hexadecimal -/

def hexDigit? (b : Byte) : Option ℕ :=
  if 0x30 ≤ b ∧ b ≤ 0x39 then some (b.toNat - 48)
  else if 0x61 ≤ b ∧ b ≤ 0x66 then some (b.toNat - 87)
  else if 0x41 ≤ b ∧ b ≤ 0x46 then some (b.toNat - 55)
  else none

def decodeHex : GoString → Option (List Byte)
  | [] => some []
  | [_] => none
  | a :: b :: s =>
    match hexDigit? a, hexDigit? b, decodeHex s with
    | some x, some y, some t => some (BitVec.ofNat 8 (16 * x + y) :: t)
    | _, _, _ => none

def lowerHex (n : ℕ) : Byte := if n < 10 then BitVec.ofNat 8 (48 + n) else BitVec.ofNat 8 (87 + n)

def encodeHex (b : List Byte) : GoString := b.flatMap fun x => [lowerHex (x.toNat / 16), lowerHex (x.toNat % 16)]

lemma hexDigit?_lowerHex : ∀ n < 16, hexDigit? (lowerHex n) = some n := by decide

@[simp] lemma length_encodeHex (s : List Byte) : (encodeHex s).length = 2 * s.length := by
  simp [encodeHex, mul_comm]

lemma mem_encodeHex {P : Byte → Prop} (hP : ∀ n < 16, P (lowerHex n)) {s : List Byte} {b : Byte}
    (h : b ∈ encodeHex s) : P b := by
  obtain ⟨x, -, hx⟩ := mem_flatMap.1 h
  simp only [mem_cons, not_mem_nil, or_false] at hx
  rcases hx with rfl | rfl
  · exact hP _ (by omega)
  · exact hP _ (by omega)

lemma decodeHex_encodeHex (s : List Byte) : decodeHex (encodeHex s) = some s := by
  induction s with
  | nil => rfl
  | cons b s ih =>
    have hx := hexDigit?_lowerHex (b.toNat / 16) (by omega)
    have hy := hexDigit?_lowerHex (b.toNat % 16) (by omega)
    have hval : BitVec.ofNat 8 (16 * (b.toNat / 16) + b.toNat % 16) = b := by
      rw [Nat.div_add_mod]
      simp
    have hcons : encodeHex (b :: s) = lowerHex (b.toNat / 16) :: lowerHex (b.toNat % 16) :: encodeHex s := rfl
    simp [hcons, decodeHex, hx, hy, ih, hval]

/-! ### 64- and 32-bit integers -/

def int64 (x : ℤ) : ℤ := x.bmod (2 ^ 64)

def int32 (x : ℤ) : ℤ := x.bmod (2 ^ 32)

lemma int64_of_mem {x : ℤ} (h1 : -(2 ^ 63) ≤ x) (h2 : x < 2 ^ 63) : int64 x = x := by
  unfold int64
  rw [Int.bmod_def]
  split <;> omega

lemma atoi_bounds {v : ℤ} (h : atoi s = .ok v) : -(2 ^ 63) ≤ v ∧ v < 2 ^ 63 := by
  unfold atoi at h
  repeat' split at h
  all_goals first
    | (rw [Except.ok.injEq] at h; omega)
    | cases h

/-! ### Reading back decimal numbers -/

lemma digitChar_byte (d : ℕ) (h : d < 10) : BitVec.ofNat 8 (Nat.digitChar d).toNat = BitVec.ofNat 8 (48 + d) := by
  interval_cases d <;> rfl

lemma formatUint_eq (n : ℕ) :
    formatUint n = (if n < 10 then [] else formatUint (n / 10)) ++ [BitVec.ofNat 8 (48 + n % 10)] := by
  unfold formatUint
  rw [Nat.toDigits_eq_if (by omega)]
  split
  next h =>
    rw [Nat.mod_eq_of_lt h]
    simp [digitChar_byte n h]
  · simp [digitChar_byte (n % 10) (Nat.mod_lt _ (by omega))]

lemma digit?_byte (d : ℕ) (h : d < 10) : digit? (BitVec.ofNat 8 (48 + d)) = some d := by
  interval_cases d <;> rfl

lemma mem_formatUint {b : Byte} (h : b ∈ formatUint n) : 0x30 ≤ b ∧ b ≤ 0x39 := by
  induction n using Nat.strong_induction_on with
  | _ n ih =>
    rw [formatUint_eq, mem_append, mem_singleton] at h
    rcases h with h | rfl
    · split at h
      · cases h
      · exact ih (n / 10) (by omega) h
    · have : n % 10 < 10 := Nat.mod_lt _ (by omega)
      generalize n % 10 = d at *
      interval_cases d <;> decide

lemma formatUint_ne_nil (n : ℕ) : formatUint n ≠ [] := by
  rw [formatUint_eq]
  simp

lemma parseUintLoop_append (maxVal acc : ℕ) (s : GoString) (b : Byte) : parseUintLoop maxVal acc (s ++ [b]) =
      parseUintLoop maxVal acc s >>= fun v => parseUintLoop maxVal v [b] := by
  induction s generalizing acc with
  | nil => rfl
  | cons c s ih =>
    simp only [cons_append, parseUintLoop]
    split
    · rfl
    · split
      · rfl
      · exact ih _

lemma parseUintLoop_format (maxVal n : ℕ) (h : n ≤ maxVal) : parseUintLoop maxVal 0 (formatUint n) = .ok n := by
  induction n using Nat.strong_induction_on with
  | _ n ih =>
    have hd : n % 10 < 10 := Nat.mod_lt _ (by omega)
    rw [formatUint_eq, parseUintLoop_append]
    have hfront : parseUintLoop maxVal 0 (if n < 10 then [] else formatUint (n / 10)) = .ok (n / 10) := by
      split
      · rw [Nat.div_eq_of_lt ‹_›]
        rfl
      · exact ih (n / 10) (by omega) (by omega)
    rw [hfront]
    show parseUintLoop maxVal (n / 10) [_] = _
    simp only [parseUintLoop, digit?_byte _ hd]
    rw [if_neg (by omega), Nat.div_add_mod]

lemma parseUint_format {bitSize n : ℕ} (h : n < 2 ^ bitSize) : parseUint bitSize (formatUint n) = .ok n := by
  rw [parseUint, if_neg (formatUint_ne_nil n)]
  exact parseUintLoop_format _ n (by omega)

lemma atoi_format (h : n < 2 ^ 63) : atoi (formatUint n) = .ok (n : ℤ) := by
  cases hf : formatUint n with
  | nil => exact absurd hf (formatUint_ne_nil n)
  | cons b s =>
    have hb := mem_formatUint (b := b) (by rw [hf]; simp)
    have h1 : b ≠ 0x2d := by rintro rfl; exact absurd hb.1 (by decide)
    have h2 : b ≠ 0x2b := by rintro rfl; exact absurd hb.1 (by decide)
    have hp : parseUint 64 (b :: s) = .ok n := by rw [← hf]; exact parseUint_format (by omega)
    simp only [atoi, if_neg h1, if_neg h2, hp]
    rw [if_neg (by omega)]

lemma parseUintLoop_le {maxVal : ℕ} : ∀ {s : GoString} {acc n : ℕ}, acc ≤ maxVal →
    parseUintLoop maxVal acc s = .ok n → n ≤ maxVal
  | [], acc, n, h, hp => by cases hp; exact h
  | b :: s, acc, n, h, hp => by
    simp only [parseUintLoop] at hp
    split at hp
    · cases hp
    · split at hp
      · cases hp
      · exact parseUintLoop_le (by omega) hp

lemma parseUint_lt {bitSize : ℕ} (h : parseUint bitSize s = .ok n) : n < 2 ^ bitSize := by
  unfold parseUint at h
  split at h
  · cases h
  · have := parseUintLoop_le (Nat.zero_le _) h
    have := Nat.two_pow_pos bitSize
    omega

/-! ### Cutting and splitting agree -/

variable {sep : Byte}

lemma cut_append {a b : GoString} (h : sep ∉ a) : cut sep (a ++ sep :: b) = some (a, b) := by
  induction a with
  | nil => simp [cut]
  | cons c a ih =>
    simp only [mem_cons, not_or] at h
    rw [cons_append, cut, if_neg (Ne.symm h.1), ih h.2]
    rfl

/-- Splitting at the first separator first. -/
lemma split_eq_cut (sep : Byte) (s : GoString) : split sep s = match cut sep s with
      | none => [s]
      | some (a, b) => a :: split sep b := by
  induction s with
  | nil => rfl
  | cons c s ih =>
    by_cases hc : c = sep
    · simp [split, cut, hc]
    · simp only [split, cut, if_neg hc, ih]
      cases cut sep s with
      | none | some p => rfl

lemma cut_eq_none : cut sep s = none ↔ sep ∉ s := by
  induction s with
  | nil => simp [cut]
  | cons c s ih =>
    by_cases hc : c = sep
    · simp [cut, hc]
    · simp [cut, hc, ih, Ne.symm hc]

lemma cut_append_left {a : GoString} (h : sep ∉ a) (b : GoString) :
    cut sep (a ++ b) = (cut sep b).map fun p => (a ++ p.1, p.2) := by
  induction a with
  | nil => simp
  | cons c a ih =>
    have hc : c ≠ sep := fun hc => h (hc ▸ mem_cons_self)
    rw [cons_append, cut, if_neg hc, ih fun hm => h (mem_cons_of_mem _ hm), Option.map_map]
    rfl

lemma cut_eq_some {s a b : GoString} (h : cut sep s = some (a, b)) : s = a ++ sep :: b ∧ sep ∉ a := by
  induction s generalizing a with
  | nil => cases h
  | cons c s ih =>
    rw [cut] at h
    split at h
    next hc =>
      cases h
      exact ⟨by rw [hc]; rfl, not_mem_nil⟩
    next hc =>
      obtain ⟨⟨a', b'⟩, hs, hab⟩ := Option.map_eq_some_iff.1 h
      cases hab
      obtain ⟨rfl, hmem⟩ := ih hs
      exact ⟨rfl, fun hm => (mem_cons.1 hm).elim (fun h' => hc h'.symm) hmem⟩

lemma split_ne_nil (sep : Byte) (s : GoString) : split sep s ≠ [] := by
  rw [split_eq_cut]
  split
  · exact cons_ne_nil _ _
  · exact cons_ne_nil _ _

lemma split_eq_one {s a : GoString} (h : split sep s = [a]) : cut sep s = none ∧ s = a := by
  rw [split_eq_cut] at h
  cases hcut : cut sep s with
  | none =>
    rw [hcut] at h
    exact ⟨rfl, (cons.inj h).1⟩
  | some p =>
    rw [hcut] at h
    exact absurd (cons.inj h).2 (split_ne_nil _ _)

lemma split_eq_two {s a b : GoString} (h : split sep s = [a, b]) : cut sep s = some (a, b) := by
  rw [split_eq_cut] at h
  cases hcut : cut sep s with
  | none =>
    rw [hcut] at h
    exact absurd (cons.inj h).2 (cons_ne_nil _ _).symm
  | some p =>
    rw [hcut] at h
    obtain ⟨ha, hb⟩ := cons.inj h
    rw [← ha, ← (split_eq_one hb).2]

end SingBox.Lib
