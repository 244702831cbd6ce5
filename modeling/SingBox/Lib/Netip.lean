import Mathlib.Data.List.Basic
import Mathlib.Data.Nat.Digits.Defs

/-!
# Numerals and IP addresses as text

`strconv.FormatUint` in a base up to 36 and the text of an IP address as `netip` writes it, as lists of characters.
A text determines what it was made from: a numeral through the values of its digits, an IPv4 address through its parts
between the dots, an IPv6 address through the pieces between the colons.
-/

namespace SingBox.Lib

open List

/-! ### Numerals -/

/-- A digit of `strconv`. -/
def digitChar (d : ℕ) : Char := Char.ofNat (if d < 10 then 48 + d else 87 + d)

def digitVal (c : Char) : ℕ := if c.toNat < 97 then c.toNat - 48 else c.toNat - 87

def isDigitChar (c : Char) : Bool := '0' ≤ c && c ≤ '9' || 'a' ≤ c && c ≤ 'z'

/-- The digits of a numeral, the lowest one first. -/
def numeral (base n : ℕ) : List ℕ := if n = 0 then [0] else Nat.digits base n

/-- `strconv.FormatUint`. -/
def formatBase (base n : ℕ) : List Char := (numeral base n).reverse.map digitChar

lemma digitVal_digitChar : ∀ d < 36, digitVal (digitChar d) = d := by decide

lemma isDigitChar_digitChar : ∀ d < 36, isDigitChar (digitChar d) = true := by decide

lemma numeral_ne_nil (base n : ℕ) : numeral base n ≠ [] := by
  rw [numeral]
  split
  · simp
  next h => exact Nat.digits_ne_nil_iff_ne_zero.2 h

lemma ofDigits_numeral (base n : ℕ) : Nat.ofDigits base (numeral base n) = n := by
  rw [numeral]
  split
  next h => simp [h]
  · exact Nat.ofDigits_digits base n

section Base

variable {base : ℕ}

lemma numeral_lt (hb : 1 < base) {n d : ℕ} (h : d ∈ numeral base n) : d < base := by
  rw [numeral] at h
  split at h
  · rw [mem_singleton] at h
    omega
  · exact Nat.digits_lt_base hb h

lemma mem_formatBase (hb : 1 < base) (hb' : base ≤ 36) {n : ℕ} {c : Char} (h : c ∈ formatBase base n) :
    isDigitChar c = true := by
  obtain ⟨d, hd, rfl⟩ := mem_map.1 h
  have := numeral_lt hb (mem_reverse.1 hd)
  exact isDigitChar_digitChar d (by omega)

lemma formatBase_ne_nil (base n : ℕ) : formatBase base n ≠ [] := by
  simpa [formatBase] using numeral_ne_nil base n

lemma map_digitVal_formatBase (hb : 1 < base) (hb' : base ≤ 36) (n : ℕ) :
    (formatBase base n).map digitVal = (numeral base n).reverse := by
  have h : ∀ d ∈ (numeral base n).reverse, (digitVal ∘ digitChar) d = id d := by
    intro d hd
    have := numeral_lt hb (mem_reverse.1 hd)
    exact digitVal_digitChar d (by omega)
  rw [formatBase, map_map, map_congr_left h, map_id]

lemma formatBase_injective (hb : 1 < base) (hb' : base ≤ 36) : Function.Injective (formatBase base) := by
  intro m n h
  have hd : numeral base m = numeral base n := by
    have := congrArg (map digitVal) h
    rwa [map_digitVal_formatBase hb hb', map_digitVal_formatBase hb hb', reverse_inj] at this
  rw [← ofDigits_numeral base m, hd, ofDigits_numeral]

end Base

/-! ### Texts of pieces -/

/-- Texts of pieces with a separator between them are equal only if the pieces are. -/
lemma intercalate_inj {α : Type*} [DecidableEq α] {sep : α} {p q : List (List α)} (hp : p ≠ []) (hq : q ≠ [])
    (hps : ∀ s ∈ p, sep ∉ s) (hqs : ∀ s ∈ q, sep ∉ s) (h : [sep].intercalate p = [sep].intercalate q) : p = q := by
  rw [← splitOn_intercalate sep hps hp, h, splitOn_intercalate sep hqs hq]

lemma mem_intercalate {α : Type*} {sep c : α} {p : List (List α)} (h : c ∈ [sep].intercalate p) :
    c = sep ∨ ∃ s ∈ p, c ∈ s := by
  rw [intercalate, mem_flatten] at h
  obtain ⟨s, hs, hc⟩ := h
  induction p with
  | nil => simp at hs
  | cons a p ih =>
    cases p with
    | nil =>
      simp only [intersperse_singleton, mem_singleton] at hs
      exact Or.inr ⟨a, by simp, hs ▸ hc⟩
    | cons b p =>
      simp only [intersperse_cons_cons, mem_cons] at hs
      rcases hs with rfl | rfl | hs
      · exact Or.inr ⟨s, by simp, hc⟩
      · exact Or.inl (by simpa using hc)
      · rcases ih hs with h | ⟨t, ht, hc⟩
        · exact Or.inl h
        · exact Or.inr ⟨t, mem_cons_of_mem _ ht, hc⟩

/-! ### IPv4 -/

def parts4 (bits : BitVec 32) : List (List Char) :=
  [24, 16, 8, 0].map fun i => formatBase 10 (bits.toNat / 2 ^ i % 2 ^ 8)

def string4 (bits : BitVec 32) : List Char := ['.'].intercalate (parts4 bits)

variable {c : Char} {bits : BitVec 32} {s : List Char}

lemma isDigitChar_of_mem_parts4 (hs : s ∈ parts4 bits) (hc : c ∈ s) : isDigitChar c = true := by
  obtain ⟨i, -, rfl⟩ := mem_map.1 hs
  exact mem_formatBase (by omega) (by omega) hc

lemma dot_not_mem_parts4 : ∀ s ∈ parts4 bits, '.' ∉ s := by
  intro s hs hc
  exact absurd (isDigitChar_of_mem_parts4 hs hc) (by decide)

lemma mem_string4 (h : c ∈ string4 bits) : c = '.' ∨ isDigitChar c = true := by
  rcases mem_intercalate h with h | ⟨s, hs, hc⟩
  · exact Or.inl h
  · exact Or.inr (isDigitChar_of_mem_parts4 hs hc)

lemma string4_injective : Function.Injective string4 := by
  intro a b h
  have hp : parts4 a = parts4 b :=
    intercalate_inj (by simp [parts4]) (by simp [parts4]) dot_not_mem_parts4 dot_not_mem_parts4 h
  simp only [parts4, map_cons, map_nil, cons.injEq, (formatBase_injective (by omega : 1 < 10) (by omega)).eq_iff] at hp
  exact BitVec.eq_of_toNat_eq (by omega)

/-! ### IPv6 -/

def groups (bits : BitVec 128) : List ℕ :=
  [112, 96, 80, 64, 48, 32, 16, 0].map fun i => bits.toNat / 2 ^ i % 2 ^ 16

lemma div_eq_of_group {a b i w : ℕ} (hgroup : a / 2 ^ i % 2 ^ w = b / 2 ^ i % 2 ^ w)
    (hdiv : a / 2 ^ (i + w) = b / 2 ^ (i + w)) : a / 2 ^ i = b / 2 ^ i := by
  rw [Nat.pow_add, ← Nat.div_div_eq_div_mul, ← Nat.div_div_eq_div_mul] at hdiv
  rw [← Nat.div_add_mod (a / 2 ^ i) (2 ^ w), hdiv, hgroup, Nat.div_add_mod]

lemma groups_injective : Function.Injective groups := by
  intro a b h
  simp only [groups, map_cons, map_nil, cons.injEq, and_true] at h
  obtain ⟨h112, h96, h80, h64, h48, h32, h16, h0⟩ := h
  have htop : a.toNat / 2 ^ (112 + 16) = b.toNat / 2 ^ (112 + 16) := by
    rw [Nat.div_eq_of_lt a.isLt, Nat.div_eq_of_lt b.isLt]
  have hhigh : a.toNat / 2 ^ 64 = b.toNat / 2 ^ 64 :=
    div_eq_of_group h64 (div_eq_of_group h80 (div_eq_of_group h96 (div_eq_of_group h112 htop)))
  have hall : a.toNat / 2 ^ 0 = b.toNat / 2 ^ 0 :=
    div_eq_of_group h0 (div_eq_of_group h16 (div_eq_of_group h32 (div_eq_of_group h48 hhigh)))
  rw [Nat.pow_zero, Nat.div_one, Nat.div_one] at hall
  exact BitVec.eq_of_toNat_eq hall

def zeros (w : List ℕ) : ℕ := (w.takeWhile (· == 0)).length

/-- The longest run of at least two zero groups, the first one of these: where it starts, and its length. -/
def zeroRun (w : List ℕ) : ℕ × ℕ :=
  (List.range w.length).foldl (fun run i => if 2 ≤ zeros (w.drop i) ∧ run.2 < zeros (w.drop i)
    then (i, zeros (w.drop i)) else run) (0, 0)

/-- The pieces of the groups on one side of the run; it stands at the end of the text if there are none. -/
def side (w : List ℕ) : List (List Char) := if w = [] then [[]] else w.map (formatBase 16)

/-- The pieces between the colons: the run of zeros is left out, and an empty piece stands for it. -/
def pieces (w : List ℕ) : List (List Char) :=
  let run := zeroRun w
  if run.2 = 0 then w.map (formatBase 16) else side (w.take run.1) ++ [] :: side (w.drop (run.1 + run.2))

def string6 (bits : BitVec 128) : List Char := [':'].intercalate (pieces (groups bits))

example : string6 0x20010db8000000000000000100000000 = "2001:db8::1:0:0".toList := by decide

variable (w : List ℕ)

lemma zeros_drop_zeroRun : (zeroRun w).2 ≤ zeros (w.drop (zeroRun w).1) := by
  refine foldlRecOn (motive := fun run : ℕ × ℕ => run.2 ≤ zeros (w.drop run.1)) _ _ (by simp) ?_
  intro run hrun i _
  split
  · exact le_rfl
  · exact hrun

lemma take_zeros {n : ℕ} (h : n ≤ zeros w) : w.take n = replicate n 0 := by
  have hp : w.take (zeros w) = replicate (zeros w) 0 := by
    have ht : w.take (zeros w) = w.takeWhile (· == 0) := (prefix_iff_eq_take.1 ( takeWhile_prefix _)).symm
    rw [ht]
    refine eq_replicate_iff.2 ⟨rfl, fun b hb => ?_⟩
    simpa using all_eq_true.1 all_takeWhile b hb
  calc w.take n = (w.take (zeros w)).take n := by rw [take_take, Nat.min_eq_left h]
    _ = replicate n 0 := by rw [hp, take_replicate, Nat.min_eq_left h]

lemma zeroRun_split :
    w = w.take (zeroRun w).1 ++ (replicate (zeroRun w).2 0 ++ w.drop ((zeroRun w).1 + (zeroRun w).2)) := by
  rw [← take_zeros _ (zeros_drop_zeroRun w), ← drop_drop, take_append_drop, take_append_drop]

lemma formatBase_ne : ∀ s ∈ w.map (formatBase 16), s ≠ [] := by
  intro s hs
  obtain ⟨g, -, rfl⟩ := mem_map.1 hs
  exact formatBase_ne_nil 16 g

lemma takeWhile_side (p : List (List Char)) : (side w ++ [] :: p).takeWhile (· ≠ []) = w.map (formatBase 16) := by
  rw [side]
  split
  next h => simp [h]
  · rw [takeWhile_append_of_pos (by simpa using fun a _ => formatBase_ne_nil 16 a)]
    simp

lemma reverse_side : (side w).reverse = side w.reverse := by
  simp only [side, reverse_eq_nil_iff, map_reverse]
  split <;> rfl

lemma map_formatBase_inj {v w : List ℕ} (h : v.map (formatBase 16) = w.map (formatBase 16)) : v = w :=
  map_injective_iff.2 (formatBase_injective (by omega) (by omega)) h

lemma side_inj {a b c d : List ℕ} (h : side a ++ [] :: side b = side c ++ [] :: side d) : a = c ∧ b = d := by
  constructor
  · have := congrArg (takeWhile (· ≠ [])) h
    rw [takeWhile_side, takeWhile_side] at this
    exact map_formatBase_inj this
  · have := congrArg (fun p => p.reverse.takeWhile (· ≠ [])) h
    simp only [reverse_append, reverse_cons, append_assoc, singleton_append, reverse_side] at this
    rw [takeWhile_side, takeWhile_side] at this
    exact reverse_injective (map_formatBase_inj this)

/-- The groups are determined by the pieces. -/
lemma pieces_inj {v w : List ℕ} (hlen : v.length = w.length) (h : pieces v = pieces w) : v = w := by
  simp only [pieces] at h
  split at h <;> split at h
  · exact map_formatBase_inj h
  · exact absurd rfl (formatBase_ne v [] (h ▸ by simp))
  · exact absurd rfl (formatBase_ne w [] (h ▸ by simp))
  · obtain ⟨hl, hr⟩ := side_inj h
    have hv := zeroRun_split v
    have hw := zeroRun_split w
    have hrun : (zeroRun v).2 = (zeroRun w).2 := by
      have h1 := congrArg length hv
      have h2 := congrArg length hw
      rw [length_append, length_append, length_replicate, hl, hr] at h1
      rw [length_append, length_append, length_replicate] at h2
      omega
    rw [hv, hw, hl, hr, hrun]

variable {w : List ℕ}

lemma isDigitChar_of_mem_side (hs : s ∈ side w) (hc : c ∈ s) : isDigitChar c = true := by
  rw [side] at hs
  split at hs
  · simp_all
  · obtain ⟨g, -, rfl⟩ := mem_map.1 hs
    exact mem_formatBase (by omega) (by omega) hc

lemma isDigitChar_of_mem_pieces (hs : s ∈ pieces w) (hc : c ∈ s) : isDigitChar c = true := by
  simp only [pieces] at hs
  split at hs
  · obtain ⟨g, -, rfl⟩ := mem_map.1 hs
    exact mem_formatBase (by omega) (by omega) hc
  · rcases mem_append.1 hs with hs | hs
    · exact isDigitChar_of_mem_side hs hc
    · rcases mem_cons.1 hs with rfl | hs
      · simp at hc
      · exact isDigitChar_of_mem_side hs hc

lemma colon_not_mem_pieces : ∀ s ∈ pieces w, ':' ∉ s := by
  intro s hs hc
  exact absurd (isDigitChar_of_mem_pieces hs hc) (by decide)

lemma mem_string6 {bits : BitVec 128} (h : c ∈ string6 bits) : c = ':' ∨ isDigitChar c = true := by
  rcases mem_intercalate h with h | ⟨s, hs, hc⟩
  · exact Or.inl h
  · exact Or.inr (isDigitChar_of_mem_pieces hs hc)

lemma pieces_length (bits : BitVec 128) : ∃ p q r, pieces (groups bits) = p :: q :: r := by
  simp only [pieces]
  split
  · exact ⟨_, _, _, rfl⟩
  · rw [side]
    split
    · exact ⟨_, _, _, rfl⟩
    next h =>
      obtain ⟨g, w, hw⟩ := exists_cons_of_ne_nil h
      rw [hw]
      cases w with
      | nil | cons g' w => exact ⟨_, _, _, rfl⟩

lemma colon_mem_string6 (bits : BitVec 128) : ':' ∈ string6 bits := by
  obtain ⟨p, q, r, h⟩ := pieces_length bits
  rw [string6, h]
  simp

lemma string6_injective : Function.Injective string6 := by
  intro a b h
  have hne : ∀ c : BitVec 128, pieces (groups c) ≠ [] := by
    intro c
    obtain ⟨p, q, r, hc⟩ := pieces_length c
    simp [hc]
  exact groups_injective (pieces_inj rfl (intercalate_inj (hne a) (hne b) colon_not_mem_pieces colon_not_mem_pieces h))

/-! ### Addresses -/

/-- A 128 bit address that stands for an IPv4 one. -/
def is4In6 (bits : BitVec 128) : Bool := bits.toNat / 2 ^ 32 == 0xffff

def string16 (bits : BitVec 128) : List Char :=
  if is4In6 bits then "::ffff:".toList ++ string4 (bits.setWidth 32) else string6 bits

lemma colon_mem_string16 (bits : BitVec 128) : ':' ∈ string16 bits := by
  rw [string16]
  split
  · simp
  · exact colon_mem_string6 bits

lemma colon_not_mem_string4 (bits : BitVec 32) : ':' ∉ string4 bits := by
  intro h
  rcases mem_string4 h with h | h
  · exact absurd h (by decide)
  · exact absurd h (by decide)

lemma dot_not_mem_string6 (bits : BitVec 128) : '.' ∉ string6 bits := by
  intro h
  rcases mem_string6 h with h | h
  · exact absurd h (by decide)
  · exact absurd h (by decide)

/-- An address text is made of digits, dots and colons. -/
def isAddrChar (c : Char) : Bool := c == '.' || c == ':' || isDigitChar c

lemma isAddrChar_of_mem_string4 (h : c ∈ string4 bits) : isAddrChar c = true := by
  rcases mem_string4 h with rfl | h
  · rfl
  · simp [isAddrChar, h]

lemma isAddrChar_of_mem_string16 {bits : BitVec 128} (h : c ∈ string16 bits) : isAddrChar c = true := by
  rw [string16] at h
  split at h
  · rcases mem_append.1 h with h | h
    · have hall : "::ffff:".toList.all isAddrChar = true := by decide
      exact all_eq_true.1 hall c h
    · exact isAddrChar_of_mem_string4 h
  · rcases mem_string6 h with rfl | h
    · rfl
    · simp [isAddrChar, h]

lemma string16_injective : Function.Injective string16 := by
  intro a b h
  have hdot : ∀ c : BitVec 128, '.' ∈ "::ffff:".toList ++ string4 (c.setWidth 32) := fun c =>
    mem_append_right _ (by simp [string4, parts4])
  simp only [string16] at h
  split at h <;> split at h
  next ha hb =>
    have hw := congrArg BitVec.toNat (string4_injective (append_cancel_left h))
    simp only [is4In6, beq_iff_eq, BitVec.toNat_setWidth] at ha hb hw
    exact BitVec.eq_of_toNat_eq (by omega)
  · exact absurd (h ▸ hdot a) (dot_not_mem_string6 b)
  · exact absurd (h ▸ hdot b) (dot_not_mem_string6 a)
  · exact string6_injective h

end SingBox.Lib
