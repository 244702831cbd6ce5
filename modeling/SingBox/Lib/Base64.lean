import SingBox.Lib.GoString

/-!
# The parts of `encoding/base64`

`base64RawURL` and `base64RawStd` encode without padding characters; `decodeRawURL` reads the former back.
-/

namespace SingBox.Lib

open List

/-! ### Encoding -/

def base64Char (n : ℕ) : Byte :=
  (ascii "ABCDEFGHIJKLMNOPQRSTUVWXYZabcdefghijklmnopqrstuvwxyz0123456789-_").getD n 0

/-- `base64.RawURLEncoding.EncodeToString`. -/
def base64RawURL : List Byte → GoString
  | [] => []
  | [a] => [base64Char (a.toNat / 4), base64Char (a.toNat % 4 * 16)]
  | [a, b] =>
    [base64Char (a.toNat / 4), base64Char (a.toNat % 4 * 16 + b.toNat / 16), base64Char (b.toNat % 16 * 4)]
  | a :: b :: c :: s =>
    [base64Char (a.toNat / 4), base64Char (a.toNat % 4 * 16 + b.toNat / 16),
      base64Char (b.toNat % 16 * 4 + c.toNat / 64), base64Char (c.toNat % 64)] ++ base64RawURL s

/-- `base64.RawStdEncoding.EncodeToString`: two characters are others. -/
def base64RawStd (s : List Byte) : GoString :=
  (base64RawURL s).map fun b => if b = 0x2d then 0x2b else if b = 0x5f then 0x2f else b

variable (s : List Byte)

lemma length_base64RawURL : (base64RawURL s).length = s.length / 3 * 4 + (s.length % 3 * 8 + 5) / 6 := by
  induction s using base64RawURL.induct with
  | case1 => rfl
  | case2 a | case3 a b => simp [base64RawURL]
  | case4 a b c s ih =>
    rw [base64RawURL, length_append, ih]
    simp only [length_cons, length_nil]
    omega

lemma length_base64RawStd : (base64RawStd s).length = s.length / 3 * 4 + (s.length % 3 * 8 + 5) / 6 := by
  rw [base64RawStd, length_map, length_base64RawURL]

/-! ### Decoding -/

def base64Digit? (b : Byte) : Option ℕ :=
  (ascii "ABCDEFGHIJKLMNOPQRSTUVWXYZabcdefghijklmnopqrstuvwxyz0123456789-_").idxOf? b

/-- The groups of four characters, of which the last may have two or three. -/
def decodeQuanta : GoString → Option (List Byte)
  | [] => some []
  | [_] => none
  | [a, b] =>
    match base64Digit? a, base64Digit? b with
    | some a, some b => some [BitVec.ofNat 8 (a * 4 + b / 16)]
    | _, _ => none
  | [a, b, c] =>
    match base64Digit? a, base64Digit? b, base64Digit? c with
    | some a, some b, some c => some [BitVec.ofNat 8 (a * 4 + b / 16), BitVec.ofNat 8 (b * 16 + c / 4)]
    | _, _, _ => none
  | a :: b :: c :: d :: s =>
    match base64Digit? a, base64Digit? b, base64Digit? c, base64Digit? d, decodeQuanta s with
    | some a, some b, some c, some d, some t =>
      some (BitVec.ofNat 8 (a * 4 + b / 16) :: BitVec.ofNat 8 (b * 16 + c / 4) :: BitVec.ofNat 8 (c * 64 + d) :: t)
    | _, _, _, _, _ => none

/-- `base64.RawURLEncoding.DecodeString`, which skips line breaks. -/
def decodeRawURL (s : GoString) : Option (List Byte) := decodeQuanta (s.filter fun b => b ≠ 0x0a ∧ b ≠ 0x0d)

lemma base64Digit?_char : ∀ n < 64, base64Digit? (base64Char n) = some n := by decide

lemma mem_base64RawURL {P : Byte → Prop} (hP : ∀ n < 64, P (base64Char n)) {s : List Byte} {b : Byte}
    (h : b ∈ base64RawURL s) : P b := by
  induction s using base64RawURL.induct with
  | case1 => simp [base64RawURL] at h
  | case3 a b | case2 a =>
    simp only [base64RawURL, mem_cons, not_mem_nil, or_false] at h
    rcases h with rfl | rfl | rfl <;> exact hP _ (by omega)
  | case4 a b c s ih =>
    simp only [base64RawURL, mem_append, mem_cons, not_mem_nil, or_false] at h
    rcases h with (rfl | rfl | rfl | rfl) | h
    iterate 4 exact hP _ (by omega)
    exact ih h

lemma ofNat_eq_byte {n : ℕ} {a : Byte} (h : n % 2 ^ 8 = a.toNat) : BitVec.ofNat 8 n = a :=
  BitVec.eq_of_toNat_eq (by rw [BitVec.toNat_ofNat, h])

lemma decodeQuanta_base64RawURL : decodeQuanta (base64RawURL s) = some s := by
  induction s using base64RawURL.induct with
  | case1 => simp [base64RawURL, decodeQuanta]
  | case2 a =>
    have h1 := base64Digit?_char (a.toNat / 4) (by omega)
    have h2 := base64Digit?_char (a.toNat % 4 * 16) (by omega)
    have hval : BitVec.ofNat 8 (a.toNat / 4 * 4 + a.toNat % 4 * 16 / 16) = a :=
      ofNat_eq_byte (by omega)
    simp only [base64RawURL, decodeQuanta, h1, h2, hval]
  | case3 a b =>
    have h1 := base64Digit?_char (a.toNat / 4) (by omega)
    have h2 := base64Digit?_char (a.toNat % 4 * 16 + b.toNat / 16) (by omega)
    have h3 := base64Digit?_char (b.toNat % 16 * 4) (by omega)
    have hval : BitVec.ofNat 8 (a.toNat / 4 * 4 + (a.toNat % 4 * 16 + b.toNat / 16) / 16) = a :=
      ofNat_eq_byte (by omega)
    have hval' : BitVec.ofNat 8 ((a.toNat % 4 * 16 + b.toNat / 16) * 16 + b.toNat % 16 * 4 / 4) = b :=
      ofNat_eq_byte (by omega)
    simp only [base64RawURL, decodeQuanta, h1, h2, h3, hval, hval']
  | case4 a b c s ih =>
    have h1 := base64Digit?_char (a.toNat / 4) (by omega)
    have h2 := base64Digit?_char (a.toNat % 4 * 16 + b.toNat / 16) (by omega)
    have h3 := base64Digit?_char (b.toNat % 16 * 4 + c.toNat / 64) (by omega)
    have h4 := base64Digit?_char (c.toNat % 64) (by omega)
    have hval : BitVec.ofNat 8 (a.toNat / 4 * 4 + (a.toNat % 4 * 16 + b.toNat / 16) / 16) = a :=
      ofNat_eq_byte (by omega)
    have hval' : BitVec.ofNat 8 ((a.toNat % 4 * 16 + b.toNat / 16) * 16 + (b.toNat % 16 * 4 + c.toNat / 64) / 4) = b :=
      ofNat_eq_byte (by omega)
    have hval'' : BitVec.ofNat 8 ((b.toNat % 16 * 4 + c.toNat / 64) * 64 + c.toNat % 64) = c :=
      ofNat_eq_byte (by omega)
    simp only [base64RawURL, cons_append, nil_append, decodeQuanta, h1, h2, h3, h4, ih, hval, hval', hval'']

/-- **Decoding inverts encoding.** -/
theorem decodeRawURL_encode : decodeRawURL (base64RawURL s) = some s := by
  have hbreak : (base64RawURL s).filter (fun b => b ≠ 0x0a ∧ b ≠ 0x0d) = base64RawURL s := by
    have hdigit : ∀ b ∈ base64RawURL s, base64Digit? b ≠ none := fun b =>
      mem_base64RawURL (P := fun b => base64Digit? b ≠ none) (fun n hn => by simp [base64Digit?_char n hn])
    refine filter_eq_self.2 fun b hb => ?_
    have h1 : b ≠ 0x0a := by rintro rfl; exact hdigit _ hb rfl
    have h2 : b ≠ 0x0d := by rintro rfl; exact hdigit _ hb rfl
    exact decide_eq_true ⟨h1, h2⟩
  rw [decodeRawURL, hbreak, decodeQuanta_base64RawURL]

end SingBox.Lib
