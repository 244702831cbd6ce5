import SingBox.Lib.GoString

/-!
# Byte slices, fixed-width words and key streams
-/

namespace SingBox.Lib

open List

/-! ### Errors and panics -/

inductive Failure where
  /-- An index out of range, or a random draw from an empty interval. -/
  | panic
  | error (text : String)
  deriving DecidableEq, Repr

abbrev Go (α : Type*) := Except Failure α

/-! ### Slices -/

/-- `b[lo:hi]`. -/
def slice (b : GoString) (lo hi : ℤ) : Go GoString :=
  if 0 ≤ lo ∧ lo ≤ hi ∧ hi ≤ b.length then .ok ((b.take hi.toNat).drop lo.toNat) else .error .panic

lemma slice_append {a b c : GoString} {lo hi : ℤ} (hlo : lo = a.length)
    (hhi : hi = a.length + b.length) : slice (a ++ b ++ c) lo hi = .ok b := by
  subst hlo hhi
  have hlen : ((a.length : ℤ) + b.length).toNat = (a ++ b).length := by
    rw [length_append]; omega
  rw [slice, if_pos (by simp), hlen, take_left', drop_left']
  · rfl
  · rfl

lemma slice_right {a b : GoString} {lo : ℤ} (hlo : lo = a.length) : slice (a ++ b) lo (a ++ b).length = .ok b := by
  have h := slice_append (b := b) (c := []) hlo rfl
  rw [append_nil] at h
  rwa [length_append]

lemma slice_left {a b : GoString} {hi : ℤ} (hhi : hi = a.length) : slice (a ++ b) 0 hi = .ok a :=
  slice_append (a := []) rfl (by simpa using hhi)

lemma slice_length {b r : GoString} {lo hi : ℤ} (h : slice b lo hi = .ok r) : (r.length : ℤ) = hi - lo := by
  unfold slice at h
  split at h
  · cases h
    rw [length_drop, length_take]
    omega
  · cases h

/-- The buffer after `copy(b[off:], src)`. -/
def copyAt (b : GoString) (off : ℤ) (src : GoString) : Go GoString :=
  if 0 ≤ off ∧ off ≤ b.length then
    .ok (b.take off.toNat ++ src.take (b.length - off.toNat) ++ b.drop (off.toNat + src.length))
  else .error .panic

lemma copyAt_append {a b c src : GoString} {off : ℤ} (hoff : off = a.length)
    (hlen : src.length = b.length) : copyAt (a ++ b ++ c) off src = .ok (a ++ src ++ c) := by
  subst hoff
  have hsrc : src.take ((a ++ b ++ c).length - a.length) = src :=
    take_of_length_le (by simp [hlen])
  have htake : (a ++ b ++ c).take a.length = a := by rw [append_assoc, take_left' rfl]
  have hdrop : (a ++ b ++ c).drop (a.length + src.length) = c := drop_left' (by simp [hlen])
  rw [copyAt, if_pos (by simp; omega), Int.toNat_natCast, hsrc, htake, hdrop]

lemma copyAt_left {b c src : GoString} (hlen : src.length = b.length) : copyAt (b ++ c) 0 src = .ok (src ++ c) :=
  copyAt_append (a := []) rfl hlen

/-! ### Words -/

def leUint32 : GoString → Go (BitVec 32)
  | b0 :: b1 :: b2 :: b3 :: _ => .ok (b3 ++ b2 ++ b1 ++ b0)
  | _ => .error .panic

def leUint64 (b : GoString) : Go (BitVec 64) := do
  let lo ← leUint32 b
  let hi ← leUint32 (b.drop 4)
  return hi ++ lo

def beUint16 : GoString → Go (BitVec 16)
  | b0 :: b1 :: _ => .ok (b0 ++ b1)
  | _ => .error .panic

def putUint32 (v : BitVec 32) : GoString :=
  [v.extractLsb' 0 8, v.extractLsb' 8 8, v.extractLsb' 16 8, v.extractLsb' 24 8]

def putBeUint16 (v : BitVec 16) : GoString := [v.extractLsb' 8 8, v.extractLsb' 0 8]

def putUint64 (v : BitVec 64) : GoString :=
  putUint32 (v.extractLsb' 0 32) ++ putUint32 (v.extractLsb' 32 32)

@[simp] lemma length_putUint32 (v : BitVec 32) : (putUint32 v).length = 4 := rfl

@[simp] lemma length_putBeUint16 (v : BitVec 16) : (putBeUint16 v).length = 2 := rfl

lemma beBytes_append (v : BitVec 16) : v.extractLsb' 8 8 ++ v.extractLsb' 0 8 = v := by
  rw [BitVec.extractLsb'_append_extractLsb'_eq_extractLsb' (by rfl)]
  exact BitVec.extractLsb'_eq_self

@[simp] lemma beUint16_put (v : BitVec 16) (s : GoString) : beUint16 (putBeUint16 v ++ s) = .ok v := by
  rw [putBeUint16, cons_append, cons_append, beUint16, beBytes_append]

@[simp] lemma leUint32_put (v : BitVec 32) (s : GoString) : leUint32 (putUint32 v ++ s) = .ok v := by
  simp only [putUint32, cons_append, leUint32, Except.ok.injEq]
  rw [BitVec.extractLsb'_append_extractLsb'_eq_extractLsb' (by rfl),
    BitVec.extractLsb'_append_extractLsb'_eq_extractLsb' (by rfl),
    BitVec.extractLsb'_append_extractLsb'_eq_extractLsb' (by rfl)]
  exact BitVec.extractLsb'_eq_self

@[simp] lemma leUint64_put (v : BitVec 64) (s : GoString) : leUint64 (putUint64 v ++ s) = .ok v := by
  have hlo : leUint32 (putUint64 v ++ s) = .ok (v.extractLsb' 0 32) := by
    rw [putUint64, append_assoc, leUint32_put]
  have hhi : leUint32 ((putUint64 v ++ s).drop 4) = .ok (v.extractLsb' 32 32) := by
    rw [putUint64, append_assoc, drop_left' (length_putUint32 _), leUint32_put]
  have hv : v.extractLsb' 32 32 ++ v.extractLsb' 0 32 = v := by
    rw [BitVec.extractLsb'_append_extractLsb'_eq_extractLsb' (by rfl)]
    exact BitVec.extractLsb'_eq_self
  rw [leUint64, hlo, hhi]
  exact congrArg Except.ok hv

variable {b : GoString}

lemma leUint32_of_length (h : 4 ≤ b.length) : ∃ v, leUint32 b = .ok v := by
  match b, h with
  | b0 :: b1 :: b2 :: b3 :: _, _ => exact ⟨_, rfl⟩

lemma leUint32_append {v : BitVec 32} (h : leUint32 b = .ok v) (s : GoString) : leUint32 (b ++ s) = .ok v := by
  match b, h with
  | b0 :: b1 :: b2 :: b3 :: _, h => exact h

/-! ### Key streams -/

/-- `cipher.XORKeyStream(b, b)` on a fresh cipher with the key stream `ks`. -/
def xorKeyStream (ks : ℕ → Byte) (b : GoString) : GoString := b.mapIdx fun i x => x ^^^ ks i

variable (ks : ℕ → Byte)

@[simp] lemma length_xorKeyStream (b : GoString) : (xorKeyStream ks b).length = b.length := by simp [xorKeyStream]

@[simp] lemma xorKeyStream_xorKeyStream (b : GoString) : xorKeyStream ks (xorKeyStream ks b) = b := by
  apply ext_getElem
  · simp
  · simp [xorKeyStream, BitVec.xor_assoc]

/-- The word at position `i` of a key stream. -/
def ksWord (ks : ℕ → Byte) (i : ℕ) : BitVec 32 := ks (i + 3) ++ ks (i + 2) ++ ks (i + 1) ++ ks i

def keyStream (ks : ℕ → Byte) (n : ℕ) : GoString := xorKeyStream ks (List.replicate n 0)

lemma leUint32_xorKeyStream {v : BitVec 32} (h : leUint32 b = .ok v) :
    leUint32 (xorKeyStream ks b) = .ok (v ^^^ ksWord ks 0) := by
  match b, h with
  | b0 :: b1 :: b2 :: b3 :: _, h =>
    cases h
    have hx : ∀ a b c d x y z w : Byte,
        ((a ^^^ x) ++ (b ^^^ y) ++ (c ^^^ z) ++ (d ^^^ w) : BitVec 32) =
          (a ++ b ++ c ++ d : BitVec 32) ^^^ (x ++ y ++ z ++ w : BitVec 32) := by
      intros
      simp only [BitVec.xor_append]
    simp only [xorKeyStream, mapIdx_cons]
    exact congrArg Except.ok (hx _ _ _ _ _ _ _ _)

lemma xorKeyStream_drop (b : GoString) (n : ℕ) :
    (xorKeyStream ks b).drop n = xorKeyStream (fun i => ks (n + i)) (b.drop n) := by
  apply ext_getElem
  · simp
  · simp [xorKeyStream]

lemma leUint32_keyStream {n : ℕ} (h : 4 ≤ n) : leUint32 (keyStream ks n) = .ok (ksWord ks 0) := by
  have hz : leUint32 (replicate n 0) = .ok 0 := by
    obtain ⟨m, rfl⟩ := Nat.exists_eq_add_of_le' h
    rfl
  rw [keyStream, leUint32_xorKeyStream ks hz]
  exact congrArg Except.ok BitVec.zero_xor

/-! ### Random bytes -/

def fillRandom (r : ℕ → Byte) (n : ℕ) : GoString := (List.range n).map r

@[simp] lemma length_fillRandom (r : ℕ → Byte) (n : ℕ) : (fillRandom r n).length = n := by
  simp [fillRandom]

/-! ### Numbers as bytes -/

def toBytes : ℕ → ℕ → GoString
  | 0, _ => []
  | k + 1, n => toBytes k (n / 2 ^ 8) ++ [BitVec.ofNat 8 n]

/-- The info of HKDF-Expand-Label of TLS 1.3, with no context. -/
def hkdfLabel (label : GoString) (length : ℕ) : GoString :=
  toBytes 2 length ++ [BitVec.ofNat 8 (6 + label.length)] ++ ascii "tls13 " ++ label ++ [0]

/-- The nonce of TLS 1.3: a mask, combined with a number from its fifth byte on. -/
def xorNonce (mask nonce : GoString) : GoString :=
  mask.take 4 ++ List.zipWith (· ^^^ ·) (mask.drop 4) nonce ++ mask.drop (4 + nonce.length)

def ofBytes (b : GoString) : ℕ := b.foldl (fun n c => n * 2 ^ 8 + c.toNat) 0

@[simp] lemma length_toBytes (k n : ℕ) : (toBytes k n).length = k := by
  induction k generalizing n with
  | zero => rfl
  | succ k ih => rw [toBytes, length_append, ih, length_singleton]

lemma foldl_toBytes (k s n : ℕ) :
    (toBytes k n).foldl (fun v b => v * 2 ^ 8 + b.toNat) s = s * 2 ^ (8 * k) + n % 2 ^ (8 * k) := by
  induction k generalizing n with
  | zero => simp [toBytes, Nat.mod_one]
  | succ k ih =>
    have hpow : 2 ^ (8 * (k + 1)) = 2 ^ 8 * 2 ^ (8 * k) := by
      ring
    rw [toBytes, foldl_append, ih, foldl_cons, foldl_nil, BitVec.toNat_ofNat, hpow, Nat.mod_mul]
    ring

lemma ofBytes_toBytes {k n : ℕ} (h : n < 2 ^ (8 * k)) : ofBytes (toBytes k n) = n := by
  rw [ofBytes, foldl_toBytes, Nat.mod_eq_of_lt h, Nat.zero_mul, Nat.zero_add]

end SingBox.Lib
