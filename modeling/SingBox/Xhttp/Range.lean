import SingBox.Lib.GoString

/-!
# Integer ranges of the XHTTP options

`intRange`, its random draw and its parser (`transport/v2rayxhttp/meta.go`, `xpadding.go`).  A draw
from a random source is an argument: `randIntn n d` is the value `rand.Intn n` returns when the source
yields `d`, and every value below `n` is reached by some `d`.
-/

namespace SingBox.Xhttp

open SingBox.Lib

/-- The errors of the option parsers: `E.Cause(err, "parse " + field)` or `E.New(text)`. -/
inductive ConfigError where
  | parse (field : String) (cause : NumError)
  | new (text : String)
  deriving DecidableEq, Repr

structure IntRange where
  min : ℤ
  max : ℤ
  deriving DecidableEq, Repr

def randIntn (n : ℤ) (draw : ℕ) : ℤ := if n ≤ 0 then 0 else draw % n

def IntRange.rand (r : IntRange) (draw : ℕ) : ℤ :=
  if r.max ≤ r.min then r.min else int64 (r.min + randIntn (int64 (r.max - r.min + 1)) draw)

def parseRange (raw : GoString) (field : String) : Except ConfigError IntRange :=
  let raw := trimSpace raw
  match cut 0x2d raw with
  | none =>
    match atoi raw with
    | .error e => .error (.parse field e)
    | .ok v => .ok ⟨v, v⟩
  | some (p0, p1) =>
    match atoi (trimSpace p0) with
    | .error e => .error (.parse (field ++ " min") e)
    | .ok minV =>
      match atoi (trimSpace p1) with
      | .error e => .error (.parse (field ++ " max") e)
      | .ok maxV => .ok (if maxV < minV then ⟨maxV, minV⟩ else ⟨minV, maxV⟩)

def parseRangeOr (raw : GoString) (field : String) (dflt : IntRange) : Except ConfigError IntRange :=
  if trimSpace raw = [] then .ok dflt else parseRange raw field

/-! ### What the parser returns -/

/-- A range as the parser returns it: ordered, with bounds that are values of `int`. -/
structure IntRange.WF (r : IntRange) : Prop where
  lo : -(2 ^ 63) ≤ r.min
  le : r.min ≤ r.max
  hi : r.max < 2 ^ 63

variable {r : IntRange}

lemma parseRange_wf {raw : GoString} {field : String} (h : parseRange raw field = .ok r) : r.WF := by
  unfold parseRange at h
  dsimp only at h
  split at h
  · split at h
    · cases h
    next v hv =>
      cases h
      have := atoi_bounds hv
      exact ⟨this.1, le_rfl, this.2⟩
  · split at h
    · cases h
    next minV hmin =>
      split at h
      · cases h
      next maxV hmax =>
        have h1 := atoi_bounds hmin
        have h2 := atoi_bounds hmax
        cases h
        split
        · exact ⟨h2.1, by dsimp only; omega, h1.2⟩
        · exact ⟨h1.1, by dsimp only; omega, h2.2⟩

lemma parseRangeOr_wf {raw : GoString} {field : String} {dflt r : IntRange} (hd : dflt.WF)
    (h : parseRangeOr raw field dflt = .ok r) : r.WF := by
  unfold parseRangeOr at h
  split at h
  · cases h; exact hd
  · exact parseRange_wf h

lemma randIntn_nonneg (n : ℤ) (draw : ℕ) : 0 ≤ randIntn n draw := by
  unfold randIntn
  split
  · exact le_rfl
  · exact Int.emod_nonneg _ (by omega)

lemma randIntn_lt {n : ℤ} (h : 0 < n) (draw : ℕ) : randIntn n draw < n := by
  unfold randIntn
  rw [if_neg (by omega)]
  exact Int.emod_lt_of_pos _ h

/-- A draw is inside its range; where the width of the range overflows, `randIntn` returns zero. -/
lemma IntRange.WF.exists_rand (h : r.WF) (draw : ℕ) : ∃ k, 0 ≤ k ∧ r.min + k ≤ r.max ∧ r.rand draw = r.min + k := by
  obtain ⟨hlo, hle, hhi⟩ := h
  unfold IntRange.rand
  split
  · exact ⟨0, le_rfl, by omega, by omega⟩
  · have h0 := randIntn_nonneg (int64 (r.max - r.min + 1)) draw
    have h1 : randIntn (int64 (r.max - r.min + 1)) draw ≤ r.max - r.min := by
      by_cases hw : r.max - r.min + 1 < 2 ^ 63
      · rw [int64_of_mem (by omega) hw]
        have := randIntn_lt (show 0 < r.max - r.min + 1 by omega) draw
        omega
      · have hneg : int64 (r.max - r.min + 1) ≤ 0 := by
          unfold int64
          rw [Int.bmod_def]
          split <;> omega
        rw [randIntn]
        omega
    exact ⟨_, h0, by omega, int64_of_mem (by omega) (by omega)⟩

lemma IntRange.WF.rand_le (h : r.WF) (draw : ℕ) : r.rand draw ≤ r.max := by
  obtain ⟨k, -, hk, heq⟩ := h.exists_rand draw
  rwa [heq]

lemma IntRange.WF.min_le_rand (h : r.WF) (draw : ℕ) : r.min ≤ r.rand draw := by
  obtain ⟨k, hk, -, heq⟩ := h.exists_rand draw
  omega

lemma IntRange.rand_zero (h : r.WF) : r.rand 0 = r.min := by
  obtain ⟨hlo, hle, hhi⟩ := h
  unfold IntRange.rand
  split
  · rfl
  · have hz : randIntn (int64 (r.max - r.min + 1)) 0 = 0 := by
      unfold randIntn
      split <;> simp
    rw [hz, add_zero, int64_of_mem hlo (by omega)]

end SingBox.Xhttp
