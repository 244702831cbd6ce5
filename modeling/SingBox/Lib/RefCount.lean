import Mathlib.Data.Multiset.Count

/-!
# Reference counts with a retire mark

An object that any number of threads take into use and give back, until it is replaced: the thread that replaces it
marks it, and whoever then finds nobody counted closes it.  A thread counts itself first and then looks whether the
object is still the current one; one that gives the object back takes itself off the count, and looks for the mark if it
was the last.

The state has the object and the threads between two atomic operations, each by what it is about to do.  Every action
keeps the count right and leaves somebody to close the object (`Step.counted`).
-/

namespace SingBox.Lib

open Multiset

inductive RefCount.Role where
  /-- It has counted itself and will look whether the object is current. -/
  | trying
  | user
  /-- It has found the object replaced and will take itself off the count. -/
  | leaving
  /-- It was the last one and will look for the mark. -/
  | asking
  /-- It has replaced the object and will mark it. -/
  | marking
  /-- It has marked the object and will look at the count. -/
  | looking
  | closing
  deriving DecidableEq

structure RefCount where
  /-- Threads still find the object. -/
  current : Bool
  active : ℤ
  marked : Bool
  /-- The closing has been done, and how often. -/
  once : Bool
  closes : ℕ
  threads : Multiset RefCount.Role

namespace RefCount

inductive Act where
  | add | acquire | back | release | leave | ask | replace | mark | look | close

inductive Step (r : RefCount) : Act → RefCount → Prop where
  | add : Step r .add { r with active := r.active + 1, threads := .trying ::ₘ r.threads }
  | acquire {t : Multiset Role} (h : r.threads = .trying ::ₘ t) (hc : r.current = true) :
    Step r .acquire { r with threads := .user ::ₘ t }
  | back {t : Multiset Role} (h : r.threads = .trying ::ₘ t) : Step r .back { r with threads := .leaving ::ₘ t }
  | release {t : Multiset Role} (h : r.threads = .user ::ₘ t) :
    Step r .release { r with active := r.active - 1, threads := if r.active - 1 = 0 then .asking ::ₘ t else t }
  | leave {t : Multiset Role} (h : r.threads = .leaving ::ₘ t) :
    Step r .leave { r with active := r.active - 1, threads := if r.active - 1 = 0 then .asking ::ₘ t else t }
  | ask {t : Multiset Role} (h : r.threads = .asking ::ₘ t) :
    Step r .ask { r with threads := if r.marked then .closing ::ₘ t else t }
  | replace (hc : r.current = true) : Step r .replace { r with current := false, threads := .marking ::ₘ r.threads }
  | mark {t : Multiset Role} (h : r.threads = .marking ::ₘ t) :
    Step r .mark { r with marked := true, threads := .looking ::ₘ t }
  | look {t : Multiset Role} (h : r.threads = .looking ::ₘ t) :
    Step r .look { r with threads := if r.active = 0 then .closing ::ₘ t else t }
  | close {t : Multiset Role} (h : r.threads = .closing ::ₘ t) :
    Step r .close { r with once := true, closes := r.closes + (if r.once then 0 else 1), threads := t }

def new : RefCount := ⟨true, 0, false, false, 0, 0⟩

/-- **The count is right, and a replaced object is closed or there is somebody to close it.** -/
structure Counted (r : RefCount) : Prop where
  count : r.active = r.threads.count .trying + r.threads.count .user + r.threads.count .leaving
  closes : r.closes = if r.once then 1 else 0
  current : r.current = true → r.marked = false ∧ r.once = false ∧
    .marking ∉ r.threads ∧ .looking ∉ r.threads ∧ .closing ∉ r.threads
  replaced : r.current = false → .marking ∈ r.threads ∨ r.marked = true ∧
    (.looking ∈ r.threads ∨ 0 < r.active ∨ .asking ∈ r.threads ∨ .closing ∈ r.threads ∨ 0 < r.closes)

/-- **Nobody uses an object that is closed or about to be.** -/
def Safe (r : RefCount) : Prop := .closing ∈ r.threads ∨ r.once = true → .user ∉ r.threads

lemma counted_new : new.Counted :=
  ⟨rfl, rfl, fun _ => ⟨rfl, rfl, notMem_zero _, notMem_zero _, notMem_zero _⟩,
    fun h => by cases h⟩

lemma safe_new : new.Safe := fun _ => notMem_zero _

lemma Counted.no_user {r : RefCount} (h : r.Counted) (ha : r.active = 0) : .user ∉ r.threads := by
  have := h.count
  exact count_eq_zero.1 (by omega)

lemma Step.counted {r r' : RefCount} {a : Act} (h : Step r a r') (hr : r.Counted) : r'.Counted := by
  obtain ⟨hcount, hcloses, hcur, hrep⟩ := hr
  cases h with
  | add =>
    refine ⟨by simp; omega, hcloses, by simpa using hcur, fun hc => (hrep hc).imp (by simp) fun ⟨hm, h'⟩ => ⟨hm, ?_⟩⟩
    exact .inr (.inl (by dsimp only; omega))
  | acquire h hc | back h =>
    simp only [h] at hcount hcur hrep
    exact ⟨by simp at hcount ⊢; omega, hcloses, by simpa using hcur, by simpa using hrep⟩
  | release h | leave h =>
    -- the last one to go will look for the mark
    simp only [h] at hcount hcur hrep
    by_cases ha : r.active - 1 = 0
    · refine ⟨by simp [ha] at hcount ⊢; omega, hcloses, by simpa [ha] using hcur,
        fun hc => (hrep hc).imp (by simp [ha]) fun ⟨hm, _⟩ => ⟨hm, ?_⟩⟩
      exact .inr (.inr (.inl (by simp [ha])))
    · refine ⟨by simp [ha] at hcount ⊢; omega, hcloses, by simpa [ha] using hcur,
        fun hc => (hrep hc).imp (by simp [ha]) fun ⟨hm, _⟩ => ⟨hm, ?_⟩⟩
      exact .inr (.inl (by simp at hcount ⊢; omega))
  | ask h =>
    simp only [h] at hcount hcur hrep
    cases hm : r.marked with
    | false => exact ⟨by simpa using hcount, hcloses, by simpa [hm] using hcur, by simpa [hm] using hrep⟩
    | true =>
      refine ⟨by simpa using hcount, hcloses, fun hc => absurd (hcur hc).1 (by simp [hm]), fun hc => ?_⟩
      exact .inr ⟨rfl, .inr (.inr (.inr (.inl (by simp))))⟩
  | replace hc => exact ⟨by simpa using hcount, hcloses, by simp, fun _ => .inl (by simp)⟩
  | mark h =>
    simp only [h] at hcount hcur
    exact ⟨by simpa using hcount, hcloses, fun hc => absurd (by simp) (hcur hc).2.2.1,
      fun _ => .inr ⟨rfl, .inl (by simp)⟩⟩
  | look h =>
    -- whoever marked the object closes it, or somebody is still counted
    simp only [h] at hcount hcur hrep
    refine ⟨by split <;> simpa using hcount, hcloses, fun hc => absurd (by simp) (hcur hc).2.2.2.1,
      fun hc => (hrep hc).imp (by split <;> simp) fun ⟨hm, _⟩ => ⟨hm, ?_⟩⟩
    by_cases ha : r.active = 0
    · exact .inr (.inr (.inr (.inl (by simp [ha]))))
    · exact .inr (.inl (by dsimp only; omega))
  | close h =>
    have hone : r.closes + (if r.once then 0 else 1) = 1 := by
      rw [hcloses]
      cases r.once <;> rfl
    simp only [h] at hcount hcur hrep
    refine ⟨by simpa using hcount, hone, fun hc => absurd (by simp) (hcur hc).2.2.2.2,
      fun hc => (hrep hc).imp (by simp) fun ⟨hm, _⟩ => ⟨hm, ?_⟩⟩
    exact .inr (.inr (.inr (.inr (by dsimp only; omega))))

/-- **Nobody closes the object under a user**, if a thread that looks for the mark finds none or there is no user. -/
theorem Step.safe {r r' : RefCount} {a : Act} (h : Step r a r') (hr : r.Counted) (hs : r.Safe)
    (hask : a = .ask → r.marked = true → .user ∉ r.threads) : r'.Safe := by
  have hzero := hr.no_user
  unfold Safe at hs ⊢
  cases h with
  | add | replace hc => simpa using hs
  | acquire h hc =>
    obtain ⟨-, ho, -, -, h3⟩ := hr.current hc
    simp only [h] at h3
    simp at h3
    simp [h3, ho]
  | back h | mark h =>
    simp only [h] at hs
    simpa using hs
  | release h | close h =>
    -- with a user there, nobody was closing
    simp only [h] at hs
    simp at hs
    split <;> simp [hs]
  | leave h =>
    simp only [h] at hs
    split <;> simpa using hs
  | ask h =>
    have hask := hask rfl
    simp only [h] at hs hask
    cases hm : r.marked with
    | false => simpa using hs
    | true => simpa using hask hm
  | look h =>
    simp only [h] at hs hzero
    by_cases ha : r.active = 0
    · simpa [ha] using hzero ha
    · simpa [ha] using hs

end RefCount

end SingBox.Lib
