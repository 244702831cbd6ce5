import SingBox.Awg.Transport
import SingBox.Lib.Run

/-!
# The replay filter

`ValidateCounter` keeps the counters it has accepted as bits in a ring of blocks.  Blocks are cleared only where the
window moves over them, and `Reset` clears the first one alone.
-/

namespace SingBox.Awg

open SingBox.Lib Finset

def Filter.reset (f : Filter) : Filter := ⟨0, fun i => if i = 0 then 0 else f.ring i⟩

/-- A filter, and the counters it has accepted since it was reset. -/
structure Replay where
  filter : Filter := {}
  accepted : Finset ℕ := ∅

inductive ReplayCall where
  | validateCounter (counter limit : ℕ)
  | reset

def Replay.step (s : Replay) : ReplayCall → Option Replay
  | .validateCounter counter limit =>
    let (filter, ok) := s.filter.validateCounter counter limit
    some ⟨filter, if ok then insert counter s.accepted else s.accepted⟩
  | .reset => some ⟨s.filter.reset, ∅⟩

/-- A counter is accepted exactly if it is below the limit and new, and at most a window behind the others. -/
def Replay.Exact (s : Replay) : Prop := ∀ counter limit, (s.filter.validateCounter counter limit).2 = true ↔
  counter < limit ∧ counter ∉ s.accepted ∧ ∀ a ∈ s.accepted, a ≤ counter + 127 * 64

namespace Filter

/-- In the blocks up to that of `last`, as many as the ring has, the bits are those of the counters. -/
def Shows (f : Filter) (log : Finset ℕ) : Prop := ∀ c, c / 64 ≤ f.last / 64 → f.last / 64 < c / 64 + 128 →
  ((f.ring (c / 64 % 128)).getLsbD (c % 64) = true ↔ c ∈ log)

structure Holds (f : Filter) (log : Finset ℕ) : Prop where
  last : f.last = 0 ∨ f.last ∈ log
  le : ∀ a ∈ log, a ≤ f.last
  shows : f.Shows log

variable {f : Filter} {log : Finset ℕ} {counter : ℕ}

lemma clearBlocks_of_mem {ring : ℕ → BitVec 64} {current n k : ℕ} (h0 : 0 < k) (hk : k ≤ n) :
    clearBlocks ring current n ((current + k) % 128) = 0 := by
  induction n with
  | zero => omega
  | succ n ih =>
    simp only [clearBlocks]
    split
    · rfl
    · exact ih (by grind)

lemma clearBlocks_of_not_mem {ring : ℕ → BitVec 64} {current n i : ℕ}
    (h : ∀ k, 0 < k → k ≤ n → i ≠ (current + k) % 128) : clearBlocks ring current n i = ring i := by
  induction n with
  | zero => rfl
  | succ n ih => exact (if_neg (h (n + 1) n.succ_pos le_rfl)).trans (ih fun k h0 hk => h k h0 (by omega))

lemma Holds.advance (h : f.Holds log) (hlast : f.last < counter) :
    Shows ⟨counter, clearBlocks f.ring (f.last / 64) (min (counter / 64 - f.last / 64) 128)⟩ log := by
  intro c hle hlt
  dsimp only at hle hlt ⊢
  by_cases hc : c / 64 ≤ f.last / 64
  · rw [clearBlocks_of_not_mem fun k h0 hk => by omega]
    exact h.shows c hc (by omega)
  · -- the block is cleared, perhaps as another one with its place in the ring
    have hmod : c / 64 % 128 = (f.last / 64 + ((c / 64 - f.last / 64 - 1) % 128 + 1)) % 128 := by omega
    rw [hmod, clearBlocks_of_mem (by omega) (by omega)]
    refine iff_of_false (by simp) fun hmem => ?_
    have := h.le c hmem
    omega

lemma getLsbD_or_bit (x : BitVec 64) (k : ℕ) {i : ℕ} (hi : i < 64) :
    (x ||| ((1 <<< k : ℕ) : BitVec 64)).getLsbD i = (x.getLsbD i || decide (k = i)) := by
  rw [BitVec.getLsbD_or, BitVec.natCast_eq_ofNat, BitVec.getLsbD_ofNat, Nat.shiftLeft_eq, Nat.one_mul,
    Nat.testBit_two_pow, decide_eq_true hi, Bool.true_and]

lemma Shows.mark (h : f.Shows log) (hle : ∀ a ∈ log, a ≤ f.last) (hlast : f.last = 0 ∨ f.last ∈ insert counter log)
    (hc : counter ≤ f.last) (hnear : f.last ≤ counter + 127 * 64) : ((f.mark counter).2 = true ↔ counter ∉ log) ∧
      (f.mark counter).1.Holds (if (f.mark counter).2 then insert counter log else log) := by
  have hok : (f.mark counter).2 = true ↔ counter ∉ log := by
    rw [← h counter (by omega) (by omega), Filter.mark, bne_iff_ne, not_iff_not]
    constructor
    · intro heq
      rw [heq, getLsbD_or_bit _ _ (by omega)]
      simp
    · refine fun hset => BitVec.eq_of_getLsbD_eq fun i hi => ?_
      grind [getLsbD_or_bit]
  have hlog : (if (f.mark counter).2 then insert counter log else log) = insert counter log := by
    grind
  rw [hlog]
  refine ⟨hok, hlast, forall_mem_insert _ _ _ |>.2 ⟨hc, hle⟩, fun c hcle hclt => ?_⟩
  simp only [Filter.mark] at hcle hclt ⊢
  rw [mem_insert, ← h c hcle hclt]
  split
  next heq =>
    rw [getLsbD_or_bit _ _ (by omega), heq, Bool.or_eq_true, decide_eq_true_eq, or_comm]
    exact or_congr_left (by omega)
  next hne => exact (or_iff_right fun heq => hne (by rw [heq])).symm

lemma Holds.validateCounter (h : f.Holds log) (counter limit : ℕ) : ((f.validateCounter counter limit).2 = true ↔
      counter < limit ∧ counter ∉ log ∧ ∀ a ∈ log, a ≤ counter + 127 * 64) ∧ (f.validateCounter counter limit).1.Holds
      (if (f.validateCounter counter limit).2 then insert counter log else log) := by
  unfold Filter.validateCounter
  split
  next hlimit => exact ⟨by simp; omega, h⟩
  split
  next hlast =>
    have hle := fun a ha => (h.le a ha).trans hlast.le
    obtain ⟨hok, hholds⟩ := (h.advance hlast).mark hle (.inr (mem_insert_self _ _)) le_rfl (by dsimp only; omega)
    refine ⟨hok.trans ⟨fun hn => ⟨by omega, hn, fun a ha => (hle a ha).trans (by omega)⟩, fun hall => hall.2.1⟩, hholds⟩
  split
  next hfar =>
    refine ⟨iff_of_false (by simp) fun hall => ?_, h⟩
    rcases h.last with h0 | hmem
    · omega
    · have := hall.2.2 _ hmem
      omega
  next hnear =>
    obtain ⟨hok, hholds⟩ :=
      @Shows.mark f log counter h.shows h.le (h.last.imp_right mem_insert_of_mem) (by omega) (by omega)
    exact ⟨hok.trans ⟨fun hn => ⟨by omega, hn, fun a ha => (h.le a ha).trans (by omega)⟩, fun hall => hall.2.1⟩, hholds⟩

end Filter

/-- **The replay filter accepts each counter once**, in every run. -/
theorem replay_exact (calls : List ReplayCall) : VisitAll Replay.step Replay.Exact {} calls := by
  have hinit : Filter.Holds {} ∅ := ⟨.inl rfl, by simp, fun c _ _ => by simp⟩
  refine (visitAll_of_inv (I := fun s : Replay => s.filter.Holds s.accepted) ?_ calls hinit).imp
    fun s hs counter limit => (hs.validateCounter counter limit).1
  rintro s (⟨counter, limit⟩ | _) t ⟨⟩ h
  · exact (h.validateCounter counter limit).2
  · refine ⟨.inl rfl, by simp, fun c hc _ => ?_⟩
    have : c / 64 % 128 = 0 := by
      simp only [Filter.reset] at hc
      omega
    simp [Filter.reset, this]

end SingBox.Awg
