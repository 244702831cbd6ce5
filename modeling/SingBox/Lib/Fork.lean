import SingBox.Lib.Goroutine

/-!
# Goroutines that start goroutines

A program as in `Program`, whose sections may also start goroutines: `exec o x s` returns the new state, the sections
that take the place of `o` in its goroutine, and the first sections of the goroutines it starts.  Configurations and
events are those of `Program`.
-/

namespace SingBox.Lib

open Multiset

variable {σ ι χ κ : Type*}

/-- A program: the code of each call, and the effect of each atomic section with the goroutines it starts. -/
structure Forking (σ ι χ κ : Type*) where
  entry : κ → σ → σ × List ι
  exec : ι → χ → σ → Option (σ × List ι × List ι)

namespace Forking

variable (P : Forking σ ι χ κ)

def step (c : Config σ ι) : Event χ κ → Option (Config σ ι)
  | .call k => some ⟨(P.entry k c.shared).1, c.threads ++ [(P.entry k c.shared).2]⟩
  | .sched i x =>
    match c.threads[i]? with
    | some (o :: rest) =>
      (P.exec o x c.shared).map fun r => ⟨r.1, c.threads.set i (r.2.1 ++ rest) ++ r.2.2.map fun o => [o]⟩
    | _ => none

variable {P}

lemma flatten_map_singleton_coe (l : List ι) : ((l.map fun o => [o]).flatten : Multiset ι) = ↑l := by
  rw [← List.flatMap_def, List.flatMap_singleton']

/-- **What a step does.**  A call adds its code; a scheduled goroutine runs its next section, and may start others. -/
theorem step_cases {c c' : Config σ ι} {e : Event χ κ} (h : P.step c e = some c') :
    (∃ k, e = .call k ∧ c'.shared = (P.entry k c.shared).1 ∧ c'.pending = ↑(P.entry k c.shared).2 + c.pending) ∨
    (∃ i x o s' new started m, e = .sched i x ∧ c.next i = some o ∧ P.exec o x c.shared = some (s', new, started) ∧
      c'.shared = s' ∧ c.pending = o ::ₘ m ∧ c'.pending = ↑(new ++ started) + m) := by
  cases e with
  | call k =>
    rw [step, Option.some.injEq] at h
    subst h
    refine .inl ⟨k, rfl, rfl, ?_⟩
    simp [Config.pending, add_comm]
  | sched i x =>
    simp only [step] at h
    split at h
    next o rest hi =>
      obtain ⟨⟨s', new, started⟩, hx, rfl⟩ := Option.map_eq_some_iff.1 h
      obtain ⟨m, h1, h2⟩ := Program.flatten_set_coe new c.threads i hi
      refine .inr ⟨i, x, o, s', new, started, m, rfl, by simp [Config.next, hi], hx, rfl, h1, ?_⟩
      rw [Config.pending, List.flatten_append, ← coe_add, h2, flatten_map_singleton_coe, ← coe_add, add_right_comm]
    · cases h

end Forking

end SingBox.Lib
