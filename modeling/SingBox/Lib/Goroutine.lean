import Mathlib.Algebra.Order.Group.Multiset
import SingBox.Lib.Run

/-!
# Goroutines over a shared state

A program is given by its *atomic sections*: what one goroutine does between two points where another
one can run (a critical section, a channel operation, an atomic access).  `exec o x s` runs the section
`o` in the shared state `s` with the outside input `x` (a clock reading, random draws, the branch of a
`select`); it returns the new state and the sections that take the place of `o` in its goroutine, or
`none` when the section is blocked.  `entry k s` is the code of a call `k` that starts in `s`, with the
state in which the call has been recorded.

A configuration is the shared state and one list of sections left for each goroutine.  Its steps are
`call k`, a new goroutine, and `sched i x`, the next section of goroutine `i`: a run is any
interleaving of any number of calls.
-/

namespace SingBox.Lib

open List Multiset

/-- A program: the code of each call and the effect of each atomic section. -/
structure Program (σ ι χ κ : Type*) where
  entry : κ → σ → σ × List ι
  exec : ι → χ → σ → Option (σ × List ι)

/-- The shared state and what is left of every goroutine. -/
structure Config (σ ι : Type*) where
  shared : σ
  threads : List (List ι)

/-- A step of a run: a new call, or the next section of a goroutine. -/
inductive Event (χ κ : Type*) where
  | call (k : κ)
  | sched (i : ℕ) (x : χ)

variable {σ ι χ κ : Type*}

/-- The sections that are left, over all goroutines. -/
def Config.pending (c : Config σ ι) : Multiset ι := (c.threads.flatten : Multiset ι)

def Config.next (c : Config σ ι) (i : ℕ) : Option ι := (c.threads[i]?).bind List.head?

def Config.init (s : σ) : Config σ ι := ⟨s, []⟩

@[simp] lemma Config.pending_init (s : σ) : (Config.init s : Config σ ι).pending = 0 := rfl

@[simp] lemma Config.shared_init (s : σ) : (Config.init s : Config σ ι).shared = s := rfl

@[simp] lemma pending_nil_add (m : Multiset ι) : (([] : List ι) : Multiset ι) + m = m := zero_add m

@[simp] lemma pending_cons_add (o : ι) (l : List ι) (m : Multiset ι) :
    ((o :: l : List ι) : Multiset ι) + m = o ::ₘ (↑l + m) := by
  rw [← cons_coe, cons_add]

def Config.Idle (c : Config σ ι) : Prop := ∀ t ∈ c.threads, t = []

lemma Config.Idle.pending {c : Config σ ι} (h : c.Idle) : c.pending = 0 := by
  unfold Config.pending
  rw [flatten_eq_nil_iff.2 h]
  rfl

namespace Program

variable (P : Program σ ι χ κ)

def step (c : Config σ ι) : Event χ κ → Option (Config σ ι)
  | .call k => some ⟨(P.entry k c.shared).1, c.threads ++ [(P.entry k c.shared).2]⟩
  | .sched i x =>
    match c.threads[i]? with
    | some (o :: rest) =>
      (P.exec o x c.shared).map fun r => ⟨r.1, c.threads.set i (r.2 ++ rest)⟩
    | _ => none

variable {P}

lemma step_call (c : Config σ ι) (k : κ) :
    P.step c (.call k) = some ⟨(P.entry k c.shared).1, c.threads ++ [(P.entry k c.shared).2]⟩ := rfl

lemma step_last {s : σ} {ts : List (List ι)} {o : ι} {rest : List ι} {x : χ} {s' : σ} {new : List ι}
    (h : P.exec o x s = some (s', new)) :
    P.step ⟨s, ts ++ [o :: rest]⟩ (.sched ts.length x) = some ⟨s', ts ++ [new ++ rest]⟩ := by
  simp [step, h]

lemma flatten_set_coe {o : ι} {rest : List ι} (new : List ι) : ∀ (ts : List (List ι)) (i : ℕ),
    ts[i]? = some (o :: rest) → ∃ m : Multiset ι,
      (ts.flatten : Multiset ι) = o ::ₘ m ∧ ((ts.set i (new ++ rest)).flatten : Multiset ι) = ↑new + m
  | [], i, h => by simp at h
  | t :: ts, 0, h => by
    simp only [getElem?_cons_zero, Option.some.injEq] at h
    subst h
    refine ⟨((rest ++ ts.flatten : List ι) : Multiset ι), by simp, ?_⟩
    simp [coe_add, append_assoc]
  | t :: ts, i + 1, h => by
    obtain ⟨m, h1, h2⟩ := flatten_set_coe new ts i (by simpa using h)
    refine ⟨↑t + m, ?_, ?_⟩
    · rw [flatten_cons, ← coe_add, h1, add_cons]
    · rw [set_cons_succ, flatten_cons, ← coe_add, h2, add_left_comm]

/-- **What a step does.**  A call adds its code; a scheduled goroutine runs its next section. -/
theorem step_cases {c c' : Config σ ι} {e : Event χ κ} (h : P.step c e = some c') :
    (∃ k, e = .call k ∧ c'.shared = (P.entry k c.shared).1 ∧ c'.pending = ↑(P.entry k c.shared).2 + c.pending) ∨
    (∃ i x o s' new m, e = .sched i x ∧ c.next i = some o ∧ P.exec o x c.shared = some (s', new) ∧
      c'.shared = s' ∧ c.pending = o ::ₘ m ∧ c'.pending = ↑new + m) := by
  cases e with
  | call k =>
    rw [step_call, Option.some.injEq] at h
    subst h
    refine .inl ⟨k, rfl, rfl, ?_⟩
    simp [Config.pending, add_comm]
  | sched i x =>
    simp only [step] at h
    split at h
    next o rest hi =>
      obtain ⟨⟨s', new⟩, hx, rfl⟩ := Option.map_eq_some_iff.1 h
      obtain ⟨m, h1, h2⟩ := flatten_set_coe new c.threads i hi
      exact .inr ⟨i, x, o, s', new, m, rfl, by simp [Config.next, hi], hx, rfl, h1, h2⟩
    · cases h

/-- **The invariant rule for programs.**  An invariant of the shared state and the pending sections
is kept when every call and every section keeps it. -/
theorem step_inv (Inv : σ → Multiset ι → Prop) (hcall : ∀ k s m, Inv s m → Inv (P.entry k s).1 (↑(P.entry k s).2 + m))
    (hexec : ∀ o x s s' new m, P.exec o x s = some (s', new) → Inv s (o ::ₘ m) →
      Inv s' (↑new + m)) (c : Config σ ι) (e : Event χ κ) (c' : Config σ ι)
    (h : P.step c e = some c') (hc : Inv c.shared c.pending) : Inv c'.shared c'.pending := by
  rcases step_cases h with ⟨k, -, h1, h2⟩ | ⟨i, x, o, s', new, m, -, -, hx, rfl, h1, h2⟩
  · rw [h1, h2]
    exact hcall k _ _ hc
  · rw [h2]
    exact hexec o x _ _ new m hx (h1 ▸ hc)

end Program

end SingBox.Lib
