import Mathlib.Logic.Basic

/-!
# Runs of a step function

A system is a step function `step : σ → α → Option σ`; an action that is not enabled has no
successor.  A run is a state and a list of actions; it ends early at the first that is not enabled.
-/

namespace SingBox.Lib

section Runs

variable {σ α : Type*} (step : σ → α → Option σ)

/-- `P` holds in every state the run of the actions from `s` reaches, `s` included. -/
def VisitAll (P : σ → Prop) : σ → List α → Prop
  | s, [] => P s
  | s, a :: as => P s ∧ ∀ t, step s a = some t → VisitAll P t as

/-- Every step the run takes meets the condition `C` on the state before it and the action. -/
def StepAll (C : σ → α → Prop) : σ → List α → Prop
  | _, [] => True
  | s, a :: as => ∀ t, step s a = some t → C s a ∧ StepAll C t as

instance decidableStepAll {C : σ → α → Prop} [∀ s a, Decidable (C s a)] : ∀ s as, Decidable (StepAll step C s as)
  | _, [] => isTrue trivial
  | s, a :: as =>
    match h : step s a with
    | none => isTrue fun t ht => by rw [h] at ht; cases ht
    | some t =>
      have := decidableStepAll (C := C) t as
      decidable_of_iff (C s a ∧ StepAll step C t as)
        ⟨fun hC u hu => by rw [h] at hu; cases hu; exact hC, fun hC => hC t h⟩

/-- The state at the end of a run, when all its actions are enabled. -/
def runOf : σ → List α → Option σ
  | s, [] => some s
  | s, a :: as => (step s a).bind fun t => runOf t as

variable {step}

lemma runOf_append (s : σ) (as bs : List α) :
    runOf step s (as ++ bs) = (runOf step s as).bind fun t => runOf step t bs := by
  induction as generalizing s with
  | nil => rfl
  | cons a as ih =>
    simp only [List.cons_append, runOf, Option.bind_assoc, ih]

lemma VisitAll.head {P : σ → Prop} {s : σ} {as : List α} (h : VisitAll step P s as) : P s := by
  cases as with
  | nil => exact h
  | cons a as => exact h.1

lemma VisitAll.imp {P Q : σ → Prop} (hPQ : ∀ s, P s → Q s) :
    ∀ {as : List α} {s : σ}, VisitAll step P s as → VisitAll step Q s as
  | [], s, h => hPQ s h
  | _ :: _, s, h => ⟨hPQ s h.1, fun t ht => (h.2 t ht).imp hPQ⟩

lemma VisitAll.last {P : σ → Prop} : ∀ {as : List α} {s t : σ}, VisitAll step P s as → runOf step s as = some t → P t
  | [], s, t, h, ht => by
    simp only [runOf, Option.some.injEq] at ht
    exact ht ▸ h
  | a :: as, s, t, h, ht => by
    simp only [runOf, Option.bind_eq_some_iff] at ht
    obtain ⟨u, hu, ht⟩ := ht
    exact (h.2 u hu).last ht

theorem visitAll_of_inv {I : σ → Prop} (hstep : ∀ s a t, step s a = some t → I s → I t) :
    ∀ (as : List α) {s : σ}, I s → VisitAll step I s as
  | [], _, h => h
  | a :: as, s, h => ⟨h, fun t ht => visitAll_of_inv hstep as (hstep s a t ht h)⟩

/-- The invariant rule for the runs whose steps all meet a condition. -/
lemma visitAll_of_stepAll {I : σ → Prop} {C : σ → α → Prop} (hstep : ∀ s a t, step s a = some t → C s a → I s → I t) :
    ∀ (as : List α) {s : σ}, I s → StepAll step C s as → VisitAll step I s as
  | [], _, h, _ => h
  | a :: as, s, h, hC => ⟨h, fun t ht =>
    visitAll_of_stepAll hstep as (hstep s a t ht (hC t ht).1 h) (hC t ht).2⟩

/-- **The rule for an exact condition.**  Under an invariant `I`, if a step from a state with `P`
keeps `P` exactly when it meets `C`, then the runs that keep `P` are those whose steps meet `C`. -/
theorem visitAll_iff_stepAll {I P : σ → Prop} {C : σ → α → Prop} (hI : ∀ s a t, step s a = some t → I s → I t)
    (hP : ∀ s a t, step s a = some t → I s → P s → (P t ↔ C s a)) :
    ∀ (as : List α) {s : σ}, I s → P s → (VisitAll step P s as ↔ StepAll step C s as)
  | [], _, _, h => ⟨fun _ => trivial, fun _ => h⟩
  | a :: as, s, hs, h => by
    constructor
    · rintro ⟨-, hv⟩ t ht
      have hPt : P t := (hv t ht).head
      exact ⟨(hP s a t ht hs h).1 hPt, (visitAll_iff_stepAll hI hP as (hI s a t ht hs) hPt).1 (hv t ht)⟩
    · intro hC
      refine ⟨h, fun t ht => ?_⟩
      have hPt : P t := (hP s a t ht hs h).2 (hC t ht).1
      exact (visitAll_iff_stepAll hI hP as (hI s a t ht hs) hPt).2 (hC t ht).2

end Runs

end SingBox.Lib
