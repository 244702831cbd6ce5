import Mathlib.Order.WellFoundedSet

/-!
# Schedules

A log of nodes that were started one after the other, each after all the nodes it depends on.  A node of such a log is
on no cycle of dependencies; and where no further node can be started, the nodes left over depend on a node outside
or run into a cycle.
-/

namespace SingBox.Lib

open Relation List

variable {α : Type*} (r : α → α → Prop)

/-- `log` starts every node once and after all the nodes it depends on; `r a b` says that `a` depends on `b`. -/
inductive Schedule : List α → Prop where
  | nil : Schedule []
  | snoc {log : List α} {a : α} : Schedule log → a ∉ log → (∀ b, r a b → b ∈ log) → Schedule (log ++ [a])

variable {r}

namespace Schedule

variable {log : List α}

lemma nodup (h : Schedule r log) : log.Nodup := by
  induction h with
  | nil => exact nodup_nil
  | snoc _ hnew _ ih => exact ih.append (nodup_singleton _) (by simpa using hnew)

lemma before {log l₁ l₂ : List α} {a b : α} (h : Schedule r log) (hlog : log = l₁ ++ a :: l₂) (hab : r a b) :
    b ∈ l₁ := by
  induction h generalizing l₂ with
  | nil => simp at hlog
  | @snoc started last _ hnew hdeps ih =>
    rcases eq_nil_or_concat l₂ with rfl | ⟨l₃, c, rfl⟩
    · obtain ⟨rfl, hlast⟩ := append_inj' hlog rfl
      cases hlast
      exact hdeps b hab
    · have hsplit : started ++ [last] = (l₁ ++ a :: l₃) ++ [c] := by simpa using hlog
      obtain ⟨hpre, -⟩ := append_inj' hsplit rfl
      exact ih hpre

/-- What a started node depends on, however indirectly, was started. -/
lemma mem_of_transGen {a b : α} (h : Schedule r log) (ha : a ∈ log) (hab : TransGen r a b) : b ∈ log := by
  have hstep : ∀ {x y}, x ∈ log → r x y → y ∈ log := by
    intro x y hx hxy
    obtain ⟨l₁, l₂, hl⟩ := append_of_mem hx
    rw [hl]
    exact mem_append_left _ (h.before hl hxy)
  induction hab with
  | single hr => exact hstep ha hr
  | tail _ hr ih => exact hstep ih hr

/-- **No started node is on a cycle.** -/
theorem not_cycle {a : α} (h : Schedule r log) (ha : a ∈ log) : ¬TransGen r a a := by
  induction h with
  | nil => simp at ha
  | snoc hlog hnew hdeps ih =>
    intro hcycle
    rcases mem_append.1 ha with hold | hlast
    · exact ih hold hcycle
    · -- the last node depends on an earlier one, which leads back to it
      cases mem_singleton.1 hlast
      obtain ⟨b, hab, hba⟩ := TransGen.head'_iff.1 hcycle
      rcases hba.cases_head with rfl | ⟨c, hbc, hca⟩
      · exact hnew (hdeps _ hab)
      · exact hnew (hlog.mem_of_transGen (hdeps b hab) (TransGen.head' hbc hca))

end Schedule

/-- A finite set each node of which depends on a node of the set has a cycle. -/
lemma exists_cycle {s : Set α} (hs : s.Finite) (hne : s.Nonempty) (h : ∀ a ∈ s, ∃ b ∈ s, r a b) :
    ∃ a, TransGen r a a := by
  by_contra hno
  push Not at hno
  have : IsStrictOrder α (Function.swap (TransGen r)) :=
    { irrefl := hno, trans := fun _ _ _ hab hbc => hbc.trans hab }
  obtain ⟨x, hx⟩ := hne
  have hwf : s.WellFoundedOn (Function.swap (TransGen r)) := hs.wellFoundedOn
  obtain ⟨⟨a, ha⟩, -, hmin⟩ := WellFounded.has_min hwf Set.univ ⟨⟨x, hx⟩, trivial⟩
  obtain ⟨b, hb, hab⟩ := h a ha
  exact hmin ⟨b, hb⟩ trivial (.single hab)

end SingBox.Lib
