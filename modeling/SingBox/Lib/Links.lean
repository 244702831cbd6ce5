import Mathlib.Logic.Function.Basic

/-!
# Two maps that are inverse to each other

Names are linked to values, and each value to one name.  Values are of several kinds, and a name has at most one value
of each kind: `values k n` is the value of kind `k` that `n` has, and `name v` is the name of `v`.  The two maps are
`Linked` when they are inverse to each other.  A link can be made to a value that has another name already, when that
name is unlinked from it (`Linked.link`).
-/

namespace SingBox.Lib

variable {α κ ν : Type*}

/-- The values of the names and the names of the values are inverse to each other. -/
def Linked (kind : α → κ) (values : κ → ν → Option α) (name : α → Option ν) : Prop :=
  ∀ k n v, values k n = some v ↔ kind v = k ∧ name v = some n

variable {kind : α → κ} {values values' : κ → ν → Option α} {name name' : α → Option ν}

lemma Linked.injective (h : Linked kind values name) {k : κ} {n n' : ν} {v : α} (hn : values k n = some v)
    (hn' : values k n' = some v) : n = n' :=
  Option.some.inj (((h k n v).1 hn).2.symm.trans ((h k n' v).1 hn').2)

/-- A link is made: the value gets a name that had no value of its kind, and the name that it had before loses it. -/
structure Links (kind : α → κ) (values values' : κ → ν → Option α) (name name' : α → Option ν) (n : ν) (v : α) :
    Prop where
  name_self : name' v = some n
  name_other : ∀ w, w ≠ v → name' w = name w
  value_self : values' (kind v) n = some v
  value_before : ∀ n', n' ≠ n → name v = some n' → values' (kind v) n' = none
  value_other : ∀ n', n' ≠ n → name v ≠ some n' → values' (kind v) n' = values (kind v) n'
  kind_other : ∀ k, k ≠ kind v → values' k = values k

lemma Linked.link (h : Linked kind values name) {n : ν} {v : α} (hn : values (kind v) n = none)
    (hl : Links kind values values' name name' n v) : Linked kind values' name' := by
  intro k m w
  by_cases hk : k = kind v
  · subst hk
    by_cases hm : m = n
    · subst hm
      rw [hl.value_self, Option.some.injEq]
      constructor
      · rintro rfl
        exact ⟨rfl, hl.name_self⟩
      · rintro ⟨hkw, hw⟩
        by_contra hne
        rw [hl.name_other w (Ne.symm hne)] at hw
        rw [(h _ m w).2 ⟨hkw, hw⟩] at hn
        cases hn
    · by_cases hv : name v = some m
      · -- the name that the value had before
        rw [hl.value_before m hm hv]
        refine ⟨by simp, fun ⟨hkw, hw⟩ => ?_⟩
        by_cases hwv : w = v
        · subst hwv
          rw [hl.name_self] at hw
          exact absurd (Option.some.inj hw).symm hm
        · rw [hl.name_other w hwv] at hw
          have h1 := (h _ m w).2 ⟨hkw, hw⟩
          rw [(h _ m v).2 ⟨rfl, hv⟩] at h1
          exact absurd (Option.some.inj h1).symm hwv
      · rw [hl.value_other m hm hv, h]
        by_cases hwv : w = v
        · subst hwv
          rw [hl.name_self]
          exact ⟨fun hw => absurd hw.2 hv, fun hw => absurd (Option.some.inj hw.2).symm hm⟩
        · rw [hl.name_other w hwv]
  · rw [hl.kind_other k hk, h]
    by_cases hwv : w = v
    · subst hwv
      exact ⟨fun hw => absurd hw.1.symm hk, fun hw => absurd hw.1.symm hk⟩
    · rw [hl.name_other w hwv]

end SingBox.Lib
