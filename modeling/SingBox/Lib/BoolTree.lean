import Mathlib.Data.List.Basic

/-!
# And/or trees

Trees of conjunctions and disjunctions, each of which may be inverted, over leaves of any type.  Their
meaning (`BoolTree.Holds`) is read off the meaning of the leaves; where a leaf has two readings, `BoolTree.Bound` takes
all of them in favour of the tree, or all against it.
-/

namespace SingBox.Lib

/-- How a node combines its children. -/
inductive LogicalMode where
  | and
  | or
  deriving DecidableEq

inductive BoolTree (L : Type*) where
  | default (rule : L)
  | logical (mode : LogicalMode) (rules : List (BoolTree L)) (invert : Bool)

/-- `P`, or its negation. -/
def Inverted (invert : Bool) (P : Prop) : Prop := if invert then ¬P else P

@[simp]
lemma inverted_false (P : Prop) : Inverted false P ↔ P := by simp [Inverted]

@[simp]
lemma inverted_true (P : Prop) : Inverted true P ↔ ¬P := by simp [Inverted]

lemma Inverted.congr {P Q : Prop} (invert : Bool) (h : P ↔ Q) : Inverted invert P ↔ Inverted invert Q := by
  rw [propext h]

variable {L L' : Type*}

/-- Induction over a tree, with a hypothesis for every child. -/
@[induction_eliminator]
lemma BoolTree.induction {motive : BoolTree L → Prop} (default : ∀ rule, motive (.default rule))
    (logical : ∀ mode rules invert, (∀ r ∈ rules, motive r) → motive (.logical mode rules invert)) : ∀ t, motive t :=
  BoolTree.rec default (logical) (fun _ h => by simp at h)
    fun r rs hr hrs r' h => by
      rcases List.mem_cons.1 h with rfl | h
      · exact hr
      · exact hrs r' h

/-! ### The meaning of a tree -/

mutual

/-- A tree holds, when `leaf` says which leaves do. -/
def BoolTree.Holds (leaf : L → Prop) : BoolTree L → Prop
  | .default rule => leaf rule
  | .logical .and rules invert => Inverted invert (AllHold leaf rules)
  | .logical .or rules invert => Inverted invert (AnyHolds leaf rules)

def AllHold (leaf : L → Prop) : List (BoolTree L) → Prop
  | [] => True
  | r :: rs => r.Holds leaf ∧ AllHold leaf rs

def AnyHolds (leaf : L → Prop) : List (BoolTree L) → Prop
  | [] => False
  | r :: rs => r.Holds leaf ∨ AnyHolds leaf rs

end

variable (leaf : L → Prop)

variable (rules : List (BoolTree L))

lemma allHold_iff : AllHold leaf rules ↔ ∀ r ∈ rules, r.Holds leaf := by
  induction rules with
  | nil => simp [AllHold]
  | cons r rs ih => simp [AllHold, ih]

lemma anyHolds_iff : AnyHolds leaf rules ↔ ∃ r ∈ rules, r.Holds leaf := by
  induction rules with
  | nil => simp [AnyHolds]
  | cons r rs ih => simp [AnyHolds, ih]

@[simp]
lemma BoolTree.holds_default (rule : L) : (BoolTree.default rule).Holds leaf ↔ leaf rule := by
  simp [BoolTree.Holds]

@[simp]
lemma BoolTree.holds_and (invert : Bool) :
    (BoolTree.logical .and rules invert).Holds leaf ↔ Inverted invert (∀ r ∈ rules, r.Holds leaf) := by
  rw [BoolTree.Holds, allHold_iff]

@[simp]
lemma BoolTree.holds_or (invert : Bool) :
    (BoolTree.logical .or rules invert).Holds leaf ↔ Inverted invert (∃ r ∈ rules, r.Holds leaf) := by
  rw [BoolTree.Holds, anyHolds_iff]

/-! ### Leaves -/

mutual

def BoolTree.Forall (P : L → Prop) : BoolTree L → Prop
  | .default rule => P rule
  | .logical _ rules _ => BoolTree.ForallList P rules

def BoolTree.ForallList (P : L → Prop) : List (BoolTree L) → Prop
  | [] => True
  | r :: rs => r.Forall P ∧ BoolTree.ForallList P rs

end

@[simp]
lemma BoolTree.forall_default (P : L → Prop) (rule : L) : (BoolTree.default rule).Forall P ↔ P rule := by
  simp [BoolTree.Forall]

@[simp]
lemma BoolTree.forall_logical (P : L → Prop) (mode : LogicalMode) (rules : List (BoolTree L)) (invert : Bool) :
    (BoolTree.logical mode rules invert).Forall P ↔ ∀ r ∈ rules, r.Forall P := by
  rw [BoolTree.Forall]
  induction rules with
  | nil => simp [BoolTree.ForallList]
  | cons r rs ih => simp [BoolTree.ForallList, ih]

lemma BoolTree.Forall.of_forall {P : L → Prop} (h : ∀ rule, P rule) (t : BoolTree L) : t.Forall P := by
  induction t with
  | default rule => exact h rule
  | logical mode rules invert ih => simpa using ih

lemma BoolTree.Forall.imp {P Q : L → Prop} (h : ∀ rule, P rule → Q rule) {t : BoolTree L} (ht : t.Forall P) :
    t.Forall Q := by
  induction t with
  | default rule =>
    rw [BoolTree.forall_default] at ht
    exact h rule ht
  | logical mode rules invert ih =>
    rw [BoolTree.forall_logical] at ht ⊢
    exact fun r hr => ih r hr (ht r hr)

mutual

def BoolTree.map (f : L → L') : BoolTree L → BoolTree L'
  | .default rule => .default (f rule)
  | .logical mode rules invert => .logical mode (BoolTree.mapList f rules) invert

def BoolTree.mapList (f : L → L') : List (BoolTree L) → List (BoolTree L')
  | [] => []
  | r :: rs => r.map f :: BoolTree.mapList f rs

end

lemma BoolTree.mapList_eq (f : L → L') (rules : List (BoolTree L)) :
    BoolTree.mapList f rules = rules.map (BoolTree.map f) := by
  induction rules with
  | nil => rw [BoolTree.mapList, List.map_nil]
  | cons r rs ih => rw [BoolTree.mapList, ih, List.map_cons]

lemma BoolTree.holds_map (f : L → L') (P : L' → Prop) (t : BoolTree L) :
    (t.map f).Holds P ↔ t.Holds fun rule => P (f rule) := by
  induction t with
  | default rule => simp [BoolTree.map]
  | logical mode rules invert ih =>
    rw [BoolTree.map, BoolTree.mapList_eq]
    cases mode with
    | and =>
      simp only [BoolTree.holds_and, List.forall_mem_map]
      exact Inverted.congr invert (forall₂_congr ih)
    | or =>
      simp only [BoolTree.holds_or, List.mem_map, exists_exists_and_eq_and]
      exact Inverted.congr invert (exists_congr fun r => and_congr_right (ih r))

lemma BoolTree.Holds.congr {P Q : L → Prop} {t : BoolTree L} (h : t.Forall fun rule => P rule ↔ Q rule) :
    t.Holds P ↔ t.Holds Q := by
  induction t with
  | default rule => exact h
  | logical mode rules invert ih =>
    rw [BoolTree.forall_logical] at h
    have hr : ∀ r ∈ rules, (r.Holds P ↔ r.Holds Q) := fun r hr => ih r hr (h r hr)
    cases mode with
    | and =>
      rw [BoolTree.holds_and, BoolTree.holds_and]
      exact Inverted.congr invert (forall₂_congr hr)
    | or =>
      rw [BoolTree.holds_or, BoolTree.holds_or]
      exact Inverted.congr invert (exists_congr fun r => and_congr_right (hr r))

/-! ### Leaves with two readings -/

mutual

/-- A tree holds with its leaves read in its favour (`up`) or against it; it is the other way round below an inverted
node. -/
def BoolTree.Bound (leaf : Bool → L → Prop) (up : Bool) : BoolTree L → Prop
  | .default rule => leaf up rule
  | .logical .and rules invert => Inverted invert (AllBound leaf (up ^^ invert) rules)
  | .logical .or rules invert => Inverted invert (AnyBound leaf (up ^^ invert) rules)

def AllBound (leaf : Bool → L → Prop) (up : Bool) : List (BoolTree L) → Prop
  | [] => True
  | r :: rs => r.Bound leaf up ∧ AllBound leaf up rs

def AnyBound (leaf : Bool → L → Prop) (up : Bool) : List (BoolTree L) → Prop
  | [] => False
  | r :: rs => r.Bound leaf up ∨ AnyBound leaf up rs

end

variable {V W : Bool → L → Prop} {P : L → Prop} {up : Bool} {t : BoolTree L}

lemma BoolTree.bound_and (invert : Bool) : (BoolTree.logical .and rules invert).Bound V up ↔
    Inverted invert (∀ r ∈ rules, r.Bound V (up ^^ invert)) := by
  rw [BoolTree.Bound]
  refine Inverted.congr invert ?_
  induction rules with
  | nil => simp [AllBound]
  | cons r rs ih => simp [AllBound, ih]

lemma BoolTree.bound_or (invert : Bool) : (BoolTree.logical .or rules invert).Bound V up ↔
    Inverted invert (∃ r ∈ rules, r.Bound V (up ^^ invert)) := by
  rw [BoolTree.Bound]
  refine Inverted.congr invert ?_
  induction rules with
  | nil => simp [AnyBound]
  | cons r rs ih => simp [AnyBound, ih]

/-- What holds against a tree with the readings `V` does with readings that are better for it. -/
lemma BoolTree.Bound.imp (h : t.Forall fun l => (V up l → W up l) ∧ (W (!up) l → V (!up) l)) :
    t.Bound V up → t.Bound W up := by
  induction t generalizing V W up with
  | default rule => exact ((BoolTree.forall_default _ _).1 h).1
  | logical mode rules invert ih =>
    rw [BoolTree.forall_logical] at h
    cases mode <;> cases invert <;>
      simp only [bound_and, bound_or, inverted_false, inverted_true, Bool.xor_false, Bool.xor_true, not_imp_not]
    · exact fun hall r hr => ih r hr (h r hr) (hall r hr)
    · refine fun hall r hr => ih r hr ((h r hr).imp fun l hl => ?_) (hall r hr)
      exact ⟨hl.2, by simpa using hl.1⟩
    · exact fun ⟨r, hr, hb⟩ => ⟨r, hr, ih r hr (h r hr) hb⟩
    · refine fun ⟨r, hr, hb⟩ => ⟨r, hr, ih r hr ((h r hr).imp fun l hl => ?_) hb⟩
      exact ⟨hl.2, by simpa using hl.1⟩

/-- Leaves whose readings agree. -/
lemma BoolTree.bound_const (P : L → Prop) (t : BoolTree L) (up : Bool) : t.Bound (fun _ => P) up ↔ t.Holds P := by
  induction t generalizing up with
  | default rule => rw [BoolTree.Bound, BoolTree.holds_default]
  | logical mode rules invert ih =>
    cases mode with
    | and =>
      rw [bound_and, BoolTree.holds_and]
      exact Inverted.congr invert (forall₂_congr fun r hr => ih r hr _)
    | or =>
      rw [bound_or, BoolTree.holds_or]
      exact Inverted.congr invert (exists_congr fun r => and_congr_right fun hr => ih r hr _)

/-- A meaning between the two readings. -/
def Between (V : Bool → Prop) (P : Prop) : Prop := (V false → P) ∧ (P → V true)

lemma Between.inverted {V : Bool → Prop} {P : Prop} (h : Between V P) (invert : Bool) :
    Between (fun up => Inverted invert (V (up ^^ invert))) (Inverted invert P) := by
  cases invert
  · simpa [Between] using h
  · simpa [Between, not_imp_not] using h.symm

/-- **The meaning of a tree is between its two readings** if that of every leaf is. -/
theorem BoolTree.bound_between (h : t.Forall fun l => Between (V · l) (P l)) : Between (t.Bound V ·) (t.Holds P) := by
  constructor
  · intro hb
    exact (t.bound_const P false).1 (hb.imp (h.imp fun l hl => hl))
  · intro hb
    exact ((t.bound_const P true).2 hb).imp (h.imp fun l hl => hl.symm)

end SingBox.Lib
