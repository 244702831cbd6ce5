import SingBox.Route.Match

/-!
# The groups of a default rule

What `evaluateGroups` computes, without its bits: for each group the verdicts of the items in it
(`Default.evaluateGroups_eq`).  The groups are done when every group that has an item has one that matches
(`GroupMatch.done_of`), and merging two rules appends their groups (`GroupMatch.mergeWith_of`).
-/

namespace SingBox.Route

open SingBox.Lib List

variable {ε α : Type}

/-! ### Sets of groups as bits -/

/-- The bits of four flags, one for each group. -/
def bits (sa sp da dp : Bool) : BitVec 8 :=
  (if sa then 1 else 0) ||| (if sp then 2 else 0) ||| (if da then 4 else 0) ||| (if dp then 8 else 0)

/-- The bits of a set of groups. -/
def mask (p : Group → Bool) : BitVec 8 :=
  bits (p .sourceAddress) (p .sourcePort) (p .destinationAddress) (p .destinationPort)

lemma bits_or (a b c d a' b' c' d' : Bool) :
    bits a b c d ||| bits a' b' c' d' = bits (a || a') (b || b') (c || c') (d || d') := by
  revert a b c d a' b' c' d'
  decide

lemma bits_andNot_eq_zero (a b c d a' b' c' d' : Bool) :
    (bits a b c d &&& ~~~bits a' b' c' d' == 0) = ((!a || a') && (!b || b') && (!c || c') && (!d || d')) := by
  revert a b c d a' b' c' d'
  decide

lemma mask_or (p q : Group → Bool) : mask p ||| mask q = mask fun g => p g || q g := bits_or ..

lemma mask_andNot_eq_zero (p q : Group → Bool) : (mask p &&& ~~~mask q == 0) = true ↔ ∀ g, p g = true → q g = true := by
  have himp (a b : Bool) : (!a || b) = true ↔ (a = true → b = true) := by cases a <;> simp
  unfold mask
  rw [bits_andNot_eq_zero]
  simp only [Bool.and_eq_true, himp]
  constructor
  · rintro ⟨⟨⟨h1, h2⟩, h3⟩, h4⟩ g
    cases g
    · exact h1
    · exact h2
    · exact h3
    · exact h4
  · intro h
    exact ⟨⟨⟨h _, h _⟩, h _⟩, h _⟩

lemma mask_single (g : Group) : mask (fun g' => g' == g) = g.bit := by cases g <;> decide

lemma mask_and_bit (p : Group → Bool) (g : Group) : (mask p &&& g.bit != 0) = p g := by
  have key : ∀ a b c d : Bool, (bits a b c d &&& Group.sourceAddress.bit != 0) = a ∧
      (bits a b c d &&& Group.sourcePort.bit != 0) = b ∧
      (bits a b c d &&& Group.destinationAddress.bit != 0) = c ∧
      (bits a b c d &&& Group.destinationPort.bit != 0) = d := by decide
  obtain ⟨h1, h2, h3, h4⟩ :=
    key (p .sourceAddress) (p .sourcePort) (p .destinationAddress) (p .destinationPort)
  cases g
  · exact h1
  · exact h2
  · exact h3
  · exact h4

/-! ### Groups as lists of verdicts -/

abbrev Verdicts := Group → List Bool

/-- Every group that has an item has one that matches. -/
def Verdicts.Met (l : Verdicts) : Prop := ∀ g, l g ≠ [] → true ∈ l g

/-- The groups of two rules together. -/
def Verdicts.merge (l l' : Verdicts) : Verdicts := fun g => l g ++ l' g

def Verdicts.add (l : Verdicts) (g : Group) (bs : List Bool) : Verdicts :=
  fun g' => if g' = g then l g' ++ bs else l g'

/-- The `ruleGroupMatch` of some verdicts. -/
def GroupMatch.of (l : Verdicts) : GroupMatch where
  required := mask fun g => !(l g).isEmpty
  satisfied := mask fun g => (l g).any id

variable (l : Verdicts)

lemma GroupMatch.done_of : (GroupMatch.of l).done = true ↔ l.Met := by
  unfold GroupMatch.done GroupMatch.of
  rw [mask_andNot_eq_zero]
  simp [Verdicts.Met]

lemma GroupMatch.mergeWith_of (l l' : Verdicts) :
    (GroupMatch.of l).mergeWith (GroupMatch.of l') = GroupMatch.of (l.merge l') := by
  simp only [GroupMatch.mergeWith, GroupMatch.of, mask_or, Verdicts.merge, GroupMatch.mk.injEq]
  constructor
  · congr 1
    funext g
    cases l g <;> simp
  · simp

lemma GroupMatch.has_of (g : Group) : (GroupMatch.of l).has g = (l g).any id := by
  rw [GroupMatch.has, GroupMatch.of, mask_and_bit]

lemma GroupMatch.of_empty : GroupMatch.of (fun _ => []) = {} := by
  congr

attribute [local simp] Verdicts.add

/-- Requiring a group is adding items to it: at least one, and one that matches exactly if it is hit. -/
lemma GroupMatch.require_of (g : Group) (hit : Bool) {bs : List Bool} (hbs : bs ≠ [])
    (hhit : (true ∈ l g ∨ hit = true) ↔ (true ∈ l g ∨ true ∈ bs)) :
    (GroupMatch.of l).require g hit = GroupMatch.of (l.add g bs) := by
  simp only [GroupMatch.require, GroupMatch.of, GroupMatch.mk.injEq, ← mask_single g, mask_or]
  constructor
  · congr 1
    funext g'
    by_cases h : g' = g
    · simp [h, hbs]
    · simp [h]
  · have hsat : (if hit then mask (fun g' => (l g').any id || g' == g) else mask fun g' => (l g').any id) =
        mask fun g' => (l g').any id || (hit && g' == g) := by
      cases hit <;> simp
    rw [hsat]
    congr 1
    funext g'
    by_cases h : g' = g
    · subst h
      rw [Bool.eq_iff_iff]
      simpa using hhit
    · simp [h]

lemma GroupMatch.judge_of {β : Type} (g : Group) (items : List β) (hit : β → Bool) :
    (GroupMatch.of l).judge g items hit = GroupMatch.of (l.add g (items.map hit)) := by
  unfold GroupMatch.judge
  cases items with
  | nil =>
    have : l.add g [] = l := by
      funext g'
      simp
    simp [this]
  | cons item items =>
    refine GroupMatch.require_of l g _ (by simp) ?_
    simp

/-! ### The groups of a rule -/

/-- The verdicts of the `ip_cidr` items and their like. -/
def Default.addresses (r : Default ε α) (m : Metadata ε α) (c : Cache) : List Bool :=
  r.destinationIPCIDRItems.map (·.match m c)

/-- The groups of a rule: its address items look at the source if the cache tells them to. -/
def Default.group (r : Default ε α) (m : Metadata ε α) (c : Cache) : Verdicts
  | .sourceAddress =>
    r.sourceAddressItems.map (·.match m) ++ if c.ipCIDRMatchSource then r.addresses m c else []
  | .sourcePort => r.sourcePortItems.map (· m.env)
  | .destinationAddress =>
    r.destinationAddressItems.map (· m.env) ++ if c.ipCIDRMatchSource then [] else r.addresses m c
  | .destinationPort => r.destinationPortItems.map (· m.env)

/-- The groups of a rule as far as they are looked at. -/
def Default.seen (r : Default ε α) (m : Metadata ε α) (c : Cache) : Verdicts
  | .destinationAddress =>
    if m.ignoreDestinationIPCIDRMatch then r.destinationAddressItems.map (· m.env)
    else r.group m c .destinationAddress
  | g => r.group m c g

lemma Default.seen_eq_group (r : Default ε α) {m : Metadata ε α} (h : m.ignoreDestinationIPCIDRMatch = false)
    (c : Cache) : r.seen m c = r.group m c := by
  funext g
  cases g <;> simp [Default.seen, h]

lemma GroupMatch.require_addresses (g : Group) {bs : List Bool} (hbs : bs ≠ []) :
    (GroupMatch.of l).require g (!(GroupMatch.of l).has g && bs.any id) = GroupMatch.of (l.add g bs) := by
  refine GroupMatch.require_of l g _ hbs ?_
  rw [GroupMatch.has_of]
  by_cases h : true ∈ l g <;> simp [h]

theorem Default.evaluateGroups_eq (r : Default ε α) (m : Metadata ε α) (c : Cache) : r.evaluateGroups m c =
      (GroupMatch.of (r.seen m c),
        if r.defers m c then c.addDeferred Group.destinationAddress.bit else c) := by
  have hany : r.destinationIPCIDRItems.any (·.match m c) = (r.addresses m c).any id := by
    simp [Default.addresses]
  -- an address step adds the address items, or nothing
  have haddr (l : Verdicts) (g : Group) (b : Bool) :
      (if b && !r.destinationIPCIDRItems.isEmpty then
        (GroupMatch.of l).require g (!(GroupMatch.of l).has g && (r.addresses m c).any id)
      else GroupMatch.of l) = GroupMatch.of (l.add g (if b then r.addresses m c else [])) := by
    by_cases hb : (b && !r.destinationIPCIDRItems.isEmpty) = true
    · rw [if_pos hb]
      simp only [Bool.and_eq_true, Bool.not_eq_true', isEmpty_eq_false_iff] at hb
      rw [hb.1]
      exact GroupMatch.require_addresses l g (by simp [Default.addresses, hb.2])
    · have hnil : (if b then r.addresses m c else []) = [] := by
        simp only [Bool.and_eq_true, Bool.not_eq_true', isEmpty_eq_false_iff, not_and, not_not] at hb
        split
        next hb' => simp [Default.addresses, hb hb']
        · rfl
      have hadd : l.add g [] = l := by
        funext g'
        simp
      rw [if_neg hb, hnil, hadd]
  unfold Default.evaluateGroups Default.destinationIPCIDRMatchesSource Default.destinationIPCIDRMatchesDestination
  simp only [hany, ← GroupMatch.of_empty, GroupMatch.judge_of, haddr]
  refine Prod.ext ?_ rfl
  refine congrArg GroupMatch.of ?_
  funext g
  cases g
  case destinationAddress =>
    by_cases h : m.ignoreDestinationIPCIDRMatch = true <;> by_cases h' : c.ipCIDRMatchSource = true <;>
      simp [Default.seen, Default.group, h, h']
  all_goals simp [Default.seen, Default.group]

end SingBox.Route
