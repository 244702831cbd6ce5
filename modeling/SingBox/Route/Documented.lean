import SingBox.Route.Judge

/-!
# The documented meaning of rules

Matching a rule, with a fresh cache and with the address items not ignored, gives its documented meaning
(`match_iff_documented`).

With `rule_set_ip_cidr_match_source` the `ip_cidr` items of a rule set should look at the source, as
`source_ip_cidr` items do.  The flag is lost inside the logical rules of the set, which reset the whole cache before
each sub-rule; `matchSource_of_indifferent` says when this makes no difference.
-/

namespace SingBox.Route

open SingBox.Lib List

variable {ε α : Type}

/-! ### Rule sets without flags -/

/-- No rule-set item of the rule sets `rule_set_ip_cidr_match_source` or `rule_set_ip_cidr_accept_empty`. -/
def Rule.NoFlags (r : Rule ε α) : Prop :=
  r.Forall fun rule => ∀ item ∈ rule.ruleSetItem, item.ipCidrMatchSource = false ∧ item.ipCidrAcceptEmpty = false

/-- The documented meaning of a rule: no flag is in force anywhere. -/
def Rule.Documented (r : Rule ε α) (m : Metadata ε α) : Prop := r.Holds (fun _ => .fresh) m

lemma DefaultRule.holds_fresh {r : DefaultRule ε α} (m : Metadata ε α)
    (hr : ∀ item ∈ r.ruleSetItem, item.ipCidrMatchSource = false ∧ item.ipCidrAcceptEmpty = false) :
    r.Holds RuleSetItem.flags m ↔ r.Holds (fun _ => .fresh) m := by
  have hflags : ∀ item ∈ r.ruleSetItem, item.flags = .fresh := by
    intro item hitem
    obtain ⟨h1, h2⟩ := hr item hitem
    simp [RuleSetItem.flags, Cache.fresh, h1, h2]
  have hcond : r.Conditions RuleSetItem.flags m ↔ r.Conditions (fun _ => .fresh) m := by
    unfold DefaultRule.Conditions
    split
    · rfl
    next item hitem => rw [hflags item hitem]
  unfold DefaultRule.Holds
  rw [propext hcond]

lemma Rule.holds_fresh {r : Rule ε α} (m : Metadata ε α) (hr : r.NoFlags) :
    r.Holds RuleSetItem.flags m ↔ r.Documented m :=
  BoolTree.Holds.congr (hr.imp fun _ => DefaultRule.holds_fresh m)

/-- **Matching a rule gives its documented meaning**, whatever the rule and the metadata. -/
theorem match_iff_documented (r : Rule ε α) (m : Metadata ε α) (hm : m.ignoreDestinationIPCIDRMatch = false)
    (hr : r.NoFlags) : (r.match m .fresh).1 = true ↔ r.Documented m := by
  rw [← Rule.holds_fresh m hr]
  exact Rule.match_iff hm r

/-- Names are numbers and addresses are numbers: the query for the name 7 from address 1 to address 2. -/
def sampleMetadata : Metadata ℕ ℕ where
  env := 7
  source := 1
  destination := some 2
  destinationAddresses := []
  dnsResponse := none
  destinationAddressMatchFromResponse := false
  ignoreDestinationIPCIDRMatch := false

/-- Not both the name 8, or an address of the set, and the source address 1. -/
def sampleRule : Rule ℕ ℕ :=
  .logical .and
    [.default { destinationAddressItems := [(· == 8)], ruleSetItem := some { setList := [[.default (cidrRule 2)]] } },
      .default { sourceAddressItems := [.ipCIDR (· == 1)] }] true

theorem sampleRule_documented : (sampleRule.match sampleMetadata .fresh).1 = false ∧
    ((sampleRule.match sampleMetadata .fresh).1 = true ↔ sampleRule.Documented sampleMetadata) :=
  ⟨by decide, match_iff_documented _ _ rfl (by simp [Rule.NoFlags, sampleRule])⟩

/-! ### `rule_set_ip_cidr_match_source` -/

/-- The `source_ip_cidr` item of an `ip_cidr` item. -/
def DestinationIPCIDRItem.toSource : DestinationIPCIDRItem α → List (SourceAddressItem α)
  | .ipCIDR contains => [.ipCIDR contains]
  | _ => []

/-- The rule with every `ip_cidr` item turned into a `source_ip_cidr` item. -/
def HeadlessDefault.turn (r : HeadlessDefault ε α) : HeadlessDefault ε α where
  toDefault := { r.toDefault with
    sourceAddressItems := r.sourceAddressItems ++ r.destinationIPCIDRItems.flatMap (·.toSource)
    destinationIPCIDRItems := [] }
  only_ipCIDR := rfl

/-- The rule set with every `ip_cidr` item turned into a `source_ip_cidr` item, at every depth. -/
def turnRuleSet (ruleSet : RuleSet ε α) : RuleSet ε α := ruleSet.map (BoolTree.map HeadlessDefault.turn)

/-- The rule whose only condition is a rule set. -/
def ruleSetRule (ruleSet : RuleSet ε α) (matchSource acceptEmpty invert : Bool) : DefaultRule ε α where
  invert := invert
  ruleSetItem := some ⟨[ruleSet], matchSource, acceptEmpty⟩

variable {ruleSet : RuleSet ε α} {m : Metadata ε α} {c : Cache}

lemma Default.isEmpty_conditions {r : Default ε α} (h : r.isEmpty = true) (m : Metadata ε α) (c : Cache) :
    r.Conditions m c := by
  simp only [Default.isEmpty, Bool.and_eq_true, List.isEmpty_iff] at h
  obtain ⟨⟨⟨⟨⟨h1, h2⟩, h3⟩, h4⟩, h5⟩, h6⟩ := h
  refine ⟨by simp [Default.itemsMatch, h1], ?_⟩
  intro g
  cases g <;> simp [Default.group, Default.addresses, h2, h3, h4, h5, h6]

/-- To a rule without other conditions it makes no difference whether a set is merged with it. -/
lemma setHolds_empty (invert : Bool) :
    setHolds { invert := invert } m c ruleSet ↔ ∃ rule ∈ ruleSet, holdsInSet m c rule := by
  have hgroup : ({ invert := invert } : Default ε α).group m .fresh = fun _ => [] := by
    funext g
    cases g <;> rfl
  unfold setHolds
  rw [hgroup]
  split
  next branch hb =>
    obtain ⟨rfl, hinv⟩ : ruleSet = [.default branch] ∧ branch.invert = false := by
      unfold mergeableRuleIn at hb
      split at hb
      · split at hb
        · simp at hb
        next rule hinv =>
          simp only [Option.some.injEq] at hb
          subst hb
          exact ⟨rfl, by simpa using hinv⟩
      · simp at hb
    simp only [mem_singleton, exists_eq_left, holdsInSet, HeadlessDefault.Holds, hinv]
    split
    next hempty =>
      exact ⟨fun _ => trivial, fun _ => Default.isEmpty_conditions hempty m c⟩
    · rfl
  · simp [Verdicts.Met]

/-- With nothing deferred, the cache makes no difference to the rule whose only condition is a rule set. -/
lemma ruleSetRule_match_fresh {matchSource acceptEmpty invert : Bool} (hc : c.deferredIPCIDRMatchGroups = 0) :
    ((ruleSetRule ruleSet matchSource acceptEmpty invert).match m c).1 =
      ((ruleSetRule ruleSet matchSource acceptEmpty invert).match m .fresh).1 := by
  -- neither the groups of the outer rule nor the verdict of the set depends on the cache
  have hset (c : Cache) : (RuleSetItem.matchSet ⟨[ruleSet], matchSource, acceptEmpty⟩ m {} ruleSet c).1 =
      (RuleSetItem.matchSet ⟨[ruleSet], matchSource, acceptEmpty⟩ m {} ruleSet .fresh).1 := rfl
  have heval (c : Cache) : ({ invert := invert } : Default ε α).evaluateGroups m c = ({}, c) := by
    simp [Default.evaluateGroups, GroupMatch.judge, Default.destinationIPCIDRMatchesSource,
      Default.destinationIPCIDRMatchesDestination, Default.defers]
  simp only [DefaultRule.match, ruleSetRule, Default.match, Default.matchInner, heval, Option.map_some,
    RuleSetItem.matchWithOuterGroups, RuleSetItem.matchSets, Default.itemsMatch,
    Option.isNone_some, Bool.false_eq_true]
  rw [hset c]
  cases (RuleSetItem.matchSet ⟨[ruleSet], matchSource, acceptEmpty⟩ m {} ruleSet .fresh).1 with
  | none => cases invert <;> rfl
  | some verdict =>
    cases invert <;> by_cases hz : verdict.1 = 0#8 <;>
      simp [hz, hc, Cache.fresh, Cache.clearDeferred, Cache.addDeferred]

lemma ruleSetRule_match_iff {matchSource acceptEmpty invert : Bool} (hm : m.ignoreDestinationIPCIDRMatch = false)
    (hc : c.deferredIPCIDRMatchGroups = 0) : ((ruleSetRule ruleSet matchSource acceptEmpty invert).match m c).1 = true ↔
      Inverted invert (∃ rule ∈ ruleSet, holdsInSet m ⟨matchSource, acceptEmpty, 0⟩ rule) := by
  have hiff := Rule.match_iff hm (.default (ruleSetRule ruleSet matchSource acceptEmpty invert))
  rw [Rule.match, matchTree, Rule.Holds, BoolTree.holds_default] at hiff
  rw [ruleSetRule_match_fresh hc, hiff, ← setHolds_empty invert]
  simp [DefaultRule.Holds, DefaultRule.Conditions, ruleSetRule, Default.itemsMatch, RuleSetItem.flags]

lemma toSource_eq_nil {items : List (DestinationIPCIDRItem α)} (h : items.all (·.isIPCIDR) = true) :
    items.flatMap (·.toSource) = [] ↔ items = [] := by
  cases items with
  | nil => simp
  | cons item items => cases item <;> simp_all [DestinationIPCIDRItem.toSource, DestinationIPCIDRItem.isIPCIDR]

lemma toSource_match {items : List (DestinationIPCIDRItem α)} (h : items.all (·.isIPCIDR) = true)
    (m : Metadata ε α) (acceptEmpty : Bool) :
    (items.flatMap (·.toSource)).map (·.match m) = items.map (·.match m ⟨true, acceptEmpty, 0⟩) := by
  induction items with
  | nil => rfl
  | cons item items ih =>
    rw [all_cons, Bool.and_eq_true] at h
    rw [flatMap_cons, map_append, ih h.2]
    cases item with
    | ipCIDR contains => rfl
    | ipIsPrivate _ | ipAcceptAny => simp [DestinationIPCIDRItem.isIPCIDR] at h

variable (r : HeadlessDefault ε α)

lemma HeadlessDefault.turn_isEmpty : r.turn.isEmpty = r.isEmpty := by
  have h := toSource_eq_nil r.only_ipCIDR
  rw [Bool.eq_iff_iff]
  simp only [Default.isEmpty, HeadlessDefault.turn, Bool.and_eq_true, List.isEmpty_iff, List.append_eq_nil_iff]
  grind

/-- A turned rule, without the flag, has the groups of the rule with the flag. -/
lemma HeadlessDefault.turn_group (m : Metadata ε α) (acceptEmpty : Bool) :
    r.turn.group m ⟨false, acceptEmpty, 0⟩ = r.group m ⟨true, acceptEmpty, 0⟩ := by
  funext g
  cases g with
  | sourceAddress =>
    simpa [Default.group, HeadlessDefault.turn, Default.addresses] using toSource_match r.only_ipCIDR m acceptEmpty
  | sourcePort | destinationPort | destinationAddress => rfl

lemma HeadlessDefault.turn_holds (m : Metadata ε α) (acceptEmpty : Bool) :
    r.turn.Holds m ⟨false, acceptEmpty, 0⟩ ↔ r.Holds m ⟨true, acceptEmpty, 0⟩ := by
  have hcond : r.turn.Conditions m ⟨false, acceptEmpty, 0⟩ ↔ r.Conditions m ⟨true, acceptEmpty, 0⟩ := by
    unfold Default.Conditions
    rw [r.turn_group]
    rfl
  unfold HeadlessDefault.Holds
  rw [r.turn_isEmpty, propext hcond]
  rfl

/-! ### Where the flag is lost -/

variable (m)

/-- The two verdicts of a default rule below a logical one, with its `ip_cidr` items looking at the destination and at
the source: one of them (`up`), or both. -/
def HeadlessDefault.Either (up : Bool) : Prop :=
  if up then r.Holds m .fresh ∨ r.Holds m ⟨true, false, 0⟩ else r.Holds m .fresh ∧ r.Holds m ⟨true, false, 0⟩

/-- A rule of a set holds, with the default rules below logical ones whose two verdicts differ read in its favour
(`up`) or against it. -/
def eitherInSet (c : Cache) (up : Bool) : BoolTree (HeadlessDefault ε α) → Prop
  | .default rule => rule.Holds m c
  | .logical mode rules invert => (BoolTree.logical mode rules invert).Bound (fun up rule => rule.Either m up) up

/-- If the set holds with the default rules whose two verdicts differ in its favour, it does with them against it. -/
def Indifferent (ruleSet : RuleSet ε α) (acceptEmpty : Bool) : Prop :=
  (∃ rule ∈ ruleSet, eitherInSet m ⟨true, acceptEmpty, 0⟩ true rule) →
    ∃ rule ∈ ruleSet, eitherInSet m ⟨true, acceptEmpty, 0⟩ false rule

variable {m}

lemma holdsInSet_between (t : BoolTree (HeadlessDefault ε α)) : Between (eitherInSet m c · t) (holdsInSet m c t) := by
  cases t with
  | default rule => exact ⟨id, id⟩
  | logical mode rules invert =>
    exact BoolTree.bound_between (.of_forall (fun rule => ⟨And.left, .inl⟩) _)

lemma turn_between (t : BoolTree (HeadlessDefault ε α)) (acceptEmpty : Bool) :
    Between (eitherInSet m ⟨true, acceptEmpty, 0⟩ · t) (holdsInSet m ⟨false, acceptEmpty, 0⟩ (t.map .turn)) := by
  cases t with
  | default rule =>
    rw [BoolTree.map, holdsInSet, rule.turn_holds]
    exact ⟨id, id⟩
  | logical mode rules invert =>
    have hmap := BoolTree.holds_map HeadlessDefault.turn (fun rule => rule.Holds m .fresh)
      (.logical mode rules invert)
    have hturn (rule : HeadlessDefault ε α) : rule.turn.Holds m .fresh ↔ rule.Holds m ⟨true, false, 0⟩ :=
      rule.turn_holds m false
    rw [BoolTree.map] at hmap ⊢
    rw [holdsInSet, hmap]
    exact BoolTree.bound_between
      (.of_forall (fun rule => ⟨fun h => (hturn rule).2 h.2, fun h => .inr ((hturn rule).1 h)⟩) _)

/-- **`rule_set_ip_cidr_match_source` gives what turning the `ip_cidr` items into `source_ip_cidr` items gives**, if it
makes no difference to the set how the default rules below its logical rules come out that have different verdicts for
the two addresses. -/
theorem matchSource_of_indifferent (ruleSet : RuleSet ε α) (acceptEmpty invert : Bool) (m : Metadata ε α)
    (hm : m.ignoreDestinationIPCIDRMatch = false) (c : Cache) (hc : c.deferredIPCIDRMatchGroups = 0)
    (h : Indifferent m ruleSet acceptEmpty) : ((ruleSetRule ruleSet true acceptEmpty invert).match m c).1 =
      ((ruleSetRule (turnRuleSet ruleSet) false acceptEmpty invert).match m c).1 := by
  rw [Bool.eq_iff_iff, ruleSetRule_match_iff hm hc, ruleSetRule_match_iff hm hc]
  refine Inverted.congr invert ?_
  simp only [turnRuleSet, mem_map, exists_exists_and_eq_and]
  -- both are between the reading against the set and the one in its favour, which agree
  constructor
  · rintro ⟨rule, hr, hh⟩
    obtain ⟨rule, hr, hh⟩ := h ⟨rule, hr, (holdsInSet_between rule).2 hh⟩
    exact ⟨rule, hr, (turn_between rule acceptEmpty).1 hh⟩
  · rintro ⟨rule, hr, hh⟩
    obtain ⟨rule, hr, hh⟩ := h ⟨rule, hr, (turn_between rule acceptEmpty).2 hh⟩
    exact ⟨rule, hr, (holdsInSet_between rule).1 hh⟩

/-- The source address 1 is in the set and the destination address 2 is not: a match by the set would need one of
them, and the logical rule looks at the wrong one. -/
theorem matchSource_lost : sampleMetadata.ignoreDestinationIPCIDRMatch = false ∧
    ((ruleSetRule [.logical .and [.default (cidrRule 1)] false] true false false).match sampleMetadata .fresh).1 =
      false ∧ ((ruleSetRule (turnRuleSet [.logical .and [.default (cidrRule 1)] false]) false false false).match
      sampleMetadata .fresh).1 = true := by decide

/-- The address 1, or the name 7. -/
def sampleSet : RuleSet ℕ ℕ :=
  [.logical .or [.default (cidrRule 1), .default ⟨{ destinationAddressItems := [(· == 7)] }, rfl⟩] false]

/-- The two verdicts of the address item differ, and the name matches. -/
theorem matchSource_kept : ((ruleSetRule sampleSet true false true).match sampleMetadata .fresh).1 =
    ((ruleSetRule (turnRuleSet sampleSet) false false true).match sampleMetadata .fresh).1 := by
  refine matchSource_of_indifferent sampleSet false true sampleMetadata rfl .fresh rfl fun _ => ?_
  refine ⟨_, List.mem_cons_self, ?_⟩
  rw [eitherInSet, BoolTree.bound_or, inverted_false]
  refine ⟨_, List.mem_cons_of_mem _ List.mem_cons_self, ?_⟩
  rw [BoolTree.Bound]
  have hmet (c : Cache) : Verdicts.Met (Default.group { destinationAddressItems := [(· == 7)] } sampleMetadata c) := by
    intro g
    cases g <;> cases c.ipCIDRMatchSource <;> simp [Default.group, Default.addresses, sampleMetadata]
  exact ⟨⟨rfl, hmet _⟩, rfl, hmet _⟩

end SingBox.Route
