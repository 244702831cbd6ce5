import SingBox.Route.Groups

/-!
# What rule matching means

The stateless meaning of rules, and its relation to the matching with a cache.

A match may be made before the response of a DNS query is known (`ignoreDestinationIPCIDRMatch`); it then leaves
groups deferred.  Such a verdict has three values (`Told`): no match, a match, and a match that is left open.  Where the
address items are not ignored nothing is ever deferred.
-/

namespace SingBox.Route

open SingBox.Lib List

variable {ε α : Type}

def Cache.fresh : Cache := ⟨false, false, 0⟩

@[simp]
lemma Cache.resetRuleCache_eq (c : Cache) : c.resetRuleCache = .fresh := rfl

/-! ### The meaning of rules -/

/-- The conditions of a default rule without rule sets: its other items match, and its groups are met. -/
def Default.Conditions (r : Default ε α) (m : Metadata ε α) (c : Cache) : Prop :=
  r.itemsMatch m = true ∧ (r.group m c).Met

/-- A headless default rule holds; `invert` negates a rule that has an item. -/
def HeadlessDefault.Holds (r : HeadlessDefault ε α) (m : Metadata ε α) (c : Cache) : Prop :=
  if r.isEmpty then True else Inverted r.invert (r.Conditions m c)

/-- A rule of a rule set holds.  The flags of the rule-set item reach a default rule of the set, and no rule inside
a logical one. -/
def holdsInSet (m : Metadata ε α) (c : Cache) : BoolTree (HeadlessDefault ε α) → Prop
  | .default rule => rule.Holds m c
  | .logical mode rules invert =>
    (BoolTree.logical mode rules invert).Holds fun rule => rule.Holds m .fresh

/-- What an outer rule asks of a rule set: merged with its one rule if there is just one and it is not inverted, and
of the outer rule and the set separately otherwise. -/
def setHolds (r : Default ε α) (m : Metadata ε α) (c : Cache) (ruleSet : RuleSet ε α) : Prop :=
  match mergeableRuleIn ruleSet with
  | some branch => branch.itemsMatch m = true ∧ ((r.group m .fresh).merge (branch.group m c)).Met
  | none => (r.group m .fresh).Met ∧ ∃ rule ∈ ruleSet, holdsInSet m c rule

/-- The conditions of a default rule; `flags` says with which flags its rule sets are matched. -/
def DefaultRule.Conditions (flags : RuleSetItem ε α → Cache) (r : DefaultRule ε α) (m : Metadata ε α) : Prop :=
  match r.ruleSetItem with
  | none => r.toDefault.Conditions m .fresh
  | some item => r.itemsMatch m = true ∧ ∃ ruleSet ∈ item.setList, setHolds r.toDefault m (flags item) ruleSet

def DefaultRule.Holds (flags : RuleSetItem ε α → Cache) (r : DefaultRule ε α) (m : Metadata ε α) : Prop :=
  if r.isEmpty && r.ruleSetItem.isNone then True else Inverted r.invert (r.Conditions flags m)

def Rule.Holds (flags : RuleSetItem ε α → Cache) (r : Rule ε α) (m : Metadata ε α) : Prop :=
  BoolTree.Holds (fun rule => rule.Holds flags m) r

/-- The flags a rule-set item sets. -/
def RuleSetItem.flags (item : RuleSetItem ε α) : Cache := ⟨item.ipCidrMatchSource, item.ipCidrAcceptEmpty, 0⟩

/-! ### Deferred groups -/

/-- Only the destination address group is ever deferred. -/
def Deferral (d : BitVec 8) : Prop := d = 0 ∨ d = Group.destinationAddress.bit

lemma Deferral.zero : Deferral 0 := .inl rfl

lemma Deferral.or {d d' : BitVec 8} (h : Deferral d) (h' : Deferral d') : Deferral (d ||| d') := by
  rcases h with rfl | rfl <;> rcases h' with rfl | rfl <;> unfold Deferral <;> decide

lemma Deferral.andNot {d : BitVec 8} (h : Deferral d) (l : Verdicts) :
    d &&& ~~~(GroupMatch.of l).satisfied = if (l .destinationAddress).any id then 0 else d := by
  have key : ∀ a b c e : Bool, Group.destinationAddress.bit &&& ~~~bits a b c e =
      if c then 0 else Group.destinationAddress.bit := by decide
  rcases h with rfl | rfl
  · simp
  · exact key ..

def Cache.setDeferred (c : Cache) (d : BitVec 8) : Cache := { c with deferredIPCIDRMatchGroups := d }

@[simp]
lemma Cache.setDeferred_deferred (c : Cache) (d : BitVec 8) : (c.setDeferred d).deferredIPCIDRMatchGroups = d := rfl

/-! ### Verdicts -/

/-- What a match says: it matches if `V true`, and with nothing deferred if `V false`. -/
structure Told (V : Bool → Prop) (o : Bool × BitVec 8) : Prop where
  matched : o.1 = true ↔ V true
  settled : o.1 = true ∧ o.2 = 0 ↔ V false
  deferral : Deferral o.2

def verdict (o : Bool × Cache) : Bool × BitVec 8 := (o.1, o.2.deferredIPCIDRMatchGroups)

/-- What a match that began with the cache `c` says; it changes the deferred groups only. -/
structure Judged (c : Cache) (o : Bool × Cache) (V : Bool → Prop) : Prop where
  told : Told V (verdict o)
  cache : o.2 = c.setDeferred o.2.deferredIPCIDRMatchGroups

/-- `m'` is `m` with the address items no longer ignored: the same metadata if they were not, and otherwise with an
answer of which the other items know nothing. -/
structure Answered (m m' : Metadata ε α) : Prop where
  env : m'.env = m.env
  source : m'.source = m.source
  settled : m'.ignoreDestinationIPCIDRMatch = false
  same : m.ignoreDestinationIPCIDRMatch = false → m' = m

lemma Answered.refl {m : Metadata ε α} (h : m.ignoreDestinationIPCIDRMatch = false) : Answered m m :=
  ⟨rfl, rfl, h, fun _ => rfl⟩

variable {m m' : Metadata ε α}

lemma Answered.itemsMatch (h : Answered m m') (r : Default ε α) : r.itemsMatch m' = r.itemsMatch m := by
  simp [Default.itemsMatch, h.env]

/-- `l` is what is seen of the groups `l'` while the address items are ignored; `opened` says that some are
deferred. -/
structure PartOf (l l' : Verdicts) (opened : Prop) : Prop where
  same : ∀ g, g ≠ .destinationAddress → l' g = l g
  sub : ∀ b ∈ l .destinationAddress, b ∈ l' .destinationAddress
  complete : l .destinationAddress = [] → l' .destinationAddress = [] ∨ opened

lemma PartOf.merge {l₁ l₁' l₂ l₂' : Verdicts} {opened₁ opened₂ : Prop} (h₁ : PartOf l₁ l₁' opened₁)
    (h₂ : PartOf l₂ l₂' opened₂) : PartOf (l₁.merge l₂) (l₁'.merge l₂') (opened₁ ∨ opened₂) := by
  refine ⟨?_, ?_, ?_⟩
  · intro g hg
    simp only [Verdicts.merge, h₁.same g hg, h₂.same g hg]
  · intro b hb
    simp only [Verdicts.merge, mem_append] at hb ⊢
    exact hb.imp (h₁.sub b) (h₂.sub b)
  · intro hnil
    simp only [Verdicts.merge, append_eq_nil_iff] at hnil ⊢
    rcases h₁.complete hnil.1 with h | h
    · rcases h₂.complete hnil.2 with h' | h'
      · exact .inl ⟨h, h'⟩
      · exact .inr (.inr h')
    · exact .inr (.inl h)

/-- Groups that are met stay so, unless the address items are the whole of a group. -/
lemma PartOf.met {l l' : Verdicts} {opened : Prop} (h : PartOf l l' opened) (hl : l.Met)
    (hclosed : opened → true ∈ l .destinationAddress) : l'.Met := by
  intro g hne
  by_cases hg : g = .destinationAddress
  · subst hg
    by_cases hnil : l .destinationAddress = []
    · rcases h.complete hnil with h' | h'
      · exact absurd h' hne
      · exact h.sub _ (hclosed h')
    · exact h.sub _ (hl _ hnil)
  · rw [h.same g hg] at hne ⊢
    exact hl g hne

/-- The address items are ignored, there are other destination address items, and none of them matches. -/
def Missed (m : Metadata ε α) (names : List (ε → Bool)) : Prop :=
  m.ignoreDestinationIPCIDRMatch = true ∧ names ≠ [] ∧ ∀ name ∈ names, name m.env = false

/-- Groups that are met are so with the address items decided, unless these were the whole of a group; and the other
way round, unless the address items make up for the names. -/
lemma PartOf.met_iff {l l' : Verdicts} {opened : Prop} (h : PartOf l l' opened) {m : Metadata ε α}
    (names : List (ε → Bool)) (hnames : m.ignoreDestinationIPCIDRMatch = true →
      l .destinationAddress = names.map (· m.env)) (hsame : m.ignoreDestinationIPCIDRMatch = false → l' = l) :
    (l.Met → (opened → true ∈ l .destinationAddress) → l'.Met ∧ ¬Missed m names) ∧
      (l'.Met ∧ ¬Missed m names → l.Met) := by
  constructor
  · refine fun hl hclosed => ⟨h.met hl hclosed, ?_⟩
    rintro ⟨hi, hne, hno⟩
    have htrue := hl .destinationAddress (by simp [hnames hi, hne])
    rw [hnames hi, mem_map] at htrue
    obtain ⟨name, hname, heq⟩ := htrue
    simp [hno name hname] at heq
  · rintro ⟨hl', hnot⟩ g hne
    cases hi : m.ignoreDestinationIPCIDRMatch with
    | false =>
      rw [hsame hi] at hl'
      exact hl' g hne
    | true =>
      by_cases hg : g = .destinationAddress
      · subst hg
        by_contra hno
        rw [hnames hi] at hne hno
        refine hnot ⟨hi, by simpa using hne, fun name hname => ?_⟩
        by_contra htrue
        exact hno (mem_map.2 ⟨name, hname, by simpa using htrue⟩)
      · rw [← h.same g hg] at hne ⊢
        exact hl' g hne

/-- An address item that looks at the source sees the same in every answer. -/
lemma DestinationIPCIDRItem.match_source (h : Answered m m') {c : Cache}
    (hc : c.ipCIDRMatchSource = true) {item : DestinationIPCIDRItem α} (hi : item.isIPCIDR = true) :
    item.match m' c = item.match m c := by
  cases item with
  | ipCIDR contains => simp [DestinationIPCIDRItem.match, hc, h.source]
  | ipIsPrivate _ | ipAcceptAny => simp [DestinationIPCIDRItem.isIPCIDR] at hi

lemma Default.seen_partOf (h : Answered m m') {c : Cache} {r : Default ε α}
    (hr : c.ipCIDRMatchSource = true → r.destinationIPCIDRItems.all (·.isIPCIDR) = true) :
    PartOf (r.seen m c) (r.group m' c) (r.defers m c = true) := by
  have hsame : ∀ g, g ≠ .destinationAddress → r.group m' c g = r.seen m c g := by
    intro g hg
    have hsrc : r.sourceAddressItems.map (·.match m') = r.sourceAddressItems.map (·.match m) := by
      refine map_congr_left fun item _ => ?_
      cases item <;> simp [SourceAddressItem.match, h.source]
    cases g with
    | sourceAddress =>
      simp only [Default.group, Default.seen, hsrc]
      split
      next hc =>
        refine congrArg _ (map_congr_left fun item hi => ?_)
        exact item.match_source h hc (all_eq_true.1 (hr hc) item hi)
      · rfl
    | sourcePort | destinationPort => simp [Default.group, Default.seen, h.env]
    | destinationAddress => exact absurd rfl hg
  by_cases hi : m.ignoreDestinationIPCIDRMatch = true
  · refine ⟨hsame, ?_, ?_⟩
    · intro b hb
      simp only [Default.seen, if_pos hi] at hb
      simp only [Default.group, h.env, mem_append]
      exact .inl hb
    · intro hnil
      simp only [Default.seen, if_pos hi, map_eq_nil_iff] at hnil
      by_cases hopen : c.ipCIDRMatchSource = false ∧ r.destinationIPCIDRItems ≠ []
      · simp [Default.defers, hi, hopen.1, hopen.2, hnil]
      · by_cases hc : c.ipCIDRMatchSource = true
        · simp [Default.group, hc, hnil]
        · have : r.destinationIPCIDRItems = [] := by
            by_contra hne
            exact hopen ⟨by simpa using hc, hne⟩
          simp [Default.group, Default.addresses, this, hnil]
  · have hm := h.same (by simpa using hi)
    subst hm
    rw [r.seen_eq_group (by simpa using hi)]
    exact ⟨fun _ _ => rfl, fun _ hb => hb, .inl⟩

end SingBox.Route
