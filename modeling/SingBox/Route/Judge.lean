import SingBox.Route.Meaning

/-!
# Verdicts of matches

What every match says, layer by layer: default rules, logical rules, rule sets, and rules.

While the address items are ignored, two slips make a match say something else than the meaning.  Destination address
items that all miss settle the group although an address item may still match (`Missed`).  And a rule that has one that
matches clears what a rule set left deferred, although the set must match on its own (`Default.Free`).  `Rule.Kept` is
the meaning with both: it is between what a match says and what it leaves open.
-/

namespace SingBox.Route

open SingBox.Lib List

variable {ε α : Type} {m m' : Metadata ε α} {c : Cache} {d : BitVec 8}

/-! ### Logical rules -/

variable {V : Bool → Prop} {o : Bool × BitVec 8}

lemma Told.of_no (h : Told V o) (ho : o.1 = false) (up : Bool) : ¬V up := by
  cases up
  · simp [← h.settled, ho]
  · simp [← h.matched, ho]

lemma Told.of_yes (h : Told V o) (ho : o.1 = true) :
    V true ∧ (V false ↔ o.2 = 0) := by simp [← h.settled, ← h.matched, ho]

section Alternatives

variable {R : Type} {V : R → Bool → Prop} {rules : List R} {matched : Bool}

/-- The loop over alternatives; the invariant `I` of the cache says what a rule needs to find. -/
lemma matchAnyLoop_told {matchRule : R → Cache → Bool × Cache} {I : Cache → Prop}
    (hrule : ∀ r ∈ rules, ∀ c, I c → Told (V r) (verdict (matchRule r c)) ∧ I (matchRule r c).2) (hI : I c)
    (hd : Deferral d) (hm : matched = true → d ≠ 0) :
    Told (fun up => up = true ∧ matched = true ∨ ∃ r ∈ rules, V r up) (matchAnyLoop matchRule rules c matched d) := by
  induction rules generalizing c matched d with
  | nil => exact ⟨by simp [matchAnyLoop], by simpa [matchAnyLoop] using hm, hd⟩
  | cons r rs ih =>
    obtain ⟨ht, hI'⟩ := hrule r (by simp) c hI
    have hrest := fun r hr => hrule r (mem_cons_of_mem _ hr)
    rw [matchAnyLoop]
    cases ho : (matchRule r c).1 with
    | false => simpa [ho, ht.of_no ho] using ih hrest hI' hd hm
    | true =>
      obtain ⟨hyes, hzero⟩ := ht.of_yes ho
      by_cases hz : (matchRule r c).2.deferredIPCIDRMatchGroups = 0
      · simp only [ho, hz]
        exact ⟨by simp [hyes], by simp [hzero.2 hz], .zero⟩
      · have h := ih hrest hI' (hd.or ht.deferral)
          fun (_ : true = true) hor => hz (BitVec.or_eq_zero_iff.1 hor).2
        have hno : ¬V r false := fun hV => hz (hzero.1 hV)
        simp only [ho, beq_eq_false_iff_ne.2 hz]
        exact ⟨h.matched.trans (by simp [hyes]), h.settled.trans (by simp [hno]), h.deferral⟩

end Alternatives

section Logical

variable {L : Type} {leaf : L → Cache → Bool × Cache} {V : Bool → L → Prop} {rules : List (BoolTree L)}

lemma matchOr_eq (rules : List (BoolTree L)) (c : Cache) (matched : Bool) (d : BitVec 8) :
    matchOr leaf rules c matched d =
      matchAnyLoop (fun rule c => matchTree leaf rule c.resetRuleCache) rules c matched d := by
  induction rules generalizing c matched d with
  | nil => rw [matchOr, matchAnyLoop]
  | cons r rs ih =>
    rw [matchOr, matchAnyLoop]
    simp only [ih]

lemma matchAnd_told (hrule : ∀ r ∈ rules, Told (r.Bound V ·) (verdict (matchTree leaf r .fresh))) (hd : Deferral d) :
    Told (fun up => (up = true ∨ d = 0) ∧ ∀ r ∈ rules, r.Bound V up) (matchAnd leaf rules c d) := by
  induction rules generalizing c d with
  | nil => exact ⟨by simp [matchAnd], by simp [matchAnd], hd⟩
  | cons r rs ih =>
    have ht := hrule r (by simp)
    rw [matchAnd, Cache.resetRuleCache_eq]
    cases ho : (matchTree leaf r .fresh).1 with
    | false =>
      simp only [ho]
      exact ⟨by simp [ht.of_no ho], by simp [ht.of_no ho], .zero⟩
    | true =>
      obtain ⟨hyes, hzero⟩ := ht.of_yes ho
      have h := ih (c := (matchTree leaf r .fresh).2) (fun r' hr' => hrule r' (by simp [hr'])) (hd.or ht.deferral)
      simp only [ho]
      exact ⟨h.matched.trans (by simp [hyes]), h.settled.trans (by simp [hzero, and_assoc]), h.deferral⟩

/-- What a node says, from what its loop says about the conjunction or the disjunction `Q` of its children. -/
lemma node_judged {o : Bool × BitVec 8} {Q : Bool → Prop} (invert : Bool) (hc : c.deferredIPCIDRMatchGroups = 0)
    (h : Told Q o) : Judged c (if invert then !o.1 || o.2 != 0 else o.1, if o.1 then c.addDeferred o.2 else c)
      (fun up => Inverted invert (Q (up ^^ invert))) := by
  cases ho : o.1 with
  | false =>
    have hno := h.of_no ho
    refine ⟨⟨?_, ?_, .inl hc⟩, rfl⟩
    · cases invert <;> simp [verdict, hno]
    · cases invert <;> simp [verdict, hno, hc]
  | true =>
    obtain ⟨hyes, hzero⟩ := h.of_yes ho
    have hadd : c.addDeferred o.2 = c.setDeferred o.2 := by simp [Cache.addDeferred, Cache.setDeferred, hc]
    simp only [if_true, hadd]
    refine ⟨⟨?_, ?_, h.deferral⟩, rfl⟩
    · cases invert <;> simp [verdict, hyes, hzero]
    · cases invert <;> simp [verdict, hyes, hzero]

lemma matchTree_logical_judged {mode : LogicalMode} {invert : Bool} (hc : c.deferredIPCIDRMatchGroups = 0)
    (hrule : ∀ r ∈ rules, Told (r.Bound V ·) (verdict (matchTree leaf r .fresh))) :
    Judged c (matchTree leaf (.logical mode rules invert) c)
      (fun up => (BoolTree.logical mode rules invert).Bound V up) := by
  cases mode with
  | and =>
    simp only [BoolTree.bound_and]
    have h := matchAnd_told (c := c) hrule .zero
    exact node_judged invert hc (by simpa using h)
  | or =>
    simp only [BoolTree.bound_or]
    rw [matchTree, matchOr_eq]
    have h := matchAnyLoop_told (V := fun r up => r.Bound V up) (I := fun _ => True) (c := c)
      (fun r hr c _ => ⟨hrule r hr, trivial⟩) trivial .zero (by simp : false = true → (0 : BitVec 8) ≠ 0)
    exact node_judged invert hc (by simpa using h)

/-- **Trees of rules**, from what their leaves say after a reset. -/
theorem matchTree_told {t : BoolTree L} (hleaf : t.Forall fun l => Told (V · l) (verdict (leaf l .fresh))) :
    Told (t.Bound V ·) (verdict (matchTree leaf t .fresh)) := by
  induction t with
  | default rule => simpa only [BoolTree.Bound, matchTree, BoolTree.forall_default] using hleaf
  | logical mode rules invert ih =>
    rw [BoolTree.forall_logical] at hleaf
    exact (matchTree_logical_judged rfl fun r hr => ih r hr (hleaf r hr)).told

end Logical

/-! ### Default rules -/

/-- The conditions of a rule before the response is there: items left open count as matching if `up`. -/
def Default.Reads (r : Default ε α) (m : Metadata ε α) (c : Cache) (up : Bool) : Prop :=
  r.itemsMatch m = true ∧ (r.seen m c).Met ∧ (up = true ∨ r.defers m c = false)

/-- The conditions of a rule, but for address items that make up for names. -/
def Default.Kept (r : Default ε α) (m m' : Metadata ε α) (c : Cache) : Prop :=
  r.Conditions m' c ∧ ¬Missed m r.destinationAddressItems

variable {r : Default ε α}

lemma Default.seen_destinationAddress (hi : m.ignoreDestinationIPCIDRMatch = true) :
    r.seen m c .destinationAddress = r.destinationAddressItems.map (· m.env) := by simp [Default.seen, hi]

lemma Answered.group_eq (h : Answered m m') (hi : m.ignoreDestinationIPCIDRMatch = false) (r : Default ε α)
    (c : Cache) : r.group m' c = r.seen m c := by rw [h.same hi, r.seen_eq_group hi]

lemma Default.reads_between (h : Answered m m')
    (hr : c.ipCIDRMatchSource = true → r.destinationIPCIDRItems.all (·.isIPCIDR) = true) :
    Between (r.Reads m c) (r.Kept m m' c) := by
  obtain ⟨hmet, hseen⟩ := (Default.seen_partOf h hr).met_iff _ Default.seen_destinationAddress
    fun hi => h.group_eq hi r c
  constructor
  · rintro ⟨hitems, hl, hopen⟩
    obtain ⟨hl', hnot⟩ := hmet hl fun ho => by simp [ho] at hopen
    exact ⟨⟨(h.itemsMatch r).trans hitems, hl'⟩, hnot⟩
  · rintro ⟨⟨hitems, hl'⟩, hnot⟩
    exact ⟨(h.itemsMatch r).symm.trans hitems, hseen ⟨hl', hnot⟩, .inl rfl⟩

def Default.opened (r : Default ε α) (m : Metadata ε α) (c : Cache) : BitVec 8 :=
  if r.defers m c then Group.destinationAddress.bit else 0

lemma Default.opened_eq_zero : r.opened m c = 0 ↔ r.defers m c = false := by
  unfold Default.opened
  cases r.defers m c
  · simp
  · exact iff_of_false (by decide) (by simp)

lemma Default.opened_deferral (r : Default ε α) (m : Metadata ε α) (c : Cache) : Deferral (r.opened m c) := by
  unfold Default.opened Deferral
  split <;> simp

lemma Default.evaluateGroups_opened (r : Default ε α) (hc : c.deferredIPCIDRMatchGroups = 0) :
    r.evaluateGroups m c = (GroupMatch.of (r.seen m c), c.setDeferred (r.opened m c)) := by
  rw [r.evaluateGroups_eq]
  refine Prod.ext rfl ?_
  cases c
  cases hd : r.defers m _ <;> simp_all [Cache.addDeferred, Cache.setDeferred, Default.opened]

lemma Cache.setDeferred_clearDeferred (c : Cache) (hd : Deferral d) (l : Verdicts) :
    (c.setDeferred d).clearDeferred (GroupMatch.of l).satisfied =
      c.setDeferred (if (l .destinationAddress).any id then 0 else d) := by
  rw [← hd.andNot l]
  rfl

lemma opened_andNot (r : Default ε α) (l : Verdicts) : r.opened m c &&& ~~~(GroupMatch.of l).satisfied = 0 ↔
      (r.defers m c = true → true ∈ l .destinationAddress) := by
  rw [(r.opened_deferral m c).andNot]
  by_cases hl : true ∈ l .destinationAddress
  · simp [hl]
  · simpa [hl] using Default.opened_eq_zero

/-- A rule defers only where it has no names. -/
lemma Default.seen_of_defers (hd : r.defers m c = true) : r.seen m c .destinationAddress = [] := by
  simp only [Default.defers, Bool.and_eq_true, List.isEmpty_iff] at hd
  simp [Default.seen, hd]

/-- **The conditions of a default rule without rule sets.** -/
theorem Default.matchInner_judged (hc : c.deferredIPCIDRMatchGroups = 0) :
    Judged c (r.matchInner none m c) (r.Reads m c) := by
  have hopen := r.opened_deferral m c
  unfold Default.matchInner Default.Reads
  rw [r.evaluateGroups_opened hc]
  by_cases hitems : r.itemsMatch m = true
  · by_cases hmet : (r.seen m c).Met
    · have hclear : (if (r.seen m c .destinationAddress).any id then 0 else r.opened m c) = r.opened m c := by
        cases hd : r.defers m c with
        | false => simp [Default.opened_eq_zero.2 hd]
        | true => simp [Default.seen_of_defers hd]
      simp only [hitems, (GroupMatch.done_of _).2 hmet, if_true, c.setDeferred_clearDeferred hopen, hclear]
      refine ⟨⟨by simp [verdict, hmet], ?_, hopen⟩, rfl⟩
      simpa [verdict, hmet] using Default.opened_eq_zero
    · have hdone : (GroupMatch.of (r.seen m c)).done = false := by
        rw [Bool.eq_false_iff, ne_eq, GroupMatch.done_of]
        exact hmet
      simp only [hitems, hdone, if_true]
      exact ⟨⟨by simp [verdict, hmet], by simp [verdict, hmet], hopen⟩, rfl⟩
  · simp only [hitems]
    exact ⟨⟨by simp [verdict], by simp [verdict], hopen⟩, rfl⟩

/-- `Match` from `matchInner`: a rule without items always matches, and `invert` negates the others. -/
lemma Default.match_judged {ruleSet : Option (Cache → GroupMatch → Bool × Cache)}
    (hc : c.deferredIPCIDRMatchGroups = 0) (h : Judged c (r.matchInner ruleSet m c) V) : Judged c (r.match ruleSet m c)
      (fun up => if r.isEmpty && ruleSet.isNone then True else Inverted r.invert (V (up ^^ r.invert))) := by
  unfold Default.match
  by_cases hempty : (r.isEmpty && ruleSet.isNone) = true
  · simp only [hempty, if_true]
    exact ⟨⟨by simp [verdict], by simp [verdict, hc], .inl hc⟩, rfl⟩
  · simp only [hempty]
    cases hinv : r.invert with
    | false => simpa using h
    | true =>
      cases hm : (r.matchInner ruleSet m c).1 with
      | false =>
        have hno := h.told.of_no hm
        simp only [if_true]
        refine ⟨⟨by simp [verdict, hno], by simp [verdict, hno], .zero⟩, ?_⟩
        rw [h.cache]
        rfl
      | true =>
        obtain ⟨hyes, hzero⟩ := h.told.of_yes hm
        simp only [if_true]
        exact ⟨⟨by simp [verdict, hzero], by simp [verdict, hyes], h.told.deferral⟩, h.cache⟩

/-! ### Rule sets -/

def HeadlessDefault.Reads (r : HeadlessDefault ε α) (m : Metadata ε α) (c : Cache) (up : Bool) : Prop :=
  if r.isEmpty then True else Inverted r.invert (r.toDefault.Reads m c (up ^^ r.invert))

def HeadlessDefault.Kept (r : HeadlessDefault ε α) (m m' : Metadata ε α) (c : Cache) : Prop :=
  if r.isEmpty then True else Inverted r.invert (r.toDefault.Kept m m' c)

/-- A rule of a set before the response is there: rules left open are read in its favour if `up`. -/
def readsInSet (m : Metadata ε α) (c : Cache) (up : Bool) : BoolTree (HeadlessDefault ε α) → Prop
  | .default rule => rule.Reads m c up
  | .logical mode rules invert => (BoolTree.logical mode rules invert).Bound (fun up rule => rule.Reads m .fresh up) up

def keptInSet (m m' : Metadata ε α) (c : Cache) : BoolTree (HeadlessDefault ε α) → Prop
  | .default rule => rule.Kept m m' c
  | .logical mode rules invert => (BoolTree.logical mode rules invert).Holds fun rule => rule.Kept m m' .fresh

lemma HeadlessDefault.match_judged {r : HeadlessDefault ε α} (hc : c.deferredIPCIDRMatchGroups = 0) :
    Judged c (r.match m c) (r.Reads m c) := by
  have hj := Default.match_judged hc (Default.matchInner_judged (r := r.toDefault) (m := m) hc)
  simp only [Option.isNone_none, Bool.and_true] at hj
  exact hj

lemma HeadlessDefault.reads_between (h : Answered m m') (r : HeadlessDefault ε α) :
    Between (r.Reads m c) (r.Kept m m' c) := by
  unfold HeadlessDefault.Reads HeadlessDefault.Kept
  split
  · exact ⟨id, id⟩
  · exact (Default.reads_between h fun _ => r.only_ipCIDR).inverted r.invert

lemma readsInSet_between (h : Answered m m') (t : BoolTree (HeadlessDefault ε α)) :
    Between (readsInSet m c · t) (keptInSet m m' c t) := by
  cases t with
  | default rule => exact rule.reads_between h
  | logical mode rules invert => exact BoolTree.bound_between (.of_forall (fun rule => rule.reads_between h) _)

/-- Where the address items are not ignored nothing is left open. -/
lemma readsInSet_iff (hi : m.ignoreDestinationIPCIDRMatch = false) (up : Bool) (t : BoolTree (HeadlessDefault ε α)) :
    readsInSet m c up t ↔ holdsInSet m c t := by
  have hrule (c : Cache) (up : Bool) (rule : HeadlessDefault ε α) : rule.Reads m c up ↔ rule.Holds m c := by
    simp [HeadlessDefault.Reads, HeadlessDefault.Holds, Default.Reads, Default.Conditions, Default.defers, hi,
      rule.seen_eq_group hi]
  cases t with
  | default rule => exact hrule c up rule
  | logical mode rules invert =>
    simp only [readsInSet, holdsInSet, hrule]
    exact BoolTree.bound_const _ _ up

lemma matchTree_inSet_judged {t : BoolTree (HeadlessDefault ε α)} (hc : c.deferredIPCIDRMatchGroups = 0) :
    Judged c (matchTree (HeadlessDefault.match · m) t c) (readsInSet m c · t) := by
  cases t with
  | default rule => exact HeadlessDefault.match_judged hc
  | logical mode rules invert =>
    exact matchTree_logical_judged hc fun r _ =>
      matchTree_told (.of_forall (fun rule => (HeadlessDefault.match_judged rfl).told) r)

lemma matchAnyHeadlessRule_judged (ruleSet : RuleSet ε α) (hc : c.deferredIPCIDRMatchGroups = 0) :
    Judged c (matchAnyHeadlessRule ruleSet m c) (fun up => ∃ t ∈ ruleSet, readsInSet m c up t) := by
  have hself : c.resetRuleMatchCache = c := by simp [Cache.resetRuleMatchCache, ← hc]
  -- the cache each rule starts from is `c`
  have hrule : ∀ t ∈ ruleSet, ∀ c' : Cache, c'.resetRuleMatchCache = c →
      Told (fun up => readsInSet m c up t) (verdict (matchTree (HeadlessDefault.match · m) t c'.resetRuleMatchCache)) ∧
      (matchTree (HeadlessDefault.match · m) t c'.resetRuleMatchCache).2.resetRuleMatchCache = c := by
    intro t _ c' hc'
    have hj := matchTree_inSet_judged (m := m) (t := t) hc
    rw [hc']
    refine ⟨hj.told, ?_⟩
    rw [hj.cache]
    exact hself
  have h := matchAnyLoop_told (V := fun t up => readsInSet m c up t) (I := fun c' => c'.resetRuleMatchCache = c)
    hrule hself .zero (by simp : false = true → (0 : BitVec 8) ≠ 0)
  have hj := node_judged false hc h
  simp only [inverted_false, Bool.xor_false, Bool.false_eq_true, and_false, false_or] at hj
  exact hj

/-! ### Rules with rule sets -/

/-- A destination address item matches, so that whatever the rule sets leave deferred is cleared; or nothing can be
deferred. -/
def Default.Free (r : Default ε α) (m : Metadata ε α) : Prop :=
  m.ignoreDestinationIPCIDRMatch = true → ∃ name ∈ r.destinationAddressItems, name m.env = true

/-- What an outer rule finds in a rule set, with both slips: a set that is matched on its own only has to be possible
if what it leaves deferred is cleared. -/
def setKept (r : Default ε α) (m m' : Metadata ε α) (c : Cache) (ruleSet : RuleSet ε α) : Prop :=
  match mergeableRuleIn ruleSet with
  | some branch => setHolds r m' c ruleSet ∧ ¬Missed m (r.destinationAddressItems ++ branch.destinationAddressItems)
  | none => ((r.group m' .fresh).Met ∧ ¬Missed m r.destinationAddressItems) ∧
    ∃ rule ∈ ruleSet, (r.Free m → readsInSet m c true rule) ∧ (¬r.Free m → keptInSet m m' c rule)

/-- What a rule set says to an outer rule that left `opened` deferred. -/
structure SetJudged (m : Metadata ε α) (free : Prop) (opened : BitVec 8) (o : Option (BitVec 8 × BitVec 8))
    (P : Prop) : Prop where
  no : o = none → ¬P
  yes : ∀ d satisfied, o = some (d, satisfied) → d = 0 ∨ free → opened &&& ~~~satisfied = 0 → P
  kept : m.ignoreDestinationIPCIDRMatch = false → ∀ d satisfied, o = some (d, satisfied) → d = 0
  deferral : ∀ d satisfied, o = some (d, satisfied) → Deferral d ∧ Deferral (opened &&& ~~~satisfied)

namespace SetJudged

variable {free P : Prop} {opened satisfied : BitVec 8}

lemma none (h : ¬P) : SetJudged m free opened none P := ⟨fun _ => h, by simp, by simp, by simp⟩

lemma some (hyes : d = 0 ∨ free → opened &&& ~~~satisfied = 0 → P)
    (hkept : m.ignoreDestinationIPCIDRMatch = false → d = 0) (hd : Deferral d)
    (ho : Deferral (opened &&& ~~~satisfied)) : SetJudged m free opened (some (d, satisfied)) P := by
  refine ⟨by simp, ?_, ?_, ?_⟩
  · rintro _ _ ⟨⟩
    exact hyes
  · rintro hi _ _ ⟨⟩
    exact hkept hi
  · rintro _ _ ⟨⟩
    exact ⟨hd, ho⟩

end SetJudged

/-- What the set `ruleSet` says to the rule `r`. -/
def RuleSetItem.Judges (item : RuleSetItem ε α) (r : Default ε α) (m m' : Metadata ε α) (ruleSet : RuleSet ε α)
    (c : Cache) : Prop :=
  SetJudged m (r.Free m) (r.opened m .fresh)
    (item.matchSet m (GroupMatch.of (r.seen m .fresh)) ruleSet c).1 (setKept r m m' item.flags ruleSet)

lemma Deferral.ite (h : Deferral d) (p : Prop) [Decidable p] : Deferral (if p then 0 else d) := by
  split
  · exact .zero
  · exact h

lemma andNot_zero (d : BitVec 8) : d &&& ~~~(0 : BitVec 8) = d := BitVec.and_allOnes

lemma Default.Free.seen (h : r.Free m) (hi : m.ignoreDestinationIPCIDRMatch = true) :
    true ∈ r.seen m c .destinationAddress := by
  obtain ⟨name, hname, htrue⟩ := h hi
  rw [Default.seen_destinationAddress hi]
  exact mem_map.2 ⟨name, hname, htrue⟩

lemma Default.defers_eq_false (hi : m.ignoreDestinationIPCIDRMatch = false) : r.defers m c = false := by
  simp [Default.defers, hi]

variable {item : RuleSetItem ε α} {ruleSet : RuleSet ε α}

lemma matchSet_merged_judged (h : Answered m m') {branch : HeadlessDefault ε α}
    (hb : mergeableRuleIn ruleSet = some branch) (c : Cache) : item.Judges r m m' ruleSet c := by
  have hprep : item.prepareNestedMatch c = item.flags := rfl
  obtain ⟨hmet, hseen⟩ := ((Default.seen_partOf (c := .fresh) (r := r) h (by simp [Cache.fresh])).merge
    (Default.seen_partOf (c := item.flags) h fun _ => branch.only_ipCIDR)).met_iff (m := m)
    (r.destinationAddressItems ++ branch.destinationAddressItems)
    (fun hi => by simp [Verdicts.merge, Default.seen_destinationAddress hi])
    (fun hi => by rw [h.group_eq hi, h.group_eq hi])
  have hmerge := GroupMatch.mergeWith_of (r.seen m .fresh) (branch.seen m item.flags)
  have hkept : setKept r m m' item.flags ruleSet ↔ branch.itemsMatch m' = true ∧
      ((r.group m' .fresh).merge (branch.group m' item.flags)).Met ∧
        ¬Missed m (r.destinationAddressItems ++ branch.destinationAddressItems) := by
    simp only [setKept, setHolds, hb, and_assoc]
  simp only [RuleSetItem.Judges, RuleSetItem.matchSet, hb, hprep, Default.evaluateForMerge,
    branch.evaluateGroups_opened (c := item.flags) rfl, h.itemsMatch] at hkept ⊢
  by_cases hitems : branch.itemsMatch m = true
  · simp only [hitems, if_true, hmerge, Cache.setDeferred_deferred, true_and] at hkept ⊢
    by_cases hdone : (GroupMatch.of ((r.seen m .fresh).merge (branch.seen m item.flags))).done = true
    · simp only [hdone]
      refine .some ?_ ?_ ?_ ?_
      · intro hz hz'
        refine hkept.2 (hmet ((GroupMatch.done_of _).1 hdone) ?_)
        rintro (ho | ho)
        · exact (opened_andNot r _).1 hz' ho
        · rcases hz with hz | hfree
          · exact (opened_andNot branch.toDefault _).1 hz ho
          · cases hi : m.ignoreDestinationIPCIDRMatch with
            | false => simp [Default.defers_eq_false hi] at ho
            | true => exact mem_append_left _ (hfree.seen hi)
      · intro hi
        simp [Default.opened_eq_zero.2 (Default.defers_eq_false hi)]
      · rw [(branch.opened_deferral m _).andNot]
        exact (branch.opened_deferral m _).ite _
      · rw [(r.opened_deferral m _).andNot]
        exact (r.opened_deferral m _).ite _
    · simp only [hdone]
      exact .none fun hP => hdone ((GroupMatch.done_of _).2 (hseen (hkept.1 hP)))
  · simp only [hitems, Bool.false_eq_true, false_and] at hkept ⊢
    exact .none hkept.1

lemma matchSet_separate_judged (h : Answered m m') (hb : mergeableRuleIn ruleSet = none) (c : Cache) :
    item.Judges r m m' ruleSet c := by
  have hprep : item.prepareNestedMatch c = item.flags := rfl
  obtain ⟨hmet, hseen⟩ := (Default.seen_partOf (c := .fresh) (r := r) h (by simp [Cache.fresh])).met_iff
    _ Default.seen_destinationAddress fun hi => h.group_eq hi r .fresh
  have ht := (matchAnyHeadlessRule_judged (m := m) (c := item.flags) ruleSet rfl).told
  simp only [RuleSetItem.Judges, RuleSetItem.matchSet, hb, hprep, setKept]
  by_cases hdone : (GroupMatch.of (r.seen m .fresh)).done = true
  · simp only [hdone]
    cases ho : (matchAnyHeadlessRule ruleSet m item.flags).1 with
    | false =>
      refine .none ?_
      rintro ⟨-, rule, hrule, hfree, hkept⟩
      refine ht.of_no ho true ⟨rule, hrule, ?_⟩
      by_cases hf : r.Free m
      · exact hfree hf
      · exact (readsInSet_between h rule).2 (hkept hf)
    | true =>
      obtain ⟨⟨rule, hrule, hreads⟩, hzero⟩ := ht.of_yes ho
      refine .some ?_ ?_ ht.deferral ?_
      · intro hz hz'
        rw [andNot_zero, Default.opened_eq_zero] at hz'
        refine ⟨hmet ((GroupMatch.done_of _).1 hdone) fun ho => by simp [hz'] at ho, ?_⟩
        rcases hz with hz | hf
        · obtain ⟨rule, hrule, hreads⟩ := hzero.2 hz
          refine ⟨rule, hrule, fun _ => ?_, fun _ => (readsInSet_between h rule).1 hreads⟩
          exact (readsInSet_between h rule).2 ((readsInSet_between h rule).1 hreads)
        · exact ⟨rule, hrule, fun _ => hreads, fun hnot => absurd hf hnot⟩
      · intro hi
        refine hzero.1 ⟨rule, hrule, ?_⟩
        rw [readsInSet_iff hi] at hreads ⊢
        exact hreads
      · rw [andNot_zero]
        exact r.opened_deferral m .fresh
  · simp only [hdone]
    exact .none fun hP => hdone ((GroupMatch.done_of _).2 (hseen hP.1))

lemma matchSet_judged (h : Answered m m') (r : Default ε α) (item : RuleSetItem ε α) (ruleSet : RuleSet ε α)
    (c : Cache) : item.Judges r m m' ruleSet c := by
  cases hb : mergeableRuleIn ruleSet with
  | some branch => exact matchSet_merged_judged h hb c
  | none => exact matchSet_separate_judged h hb c

/-- What the loop over rule sets says; `matched` is whether one matched before. -/
structure SetsJudged (m : Metadata ε α) (free : Prop) (matched : Bool) (o : Bool × BitVec 8) (P : Prop) : Prop where
  no : o.1 = false → matched = false ∧ ¬P
  yes : o.1 = true → o.2 = 0 ∨ free → free ∧ matched = true ∨ P
  kept : m.ignoreDestinationIPCIDRMatch = false → matched = false → o.1 = true → o.2 = 0
  deferral : Deferral o.2

/-- The loop over the rule sets; `opened` is what the outer rule left deferred. -/
lemma matchSets_judged (h : Answered m m') (r : Default ε α) (item : RuleSetItem ε α)
    (setList : List (RuleSet ε α)) {snapshot : Cache} {matched : Bool}
    (hs : snapshot = Cache.fresh.setDeferred (r.opened m .fresh)) (hd : Deferral d) (hm : matched = true → d ≠ 0) :
    let o := item.matchSets m (GroupMatch.of (r.seen m .fresh)) snapshot setList c matched d
    SetsJudged m (r.Free m) matched (verdict o) (∃ ruleSet ∈ setList, setKept r m m' item.flags ruleSet) ∧
      o.2 = Cache.fresh.setDeferred o.2.deferredIPCIDRMatchGroups := by
  have hopen := r.opened_deferral m .fresh
  have hzero (hi : m.ignoreDestinationIPCIDRMatch = false) : r.opened m .fresh = 0 :=
    Default.opened_eq_zero.2 (Default.defers_eq_false hi)
  -- a rule that is free has left nothing deferred itself
  have hfree (hf : r.Free m) : r.opened m .fresh = 0 := by
    rw [Default.opened_eq_zero]
    cases hi : m.ignoreDestinationIPCIDRMatch with
    | false => exact Default.defers_eq_false hi
    | true =>
      by_contra hdef
      have := hf.seen (c := .fresh) hi
      rw [Default.seen_of_defers (by simpa using hdef)] at this
      simp at this
  induction setList generalizing c matched d with
  | nil =>
    rw [RuleSetItem.matchSets]
    subst hs
    cases matched with
    | false => exact ⟨⟨by simp, by simp [verdict], by simp [verdict], hopen⟩, rfl⟩
    | true =>
      refine ⟨⟨by simp [verdict], ?_, by simp, hopen.or hd⟩, rfl⟩
      rintro _ (hz | hf)
      · exact absurd (BitVec.or_eq_zero_iff.1 hz).2 (hm rfl)
      · exact .inl ⟨hf, rfl⟩
  | cons ruleSet setList ih =>
    have hj := matchSet_judged h r item ruleSet c
    rw [RuleSetItem.matchSets]
    cases ho : (item.matchSet m (GroupMatch.of (r.seen m .fresh)) ruleSet c).1 with
    | none =>
      simp only [ho]
      obtain ⟨hrest, hcache⟩ := ih (c := (item.matchSet m (GroupMatch.of (r.seen m .fresh)) ruleSet c).2) hd hm
      have hno := hj.no ho
      refine ⟨⟨?_, ?_, hrest.kept, hrest.deferral⟩, hcache⟩
      · simpa [hno] using hrest.no
      · simpa [hno] using hrest.yes
    | some verdict =>
      obtain ⟨setDeferred, satisfied⟩ := verdict
      obtain ⟨hd', hopen'⟩ := hj.deferral _ _ ho
      simp only [ho]
      by_cases hz : setDeferred = 0
      · rw [if_pos (by simpa using hz), hs]
        refine ⟨⟨by simp [verdict], ?_, ?_, hopen'⟩, rfl⟩
        · rintro _ hz'
          refine .inr ⟨ruleSet, by simp, hj.yes _ _ ho (.inl hz) (hz'.elim id fun hf => ?_)⟩
          simp [hfree hf]
        · intro hi
          simp [verdict, Cache.clearDeferred, hzero hi]
      · rw [if_neg (by simpa using hz)]
        obtain ⟨hrest, hcache⟩ := ih (c := (item.matchSet m (GroupMatch.of (r.seen m .fresh)) ruleSet c).2)
          (hd.or hd') fun (_ : true = true) hor => hz (BitVec.or_eq_zero_iff.1 hor).2
        refine ⟨⟨?_, ?_, ?_, hrest.deferral⟩, hcache⟩
        · intro hfalse
          simpa using (hrest.no hfalse).1
        · intro htrue hz'
          rcases hrest.yes htrue hz' with ⟨hf, -⟩ | ⟨s, hs, hP⟩
          · exact .inr ⟨ruleSet, by simp, hj.yes _ _ ho (.inr hf) (by simp [hfree hf])⟩
          · exact .inr ⟨s, by simp [hs], hP⟩
        · intro hi
          exact absurd (hj.kept hi _ _ ho) hz

/-- The conditions of a default rule, with both slips. -/
def DefaultRule.KeptConditions (r : DefaultRule ε α) (m m' : Metadata ε α) : Prop :=
  match r.ruleSetItem with
  | none => r.toDefault.Kept m m' .fresh
  | some item => r.itemsMatch m' = true ∧ ∃ ruleSet ∈ item.setList, setKept r.toDefault m m' item.flags ruleSet

def DefaultRule.Kept (r : DefaultRule ε α) (m m' : Metadata ε α) : Prop :=
  if r.isEmpty && r.ruleSetItem.isNone then True else Inverted r.invert (r.KeptConditions m m')

/-- **The meaning of a rule as a match has it while the address items are ignored.** -/
def Rule.Kept (r : Rule ε α) (m m' : Metadata ε α) : Prop := BoolTree.Holds (fun rule => rule.Kept m m') r

/-- What a match says is on both sides of `P`, and it leaves nothing open unless the address items are ignored. -/
structure Fits (m : Metadata ε α) (V : Bool → Prop) (P : Prop) : Prop where
  between : Between V P
  closed : m.ignoreDestinationIPCIDRMatch = false → V true → V false

lemma Fits.inverted {P : Prop} (h : Fits m V P) (invert : Bool) :
    Fits m (fun up => Inverted invert (V (up ^^ invert))) (Inverted invert P) := by
  refine ⟨h.between.inverted invert, fun hi => ?_⟩
  cases invert
  · simpa using h.closed hi
  · simpa [not_imp_not] using h.closed hi

lemma Told.self (h : Deferral o.2) : Told (fun up => o.1 = true ∧ (up = true ∨ o.2 = 0)) o :=
  ⟨by simp, by simp, h⟩

variable {r : DefaultRule ε α}

lemma DefaultRule.matchInner_judged (h : Answered m m') (hitem : r.ruleSetItem = some item) :
    ∃ V, Judged .fresh (r.toDefault.matchInner (some fun c => item.matchWithOuterGroups m c) m .fresh) V ∧
      Fits m V (r.KeptConditions m m') := by
  have hcond : r.KeptConditions m m' ↔ r.itemsMatch m = true ∧
      ∃ ruleSet ∈ item.setList, setKept r.toDefault m m' item.flags ruleSet := by
    rw [DefaultRule.KeptConditions, hitem, h.itemsMatch]
  obtain ⟨⟨hno, hyes, hkept, hd⟩, ho⟩ := matchSets_judged (c := Cache.fresh.setDeferred (r.opened m .fresh)) h
    r.toDefault item item.setList rfl .zero (by simp : false = true → (0 : BitVec 8) ≠ 0)
  unfold Default.matchInner
  rw [r.evaluateGroups_opened rfl]
  by_cases hitems : r.itemsMatch m = true
  · simp only [hitems, if_true, true_and] at hcond ⊢
    set o := item.matchSets m (GroupMatch.of (r.seen m .fresh)) (Cache.fresh.setDeferred (r.opened m .fresh))
      item.setList (Cache.fresh.setDeferred (r.opened m .fresh)) false 0
    change ∃ V, Judged _ (o.1, if o.1 then o.2.clearDeferred _ else o.2) V ∧ _
    cases hmatched : o.1 with
    | false =>
      have hP : ¬r.KeptConditions m m' := fun hP => (hno hmatched).2 (hcond.1 hP)
      exact ⟨_, ⟨.self hd, ho⟩, ⟨by simp [verdict], fun h => absurd h hP⟩, by simp [verdict]⟩
    | true =>
      rw [ho, if_pos rfl, Cache.setDeferred_clearDeferred _ (d := o.2.deferredIPCIDRMatchGroups) hd]
      refine ⟨_, ⟨.self (hd.ite _), rfl⟩, ⟨?_, fun _ => by simp [verdict]⟩, fun hi _ => ?_⟩
      · rintro ⟨-, hz⟩
        refine hcond.2 ((hyes hmatched ?_).resolve_left (by simp))
        by_cases hseen : true ∈ r.seen m .fresh .destinationAddress
        · refine .inr fun hi => ?_
          simpa [Default.seen_destinationAddress hi] using hseen
        · left
          simpa [verdict, hseen] using hz
      · have hz : o.2.deferredIPCIDRMatchGroups = 0 := hkept hi rfl hmatched
        simp [verdict, hz]
  · simp only [hitems, Bool.false_eq_true, false_and, iff_false] at hcond ⊢
    refine ⟨_, ⟨.self (r.opened_deferral m .fresh), rfl⟩, ⟨by simp [verdict], fun h => absurd h hcond⟩, ?_⟩
    simp [verdict]

theorem DefaultRule.match_judged (h : Answered m m') (r : DefaultRule ε α) :
    ∃ V, Told V (verdict (r.match m .fresh)) ∧ Fits m V (r.Kept m m') := by
  unfold DefaultRule.match DefaultRule.Kept
  obtain ⟨V, hj, hfits⟩ : ∃ V, Judged .fresh (r.toDefault.matchInner
      (r.ruleSetItem.map fun item => item.matchWithOuterGroups m) m .fresh) V ∧ Fits m V (r.KeptConditions m m') := by
    cases hitem : r.ruleSetItem with
    | none =>
      refine ⟨_, Default.matchInner_judged rfl, ?_, fun hi => ?_⟩
      · rw [DefaultRule.KeptConditions, hitem]
        exact Default.reads_between h (by simp [Cache.fresh])
      · rintro ⟨hitems, hmet, -⟩
        exact ⟨hitems, hmet, .inr (Default.defers_eq_false hi)⟩
    | some item => exact DefaultRule.matchInner_judged h hitem
  refine ⟨_, (Default.match_judged rfl hj).told, ?_⟩
  rw [Option.isNone_map]
  split
  · exact ⟨⟨id, id⟩, fun _ => id⟩
  · exact hfits.inverted r.invert

/-- **Rules.**  A match says no only if the rule does not hold with both slips; if the address items are not ignored
it says whether the rule holds. -/
theorem Rule.match_judged (h : Answered m m') (r : Rule ε α) : (r.Kept m m' → (r.match m .fresh).1 = true) ∧
    (m.ignoreDestinationIPCIDRMatch = false → ((r.match m .fresh).1 = true ↔ r.Kept m m')) := by
  choose V hV using fun rule : DefaultRule ε α => rule.match_judged h
  have ht : Told (r.Bound (fun up rule => V rule up) ·) (verdict (matchTree (DefaultRule.match · m) r .fresh)) :=
    matchTree_told (.of_forall (fun rule => (hV rule).1) r)
  have hmatched : (r.match m .fresh).1 = true ↔ r.Bound (fun up rule => V rule up) true := ht.matched
  rw [hmatched]
  refine ⟨(BoolTree.bound_between (.of_forall (fun rule => (hV rule).2.between) r)).2, fun hi => ?_⟩
  have hconst : (fun up rule => V rule up) = fun _ (rule : DefaultRule ε α) => rule.Kept m m' := by
    funext up rule
    obtain ⟨⟨hdown, hup⟩, hclosed⟩ := (hV rule).2
    cases up
    · exact propext ⟨hdown, fun hk => hclosed hi (hup hk)⟩
    · exact propext ⟨fun hv => hdown (hclosed hi hv), hup⟩
  rw [hconst]
  exact BoolTree.bound_const _ r true

/-- Where the address items are not ignored neither slip can occur. -/
lemma DefaultRule.kept_iff (hi : m.ignoreDestinationIPCIDRMatch = false) (r : DefaultRule ε α) :
    r.Kept m m ↔ r.Holds RuleSetItem.flags m := by
  have hmissed (names : List (ε → Bool)) : ¬Missed m names := by simp [Missed, hi]
  have hset (item : RuleSetItem ε α) (ruleSet : RuleSet ε α) :
      setKept r.toDefault m m item.flags ruleSet ↔ setHolds r.toDefault m item.flags ruleSet := by
    have hfree : r.toDefault.Free m := by simp [Default.Free, hi]
    unfold setKept
    cases hb : mergeableRuleIn ruleSet with
    | some branch => simp [hmissed]
    | none => simp [hmissed, hfree, readsInSet_iff hi, setHolds, hb]
  unfold DefaultRule.Kept DefaultRule.Holds DefaultRule.KeptConditions DefaultRule.Conditions
  cases r.ruleSetItem with
  | none => simp [Default.Kept, hmissed]
  | some item => simp only [hset]

/-- **A match is the meaning of the rule** where the address items are not ignored. -/
theorem Rule.match_iff (hi : m.ignoreDestinationIPCIDRMatch = false) (r : Rule ε α) :
    (r.match m .fresh).1 = true ↔ r.Holds RuleSetItem.flags m :=
  ((Rule.match_judged (Answered.refl hi) r).2 hi).trans (BoolTree.Holds.congr (.of_forall (DefaultRule.kept_iff hi) r))

end SingBox.Route
