import SingBox.Dns.Rules

/-!
# Evaluate tags

A rule list that `validateLegacyDNSModeDisabledRules` accepts evaluates every tag at most once, and refers to a tag
only after the rule that evaluates it (`wellTagged_of_accepted`).
-/

namespace SingBox.Dns

open List

variable {τ μ ο ε : Type} [DecidableEq τ]

/-! ### Tags of accepted rules -/

/-- The tags of a rule list fit together: a rule is bound to tags that an earlier rule evaluates, and no two rules
evaluate the same tag. -/
structure WellTagged (rules : List (DNSRule τ μ ο)) : Prop where
  defined : ∀ (i : ℕ) (rule : DNSRule τ μ ο), rules[i]? = some rule → ∀ tag ∈ rule.matchResponseTags,
    ∃ j < i, ∃ rule', rules[j]? = some rule' ∧ rule'.evaluateTag = some tag
  unique : ∀ (i j : ℕ) (rule rule' : DNSRule τ μ ο) (tag : τ), rules[i]? = some rule → rules[j]? = some rule' →
    rule.evaluateTag = some tag → rule'.evaluateTag = some tag → i = j

variable {rules : List (DNSRule τ μ ο)}

/-- A rule is not bound to a tag that it or a later rule evaluates. -/
lemma WellTagged.not_bound (h : WellTagged rules) {i j : ℕ}
    {rule rule' : DNSRule τ μ ο} {tag : τ} (hi : rules[i]? = some rule) (hj : rules[j]? = some rule') (hij : i ≤ j)
    (htag : rule'.evaluateTag = some tag) : tag ∉ rule.matchResponseTags := by
  intro hmem
  obtain ⟨k, hk, rule'', hk', htag'⟩ := h.defined i rule hi tag hmem
  have := h.unique j k rule' rule'' tag hj hk' htag htag'
  omega

lemma mem_subRuleTags {tag : τ} : tag ∈ subRuleTags rules ↔ ∃ rule ∈ rules, tag ∈ rule.matchResponseTags := by
  induction rules with
  | nil => simp [subRuleTags]
  | cons rule rules ih => simp [subRuleTags, ih]

omit [DecidableEq τ] in
lemma validateSubRules_tags {sets : Sets τ} {i : ℕ} {use use' : ResponseUse τ}
    (h : validateSubRules sets rules i use = .ok use') : (∀ tag ∈ use.referencedTags, tag ∈ use'.referencedTags) ∧
    ∀ rule ∈ rules, ∃ subUse, validateLegacyDNSModeDisabledRuleTree sets rule = .ok subUse ∧
      ∀ tag ∈ subUse.referencedTags, tag ∈ use'.referencedTags := by
  induction rules generalizing i use with
  | nil =>
    simp only [validateSubRules, Except.ok.injEq] at h
    subst h
    exact ⟨fun _ h => h, by simp⟩
  | cons rule rules ih =>
    rw [validateSubRules] at h
    cases hrule : validateLegacyDNSModeDisabledRuleTree sets rule with
    | error e => simp [hrule] at h
    | ok subUse =>
      simp only [hrule] at h
      obtain ⟨h1, h2⟩ := ih h
      refine ⟨fun tag htag => h1 tag (mem_append_left _ htag), ?_⟩
      intro rule' hr'
      rcases mem_cons.1 hr' with rfl | hr'
      · exact ⟨subUse, hrule, fun tag htag => h1 tag (mem_append_right _ htag)⟩
      · exact h2 rule' hr'

lemma validateRuleTree_tags {sets : Sets τ} {rule : DNSRule τ μ ο} {use : ResponseUse τ}
    (h : validateLegacyDNSModeDisabledRuleTree sets rule = .ok use) :
    ∀ tag ∈ rule.matchResponseTags, tag ∈ use.referencedTags := by
  induction rule generalizing use with
  | default rule action =>
    simp only [validateLegacyDNSModeDisabledRuleTree, validateLegacyDNSModeDisabledDefaultRule] at h
    intro tag htag
    split at h
    · simp at h
    · split at h
      · simp at h
      · split at h
        · simp at h
        · cases h
          exact htag
  | logical rules action ih =>
    intro tag htag
    rw [DNSRule.matchResponseTags, mem_eraseDups, mem_subRuleTags] at htag
    obtain ⟨rule, hr, htag⟩ := htag
    rw [validateLegacyDNSModeDisabledRuleTree] at h
    cases hsub : validateSubRules sets rules 0 {} with
    | error e => simp [hsub] at h
    | ok use' =>
      obtain ⟨-, hall⟩ := validateSubRules_tags hsub
      obtain ⟨subUse, hsubUse, hle⟩ := hall rule hr
      have hmem : tag ∈ use'.referencedTags := hle tag (ih rule hr hsubUse tag htag)
      simp only [hsub] at h
      split at h
      · split at h
        · cases h
          exact hmem
        · simp at h
      · cases h
        exact hmem

lemma undefinedTag_none {definedTags tags : List τ} (h : undefinedTag definedTags tags = none) :
    ∀ tag ∈ tags, tag ∈ definedTags := by
  induction tags with
  | nil => simp
  | cons tag tags ih =>
    rw [undefinedTag] at h
    split at h
    next hc =>
      rw [forall_mem_cons]
      exact ⟨by simpa using hc, ih h⟩
    · simp at h

/-- A turn of the check: the rule is bound to tags defined so far, and defines at most a new one. -/
lemma validateRule_tags {sets : Sets τ} {s s' : ValidateState τ} {i : ℕ} {rule : DNSRule τ μ ο}
    (h : validateRule sets s i rule = .ok s') : (∀ tag ∈ rule.matchResponseTags, tag ∈ s.definedTags) ∧
    (∀ tag, rule.evaluateTag = some tag → tag ∉ s.definedTags) ∧
    s'.definedTags = s.definedTags ++ rule.evaluateTag.toList := by
  unfold validateRule at h
  split at h
  · simp at h
  next use huse =>
    split at h
    · simp at h
    · split at h
      · simp at h
      next hundef =>
        refine ⟨fun tag htag => undefinedTag_none hundef tag (validateRuleTree_tags huse tag htag), ?_⟩
        simp only at h
        split at h
        next server tag speculative options haction =>
          have htag : rule.evaluateTag = tag := by simp [DNSRule.evaluateTag, haction]
          rw [htag]
          cases tag with
          | none =>
            simp only [validateEvaluate, Except.ok.injEq] at h
            subst h
            simp
          | some tag =>
            simp only [validateEvaluate] at h
            split at h
            · simp at h
            next hnew =>
              cases h
              refine ⟨?_, by simp⟩
              intro tag' heq
              cases heq
              simpa using hnew
        next hother =>
          have htag : rule.evaluateTag = none := by
            unfold DNSRule.evaluateTag
            split
            next haction => exact absurd haction (hother _ _ _ _)
            · rfl
          cases h
          simp [htag]

lemma validateLoop_tags {sets : Sets τ} {i : ℕ} {s s' : ValidateState τ}
    (h : validateLoop sets rules i s = .ok s') : ∀ (k : ℕ) (rule : DNSRule τ μ ο), rules[k]? = some rule →
      (∀ tag ∈ rule.matchResponseTags, tag ∈ s.definedTags ∨
        ∃ j < k, ∃ rule', rules[j]? = some rule' ∧ rule'.evaluateTag = some tag) ∧
      ∀ tag, rule.evaluateTag = some tag → tag ∉ s.definedTags ∧
        ∀ j < k, ∀ rule', rules[j]? = some rule' → rule'.evaluateTag ≠ some tag := by
  induction rules generalizing i s with
  | nil => simp
  | cons rule rules ih =>
    rw [validateLoop] at h
    cases hrule : validateRule sets s i rule with
    | error e => simp [hrule] at h
    | ok s₁ =>
      simp only [hrule] at h
      obtain ⟨hbound, hnew, hdef⟩ := validateRule_tags hrule
      intro k rule' hk
      cases k with
      | zero =>
        simp only [getElem?_cons_zero, Option.some.injEq] at hk
        subst hk
        exact ⟨fun tag htag => .inl (hbound tag htag), fun tag htag => ⟨hnew tag htag, by simp⟩⟩
      | succ k =>
        obtain ⟨h1, h2⟩ := ih h k rule' hk
        simp only [hdef, mem_append, Option.mem_toList] at h1 h2
        refine ⟨?_, ?_⟩
        · intro tag htag
          rcases h1 tag htag with (hd | he) | ⟨j, hj, rule'', hr, he⟩
          · exact .inl hd
          · exact .inr ⟨0, by omega, rule, by simp, he⟩
          · exact .inr ⟨j + 1, by omega, rule'', hr, he⟩
        · intro tag htag
          obtain ⟨hn, hj⟩ := h2 tag htag
          refine ⟨fun hd => hn (.inl hd), ?_⟩
          intro j hjk rule'' hr
          cases j with
          | zero =>
            simp only [getElem?_cons_zero, Option.some.injEq] at hr
            subst hr
            exact fun he => hn (.inr he)
          | succ j =>
            exact hj j (by omega) rule'' hr

/-- **Rules that are accepted are well tagged.** -/
theorem wellTagged_of_accepted {sets : Sets τ} {warnings : List (RuleWarning τ)}
    (h : validateLegacyDNSModeDisabledRules sets rules = .ok warnings) : WellTagged rules := by
  unfold validateLegacyDNSModeDisabledRules at h
  cases hloop : validateLoop sets rules 0 {} with
  | error e => simp [hloop] at h
  | ok s =>
    have hall := validateLoop_tags hloop
    refine ⟨?_, ?_⟩
    · intro i rule hi tag htag
      simpa using (hall i rule hi).1 tag htag
    · intro i j rule rule' tag hi hj htag htag'
      rcases Nat.lt_trichotomy i j with hij | hij | hij
      · exact absurd htag (((hall j rule' hj).2 tag htag').2 i hij rule hi)
      · exact hij
      · exact absurd htag' (((hall i rule hi).2 tag htag).2 j hij rule' hj)

end SingBox.Dns
