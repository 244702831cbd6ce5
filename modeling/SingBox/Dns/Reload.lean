import SingBox.Dns.Rules
import SingBox.Lib.Run

/-!
# Reloading rule sets

The mode of the DNS router depends on what its rule sets contain, and is fixed when the router starts.  A reload of a
rule set asks the router whether the new metadata fits (`ValidateRuleSetMetadataUpdate`) and commits it later, under
a lock of its own.

In legacy mode what is asked is a condition on each set alone, and the reloads cannot disturb each other.  Otherwise
two reloads that overlap may each fit with what the other replaces (`overlapping_reloads_disagree`).
-/

namespace SingBox.Dns

open SingBox.Lib List

variable {τ μ ο : Type}

/-! ### What legacy mode asks of the rule sets -/

/-- A rule set is known and has no query type rule. -/
def Silent (sets : Sets τ) (tag : τ) : Prop :=
  ∃ metadata, sets tag = some metadata ∧ metadata.containsDNSQueryTypeRule = false

def DNSRule.Permits (sets : Sets τ) (rule : DNSRule τ μ ο) : Prop :=
  ∃ flags, dnsRuleModeRequirementsInRule sets rule = .ok flags ∧ flags.disabled = false

variable (sets : Sets τ)

lemma ruleSetRequirements_iff (matchSource : Bool) (tags : List τ) (flags : ModeFlags) :
    (∃ f, ruleSetRequirements sets matchSource tags flags = .ok f ∧ f.disabled = false) ↔
      flags.disabled = false ∧ ∀ tag ∈ tags, Silent sets tag := by
  induction tags generalizing flags with
  | nil => simp [ruleSetRequirements]
  | cons tag tags ih =>
    rw [ruleSetRequirements, lookupDNSRuleSetMetadata]
    cases hset : sets tag with
    | some metadata | none =>
      simp only [ih]
      simp [Silent, hset, and_assoc]

lemma loopRequirements_iff (rules : List (DNSRule τ μ ο)) (i : ℕ) (flags : ModeFlags) :
    ((∃ f, subRuleRequirements sets rules i flags = .ok f ∧ f.disabled = false) ↔
      flags.disabled = false ∧ ∀ rule ∈ rules, rule.Permits sets) ∧
    ((∃ f, ruleRequirements sets rules i flags = .ok f ∧ f.disabled = false) ↔
      flags.disabled = false ∧ ∀ rule ∈ rules, rule.Permits sets) := by
  induction rules generalizing i flags with
  | nil => simp [subRuleRequirements, ruleRequirements]
  | cons rule rules ih =>
    rw [subRuleRequirements, ruleRequirements]
    cases hrule : dnsRuleModeRequirementsInRule sets rule with
    | ok f | error e =>
      simp only [ih, ModeFlags.merge]
      simp [DNSRule.Permits, hrule, and_assoc]

mutual

def DNSRule.ruleSets : DNSRule τ μ ο → List τ
  | .default rule _ => rule.ruleSet
  | .logical rules _ => ruleSetsOf rules

def ruleSetsOf : List (DNSRule τ μ ο) → List τ
  | [] => []
  | rule :: rules => rule.ruleSets ++ ruleSetsOf rules

end

lemma mem_ruleSetsOf {rules : List (DNSRule τ μ ο)} {tag : τ} :
    tag ∈ ruleSetsOf rules ↔ ∃ rule ∈ rules, tag ∈ rule.ruleSets := by
  induction rules with
  | nil => simp [ruleSetsOf]
  | cons rule rules ih => simp [ruleSetsOf, ih]

lemma permits_default (sets : Sets τ) (rule : DefaultDNSRule τ) (action : DNSRuleAction τ μ ο) :
    (DNSRule.default rule action).Permits sets ↔
      (defaultRuleDisablesLegacyDNSMode rule action.action || dnsRuleActionDisablesLegacyDNSMode action) = false ∧
        ∀ tag ∈ rule.ruleSet, Silent sets tag := by
  exact ruleSetRequirements_iff ..

lemma permits_logical (sets : Sets τ) (rules : List (DNSRule τ μ ο)) (action : DNSRuleAction τ μ ο) :
    (DNSRule.logical rules action).Permits sets ↔
      (logicalRuleFlags action).disabled = false ∧ ∀ rule ∈ rules, rule.Permits sets := by
  exact (loopRequirements_iff ..).1

lemma DNSRule.Permits.silent {sets : Sets τ} {rule : DNSRule τ μ ο} (h : rule.Permits sets) :
    ∀ tag ∈ rule.ruleSets, Silent sets tag := by
  induction rule with
  | default rule action =>
    rw [permits_default] at h
    exact h.2
  | logical rules action ih =>
    rw [permits_logical] at h
    intro tag htag
    rw [DNSRule.ruleSets, mem_ruleSetsOf] at htag
    obtain ⟨rule, hr, htag⟩ := htag
    exact ih rule hr (h.2 rule hr) tag htag

/-- Whether a rule disables legacy mode depends on each of its rule sets alone. -/
lemma DNSRule.Permits.transfer {sets sets' : Sets τ} {rule : DNSRule τ μ ο} (h : rule.Permits sets)
    (hs : ∀ tag ∈ rule.ruleSets, Silent sets' tag) : rule.Permits sets' := by
  induction rule with
  | default rule action =>
    rw [permits_default] at h ⊢
    exact ⟨h.1, hs⟩
  | logical rules action ih =>
    rw [permits_logical] at h ⊢
    refine ⟨h.1, fun rule hr => ih rule hr (h.2 rule hr) fun tag htag => hs tag ?_⟩
    rw [DNSRule.ruleSets, mem_ruleSetsOf]
    exact ⟨rule, hr, htag⟩

/-! ### Rule sets that the rules refer to -/

section Congr

variable {sets sets' : Sets τ}

lemma ruleSets_congr (tags : List τ) (h : ∀ tag ∈ tags, sets tag = sets' tag) :
    (∀ b, ruleSetRequirements sets b tags = ruleSetRequirements sets' b tags) ∧
      validateRuleSets sets tags = validateRuleSets sets' tags := by
  induction tags with
  | nil => exact ⟨fun _ => rfl, rfl⟩
  | cons tag tags ih =>
    obtain ⟨htag, htags⟩ := forall_mem_cons.1 h
    refine ⟨fun _ => funext fun _ => ?_, ?_⟩ <;>
      simp [ruleSetRequirements, validateRuleSets, lookupDNSRuleSetMetadata, htag, ih htags]

/-- Both checks of a rule come out alike. -/
def DNSRule.Alike (sets sets' : Sets τ) (rule : DNSRule τ μ ο) : Prop :=
  dnsRuleModeRequirementsInRule sets rule = dnsRuleModeRequirementsInRule sets' rule ∧
    validateLegacyDNSModeDisabledRuleTree sets rule = validateLegacyDNSModeDisabledRuleTree sets' rule

variable [DecidableEq τ]

lemma loops_congr {rules : List (DNSRule τ μ ο)} (h : ∀ rule ∈ rules, rule.Alike sets sets') :
    subRuleRequirements sets rules = subRuleRequirements sets' rules ∧
      ruleRequirements sets rules = ruleRequirements sets' rules ∧
      validateSubRules sets rules = validateSubRules sets' rules ∧
      validateLoop sets rules = validateLoop sets' rules := by
  induction rules with
  | nil => refine ⟨?_, ?_, ?_, ?_⟩ <;> rfl
  | cons rule rules ih =>
    obtain ⟨⟨hmode, htree⟩, hrules⟩ := forall_mem_cons.1 h
    refine ⟨?_, ?_, ?_, ?_⟩ <;> funext i s <;>
      simp [subRuleRequirements, ruleRequirements, validateSubRules, validateLoop, validateRule, hmode, htree,
        ih hrules]

lemma DNSRule.alike (rule : DNSRule τ μ ο) (h : ∀ tag ∈ rule.ruleSets, sets tag = sets' tag) :
    rule.Alike sets sets' := by
  induction rule with
  | default rule action =>
    obtain ⟨hmode, htree⟩ := ruleSets_congr rule.ruleSet h
    exact ⟨congrFun (hmode _) _,
      by simp [validateLegacyDNSModeDisabledRuleTree, validateLegacyDNSModeDisabledDefaultRule, htree]⟩
  | logical rules action ih =>
    obtain ⟨hmode, -, htree, -⟩ :=
      loops_congr fun rule hr => ih rule hr fun tag ht => h tag (mem_ruleSetsOf.2 ⟨rule, hr, ht⟩)
    exact ⟨by simp [dnsRuleModeRequirementsInRule, hmode], by simp [validateLegacyDNSModeDisabledRuleTree, htree]⟩

end Congr

/-! ### The router and its reloads -/

section Router

variable [DecidableEq τ]

/-- The metadata with that of one set replaced. -/
def Sets.override (sets : Sets τ) (tag : τ) (metadata : RuleSetMetadata) : Sets τ :=
  fun tag' => if tag' = tag then some metadata else sets tag'

/-- A reload that has been validated; `seen` is the committed metadata it was validated against. -/
structure Reload (τ : Type) where
  tag : τ
  metadata : RuleSetMetadata
  seen : Sets τ

/-- A router that has started: its rules, its mode, the committed metadata, and the reloads between their two
steps. -/
structure Router (τ μ ο : Type) where
  rawRules : List (DNSRule τ μ ο)
  legacyDNSMode : Bool
  sets : Sets τ
  reloads : List (Reload τ) := []

/-- The checks of `buildRules` when the router starts. -/
def Router.start (rules : List (DNSRule τ μ ο)) (sets : Sets τ) : Except (RuleError τ) (Router τ μ ο) :=
  match resolveLegacyDNSMode sets rules with
  | .error e => .error e
  | .ok (true, _) => .ok { rawRules := rules, legacyDNSMode := true, sets := sets }
  | .ok (false, _) =>
    match validateLegacyDNSModeDisabledRules sets rules with
    | .error e => .error e
    | .ok _ => .ok { rawRules := rules, legacyDNSMode := false, sets := sets }

/-- `ValidateRuleSetMetadataUpdate` of a started router. -/
def Router.validateRuleSetMetadataUpdate (r : Router τ μ ο) (tag : τ) (metadata : RuleSetMetadata) :
    Except (RuleError τ) Unit :=
  if r.rawRules.isEmpty then .ok ()
  else
    let overrides := r.sets.override tag metadata
    match resolveLegacyDNSMode overrides r.rawRules with
    | .error e => .error e
    | .ok (candidateLegacyDNSMode, flags) =>
      if r.legacyDNSMode then
        if !candidateLegacyDNSMode && flags.disabled then
          match validateLegacyDNSModeDisabledRules overrides r.rawRules with
          | .error e => .error e
          | .ok _ => .error .legacyAddressFilter
        else .ok ()
      else if candidateLegacyDNSMode then .error .legacyAddressFilter
      else
        match validateLegacyDNSModeDisabledRules overrides r.rawRules with
        | .error e => .error e
        | .ok _ => .ok ()

inductive ReloadStep (τ : Type) where
  | validate (tag : τ) (metadata : RuleSetMetadata)
  | commit (i : ℕ)

/-- One step: a set of the router is validated, and given up if it does not fit; or a validated one is committed. -/
def Router.step (r : Router τ μ ο) : ReloadStep τ → Option (Router τ μ ο)
  | .validate tag metadata =>
    if (r.sets tag).isNone then none
    else match r.validateRuleSetMetadataUpdate tag metadata with
      | .error _ => some r
      | .ok () => some { r with reloads := r.reloads ++ [⟨tag, metadata, r.sets⟩] }
  | .commit i =>
    match r.reloads[i]? with
    | none => none
    | some reload =>
      some { r with sets := r.sets.override reload.tag reload.metadata, reloads := r.reloads.eraseIdx i }

/-- The rules are valid with the given metadata for the mode the router runs in. -/
structure Fits (rules : List (DNSRule τ μ ο)) (legacyDNSMode : Bool) (sets : Sets τ) : Prop where
  disabled : legacyDNSMode = false → (∃ flags, resolveLegacyDNSMode sets rules = .ok (false, flags)) ∧
    ∃ warnings, validateLegacyDNSModeDisabledRules sets rules = .ok warnings
  legacy : legacyDNSMode = true → ∃ flags, dnsRuleModeRequirements sets rules = .ok flags ∧ flags.disabled = false

/-- With no reload between its two steps, the rules are valid for the running mode. -/
def Router.RulesValid (r : Router τ μ ο) : Prop := r.reloads = [] → Fits r.rawRules r.legacyDNSMode r.sets

/-- Of the sets that the rules refer to, no other one has changed since the reload that is to be committed was
validated. -/
def Router.Undisturbed (r : Router τ μ ο) : ReloadStep τ → Prop
  | .validate _ _ => True
  | .commit i => ∀ reload, r.reloads[i]? = some reload → r.legacyDNSMode = false → reload.tag ∈ ruleSetsOf r.rawRules →
      ∀ tag ∈ ruleSetsOf r.rawRules, tag ≠ reload.tag → r.sets tag = reload.seen tag

variable {rules : List (DNSRule τ μ ο)}

lemma Fits.congr {legacy : Bool} {sets sets' : Sets τ} (hf : Fits rules legacy sets)
    (h : ∀ tag ∈ ruleSetsOf rules, sets tag = sets' tag) : Fits rules legacy sets' := by
  obtain ⟨-, hmode, -, hloop⟩ :=
    loops_congr fun rule hr => rule.alike fun tag ht => h tag (mem_ruleSetsOf.2 ⟨rule, hr, ht⟩)
  obtain ⟨hdisabled, hlegacy⟩ := hf
  simp only [resolveLegacyDNSMode, dnsRuleModeRequirements, validateLegacyDNSModeDisabledRules, hmode, hloop]
    at hdisabled hlegacy
  exact ⟨hdisabled, hlegacy⟩

omit [DecidableEq τ] in
lemma requirements_iff (sets : Sets τ) (rules : List (DNSRule τ μ ο)) :
    (∃ flags, dnsRuleModeRequirements sets rules = .ok flags ∧ flags.disabled = false) ↔
      ∀ rule ∈ rules, rule.Permits sets := by
  unfold dnsRuleModeRequirements
  rw [(loopRequirements_iff ..).2]
  simp

omit [DecidableEq τ] in
lemma resolveLegacyDNSMode_ok {sets : Sets τ} {legacy : Bool} {flags : ModeFlags}
    (h : resolveLegacyDNSMode sets rules = .ok (legacy, flags)) :
    dnsRuleModeRequirements sets rules = .ok flags ∧ (legacy = true → flags.disabled = false) ∧
      (legacy = false → flags.disabled = true ∨ flags.needed = false) := by
  unfold resolveLegacyDNSMode at h
  cases hreq : dnsRuleModeRequirements sets rules with
  | error e => simp [hreq] at h
  | ok f =>
    simp only [hreq] at h
    split at h
    · simp at h
    · split at h
      next hd =>
        cases h
        exact ⟨rfl, by simp, fun _ => .inl hd⟩
      next hd =>
        cases h
        exact ⟨rfl, fun _ => by simpa using hd, .inr⟩

lemma start_fits {sets : Sets τ} {r : Router τ μ ο}
    (h : Router.start rules sets = .ok r) : Fits r.rawRules r.legacyDNSMode r.sets ∧ r.reloads = [] := by
  unfold Router.start at h
  split at h
  · simp at h
  next flags hres =>
    cases h
    obtain ⟨hreq, hd, -⟩ := resolveLegacyDNSMode_ok hres
    exact ⟨⟨by simp, fun _ => ⟨flags, hreq, hd rfl⟩⟩, rfl⟩
  next flags hres =>
    split at h
    · simp at h
    next warnings hval =>
      cases h
      exact ⟨⟨fun _ => ⟨⟨flags, hres⟩, warnings, hval⟩, by simp⟩, rfl⟩

lemma validate_fits {r : Router τ μ ο} {tag : τ} {metadata : RuleSetMetadata}
    (h : r.validateRuleSetMetadataUpdate tag metadata = .ok ()) (hfits : Fits r.rawRules r.legacyDNSMode r.sets) :
    Fits r.rawRules r.legacyDNSMode (r.sets.override tag metadata) := by
  unfold Router.validateRuleSetMetadataUpdate at h
  split at h
  next hempty =>
    rw [List.isEmpty_iff] at hempty
    rw [hempty] at hfits ⊢
    exact ⟨hfits.disabled, hfits.legacy⟩
  · simp only at h
    split at h
    · simp at h
    next candidate flags hres =>
      obtain ⟨hreq, hlegacy, -⟩ := resolveLegacyDNSMode_ok hres
      split at h
      next hmode =>
        split at h
        · split at h <;> simp at h
        next hcand =>
          refine ⟨by simp [hmode], fun _ => ⟨flags, hreq, ?_⟩⟩
          -- a candidate mode that is legacy is not disabled either
          cases candidate with
          | true => exact hlegacy rfl
          | false => simpa using hcand
      next hmode =>
        split at h
        · simp at h
        next hcand =>
          have hcand : candidate = false := by simpa using hcand
          subst hcand
          split at h
          · simp at h
          next warnings hval =>
            exact ⟨fun _ => ⟨⟨flags, hres⟩, warnings, hval⟩, by simp [hmode]⟩

/-- The rules are valid with the committed metadata, and with what each reload was validated against. -/
structure Router.Inv (r : Router τ μ ο) : Prop where
  fits : Fits r.rawRules r.legacyDNSMode r.sets
  reloads : ∀ reload ∈ r.reloads, Fits r.rawRules r.legacyDNSMode (reload.seen.override reload.tag reload.metadata)

lemma fits_legacy {sets seen : Sets τ} {tag : τ} {metadata : RuleSetMetadata}
    (h : Fits rules true sets) (h' : Fits rules true (seen.override tag metadata)) :
    Fits rules true (sets.override tag metadata) := by
  have hsets := (requirements_iff _ _).1 (h.legacy rfl)
  have hseen := (requirements_iff _ _).1 (h'.legacy rfl)
  refine ⟨by simp, fun _ => (requirements_iff _ _).2 fun rule hr => ?_⟩
  refine (hsets rule hr).transfer fun tag' htag' => ?_
  by_cases heq : tag' = tag
  · obtain ⟨md, hmd, hq⟩ := (hseen rule hr).silent tag' htag'
    exact ⟨md, by simpa [Sets.override, heq] using hmd, hq⟩
  · obtain ⟨md, hmd, hq⟩ := (hsets rule hr).silent tag' htag'
    exact ⟨md, by simpa [Sets.override, heq] using hmd, hq⟩

lemma Router.Inv.step {r r' : Router τ μ ο} {e : ReloadStep τ} (h : r.step e = some r') (hc : r.Undisturbed e)
    (hi : r.Inv) : r'.Inv := by
  cases e with
  | validate tag metadata =>
    simp only [Router.step] at h
    split at h
    · simp at h
    · split at h
      · cases h
        exact hi
      next hval =>
        cases h
        refine ⟨hi.fits, ?_⟩
        intro reload hr
        rcases mem_append.1 hr with hr | hr
        · exact hi.reloads reload hr
        · rw [mem_singleton] at hr
          subst hr
          exact validate_fits hval hi.fits
  | commit i =>
    simp only [Router.step] at h
    split at h
    · simp at h
    next reload hreload =>
      cases h
      have hmem := mem_of_getElem? hreload
      refine ⟨?_, fun r' hr' => hi.reloads r' (mem_of_mem_eraseIdx hr')⟩
      cases hmode : r.legacyDNSMode with
      | true =>
        have hfits := hi.fits
        have hreload := hi.reloads reload hmem
        rw [hmode] at hfits hreload
        exact fits_legacy hfits hreload
      | false =>
        rw [← hmode]
        by_cases href : reload.tag ∈ ruleSetsOf r.rawRules
        · -- the rules see the metadata that was validated
          refine (hi.reloads reload hmem).congr fun tag htag => ?_
          simp only [Sets.override]
          split
          · rfl
          next hne => exact (hc reload hreload hmode href tag htag hne).symm
        · refine hi.fits.congr fun tag htag => (if_neg ?_).symm
          rintro rfl
          exact href htag

/-- **The rules stay valid for the running mode**, in every run of reloads in which, outside legacy mode and of the sets
that the rules refer to, no other one changes between the two steps of a reload. -/
theorem reloads_keep_rules_valid (rules : List (DNSRule τ μ ο)) (sets : Sets τ) (r : Router τ μ ο)
    (hstart : Router.start rules sets = .ok r) (es : List (ReloadStep τ))
    (hes : StepAll Router.step Router.Undisturbed r es) : VisitAll Router.step Router.RulesValid r es := by
  obtain ⟨hfits, hnil⟩ := start_fits hstart
  have hinv : r.Inv := ⟨hfits, by simp [hnil]⟩
  refine (visitAll_of_stepAll (fun s e t h hc hi => hi.step h hc) es hinv hes).imp ?_
  intro s hs _
  exact hs.fits

end Router

/-! ### Two reloads -/

/-- A rule that matches a rule set and routes to a server. -/
def ruleSetRoute (tag : Bool) : DNSRule Bool Unit Unit := .default { ruleSet := [tag] } ⟨.route tag false {}, false⟩

/-- The set `true` has a query type rule, the set `false` has not, and neither has addresses. -/
def startSets : Sets Bool := fun tag => some { containsDNSQueryTypeRule := tag, containsNonIPCIDRRule := true }

def startRouter : Router Bool Unit Unit where
  rawRules := [ruleSetRoute true, ruleSetRoute false]
  legacyDNSMode := false
  sets := startSets

/-- The set `true` loses its query type rule and the set `false` gets addresses: each fits with what the other
replaces. -/
def overlappingReloads : List (ReloadStep Bool) :=
  [.validate true { containsNonIPCIDRRule := true },
    .validate false { containsIPCIDRRule := true, containsNonIPCIDRRule := true }, .commit 0, .commit 0]

/-- After both are committed the rules ask for legacy mode, which the router does not run in. -/
theorem overlapping_reloads_disagree :
    Router.start [ruleSetRoute true, ruleSetRoute false] startSets = .ok startRouter ∧
    (runOf Router.step startRouter overlappingReloads).any (fun r => r.reloads.isEmpty && !r.legacyDNSMode &&
        match resolveLegacyDNSMode r.sets r.rawRules with
        | .ok (legacy, _) => legacy
        | .error _ => false) = true := by
  exact ⟨rfl, by decide⟩

theorem single_reload_fits : VisitAll Router.step Router.RulesValid startRouter
      [.validate true { containsNonIPCIDRRule := true }, .commit 0] := by
  refine reloads_keep_rules_valid [ruleSetRoute true, ruleSetRoute false] startSets startRouter rfl _ ?_
  intro r hr
  have hstep : startRouter.step (.validate true { containsNonIPCIDRRule := true }) =
      some { startRouter with reloads := [⟨true, { containsNonIPCIDRRule := true }, startSets⟩] } := rfl
  rw [hstep, Option.some.injEq] at hr
  subst hr
  refine ⟨trivial, fun r' _ => ⟨?_, trivial⟩⟩
  rintro reload hreload - - tag - -
  cases hreload
  rfl

end SingBox.Dns
