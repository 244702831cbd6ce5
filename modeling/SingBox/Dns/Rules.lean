import Mathlib.Data.List.Basic

/-!
# DNS rules

The options of DNS rules, the mode they ask for (`resolveLegacyDNSMode`) and the checks on a rule list for the
router that does not run in legacy mode (`validateLegacyDNSModeDisabledRules`).

Names (of servers, of rule sets, of evaluated responses) are of any type `τ`, messages of any type `μ`, query
options of any type `ο`; an empty name of the source is `none` here.
-/

namespace SingBox.Dns

/-! ### Options -/

/-- `match_response`: not enabled, enabled without a tag, or bound to the response of an evaluate tag. -/
inductive MatchResponse (τ : Type) where
  | disabled
  | anonymous
  | tag (name : τ)

def MatchResponse.isEnabled {τ : Type} : MatchResponse τ → Bool
  | .disabled => false
  | _ => true

def MatchResponse.responseTag {τ : Type} : MatchResponse τ → Option τ
  | .tag name => some name
  | _ => none

/-- The options of a route: whether it sets a strategy, and what the others do to the options of a query. -/
structure RouteOptions (ο : Type) where
  hasStrategy : Bool := false
  disableOptimisticCache : Bool := false
  apply : ο → ο := id

inductive RejectMethod where
  | default
  | drop
  | reply
  deriving DecidableEq

inductive RuleAction (τ μ ο : Type) where
  | route (server : τ) (speculative : Bool) (options : RouteOptions ο)
  | evaluate (server : τ) (tag : Option τ) (speculative : Bool) (options : RouteOptions ο)
  | respond
  | routeOptions (options : RouteOptions ο)
  | reject (method : RejectMethod)
  | predefined (response : μ)

structure DNSRuleAction (τ μ ο : Type) where
  action : RuleAction τ μ ο
  race : Bool := false

/-- The fields of a default rule that the functions below read. -/
structure DefaultDNSRule (τ : Type) where
  matchResponse : MatchResponse τ := .disabled
  responseRcode : Bool := false
  responseAnswer : Bool := false
  responseNs : Bool := false
  responseExtra : Bool := false
  ipCIDR : Bool := false
  ipIsPrivate : Bool := false
  ipAcceptAny : Bool := false
  ipVersion : Bool := false
  queryType : Bool := false
  ruleSet : List τ := []
  ruleSetIPCIDRMatchSource : Bool := false
  ruleSetIPCIDRAcceptEmpty : Bool := false

inductive DNSRule (τ μ ο : Type) where
  | default (rule : DefaultDNSRule τ) (action : DNSRuleAction τ μ ο)
  | logical (rules : List (DNSRule τ μ ο)) (action : DNSRuleAction τ μ ο)

/-- What a rule set says about its rules. -/
structure RuleSetMetadata where
  containsIPCIDRRule : Bool := false
  containsDNSQueryTypeRule : Bool := false
  containsNonIPCIDRRule : Bool := false
  deriving DecidableEq

variable {τ μ ο : Type}

def DNSRule.action : DNSRule τ μ ο → DNSRuleAction τ μ ο
  | .default _ action => action
  | .logical _ action => action

/-- Induction over a rule, with a hypothesis for every sub-rule. -/
@[induction_eliminator]
lemma DNSRule.induction {motive : DNSRule τ μ ο → Prop} (default : ∀ rule action, motive (.default rule action))
    (logical : ∀ rules action, (∀ r ∈ rules, motive r) → motive (.logical rules action)) : ∀ r, motive r :=
  DNSRule.rec default (logical) (fun _ h => by simp at h)
    fun r rs hr hrs r' h => by
      rcases List.mem_cons.1 h with rfl | h
      · exact hr
      · exact hrs r' h

/-! ### Errors -/

inductive RuleError (τ : Type) where
  /-- rule-set not found -/
  | ruleSetNotFound (tag : τ)
  | legacyStrategy
  | legacyAddressFilter
  | acceptEmpty
  /-- Response Match Fields require match_response to be enabled -/
  | responseMatchFields
  /-- respond on a logical rule cannot bind a `match_response` tag from its sub rules -/
  | respondOnLogical
  /-- response-based matching requires a preceding evaluate action; `tagged` if there is one with a tag -/
  | noEvaluate (tagged : Bool)
  /-- undefined evaluate tag -/
  | undefinedTag (tag : τ)
  /-- duplicate evaluate tag -/
  | duplicateTag (tag : τ)
  | inRule (index : ℕ) (cause : RuleError τ)
  | inSubRule (index : ℕ) (cause : RuleError τ)
  deriving DecidableEq

/-! ### The mode -/

def defaultRuleNeedsLegacyDNSModeFromAddressFilter (rule : DefaultDNSRule τ) : Bool :=
  rule.ruleSetIPCIDRAcceptEmpty ||
    !rule.matchResponse.isEnabled && (rule.ipAcceptAny || rule.ipCIDR || rule.ipIsPrivate)

def hasResponseMatchFields (rule : DefaultDNSRule τ) : Bool :=
  rule.responseRcode || rule.responseAnswer || rule.responseNs || rule.responseExtra

def RuleAction.isEvaluate : RuleAction τ μ ο → Bool
  | .evaluate .. => true
  | _ => false

def RuleAction.isRespond : RuleAction τ μ ο → Bool
  | .respond => true
  | _ => false

def defaultRuleDisablesLegacyDNSMode (rule : DefaultDNSRule τ) (action : RuleAction τ μ ο) : Bool :=
  rule.matchResponse.isEnabled || hasResponseMatchFields rule || action.isEvaluate || action.isRespond ||
    rule.ipVersion || rule.queryType

def dnsRuleActionDisablesLegacyDNSMode (action : DNSRuleAction τ μ ο) : Bool :=
  action.race || match action.action with
    | .route _ speculative options => options.disableOptimisticCache || speculative
    | .evaluate _ _ speculative options => options.disableOptimisticCache || speculative
    | .routeOptions options => options.disableOptimisticCache
    | _ => false

def dnsRuleActionHasStrategy (action : RuleAction τ μ ο) : Bool :=
  match action with
  | .route _ _ options => options.hasStrategy
  | .evaluate _ _ _ options => options.hasStrategy
  | .routeOptions options => options.hasStrategy
  | _ => false

/-- `dnsRuleModeFlags`. -/
structure ModeFlags where
  disabled : Bool := false
  needed : Bool := false
  neededFromStrategy : Bool := false

def ModeFlags.merge (f other : ModeFlags) : ModeFlags where
  disabled := f.disabled || other.disabled
  needed := f.needed || other.needed
  neededFromStrategy := f.neededFromStrategy || other.neededFromStrategy

abbrev Sets (τ : Type) := τ → Option RuleSetMetadata

def lookupDNSRuleSetMetadata (sets : Sets τ) (tag : τ) : Except (RuleError τ) RuleSetMetadata :=
  match sets tag with
  | some metadata => .ok metadata
  | none => .error (.ruleSetNotFound tag)

/-- The loop over the rule sets of a default rule. -/
def ruleSetRequirements (sets : Sets τ) (matchSource : Bool) : List τ → ModeFlags → Except (RuleError τ) ModeFlags
  | [], flags => .ok flags
  | tag :: tags, flags =>
    match lookupDNSRuleSetMetadata sets tag with
    | .error e => .error e
    | .ok metadata =>
      ruleSetRequirements sets matchSource tags
        { flags with
          disabled := flags.disabled || metadata.containsDNSQueryTypeRule
          needed := flags.needed || !matchSource && metadata.containsIPCIDRRule }

def dnsRuleModeRequirementsInDefaultRule (sets : Sets τ) (rule : DefaultDNSRule τ) (action : DNSRuleAction τ μ ο) :
    Except (RuleError τ) ModeFlags :=
  ruleSetRequirements sets rule.ruleSetIPCIDRMatchSource rule.ruleSet
    { disabled := defaultRuleDisablesLegacyDNSMode rule action.action || dnsRuleActionDisablesLegacyDNSMode action
      needed := defaultRuleNeedsLegacyDNSModeFromAddressFilter rule || dnsRuleActionHasStrategy action.action
      neededFromStrategy := dnsRuleActionHasStrategy action.action }

def logicalRuleFlags (action : DNSRuleAction τ μ ο) : ModeFlags where
  disabled := action.action.isEvaluate || action.action.isRespond || dnsRuleActionDisablesLegacyDNSMode action
  needed := dnsRuleActionHasStrategy action.action
  neededFromStrategy := dnsRuleActionHasStrategy action.action

mutual

def dnsRuleModeRequirementsInRule (sets : Sets τ) : DNSRule τ μ ο → Except (RuleError τ) ModeFlags
  | .default rule action => dnsRuleModeRequirementsInDefaultRule sets rule action
  | .logical rules action => subRuleRequirements sets rules 0 (logicalRuleFlags action)

/-- The loop over the sub-rules of a logical rule. -/
def subRuleRequirements (sets : Sets τ) : List (DNSRule τ μ ο) → ℕ → ModeFlags → Except (RuleError τ) ModeFlags
  | [], _, flags => .ok flags
  | rule :: rules, i, flags =>
    match dnsRuleModeRequirementsInRule sets rule with
    | .error e => .error (.inSubRule i e)
    | .ok subFlags => subRuleRequirements sets rules (i + 1) (flags.merge subFlags)

end

def ruleRequirements (sets : Sets τ) : List (DNSRule τ μ ο) → ℕ → ModeFlags → Except (RuleError τ) ModeFlags
  | [], _, flags => .ok flags
  | rule :: rules, i, flags =>
    match dnsRuleModeRequirementsInRule sets rule with
    | .error e => .error (.inRule i e)
    | .ok ruleFlags => ruleRequirements sets rules (i + 1) (flags.merge ruleFlags)

def dnsRuleModeRequirements (sets : Sets τ) (rules : List (DNSRule τ μ ο)) : Except (RuleError τ) ModeFlags :=
  ruleRequirements sets rules 0 {}

def resolveLegacyDNSMode (sets : Sets τ) (rules : List (DNSRule τ μ ο)) : Except (RuleError τ) (Bool × ModeFlags) :=
  match dnsRuleModeRequirements sets rules with
  | .error e => .error e
  | .ok flags =>
    if flags.disabled && flags.neededFromStrategy then .error .legacyStrategy
    else if flags.disabled then .ok (false, flags)
    else .ok (flags.needed, flags)

/-! ### The checks on a rule list -/

/-- `dnsRuleResponseUse`. -/
structure ResponseUse (τ : Type) where
  needsAnonymous : Bool := false
  referencedTags : List τ := []

/-- The check of the rule sets of a rule without `match_response`: no set of addresses alone. -/
def validateRuleSets (sets : Sets τ) : List τ → Except (RuleError τ) Unit
  | [] => .ok ()
  | tag :: tags =>
    match lookupDNSRuleSetMetadata sets tag with
    | .error e => .error e
    | .ok metadata =>
      if metadata.containsIPCIDRRule && !metadata.containsNonIPCIDRRule then .error .legacyAddressFilter
      else validateRuleSets sets tags

/-- What a default rule that passed the checks reads. -/
def defaultRuleResponseUse (rule : DefaultDNSRule τ) (action : RuleAction τ μ ο) : ResponseUse τ where
  needsAnonymous :=
    rule.matchResponse.isEnabled && rule.matchResponse.responseTag.isNone ||
      action.isRespond && rule.matchResponse.responseTag.isNone
  referencedTags := rule.matchResponse.responseTag.toList

def validateLegacyDNSModeDisabledDefaultRule (sets : Sets τ) (rule : DefaultDNSRule τ) (action : RuleAction τ μ ο) :
    Except (RuleError τ) (ResponseUse τ) :=
  if (hasResponseMatchFields rule || rule.ipCIDR || rule.ipIsPrivate || rule.ipAcceptAny) &&
      !rule.matchResponse.isEnabled then .error .responseMatchFields
  else match (if rule.matchResponse.isEnabled then .ok () else validateRuleSets sets rule.ruleSet) with
    | .error e => .error e
    | .ok () => if rule.ruleSetIPCIDRAcceptEmpty then .error .acceptEmpty else .ok (defaultRuleResponseUse rule action)

mutual

def validateLegacyDNSModeDisabledRuleTree (sets : Sets τ) : DNSRule τ μ ο → Except (RuleError τ) (ResponseUse τ)
  | .default rule action => validateLegacyDNSModeDisabledDefaultRule sets rule action.action
  | .logical rules action =>
    match validateSubRules sets rules 0 {} with
    | .error e => .error e
    | .ok use =>
      if action.action.isRespond then
        if use.referencedTags.isEmpty then .ok { use with needsAnonymous := true } else .error .respondOnLogical
      else .ok use

def validateSubRules (sets : Sets τ) : List (DNSRule τ μ ο) → ℕ → ResponseUse τ → Except (RuleError τ) (ResponseUse τ)
  | [], _, use => .ok use
  | rule :: rules, i, use =>
    match validateLegacyDNSModeDisabledRuleTree sets rule with
    | .error e => .error (.inSubRule i e)
    | .ok subUse =>
      validateSubRules sets rules (i + 1)
        { needsAnonymous := use.needsAnonymous || subUse.needsAnonymous
          referencedTags := use.referencedTags ++ subUse.referencedTags }

end

inductive RuleWarning (τ : Type) where
  /-- `speculative` has no effect without a preceding `race` rule -/
  | speculativeNoEffect (index : ℕ)
  /-- evaluated response is overwritten before any use -/
  | overwritten (index next : ℕ)
  /-- evaluate tag is never referenced -/
  | neverReferenced (tag : τ)

/-- The variables of the loop of `validateLegacyDNSModeDisabledRules`. -/
structure ValidateState (τ : Type) where
  warnings : List (RuleWarning τ) := []
  seenAnonymousEvaluate : Bool := false
  seenRace : Bool := false
  definedTags : List τ := []
  referencedTags : List τ := []
  lastAnonymousEvaluate : Option ℕ := none
  anonymousReadSinceLast : Bool := false

def dnsRuleActionSpeculative (rule : DNSRule τ μ ο) : Bool :=
  match rule.action.action with
  | .route _ speculative _ => speculative
  | .evaluate _ _ speculative _ => speculative
  | _ => false

section Validate

variable [DecidableEq τ]

def undefinedTag (definedTags : List τ) : List τ → Option τ
  | [] => none
  | tag :: tags => if definedTags.contains tag then undefinedTag definedTags tags else some tag

def validateEvaluate (s : ValidateState τ) (i : ℕ) : Option τ → Except (RuleError τ) (ValidateState τ)
  | none =>
    let warnings := match s.lastAnonymousEvaluate with
      | some last => if s.anonymousReadSinceLast then s.warnings else s.warnings ++ [.overwritten last i]
      | none => s.warnings
    .ok { s with
      warnings := warnings
      seenAnonymousEvaluate := true
      lastAnonymousEvaluate := some i
      anonymousReadSinceLast := false }
  | some tag =>
    if s.definedTags.contains tag then .error (.inRule i (.duplicateTag tag))
    else .ok { s with definedTags := s.definedTags ++ [tag] }

def validateRule (sets : Sets τ) (s : ValidateState τ) (i : ℕ) (rule : DNSRule τ μ ο) :
    Except (RuleError τ) (ValidateState τ) :=
  match validateLegacyDNSModeDisabledRuleTree sets rule with
  | .error e => .error (.inRule i e)
  | .ok use =>
    if use.needsAnonymous && !s.seenAnonymousEvaluate then
      .error (.inRule i (.noEvaluate (!s.definedTags.isEmpty)))
    else match undefinedTag s.definedTags use.referencedTags with
      | some tag => .error (.inRule i (.undefinedTag tag))
      | none =>
        let s := { s with
          warnings := s.warnings ++
            if dnsRuleActionSpeculative rule && !s.seenRace then [.speculativeNoEffect i] else []
          seenRace := s.seenRace || rule.action.race
          anonymousReadSinceLast := s.anonymousReadSinceLast || use.needsAnonymous
          referencedTags := s.referencedTags ++ use.referencedTags }
        match rule.action.action with
        | .evaluate _ tag _ _ => validateEvaluate s i tag
        | _ => .ok s

def validateLoop (sets : Sets τ) : List (DNSRule τ μ ο) → ℕ → ValidateState τ → Except (RuleError τ) (ValidateState τ)
  | [], _, s => .ok s
  | rule :: rules, i, s =>
    match validateRule sets s i rule with
    | .error e => .error e
    | .ok s => validateLoop sets rules (i + 1) s

def validateLegacyDNSModeDisabledRules (sets : Sets τ) (rules : List (DNSRule τ μ ο)) :
    Except (RuleError τ) (List (RuleWarning τ)) :=
  match validateLoop sets rules 0 {} with
  | .error e => .error e
  | .ok s =>
    .ok (s.warnings ++ (s.definedTags.filter fun tag => !s.referencedTags.contains tag).map .neverReferenced)

end Validate

/-! ### What a rule is bound to -/

def DNSRule.evaluateTag (rule : DNSRule τ μ ο) : Option τ :=
  match rule.action.action with
  | .evaluate _ tag _ _ => tag
  | _ => none

section Bindings

variable [DecidableEq τ]

mutual

def DNSRule.matchResponseTags : DNSRule τ μ ο → List τ
  | .default rule _ => rule.matchResponse.responseTag.toList
  | .logical rules _ => (subRuleTags rules).eraseDups

def subRuleTags : List (DNSRule τ μ ο) → List τ
  | [] => []
  | rule :: rules => rule.matchResponseTags ++ subRuleTags rules

end

mutual

def DNSRule.matchResponseAnonymous : DNSRule τ μ ο → Bool
  | .default rule _ => rule.matchResponse.isEnabled && rule.matchResponse.responseTag.isNone
  | .logical rules _ => anySubRuleAnonymous rules

def anySubRuleAnonymous : List (DNSRule τ μ ο) → Bool
  | [] => false
  | rule :: rules => rule.matchResponseAnonymous || anySubRuleAnonymous rules

end

/-- `MatchResponseTag`: only a default rule has one. -/
def DNSRule.matchResponseTag : DNSRule τ μ ο → Option τ
  | .default rule _ => rule.matchResponse.responseTag
  | .logical _ _ => none

end Bindings

end SingBox.Dns
