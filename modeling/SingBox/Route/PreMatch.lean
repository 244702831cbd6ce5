import SingBox.Route.Judge

/-!
# The pre-match of DNS rules

Before a DNS query is sent, the router asks of each rule whether it may match, with its address items ignored
(`LegacyPreMatch`), and judges it again when the response is there (`MatchAddressLimit`).  A rule that will match
should pass.
-/

namespace SingBox.Route

open SingBox.Lib

variable {ε α : Type}

/-- The metadata while the address items are ignored. -/
def Metadata.ignoring (m : Metadata ε α) : Metadata ε α := { m with ignoreDestinationIPCIDRMatch := true }

/-- The metadata with the response whose addresses are matched. -/
def Metadata.answeredBy (m : Metadata ε α) (response : DNSResponse α) : Metadata ε α :=
  { m with dnsResponse := some response, destinationAddressMatchFromResponse := true }

/-- `LegacyPreMatch` of a DNS rule without `match_response`.  The items that read the response itself need
`match_response`, so that no item but the address items sees whether there is a response. -/
def Rule.legacyPreMatch (r : Rule ε α) (m : Metadata ε α) (c : Cache) : Bool := (r.match m.ignoring c).1

def Rule.matchAddressLimit (r : Rule ε α) (m : Metadata ε α) (response : DNSResponse α) (c : Cache) : Bool :=
  (r.match (m.answeredBy response) c.resetRuleCache).1

/-- A response that matches finds a rule that passed. -/
def Rule.PreMatchOk (r : Rule ε α) (m : Metadata ε α) (response : DNSResponse α) : Prop :=
  r.matchAddressLimit m response .fresh = true → r.legacyPreMatch m .fresh = true

/-- If the rule holds for the response, then it holds for some response with both slips: where none of the names of a
rule matches the query its address items do not count, and where one does, a set that is matched on its own counts as
soon as it may match. -/
def Rule.Spared (r : Rule ε α) (m : Metadata ε α) (response : DNSResponse α) : Prop :=
  r.Holds RuleSetItem.flags (m.answeredBy response) → ∃ other, r.Kept m.ignoring (m.answeredBy other)

variable {m : Metadata ε α}

lemma answered_ignoring (hm : m.ignoreDestinationIPCIDRMatch = false) (response : DNSResponse α) :
    Answered m.ignoring (m.answeredBy response) :=
  ⟨rfl, rfl, hm, fun h => by simp [Metadata.ignoring] at h⟩

lemma matchAddressLimit_iff (r : Rule ε α) (hm : m.ignoreDestinationIPCIDRMatch = false) (response : DNSResponse α)
    (c : Cache) : r.matchAddressLimit m response c = true ↔ r.Holds RuleSetItem.flags (m.answeredBy response) :=
  Rule.match_iff (m := m.answeredBy response) hm r

/-- A default rule without rule sets that passes and holds is not missed. -/
lemma Default.kept_of_passed {rule : Default ε α} {response : DNSResponse α}
    (hpass : Rule.legacyPreMatch (.default { toDefault := rule }) m .fresh = true)
    (hholds : DefaultRule.Holds RuleSetItem.flags { toDefault := rule } (m.answeredBy response)) :
    DefaultRule.Kept { toDefault := rule } m.ignoring (m.answeredBy response) := by
  have hj := Default.match_judged rfl (Default.matchInner_judged (r := rule) (m := m.ignoring) (c := .fresh) rfl)
  rw [Rule.legacyPreMatch, Rule.match, matchTree, DefaultRule.match, Option.map_none] at hpass
  have hreads := hj.told.matched.1 hpass
  unfold DefaultRule.Holds at hholds
  unfold DefaultRule.Kept
  simp only [DefaultRule.KeptConditions, DefaultRule.Conditions, Default.Kept, Option.isNone_none] at hholds hreads ⊢
  split
  · trivial
  next hempty =>
    rw [if_neg hempty] at hholds hreads
    cases hinv : rule.invert with
    | true =>
      rw [hinv, inverted_true] at hholds
      simp [hholds]
    | false =>
      rw [hinv, inverted_false] at hholds hreads
      refine ⟨hholds, ?_⟩
      rintro ⟨-, hne, hno⟩
      have hseen := Default.seen_destinationAddress (r := rule) (m := m.ignoring) (c := .fresh) rfl
      have htrue := hreads.2.1 .destinationAddress (by simp [hseen, hne])
      rw [hseen, List.mem_map] at htrue
      obtain ⟨name, hname, heq⟩ := htrue
      simp [hno name hname] at heq

/-- **A rule that matches the response has passed the pre-match**, when it holds for some response with both slips.
For a default rule that has no rule sets the condition is exact. -/
theorem preMatch_of_spared (r : Rule ε α) (m : Metadata ε α) (response : DNSResponse α)
    (hm : m.ignoreDestinationIPCIDRMatch = false) : (r.Spared m response → r.PreMatchOk m response) ∧
    ∀ rule : Default ε α, r = .default { toDefault := rule } → (r.PreMatchOk m response ↔ r.Spared m response) := by
  have hspared : r.Spared m response → r.PreMatchOk m response := by
    intro hs hlimit
    obtain ⟨other, hkept⟩ := hs ((matchAddressLimit_iff r hm response .fresh).1 hlimit)
    exact (Rule.match_judged (answered_ignoring hm other) r).1 hkept
  refine ⟨hspared, ?_⟩
  rintro rule rfl
  refine ⟨fun hok hholds => ⟨response, ?_⟩, hspared⟩
  have hpass := hok ((matchAddressLimit_iff _ hm response .fresh).2 hholds)
  rw [Rule.Holds, BoolTree.holds_default] at hholds
  rw [Rule.Kept, BoolTree.holds_default]
  exact Default.kept_of_passed hpass hholds

/-! ### Rules that are lost -/

/-- The query for the name 7. -/
def queryMetadata : Metadata ℕ ℕ where
  env := 7
  source := 1
  destination := none
  destinationAddresses := []
  dnsResponse := none
  destinationAddressMatchFromResponse := false
  ignoreDestinationIPCIDRMatch := false

def answerOf (addr : ℕ) : DNSResponse ℕ := ⟨true, [.a (some addr)]⟩

/-- The name 8 or the address 5. -/
def nameOrAddr : Rule ℕ ℕ :=
  .default { destinationAddressItems := [(· == 8)], destinationIPCIDRItems := [.ipCIDR (· == 5)] }

/-- Not both the name 7 and the address 5 or 6. -/
def notNameAndAddr : Rule ℕ ℕ :=
  .default {
    destinationAddressItems := [(· == 7)]
    ruleSetItem := some { setList := [[.default (cidrRule 5), .default (cidrRule 6)]] }
    invert := true }

/-- The address 5 matches the first rule, and the address 9 the second; neither passes the pre-match. -/
theorem preMatch_drops_rule : (nameOrAddr.matchAddressLimit queryMetadata (answerOf 5) .fresh = true ∧
      nameOrAddr.legacyPreMatch queryMetadata .fresh = false) ∧
    (notNameAndAddr.matchAddressLimit queryMetadata (answerOf 9) .fresh = true ∧
      notNameAndAddr.legacyPreMatch queryMetadata .fresh = false) := by decide

/-- The name 7, or as above. -/
def nameElse : Rule ℕ ℕ := .logical .or [.default { destinationAddressItems := [(· == 7)] }, nameOrAddr] false

/-- The name 7 is enough for both. -/
theorem nameElse_passes : nameElse.matchAddressLimit queryMetadata (answerOf 5) .fresh = true ∧
    nameElse.PreMatchOk queryMetadata (answerOf 5) := by
  refine ⟨by decide, (preMatch_of_spared nameElse queryMetadata (answerOf 5) rfl).1 fun _ => ⟨answerOf 5, ?_⟩⟩
  rw [Rule.Kept, nameElse, BoolTree.holds_or, inverted_false]
  refine ⟨_, List.mem_cons_self, ?_⟩
  rw [BoolTree.holds_default]
  refine ⟨⟨rfl, fun g => ?_⟩, by simp [Missed, queryMetadata, Metadata.ignoring]⟩
  cases g <;> decide

end SingBox.Route
