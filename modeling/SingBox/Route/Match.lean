import Mathlib.Data.BitVec
import SingBox.Lib.BoolTree

/-!
# Rule matching

The matching of `route/rule`: the items that look at addresses, the groups of a default rule, default and
logical rules, and rule sets of headless rules.

The source threads one `InboundContext` through all of it.  Here the part that a match never writes is
`Metadata`, and the part it saves, resets and restores is `Cache`; a match takes a cache and returns it with its
verdict.  `Ignore` in `Metadata` is set for the whole of a match, never inside one.

Addresses are of any type `α`, and `ε` is whatever the items read that do not look at addresses (the domain,
the ports, the inbound, ...).
-/

namespace SingBox.Route

open SingBox.Lib

variable {ε α : Type}

/-! ### Metadata -/

/-- A record of a DNS answer: the address of an A or AAAA record if it is valid, the hints of an HTTPS record. -/
inductive Record (α : Type) where
  | a (addr : Option α)
  | aaaa (addr : Option α)
  | https (hints : List (Option α))
  | other

def Record.addresses : Record α → List α
  | .a addr => addr.toList
  | .aaaa addr => addr.toList
  | .https hints => hints.flatMap Option.toList
  | .other => []

/-- A DNS response, as far as address items read it. -/
structure DNSResponse (α : Type) where
  rcodeSuccess : Bool
  answer : List (Record α)

def dnsResponseAddresses : Option (DNSResponse α) → List α
  | none => []
  | some response => if response.rcodeSuccess then response.answer.flatMap Record.addresses else []

/-- The part of an `InboundContext` that a match only reads. -/
structure Metadata (ε α : Type) where
  env : ε
  source : α
  /-- The destination, when it is an address. -/
  destination : Option α
  destinationAddresses : List α
  dnsResponse : Option (DNSResponse α)
  destinationAddressMatchFromResponse : Bool
  ignoreDestinationIPCIDRMatch : Bool

structure Cache where
  ipCIDRMatchSource : Bool
  ipCIDRAcceptEmpty : Bool
  deferredIPCIDRMatchGroups : BitVec 8
  deriving DecidableEq

def Cache.resetRuleMatchCache (c : Cache) : Cache := { c with deferredIPCIDRMatchGroups := 0 }

def Cache.resetRuleCache (c : Cache) : Cache :=
  { c with ipCIDRMatchSource := false, ipCIDRAcceptEmpty := false }.resetRuleMatchCache

/-! ### Items -/

inductive SourceAddressItem (α : Type) where
  | ipCIDR (contains : α → Bool)
  | ipIsPrivate (isPublicAddr : α → Bool)

/-- The items that look at the destination address. -/
inductive DestinationIPCIDRItem (α : Type) where
  | ipCIDR (contains : α → Bool)
  | ipIsPrivate (isPublicAddr : α → Bool)
  | ipAcceptAny

def SourceAddressItem.match (m : Metadata ε α) : SourceAddressItem α → Bool
  | .ipCIDR contains => contains m.source
  | .ipIsPrivate isPublicAddr => !isPublicAddr m.source

def DestinationIPCIDRItem.match (m : Metadata ε α) (c : Cache) : DestinationIPCIDRItem α → Bool
  | .ipCIDR contains =>
    if c.ipCIDRMatchSource then contains m.source
    else if m.destinationAddressMatchFromResponse then
      let addresses := dnsResponseAddresses m.dnsResponse
      if addresses.isEmpty then c.ipCIDRAcceptEmpty else addresses.any contains
    else match m.destination with
      | some addr => contains addr
      | none =>
        if m.destinationAddresses.isEmpty then c.ipCIDRAcceptEmpty else m.destinationAddresses.any contains
  | .ipIsPrivate isPublicAddr =>
    if m.destinationAddressMatchFromResponse then
      (dnsResponseAddresses m.dnsResponse).any fun addr => !isPublicAddr addr
    else match m.destination with
      | some addr => !isPublicAddr addr
      | none => m.destinationAddresses.any fun addr => !isPublicAddr addr
  | .ipAcceptAny =>
    if m.destinationAddressMatchFromResponse then !(dnsResponseAddresses m.dnsResponse).isEmpty
    else !m.destinationAddresses.isEmpty

/-! ### Groups -/

/-- The groups of a default rule; an item of each group a rule has must match. -/
inductive Group where
  | sourceAddress
  | sourcePort
  | destinationAddress
  | destinationPort
  deriving DecidableEq

/-- The bit of a group in a `ruleMatchState`. -/
def Group.bit : Group → BitVec 8
  | .sourceAddress => 1
  | .sourcePort => 2
  | .destinationAddress => 4
  | .destinationPort => 8

/-- `ruleGroupMatch`. -/
structure GroupMatch where
  required : BitVec 8 := 0
  satisfied : BitVec 8 := 0

def GroupMatch.done (g : GroupMatch) : Bool := g.required &&& ~~~g.satisfied == 0

def GroupMatch.mergeWith (g other : GroupMatch) : GroupMatch where
  required := g.required ||| other.required
  satisfied := g.satisfied ||| other.satisfied

/-- `has` on the satisfied groups. -/
def GroupMatch.has (g : GroupMatch) (group : Group) : Bool := g.satisfied &&& group.bit != 0

/-- One step of `evaluateGroups`: a group is required, and satisfied if `hit`. -/
def GroupMatch.require (g : GroupMatch) (group : Group) (hit : Bool) : GroupMatch where
  required := g.required ||| group.bit
  satisfied := if hit then g.satisfied ||| group.bit else g.satisfied

/-! ### Default rules -/

/-- `abstractDefaultRule`, without its rule-set item.  Items that do not look at addresses are functions of the
environment. -/
structure Default (ε α : Type) where
  items : List (ε → Bool) := []
  sourceAddressItems : List (SourceAddressItem α) := []
  sourcePortItems : List (ε → Bool) := []
  destinationAddressItems : List (ε → Bool) := []
  destinationIPCIDRItems : List (DestinationIPCIDRItem α) := []
  destinationPortItems : List (ε → Bool) := []
  invert : Bool := false

/-- No items: `allItems` is empty. -/
def Default.isEmpty (r : Default ε α) : Bool :=
  r.items.isEmpty && r.sourceAddressItems.isEmpty && r.sourcePortItems.isEmpty &&
    r.destinationAddressItems.isEmpty && r.destinationIPCIDRItems.isEmpty && r.destinationPortItems.isEmpty

def Default.destinationIPCIDRMatchesSource (r : Default ε α) (c : Cache) : Bool :=
  c.ipCIDRMatchSource && !r.destinationIPCIDRItems.isEmpty

def Default.destinationIPCIDRMatchesDestination (r : Default ε α) (m : Metadata ε α) (c : Cache) : Bool :=
  !m.ignoreDestinationIPCIDRMatch && !c.ipCIDRMatchSource && !r.destinationIPCIDRItems.isEmpty

/-- Whether `evaluateGroups` defers the address items of a rule until there is a response. -/
def Default.defers (r : Default ε α) (m : Metadata ε α) (c : Cache) : Bool :=
  m.ignoreDestinationIPCIDRMatch && !c.ipCIDRMatchSource && !r.destinationIPCIDRItems.isEmpty &&
    r.destinationAddressItems.isEmpty

/-- A group whose items are listed under it. -/
def GroupMatch.judge {β : Type} (g : GroupMatch) (group : Group) (items : List β) (hit : β → Bool) : GroupMatch :=
  if items.isEmpty then g else g.require group (items.any hit)

def Default.evaluateGroups (r : Default ε α) (m : Metadata ε α) (c : Cache) : GroupMatch × Cache :=
  let anyIPCIDR := r.destinationIPCIDRItems.any (·.match m c)
  let groups : GroupMatch := {}
  let groups := groups.judge .sourceAddress r.sourceAddressItems (·.match m)
  let groups := if r.destinationIPCIDRMatchesSource c then
    groups.require .sourceAddress (!groups.has .sourceAddress && anyIPCIDR) else groups
  let groups := groups.judge .sourcePort r.sourcePortItems (· m.env)
  let groups := groups.judge .destinationAddress r.destinationAddressItems (· m.env)
  let groups := if r.destinationIPCIDRMatchesDestination m c then
    groups.require .destinationAddress (!groups.has .destinationAddress && anyIPCIDR) else groups
  let groups := groups.judge .destinationPort r.destinationPortItems (· m.env)
  let c := if r.defers m c then
    { c with deferredIPCIDRMatchGroups := c.deferredIPCIDRMatchGroups ||| Group.destinationAddress.bit } else c
  (groups, c)

def Default.itemsMatch (r : Default ε α) (m : Metadata ε α) : Bool := r.items.all (· m.env)

def Default.evaluateForMerge (r : Default ε α) (m : Metadata ε α) (c : Cache) : Option GroupMatch × Cache :=
  let (groups, c) := r.evaluateGroups m c
  (if r.itemsMatch m then some groups else none, c)

/-- `DeferredIPCIDRMatchGroups &^= groups`. -/
def Cache.clearDeferred (c : Cache) (groups : BitVec 8) : Cache :=
  { c with deferredIPCIDRMatchGroups := c.deferredIPCIDRMatchGroups &&& ~~~groups }

/-- `DeferredIPCIDRMatchGroups |= groups`. -/
def Cache.addDeferred (c : Cache) (groups : BitVec 8) : Cache :=
  { c with deferredIPCIDRMatchGroups := c.deferredIPCIDRMatchGroups ||| groups }

/-- `matchInner`; `ruleSet` is the `matchWithOuterGroups` of the rule's rule-set item, if it has one. -/
def Default.matchInner (r : Default ε α) (ruleSet : Option (Cache → GroupMatch → Bool × Cache))
    (m : Metadata ε α) (c : Cache) : Bool × Cache :=
  let (groups, c) := r.evaluateGroups m c
  if r.itemsMatch m then
    let (matched, c) := match ruleSet with
      | some matchWithOuterGroups => matchWithOuterGroups c groups
      | none => (groups.done, c)
    (matched, if matched then c.clearDeferred groups.satisfied else c)
  else (false, c)

def Default.match (r : Default ε α) (ruleSet : Option (Cache → GroupMatch → Bool × Cache))
    (m : Metadata ε α) (c : Cache) : Bool × Cache :=
  if r.isEmpty && ruleSet.isNone then (true, c)
  else
    let (matched, c) := r.matchInner ruleSet m c
    if r.invert then
      if matched then (c.deferredIPCIDRMatchGroups != 0, c)
      else (true, { c with deferredIPCIDRMatchGroups := 0 })
    else (matched, c)

/-! ### Logical rules -/

/-- The loop that looks for a rule that matches and leaves nothing deferred: with whether one has matched so far,
and the groups deferred so far. -/
def matchAnyLoop {R : Type} (matchRule : R → Cache → Bool × Cache) : List R → Cache → Bool → BitVec 8 → Bool × BitVec 8
  | [], _, matched, deferredGroups => (matched, deferredGroups)
  | rule :: rules, c, matched, deferredGroups =>
    let (ruleMatched, c) := matchRule rule c
    if ruleMatched then
      if c.deferredIPCIDRMatchGroups == 0 then (true, 0)
      else matchAnyLoop matchRule rules c true (deferredGroups ||| c.deferredIPCIDRMatchGroups)
    else matchAnyLoop matchRule rules c matched deferredGroups

section Logical

variable {L : Type} (leaf : L → Cache → Bool × Cache)

mutual

/-- The `Match` of a rule: of `abstractLogicalRule`, or `leaf` for a default rule.  The cache is restored from the
snapshot, which is the cache at the start. -/
def matchTree : BoolTree L → Cache → Bool × Cache
  | .default rule, c => leaf rule c
  | .logical mode rules invert, c =>
    let (matched, deferredGroups) := match mode with
      | .and => matchAnd rules c 0
      | .or => matchOr rules c false 0
    let c := if matched then c.addDeferred deferredGroups else c
    (if invert then !matched || deferredGroups != 0 else matched, c)

/-- The loop of an `and` rule, with the deferred groups so far. -/
def matchAnd : List (BoolTree L) → Cache → BitVec 8 → Bool × BitVec 8
  | [], _, deferredGroups => (true, deferredGroups)
  | rule :: rules, c, deferredGroups =>
    let (matched, c) := matchTree rule c.resetRuleCache
    if matched then matchAnd rules c (deferredGroups ||| c.deferredIPCIDRMatchGroups) else (false, 0)

/-- The loop of an `or` rule: `matchAnyLoop` on its sub-rules. -/
def matchOr : List (BoolTree L) → Cache → Bool → BitVec 8 → Bool × BitVec 8
  | [], _, matched, deferredGroups => (matched, deferredGroups)
  | rule :: rules, c, matched, deferredGroups =>
    let (ruleMatched, c) := matchTree rule c.resetRuleCache
    if ruleMatched then
      if c.deferredIPCIDRMatchGroups == 0 then (true, 0)
      else matchOr rules c true (deferredGroups ||| c.deferredIPCIDRMatchGroups)
    else matchOr rules c matched deferredGroups

end

end Logical

/-! ### Rule sets -/

def DestinationIPCIDRItem.isIPCIDR : DestinationIPCIDRItem α → Bool
  | .ipCIDR _ => true
  | _ => false

/-- `DefaultHeadlessRule`: it has no rule-set item, and of the items that look at the destination address only
`ip_cidr`. -/
structure HeadlessDefault (ε α : Type) extends Default ε α where
  only_ipCIDR : destinationIPCIDRItems.all (·.isIPCIDR) = true

/-- The headless rule with one `ip_cidr` item, for one address. -/
def cidrRule [BEq α] (addr : α) : HeadlessDefault ε α where
  destinationIPCIDRItems := [.ipCIDR (· == addr)]
  only_ipCIDR := rfl

abbrev RuleSet (ε α : Type) := List (BoolTree (HeadlessDefault ε α))

def HeadlessDefault.match (r : HeadlessDefault ε α) (m : Metadata ε α) (c : Cache) : Bool × Cache :=
  r.toDefault.match none m c

def mergeableRuleIn : RuleSet ε α → Option (HeadlessDefault ε α)
  | [.default rule] => if rule.invert then none else some rule
  | _ => none

def matchAnyHeadlessRule (rules : RuleSet ε α) (m : Metadata ε α) (c : Cache) : Bool × Cache :=
  let matchRule := fun rule c => matchTree (HeadlessDefault.match · m) rule (Cache.resetRuleMatchCache c)
  let (matched, deferredGroups) := matchAnyLoop matchRule rules c false 0
  (matched, if matched then c.addDeferred deferredGroups else c)

structure RuleSetItem (ε α : Type) where
  setList : List (RuleSet ε α)
  ipCidrMatchSource : Bool := false
  ipCidrAcceptEmpty : Bool := false

def RuleSetItem.prepareNestedMatch (r : RuleSetItem ε α) (c : Cache) : Cache :=
  { c.resetRuleMatchCache with
    ipCIDRMatchSource := r.ipCidrMatchSource, ipCIDRAcceptEmpty := r.ipCidrAcceptEmpty }

/-- What one set says in `matchWithOuterGroups`: no match, a match with the groups it leaves deferred, and, if it
was merged with the outer rule, the groups satisfied together. -/
def RuleSetItem.matchSet (r : RuleSetItem ε α) (m : Metadata ε α) (outerGroups : GroupMatch)
    (ruleSet : RuleSet ε α) (c : Cache) : Option (BitVec 8 × BitVec 8) × Cache :=
  let c := r.prepareNestedMatch c
  match mergeableRuleIn ruleSet with
  | some branch =>
    let (branchGroups, c) := branch.evaluateForMerge m c
    match branchGroups with
    | some branchGroups =>
      let merged := outerGroups.mergeWith branchGroups
      (if merged.done then some (c.deferredIPCIDRMatchGroups &&& ~~~merged.satisfied, merged.satisfied)
        else none, c)
    | none => (none, c)
  | none =>
    if outerGroups.done then
      let (matched, c) := matchAnyHeadlessRule ruleSet m c
      (if matched then some (c.deferredIPCIDRMatchGroups, 0) else none, c)
    else (none, c)

/-- The loop of `matchWithOuterGroups`; `snapshot` is the cache at its start. -/
def RuleSetItem.matchSets (r : RuleSetItem ε α) (m : Metadata ε α) (outerGroups : GroupMatch) (snapshot : Cache) :
    List (RuleSet ε α) → Cache → Bool → BitVec 8 → Bool × Cache
  | [], _, matched, deferredGroups => (matched, if matched then snapshot.addDeferred deferredGroups else snapshot)
  | ruleSet :: setList, c, matched, deferredGroups =>
    let (verdict, c) := r.matchSet m outerGroups ruleSet c
    match verdict with
    | some (setDeferred, satisfied) =>
      if setDeferred == 0 then (true, snapshot.clearDeferred satisfied)
      else r.matchSets m outerGroups snapshot setList c true (deferredGroups ||| setDeferred)
    | none => r.matchSets m outerGroups snapshot setList c matched deferredGroups

def RuleSetItem.matchWithOuterGroups (r : RuleSetItem ε α) (m : Metadata ε α) (c : Cache)
    (outerGroups : GroupMatch) : Bool × Cache :=
  r.matchSets m outerGroups c r.setList c false 0

/-! ### Rules -/

/-- A default rule of the router or of the DNS router. -/
structure DefaultRule (ε α : Type) extends Default ε α where
  ruleSetItem : Option (RuleSetItem ε α) := none

def DefaultRule.match (r : DefaultRule ε α) (m : Metadata ε α) (c : Cache) : Bool × Cache :=
  r.toDefault.match (r.ruleSetItem.map fun item => item.matchWithOuterGroups m) m c

/-- A rule: a default rule, or a logical rule of any nesting. -/
abbrev Rule (ε α : Type) := BoolTree (DefaultRule ε α)

def Rule.match (r : Rule ε α) (m : Metadata ε α) (c : Cache) : Bool × Cache :=
  matchTree (DefaultRule.match · m) r c

end SingBox.Route
