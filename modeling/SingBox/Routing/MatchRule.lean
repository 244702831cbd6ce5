import SingBox.Lib.GoString

/-!
# The rule loop of the router

What `matchRule` works on: the metadata of a connection, the actions of rules and what they do to the metadata.  The
loop itself (`Router.matchLoop`) is written once; how a sniff action reads from the connection is a parameter, a
stream for `routeConnection` and packets for `routePacketConnection`.

The fields of `InboundContext` come in two parts: `Context` is what rules, sniffers and the resolver look at,
`Metadata` adds what only the outbound reads later. -/

namespace SingBox.Routing

open SingBox.Lib

/-! ### Addresses -/

/-- The host of a `Socksaddr`: an address, a domain name, or neither. -/
inductive Host (α : Type) where
  | none
  | addr (addr : α)
  | fqdn (name : String)
  deriving DecidableEq

structure Socksaddr (α : Type) where
  host : Host α := .none
  port : ℕ := 0
  deriving DecidableEq

variable {α ω : Type}

/-- The address; not valid for a domain name. -/
def Socksaddr.addr (s : Socksaddr α) : Option α :=
  match s.host with
  | .addr addr => some addr
  | _ => none

/-- The domain name; empty for an address. -/
def Socksaddr.fqdn (s : Socksaddr α) : String :=
  match s.host with
  | .fqdn name => name
  | _ => ""

def Socksaddr.isDomain (s : Socksaddr α) : Bool := s.fqdn != ""

def Socksaddr.isValid (s : Socksaddr α) : Bool := s.addr.isSome || s.isDomain

/-! ### Metadata -/

inductive Network where
  | tcp | udp | icmp
  deriving DecidableEq

/-- The error of a sniffer, or of several: whether one of them asks for more data. -/
inductive SniffError where
  | needMoreData
  | other
  deriving DecidableEq

/-- What rules, sniffers and the resolver see of an `InboundContext`; the fields that the router does not look at are
in `other`. -/
structure Context (α ω : Type) where
  inbound : String := ""
  inboundType : String := ""
  inboundDetour : String := ""
  lastInbound : String := ""
  ipVersion : ℕ := 0
  network : Network
  destination : Socksaddr α
  originDestination : Socksaddr α := {}
  destinationAddresses : List α := []
  protocol : String := ""
  domain : String := ""
  snifferNames : List String := []
  sniffError : Option SniffError := none
  fakeIP : Bool := false
  udpTimeout : ℕ := 0
  other : ω

/-- `RuleActionRouteOptions`. -/
structure RouteOptions (α : Type) where
  overrideAddress : Socksaddr α := {}
  overridePort : ℕ := 0
  networkStrategy : Option ℕ := none
  networkType : List ℕ := []
  fallbackNetworkType : List ℕ := []
  fallbackDelay : ℕ := 0
  udpDisableDomainUnmapping : Bool := false
  udpConnect : Bool := false
  udpTimeout : ℕ := 0
  tlsFragment : Bool := false
  tlsFragmentFallbackDelay : ℕ := 0
  tlsRecordFragment : Bool := false
  tlsSpoof : String := ""
  tlsSpoofMethod : ℕ := 0

/-- `InboundContext`: the context, and what is set for the outbound. -/
structure Metadata (α ω : Type) extends Context α ω where
  routeOriginalDestination : Socksaddr α := {}
  networkStrategy : Option ℕ := none
  networkType : List ℕ := []
  fallbackNetworkType : List ℕ := []
  fallbackDelay : ℕ := 0
  udpDisableDomainUnmapping : Bool := false
  udpConnect : Bool := false
  tlsFragment : Bool := false
  tlsFragmentFallbackDelay : ℕ := 0
  tlsRecordFragment : Bool := false
  tlsSpoof : String := ""
  tlsSpoofMethod : ℕ := 0

def Context.applyRouteOptionsOverride (c : Context α ω) (options : RouteOptions α) : Context α ω :=
  let c := if options.overrideAddress.isValid then
    { c with destination := { c.destination with host := options.overrideAddress.host } } else c
  let c := if options.overridePort > 0 then
    { c with destination := { c.destination with port := options.overridePort } } else c
  if options.udpTimeout > 0 then { c with udpTimeout := options.udpTimeout } else c

/-- What `matchRule` does to the context for route options. -/
def Context.applyRouteOptions (c : Context α ω) (options : RouteOptions α) : Context α ω :=
  let c := if options.overrideAddress.isValid then { c with destinationAddresses := [] } else c
  c.applyRouteOptionsOverride options

/-- What it does to the metadata. -/
def Metadata.applyRouteOptions (m : Metadata α ω) (options : RouteOptions α) : Metadata α ω where
  toContext := m.toContext.applyRouteOptions options
  routeOriginalDestination :=
    if (options.overrideAddress.isValid || options.overridePort > 0) && !m.routeOriginalDestination.isValid then
      m.destination else m.routeOriginalDestination
  networkStrategy := options.networkStrategy.or m.networkStrategy
  networkType := if options.networkType ≠ [] then options.networkType else m.networkType
  fallbackNetworkType :=
    if options.fallbackNetworkType ≠ [] then options.fallbackNetworkType else m.fallbackNetworkType
  fallbackDelay := if options.fallbackDelay ≠ 0 then options.fallbackDelay else m.fallbackDelay
  udpDisableDomainUnmapping := options.udpDisableDomainUnmapping || m.udpDisableDomainUnmapping
  udpConnect := options.udpConnect || m.udpConnect
  tlsFragment := options.tlsFragment || m.tlsFragment
  tlsFragmentFallbackDelay :=
    if options.tlsFragment then options.tlsFragmentFallbackDelay else m.tlsFragmentFallbackDelay
  tlsRecordFragment := options.tlsRecordFragment || m.tlsRecordFragment
  tlsSpoof := if options.tlsSpoof ≠ "" then options.tlsSpoof else m.tlsSpoof
  tlsSpoofMethod := if options.tlsSpoof ≠ "" then options.tlsSpoofMethod else m.tlsSpoofMethod

/-! ### Sniffers -/

/-- What a sniffer sets: `Protocol`, `Domain`, and `Client` and `SniffContext` among the other fields. -/
structure Sniffed (ω : Type) where
  protocol : String
  domain : String
  other : ω

/-- A sniffer: what it says of some bytes, and what it sets. -/
abbrev Sniffer (α ω : Type) := Context α ω → GoString → Option SniffError × Sniffed ω

def Context.unsniffed (c : Context α ω) : Sniffed ω := ⟨c.protocol, c.domain, c.other⟩

def Context.withSniffed (c : Context α ω) (s : Sniffed ω) : Context α ω :=
  { c with protocol := s.protocol, domain := s.domain, other := s.other }

/-- `E.Errors`: no error if there is none. -/
def joinErrors (errors : List SniffError) : Option SniffError :=
  if errors = [] then none else if errors.contains .needMoreData then some .needMoreData else some .other

/-- `PeekPacket`, and the inner loop of `PeekStream`: the first sniffer that succeeds, or the errors of all. -/
def peek (bytes : GoString) : List (Sniffer α ω) → List SniffError → Context α ω → Option SniffError × Context α ω
  | [], errors, c => (joinErrors errors, c)
  | sniffer :: sniffers, errors, c =>
    match sniffer c bytes with
    | (none, s) => (none, c.withSniffed s)
    | (some e, s) => peek bytes sniffers (errors ++ [e]) (c.withSniffed s)

/-- `sniff.Skip`: the ports of protocols in which the server speaks first. -/
def Context.skip (c : Context α ω) : Bool := [25, 465, 587, 143, 993, 110, 995].contains c.destination.port

/-- `RuleActionSniff`. -/
structure SniffAction (α ω : Type) where
  snifferNames : List String := []
  streamSniffers : List (Sniffer α ω) := []
  packetSniffers : List (Sniffer α ω) := []
  timeout : ℕ := 0
  overrideDestination : Bool := false

/-! ### Actions and rules -/

/-- `RuleActionResolve`. -/
structure ResolveAction where
  server : String := ""
  timeout : ℕ := 0
  strategy : ℕ := 0
  disableCache : Bool := false
  disableOptimisticCache : Bool := false
  rewriteTTL : Option ℕ := none
  clientSubnet : String := ""

inductive RejectMethod where
  | default | drop | reply
  deriving DecidableEq

/-- `RuleActionRoute`: the rules of a router are refused if a route has no outbound. -/
structure RouteAction (α : Type) where
  outbound : String
  options : RouteOptions α := {}
  outbound_ne : outbound ≠ ""

inductive Action (α ω : Type) where
  | route (action : RouteAction α)
  | routeOptions (options : RouteOptions α)
  | bypass (outbound : String) (options : RouteOptions α)
  | direct
  | reject (method : RejectMethod) (noDrop : Bool)
  | hijackDNS
  | sniff (action : SniffAction α ω)
  | resolve (action : ResolveAction)

/-- A rule: whether it matches, which may depend on whether this is the pre-match, and its action. -/
structure Rule (α ω : Type) where
  isMatch : (preMatch : Bool) → Context α ω → Bool
  action : Action α ω

def Action.appliedOptions : Action α ω → Option (RouteOptions α)
  | .route action => some action.options
  | .routeOptions options => some options
  | .bypass outbound options => if outbound ≠ "" then some options else none
  | _ => none

/-! ### The router -/

inductive PreMatchAction where
  | continue | flow | reject | drop | bypass | hijackDNS
  deriving DecidableEq

/-- What an outbound is: a group, with the tag it has selected, one that takes flows, or neither. -/
inductive OutboundKind (α : Type) where
  | group (now : String)
  | flow (preMatchFlow : Network → Option α → PreMatchAction)
  | plain

structure Outbound (α : Type) where
  tag : String
  network : List Network
  kind : OutboundKind α

/-- What the FakeIP store says of an address. -/
inductive FakeIP where
  | notFake
  | missing
  | found (domain : String)

/-- The router, with the answers of what it asks. -/
structure Router (α ω : Type) where
  rules : List (Rule α ω)
  outbound : String → Option (Outbound α)
  default : Outbound α
  transports : List String
  /-- `r.dns.Lookup` -/
  lookup : ResolveAction → String → Option (List α)
  fakeIP : α → FakeIP
  lookupReverseMapping : Option α → Option String
  /-- `searchProcessInfo` and the neighbor resolver. -/
  search : Context α ω → ω
  is4 : α → Bool
  /-- `M.IsDomainName` -/
  isDomainName : String → Bool
  isDomainName_empty : isDomainName "" = false
  defaultStreamSniffers : List (Sniffer α ω)
  defaultPacketSniffers : List (Sniffer α ω)
  /-- `sniff.QUICClientHello` -/
  quicClientHello : Sniffer α ω
  packetSize : ℕ
  packetSize_pos : 0 < packetSize
  /-- The destinations of multiplexed connections, which are not supported. -/
  reserved : List String
  /-- Whether a reject action drops because of flooding. -/
  flooded : Bool

inductive RouteError where
  | missingFakeIP
  | serverNotFound (server : String)
  | lookup
  | read
  | canceled
  | outboundNotFound (tag : String)
  | networkNotSupported (tag : String)
  | rejected
  | replyNotSupported
  | detour
  | reserved
  | handshake
  deriving DecidableEq

variable (r : Router α ω)

def Router.prepareMatchMetadata (c : Context α ω) : Except RouteError (Context α ω) := do
  let c := { c with other := r.search c }
  let reverse : Context α ω :=
    if c.domain = "" then { c with domain := (r.lookupReverseMapping c.destination.addr).getD "" } else c
  let c ← match c.destination.addr with
    | none => .ok reverse
    | some addr =>
      match r.fakeIP addr with
      | .notFake => .ok reverse
      | .missing => .error .missingFakeIP
      | .found domain => .ok (if domain = "" then c else
          { c with originDestination := c.destination
                   destination := { c.destination with host := .fqdn domain }
                   fakeIP := true })
  return { c with ipVersion :=
    match c.destination.addr with
    | none => c.ipVersion
    | some addr => if r.is4 addr then 4 else 6 }

def Router.actionResolve (c : Context α ω) (action : ResolveAction) : Except RouteError (Context α ω) :=
  if c.destination.isDomain then
    if action.server ≠ "" ∧ !r.transports.contains action.server then .error (.serverNotFound action.server)
    else
      match r.lookup action c.destination.fqdn with
      | none => .error .lookup
      | some addresses => .ok { c with destinationAddresses := addresses }
  else .ok c

/-- The names and the error of a sniff action are noted. -/
def Context.noteSniff (c : Context α ω) (action : SniffAction α ω) (err : Option SniffError) : Context α ω :=
  { c with snifferNames := action.snifferNames, sniffError := err }

/-- The end of a sniff action that has succeeded. -/
def Router.overrideDestination (c : Context α ω) (action : SniffAction α ω) : Context α ω :=
  if action.overrideDestination && r.isDomainName c.domain then
    { c with destination := { c.destination with host := .fqdn c.domain } }
  else c

/-- The last sniff action had the same sniffers, and what came of it. -/
def Context.sniffedBy (c : Context α ω) (action : SniffAction α ω) : Option SniffError :=
  if c.snifferNames = action.snifferNames then c.sniffError else none

/-- `matchRule` returns. -/
structure Matched (α ω σ : Type) where
  metadata : Metadata α ω
  conn : σ
  selected : Option (Rule α ω × ℕ) := none
  fatalErr : Option RouteError := none

abbrev Sniff (α ω σ : Type) := SniffAction α ω → Context α ω → σ → Context α ω × σ × Option RouteError

variable {σ : Type}

/-- What a turn of the loop comes to: the next rule, or the end. -/
inductive Turn (α ω σ : Type) where
  | next (m : Metadata α ω) (s : σ)
  | stop (result : Matched α ω σ)

def Router.turn (sniff : Sniff α ω σ) (rule : Rule α ω) (i : ℕ) (m : Metadata α ω) (s : σ) : Turn α ω σ :=
  if !rule.isMatch false m.toContext then .next m s
  else
    let m := rule.action.appliedOptions.elim m m.applyRouteOptions
    match rule.action with
    | .sniff action =>
      match sniff action m.toContext s with
      | (c, s', some e) => .stop { metadata := { m with toContext := c }, conn := s', fatalErr := some e }
      | (c, s', none) => .next { m with toContext := c } s'
    | .resolve action =>
      match r.actionResolve m.toContext action with
      | .error e => .stop { metadata := m, conn := s, fatalErr := some e }
      | .ok c => .next { m with toContext := c } s
    | .route _ | .reject _ _ | .hijackDNS => .stop { metadata := m, conn := s, selected := some (rule, i) }
    | .bypass outbound _ =>
      if outbound = "" then .next m s else .stop { metadata := m, conn := s, selected := some (rule, i) }
    | .routeOptions _ | .direct => .next m s

def Router.matchLoop (sniff : Sniff α ω σ) : List (Rule α ω × ℕ) → Metadata α ω → σ → Matched α ω σ
  | [], m, s => { metadata := m, conn := s }
  | (rule, i) :: rules, m, s =>
    match r.turn sniff rule i m s with
    | .next m s => Router.matchLoop sniff rules m s
    | .stop result => result

def Router.matchRule (sniff : Sniff α ω σ) (m : Metadata α ω) (s : σ) : Matched α ω σ :=
  match r.prepareMatchMetadata m.toContext with
  | .error e => { metadata := m, conn := s, fatalErr := some e }
  | .ok c => r.matchLoop sniff r.rules.zipIdx { m with toContext := c } s

/-! ### The connection along the loop -/

/-- A sniff action that the loop runs. -/
def Rule.Sniffs (rule : Rule α ω) (action : SniffAction α ω) (m : Metadata α ω) : Prop :=
  rule.isMatch false m.toContext = true ∧ rule.action = .sniff action

def Turn.conn : Turn α ω σ → σ
  | .next _ s => s
  | .stop result => result.conn

variable {r}

/-- **What a turn does to the connection**: nothing, or what the sniff action of its rule does; if the loop ends with
the latter, this is because of an error. -/
theorem Router.turn_conn (sniff : Sniff α ω σ) (rule : Rule α ω) (i : ℕ) (m : Metadata α ω) (s : σ) :
    (r.turn sniff rule i m s).conn = s ∧ (∀ action, ¬rule.Sniffs action m) ∨
      ∃ action, rule.Sniffs action m ∧ (r.turn sniff rule i m s).conn = (sniff action m.toContext s).2.1 ∧
        ∀ result, r.turn sniff rule i m s = .stop result → result.fatalErr ≠ none := by
  have hother (h : ∀ action, rule.action ≠ .sniff action) : ∀ action, ¬rule.Sniffs action m :=
    fun action ha => h action ha.2
  rw [Router.turn]
  split
  next hno => exact Or.inl ⟨rfl, fun action ha => by simp [ha.1] at hno⟩
  next hm =>
    cases ha : rule.action with
    | sniff action =>
      refine Or.inr ⟨action, ⟨by simpa using hm, ha⟩, ?_⟩
      simp only [Action.appliedOptions, Option.elim_none]
      split
      next heq =>
        rw [heq]
        refine ⟨rfl, fun result h => ?_⟩
        cases h
        simp
      next heq =>
        rw [heq]
        exact ⟨rfl, fun result h => by cases h⟩
    | resolve action | bypass outbound options =>
      refine Or.inl ⟨?_, hother (by simp [ha])⟩
      dsimp only
      split <;> rfl
    | route action | reject method noDrop | hijackDNS | routeOptions options | direct =>
      exact Or.inl ⟨rfl, hother (by simp [ha])⟩

variable {sniff : Sniff α ω σ}

/-- What every sniff action keeps, the loop keeps. -/
lemma Router.matchLoop_conn {I : σ → Prop}
    (hsniff : ∀ action c s, I s → I (sniff action c s).2.1) (rules : List (Rule α ω × ℕ)) :
    ∀ (m : Metadata α ω) {s : σ}, I s → I (r.matchLoop sniff rules m s).conn := by
  induction rules with
  | nil =>
    intro m s h
    exact h
  | cons ri rules ih =>
    intro m s h
    have hturn : I (r.turn sniff ri.1 ri.2 m s).conn := by
      rcases Router.turn_conn sniff ri.1 ri.2 m s with ⟨hs, -⟩ | ⟨action, -, hs, -⟩
      · rwa [hs]
      · rw [hs]
        exact hsniff action _ _ h
    rw [Router.matchLoop]
    split
    next m' s' heq =>
      rw [heq] at hturn
      exact ih m' hturn
    next result heq =>
      rw [heq] at hturn
      exact hturn

lemma Router.matchRule_conn {I : σ → Prop}
    (hsniff : ∀ action c s, I s → I (sniff action c s).2.1) (m : Metadata α ω) {s : σ} (h : I s) :
    I (r.matchRule sniff m s).conn := by
  rw [Router.matchRule]
  split
  · exact h
  · exact Router.matchLoop_conn hsniff _ _ h

section Condition

variable (r)

/-- Every sniff action that the loop runs meets a condition on the context and the connection before it. -/
def Router.SniffAll (sniff : Sniff α ω σ) (C : SniffAction α ω → Context α ω → σ → Prop) :
    List (Rule α ω × ℕ) → Metadata α ω → σ → Prop
  | [], _, _ => True
  | (rule, i) :: rules, m, s =>
    (∀ action, rule.Sniffs action m → C action m.toContext s) ∧
      ∀ m' s', r.turn sniff rule i m s = .next m' s' → Router.SniffAll sniff C rules m' s'

/-- Every one that `matchRule` runs. -/
def Router.EverySniff (sniff : Sniff α ω σ) (C : SniffAction α ω → Context α ω → σ → Prop) (m : Metadata α ω) (s : σ) :
    Prop :=
  ∀ c, r.prepareMatchMetadata m.toContext = .ok c → r.SniffAll sniff C r.rules.zipIdx { m with toContext := c } s

end Condition

variable {C : SniffAction α ω → Context α ω → σ → Prop}

lemma Router.sniffAll_next {rule : Rule α ω}
    {i : ℕ} {rules : List (Rule α ω × ℕ)} {m m' : Metadata α ω} {s s' : σ} (h : r.turn sniff rule i m s = .next m' s') :
    r.SniffAll sniff C ((rule, i) :: rules) m s ↔
      (∀ action, rule.Sniffs action m → C action m.toContext s) ∧ r.SniffAll sniff C rules m' s' := by
  refine and_congr_right fun _ => ⟨fun hall => hall m' s' h, fun hall m'' s'' h' => ?_⟩
  cases h.symm.trans h'
  exact hall

/-- **The rule for an exact condition.**  If a sniff action keeps `P` exactly when it meets `C`, and never brings it
back, then a loop that ends without an error keeps `P` exactly when all its sniff actions meet `C`. -/
theorem Router.matchLoop_iff {P : σ → Prop} (hP : ∀ action c s, P s → (P (sniff action c s).2.1 ↔ C action c s))
    (hbad : ∀ action c s, ¬P s → ¬P (sniff action c s).2.1) :
    ∀ (rules : List (Rule α ω × ℕ)) (m : Metadata α ω) (s : σ), P s → (r.matchLoop sniff rules m s).fatalErr = none →
      (P (r.matchLoop sniff rules m s).conn ↔ r.SniffAll sniff C rules m s) := by
  intro rules
  induction rules with
  | nil =>
    intro m s hp _
    exact ⟨fun _ => trivial, fun _ => hp⟩
  | cons ri rules ih =>
    intro m s hp hok
    have hconn := Router.turn_conn (r := r) sniff ri.1 ri.2 m s
    rw [Router.matchLoop] at hok ⊢
    split at hok
    next m' s' hturn =>
      rw [Router.sniffAll_next hturn]
      rw [hturn] at hconn
      rcases hconn with ⟨hs, hno⟩ | ⟨action, hsniff, hs, -⟩
      · -- the connection is as it was
        cases hs
        exact (ih m' s' hp hok).trans ⟨fun h => ⟨fun action ha => absurd ha (hno action), h⟩, fun h => h.2⟩
      · cases hs
        by_cases hC : C action m.toContext s
        · have hp' := (hP action _ s hp).2 hC
          refine (ih m' _ hp' hok).trans ⟨fun h => ⟨fun action' ha' => ?_, h⟩, fun h => h.2⟩
          cases hsniff.2.symm.trans ha'.2
          exact hC
        · have hno := fun h => hC ((hP action _ s hp).1 h)
          exact ⟨fun h => absurd h (Router.matchLoop_conn (I := fun s => ¬P s) hbad rules m' hno),
            fun h => absurd (h.1 action hsniff) hC⟩
    next result hturn =>
      rw [hturn] at hconn
      simp only [Router.SniffAll, hturn, reduceCtorEq, false_imp_iff, implies_true, and_true]
      rcases hconn with ⟨hs, hno⟩ | ⟨action, -, -, herr⟩
      · cases hs
        exact ⟨fun _ action ha => absurd ha (hno action), fun _ => hp⟩
      · exact absurd hok (herr result rfl)

lemma Router.matchRule_iff {P : σ → Prop} (hP : ∀ action c s, P s → (P (sniff action c s).2.1 ↔ C action c s))
    (hbad : ∀ action c s, ¬P s → ¬P (sniff action c s).2.1) (m : Metadata α ω) {s : σ} (hp : P s)
    (hok : (r.matchRule sniff m s).fatalErr = none) : P (r.matchRule sniff m s).conn ↔ r.EverySniff sniff C m s := by
  rw [Router.matchRule] at hok ⊢
  split at hok
  · cases hok
  next c hc =>
    simp only [Router.EverySniff, hc, Except.ok.injEq, forall_eq']
    exact Router.matchLoop_iff hP hbad r.rules.zipIdx { m with toContext := c } s hp hok

end SingBox.Routing
