import SingBox.Routing.PacketSniff

/-!
# Pre-match

`PreMatch` decides about a packet before there is a connection: it runs the rules on the metadata of the packet and may
answer that its flow goes to an outbound directly.  The connection would have gone through `matchRule`.

Both loops are compared turn by turn (`agrees_of_flow`).  The contexts are the same after every turn, except that
`matchRule` forgets the resolved addresses when a rule overrides the address and `PreMatch` does not; and a rule may
match only in pre-match, which the `preferred_by` item of a bridge outbound is made for. -/

namespace SingBox.Routing

open SingBox.Lib List Option

variable {α ω : Type} [DecidableEq α]

/-! ### The answer -/

/-- `PreMatchResult`, with the rule that its tracker is given. -/
structure PreMatchResult (α ω : Type) where
  action : PreMatchAction
  outbound : Option (Outbound α) := none
  destination : Option (α × ℕ) := none
  udpTimeout : ℕ := 0
  matchedRule : Option (Rule α ω × ℕ) := none

def portProtocols (port : ℕ) : String :=
  if port = 53 then "dns" else if port = 123 then "ntp" else if port = 3478 then "stun"
  else if port = 443 then "quic" else ""

/-- `C.ProtocolTimeouts`, in seconds. -/
def protocolTimeouts (protocol : String) : ℕ :=
  if protocol = "dns" ∨ protocol = "ntp" ∨ protocol = "stun" then 10
  else if protocol = "quic" ∨ protocol = "dtls" then 30 else 0

def Context.flowTimeout (c : Context α ω) : ℕ :=
  if c.network = .udp then
    if c.udpTimeout > 0 then c.udpTimeout
    else protocolTimeouts (if c.protocol = "" then portProtocols c.destination.port else c.protocol)
  else 0

variable (r : Router α ω)

/-- The outbound that a group has selected, through at most `n` groups. -/
def Router.followGroups : ℕ → Outbound α → Option (Outbound α)
  | 0, outbound => some outbound
  | n + 1, outbound =>
    match outbound.kind with
    | .group now => (r.outbound now).bind (Router.followGroups n)
    | _ => some outbound

/-- The outbound of a tag, or the default one if there is no tag. -/
def Router.outboundOf (tag : String) : Option (Outbound α) := if tag = "" then some r.default else r.outbound tag

def Router.preMatchFlow (c : Context α ω) (packetDestination : Socksaddr α) (matchedRule : Option (Rule α ω × ℕ))
    (outboundTag : String) : PreMatchResult α ω :=
  match (r.outboundOf outboundTag).bind (r.followGroups 8) with
  | none => { action := .continue }
  | some outbound =>
    if !outbound.network.contains c.network then { action := .continue }
    else
      match outbound.kind with
      | .flow preMatchFlow =>
        let result : PreMatchResult α ω :=
          { action := .flow, outbound := some outbound, udpTimeout := c.flowTimeout, matchedRule := matchedRule }
        let flowAction := preMatchFlow c.network c.destination.addr
        if flowAction ≠ .flow then { action := flowAction, outbound := some outbound }
        else if c.destination.isDomain then
          if !c.fakeIP then { action := .continue }
          else
            match c.destinationAddresses.find? fun a => r.is4 a == packetDestination.addr.any r.is4 with
            | none => { action := .reject }
            | some newDestination =>
              let flowAction := preMatchFlow c.network (some newDestination)
              if flowAction ≠ .flow then { action := flowAction, outbound := some outbound }
              else { result with destination := some (newDestination, c.destination.port) }
        else if c.destination ≠ packetDestination then
          { result with destination := c.destination.addr.map fun a => (a, c.destination.port) }
        else result
      | _ => { action := .continue }

/-- What a turn of `PreMatch` comes to. -/
inductive PreTurn (α ω : Type) where
  | next (c : Context α ω)
  | stop (result : PreMatchResult α ω)

/-- The answer for a reject action; its error is that of a dropped packet if the action drops. -/
def Router.preMatchReject (c : Context α ω) (method : RejectMethod) (noDrop : Bool) : PreMatchResult α ω :=
  match method with
  | .default => { action := if !noDrop && r.flooded then .drop else .reject }
  | .drop => { action := .drop }
  | .reply => { action := if c.network = .icmp then .continue else .reject }

def Router.preTurn (packetDestination : Socksaddr α) (firstPacket : GoString) (rule : Rule α ω) (i : ℕ)
    (c : Context α ω) : PreTurn α ω :=
  if !rule.isMatch true c then .next c
  else
    match rule.action with
    | .sniff action =>
      if c.network = .icmp then .next c
      else if c.network ≠ .udp || firstPacket.isEmpty then .stop { action := .continue }
      else if c.skip || c.protocol ≠ "" then .next c
      else if action.packetSniffers.isEmpty && !action.streamSniffers.isEmpty then .next c
      else if (c.sniffedBy action).isSome then .next c
      else
        let sniffers := if action.packetSniffers.isEmpty then r.defaultPacketSniffers else action.packetSniffers
        match peek firstPacket sniffers [] c with
        | (some .needMoreData, _) => .stop { action := .continue }
        | (some .other, c) => .next (c.noteSniff action (some .other))
        | (none, c) => .next (r.overrideDestination (c.noteSniff action none) action)
    | .routeOptions options => .next (c.applyRouteOptionsOverride options)
    | .route action =>
      let c := c.applyRouteOptionsOverride action.options
      .stop (r.preMatchFlow c packetDestination (some (rule, i)) action.outbound)
    | .bypass outbound options =>
      let c := c.applyRouteOptionsOverride options
      let changed := c.destination.isDomain || c.destination ≠ packetDestination
      let result := r.preMatchFlow c packetDestination (some (rule, i)) outbound
      if outbound = "" then .stop { action := if changed then .continue else .bypass }
      else if changed then .stop result
      else if result.action ≠ .flow then .stop { action := .bypass }
      else .stop { result with action := .bypass }
    | .reject method noDrop => .stop (r.preMatchReject c method noDrop)
    | .hijackDNS => .stop { action := if c.network ≠ .udp then .continue else .hijackDNS }
    | .resolve action =>
      match r.actionResolve c action with
      | .error _ => .stop { action := .reject }
      | .ok c => .next c
    | .direct => .stop { action := .continue }

def Router.preMatchLoop (packetDestination : Socksaddr α) (firstPacket : GoString) :
    List (Rule α ω × ℕ) → Context α ω → PreMatchResult α ω
  | [], c => r.preMatchFlow c packetDestination none ""
  | (rule, i) :: rules, c =>
    match r.preTurn packetDestination firstPacket rule i c with
    | .next c => Router.preMatchLoop packetDestination firstPacket rules c
    | .stop result => result

def Router.preMatch (c : Context α ω) (firstPacket : GoString) : PreMatchResult α ω :=
  match r.prepareMatchMetadata c with
  | .error _ => { action := .continue }
  | .ok c' => r.preMatchLoop c.destination firstPacket r.rules.zipIdx c'

/-- The metadata that `JudgeFlow` makes of a UDP packet. -/
def flowContext (inbound inboundType : String) (destination : α × ℕ) (other : ω) : Context α ω where
  inbound := inbound
  inboundType := inboundType
  network := .udp
  destination := ⟨.addr destination.1, destination.2⟩
  other := other

/-! ### What the flow and the connection have in common -/

def Router.Selects (a b : Outbound α) : Prop := ∃ now, a.kind = .group now ∧ r.outbound now = some b

/-- The outbound of the rule that `matchRule` ended at, or the default one, resolves to an outbound. -/
def Router.ResolvesTo (selected : Option (Rule α ω × ℕ)) (outbound : Outbound α) : Prop :=
  ∃ first, Relation.ReflTransGen r.Selects first outbound ∧
    match selected with
    | none => first = r.default
    | some (rule, _) =>
      match rule.action with
      | .route action => r.outbound action.outbound = some first
      | .bypass tag _ => r.outbound tag = some first
      | _ => False

/-- Where the flow goes: the packet's own destination if the answer has none. -/
def PreMatchResult.flowDestination (result : PreMatchResult α ω) (packetDestination : Socksaddr α) : Socksaddr α :=
  match result.destination with
  | none => packetDestination
  | some (addr, port) => ⟨.addr addr, port⟩

/-- The destination is the address of the connection or one of its resolved ones, with its port. -/
def Context.HasDestination (c : Context α ω) (destination : Socksaddr α) : Prop :=
  destination.port = c.destination.port ∧
    (destination.host = c.destination.host ∨ ∃ a ∈ c.destinationAddresses, destination.host = .addr a)

/-- The answer of `PreMatch` and the result of `matchRule` are the same rule, an outbound it resolves to, and a
destination of the connection. -/
structure Router.Agrees (packetDestination : Socksaddr α) (result : PreMatchResult α ω)
    (matched : Matched α ω (PacketConn α)) : Prop where
  noErr : matched.fatalErr = none
  rule : matched.selected = result.matchedRule
  outbound : ∃ o, result.outbound = some o ∧ r.ResolvesTo matched.selected o
  destination : matched.metadata.HasDestination (result.flowDestination packetDestination)

/-- Every turn of `PreMatch` meets a condition on the rule and the context before it. -/
def Router.PreAll (packetDestination : Socksaddr α) (firstPacket : GoString) (C : Rule α ω → Context α ω → Prop) :
    List (Rule α ω × ℕ) → Context α ω → Prop
  | [], _ => True
  | (rule, i) :: rules, c =>
    C rule c ∧ ∀ c', r.preTurn packetDestination firstPacket rule i c = .next c' →
      Router.PreAll packetDestination firstPacket C rules c'

/-- The rule does not override the address of a connection that has resolved addresses; or it does so by an address, and
is the last one. -/
def Rule.KeepsAddresses (rule : Rule α ω) (c : Context α ω) : Prop :=
  rule.isMatch true c = true → ∀ options, rule.action.appliedOptions = some options →
    options.overrideAddress.isValid = true → c.destinationAddresses = [] ∨
      options.overrideAddress.isDomain = false ∧ rule.action ≠ .routeOptions options

/-- No rule that `PreMatch` comes to does so. -/
def Router.KeepsAddresses (c : Context α ω) (firstPacket : GoString) : Prop :=
  ∀ c', r.prepareMatchMetadata c = .ok c' → r.PreAll c.destination firstPacket Rule.KeepsAddresses r.rules.zipIdx c'

variable {r}

/-! ### The end -/

omit [DecidableEq α] in
lemma Router.followGroups_selects : ∀ {n : ℕ} {a b : Outbound α}, r.followGroups n a = some b →
    Relation.ReflTransGen r.Selects a b
  | 0, a, b, h => by
    cases h
    exact .refl
  | n + 1, a, b, h => by
    rw [Router.followGroups] at h
    split at h
    next now hkind =>
      rw [bind_eq_some_iff] at h
      obtain ⟨o, ho, h⟩ := h
      exact .head ⟨now, hkind, ho⟩ (Router.followGroups_selects h)
    · cases h
      exact .refl

omit [DecidableEq α] in
lemma Socksaddr.host_eq_of_addr {s : Socksaddr α} {a : α} (h : s.addr = some a) : s.host = .addr a := by
  rw [Socksaddr.addr] at h
  split at h
  next hs =>
    cases h
    exact hs
  · cases h

/-- **A flow**: the outbound that the tag resolves to, and a destination of the context. -/
theorem Router.preMatchFlow_spec {c : Context α ω} {pd : Socksaddr α} {rule : Option (Rule α ω × ℕ)} {tag : String}
    (hv : c.destination.isValid = true) (h : (r.preMatchFlow c pd rule tag).action = .flow) :
    (r.preMatchFlow c pd rule tag).matchedRule = rule ∧
      (∃ o first, (r.preMatchFlow c pd rule tag).outbound = some o ∧ r.outboundOf tag = some first ∧
        Relation.ReflTransGen r.Selects first o) ∧
      c.HasDestination ((r.preMatchFlow c pd rule tag).flowDestination pd) := by
  have hout : ∀ o, (r.outboundOf tag).bind (r.followGroups 8) = some o →
      ∃ first, r.outboundOf tag = some first ∧ Relation.ReflTransGen r.Selects first o := by
    intro o ho
    rw [bind_eq_some_iff] at ho
    obtain ⟨first, hfirst, ho⟩ := ho
    exact ⟨first, hfirst, Router.followGroups_selects ho⟩
  simp only [Router.preMatchFlow] at h ⊢
  split at h
  · cases h
  next o ho =>
  obtain ⟨first, hfirst⟩ := hout o ho
  split at h
  · cases h
  next hnet =>
  rw [if_neg hnet]
  split at h
  · split at h
    next hflow => exact absurd h hflow
    next hflow =>
      rw [if_neg hflow]
      split at h
      next hdom =>
        rw [if_pos hdom]
        split at h
        · cases h
        next hfake =>
          rw [if_neg hfake]
          split at h
          · cases h
          next a ha =>
            split at h
            next hflow' => exact absurd h hflow'
            next hflow' =>
              rw [if_neg hflow']
              exact ⟨rfl, ⟨o, first, rfl, hfirst⟩, rfl, Or.inr ⟨a, mem_of_find?_eq_some ha, rfl⟩⟩
      next hdom =>
        rw [if_neg hdom]
        split at h
        next hne =>
          rw [if_pos hne]
          refine ⟨rfl, ⟨o, first, rfl, hfirst⟩, ?_⟩
          obtain ⟨a, ha⟩ : ∃ a, c.destination.addr = some a := by
            rw [← isSome_iff_exists]
            simpa [Socksaddr.isValid, hdom] using hv
          simp only [ha]
          exact ⟨rfl, Or.inl (Socksaddr.host_eq_of_addr ha).symm⟩
        next heq =>
          rw [if_neg heq]
          rw [not_not] at heq
          exact ⟨rfl, ⟨o, first, rfl, hfirst⟩, by simp [PreMatchResult.flowDestination, heq], Or.inl (by
            simp [PreMatchResult.flowDestination, heq])⟩
  · cases h

/-! ### What both loops keep -/

section Routable

omit [DecidableEq α]

/-- A UDP connection with a destination, of which no sniffer wants more. -/
structure Context.Routable (c : Context α ω) : Prop where
  network : c.network = .udp
  destination : c.destination.isValid = true
  sniffError : c.sniffError ≠ some .needMoreData

/-- The datagram is the first one of the connection, and no other has been read. -/
inductive PacketConn.HasFirst (packet : GoString) : PacketConn α → Prop
  | unread (destination : Socksaddr α) (reads : List (PacketRead α)) :
    HasFirst packet ⟨.packet packet destination :: reads, [], []⟩
  | read (p : PacketBuffer α) (reads : List (PacketRead α)) (h : p.payload = packet) : HasFirst packet ⟨reads, [p], [p]⟩

variable {c c' : Context α ω}

lemma Router.sniffPackets_first {packet : GoString} {s : PacketConn α} (hs : s.HasFirst packet)
    {action : SniffAction α ω} {err : Option SniffError} (hskip : action.skipsPackets c = false)
    (hpeek : r.peekPacket action c packet = (err, c')) (herr : err ≠ some .needMoreData) : ∃ s', s'.HasFirst packet ∧
      r.sniffPackets action c s = (if err = none then r.overrideDestination c' action else c', s', none) := by
  rw [Router.sniffPackets, hskip]
  cases hs with
  | unread destination reads =>
    have hloop : r.readLoop action 0 [] (.packet packet destination :: reads) c =
        { context := c', reads := reads, received := [⟨0, packet, destination⟩], sniffed := err == none } := by
      rw [Router.readLoop, hpeek]
      split
      next heq => exact absurd (congrArg Prod.fst heq) herr
      next heq =>
        cases heq
        rfl
    refine ⟨_, .read ⟨0, packet, destination⟩ reads rfl, ?_⟩
    simp only [Bool.false_eq_true, if_false, Router.reexamine, length_nil, hloop, nil_append, beq_iff_eq]
  | read p reads h =>
    have hre : r.reexamine action [p] c = (some err, c') := by
      rw [Router.reexamine, h, hpeek]
      split
      next heq => exact absurd (congrArg Prod.fst heq) herr
      next heq =>
        cases heq
        rfl
    refine ⟨_, .read p reads h, ?_⟩
    simp only [Bool.false_eq_true, if_false, hre]

lemma peek_context (bytes : GoString) (sniffers : List (Sniffer α ω)) : ∀ (errors : List SniffError) (c : Context α ω),
      ∃ sniffed, (peek bytes sniffers errors c).2 = c.withSniffed sniffed := by
  induction sniffers with
  | nil =>
    intro errors c
    exact ⟨c.unsniffed, rfl⟩
  | cons sniffer sniffers ih =>
    intro errors c
    rw [peek]
    split
    · exact ⟨_, rfl⟩
    next e sniffed _ =>
      obtain ⟨sniffed', h⟩ := ih (errors ++ [e]) (c.withSniffed sniffed)
      exact ⟨sniffed', h⟩

variable {c : Context α ω}

lemma Context.Routable.noteSniff (h : c.Routable) (sniffed : Sniffed ω) (action : SniffAction α ω)
    {err : Option SniffError} (herr : err ≠ some .needMoreData) :
    ((c.withSniffed sniffed).noteSniff action err).Routable :=
  ⟨h.network, h.destination, herr⟩

lemma Context.Routable.overrideDestination (h : c.Routable) (action : SniffAction α ω) :
    (r.overrideDestination c action).Routable := by
  rw [Router.overrideDestination]
  split
  next hdom =>
    have hne : c.domain ≠ "" := by
      intro h0
      simp [h0, r.isDomainName_empty] at hdom
    exact ⟨h.network, by simp [Socksaddr.isValid, Socksaddr.isDomain, Socksaddr.fqdn, hne], h.sniffError⟩
  · exact h

lemma Context.Routable.applyRouteOptionsOverride (h : c.Routable) (options : RouteOptions α) :
    (c.applyRouteOptionsOverride options).Routable := by
  have hvalid : ∀ {d d' : Socksaddr α}, d.host = d'.host → d.isValid = d'.isValid := by
    intro d d' hd
    simp [Socksaddr.isValid, Socksaddr.addr, Socksaddr.isDomain, Socksaddr.fqdn, hd]
  have hdest := h.destination
  rw [Context.applyRouteOptionsOverride]
  by_cases haddr : options.overrideAddress.isValid = true <;> by_cases hport : options.overridePort > 0 <;>
    by_cases htime : options.udpTimeout > 0 <;> simp only [haddr, hport, htime]
  all_goals
    refine ⟨h.network, ?_, h.sniffError⟩
    first
      | exact (hvalid rfl).trans haddr
      | exact (hvalid rfl).trans hdest

lemma Context.Routable.actionResolve (h : c.Routable) {action : ResolveAction}
    (hc : r.actionResolve c action = .ok c') : c'.Routable := by
  rw [Router.actionResolve] at hc
  repeat' split at hc
  all_goals cases hc
  · exact ⟨h.network, h.destination, h.sniffError⟩
  · exact h

lemma Context.Routable.prepareMatchMetadata (h : c.Routable)
    (hc : r.prepareMatchMetadata c = .ok c') : c'.Routable := by
  have hversion : ∀ {d : Context α ω} {v : ℕ}, d.Routable → { d with ipVersion := v }.Routable :=
    fun hd => ⟨hd.network, hd.destination, hd.sniffError⟩
  have hreverse : ∀ {d : Context α ω}, d.Routable → (if d.domain = "" then
      { d with domain := (r.lookupReverseMapping d.destination.addr).getD "" } else d).Routable := by
    intro d hd
    split
    · exact ⟨hd.network, hd.destination, hd.sniffError⟩
    · exact hd
  have hsearch : { c with other := r.search c }.Routable := ⟨h.network, h.destination, h.sniffError⟩
  rw [Router.prepareMatchMetadata] at hc
  split at hc
  · cases hc
    exact hversion (hreverse hsearch)
  · split at hc
    · cases hc
      exact hversion (hreverse hsearch)
    · cases hc
    · cases hc
      refine hversion ?_
      split
      · exact hsearch
      next hne => exact ⟨h.network, by simp [Socksaddr.isValid, Socksaddr.isDomain, Socksaddr.fqdn, hne], h.sniffError⟩

lemma Context.Routable.applyRouteOptions (h : c.Routable) (options : RouteOptions α) :
    (c.applyRouteOptions options).Routable := by
  rw [Context.applyRouteOptions]
  refine Context.Routable.applyRouteOptionsOverride ?_ options
  split
  · exact ⟨h.network, h.destination, h.sniffError⟩
  · exact h

/-- Without resolved addresses to forget, both loops apply options in the same way. -/
lemma Metadata.applyRouteOptions_toContext (m : Metadata α ω) (options : RouteOptions α)
    (h : options.overrideAddress.isValid = true → m.destinationAddresses = []) :
    (m.applyRouteOptions options).toContext = m.toContext.applyRouteOptionsOverride options := by
  rw [Metadata.applyRouteOptions, Context.applyRouteOptions]
  by_cases hv : options.overrideAddress.isValid = true
  · have hm : { m.toContext with destinationAddresses := [] } = m.toContext := by rw [← h hv]
    simp only [hv, if_true, hm]
  · simp only [hv, Bool.false_eq_true, if_false]

/-- With an address as the destination, the flow does not depend on the resolved ones. -/
lemma Router.preMatchFlow_applyRouteOptions [DecidableEq α] (m : Metadata α ω) (options : RouteOptions α)
    (h : options.overrideAddress.isValid = true → m.destinationAddresses = [] ∨
      options.overrideAddress.isDomain = false) (pd : Socksaddr α) (rule : Option (Rule α ω × ℕ)) (tag : String) :
    r.preMatchFlow (m.applyRouteOptions options).toContext pd rule tag =
      r.preMatchFlow (m.toContext.applyRouteOptionsOverride options) pd rule tag := by
  by_cases hv : options.overrideAddress.isValid = true
  · rcases h hv with hnil | hdomain
    · rw [m.applyRouteOptions_toContext options fun _ => hnil]
    · have hdest : (m.toContext.applyRouteOptionsOverride options).destination.isDomain = false := by
        simp only [Context.applyRouteOptionsOverride, hv, if_true]
        repeat' split
        all_goals exact hdomain
      have hctx : (m.applyRouteOptions options).toContext =
          { m.toContext.applyRouteOptionsOverride options with destinationAddresses := [] } := by
        simp only [Metadata.applyRouteOptions, Context.applyRouteOptions, Context.applyRouteOptionsOverride, hv,
          if_true]
        repeat' split
        all_goals rfl
      simp only [hctx, Router.preMatchFlow, hdest, Bool.false_eq_true, if_false]
      rfl
  · rw [m.applyRouteOptions_toContext options fun h => absurd h hv]

end Routable

/-! ### One turn -/

variable (r) in
/-- A turn of `matchRule` does what a turn of `PreMatch` does, if this goes on or ends with a flow. -/
def PreTurn.AgreesWith (packetDestination : Socksaddr α) (packet : GoString) (turn : Turn α ω (PacketConn α)) :
    PreTurn α ω → Prop
  | .next c =>
    c.Routable ∧ ∃ (m : Metadata α ω) (s : PacketConn α), turn = .next m s ∧ m.toContext = c ∧ s.HasFirst packet
  | .stop result => result.action = .flow → ∃ matched, turn = .stop matched ∧ r.Agrees packetDestination result matched

section Turn

variable {pd : Socksaddr α} {packet : GoString} {rule : Rule α ω} {i : ℕ} {m : Metadata α ω} {s : PacketConn α}

omit [DecidableEq α] in
lemma Router.turn_sniff {σ : Type} {sniff : Sniff α ω σ} {s s' : σ} {action : SniffAction α ω} {c : Context α ω}
    (hmatch : rule.isMatch false m.toContext = true) (ha : rule.action = .sniff action)
    (hsniff : sniff action m.toContext s = (c, s', none)) :
    r.turn sniff rule i m s = .next { m with toContext := c } s' := by
  simp [Router.turn, hmatch, ha, Action.appliedOptions, hsniff]

lemma Router.sniff_agrees (hm : m.Routable) (hs : s.HasFirst packet) {action : SniffAction α ω}
    (ha : rule.action = .sniff action) (hpre : rule.isMatch true m.toContext = true)
    (hmatch : rule.isMatch false m.toContext = true) :
    (r.preTurn pd packet rule i m.toContext).AgreesWith r pd packet (r.turn r.sniffPackets rule i m s) := by
  have hskip (h : action.skipsPackets m.toContext = true) :
      PreTurn.AgreesWith r pd packet (r.turn r.sniffPackets rule i m s) (.next m.toContext) := by
    have hsniff : r.sniffPackets action m.toContext s = (m.toContext, s, none) := by
      rw [Router.sniffPackets, if_pos h]
    exact ⟨hm, m, s, Router.turn_sniff hmatch ha hsniff, rfl, hs⟩
  rw [Router.preTurn, hpre, ha]
  simp only [Bool.not_true, if_false, hm.network, reduceCtorEq, ne_eq, not_true_eq_false, decide_false]
  split
  · intro h
    cases h
  split
  next h => exact hskip (by simpa [SniffAction.skipsPackets] using Or.inl (Or.inl h))
  next h1 =>
  split
  next h => exact hskip (by simpa [SniffAction.skipsPackets] using Or.inl (Or.inr h))
  next h2 =>
  have hmore : m.toContext.sniffedBy action ≠ some .needMoreData := by
    rw [Context.sniffedBy]
    split
    · exact hm.sniffError
    · simp
  split
  next h =>
    refine hskip ?_
    have hother : m.toContext.sniffedBy action = some .other := by
      cases hb : m.toContext.sniffedBy action with
      | none => simp [hb] at h
      | some e =>
        cases e with
        | needMoreData => exact absurd hb hmore
        | other => rfl
    simp [SniffAction.skipsPackets, hother]
  next h3 =>
  have hno : action.skipsPackets m.toContext = false := by
    simp only [SniffAction.skipsPackets]
    rw [not_isSome_iff_eq_none] at h3
    simp only [Bool.or_eq_true, not_or] at h1
    simp [h1, h2, h3]
  -- the sniffers are the same in both loops
  generalize hsniffers :
    (if action.packetSniffers.isEmpty then r.defaultPacketSniffers else action.packetSniffers) = sniffers
  have hpeek : r.peekPacket action m.toContext packet = ((peek packet sniffers [] m.toContext).1,
      (peek packet sniffers [] m.toContext).2.noteSniff action (peek packet sniffers [] m.toContext).1) := by
    rw [Router.peekPacket, if_neg hmore, hsniffers]
  obtain ⟨sniffed, hc⟩ := peek_context packet sniffers [] m.toContext
  split
  · intro h
    cases h
  next c' hp =>
    rw [hp] at hpeek hc
    obtain ⟨s', hs', hsniff⟩ := Router.sniffPackets_first hs hno hpeek (by simp)
    refine ⟨?_, _, s', Router.turn_sniff hmatch ha hsniff, rfl, hs'⟩
    rw [show c' = m.toContext.withSniffed sniffed from hc]
    exact hm.noteSniff sniffed action (by simp)
  next c' hp =>
    rw [hp] at hpeek hc
    obtain ⟨s', hs', hsniff⟩ := Router.sniffPackets_first hs hno hpeek (by simp)
    refine ⟨?_, _, s', Router.turn_sniff hmatch ha hsniff, rfl, hs'⟩
    rw [show c' = m.toContext.withSniffed sniffed from hc]
    exact (hm.noteSniff sniffed action (by simp)).overrideDestination action

lemma Router.flow_agrees {m : Metadata α ω} (hm : m.Routable) {tag : String} {result : PreMatchResult α ω}
    (hresult : r.preMatchFlow m.toContext pd (some (rule, i)) tag = result) (hflow : result.action = .flow)
    (hout : ∀ first, r.outboundOf tag = some first → match rule.action with
      | .route action => r.outbound action.outbound = some first
      | .bypass tag _ => r.outbound tag = some first
      | _ => False) : r.Agrees pd result { metadata := m, conn := s, selected := some (rule, i) } := by
  subst hresult
  obtain ⟨hrule, ⟨o, first, ho, hfirst, hselects⟩, hdest⟩ := Router.preMatchFlow_spec hm.destination hflow
  exact ⟨rfl, hrule.symm, ⟨o, ho, first, hselects, hout first hfirst⟩, hdest⟩

theorem Router.turn_agrees (hm : m.Routable) (hs : s.HasFirst packet)
    (hsame : rule.isMatch true m.toContext = rule.isMatch false m.toContext) (hkeep : rule.KeepsAddresses m.toContext) :
    (r.preTurn pd packet rule i m.toContext).AgreesWith r pd packet (r.turn r.sniffPackets rule i m s) := by
  by_cases hmatch : rule.isMatch false m.toContext = true
  · have hpre := hsame.trans hmatch
    have hflow : ∀ options, rule.action.appliedOptions = some options → ∀ rule tag,
        r.preMatchFlow (m.applyRouteOptions options).toContext pd rule tag =
          r.preMatchFlow (m.toContext.applyRouteOptionsOverride options) pd rule tag := fun options h =>
      Router.preMatchFlow_applyRouteOptions m options (fun hv => (hkeep hpre options h hv).imp_right And.left) pd
    cases ha : rule.action with
    | sniff action => exact Router.sniff_agrees hm hs ha hpre hmatch
    | routeOptions options =>
      rw [Router.preTurn, Router.turn, hpre, hmatch, ha]
      refine ⟨hm.applyRouteOptionsOverride options, m.applyRouteOptions options, s, rfl,
        m.applyRouteOptions_toContext options fun hv => ?_, hs⟩
      exact (hkeep hpre options (by rw [ha]; rfl) hv).resolve_right fun h => h.2 ha
    | route action =>
      rw [Router.preTurn, Router.turn, hpre, hmatch, ha]
      intro h
      refine ⟨_, rfl, Router.flow_agrees (hm.applyRouteOptions action.options) (hflow _ (by rw [ha]; rfl) _ _) h ?_⟩
      intro first hfirst
      rw [ha]
      rwa [Router.outboundOf, if_neg action.outbound_ne] at hfirst
    | bypass outbound options =>
      rw [Router.preTurn, Router.turn, hpre, hmatch, ha]
      simp only [Bool.not_true, Bool.false_eq_true, if_false]
      split
      · intro h
        split at h <;> cases h
      next hne =>
      have happ : rule.action.appliedOptions = some options := by
        rw [ha, Action.appliedOptions, if_pos hne]
      split
      · intro h
        refine ⟨_, rfl, ?_⟩
        rw [← ha, happ]
        refine Router.flow_agrees (hm.applyRouteOptions options) (hflow _ happ _ _) h ?_
        intro first hfirst
        rw [ha]
        rwa [Router.outboundOf, if_neg hne] at hfirst
      · split
        · intro h
          cases h
        · intro h
          cases h
    | reject method noDrop | hijackDNS | direct =>
      rw [Router.preTurn, hpre, ha]
      intro h
      simp only [Router.preMatchReject] at h
      repeat' split at h
      all_goals cases h
    | resolve action =>
      rw [Router.preTurn, Router.turn, hpre, hmatch, ha]
      simp only [Bool.not_true, Bool.false_eq_true, Action.appliedOptions, elim_none]
      cases hc : r.actionResolve m.toContext action with
      | error e =>
        intro h
        cases h
      | ok c => exact ⟨hm.actionResolve hc, { m with toContext := c }, s, rfl, rfl, hs⟩
  · rw [Bool.not_eq_true] at hmatch
    rw [Router.preTurn, Router.turn, hsame, hmatch]
    exact ⟨hm, m, s, rfl, rfl, hs⟩

end Turn

/-! ### All turns -/

lemma Router.preMatchLoop_agrees {pd : Socksaddr α} {packet : GoString} (rules : List (Rule α ω × ℕ))
    (hsame : ∀ ri ∈ rules, ∀ c, ri.1.isMatch true c = ri.1.isMatch false c) :
    ∀ (m : Metadata α ω) (s : PacketConn α), m.Routable → s.HasFirst packet →
      r.PreAll pd packet Rule.KeepsAddresses rules m.toContext →
      (r.preMatchLoop pd packet rules m.toContext).action = .flow →
      r.Agrees pd (r.preMatchLoop pd packet rules m.toContext) (r.matchLoop r.sniffPackets rules m s) := by
  induction rules with
  | nil =>
    intro m s hm _ _ hflow
    obtain ⟨hrule, ⟨o, first, ho, hfirst, hselects⟩, hdest⟩ := Router.preMatchFlow_spec hm.destination hflow
    have hdefault : first = r.default := by simpa [Router.outboundOf] using hfirst.symm
    exact ⟨rfl, hrule.symm, ⟨o, ho, first, hselects, hdefault⟩, hdest⟩
  | cons ri rules ih =>
    intro m s hm hs hkeep hflow
    obtain ⟨rule, i⟩ := ri
    have hturn : (r.preTurn pd packet rule i m.toContext).AgreesWith r pd packet (r.turn r.sniffPackets rule i m s) :=
      Router.turn_agrees hm hs (hsame _ mem_cons_self _) hkeep.1
    have hrest := hkeep.2
    rw [Router.preMatchLoop] at hflow ⊢
    rw [Router.matchLoop]
    cases hpre : r.preTurn pd packet rule i m.toContext with
    | next c =>
      rw [hpre] at hturn hflow
      obtain ⟨hc, m', s', heq, rfl, hs'⟩ := hturn
      rw [heq]
      exact ih (fun ri h => hsame ri (mem_cons_of_mem _ h)) m' s' hc hs' (hrest _ hpre) hflow
    | stop result =>
      rw [hpre] at hturn hflow
      obtain ⟨matched, heq, hagrees⟩ := hturn hflow
      rw [heq]
      exact hagrees

/-- **A flow of `PreMatch` is what `matchRule` comes to**: if no rule depends on being in pre-match, and no rule
overrides the address of a connection with resolved addresses, but for a last one that does so by an address. -/
theorem agrees_of_flow (r : Router α ω) (m : Metadata α ω) (packet : GoString) (destination : Socksaddr α)
    (reads : List (PacketRead α)) (hm : m.Routable)
    (hsame : ∀ rule ∈ r.rules, ∀ c, rule.isMatch true c = rule.isMatch false c)
    (hkeep : r.KeepsAddresses m.toContext packet) (hflow : (r.preMatch m.toContext packet).action = .flow) :
    r.Agrees m.destination (r.preMatch m.toContext packet)
      (r.matchRule r.sniffPackets m ⟨.packet packet destination :: reads, [], []⟩) := by
  rw [Router.preMatch] at hflow ⊢
  rw [Router.matchRule]
  cases hc : r.prepareMatchMetadata m.toContext with
  | error e =>
    rw [hc] at hflow
    cases hflow
  | ok c =>
    rw [hc] at hflow
    have hsame' : ∀ ri ∈ r.rules.zipIdx, ∀ c, ri.1.isMatch true c = ri.1.isMatch false c :=
      fun ri h => hsame ri.1 (fst_mem_of_mem_zipIdx h)
    exact Router.preMatchLoop_agrees r.rules.zipIdx hsame' { m with toContext := c } _ (hm.prepareMatchMetadata hc)
      (.unread destination reads) (hkeep c hc) hflow

/-! ### Where they part -/

/-- A router with a bridge, which takes flows; the address 1 is a FakeIP one, and every name has the address 10. -/
def flowRouter (rules : List (Rule ℕ Unit)) : Router ℕ Unit :=
  { sampleRouter rules with
    outbound := fun tag => if tag = "bridge" then some ⟨"bridge", [.tcp, .udp], .flow fun _ _ => .flow⟩ else none
    lookup := fun _ _ => some [10]
    fakeIP := fun a => if a = 1 then .found "example.org" else .notFake }

def flowMetadata (addr : ℕ) : Metadata ℕ Unit where
  toContext := flowContext "tun-in" "tun" (addr, 443) ()

lemma flowMetadata_routable (addr : ℕ) : (flowMetadata addr).Routable :=
  ⟨rfl, rfl, by simp [flowMetadata, flowContext]⟩

/-- The name of a FakeIP address is resolved, and everything goes to the bridge. -/
def resolveThenBridge (options : RouteOptions ℕ) : Router ℕ Unit :=
  flowRouter [⟨fun _ _ => true, .resolve {}⟩, ⟨fun _ _ => true, .route ⟨"bridge", options, by decide⟩⟩]

/-- What is `preferred_by` the bridge goes there. -/
def preferredBridge : Router ℕ Unit :=
  flowRouter [⟨fun preMatch _ => preMatch, .route ⟨"bridge", {}, by decide⟩⟩]

def flowConn (addr : ℕ) : PacketConn ℕ := ⟨[.packet [1] ⟨.addr addr, 443⟩], [], []⟩

/-- Both loops come to the bridge with the resolved address. -/
theorem resolved_flow_agrees : (resolveThenBridge {}).Agrees (flowMetadata 1).destination
      ((resolveThenBridge {}).preMatch (flowMetadata 1).toContext [1])
      ((resolveThenBridge {}).matchRule (resolveThenBridge {}).sniffPackets (flowMetadata 1) (flowConn 1)) := by
  refine agrees_of_flow _ (flowMetadata 1) [1] ⟨.addr 1, 443⟩ [] (flowMetadata_routable 1) ?_ ?_ rfl
  · intro rule h c
    simp only [resolveThenBridge, flowRouter, sampleRouter, mem_cons, not_mem_nil, or_false] at h
    rcases h with rfl | rfl <;> rfl
  · intro c _
    refine ⟨fun _ options h => ?_, fun c' _ => ⟨fun _ options h hv => ?_, fun _ _ => trivial⟩⟩
    · cases h
    · cases h
      cases hv

/-- The resolved name is replaced by another one. -/
def renamedBridge : Router ℕ Unit := resolveThenBridge { overrideAddress := { host := .fqdn "example.net" } }

/-- A rule with `preferred_by` the bridge matches in pre-match only: the packet's flow goes to the bridge, its
connection to the default outbound.  And after an override by a name the flow goes to an address of the first name. -/
theorem preferred_bridge_flows : ((preferredBridge.preMatch (flowMetadata 2).toContext [1]).action = .flow ∧
      ¬preferredBridge.Agrees (flowMetadata 2).destination (preferredBridge.preMatch (flowMetadata 2).toContext [1])
        (preferredBridge.matchRule preferredBridge.sniffPackets (flowMetadata 2) (flowConn 2))) ∧
    (renamedBridge.preMatch (flowMetadata 1).toContext [1]).action = .flow ∧
      ¬renamedBridge.Agrees (flowMetadata 1).destination (renamedBridge.preMatch (flowMetadata 1).toContext [1])
        (renamedBridge.matchRule renamedBridge.sniffPackets (flowMetadata 1) (flowConn 1)) := by
  refine ⟨⟨by decide, fun h => ?_⟩, by decide, fun h => ?_⟩
  · have hrule := congrArg isSome h.rule
    exact absurd hrule (by decide)
  · obtain ⟨-, hhost | ⟨a, ha, -⟩⟩ := h.destination
    · exact absurd hhost (by decide)
    · exact not_mem_nil ha

end SingBox.Routing
