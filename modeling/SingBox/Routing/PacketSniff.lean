import Mathlib.Data.List.Nodup
import SingBox.Routing.StreamSniff

/-!
# Sniffing packets

The sniff action on a UDP connection and `routePacketConnection`.  A sniff action looks again at the datagrams that
earlier ones have read, and reads more only if its sniffers want more of all of them.  What it returns then begins with
the datagrams that were there before, and `matchRule` appends it to these.

A packet buffer is a pointer, known by its number: the datagrams are numbered as they are read.  `PutPacketBuffer`
clears it, and a buffer that is put back again has nothing in it: the router panics (`putAll`).
-/

namespace SingBox.Routing

open SingBox.Lib List

variable {α ω : Type}

/-! ### The sniff action -/

/-- What a read of the connection gives; `canceled` if the context is done first. -/
inductive PacketRead (α : Type) where
  | packet (payload : GoString) (destination : Socksaddr α)
  | timeout
  | error
  | canceled

/-- `N.PacketBuffer`. -/
structure PacketBuffer (α : Type) where
  id : ℕ
  payload : GoString
  destination : Socksaddr α

/-- The connection: what is to come, the datagrams read so far, and those in the list of `matchRule`. -/
structure PacketConn (α : Type) where
  reads : List (PacketRead α)
  received : List (PacketBuffer α) := []
  packetBuffers : List (PacketBuffer α) := []

section Sniff

variable (r : Router α ω) (action : SniffAction α ω)

/-- `PeekPacket` with the sniffers of the action, or with the one for QUIC if this one wants more. -/
def Router.peekPacket (c : Context α ω) (payload : GoString) : Option SniffError × Context α ω :=
  let sniffers := if action.packetSniffers.isEmpty then r.defaultPacketSniffers else action.packetSniffers
  let (err, c) := peek payload (if c.sniffedBy action = some .needMoreData then [r.quicClientHello] else sniffers) [] c
  (err, c.noteSniff action err)

/-- The loop over the datagrams that are there: the result of the first one of which the sniffers do not want more, if
there is one. -/
def Router.reexamine : List (PacketBuffer α) → Context α ω → Option (Option SniffError) × Context α ω
  | [], c => (none, c)
  | p :: ps, c =>
    match r.peekPacket action c p.payload with
    | (some .needMoreData, c) => Router.reexamine ps c
    | (err, c) => (some err, c)

/-- What the loop that reads has come to. -/
structure ReadLoop (α ω : Type) where
  context : Context α ω
  reads : List (PacketRead α)
  received : List (PacketBuffer α)
  /-- The last datagram was sniffed without an error. -/
  sniffed : Bool := false
  fatalErr : Option RouteError := none

/-- The loop that reads: `n` is the number of the next datagram, `received` those it has read. -/
def Router.readLoop : (n : ℕ) → (received : List (PacketBuffer α)) → List (PacketRead α) → Context α ω → ReadLoop α ω
  | _, received, [], c => { context := c, reads := [], received := received, fatalErr := some .read }
  | _, received, .canceled :: reads, c =>
    { context := c, reads := reads, received := received, fatalErr := some .canceled }
  | _, received, .error :: reads, c => { context := c, reads := reads, received := received, fatalErr := some .read }
  | _, received, .timeout :: reads, c => { context := c, reads := reads, received := received }
  | n, received, .packet payload destination :: reads, c =>
    let received := received ++ [⟨n, payload, destination⟩]
    match r.peekPacket action c payload with
    | (some .needMoreData, c) => Router.readLoop (n + 1) received reads c
    | (err, c) => { context := c, reads := reads, received := received, sniffed := err == none }

/-- The action does nothing: the server speaks first, the protocol is known, the sniffers are for streams, or these
sniffers have already failed. -/
def SniffAction.skipsPackets (c : Context α ω) : Bool :=
  c.skip || c.protocol ≠ "" || action.packetSniffers.isEmpty && !action.streamSniffers.isEmpty ||
    c.sniffedBy action == some .other

/-- `actionSniff` on packets, and what `matchRule` does with the datagrams. -/
def Router.sniffPackets : Sniff α ω (PacketConn α) := fun action c s =>
  if action.skipsPackets c then (c, s, none)
  else
    match r.reexamine action s.packetBuffers c with
    | (some err, c) => (if err = none then r.overrideDestination c action else c, s, none)
    | (none, c) =>
      let loop := r.readLoop action s.received.length [] s.reads c
      -- the list returned begins with the datagrams that are already in the list of `matchRule`
      let packetBuffers := s.packetBuffers ++ loop.received
      (if loop.sniffed then r.overrideDestination loop.context action else loop.context,
        ⟨loop.reads, s.received ++ loop.received, s.packetBuffers ++ packetBuffers⟩, loop.fatalErr)

/-- The action goes on to read. -/
def Router.readsOn (action : SniffAction α ω) (c : Context α ω) (s : PacketConn α) : Bool :=
  !action.skipsPackets c && (r.reexamine action s.packetBuffers c).1.isNone

end Sniff

/-! ### Handing the connection on -/

/-- What `routePacketConnection` does: the datagrams read so far, those that are attached to the connection handed to
an outbound or to DNS hijacking, the packet buffers that are put back, and whether one of them was before. -/
structure PacketRouted (α : Type) where
  received : List (PacketBuffer α) := []
  attached : Option (List (PacketBuffer α)) := none
  put : List (PacketBuffer α) := []
  panicked : Bool := false
  err : Option RouteError := none

/-- Packet buffers are put back one by one, up to one that was put back before. -/
def putAll : (put : List (PacketBuffer α)) → List (PacketBuffer α) → List (PacketBuffer α) × Bool
  | put, [] => (put, false)
  | put, p :: ps => if p.id ∈ put.map PacketBuffer.id then (put, true) else putAll (put ++ [p]) ps

/-- The end of `routePacketConnection`; `handshake` says whether the success of the handshake can be reported. -/
def Router.handPackets (r : Router α ω) (selected : Option (Rule α ω × ℕ)) (conn : PacketConn α) (handshake : Bool) :
    PacketRouted α :=
  let (put, panicked) := putAll [] conn.packetBuffers
  let routed : PacketRouted α := { received := conn.received, put := put, panicked := panicked }
  let release (e : RouteError) : PacketRouted α := { routed with err := if panicked then none else some e }
  -- each buffer is put in front of the connection, and back into the pool
  let hand (outbound : Except RouteError (Outbound α)) : PacketRouted α :=
    match outbound with
    | .error e => release e
    | .ok _ => { routed with attached := if panicked then none else some put }
  match selected with
  | none => hand (r.defaultOutbound .udp)
  | some (rule, _) =>
    match rule.action with
    | .route action => hand (r.findOutbound .udp action.outbound)
    | .bypass outbound _ => hand (r.findOutbound .udp outbound)
    | .reject method _ => release (if method = .reply then .replyNotSupported else .rejected)
    -- `NewDNSPacketConnection` takes all datagrams first, and puts each back when it has read it
    | .hijackDNS => if handshake then { routed with attached := some conn.packetBuffers } else release .handshake
    -- no rule with another action is selected
    | _ => release (.outboundNotFound "")

/-- The rule of the connection, and its datagrams. -/
def Router.matchPackets (r : Router α ω) (m : Metadata α ω) (reads : List (PacketRead α)) :
    Matched α ω (PacketConn α) :=
  r.matchRule r.sniffPackets { m with network := .udp } ⟨reads, [], []⟩

def Router.routePacketConnection (r : Router α ω) (m : Metadata α ω) (reads : List (PacketRead α)) (handshake : Bool) :
    PacketRouted α :=
  if m.inboundDetour ≠ "" then {}
  else if m.inboundType = "tun" && m.protocol = "dns" then
    if handshake then { attached := some [] } else { err := some .handshake }
  else
    let matched := r.matchPackets m reads
    match matched.fatalErr with
    | some e => { err := some e }
    | none => r.handPackets matched.selected matched.conn handshake

/-- Each datagram read is attached exactly once, and no buffer is put back twice. -/
def PacketRouted.EachOnce (routed : PacketRouted α) : Prop :=
  (∀ attached, routed.attached = some attached → attached.Perm routed.received) ∧ routed.panicked = false

/-- A sniff action that goes on to read has no datagrams from earlier ones. -/
def Router.ReadsFirst (r : Router α ω) (action : SniffAction α ω) (c : Context α ω) (s : PacketConn α) : Prop :=
  r.readsOn action c s = true → s.packetBuffers = []

/-- The connection is handed on before anything is read: to another inbound, or it is a DNS connection of a TUN
inbound. -/
def Metadata.unread (m : Metadata α ω) : Bool := m.inboundDetour ≠ "" || m.inboundType = "tun" && m.protocol = "dns"

/-- The sniff actions that are run for the connection all do so. -/
def Router.AllReadFirst (r : Router α ω) (m : Metadata α ω) (reads : List (PacketRead α)) : Prop :=
  m.unread = true ∨ r.EverySniff r.sniffPackets r.ReadsFirst { m with network := .udp } ⟨reads, [], []⟩

/-! ### The datagrams along the loop -/

/-- The datagrams are numbered as they are read, and those in the list are those that were read. -/
structure PacketConn.Inv (s : PacketConn α) : Prop where
  ids : s.received.map PacketBuffer.id = List.range s.received.length
  mem : ∀ p, p ∈ s.packetBuffers ↔ p ∈ s.received

/-- No buffer is in the list twice. -/
def PacketConn.Once (s : PacketConn α) : Prop := (s.packetBuffers.map PacketBuffer.id).Nodup

variable (r : Router α ω)

variable (action : SniffAction α ω)

lemma Router.readLoop_ids (n : ℕ) (reads : List (PacketRead α)) :
    ∀ (received : List (PacketBuffer α)) (c : Context α ω), received.map PacketBuffer.id = range' n received.length →
      (r.readLoop action (n + received.length) received reads c).received.map PacketBuffer.id =
        range' n (r.readLoop action (n + received.length) received reads c).received.length := by
  induction reads with
  | nil =>
    intro received c h
    exact h
  | cons read reads ih =>
    intro received c h
    cases read with
    | canceled | error | timeout => exact h
    | packet payload destination =>
      have h' : (received ++ [(⟨n + received.length, payload, destination⟩ : PacketBuffer α)]).map PacketBuffer.id =
          range' n (received.length + 1) := by
        rw [map_append, h, range'_concat]
        simp
      rw [Router.readLoop]
      split
      next c' _ =>
        have hih := ih (received ++ [⟨n + received.length, payload, destination⟩]) c' (by simpa using h')
        simpa [Nat.add_assoc] using hih
      · simpa using h'

variable (c : Context α ω)

variable (s : PacketConn α)

/-- What a sniff action does to the datagrams: nothing, or it reads some, and the list is those that were there, these
again, and the new ones. -/
lemma Router.sniffPackets_cases : (r.sniffPackets action c s).2.1 = s ∧ r.readsOn action c s = false ∨
      r.readsOn action c s = true ∧ ∃ reads new, (r.sniffPackets action c s).2.1 =
        ⟨reads, s.received ++ new, s.packetBuffers ++ (s.packetBuffers ++ new)⟩ ∧
        new.map PacketBuffer.id = range' s.received.length new.length := by
  rw [Router.sniffPackets, Router.readsOn]
  split
  next hskip => exact Or.inl ⟨rfl, by simp [hskip]⟩
  next hskip =>
    split
    next err c' hre => exact Or.inl ⟨rfl, by simp [hre]⟩
    next c' hre =>
      refine Or.inr ⟨by simp [hskip, hre], _, _, rfl, ?_⟩
      exact r.readLoop_ids action s.received.length s.reads [] c' rfl

lemma Router.sniffPackets_inv (h : s.Inv) : (r.sniffPackets action c s).2.1.Inv := by
  rcases r.sniffPackets_cases action c s with ⟨hs, -⟩ | ⟨-, reads, new, hs, hids⟩
  · rwa [hs]
  · rw [hs]
    constructor
    · rw [map_append, h.ids, hids, range_eq_range', range_eq_range']
      simpa using @range'_append 0 s.received.length new.length 1
    · simp only [mem_append, h.mem]
      tauto

/-- The list stays free of repetitions exactly if an action that reads finds it empty. -/
lemma Router.sniffPackets_once (h : s.Once) : (r.sniffPackets action c s).2.1.Once ↔ r.ReadsFirst action c s := by
  rcases r.sniffPackets_cases action c s with ⟨hs, hread⟩ | ⟨hread, reads, new, hs, hids⟩
  · rw [hs]
    exact ⟨fun _ hr => by simp [hread] at hr, fun _ => h⟩
  · rw [hs, PacketConn.Once]
    constructor
    · intro hn _
      rw [map_append, nodup_append'] at hn
      cases hb : s.packetBuffers with
      | nil => rfl
      | cons p ps =>
        have hd : List.Disjoint _ _ := hn.2.2
        exact (hd (a := p.id) (by simp [hb]) (by simp [hb])).elim
    · intro hr
      have hb := hr hread
      simp only [hb, nil_append, hids]
      exact nodup_range'

lemma Router.sniffPackets_not_once (h : ¬s.Once) : ¬(r.sniffPackets action c s).2.1.Once := by
  rcases r.sniffPackets_cases action c s with ⟨hs, -⟩ | ⟨-, reads, new, hs, -⟩
  · rwa [hs]
  · rw [hs, PacketConn.Once]
    intro hn
    rw [map_append] at hn
    exact h hn.of_append_left

lemma PacketConn.Inv.perm {s : PacketConn α} (hI : s.Inv) (h : s.Once) : s.packetBuffers.Perm s.received := by
  have hr : s.received.Nodup := List.Nodup.of_map PacketBuffer.id (hI.ids ▸ nodup_range)
  exact (perm_ext_iff_of_nodup (List.Nodup.of_map PacketBuffer.id h) hr).2 hI.mem

/-- Putting back a list of buffers does not panic exactly if they are different, and puts all of them back. -/
lemma putAll_spec (ps : List (PacketBuffer α)) : ∀ put : List (PacketBuffer α), (put.map PacketBuffer.id).Nodup →
    ((putAll put ps).2 = false ↔ ((put ++ ps).map PacketBuffer.id).Nodup) ∧
      ((putAll put ps).2 = false → (putAll put ps).1 = put ++ ps) := by
  induction ps with
  | nil =>
    intro put hput
    simp [putAll, hput]
  | cons p ps ih =>
    intro put hput
    rw [putAll]
    split
    next hp =>
      rw [mem_map] at hp
      obtain ⟨q, hq, hid⟩ := hp
      refine ⟨⟨by simp, fun hn => ?_⟩, by simp⟩
      rw [map_append, nodup_append'] at hn
      exact absurd (mem_map.2 ⟨q, hq, hid⟩) (fun hmem => hn.2.2 hmem (by simp))
    next hp =>
      have hnew : ((put ++ [p]).map PacketBuffer.id).Nodup := by
        rw [map_append, map_singleton, ← concat_eq_append]
        exact hput.concat hp
      simpa using ih (put ++ [p]) hnew

lemma Router.handPackets_eachOnce (selected : Option (Rule α ω × ℕ)) {conn : PacketConn α}
    (handshake : Bool) (hI : conn.Inv) : (r.handPackets selected conn handshake).EachOnce ↔ conn.Once := by
  obtain ⟨hiff, hput⟩ := putAll_spec conn.packetBuffers [] nodup_nil
  have hspec : (r.handPackets selected conn handshake).panicked = (putAll [] conn.packetBuffers).2 ∧
      (r.handPackets selected conn handshake).received = conn.received ∧
      ∀ attached, (r.handPackets selected conn handshake).attached = some attached →
        attached = conn.packetBuffers ∨ attached = (putAll [] conn.packetBuffers).1 := by
    simp only [Router.handPackets]
    repeat' split
    all_goals exact ⟨rfl, rfl, fun attached h => by simp_all⟩
  obtain ⟨hpanic, hrec, hatt⟩ := hspec
  rw [PacketRouted.EachOnce, hpanic, hrec]
  refine ⟨fun h => hiff.1 h.2, fun h => ⟨fun attached ha => ?_, hiff.2 h⟩⟩
  rcases hatt attached ha with rfl | rfl
  · exact hI.perm h
  · rw [hput (hiff.2 h)]
    exact hI.perm h

/-- The datagrams at the end of the loop, if there was no error. -/
lemma Router.matchPackets_once (m : Metadata α ω) (reads : List (PacketRead α))
    (hok : (r.matchPackets m reads).fatalErr = none) :
    (r.matchPackets m reads).conn.Inv ∧ ((r.matchPackets m reads).conn.Once ↔
      r.EverySniff r.sniffPackets r.ReadsFirst { m with network := .udp } ⟨reads, [], []⟩) :=
  ⟨Router.matchRule_conn r.sniffPackets_inv _ ⟨rfl, by simp⟩,
    Router.matchRule_iff r.sniffPackets_once r.sniffPackets_not_once _ (by simp [PacketConn.Once]) hok⟩

/-- **Each datagram is attached once and no buffer is put back twice exactly if no sniff action goes on to read when
there are datagrams from earlier ones.** -/
theorem eachOnce_iff (m : Metadata α ω) (reads : List (PacketRead α)) (handshake : Bool)
    (hok : (r.matchPackets m reads).fatalErr = none) :
    (r.routePacketConnection m reads handshake).EachOnce ↔ r.AllReadFirst m reads := by
  obtain ⟨hI, honce⟩ := r.matchPackets_once m reads hok
  simp only [Router.routePacketConnection, Router.AllReadFirst, Metadata.unread]
  split
  next hdetour => simp [hdetour, PacketRouted.EachOnce]
  next hdetour =>
    split
    next htun => split <;> simp [htun, PacketRouted.EachOnce]
    next htun =>
      simp only [hok, hdetour, htun, Bool.or_self, decide_false, Bool.false_eq_true, false_or]
      rw [r.handPackets_eachOnce _ _ hI]
      exact honce

/-! ### Two sniff actions -/

/-- A sniff action with a sniffer that has a result. -/
def packetSniffRule (name : String) (err : Option SniffError) : Rule ℕ Unit where
  isMatch _ _ := true
  action := .sniff { snifferNames := [name], packetSniffers := [fun c _ => (err, c.unsniffed)] }

/-- A sniffer that does not know the datagram, and another one. -/
def twoPacketSniffs (err : SniffError) : Router ℕ Unit :=
  sampleRouter [packetSniffRule "dtls" (some .other), packetSniffRule "quic" (some err)]

/-- One datagram, and then a timeout. -/
def oneDatagram : List (PacketRead ℕ) := [.packet [1] ⟨.addr 1, 443⟩, .timeout]

/-- The second sniffer wants more, but there is none: the datagram is in the list twice, and the router panics when it
puts its buffer back again. -/
theorem second_sniff_duplicates_datagram :
    ((twoPacketSniffs .needMoreData).matchPackets (sampleMetadata .udp) oneDatagram).conn.packetBuffers.map
      PacketBuffer.id = [0, 0] ∧
    ((twoPacketSniffs .needMoreData).routePacketConnection (sampleMetadata .udp) oneDatagram true).panicked = true := by
  decide

/-- One sniffer alone that wants more has it attached once. -/
theorem one_sniff_keeps_datagram :
    ((sampleRouter [packetSniffRule "quic" (some .needMoreData)]).routePacketConnection (sampleMetadata .udp)
      oneDatagram true).EachOnce := by
  refine (eachOnce_iff (sampleRouter [packetSniffRule "quic" (some .needMoreData)]) (sampleMetadata .udp) oneDatagram
    true rfl).2 (Or.inr fun c _ => ?_)
  exact ⟨fun _ _ _ => rfl, fun _ _ _ => trivial⟩

end SingBox.Routing
