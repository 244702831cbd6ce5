import SingBox.Routing.MatchRule

/-!
# Sniffing a stream

`PeekStream`, the sniff action on a TCP connection, and `routeConnection`.  What a sniff action reads it keeps in a
buffer; when the connection is handed on, the buffers are put in front of it again.  The client's bytes are a list of
reads.

The bytes in the buffers and those that are still to come are always the client's (`matchRule_bytes`).  The buffers are
put back one around the other, so that the last one is read first: the bytes stay in order if a sniff action that takes
some finds none in a buffer (`Router.TakesFirst`).
-/

namespace SingBox.Routing

open SingBox.Lib List

variable {α ω : Type}

/-! ### Reads -/

/-- What a read of the stream gives: bytes, perhaps with an error (a timeout is an error without bytes); or the
deadline cannot be set. -/
inductive StreamRead where
  | data (bytes : GoString) (failed : Bool)
  | deadlineFailed

/-- The client's bytes. -/
def streamBytes (reads : List StreamRead) : GoString :=
  reads.flatMap fun
    | .data bytes _ => bytes
    | .deadlineFailed => []

@[simp]
lemma streamBytes_nil : streamBytes [] = [] := rfl

@[simp]
lemma streamBytes_data (bytes : GoString) (failed : Bool) (reads : List StreamRead) :
    streamBytes (.data bytes failed :: reads) = bytes ++ streamBytes reads := rfl

@[simp]
lemma streamBytes_deadlineFailed (reads : List StreamRead) :
    streamBytes (.deadlineFailed :: reads) = streamBytes reads := rfl

/-- `PeekStream` returns: the error, the context, the buffer, and what is left of the stream. -/
structure Peeked (α ω : Type) where
  err : Option SniffError
  context : Context α ω
  buffer : GoString
  reads : List StreamRead

/-- The loop of `PeekStream`: `before` are the bytes of the other buffers, `sniffError` the result of the last turn
(none in the first one, which fails if nothing can be read), `size` the size of the buffer. -/
def peekStream (sniffers : List (Sniffer α ω)) (size : ℕ) (before : GoString) :
    (sniffError : Option SniffError) → (buffer : GoString) → Context α ω → List StreamRead → Peeked α ω
  | sniffError, buffer, c, [] => ⟨some (sniffError.getD .other), c, buffer, []⟩
  | _, buffer, c, .deadlineFailed :: reads => ⟨some .other, c, buffer, reads⟩
  | sniffError, buffer, c, .data bytes failed :: reads =>
    if size ≤ buffer.length then ⟨some (sniffError.getD .other), c, buffer, .data bytes failed :: reads⟩
    else if bytes.length ≤ size - buffer.length then
      if failed then ⟨some (sniffError.getD .other), c, buffer ++ bytes, reads⟩
      else
        match peek (before ++ (buffer ++ bytes)) sniffers [] c with
        | (some .needMoreData, c) => peekStream sniffers size before (some .needMoreData) (buffer ++ bytes) c reads
        | (err, c) => ⟨err, c, buffer ++ bytes, reads⟩
    else
      -- the buffer is full: if the sniffers want more, the next turn cannot read any more
      let room := size - buffer.length
      let (err, c) := peek (before ++ (buffer ++ bytes.take room)) sniffers [] c
      ⟨err, c, buffer ++ bytes.take room, .data (bytes.drop room) failed :: reads⟩

lemma peekStream_bytes (sniffers : List (Sniffer α ω)) (size : ℕ) (before : GoString) (reads : List StreamRead) :
    ∀ (sniffError : Option SniffError) (buffer : GoString) (c : Context α ω),
      (peekStream sniffers size before sniffError buffer c reads).buffer ++
        streamBytes (peekStream sniffers size before sniffError buffer c reads).reads =
      buffer ++ streamBytes reads := by
  induction reads with
  | nil =>
    intro sniffError buffer c
    rfl
  | cons read reads ih =>
    intro sniffError buffer c
    cases read with
    | deadlineFailed => rfl
    | data bytes failed =>
      rw [peekStream]
      split
      · rfl
      · split
        · split
          · simp
          · split
            · rw [ih]
              simp
            · simp
        · have htake (n : ℕ) : bytes.take n ++ (bytes.drop n ++ streamBytes reads) = bytes ++ streamBytes reads := by
            rw [← append_assoc, take_append_drop]
          simp [htake]

/-- The loop takes bytes: a read gives some, perhaps after others that give none and leave the sniffers wanting more. -/
def gives (sniffers : List (Sniffer α ω)) (before : GoString) : Context α ω → List StreamRead → Bool
  | _, .data (_ :: _) _ :: _ => true
  | c, .data [] false :: reads =>
    match peek before sniffers [] c with
    | (some .needMoreData, c) => gives sniffers before c reads
    | _ => false
  | _, _ => false

lemma peekStream_buffer (sniffers : List (Sniffer α ω)) {size : ℕ} (hsize : 0 < size) (before : GoString)
    (reads : List StreamRead) : ∀ (sniffError : Option SniffError) (buffer : GoString) (c : Context α ω),
      (peekStream sniffers size before sniffError buffer c reads).buffer = [] ↔
        buffer = [] ∧ gives sniffers before c reads = false := by
  induction reads with
  | nil => simp [peekStream, gives]
  | cons read reads ih =>
    intro sniffError buffer c
    cases read with
    | deadlineFailed => simp [peekStream, gives]
    | data bytes failed =>
      rw [peekStream]
      by_cases hb : buffer = []
      · subst hb
        rw [if_neg (by simpa using hsize.ne')]
        cases bytes with
        | nil =>
          cases failed with
          | true => simp [gives]
          | false =>
            simp only [length_nil, Nat.zero_le, if_true, Bool.false_eq_true, if_false, append_nil, gives]
            cases hpeek : peek before sniffers [] c with | mk err c' =>
            split <;> simp_all
        | cons b bytes =>
          simp only [gives, nil_append]
          split
          · split
            · simp
            · split <;> simp [ih]
          · simp [take_eq_nil_iff, hsize.ne']
      · -- what is there stays
        simp only [hb, false_and, iff_false]
        split
        · exact hb
        · split
          · split
            · simp [hb]
            · split <;> simp [ih, hb]
          · simp [hb]

/-! ### The sniff action -/

/-- The connection: what is to come, and what was read into buffers. -/
structure StreamConn where
  reads : List StreamRead
  buffers : List GoString := []

def StreamConn.bytes (s : StreamConn) : GoString := s.buffers.flatten ++ streamBytes s.reads

/-- A buffer that was filled is kept. -/
def StreamConn.keep (s : StreamConn) (buffer : GoString) (reads : List StreamRead) : StreamConn :=
  ⟨reads, if buffer = [] then s.buffers else s.buffers ++ [buffer]⟩

lemma StreamConn.bytes_keep (s : StreamConn) (buffer : GoString) (reads : List StreamRead) :
    (s.keep buffer reads).bytes = s.buffers.flatten ++ (buffer ++ streamBytes reads) := by
  simp only [StreamConn.keep, StreamConn.bytes]
  split
  next h => simp [h]
  · simp

/-- The action does nothing: the server speaks first, the protocol is known, the sniffers are for packets, or these
sniffers have already failed. -/
def SniffAction.skipsStream (action : SniffAction α ω) (c : Context α ω) : Bool :=
  c.skip || c.protocol ≠ "" || action.streamSniffers.isEmpty && !action.packetSniffers.isEmpty ||
    c.sniffedBy action == some .other

variable (r : Router α ω)

def Router.streamSniffers (action : SniffAction α ω) : List (Sniffer α ω) :=
  if action.streamSniffers.isEmpty then r.defaultStreamSniffers else action.streamSniffers

/-- `actionSniff` on a stream, and what `matchRule` does with the buffer. -/
def Router.sniffStream : Sniff α ω StreamConn := fun action c s =>
  if action.skipsStream c then (c, s, none)
  else
    let peeked := peekStream (r.streamSniffers action) r.packetSize s.buffers.flatten none [] c s.reads
    let c := peeked.context.noteSniff action peeked.err
    let c := if peeked.err = none then r.overrideDestination c action else c
    (c, s.keep peeked.buffer peeked.reads, none)

/-- The action takes bytes from the stream. -/
def Router.takes (action : SniffAction α ω) (c : Context α ω) (s : StreamConn) : Bool :=
  !action.skipsStream c && gives (r.streamSniffers action) s.buffers.flatten c s.reads

/-- An action that takes bytes finds none that were taken before. -/
def Router.TakesFirst (action : SniffAction α ω) (c : Context α ω) (s : StreamConn) : Prop :=
  r.takes action c s = true → s.buffers = []

lemma Router.sniffStream_bytes (action : SniffAction α ω) (c : Context α ω) (s : StreamConn) :
    (r.sniffStream action c s).2.1.bytes = s.bytes := by
  simp only [Router.sniffStream]
  split
  · rfl
  · rw [StreamConn.bytes_keep, peekStream_bytes]
    rfl

/-- Exactly if an action takes bytes, it leaves one buffer more. -/
lemma Router.sniffStream_buffers (action : SniffAction α ω) (c : Context α ω) (s : StreamConn) :
    r.takes action c s = false ∧ (r.sniffStream action c s).2.1.buffers = s.buffers ∨
      r.takes action c s = true ∧ ∃ b ≠ [], (r.sniffStream action c s).2.1.buffers = s.buffers ++ [b] := by
  cases hskip : action.skipsStream c with
  | true => exact .inl (by simp [Router.sniffStream, Router.takes, hskip])
  | false =>
    have hbuffer := peekStream_buffer (r.streamSniffers action) r.packetSize_pos s.buffers.flatten s.reads none [] c
    simp only [Router.sniffStream, Router.takes, hskip, StreamConn.keep, Bool.false_eq_true, if_false, Bool.not_false,
      Bool.true_and]
    cases hgives : gives (r.streamSniffers action) s.buffers.flatten c s.reads with
    | false => exact .inl ⟨rfl, if_pos (hbuffer.2 ⟨rfl, hgives⟩)⟩
    | true =>
      have hne := mt hbuffer.1 (by simp [hgives])
      exact .inr ⟨rfl, _, hne, if_neg hne⟩

/-- **Sniffing loses nothing**: the buffers and the rest of the stream are the client's bytes. -/
theorem Router.matchRule_bytes (m : Metadata α ω) (s : StreamConn) :
    (r.matchRule r.sniffStream m s).conn.bytes = s.bytes :=
  Router.matchRule_conn (I := fun s' => s'.bytes = s.bytes)
    (fun action c s' => (r.sniffStream_bytes action c s').trans) m rfl

/-! ### Handing the connection on -/

/-- A connection as it is handed on. -/
inductive Conn where
  | stream (reads : List StreamRead)
  /-- `bufio.NewCachedConn` -/
  | cached (conn : Conn) (buffer : GoString)
  /-- `deadline.NewConn`, or the connection of a tracker. -/
  | wrapped (conn : Conn)

def Conn.bytes : Conn → GoString
  | .stream reads => streamBytes reads
  | .cached conn buffer => buffer ++ conn.bytes
  | .wrapped conn => conn.bytes

/-- The buffers are put in front of the connection, one by one. -/
def Conn.cacheAll (conn : Conn) (buffers : List GoString) : Conn := buffers.foldl Conn.cached conn

lemma Conn.bytes_cacheAll (conn : Conn) (buffers : List GoString) :
    (conn.cacheAll buffers).bytes = buffers.reverse.flatten ++ conn.bytes := by
  induction buffers generalizing conn with
  | nil => rfl
  | cons buffer buffers ih =>
    rw [Conn.cacheAll]
    have := ih (.cached conn buffer)
    rw [Conn.cacheAll] at this
    simp [this, Conn.bytes]

def Conn.track (conn : Conn) (trackers : ℕ) : Conn := Conn.wrapped^[trackers] conn

@[simp]
lemma Conn.bytes_track (conn : Conn) (trackers : ℕ) : (conn.track trackers).bytes = conn.bytes := by
  induction trackers generalizing conn with
  | zero => rfl
  | succ n ih =>
    exact ih (.wrapped conn)

inductive Routed where
  | error (e : RouteError)
  /-- To the inbound of a detour. -/
  | injected (inbound : String) (conn : Conn)
  | hijackDNS (conn : Conn)
  | outbound (tag : String) (conn : Conn)

/-- The connection handed to an outbound or to DNS hijacking. -/
def Routed.handed : Routed → Option Conn
  | .hijackDNS conn => some conn
  | .outbound _ conn => some conn
  | _ => none

/-- The outbound with a tag, if it has the network. -/
def Router.findOutbound (r : Router α ω) (network : Network) (tag : String) : Except RouteError (Outbound α) :=
  match r.outbound tag with
  | none => .error (.outboundNotFound tag)
  | some outbound =>
    if outbound.network.contains network then .ok outbound else .error (.networkNotSupported outbound.tag)

def Router.defaultOutbound (r : Router α ω) (network : Network) : Except RouteError (Outbound α) :=
  if r.default.network.contains network then .ok r.default else .error (.networkNotSupported r.default.tag)

/-- The end of `routeConnection`: the outbound is chosen, and the connection handed to it. -/
def Router.handStream (r : Router α ω) (selected : Option (Rule α ω × ℕ)) (conn : Conn) (trackers : ℕ) : Routed :=
  let hand (outbound : Except RouteError (Outbound α)) : Routed :=
    match outbound with
    | .error e => .error e
    | .ok outbound => .outbound outbound.tag (conn.track trackers)
  match selected with
  | none => hand (r.defaultOutbound .tcp)
  | some (rule, _) =>
    match rule.action with
    | .route action => hand (r.findOutbound .tcp action.outbound)
    | .bypass outbound _ => hand (r.findOutbound .tcp outbound)
    | .reject method _ => .error (if method = .reply then .replyNotSupported else .rejected)
    | .hijackDNS => .hijackDNS conn
    -- no rule with another action is selected
    | _ => .error (.outboundNotFound "")

/-- `routeConnection`: `detours` are the inbounds that take connections, `needDeadline` says whether the connection
has to be wrapped for deadlines. -/
def Router.routeConnection (r : Router α ω) (detours : List String) (needDeadline : Bool) (trackers : ℕ)
    (m : Metadata α ω) (reads : List StreamRead) : Routed :=
  if m.inboundDetour ≠ "" then
    if m.lastInbound = m.inboundDetour || !detours.contains m.inboundDetour then .error .detour
    else .injected m.inboundDetour (.stream reads)
  else if r.reserved.contains m.destination.fqdn then .error .reserved
  else if m.inboundType = "tun" && m.protocol = "dns" then .hijackDNS (.stream reads)
  else
    let matched := r.matchRule r.sniffStream { m with network := .tcp } ⟨reads, []⟩
    let rest : Conn := if needDeadline then .wrapped (.stream matched.conn.reads) else .stream matched.conn.reads
    match matched.fatalErr with
    | some e => .error e
    | none => r.handStream matched.selected (rest.cacheAll matched.conn.buffers) trackers

lemma Router.handStream_handed {r : Router α ω} {selected : Option (Rule α ω × ℕ)} {conn conn' : Conn}
    {trackers : ℕ} (h : (r.handStream selected conn trackers).handed = some conn') : conn'.bytes = conn.bytes := by
  have hout : ∀ outbound : Except RouteError (Outbound α),
      (match outbound with
        | .error e => Routed.error e
        | .ok outbound => .outbound outbound.tag (conn.track trackers)).handed = some conn' →
      conn'.bytes = conn.bytes := by
    intro outbound h
    split at h
    · cases h
    · cases h
      exact conn.bytes_track trackers
  simp only [Router.handStream] at h
  split at h
  · exact hout _ h
  · split at h
    · exact hout _ h
    · exact hout _ h
    · cases h
    · cases h
      rfl
    · cases h

/-- The sniff actions that are run for the connection all take bytes first; none is run for a DNS connection of a TUN
inbound. -/
def Router.AllTakeFirst (m : Metadata α ω) (reads : List StreamRead) : Prop :=
  (m.inboundType = "tun" && m.protocol = "dns") = true ∨
    r.EverySniff r.sniffStream r.TakesFirst { m with network := .tcp } ⟨reads, []⟩

/-- The buffers at the end of the loop: filled ones, and at most one exactly if the sniff actions take bytes first. -/
lemma Router.matchRule_buffers (m : Metadata α ω) (reads : List StreamRead)
    (hok : (r.matchRule r.sniffStream m ⟨reads, []⟩).fatalErr = none) :
    [] ∉ (r.matchRule r.sniffStream m ⟨reads, []⟩).conn.buffers ∧
    ((r.matchRule r.sniffStream m ⟨reads, []⟩).conn.buffers.length ≤ 1 ↔
      r.EverySniff r.sniffStream r.TakesFirst m ⟨reads, []⟩) := by
  constructor
  · refine Router.matchRule_conn (I := fun s : StreamConn => [] ∉ s.buffers) (fun action c s hs => ?_) m (by simp)
    rcases r.sniffStream_buffers action c s with ⟨-, hb⟩ | ⟨-, b, hne, hb⟩
    · rwa [hb]
    · simpa [hb, hs] using hne.symm
  · refine Router.matchRule_iff (P := fun s : StreamConn => s.buffers.length ≤ 1) (fun action c s hs => ?_)
      (fun action c s hs => ?_) m (by simp) hok
    · rcases r.sniffStream_buffers action c s with ⟨ht, hb⟩ | ⟨ht, b, -, hb⟩
      · simp [hb, hs, Router.TakesFirst, ht]
      · simp [hb, Router.TakesFirst, ht]
    · rcases r.sniffStream_buffers action c s with ⟨-, hb⟩ | ⟨-, b, -, hb⟩
      · rwa [hb]
      · simp only [hb, length_append, length_singleton]
        omega

/-- Two buffers read backwards begin with a byte that is not the first one, if this one does not come again. -/
lemma reverse_flatten_ne {buffers : List GoString} (hne : [] ∉ buffers) (hlen : 1 < buffers.length)
    (hfirst : ∀ b rest, buffers.flatten = b :: rest → b ∉ rest) : buffers.reverse.flatten ≠ buffers.flatten := by
  obtain ⟨first, l, rfl⟩ := exists_cons_of_ne_nil (ne_nil_of_length_pos (Nat.zero_lt_of_lt hlen))
  obtain ⟨l, last, rfl⟩ := (eq_nil_or_concat' l).resolve_left (by rintro rfl; simp at hlen)
  obtain ⟨x, first, rfl⟩ := exists_cons_of_ne_nil (fun h : first = [] => hne (by simp [h]))
  obtain ⟨y, last, rfl⟩ := exists_cons_of_ne_nil (fun h : last = [] => hne (by simp [h]))
  intro h
  have hxy : y = x := by simpa using congrArg head? h
  refine hfirst x _ rfl ?_
  simp [hxy]

/-- **The outbound reads the client's bytes in order if every sniff action that takes some finds none in a buffer**, and
only then if the first of them does not come again. -/
theorem handed_bytes_eq_iff (detours : List String) (needDeadline : Bool) (trackers : ℕ)
    (m : Metadata α ω) (reads : List StreamRead) (conn : Conn)
    (h : (r.routeConnection detours needDeadline trackers m reads).handed = some conn) :
    (r.AllTakeFirst m reads → conn.bytes = streamBytes reads) ∧ ∀ b rest, streamBytes reads = b :: rest → b ∉ rest →
        (conn.bytes = streamBytes reads ↔ r.AllTakeFirst m reads) := by
  simp only [Router.routeConnection, Router.AllTakeFirst] at h ⊢
  split at h
  · split at h <;> cases h
  split at h
  · cases h
  split at h
  next htun =>
    cases h
    simp [htun, Conn.bytes]
  next htun =>
    split at h
    · cases h
    next hok =>
      obtain ⟨hne, hlen⟩ := r.matchRule_buffers { m with network := .tcp } reads hok
      have hall := (r.matchRule_bytes { m with network := .tcp } ⟨reads, []⟩).symm
      have hconn := Router.handStream_handed h
      rw [Conn.bytes_cacheAll] at hconn
      generalize r.matchRule r.sniffStream { m with network := .tcp } ⟨reads, []⟩ = matched at *
      have hrest : (if needDeadline then Conn.wrapped (.stream matched.conn.reads)
          else .stream matched.conn.reads).bytes = streamBytes matched.conn.reads := by split <;> rfl
      have hreads : streamBytes reads = matched.conn.buffers.flatten ++ streamBytes matched.conn.reads := hall
      have hiff : conn.bytes = streamBytes reads ↔
          matched.conn.buffers.reverse.flatten = matched.conn.buffers.flatten := by
        rw [hconn, hrest, hreads, append_left_inj]
      have hone (h1 : matched.conn.buffers.length ≤ 1) : conn.bytes = streamBytes reads := by
        rw [hiff]
        rcases hb : matched.conn.buffers with _ | ⟨b, _ | ⟨b', l⟩⟩
        · rfl
        · rfl
        · simp [hb] at h1
      simp only [htun, Bool.false_eq_true, false_or, ← hlen]
      refine ⟨hone, fun b rest hb hnot => ⟨fun heq => ?_, hone⟩⟩
      by_contra h1
      refine reverse_flatten_ne hne (not_le.1 h1) (fun b' rest' hb' => ?_) (hiff.1 heq)
      rw [hreads, hb', cons_append, cons.injEq] at hb
      rw [hb.1]
      exact fun hmem => hnot (hb.2 ▸ mem_append_left _ hmem)

/-! ### Two sniff actions -/

/-- A router with one outbound and some rules. -/
def sampleRouter (rules : List (Rule ℕ Unit)) : Router ℕ Unit where
  rules := rules
  outbound _ := none
  default := ⟨"proxy", [.tcp, .udp], .plain⟩
  transports := []
  lookup _ _ := none
  fakeIP _ := .notFake
  lookupReverseMapping _ := none
  search _ := ()
  is4 _ := true
  isDomainName _ := false
  isDomainName_empty := rfl
  defaultStreamSniffers := []
  defaultPacketSniffers := []
  quicClientHello c _ := (some .other, c.unsniffed)
  packetSize := 16384
  packetSize_pos := by decide
  reserved := []
  flooded := false

def sampleMetadata (network : Network) : Metadata ℕ Unit :=
  { network := network, destination := ⟨.addr 1, 443⟩, other := () }

/-- The fields of a header: their widths, and the values that they have to have. -/
def checkFields : List (ℕ × Option ℕ) → GoString → Option SniffError
  | [], _ => none
  | (width, value) :: fields, bytes =>
    if bytes.length < width then some .needMoreData
    else if value.any (· ≠ (bytes.take width).foldl (fun n b => n * 2 ^ 8 + b.toNat) 0) then some .other
    else checkFields fields (bytes.drop width)

/-- `sniff.RDP` -/
def rdp : Sniffer α ω := fun c bytes =>
  let fields := [(1, some 0x03), (1, some 0x00), (2, some 19), (1, some 14), (1, some 0xE0), (5, none), (1, some 0x01),
    (1, none), (1, some 8)]
  match checkFields fields bytes with
  | none => (none, { c.unsniffed with protocol := "rdp" })
  | some err => (some err, c.unsniffed)

/-- `sniff.SSH`; `bufio.Reader.ReadLine` reads at most 4096 bytes. -/
def ssh (setClient : ω → GoString → ω) : Sniffer α ω := fun c bytes =>
  let header : GoString := [0x53, 0x53, 0x48, 0x2D, 0x32, 0x2E, 0x30, 0x2D]
  if bytes.take 8 ≠ header.take bytes.length then (some .other, c.unsniffed)
  else if bytes.length < 8 then (some .needMoreData, c.unsniffed)
  else
    let line := (bytes.take 4096).takeWhile (· ≠ 0x0A)
    let cut := line.getLast? = some 0x0D && (line.length < bytes.length || line.length = 4096)
    let line := if cut then line.dropLast else line
    (none, { c.unsniffed with protocol := "ssh", other := setClient c.other (line.drop 8) })

def sniffRule (name : String) (sniffer : Sniffer ℕ Unit) : Rule ℕ Unit where
  isMatch _ _ := true
  action := .sniff { snifferNames := [name], streamSniffers := [sniffer] }

def sshRule : Rule ℕ Unit := sniffRule "ssh" (ssh fun _ _ => ())

/-- The first two letters of an HTTP request, in two reads. -/
def twoReads : List StreamRead := [.data [0x47] false, .data [0x45] false]

/-- After two sniff actions, each of which has read one of them, the outbound reads the second byte first. -/
theorem two_sniffs_reverse_bytes :
    ((sampleRouter [sshRule, sniffRule "rdp" rdp]).routeConnection [] false 0 (sampleMetadata .tcp)
      twoReads).handed.map Conn.bytes = some [0x45, 0x47] ∧ streamBytes twoReads = [0x47, 0x45] := by decide

/-- After one, which has read one of them, it reads both in order. -/
theorem one_sniff_keeps_bytes :
    ∃ conn, ((sampleRouter [sshRule]).routeConnection [] false 0 (sampleMetadata .tcp) twoReads).handed =
      some conn ∧ conn.bytes = streamBytes twoReads := by
  refine ⟨_, rfl, (handed_bytes_eq_iff (sampleRouter [sshRule]) [] false 0 (sampleMetadata .tcp) twoReads _ rfl).1 ?_⟩
  exact .inr fun c _ => ⟨fun _ _ _ => rfl, fun _ _ _ => trivial⟩

end SingBox.Routing
