import SingBox.Lib.Goroutine
import SingBox.Xhttp.Range

/-!
# The XMUX connection pool (`transport/v2rayxhttp/xmux.go`)

`xmuxManager` hands out pooled HTTP/2 connections.  A client is a number, its fields stand in the heap
of the `Pool`; `newClientLocked` takes the next free number.

The atomic sections are those of the source: the manager lock around `get`, the client lock around
`addOpenUsage` and `close`, single atomic accesses for `leftRequests`, `consecFails`, `failing` and
`backoffArmed`.  `Client.DialContext` (`client.go`) is `get`, then `addOpenUsage(1)`, then, when the
stream ends, one `addOpenUsage(-1)`; a `get` that has to wait for the breaker is tried again.
`xmuxManager.Close` takes the clients out under the lock and closes them one by one afterwards.

Clock readings and random draws are inputs of a section.  Log lines are left out.
-/

namespace SingBox.Xhttp

open SingBox.Lib

/-! ### Configuration -/

/-- `option.V2RayXHTTPXmuxOptions`. -/
structure XmuxOptions where
  maxConcurrency : GoString
  maxConnections : GoString
  cMaxReuseTimes : GoString
  hMaxRequestTimes : GoString
  hMaxReusableSecs : GoString
  hKeepAlivePeriod : ℤ
  deriving DecidableEq, Repr

def XmuxOptions.empty : XmuxOptions := ⟨[], [], [], [], [], 0⟩

structure XmuxConfig where
  maxConcurrency : IntRange := ⟨0, 0⟩
  maxConnections : IntRange := ⟨0, 0⟩
  cMaxReuseTimes : IntRange := ⟨0, 0⟩
  hMaxRequestTimes : IntRange := ⟨0, 0⟩
  hMaxReusableSecs : IntRange := ⟨0, 0⟩
  keepAlivePeriod : ℤ := 0
  deriving DecidableEq, Repr

def defaultXmuxMaxConcurrency : IntRange := ⟨1, 1⟩
def defaultXmuxHMaxRequestTimes : IntRange := ⟨600, 900⟩
def defaultXmuxHMaxReusableSecs : IntRange := ⟨1800, 3000⟩

/-- `time.Second`, in nanoseconds. -/
def second : ℤ := 1000000000

/-- The ranges of a section in which some field is set. -/
def normalizeXmuxSection (options : XmuxOptions) : Except ConfigError XmuxConfig := do
  let maxConcurrency ← parseRangeOr options.maxConcurrency "xmux.max_concurrency" ⟨0, 0⟩
  let maxConnections ← parseRangeOr options.maxConnections "xmux.max_connections" ⟨0, 0⟩
  if 0 < maxConnections.max ∧ 0 < maxConcurrency.max then
    throw (.new ("v2ray-xhttp: xmux.max_connections cannot be specified together with " ++
      "xmux.max_concurrency"))
  let cMaxReuseTimes ← parseRangeOr options.cMaxReuseTimes "xmux.c_max_reuse_times" ⟨0, 0⟩
  let hMaxRequestTimes ← parseRangeOr options.hMaxRequestTimes "xmux.h_max_request_times" ⟨0, 0⟩
  let hMaxReusableSecs ← parseRangeOr options.hMaxReusableSecs "xmux.h_max_reusable_secs" ⟨0, 0⟩
  return { maxConcurrency, maxConnections, cMaxReuseTimes, hMaxRequestTimes, hMaxReusableSecs,
           keepAlivePeriod := int64 (options.hKeepAlivePeriod * second) }

def normalizeXmux (options : Option XmuxOptions) : Except ConfigError XmuxConfig :=
  match options with
  | none => .ok { maxConcurrency := defaultXmuxMaxConcurrency,
                  hMaxRequestTimes := defaultXmuxHMaxRequestTimes,
                  hMaxReusableSecs := defaultXmuxHMaxReusableSecs }
  | some o =>
    if o = XmuxOptions.empty then
      .ok { maxConcurrency := defaultXmuxMaxConcurrency,
            hMaxRequestTimes := defaultXmuxHMaxRequestTimes,
            hMaxReusableSecs := defaultXmuxHMaxReusableSecs }
    else normalizeXmuxSection o

/-! ### Clients -/

/-- `http2XmuxConn`: what `Close` has done to the transport. -/
structure XmuxConn where
  closed : Bool := false
  deriving DecidableEq, Repr

def XmuxConn.close (_ : XmuxConn) : XmuxConn := ⟨true⟩

def maxInt32 : ℤ := 2147483647

structure XmuxClient where
  conn : XmuxConn := {}
  openUsage : ℤ := 0
  leftUsage : ℤ := -1
  leftRequests : ℤ := maxInt32
  unreusableAt : Option ℤ := none
  consecFails : ℤ := 0
  failing : Bool := false
  closed : Bool := false
  deriving DecidableEq, Repr

def XmuxClient.close (c : XmuxClient) : XmuxClient :=
  { c with closed := true, conn := if c.openUsage ≤ 0 then c.conn.close else c.conn }

def XmuxClient.addOpenUsage (c : XmuxClient) (delta : ℤ) : XmuxClient :=
  { c with openUsage := c.openUsage + delta,
           conn := if c.closed ∧ c.openUsage + delta ≤ 0 then c.conn.close else c.conn }

inductive EvictCause where
  | closed | failing | reuse | requests | expired
  deriving DecidableEq, Repr

def XmuxClient.evictCause (c : XmuxClient) (now : ℤ) : Option EvictCause :=
  if c.conn.closed then some .closed
  else if c.failing then some .failing
  else if c.leftUsage = 0 then some .reuse
  else if c.leftRequests ≤ 0 then some .requests
  else match c.unreusableAt with
    | some t => if t < now then some .expired else none
    | none => none

/-! ### The pool -/

abbrev ClientId := ℕ

structure XmuxManager where
  config : XmuxConfig
  concurrency : ℤ
  connections : ℤ
  clients : List ClientId := []
  backoffDelay : ℤ := 0
  blockedUntil : ℤ := 0
  backoffArmed : Bool := false

/-- The manager, the fields of all clients ever made, and the next free client. -/
structure Pool where
  manager : XmuxManager
  heap : ClientId → XmuxClient := fun _ => {}
  next : ClientId := 0

/-- The outside inputs of one section: a clock reading, the random draws, whether the caller's
context has ended, and what the HTTP round trip returned. -/
structure Input where
  now : ℤ := 0
  reuse : ℕ := 0
  requests : ℕ := 0
  secs : ℕ := 0
  pick : ℕ := 0
  ctxDone : Bool := false
  roundTripErr : Bool := false
  status : ℕ := 200

def xmuxBreakerThreshold : ℤ := 3
def xmuxBackoffInitial : ℤ := 100000000
def xmuxBackoffCap : ℤ := 3000000000

def newXmuxManager (config : XmuxConfig) (rollConcurrency rollConnections : ℕ) : Pool where
  manager :=
    { config
      concurrency := config.maxConcurrency.rand rollConcurrency
      connections := config.maxConnections.rand rollConnections }

namespace Pool

def update (p : Pool) (c : ClientId) (f : XmuxClient → XmuxClient) : Pool :=
  { p with heap := Function.update p.heap c (f (p.heap c)) }

def setClients (p : Pool) (cs : List ClientId) : Pool :=
  { p with manager := { p.manager with clients := cs } }

def close (p : Pool) (c : ClientId) : Pool := p.update c XmuxClient.close

def noteBreakerTrip (p : Pool) (now : ℤ) : Pool :=
  let delay :=
    if p.manager.backoffDelay = 0 then xmuxBackoffInitial
    else if xmuxBackoffCap < p.manager.backoffDelay * 2 then xmuxBackoffCap
    else p.manager.backoffDelay * 2
  { p with manager := { p.manager with
      backoffDelay := delay, blockedUntil := now + delay, backoffArmed := true } }

def resetBackoff (p : Pool) : Pool :=
  { p with manager := { p.manager with
      backoffDelay := 0, blockedUntil := 0, backoffArmed := false } }

def freshClient (p : Pool) (x : Input) : XmuxClient :=
  let reuse := p.manager.config.cMaxReuseTimes.rand x.reuse
  let requests := p.manager.config.hMaxRequestTimes.rand x.requests
  let secs := p.manager.config.hMaxReusableSecs.rand x.secs
  { leftUsage := if 0 < reuse then reuse - 1 else -1
    leftRequests := if 0 < requests then int32 requests else maxInt32
    unreusableAt := if 0 < secs then some (x.now + int64 (secs * second)) else none }

def newClientLocked (p : Pool) (x : Input) : Pool :=
  { manager := { p.manager with clients := p.manager.clients ++ [p.next] }
    heap := Function.update p.heap p.next (p.freshClient x)
    next := p.next + 1 }

def evicted (p : Pool) (now : ℤ) : List ClientId :=
  p.manager.clients.filter fun c => ((p.heap c).evictCause now).isSome

def kept (p : Pool) (now : ℤ) : List ClientId :=
  p.manager.clients.filter fun c => ((p.heap c).evictCause now).isNone

/-- The first half of `get`: the evicted clients leave the pool and are closed. -/
def evict (p : Pool) (now : ℤ) : Pool :=
  (p.evicted now).foldl close (p.setClients (p.kept now))

def candidates (p : Pool) : List ClientId :=
  if 0 < p.manager.concurrency then
    p.manager.clients.filter fun c => (p.heap c).openUsage < p.manager.concurrency
  else p.manager.clients

def takeLeftUsage (p : Pool) (c : ClientId) : Pool :=
  p.update c fun k => if 0 < k.leftUsage then { k with leftUsage := k.leftUsage - 1 } else k

/-- The second half of `get`; no client means that the caller has to wait for the breaker. -/
def choose (p : Pool) (x : Input) : Pool × Option ClientId :=
  if p.manager.clients = [] then
    if p.manager.backoffArmed ∧ 0 < p.manager.blockedUntil - x.now then (p, none)
    else (p.newClientLocked x, some p.next)
  else if 0 < p.manager.connections ∧ p.manager.clients.length < p.manager.connections then
    (p.newClientLocked x, some p.next)
  else
    match p.candidates[(randIntn p.candidates.length x.pick).toNat]? with
    | none => (p.newClientLocked x, some p.next)
    | some c => (p.takeLeftUsage c, some c)

def get (p : Pool) (x : Input) : Pool × Option ClientId := (p.evict x.now).choose x

/-- The second half of `get` has no client to reuse, or should open another connection. -/
def Opens (p : Pool) : Prop := (p.manager.clients.length : ℤ) < p.manager.connections ∨ p.candidates = []
  deriving Decidable

end Pool

/-! ### Atomic sections and calls -/

/-- The atomic sections of the goroutines that use the pool. -/
inductive XmuxOp where
  /-- One `get()` of `getContext`. -/
  | get
  /-- `addOpenUsage(1)` of `DialContext`. -/
  | addOpenUsage (c : ClientId)
  /-- The `addOpenUsage(-1)` that ends the stream. -/
  | release (c : ClientId)
  /-- The first section of `xmuxManager.Close`. -/
  | closeManager
  /-- The clients `xmuxManager.Close` has still to close. -/
  | closeClients (cs : List ClientId)
  | takeRequest (c : ClientId)
  /-- `RoundTrip` returns to `xmuxClient.roundTrip`. -/
  | roundTripped (c : ClientId)
  /-- `consecFails.Add(1)` of `noteFailure`. -/
  | countFailure (c : ClientId)
  /-- `failing.Store(true)` of `noteFailure`. -/
  | storeFailing (c : ClientId)
  | noteBreakerTrip
  /-- `consecFails.Store(0)` of `noteSuccess`. -/
  | storeSuccess (c : ClientId)
  /-- `backoffArmed.Load()` of `resetBackoff`. -/
  | loadArmed
  | resetBackoff
  deriving DecidableEq, Repr

inductive XmuxCall where
  | dialContext
  | close
  | roundTrip (c : ClientId)
  | noteFailure (c : ClientId)
  | noteSuccess (c : ClientId)
  deriving DecidableEq, Repr

def XmuxCall.code : XmuxCall → List XmuxOp
  | .dialContext => [.get]
  | .close => [.closeManager]
  | .roundTrip c => [.takeRequest c, .roundTripped c]
  | .noteFailure c => [.countFailure c]
  | .noteSuccess c => [.storeSuccess c]

def XmuxOp.exec (o : XmuxOp) (x : Input) (p : Pool) : Option (Pool × List XmuxOp) :=
  match o with
  | .get =>
    match p.get x with
    | (q, some c) => some (q, [.addOpenUsage c])
    | (q, none) => some (q, if x.ctxDone then [] else [.get])
  | .addOpenUsage c => some (p.update c (·.addOpenUsage 1), [.release c])
  | .release c => some (p.update c (·.addOpenUsage (-1)), [])
  | .closeManager => some (p.setClients [], [.closeClients p.manager.clients])
  | .closeClients [] => some (p, [])
  | .closeClients (c :: cs) => some (p.close c, [.closeClients cs])
  | .takeRequest c => some (p.update c fun k => { k with leftRequests := int32 (k.leftRequests - 1) }, [])
  | .roundTripped c =>
    -- an error counts unless the request's own context ended; so does a response other than 200
    if (x.roundTripErr ∧ ¬ x.ctxDone) ∨ (¬ x.roundTripErr ∧ x.status ≠ 200) then
      some (p, [.countFailure c])
    else some (p, [])
  | .countFailure c =>
    let fails := int32 ((p.heap c).consecFails + 1)
    some (p.update c fun k => { k with consecFails := fails },
      if fails = xmuxBreakerThreshold then [.storeFailing c] else [])
  | .storeFailing c => some (p.update c fun k => { k with failing := true }, [.noteBreakerTrip])
  | .noteBreakerTrip => some (p.noteBreakerTrip x.now, [])
  | .storeSuccess c => some (p.update c fun k => { k with consecFails := 0 }, [.loadArmed])
  | .loadArmed => some (p, if p.manager.backoffArmed then [.resetBackoff] else [])
  | .resetBackoff => some (p.resetBackoff, [])

/-- **The pool as a program of goroutines.** -/
def xmuxProgram : Program Pool XmuxOp Input XmuxCall where
  entry k p := (p, k.code)
  exec := XmuxOp.exec

abbrev XmuxState := Config Pool XmuxOp
abbrev XmuxEvent := Event Input XmuxCall

end SingBox.Xhttp
