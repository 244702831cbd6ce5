import Mathlib.Data.Multiset.Range
import SingBox.Dns.ConnPool
import SingBox.Dns.Message
import SingBox.Lib.Fork

/-!
# The DNS multiplexer

`queryMultiplexer`: the queries of all connections wait in one table, by the ID under which they were sent.  A section
is what a goroutine does under one lock, in one atomic access or in one call of the network; calls, connections and
the functions registered on contexts are numbered.  The callback of a call is invoked in a section of its own, which
puts the result into `answered`.

Every callback has one holder (`holders`): a section that will invoke it or hand it on, the entry of its query in the
table, or its result.  A section that takes an entry out of the table becomes the holder of its callback.  The entry is
found by the ID alone, though: `OwnEntry` says that it is the one that was meant.
-/

namespace SingBox.Dns.Multiplexer

open SingBox.Lib List Multiset Option Function

/-! ### Queries -/

structure Options where
  retryReadError : Bool := false
  probeReuse : Bool := false

inductive ReuseState where
  | unknown
  | probing
  | supported
  | unsupported
  deriving DecidableEq

def reuseProbeRetryInterval : ℕ := 60 * 10 ^ 9
def reuseDemoteFailureLimit : ℕ := 3

inductive QueryError where
  | writeRequest
  | readResponse
  | noAvailableQueryID
  /-- The error of a write, and `queryMultiplexerReadError`: causes for which a connection is given up. -/
  | write
  | read
  deriving DecidableEq

abbrev Err := ConnError QueryError

structure Query where
  ctx : ℕ
  message : Msg
  callback : ℕ

/-- `pendingQuery`; the functions that stop the waiting for a context are there by their numbers. -/
structure Pending where
  conn : ℕ
  message : Msg
  readEpoch : ℕ
  callback : ℕ
  stopContext : ℕ
  stopConn : ℕ
  retryCtx : Option ℕ

/-- What a callback is invoked with: a response, with the connection it was read from and the ID it carried there, or an
error. -/
inductive Result where
  | response (message : Msg) (conn wireId : ℕ)
  | error (err : Option Err)
  deriving DecidableEq

/-- The result of a call, with its latest attempt: the connection and the ID under which it was sent. -/
structure Answer where
  call : ℕ
  result : Result
  attempt : Option (ℕ × ℕ)
  deriving DecidableEq

structure Turn where
  firstAttempt : Bool
  retryReadError : Bool

inductive Op where
  | dispatch (q : Query) (retryReadError : Bool)
  | maybeStartProbe (q : Query)
  | runReuseProbe (epoch : ℕ)
  | singleDial (q : Query)
  | singleWrite (q : Query) (conn stop : ℕ)
  | singleRead (q : Query) (conn stop : ℕ)
  | acquireShared (q : Query) (t : Turn)
  /-- The `select` of `acquireShared`. -/
  | await (q : Query) (t : Turn) (state connect : ℕ) (startDial : Bool)
  | collectShared (q : Query) (t : Turn) (state connect : ℕ) (startDial : Bool)
  | connectDial (ctx state connect : ℕ)
  | connectInstall (state connect : ℕ) (dialed : Except Err ℕ)
  | connectDone (connect : ℕ)
  | register (q : Query) (t : Turn) (conn : ℕ) (created : Bool)
  | write (q : Query) (t : Turn) (conn queryId : ℕ) (created : Bool)
  /-- The entry is taken back after the write has failed ... -/
  | writeTake (q : Query) (t : Turn) (conn queryId : ℕ) (created : Bool)
  /-- ... and the query is sent again, or given up. -/
  | writeFailed (q : Query) (t : Turn) (created : Bool)
  | completeConnDone (queryId conn : ℕ)
  | connDone (p : Pending) (conn : ℕ)
  | completeContextDone (queryId ctx : ℕ)
  | contextDone (p : Pending) (ctx : ℕ)
  | recvRead (conn : ℕ)
  | recvEpoch (conn : ℕ) (message : Option Msg)
  | complete (conn : ℕ) (message : Msg)
  /-- The parts of `recordConnDeath`. -/
  | deathCheck (conn : ℕ)
  | deathCount (conn : ℕ)
  | deathAdd
  | demote
  | clearFailures
  | release (conn : ℕ)
  | invalidate (conn : ℕ) (cause : Err)
  | closeConn (conn : ℕ)
  | stop (number : ℕ)
  | callback (call : ℕ) (result : Result)
  | cancelContext (ctx : ℕ) (err : Err)
  | resetProbe
  | poolReset
  | poolClose
  | cancelState (state : ℕ)

/-- The contexts: those that calls are made with, and those of shared connections. -/
inductive Ctx where
  | query (ctx : ℕ)
  | conn (conn : ℕ)

inductive AfterFunc where
  | completeContextDone (queryId ctx : ℕ)
  | completeConnDone (queryId conn : ℕ)
  | closeConn (ctx conn : ℕ)

def AfterFunc.ctx : AfterFunc → Ctx
  | .completeContextDone _ ctx => .query ctx
  | .completeConnDone _ conn => .conn conn
  | .closeConn ctx _ => .query ctx

def AfterFunc.op : AfterFunc → Op
  | .completeContextDone queryId ctx => .completeContextDone queryId ctx
  | .completeConnDone queryId conn => .completeConnDone queryId conn
  | .closeConn _ conn => .closeConn conn

/-- The channels of the `select` of `acquireShared`. -/
inductive Branch where
  | done
  | ctxDone
  | stateDone

structure Input where
  fails : Bool := false
  message : Option Msg := none
  branch : Branch := .done
  /-- A dial was ended by the state of the pool before it was by its context. -/
  stateFirst : Bool := false
  /-- What `executeReuseProbe` returns. -/
  supported : Bool := false
  dialFailed : Bool := false
  now : ℕ := 0

structure State where
  queryId : ℕ := 0
  queries : List (ℕ × Pending) := []
  reuseState : ReuseState := .unknown
  demoteFailures : ℕ := 0
  probeEpoch : ℕ := 0
  lastProbeTime : Option ℕ := none
  connection : ConnPool ℕ QueryError := {}
  /-- The number of connections dialed, the closed ones, and the messages read from each. -/
  dialed : ℕ := 0
  closed : List ℕ := []
  readEpoch : ℕ → ℕ := fun _ => 0
  /-- The number of calls, and the errors of the contexts. -/
  calls : ℕ := 0
  ctxErr : ℕ → Option Err := fun _ => none
  /-- The functions registered on contexts, by their numbers. -/
  afterFuncs : List (ℕ × AfterFunc) := []
  afterFuncCount : ℕ := 0
  attempt : ℕ → Option (ℕ × ℕ) := fun _ => none
  answered : List Answer := []

namespace State

/-- `maybeStartProbe`; a probe is started if it returns one. -/
def maybeStartProbe (s : State) (message : Msg) (now : ℕ) : State × List Op :=
  if message.question = [] then (s, [])
  else if s.reuseState = .probing then (s, [])
  else if s.lastProbeTime.any fun last => now - last < reuseProbeRetryInterval then (s, [])
  else ({ s with reuseState := .probing, lastProbeTime := some now }, [.runReuseProbe s.probeEpoch])

def runReuseProbe (s : State) (epoch : ℕ) (supported dialFailed : Bool) : State :=
  if s.probeEpoch ≠ epoch then s
  else if supported then { s with reuseState := .supported, demoteFailures := 0 }
  else if dialFailed then { s with reuseState := .unknown }
  else { s with reuseState := .unsupported }

def ctxDone (s : State) : Ctx → Bool
  | .query ctx => (s.ctxErr ctx).isSome
  | .conn conn => (s.connection.causes conn).isSome

/-- The functions whose context is done are started. -/
def fire (s : State) : State × List Op :=
  ({ s with afterFuncs := s.afterFuncs.filter fun f => !s.ctxDone f.2.ctx },
    (s.afterFuncs.filter fun f => s.ctxDone f.2.ctx).map fun f => f.2.op)

end State

/-- The loop of `register` that looks for an ID, with the turns left. -/
def nextQueryId (used : ℕ → Bool) (start : ℕ) : ℕ → ℕ → Option ℕ
  | 0, _ => none
  | n + 1, queryId =>
    if !used ((queryId + 1) % 2 ^ 16) then some ((queryId + 1) % 2 ^ 16)
    else if (queryId + 1) % 2 ^ 16 = start then none
    else nextQueryId used start n ((queryId + 1) % 2 ^ 16)

def takeEntry (queryId : ℕ) : List (ℕ × Pending) → Option (Pending × List (ℕ × Pending))
  | [] => none
  | e :: rest => if e.1 = queryId then some (e.2, rest) else (takeEntry queryId rest).map fun r => (r.1, e :: r.2)

namespace State

/-- `register`: the ID of the query. -/
def register (s : State) (q : Query) (conn : ℕ) (retryReadError : Bool) : Option (State × ℕ) :=
  (nextQueryId (fun i => s.queries.any fun e => e.1 == i) s.queryId (2 ^ 16) s.queryId).map fun queryId =>
    ({ s with
        queryId := queryId
        queries := (queryId,
          { conn, message := q.message, readEpoch := s.readEpoch conn, callback := q.callback,
            stopContext := s.afterFuncCount, stopConn := s.afterFuncCount + 1,
            retryCtx := if retryReadError then some q.ctx else none }) :: s.queries
        afterFuncs := (s.afterFuncCount, .completeContextDone queryId q.ctx) ::
          (s.afterFuncCount + 1, .completeConnDone queryId conn) :: s.afterFuncs
        afterFuncCount := s.afterFuncCount + 2
        attempt := Function.update s.attempt q.callback (some (conn, queryId)) }, queryId)

/-- A connection of its own for a query, which is closed when the context is done. -/
def dialSingle (s : State) (q : Query) : State :=
  { s with
    dialed := s.dialed + 1
    afterFuncs := (s.afterFuncCount, .closeConn q.ctx s.dialed) :: s.afterFuncs
    afterFuncCount := s.afterFuncCount + 1
    attempt := Function.update s.attempt q.callback (some (s.dialed, q.message.id)) }

/-- The end of `exchangeSingle` after an error. -/
def singleError (s : State) (q : Query) (conn number : ℕ) (err : QueryError) : List Op :=
  [.callback q.callback (.error ((s.ctxErr q.ctx).or (some (.other err)))), .stop number, .closeConn conn]

/-- `take`: the entry of a query, what stops the functions registered for it, and the state without it. -/
def take (s : State) (queryId : ℕ) : Option (Pending × List Op × State) :=
  (takeEntry queryId s.queries).map fun r =>
    (r.1, [.stop r.1.stopContext, .stop r.1.stopConn], { s with queries := r.2 })

/-- What `exchangeAsync` does with the outcome of a turn of `AcquireShared`. -/
def acquired (s : State) (q : Query) (t : Turn) : Acquired ℕ QueryError → State × List Op × List Op
  | .error e => (s, [.callback q.callback (.error (some e))], [])
  | .conn conn created => (s, [.register q t conn created], if created then [.recvRead conn] else [])
  | .wait state connect startDial =>
    (s, [.await q t state connect startDial], if startDial then [.connectDial q.ctx state connect] else [])
  | .dead conn => (s.fire.1, [.closeConn conn, .acquireShared q t], s.fire.2)
  | .retry => (s, [.acquireShared q t], [])

def closeState (s : State) : Option ℕ → List Op
  | none => []
  | some state => .cancelState state :: (s.connection.states state).all.map .closeConn

/-- `Cause` of the context of a dial: that of the call or that of the state, whichever was first. -/
def dialErr (s : State) (ctx state : ℕ) (stateFirst : Bool) : Option Err :=
  if stateFirst then (s.connection.states state).cause.or (s.ctxErr ctx)
  else (s.ctxErr ctx).or (s.connection.states state).cause

end State

/-- A connection is there to be handed out as long as it is not nil. -/
def isAlive (_ : ℕ) : Bool := true

def exec (options : Options) : Op → Input → State → Option (State × List Op × List Op)
  | .dispatch q retryReadError, _, s =>
    if options.probeReuse ∧ s.reuseState ≠ .supported then some (s, [.maybeStartProbe q], [])
    else some (s, [.acquireShared q ⟨true, retryReadError⟩], [])
  | .maybeStartProbe q, x, s =>
    some ((s.maybeStartProbe q.message x.now).1, [], .singleDial q :: (s.maybeStartProbe q.message x.now).2)
  | .runReuseProbe epoch, x, s => some (s.runReuseProbe epoch x.supported x.dialFailed, [], [])
  -- `exchangeSingle`
  | .singleDial q, x, s =>
    if x.fails then some (s, [.callback q.callback (.error (some .dial))], [])
    else some ((s.dialSingle q).fire.1, [.singleWrite q s.dialed s.afterFuncCount], (s.dialSingle q).fire.2)
  | .singleWrite q conn number, x, s =>
    if x.fails ∨ conn ∈ s.closed then some (s, s.singleError q conn number .writeRequest, [])
    else some (s, [.singleRead q conn number], [])
  | .singleRead q conn number, x, s =>
    if x.fails ∨ conn ∈ s.closed then some (s, s.singleError q conn number .readResponse, [])
    else
      match x.message with
      | none => some (s, [.singleRead q conn number], [])
      | some m => some (s, [.callback q.callback (.response { m with id := q.message.id } conn m.id), .stop number,
          .closeConn conn], [])
  -- `AcquireShared`
  | .acquireShared q t, _, s =>
    let r := s.connection.acquireShared isAlive
    some ({ s with connection := r.1 }.acquired q t r.2)
  | .await q t state connect startDial, x, s =>
    match x.branch with
    | .done =>
      if (s.connection.connects connect).done then some (s, [.collectShared q t state connect startDial], []) else none
    | .ctxDone => (s.ctxErr q.ctx).map fun e => (s, [.callback q.callback (.error (some e))], [])
    | .stateDone =>
      if (s.connection.states state).cause.isNone then none
      else if s.connection.closed then some (s, [.callback q.callback (.error (some .closed))], [])
      else some (s, [.acquireShared q t], [])
  | .collectShared q t state connect startDial, _, s =>
    let r := s.connection.collectShared isAlive state connect startDial
    some ({ s with connection := r.1 }.acquired q t r.2)
  -- `connectSingle`
  | .connectDial ctx state connect, x, s =>
    if x.fails then
      some (s, [.connectInstall state connect (.error ((s.dialErr ctx state x.stateFirst).getD .dial))], [])
    else
      match s.dialErr ctx state x.stateFirst with
      | none => some ({ s with dialed := s.dialed + 1 }, [.connectInstall state connect (.ok s.dialed)], [])
      | some e =>
        some ({ s with dialed := s.dialed + 1 }, [.closeConn s.dialed, .connectInstall state connect (.error e)], [])
  | .connectInstall state connect dialed, _, s =>
    let r := s.connection.install state connect dialed
    some ({ s with connection := r.1 }, r.2.toList.map .closeConn ++ [.connectDone connect], [])
  | .connectDone connect, _, s => some ({ s with connection := s.connection.finish connect }, [], [])
  -- `exchangeAsync`
  | .register q t conn created, _, s =>
    match s.register q conn (t.retryReadError && options.retryReadError && !created) with
    | none => some (s, [.release conn, .callback q.callback (.error (some (.other .noAvailableQueryID)))], [])
    | some (s', queryId) => some (s'.fire.1, [.write q t conn queryId created], s'.fire.2)
  | .write q t conn queryId created, x, s =>
    if x.fails ∨ conn ∈ s.closed then some (s, [.writeTake q t conn queryId created], [])
    else some (s, [], [])
  | .writeTake q t conn queryId created, _, s =>
    match s.take queryId with
    | none => some (s, [.invalidate conn (.other .write)], [])
    | some (_, stops, s') => some (s', stops ++ [.invalidate conn (.other .write), .writeFailed q t created], [])
  | .writeFailed q t created, _, s =>
    if !created && t.firstAttempt then some (s, [.acquireShared q { t with firstAttempt := false }], [])
    else some (s, [.callback q.callback (.error (some (.other .writeRequest)))], [])
  -- the contexts
  | .completeConnDone queryId conn, _, s =>
    match s.take queryId with
    | none => some (s, [], [])
    | some (p, stops, s') => some (s', stops ++ [.connDone p conn], [])
  | .connDone p conn, _, s =>
    match p.retryCtx, s.connection.causes conn with
    | some ctx, some (.other .read) => some (s, [.dispatch ⟨ctx, p.message, p.callback⟩ false], [])
    | _, connErr => some (s, [.callback p.callback (.error connErr)], [])
  | .completeContextDone queryId ctx, _, s =>
    match s.take queryId with
    | none => some (s, [], [])
    | some (p, stops, s') => some (s', stops ++ [.contextDone p ctx], [])
  | .contextDone p ctx, _, s =>
    let first : Op :=
      if s.ctxErr ctx = some .deadlineExceeded ∧ s.readEpoch p.conn = p.readEpoch then
        .invalidate p.conn .deadlineExceeded
      else .release p.conn
    some (s, [first, .callback p.callback (.error (s.ctxErr ctx))], [])
  -- `recvLoop`
  | .recvRead conn, x, s =>
    if x.fails ∨ conn ∈ s.closed then some (s, [.deathCheck conn, .invalidate conn (.other .read)], [])
    else some (s, [.recvEpoch conn x.message], [])
  | .recvEpoch conn m, _, s =>
    some ({ s with readEpoch := Function.update s.readEpoch conn (s.readEpoch conn + 1) },
      [m.elim (.recvRead conn) (.complete conn)], [])
  | .complete conn m, _, s =>
    match s.take m.id with
    | none => some (s, [.recvRead conn], [])
    | some (p, stops, s') =>
      some (s', stops ++ [.release p.conn, .callback p.callback (.response { m with id := p.message.id } conn m.id),
        .recvRead conn], [])
  | .deathCheck conn, _, s =>
    if ¬options.probeReuse ∨ s.reuseState ≠ .supported ∨ s.readEpoch conn = 0 then some (s, [], [])
    else some (s, [.deathCount conn], [])
  | .deathCount conn, _, s =>
    if s.queries.countP (fun e => e.2.conn == conn) = 0 then some (s, [.clearFailures], [])
    else some (s, [.deathAdd], [])
  | .deathAdd, _, s =>
    some ({ s with demoteFailures := s.demoteFailures + 1 },
      if s.demoteFailures + 1 < reuseDemoteFailureLimit then [] else [.demote], [])
  | .demote, x, s =>
    if s.reuseState = .supported then
      some ({ s with reuseState := .unsupported, lastProbeTime := some x.now }, [.clearFailures], [])
    else some (s, [.clearFailures], [])
  | .clearFailures, _, s => some ({ s with demoteFailures := 0 }, [], [])
  -- connections, contexts and callbacks
  | .release conn, _, s =>
    let r := s.connection.release isAlive conn true
    let s' := { s with connection := r.1 }
    some (s'.fire.1, if r.2 then [.closeConn conn] else [], s'.fire.2)
  | .invalidate conn cause, _, s =>
    let r := s.connection.invalidate conn cause
    let s' := { s with connection := r.1 }
    some (s'.fire.1, if r.2 then [.closeConn conn] else [], s'.fire.2)
  | .closeConn conn, _, s => some ({ s with closed := conn :: s.closed }, [], [])
  | .stop number, _, s => some ({ s with afterFuncs := s.afterFuncs.filter fun f => f.1 ≠ number }, [], [])
  | .callback call result, _, s =>
    some ({ s with answered := ⟨call, result, s.attempt call⟩ :: s.answered }, [], [])
  | .cancelContext ctx err, _, s =>
    let s' := { s with ctxErr := Function.update s.ctxErr ctx (some ((s.ctxErr ctx).getD err)) }
    some (s'.fire.1, [], s'.fire.2)
  -- `Reset` and `Close`
  | .resetProbe, _, s =>
    some ({ s with probeEpoch := (s.probeEpoch + 1) % 2 ^ 32, reuseState := .unknown, lastProbeTime := none }, [], [])
  | .poolReset, _, s =>
    let r := s.connection.reset
    some ({ s with connection := r.1 }, s.closeState r.2, [])
  | .poolClose, _, s =>
    let r := s.connection.close
    some ({ s with connection := r.1 }, s.closeState r.2, [])
  | .cancelState state, _, s =>
    let s' := { s with connection := s.connection.cancelState state .closed }
    some (s'.fire.1, [], s'.fire.2)

/-- The calls, and the end of a context. -/
inductive Call where
  | exchangeAsync (ctx : ℕ) (message : Msg)
  | cancel (ctx : ℕ)
  | deadline (ctx : ℕ)
  | reset
  | close

def entry (options : Options) : Call → State → State × List Op
  | .exchangeAsync ctx message, s => ({ s with calls := s.calls + 1 }, [.dispatch ⟨ctx, message, s.calls⟩ true])
  | .cancel ctx, s => (s, [.cancelContext ctx .canceled])
  | .deadline ctx, s => (s, [.cancelContext ctx .deadlineExceeded])
  | .reset, s => (s, (if options.probeReuse then [.resetProbe, .clearFailures] else []) ++ [.poolReset])
  | .close, s => (s, [.poolClose])

def program (options : Options) : Forking State Op Input Call := ⟨entry options, exec options⟩

/-! ### Holders of callbacks -/

/-- The call whose callback a section holds. -/
def Op.owner : Op → Option ℕ
  | .dispatch q _ | .maybeStartProbe q | .singleDial q | .singleWrite q _ _ | .singleRead q _ _ => some q.callback
  | .acquireShared q _ | .await q _ _ _ _ | .collectShared q _ _ _ _ | .register q _ _ _ => some q.callback
  | .writeFailed q _ _ => some q.callback
  | .connDone p _ | .contextDone p _ => some p.callback
  | .callback call _ => some call
  | _ => none

/-- The calls whose callbacks are held by sections or by entries of the table, and those that have been answered. -/
def holders (s : State) (m : Multiset Op) : Multiset ℕ :=
  m.filterMap Op.owner + ↑(s.queries.map fun e => e.2.callback) + ↑(s.answered.map Answer.call)

def Result.source : Result → Option (ℕ × ℕ)
  | .response _ conn wireId => some (conn, wireId)
  | .error _ => none

/-- A response was read from the connection of the latest attempt and carried the ID of that attempt. -/
def Answer.Right (a : Answer) : Prop := ∀ r ∈ a.result.source, a.attempt = some r

instance (a : Answer) : Decidable a.Right := inferInstanceAs (Decidable (∀ r ∈ a.result.source, a.attempt = some r))

/-- **Each call is answered at most once, and from its own connection.** -/
structure AnsweredOnce (s : State) : Prop where
  once : (s.answered.map Answer.call).Nodup
  own : ∀ a ∈ s.answered, a.Right

/-- A section takes the entry that is meant: the receiving loop one of its connection, a failed write that of its own
call; and a connection of its own gives a query the message with its ID. -/
def Op.Own (s : State) (x : Input) : Op → Prop
  | .complete conn m => ∀ r ∈ s.take m.id, r.1.conn = conn
  | .writeTake q _ _ queryId _ => ∀ r ∈ s.take queryId, r.1.callback = q.callback
  | .singleRead q conn _ => x.fails = false → conn ∉ s.closed → ∀ m ∈ x.message, m.id = q.message.id
  | _ => True

instance (s : State) (x : Input) (o : Op) : Decidable (o.Own s x) := by
  unfold Op.Own
  split <;> infer_instance

def OwnEntry (c : Config State Op) : Event Input Call → Prop
  | .call _ => True
  | .sched i x => ∀ o ∈ c.next i, o.Own c.shared x

instance (c : Config State Op) : ∀ e : Event Input Call, Decidable (OwnEntry c e)
  | .call _ => .isTrue trivial
  | .sched i x => inferInstanceAs (Decidable (∀ o ∈ c.next i, o.Own c.shared x))

/-- What holds of a section that is left: the connection and the ID it holds are those of the latest attempt. -/
def Op.Ok (attempt : ℕ → Option (ℕ × ℕ)) : Op → Prop
  | .singleWrite q conn _ | .singleRead q conn _ => attempt q.callback = some (conn, q.message.id)
  | .callback call result => ∀ r ∈ result.source, attempt call = some r
  | _ => True

/-- The invariant: every call has one holder, and every holder knows the latest attempt. -/
structure Inv (s : State) (m : Multiset Op) : Prop where
  one : holders s m = Multiset.range s.calls
  entries : ∀ e ∈ s.queries, s.attempt e.2.callback = some (e.2.conn, e.1)
  ops : ∀ o ∈ m, o.Ok s.attempt
  answers : ∀ a ∈ s.answered, a.Right

lemma Inv.answeredOnce {s : State} {m : Multiset Op} (h : Inv s m) : AnsweredOnce s := by
  refine ⟨?_, h.answers⟩
  have hnodup : (holders s m).Nodup := h.one ▸ nodup_range s.calls
  exact coe_nodup.1 (nodup_of_le (le_add_left _ _) hnodup)

/-- The states differ in nothing the invariant speaks of. -/
structure Same (s s' : State) : Prop where
  queries : s'.queries = s.queries
  calls : s'.calls = s.calls
  attempt : s'.attempt = s.attempt
  answered : s'.answered = s.answered

lemma Op.Ok.of_owner {o : Op} (h : o.owner = none) (attempt : ℕ → Option (ℕ × ℕ)) : o.Ok attempt := by
  cases o <;> trivial

lemma Op.Ok.error (call : ℕ) (err : Option Err) (attempt : ℕ → Option (ℕ × ℕ)) :
    (Op.callback call (.error err)).Ok attempt :=
  fun _ hr => by cases hr

lemma Op.Ok.congr {o : Op} {attempt attempt' : ℕ → Option (ℕ × ℕ)} (h : o.Ok attempt)
    (heq : ∀ k, o.owner = some k → attempt' k = attempt k) : o.Ok attempt' := by
  cases o <;> first | trivial | skip
  case singleWrite q conn number => exact (heq _ rfl).trans h
  case singleRead q conn number => exact (heq _ rfl).trans h
  case callback call result => exact fun r hr => (heq _ rfl).trans (h r hr)

section Sections

variable {s s' : State} {o : Op} {m : Multiset Op}

lemma holders_cons (s : State) (o : Op) (m : Multiset Op) : holders s (o ::ₘ m) = ↑o.owner.toList + holders s m := by
  rw [holders, Multiset.filterMap_cons, add_assoc, add_assoc, ← add_assoc (Multiset.filterMap _ _)]
  cases o.owner <;> rfl

lemma holders_cons_none (s : State) (m : Multiset Op) (ho : o.owner = none) : holders s (o ::ₘ m) = holders s m := by
  rw [holders_cons, ho]
  exact zero_add _

lemma holders_cons_some (s : State) (m : Multiset Op) {k : ℕ} (ho : o.owner = some k) :
    holders s (o ::ₘ m) = k ::ₘ holders s m := by
  rw [holders_cons, ho]
  exact singleton_add _ _

lemma holders_add (s : State) (new : List Op) (m : Multiset Op) :
    holders s (↑new + m) = ↑(new.filterMap Op.owner) + holders s m := by
  rw [holders, filterMap_add, add_assoc, add_assoc, ← add_assoc (filterMap _ m)]
  rfl

lemma holders_entry {e : ℕ × Pending} {rest : List (ℕ × Pending)} (h : (s.queries : Multiset _) = e ::ₘ ↑rest)
    (m : Multiset Op) : holders s m = e.2.callback ::ₘ holders { s with queries := rest } m := by
  rw [holders, holders, ← Multiset.map_coe, h, Multiset.map_cons, Multiset.map_coe, Multiset.add_cons,
    Multiset.cons_add]

lemma Inv.one_eq (h : Inv s (o ::ₘ m)) : ↑o.owner.toList + holders s m = Multiset.range s.calls := by
  rw [← holders_cons, h.one]

/-- **A section hands its callback on**, to the sections that take its place or to those it starts. -/
theorem Inv.go (h : Inv s (o ::ₘ m)) (hs : Same s s') (new : List Op)
    (howner : new.filterMap Op.owner = o.owner.toList) (hok : ∀ o' ∈ new, o'.Ok s.attempt) : Inv s' (↑new + m) := by
  obtain ⟨hq, hc, ha, hl⟩ := hs
  refine ⟨?_, hq ▸ ha ▸ h.entries, fun o' ho' => ?_, hl ▸ h.answers⟩
  · have hsame : holders s' m = holders s m := by rw [holders, holders, hq, hl]
    rw [holders_add, howner, hsame, hc, h.one_eq]
  · rw [ha]
    rcases Multiset.mem_add.1 ho' with ho' | ho'
    · exact hok o' ho'
    · exact h.ops o' (Multiset.mem_cons_of_mem ho')

lemma Inv.next (h : Inv s (o ::ₘ m)) (hs : Same s s') {o' : Op} (howner : o'.owner = o.owner)
    (hok : o'.Ok s.attempt) : Inv s' (↑[o'] + m) := by
  refine h.go hs [o'] ?_ (forall_mem_singleton.2 hok)
  rw [← howner, List.filterMap_cons]
  cases o'.owner <;> rfl

lemma Inv.notMem (h : Inv s (o ::ₘ m)) {k : ℕ} (ho : o.owner = some k) : k ∉ holders s m := by
  have hnodup := h.one_eq ▸ nodup_range s.calls
  rw [ho] at hnodup
  exact (nodup_cons.1 hnodup).1

/-- **A new attempt** of the call whose callback a section holds: the others do not know of it. -/
theorem Inv.other_attempt (h : Inv s (o ::ₘ m)) {k : ℕ} (ho : o.owner = some k) (r : Option (ℕ × ℕ)) :
    (∀ e ∈ s.queries, Function.update s.attempt k r e.2.callback = some (e.2.conn, e.1)) ∧
      ∀ o' ∈ m, o'.Ok (Function.update s.attempt k r) := by
  have hk := h.notMem ho
  simp only [holders, Multiset.mem_add, Multiset.mem_filterMap, Multiset.mem_coe, List.mem_map, not_or] at hk
  obtain ⟨⟨hops, hentries⟩, -⟩ := hk
  constructor
  · intro e he
    rw [Function.update_of_ne (fun heq => hentries ⟨e, he, heq⟩)]
    exact h.entries e he
  · intro o' ho'
    refine (h.ops o' (Multiset.mem_cons_of_mem ho')).congr fun k' hk' => ?_
    rw [Function.update_of_ne]
    rintro rfl
    exact hops ⟨o', ho', hk'⟩

lemma Inv.dialSingle {q : Query} (h : Inv s (.singleDial q ::ₘ m)) :
    Inv (s.dialSingle q) (.singleWrite q s.dialed s.afterFuncCount ::ₘ m) := by
  obtain ⟨hentries, hops⟩ := h.other_attempt rfl (some (s.dialed, q.message.id))
  refine ⟨?_, hentries, fun o ho => ?_, h.answers⟩
  · rw [holders_cons]
    exact h.one_eq
  · rcases mem_cons.1 ho with rfl | ho
    · exact update_self _ _ _
    · exact hops o ho

/-- **The query is in the table**: its entry holds the callback. -/
theorem Inv.register {q : Query} {t : Turn} {conn queryId : ℕ} {created retryReadError : Bool}
    (h : Inv s (.register q t conn created ::ₘ m)) (hs : s.register q conn retryReadError = some (s', queryId)) :
    Inv s' (.write q t conn queryId created ::ₘ m) := by
  obtain ⟨queryId, -, hs⟩ := map_eq_some_iff.1 hs
  cases hs
  obtain ⟨hentries, hops⟩ := h.other_attempt rfl (some (conn, queryId))
  refine ⟨?_, fun e he => ?_, fun o ho => ?_, h.answers⟩
  · rw [holders_cons_none _ _ rfl]
    refine (holders_entry (cons_coe _ _).symm m).trans ?_
    exact (holders_cons_some s m rfl).symm.trans h.one
  · rcases mem_cons.1 he with rfl | he
    · exact update_self _ _ _
    · exact hentries e he
  · rcases mem_cons.1 ho with rfl | ho
    · trivial
    · exact hops o ho

lemma takeEntry_eq {queryId : ℕ} {p : Pending} : ∀ {l l' : List (ℕ × Pending)},
    takeEntry queryId l = some (p, l') → (l : Multiset (ℕ × Pending)) = (queryId, p) ::ₘ ↑l'
  | [], _, h => by cases h
  | e :: rest, l', h => by
    rw [takeEntry] at h
    split at h
    next he =>
      cases h
      rw [← he]
      rfl
    · obtain ⟨⟨p', l''⟩, hrest, heq⟩ := map_eq_some_iff.1 h
      cases heq
      rw [← cons_coe, takeEntry_eq hrest, ← cons_coe, cons_swap]

/-- **An entry is taken out of the table**: the sections that take the place of the one that has taken it hold its
callback, and know its attempt. -/
theorem Inv.take {queryId : ℕ} {p : Pending} {stops new : List Op} (h : Inv s (o ::ₘ m))
    (hs : s.take queryId = some (p, stops, s')) (ho : o.owner = none) (howner : new.filterMap Op.owner = [p.callback])
    (hok : s.attempt p.callback = some (p.conn, queryId) → ∀ o' ∈ new, o'.Ok s.attempt) :
    Inv s' (↑(stops ++ new) + m) := by
  obtain ⟨⟨p, rest⟩, htake, hs⟩ := map_eq_some_iff.1 hs
  cases hs
  have htable := takeEntry_eq htake
  have hentry : ∀ e, e ∈ s.queries ↔ e = (queryId, p) ∨ e ∈ rest := by
    intro e
    rw [← Multiset.mem_coe, htable, Multiset.mem_cons, Multiset.mem_coe]
  refine ⟨?_, fun e he => h.entries e ((hentry e).2 (.inr he)), fun o' ho' => ?_, h.answers⟩
  · have hone := h.one
    rw [holders_cons_none s m ho] at hone
    rw [holders_add, filterMap_append, howner, ← hone, holders_entry htable]
    exact singleton_add _ _
  · have hknown := hok (h.entries _ ((hentry _).2 (.inl rfl)))
    rcases Multiset.mem_add.1 ho' with ho' | ho'
    · rcases mem_append.1 ho' with ho' | ho'
      · simp only [List.mem_cons, not_mem_nil, or_false] at ho'
        rcases ho' with rfl | rfl <;> trivial
      · exact hknown o' ho'
    · exact h.ops o' (Multiset.mem_cons_of_mem ho')

theorem Inv.callback {call : ℕ} {result : Result} (h : Inv s (.callback call result ::ₘ m)) :
    Inv { s with answered := ⟨call, result, s.attempt call⟩ :: s.answered } m := by
  refine ⟨?_, h.entries, fun o ho => h.ops o (Multiset.mem_cons_of_mem ho), fun a ha => ?_⟩
  · rw [← h.one, holders_cons_some s m rfl, holders, holders, List.map_cons, ← cons_coe, Multiset.add_cons]
  · rcases List.mem_cons.1 ha with rfl | ha
    · exact h.ops _ (mem_cons_self _ _)
    · exact h.answers a ha

variable {new : List Op}

lemma Inv.start (h : Inv s m) (hnew : ∀ o ∈ new, o.owner = none) : Inv s (↑new + m) := by
  refine ⟨?_, h.entries, fun o ho => ?_, h.answers⟩
  · rw [holders_add, filterMap_eq_nil_iff.2 hnew, ← h.one]
    exact zero_add _
  · rcases mem_add.1 ho with ho | ho
    · exact Op.Ok.of_owner (hnew o ho) _
    · exact h.ops o ho

lemma State.owner_fire (s : State) {o : Op} (ho : o ∈ s.fire.2) : o.owner = none := by
  obtain ⟨⟨number, f⟩, -, rfl⟩ := mem_map.1 ho
  cases f <;> rfl

lemma State.maybeStartProbe_quiet (s : State) (message : Msg) (now : ℕ) :
    Same s (s.maybeStartProbe message now).1 ∧ ∀ o ∈ (s.maybeStartProbe message now).2, o.owner = none := by
  unfold State.maybeStartProbe
  split_ifs <;> exact ⟨⟨rfl, rfl, rfl, rfl⟩, by simp [Op.owner]⟩

lemma Inv.fire (h : Inv s (↑new + m)) : Inv s.fire.1 (↑(new ++ s.fire.2) + m) := by
  have hstart := h.start fun _ => s.owner_fire
  rw [add_left_comm, ← add_assoc] at hstart
  exact ⟨hstart.one, hstart.entries, hstart.ops, hstart.answers⟩

attribute [local simp] Op.Ok

lemma Inv.acquired {q : Query} {t : Turn} {r : Acquired ℕ QueryError} {s'' : State} {new started : List Op}
    (hr : s'.acquired q t r = (s'', new, started)) (h : Inv s (o ::ₘ m)) (ho : o.owner = some q.callback)
    (hs : Same s s') : Inv s'' (↑(new ++ started) + m) := by
  cases r with
  | error e =>
    cases hr
    exact h.next hs ho.symm (.error _ _ _)
  | conn conn created =>
    cases hr
    cases created <;> exact h.go hs _ (by rw [ho]; rfl) (by simp)
  | wait state connect startDial =>
    cases hr
    cases startDial <;> exact h.go hs _ (by rw [ho]; rfl) (by simp)
  | dead conn =>
    cases hr
    exact (h.go hs [.closeConn conn, .acquireShared q t] (by rw [ho]; rfl) (by simp)).fire
  | retry =>
    cases hr
    exact h.next hs ho.symm trivial

/-- The sections that hold no callback and take none out of the table. -/
def Op.quiet : Op → Bool
  | .completeConnDone _ _ | .completeContextDone _ _ | .complete _ _ | .writeTake _ _ _ _ _ => false
  | o => o.owner.isNone

/-- Such a section changes nothing the invariant speaks of, and no section that follows it holds a callback. -/
lemma exec_quiet {options : Options} {x : Input} {new started : List Op} (hq : o.quiet = true)
    (hx : exec options o x s = some (s', new, started)) : Same s s' ∧ ∀ o' ∈ new ++ started, o'.owner = none := by
  have hfire : ∀ {s₀ : State} {l : List Op}, (∀ o' ∈ l, o'.owner = none) → ∀ o' ∈ l ++ s₀.fire.2, o'.owner = none := by
    intro s₀ l hl o' ho'
    exact (mem_append.1 ho').elim (hl o') s₀.owner_fire
  cases o with
  | runReuseProbe epoch =>
    cases hx
    refine ⟨?_, by simp⟩
    unfold State.runReuseProbe
    split_ifs <;> exact ⟨rfl, rfl, rfl, rfl⟩
  | release conn | invalidate conn cause | cancelContext ctx err | cancelState state =>
    cases hx
    exact ⟨⟨rfl, rfl, rfl, rfl⟩, hfire (by simp [Op.owner])⟩
  | connectInstall state connect dialed =>
    cases hx
    exact ⟨⟨rfl, rfl, rfl, rfl⟩, by cases (s.connection.install state connect dialed).2 <;> simp [Op.owner]⟩
  | recvEpoch conn message =>
    cases hx
    exact ⟨⟨rfl, rfl, rfl, rfl⟩, by cases message <;> simp [Op.owner]⟩
  | poolReset | poolClose =>
    cases hx
    refine ⟨⟨rfl, rfl, rfl, rfl⟩, ?_⟩
    unfold State.closeState
    split <;> simp [Op.owner]
  | connectDial | write | recvRead | deathCheck | deathCount | demote | connectDone | deathAdd | clearFailures
  | closeConn | stop | resetProbe =>
    simp only [exec] at hx
    repeat' split at hx
    all_goals
      cases hx
      exact ⟨⟨rfl, rfl, rfl, rfl⟩, by simp [Op.owner]⟩
  | _ => cases hq

lemma Inv.quiet (h : Inv s (o ::ₘ m)) (hq : o.quiet = true) (hs : Same s s')
    (hnew : ∀ o' ∈ new, o'.owner = none) : Inv s' (↑new + m) := by
  have ho : o.owner = none := by
    cases o <;> first | rfl | cases hq
  refine h.go hs new ?_ fun o' ho' => Op.Ok.of_owner (hnew o' ho') _
  rw [ho, filterMap_eq_nil_iff.2 hnew]
  rfl

/-! ### The sections that hold or take callbacks -/

variable {options : Options} {x : Input} {new started : List Op} {q : Query} {t : Turn} {conn number queryId : ℕ}
  {created : Bool}

lemma Same.refl (s : State) : Same s s := ⟨rfl, rfl, rfl, rfl⟩

/-- A section keeps the invariant, if it takes the entry that is meant. -/
def Keeps (options : Options) (o : Op) : Prop :=
  ∀ ⦃x s s' new started m⦄, exec options o x s = some (s', new, started) → o.Own s x → Inv s (o ::ₘ m) →
    Inv s' (↑(new ++ started) + m)

lemma keeps_maybeStartProbe : Keeps options (.maybeStartProbe q) := by
  intro x s s' new started m hx _ h
  cases hx
  obtain ⟨hs, hprobe⟩ := s.maybeStartProbe_quiet q.message x.now
  refine h.go hs _ ?_ fun o ho => ?_
  · exact congrArg (q.callback :: ·) (filterMap_eq_nil_iff.2 hprobe)
  · rcases mem_cons.1 ho with rfl | ho
    · trivial
    · exact Op.Ok.of_owner (hprobe o ho) _

lemma keeps_singleDial : Keeps options (.singleDial q) := by
  intro x s s' new started m hx _ h
  simp only [exec] at hx
  split at hx
  · cases hx
    exact h.next (.refl s) rfl (.error _ _ _)
  · cases hx
    exact Inv.fire h.dialSingle

attribute [local simp] Result.source

lemma keeps_singleWrite : Keeps options (.singleWrite q conn number) := by
  intro x s s' new started m hx _ h
  have hok := h.ops _ (mem_cons_self _ _)
  simp only [exec] at hx
  split at hx
  · cases hx
    exact h.go (.refl s) _ rfl (by simp [State.singleError])
  · cases hx
    exact h.next (.refl s) rfl hok

lemma keeps_singleRead : Keeps options (.singleRead q conn number) := by
  intro x s s' new started m hx hown h
  have hok := h.ops _ (mem_cons_self _ _)
  simp only [exec] at hx
  split at hx
  · cases hx
    exact h.go (.refl s) _ rfl (by simp [State.singleError])
  next hread =>
    rw [not_or, Bool.not_eq_true] at hread
    split at hx
    · cases hx
      exact h.next (.refl s) rfl hok
    next message hm =>
      cases hx
      -- the message carries the ID under which the query was sent
      have hid : message.id = q.message.id := hown hread.1 hread.2 message hm
      exact h.go (.refl s) _ rfl (by simpa [hid] using hok)

lemma keeps_await {state connect : ℕ} {startDial : Bool} : Keeps options (.await q t state connect startDial) := by
  intro x s s' new started m hx _ h
  have hnext (o' : Op) (howner : o'.owner = some q.callback) (hok : o'.Ok s.attempt) := h.next (.refl s) howner hok
  simp only [exec] at hx
  split at hx
  · split at hx <;> cases hx
    exact hnext _ rfl trivial
  · obtain ⟨e, -, hx⟩ := map_eq_some_iff.1 hx
    cases hx
    exact hnext _ rfl (.error _ _ _)
  · repeat' split at hx
    all_goals cases hx
    · exact hnext _ rfl (.error _ _ _)
    · exact hnext _ rfl trivial

lemma keeps_register : Keeps options (.register q t conn created) := by
  intro x s s' new started m hx _ h
  simp only [exec] at hx
  split at hx
  · cases hx
    exact h.go (.refl s) _ rfl (by simp)
  next s'' queryId hs =>
    cases hx
    exact Inv.fire (h.register hs)

lemma keeps_writeTake : Keeps options (.writeTake q t conn queryId created) := by
  intro x s s' new started m hx hown h
  simp only [exec] at hx
  split at hx
  · cases hx
    exact h.next (.refl s) rfl trivial
  next p stops s'' hs =>
    cases hx
    have hcall : p.callback = q.callback := hown _ hs
    rw [append_nil]
    exact h.take hs rfl (by rw [hcall]; rfl) (by simp)

lemma keeps_contextDone {p : Pending} {ctx : ℕ} : Keeps options (.contextDone p ctx) := by
  intro x s s' new started m hx _ h
  cases hx
  refine h.go (.refl s) _ ?_ ?_
  · split <;> rfl
  · split <;> simp

/-- The receiving loop passes a message to an entry of its own connection. -/
lemma keeps_complete {message : Msg} : Keeps options (.complete conn message) := by
  intro x s s' new started m hx hown h
  simp only [exec] at hx
  split at hx
  · cases hx
    exact h.next (.refl s) rfl trivial
  next p stops s'' hs =>
    cases hx
    have hconn : p.conn = conn := hown _ hs
    rw [append_nil]
    refine h.take hs rfl rfl fun hattempt => ?_
    simpa [← hconn] using hattempt

/-- **Every section keeps the invariant**, if it takes the entry that is meant. -/
theorem exec_keeps (o : Op) : Keeps options o := by
  intro x s s' new started m hx hown h
  by_cases hq : o.quiet = true
  · obtain ⟨hs, hnew⟩ := exec_quiet hq hx
    exact h.quiet hq hs hnew
  cases o with
  | dispatch | writeFailed | connDone =>
    simp only [exec] at hx
    split at hx
    all_goals
      cases hx
      exact h.next (.refl s) rfl (by simp)
  | maybeStartProbe => exact keeps_maybeStartProbe hx hown h
  | singleDial => exact keeps_singleDial hx hown h
  | singleWrite => exact keeps_singleWrite hx hown h
  | singleRead => exact keeps_singleRead hx hown h
  | acquireShared | collectShared => exact Inv.acquired (some.inj hx) h rfl ⟨rfl, rfl, rfl, rfl⟩
  | await => exact keeps_await hx hown h
  | register => exact keeps_register hx hown h
  | writeTake => exact keeps_writeTake hx hown h
  | completeConnDone | completeContextDone =>
    -- A context that is done takes whatever entry there is: its callback gets an error, or the query is sent again.
    simp only [exec] at hx
    split at hx
    · cases hx
      exact h.go (.refl s) _ rfl (by simp)
    next p stops s'' hs =>
      cases hx
      rw [append_nil]
      exact h.take hs rfl rfl fun _ => forall_mem_singleton.2 trivial
  | contextDone => exact keeps_contextDone hx hown h
  | complete => exact keeps_complete hx hown h
  | callback call result =>
    cases hx
    simpa using h.callback
  | _ => exact absurd rfl hq

end Sections

lemma Inv.entry {s : State} {m : Multiset Op} (h : Inv s m) (options : Options) (k : Call) :
    Inv (Multiplexer.entry options k s).1 (↑(Multiplexer.entry options k s).2 + m) := by
  cases k with
  | exchangeAsync ctx message =>
    refine ⟨?_, h.entries, fun o ho => ?_, h.answers⟩
    · rw [holders_add]
      exact (congrArg (s.calls ::ₘ ·) h.one).trans (range_succ s.calls).symm
    · rcases mem_cons.1 ho with rfl | ho
      · trivial
      · exact h.ops o ho
  | cancel ctx | deadline ctx | close => exact h.start (by simp [Multiplexer.entry, Op.owner])
  | reset =>
    refine h.start ?_
    rw [Multiplexer.entry]
    split <;> simp [Op.owner]

lemma step_inv {options : Options} {c c' : Config State Op} {e : Event Input Call}
    (hstep : (program options).step c e = some c') (he : OwnEntry c e) (h : Inv c.shared c.pending) :
    Inv c'.shared c'.pending := by
  rcases Forking.step_cases hstep with ⟨k, -, h1, h2⟩ | ⟨i, x, o, s', new, started, m, rfl, hnext, hx, rfl, h1, h2⟩
  · rw [h1, h2]
    exact h.entry options k
  · rw [h2]
    rw [h1] at h
    exact exec_keeps o hx (he o hnext) h

variable (options : Options)

variable (events : List (Event Input Call))

lemma visitAll_inv (h : StepAll (program options).step OwnEntry (Config.init {}) events) :
    VisitAll (program options).step (fun c => Inv c.shared c.pending) (Config.init {}) events := by
  have hinit : Inv {} 0 := ⟨rfl, by simp, by simp, by simp⟩
  exact visitAll_of_stepAll (fun _ _ _ => step_inv) events hinit h

/-- **Each call is answered at most once, and from its own connection**, in every run in which every look-up by ID finds
the entry that is meant. -/
theorem answeredOnce_of_ownEntry (h : StepAll (program options).step OwnEntry (Config.init {}) events) :
    VisitAll (program options).step (fun c => AnsweredOnce c.shared) (Config.init {}) events :=
  (visitAll_inv options events h).imp fun _ hI => hI.answeredOnce

/-- **No callback is lost** in such a run: one that has not been invoked is held by a section or by an entry of the
table.
-/
theorem held_of_ownEntry (h : StepAll (program options).step OwnEntry (Config.init {}) events) :
    VisitAll (program options).step (fun c => ∀ k < c.shared.calls, k ∉ c.shared.answered.map Answer.call →
      (∃ o ∈ c.pending, o.owner = some k) ∨ ∃ e ∈ c.shared.queries, e.2.callback = k) (Config.init {}) events := by
  refine (visitAll_inv options events h).imp fun c hI k hk hnot => ?_
  have hmem : k ∈ holders c.shared c.pending := hI.one ▸ Multiset.mem_range.2 hk
  rw [holders, Multiset.mem_add, Multiset.mem_add, Multiset.mem_filterMap, Multiset.mem_coe, List.mem_map] at hmem
  exact hmem.resolve_right hnot

/-- The sections of a query up to its write, in goroutine `i`, and of the dial it starts, in goroutine `i + 1`. -/
def sendQuery (message : Msg) (i : ℕ) : List (Event Input Call) :=
  [.call (.exchangeAsync i message), .sched i {}, .sched i {}, .sched (i + 1) {}, .sched (i + 1) {}, .sched (i + 1) {},
   .sched i {}, .sched i {}, .sched i {}, .sched i {}]

def readResponse : List (Event Input Call) :=
  sendQuery { id := 7 } 0 ++ [.sched 2 { message := some { id := 1, response := true } }, .sched 2 {}, .sched 2 {},
    .sched 2 {}, .sched 2 {}, .sched 2 {}, .sched 2 {}]

theorem readResponse_answeredOnce : StepAll (program {}).step OwnEntry (Config.init {}) readResponse ∧
      VisitAll (program {}).step (fun c => AnsweredOnce c.shared) (Config.init {}) readResponse ∧
      ∃ c, runOf (program {}).step (Config.init {}) readResponse = some c ∧
        c.shared.answered = [⟨0, .response { id := 7, response := true } 0 1, some (0, 1)⟩] :=
  ⟨by decide, answeredOnce_of_ownEntry {} readResponse (by decide), _, rfl, by decide⟩

theorem sendQuery_held : ∃ c, runOf (program {}).step (Config.init {}) (sendQuery { id := 7 } 0) = some c ∧
    ((∃ o ∈ c.pending, o.owner = some 0) ∨ ∃ e ∈ c.shared.queries, e.2.callback = 0) :=
  ⟨_, rfl, (held_of_ownEntry {} (sendQuery { id := 7 } 0) (by decide)).last rfl 0 (by decide) (by decide)⟩

/-! ### Messages for other queries -/

/-- A query is sent, and on its connection a message comes with the next ID.  After it has been read the multiplexer is
reset, and a second query is sent on another connection. -/
def readBeforeReset : List (Event Input Call) :=
  sendQuery { id := 7 } 0 ++ [.sched 2 { message := some { id := 2, response := true } }, .sched 2 {}] ++
    [.call .reset, .sched 3 {}, .sched 3 {}, .sched 3 {}] ++ sendQuery { id := 8 } 5 ++
    [.sched 2 {}, .sched 2 {}, .sched 2 {}, .sched 2 {}, .sched 2 {}]

/-- A query is sent on a connection of its own, where a message comes with another ID. -/
def readOther : List (Event Input Call) :=
  [.call (.exchangeAsync 0 { id := 7 }), .sched 0 {}, .sched 0 {}, .sched 1 {}, .sched 1 {},
   .sched 1 { message := some { id := 9, response := true } }, .sched 1 {}]

/-- The second query gets the message that was read from the connection of the first before the reset; and a query on a
connection of its own gets whatever message comes first. -/
theorem message_of_other_query : (∃ c, runOf (program {}).step (Config.init {}) readBeforeReset = some c ∧
      c.shared.answered = [⟨1, .response { id := 8, response := true } 0 2, some (1, 2)⟩] ∧ ¬AnsweredOnce c.shared) ∧
    ∃ c, runOf (program { retryReadError := true, probeReuse := true }).step (Config.init {}) readOther = some c ∧
      c.shared.answered = [⟨0, .response { id := 7, response := true } 0 9, some (0, 7)⟩] ∧ ¬AnsweredOnce c.shared := by
  refine ⟨⟨_, rfl, by decide, fun h => ?_⟩, _, rfl, by decide, fun h => ?_⟩
  · exact absurd (h.own _ mem_cons_self) (by decide)
  · exact absurd (h.own _ mem_cons_self) (by decide)

end SingBox.Dns.Multiplexer
