import SingBox.Dns.ConnPool
import SingBox.Lib.Fork
import SingBox.Lib.Generations

/-!
# Runs of a connection pool

The goroutines that use a `ConnPool`, in either mode: those that acquire connections, the ones started to dial a shared
connection, and those that release and invalidate connections, reset the pool and close it.  A section ends where the
lock of the pool is given up; a dial or the closing of a connection is a section of its own.  Connections are numbered
as they are dialed.

A caller who has been handed a connection holds it until they release or invalidate it, which they do once.  A
connection is handed out where the lock is held for the last time before `Acquire` returns it.  The history has the
connections handed out, with whether the caller was told that theirs was created, and the ones closed.

The connections of a pool are the resources of `Generations`, and the states of the pool are its generations.
-/

namespace SingBox.Dns.PoolRuns

open Lib List

variable {ε : Type}

inductive Op (ε : Type) where
  | acquireShared
  /-- The `select` of `acquireShared`. -/
  | await (state connect : ℕ) (startDial : Bool)
  | collectShared (state connect : ℕ) (startDial : Bool)
  /-- The parts of `connectSingle`. -/
  | connectDial (state connect : ℕ)
  | connectInstall (state connect : ℕ) (dialed : Except (ConnError ε) ℕ)
  | connectDone (connect : ℕ)
  | acquireOrdered
  /-- The parts of `dialAndInstall`. -/
  | acquireSlot (state : ℕ)
  | dial (state : ℕ)
  | install (state conn : ℕ)
  | releaseSlot
  | release (conn : ℕ) (reuse : Bool)
  | invalidate (conn : ℕ) (cause : ConnError ε)
  | reset
  | close
  /-- The parts of `closeState`. -/
  | cancelState (state : ℕ)
  | closeConns (state : ℕ)
  | closeConn (conn : ℕ)

inductive Branch where
  | done
  | ctxDone
  | stateDone

/-- What a section meets: which connections are alive, whether a dial fails, and whether the context of the caller is
done. -/
structure Input (ε : Type) where
  alive : ℕ → Bool := fun _ => true
  fails : Bool := false
  ctxErr : Option (ConnError ε) := none
  /-- The context of the pool's state was done before that of the caller. -/
  stateFirst : Bool := false
  branch : Branch := .done
  /-- The semaphore is acquired, and not given up on. -/
  granted : Bool := true

inductive Call (ε : Type) where
  | acquire
  | acquireShared
  | release (conn : ℕ) (reuse : Bool)
  | invalidate (conn : ℕ) (cause : ConnError ε)
  | reset
  | close

inductive PoolEvent where
  | handed (conn : ℕ) (created : Bool)
  | closed (conn : ℕ)
  deriving DecidableEq

structure State (ε : Type) where
  pool : ConnPool ℕ ε := {}
  dialed : ℕ := 0
  inflight : ℕ := 0
  /-- The connections that are held, each as often as it has holders. -/
  holders : List ℕ := []
  log : List PoolEvent := []

namespace State

def hand (s : State ε) (conn : ℕ) (created : Bool) : State ε :=
  { s with holders := conn :: s.holders, log := .handed conn created :: s.log }

/-- What `acquireShared` does with the outcome of a turn. -/
def acquired (s : State ε) : Acquired ℕ ε → State ε × List (Op ε) × List (Op ε)
  | .error _ => (s, [], [])
  | .conn conn created => (s.hand conn created, [], [])
  | .wait state connect startDial =>
    (s, [.await state connect startDial], if startDial then [.connectDial state connect] else [])
  | .dead conn => (s, [.closeConn conn, .acquireShared], [])
  | .retry => (s, [.acquireShared], [])

/-- What `acquireOrdered` does with the outcome of a turn. -/
def acquiredOrdered (s : State ε) : AcquiredOrdered ℕ ε → State ε × List (Op ε) × List (Op ε)
  | .error _ => (s, [], [])
  | .conn conn => (s.hand conn false, [], [])
  | .dead conn => (s, [.closeConn conn, .acquireOrdered], [])
  | .dialAndInstall state => (s, [.acquireSlot state], [])

/-- `Cause` of the context of a dial: that of the caller's context or that of the state's, whichever was first. -/
def dialErr (s : State ε) (state : ℕ) (x : Input ε) : Option (ConnError ε) :=
  if x.stateFirst then (s.pool.states state).cause.or x.ctxErr else x.ctxErr.or (s.pool.states state).cause

end State

variable (mode : ConnPoolMode) (maxInflight : ℤ)

def release (pool : ConnPool ℕ ε) (alive : ℕ → Bool) (conn : ℕ) (reuse : Bool) : ConnPool ℕ ε × Bool :=
  match mode with
  | .single => pool.release alive conn reuse
  | .ordered => pool.releaseOrdered alive conn reuse

def invalidate (pool : ConnPool ℕ ε) (conn : ℕ) (cause : ConnError ε) : ConnPool ℕ ε × Bool :=
  match mode with
  | .single => pool.invalidate conn cause
  | .ordered => pool.invalidateOrdered conn

/-- `closeState`, if there is a state to close. -/
def closeState : Option ℕ → List (Op ε)
  | none => []
  | some state => [.cancelState state, .closeConns state]

def exec : Op ε → Input ε → State ε → Option (State ε × List (Op ε) × List (Op ε))
  | .acquireShared, x, s =>
    let r := s.pool.acquireShared x.alive
    some ({ s with pool := r.1 }.acquired r.2)
  | .await state connect startDial, x, s =>
    match x.branch with
    | .done =>
      if (s.pool.connects connect).done then some (s, [.collectShared state connect startDial], []) else none
    | .ctxDone => if x.ctxErr.isSome then some (s, [], []) else none
    | .stateDone =>
      if (s.pool.states state).cause.isNone then none
      else if s.pool.closed then some (s, [], [])
      else some (s, [.acquireShared], [])
  | .collectShared state connect startDial, x, s =>
    let r := s.pool.collectShared x.alive state connect startDial
    some ({ s with pool := r.1 }.acquired r.2)
  | .connectDial state connect, x, s =>
    if x.fails then some (s, [.connectInstall state connect (.error ((s.dialErr state x).getD .dial))], [])
    else
      match s.dialErr state x with
      | none => some ({ s with dialed := s.dialed + 1 }, [.connectInstall state connect (.ok s.dialed)], [])
      | some e =>
        some ({ s with dialed := s.dialed + 1 }, [.closeConn s.dialed, .connectInstall state connect (.error e)], [])
  | .connectInstall state connect dialed, _, s =>
    let r := s.pool.install state connect dialed
    some ({ s with pool := r.1 }, r.2.toList.map .closeConn ++ [.connectDone connect], [])
  | .connectDone connect, _, s => some ({ s with pool := s.pool.finish connect }, [], [])
  | .acquireOrdered, x, s =>
    let r := s.pool.acquireOrdered x.alive
    some ({ s with pool := r.1 }.acquiredOrdered r.2)
  | .acquireSlot state, x, s =>
    -- without a limit there is no semaphore
    if maxInflight ≤ 0 then some (s, [.dial state, .releaseSlot], [])
    else if x.granted then
      if s.inflight < maxInflight then some ({ s with inflight := s.inflight + 1 }, [.dial state, .releaseSlot], [])
      else none
    else if x.ctxErr.isSome ∨ (s.pool.states state).cause.isSome then some (s, [], [])
    else none
  | .dial state, x, s =>
    if x.fails then some (s, [], [])
    else
      match s.dialErr state x with
      | none => some ({ s with dialed := s.dialed + 1 }, [.install state s.dialed], [])
      | some _ => some ({ s with dialed := s.dialed + 1 }, [.closeConn s.dialed], [])
  | .install state conn, _, s =>
    let r := s.pool.installOrdered state conn
    if r.2 then some ({ s with pool := r.1 }.hand conn true, [], [])
    else some ({ s with pool := r.1 }, [.closeConn conn], [])
  | .releaseSlot, _, s => some (if maxInflight ≤ 0 then s else { s with inflight := s.inflight - 1 }, [], [])
  | .release conn reuse, x, s =>
    let r := release mode s.pool x.alive conn reuse
    some ({ s with pool := r.1 }, if r.2 then [.closeConn conn] else [], [])
  | .invalidate conn cause, _, s =>
    let r := invalidate mode s.pool conn cause
    some ({ s with pool := r.1 }, if r.2 then [.closeConn conn] else [], [])
  | .reset, _, s => some ({ s with pool := s.pool.reset.1 }, closeState s.pool.reset.2, [])
  | .close, _, s => some ({ s with pool := s.pool.close.1 }, closeState s.pool.close.2, [])
  | .cancelState state, _, s => some ({ s with pool := s.pool.cancelState state .closed }, [], [])
  | .closeConns state, _, s => some (s, (s.pool.states state).all.map .closeConn, [])
  | .closeConn conn, _, s => some ({ s with log := .closed conn :: s.log }, [], [])

/-- The code of a call; who does not hold a connection does not release or invalidate it. -/
def entry : Call ε → State ε → State ε × List (Op ε)
  | .acquire, s => (s, [match mode with | .single => .acquireShared | .ordered => .acquireOrdered])
  | .acquireShared, s => (s, match mode with | .single => [.acquireShared] | .ordered => [])
  | .release conn reuse, s =>
    if conn ∈ s.holders then ({ s with holders := s.holders.erase conn }, [.release conn reuse]) else (s, [])
  | .invalidate conn cause, s =>
    if conn ∈ s.holders then ({ s with holders := s.holders.erase conn }, [.invalidate conn cause]) else (s, [])
  | .reset, s => (s, [.reset])
  | .close, s => (s, [.close])

def program : Forking (State ε) (Op ε) (Input ε) (Call ε) := ⟨entry mode, exec mode maxInflight⟩

/-! ### The connections as resources in generations -/

namespace Op

def closing : Op ε → Option ℕ
  | closeConn conn => some conn
  | _ => none

def arriving : Op ε → Option ℕ
  | connectInstall _ _ (.ok conn) => some conn
  | install _ conn => some conn
  | _ => none

def retiring : Op ε → Option ℕ
  | closeConns state => some state
  | _ => none

def returns : Op ε → Option ℕ
  | release conn _ => some conn
  | invalidate conn _ => some conn
  | _ => none

/-- The state for which a section of `connectSingle` dials, or has dialed. -/
def connects : Op ε → Option ℕ
  | connectDial state _ => some state
  | connectInstall state _ _ => some state
  | _ => none

/-- The mode whose code a section belongs to. -/
def codeOf : Op ε → Option ConnPoolMode
  | acquireShared | await .. | collectShared .. | connectDial .. | connectInstall .. | connectDone _ => some .single
  | acquireOrdered | acquireSlot _ | dial _ | install .. | releaseSlot => some .ordered
  | release .. | invalidate .. | reset | close | cancelState _ | closeConns _ | closeConn _ => none

end Op

namespace PoolEvent

def closedConn : PoolEvent → Option ℕ
  | closed conn => some conn
  | handed .. => none

def handedConn : PoolEvent → Option ℕ
  | closed _ => none
  | handed conn _ => some conn

end PoolEvent

/-- The connections that each state of a pool tracks. -/
def tracked (pool : ConnPool ℕ ε) (state : ℕ) : List ℕ := (pool.states state).all

/-- The pool and its connections, with the goroutines that have to do with them. -/
def view (s : State ε) (m : Multiset (Op ε)) : Generations where
  tracked := tracked s.pool
  current := s.pool.state
  shut := s.pool.closed
  made := s.dialed
  closed := s.log.filterMap PoolEvent.closedConn
  closing := m.filterMap Op.closing
  arriving := m.filterMap Op.arriving
  retiring := m.filterMap Op.retiring
  lent := s.log.filterMap PoolEvent.handedConn

structure Keeps (p p' : ConnPool ℕ ε) : Prop where
  tracked : tracked p' = tracked p
  state : p'.state = p.state
  closed : p'.closed = p.closed

structure Removes (p p' : ConnPool ℕ ε) (conn : ℕ) : Prop where
  mem : conn ∈ PoolRuns.tracked p p.state
  tracked : tracked p' = Function.update (tracked p) p.state ((PoolRuns.tracked p p.state).filter (· ≠ conn))
  state : p'.state = p.state
  closed : p'.closed = p.closed

/-- A pool that is open tracks one more connection. -/
structure Tracks (p p' : ConnPool ℕ ε) (conn : ℕ) : Prop where
  opened : p.closed = false
  tracked : tracked p' = Function.update (tracked p) p.state (conn :: PoolRuns.tracked p p.state)
  state : p'.state = p.state
  closed : p'.closed = p.closed

variable (p : ConnPool ℕ ε)

lemma tracked_setState (number : ℕ) (state : PoolState ℕ ε) :
    tracked (p.setState number state) = Function.update (tracked p) number state.all :=
  Function.comp_update PoolState.all p.states number state

/-- What does not change in the state that is set does not change in any. -/
lemma setState_same {α : Type} (f : PoolState ℕ ε → α) {number : ℕ} {state : PoolState ℕ ε}
    (h : f state = f (p.states number)) (n : ℕ) : f ((p.setState number state).states n) = f (p.states n) :=
  (Function.forall_update_iff _ fun n s => f s = f (p.states n)).2 ⟨h, fun _ _ => rfl⟩ n

lemma Keeps.refl : Keeps p p := ⟨rfl, rfl, rfl⟩

lemma keeps_setState (number : ℕ) (state : PoolState ℕ ε)
    (h : state.all = (p.states number).all) : Keeps p (p.setState number state) :=
  ⟨funext (setState_same p PoolState.all h), rfl, rfl⟩

lemma removes_setState {p : ConnPool ℕ ε} {conn : ℕ} (hc : conn ∈ p.current.all) (state : PoolState ℕ ε)
    (h : state.all = p.current.all.filter (· ≠ conn)) : Removes p (p.setState p.state state) conn := by
  refine ⟨hc, ?_, rfl, rfl⟩
  rw [tracked_setState, h]
  rfl

lemma removes_removeConn {p : ConnPool ℕ ε} {conn : ℕ} (hc : conn ∈ p.current.all) (cause : ConnError ε) :
    Removes p (p.removeConn conn cause) conn := by
  unfold ConnPool.removeConn
  split
  · obtain ⟨h1, h2, h3, h4⟩ := removes_setState hc
      { p.current with all := p.current.all.filter (· ≠ conn), shared := none, sharedClaimed := false } rfl
    exact ⟨h1, h2, h3, h4⟩
  · exact removes_setState hc _ rfl

structure SingleSound (state : PoolState ℕ ε) : Prop where
  tracked : ∀ conn, state.shared = some conn → conn ∈ state.all
  unclaimed : state.shared = none → state.sharedClaimed = false
  connecting : state.connecting.isSome → state.shared = none

structure OrderedSound (state : PoolState ℕ ε) : Prop where
  tracked : ∀ conn ∈ state.idle, conn ∈ state.all
  nodup : state.idle.Nodup

def Sound (mode : ConnPoolMode) (state : PoolState ℕ ε) : Prop :=
  match mode with
  | .single => SingleSound state
  | .ordered => OrderedSound state

/-- What a turn of `acquireShared` does to what the pool tracks. -/
def Outcome (p p' : ConnPool ℕ ε) : Acquired ℕ ε → Prop
  | .conn conn _ => Keeps p p' ∧ p.closed = false ∧ conn ∈ tracked p p.state
  | .dead conn => Removes p p' conn
  | .error _ | .wait .. | .retry => Keeps p p'

/-- A turn of `acquireShared`: nothing changes, the shared connection is handed out or found dead, or a dial starts. -/
inductive Turned (p : ConnPool ℕ ε) : ConnPool ℕ ε × Acquired ℕ ε → Prop
  | error (e : ConnError ε) : Turned p (p, .error e)
  | wait (connect : ℕ) : Turned p (p, .wait p.state connect false)
  | retry : Turned p (p, .retry)
  | hand (conn : ℕ) (ho : p.closed = false) (hc : p.current.shared = some conn) :
    Turned p (p.setState p.state { p.current with sharedClaimed := true }, .conn conn (!p.current.sharedClaimed))
  | dead (conn : ℕ) (hc : p.current.shared = some conn) : Turned p (p.removeConn conn .closed, .dead conn)
  | dial (hs : p.current.shared = none) (hn : p.current.connecting = none) :
    Turned p ({ p.setState p.state { p.current with connecting := some p.connectCount } with
      connectCount := p.connectCount + 1 }, .wait p.state p.connectCount true)

section Turns

variable {p : ConnPool ℕ ε} (alive : ℕ → Bool)

lemma claim_turned {conn : ℕ} (ho : ¬p.closed = true) (hc : p.current.shared = some conn) :
    Turned p (p.claim alive conn) := by
  unfold ConnPool.claim
  split
  · exact .hand conn (by simpa using ho) hc
  · exact .dead conn hc

lemma acquireShared_turned (p : ConnPool ℕ ε) : Turned p (p.acquireShared alive) := by
  unfold ConnPool.acquireShared
  split
  · exact .error _
  next ho =>
    split
    next conn hs => exact claim_turned alive ho hs
    next hs =>
      split
      · exact .wait _
      next hn => exact .dial hs hn

lemma collectShared_turned (p : ConnPool ℕ ε) (state connect : ℕ) (startDial : Bool) :
    Turned p (p.collectShared alive state connect startDial) := by
  unfold ConnPool.collectShared
  split
  · cases startDial
    · exact .retry
    · exact .error _
  · split
    · exact .error _
    next ho =>
      split
      · exact .error _
      · split
        · exact .retry
        next conn hs => exact claim_turned alive ho hs

lemma Turned.outcome {r : ConnPool ℕ ε × Acquired ℕ ε} (h : Turned p r) (hp : SingleSound p.current) :
    Outcome p r.1 r.2 := by
  cases h with
  | error | wait | retry => exact Keeps.refl p
  | hand conn ho hc => exact ⟨keeps_setState p _ _ rfl, ho, hp.tracked conn hc⟩
  | dead conn hc => exact removes_removeConn (hp.tracked conn hc) _
  | dial =>
    obtain ⟨h1, h2, h3⟩ := keeps_setState p p.state { p.current with connecting := some p.connectCount } rfl
    exact ⟨h1, h2, h3⟩

end Turns

/-- What a turn of `acquireOrdered` does to what the pool tracks. -/
def OutcomeOrdered (p p' : ConnPool ℕ ε) : AcquiredOrdered ℕ ε → Prop
  | .conn conn => Keeps p p' ∧ p.closed = false ∧ conn ∈ tracked p p.state
  | .dead conn => Removes p p' conn
  | .error _ | .dialAndInstall _ => Keeps p p'

lemma acquireOrdered_outcome {p : ConnPool ℕ ε} (hp : OrderedSound p.current) (alive : ℕ → Bool) :
    OutcomeOrdered p (p.acquireOrdered alive).1 (p.acquireOrdered alive).2 := by
  unfold ConnPool.acquireOrdered
  split
  · exact Keeps.refl p
  next ho =>
    split
    next conn idle hi =>
      have hc : conn ∈ p.current.all := hp.tracked conn (hi ▸ mem_cons_self)
      split
      · exact ⟨keeps_setState p _ _ rfl, by simpa using ho, hc⟩
      · exact removes_setState hc _ rfl
    next => exact Keeps.refl p

/-- What the return of a connection does to what the pool tracks, and whether the connection is to be closed. -/
def Returned (p p' : ConnPool ℕ ε) (conn : ℕ) (closes : Bool) : Prop :=
  closes = false ∧ Keeps p p' ∨ closes = true ∧ Removes p p' conn ∨
    closes = true ∧ Keeps p p' ∧ (p.closed = false → conn ∉ tracked p p.state)

/-- A connection is given back: it is not tracked, it stays, or `removed` is the pool without it. -/
def GivenBack (p : ConnPool ℕ ε) (conn : ℕ) (removed : ConnPool ℕ ε) (r : ConnPool ℕ ε × Bool) : Prop :=
  r = (p, true) ∧ (p.closed = false → conn ∉ p.current.all) ∨ r = (p, false) ∨
    conn ∈ p.current.all ∧ r = (removed, true)

section GivenBack

variable (p : ConnPool ℕ ε) (conn : ℕ)

lemma release_givenBack (alive : ℕ → Bool) (reuse : Bool) :
    GivenBack p conn (p.removeConn conn .closed) (p.release alive conn reuse) := by
  unfold ConnPool.release
  split
  next hc => exact .inl ⟨rfl, by simp [hc]⟩
  next =>
    split
    next ht => exact .inl ⟨rfl, fun _ => ht⟩
    next ht =>
      split
      · exact .inr (.inr ⟨not_not.1 ht, rfl⟩)
      · exact .inr (.inl rfl)

lemma invalidate_givenBack (cause : ConnError ε) :
    GivenBack p conn (p.removeConn conn cause) (p.invalidate conn cause) := by
  unfold ConnPool.invalidate
  split
  next hc => exact .inl ⟨rfl, by simp [hc]⟩
  next =>
    split
    · exact .inr (.inl rfl)
    next ht => exact .inr (.inr ⟨not_not.1 ht, rfl⟩)

lemma invalidateOrdered_givenBack : GivenBack p conn (p.removeOrdered conn) (p.invalidateOrdered conn) := by
  unfold ConnPool.invalidateOrdered
  split
  next hc => exact .inl ⟨rfl, by simp [hc]⟩
  next =>
    split
    · exact .inr (.inl rfl)
    next ht => exact .inr (.inr ⟨not_not.1 ht, rfl⟩)

lemma releaseOrdered_givenBack (alive : ℕ → Bool) (reuse : Bool) :
    GivenBack p conn (p.removeOrdered conn) (p.releaseOrdered alive conn reuse) ∨
      conn ∈ p.current.all ∧ conn ∉ p.current.idle ∧ p.releaseOrdered alive conn reuse =
        (p.setState p.state { p.current with idle := p.current.idle ++ [conn] }, false) := by
  unfold ConnPool.releaseOrdered
  split
  next hc => exact .inl (.inl ⟨rfl, by simp [hc]⟩)
  next =>
    split
    next ht => exact .inl (.inl ⟨rfl, fun _ => ht⟩)
    next ht =>
      split
      · exact .inl (.inr (.inr ⟨not_not.1 ht, rfl⟩))
      · split
        · exact .inl (.inr (.inl rfl))
        next hi => exact .inr ⟨not_not.1 ht, hi, rfl⟩

variable {p conn} {removed : ConnPool ℕ ε} {r : ConnPool ℕ ε × Bool}

lemma GivenBack.elim {P : ConnPool ℕ ε → Prop} (h : GivenBack p conn removed r) (hp : P p) (hr : P removed) :
    P r.1 := by
  rcases h with ⟨rfl, -⟩ | rfl | ⟨-, rfl⟩
  · exact hp
  · exact hp
  · exact hr

lemma GivenBack.returned (h : GivenBack p conn removed r)
    (hr : conn ∈ p.current.all → Removes p removed conn) : Returned p r.1 conn r.2 := by
  rcases h with ⟨rfl, hn⟩ | rfl | ⟨hc, rfl⟩
  · exact .inr (.inr ⟨rfl, Keeps.refl p, hn⟩)
  · exact .inl ⟨rfl, Keeps.refl p⟩
  · exact .inr (.inl ⟨rfl, hr hc⟩)

end GivenBack

lemma release_returned (alive : ℕ → Bool) (conn : ℕ) (reuse : Bool) :
    Returned p (release mode p alive conn reuse).1 conn (release mode p alive conn reuse).2 := by
  cases mode with
  | single => exact (release_givenBack p conn alive reuse).returned fun hc => removes_removeConn hc _
  | ordered =>
    rcases releaseOrdered_givenBack p conn alive reuse with h | ⟨-, -, h⟩
    · exact h.returned fun hc => removes_setState hc _ rfl
    · simp only [release, h]
      exact .inl ⟨rfl, keeps_setState p _ _ rfl⟩

lemma invalidate_returned (conn : ℕ) (cause : ConnError ε) :
    Returned p (invalidate mode p conn cause).1 conn (invalidate mode p conn cause).2 := by
  cases mode with
  | single => exact (invalidate_givenBack p conn cause).returned fun hc => removes_removeConn hc _
  | ordered => exact (invalidateOrdered_givenBack p conn).returned fun hc => removes_setState hc _ rfl

lemma install_spec (state connect : ℕ) (dialed : Except (ConnError ε) ℕ) :
    (∃ err, dialed = .error err ∧ Keeps p (p.install state connect dialed).1 ∧
      (p.install state connect dialed).2 = none) ∨
    ∃ conn, dialed = .ok conn ∧ (Keeps p (p.install state connect dialed).1 ∧
      (p.install state connect dialed).2 = some conn ∨ Tracks p (p.install state connect dialed).1 conn ∧
      (p.install state connect dialed).2 = none) := by
  obtain ⟨h1, h2, h3⟩ := keeps_setState p state { p.states state with connecting := none } rfl
  cases dialed with
  | error err => exact .inl ⟨err, rfl, ⟨h1, h2, h3⟩, rfl⟩
  | ok conn =>
    refine .inr ⟨conn, rfl, ?_⟩
    unfold ConnPool.install
    dsimp only
    split
    · exact .inl ⟨⟨h1, h2, h3⟩, rfl⟩
    next hc =>
      split
      · exact .inl ⟨⟨h1, h2, h3⟩, rfl⟩
      next hs =>
        obtain rfl := not_not.1 hs
        refine .inr ⟨⟨by simpa using hc, ?_, h2, h3⟩, rfl⟩
        rw [← h1]
        exact tracked_setState ..

lemma installOrdered_spec (state conn : ℕ) :
    Keeps p (p.installOrdered state conn).1 ∧ (p.installOrdered state conn).2 = false ∨
      Tracks p (p.installOrdered state conn).1 conn ∧ (p.installOrdered state conn).2 = true := by
  unfold ConnPool.installOrdered
  split
  · exact .inl ⟨Keeps.refl p, rfl⟩
  next hc =>
    split
    · exact .inl ⟨Keeps.refl p, rfl⟩
    next hs =>
      obtain rfl := not_not.1 hs
      refine .inr ⟨⟨by simpa using hc, ?_, rfl, rfl⟩, rfl⟩
      rw [tracked_setState]
      rfl

lemma cancelState_keeps (number : ℕ) (cause : ConnError ε) : Keeps p (p.cancelState number cause) := by
  obtain ⟨h1, h2, h3⟩ := keeps_setState p number
    { p.states number with cause := some ((p.states number).cause.getD cause) } rfl
  unfold ConnPool.cancelState
  split <;> exact ⟨h1, h2, h3⟩

/-! ### The states of a pool -/

lemma sound_setState {mode : ConnPoolMode} {p : ConnPool ℕ ε} (hp : ∀ n, Sound mode (p.states n)) (number : ℕ)
    (state : PoolState ℕ ε) (hs : Sound mode state) (n : ℕ) : Sound mode ((p.setState number state).states n) :=
  (Function.forall_update_iff _ fun _ => Sound mode).2 ⟨hs, fun n _ => hp n⟩ n

section Single

variable {p : ConnPool ℕ ε} (hp : ∀ n, Sound .single (p.states n))

include hp

lemma sound_removeConn (conn : ℕ) (cause : ConnError ε) (n : ℕ) :
    Sound .single ((p.removeConn conn cause).states n) := by
  have h : SingleSound p.current := hp p.state
  unfold ConnPool.removeConn
  split
  · exact sound_setState hp _ _ ⟨fun d hd => (by cases hd), fun _ => rfl, fun _ => rfl⟩ n
  next hne =>
    refine sound_setState hp _ _ ?_ n
    refine ⟨fun d hd => ?_, h.unclaimed, h.connecting⟩
    refine mem_filter.2 ⟨h.tracked d hd, ?_⟩
    rw [decide_eq_true_iff]
    rintro rfl
    exact hne hd

lemma sound_turned {r : ConnPool ℕ ε × Acquired ℕ ε} (ht : Turned p r) (n : ℕ) : Sound .single (r.1.states n) := by
  have h : SingleSound p.current := hp p.state
  cases ht with
  | error | wait | retry => exact hp n
  | hand conn ho hc =>
    refine sound_setState hp _ _ ?_ n
    exact ⟨h.tracked, fun hn => (by rw [hc] at hn; cases hn), h.connecting⟩
  | dead conn hc => exact sound_removeConn hp _ _ n
  | dial hs hn =>
    exact sound_setState hp p.state { p.current with connecting := some p.connectCount }
      ⟨h.tracked, h.unclaimed, fun _ => hs⟩ n

lemma sound_install (state connect : ℕ) (dialed : Except (ConnError ε) ℕ) (n : ℕ) :
    Sound .single ((p.install state connect dialed).1.states n) := by
  have h : SingleSound (p.states state) := hp state
  have h1 := sound_setState hp state { p.states state with connecting := none }
    ⟨h.tracked, h.unclaimed, by simp⟩
  unfold ConnPool.install
  split
  · exact h1 n
  · split
    · exact h1 n
    · split
      · exact h1 n
      · refine sound_setState h1 state _ ⟨fun d hd => ?_, by simp, fun hc => ?_⟩ n
        · cases hd
          exact mem_cons_self
        · simp [ConnPool.setState] at hc

end Single

section Ordered

variable {p : ConnPool ℕ ε} (hp : ∀ n, Sound .ordered (p.states n))

include hp

lemma sound_removeOrdered (conn n : ℕ) : Sound .ordered ((p.removeOrdered conn).states n) := by
  have h : OrderedSound p.current := hp p.state
  refine sound_setState hp _ _ ⟨fun d hd => ?_, h.nodup.filter _⟩ n
  rw [mem_filter] at hd ⊢
  exact ⟨h.tracked d hd.1, hd.2⟩

lemma sound_acquireOrdered (alive : ℕ → Bool) (n : ℕ) : Sound .ordered ((p.acquireOrdered alive).1.states n) := by
  have h : OrderedSound p.current := hp p.state
  unfold ConnPool.acquireOrdered
  split
  · exact hp n
  · split
    next conn idle hi =>
      have hn := nodup_cons.1 (hi ▸ h.nodup)
      have ht : ∀ d ∈ idle, d ∈ p.current.all := fun d hd => h.tracked d (hi ▸ mem_cons_of_mem conn hd)
      split
      · exact sound_setState hp _ _ ⟨ht, hn.2⟩ n
      · refine sound_setState hp _ _ ⟨fun d hd => ?_, hn.2⟩ n
        refine mem_filter.2 ⟨ht d hd, ?_⟩
        rw [decide_eq_true_iff]
        rintro rfl
        exact hn.1 hd
    next => exact hp n

lemma sound_installOrdered (state conn n : ℕ) : Sound .ordered ((p.installOrdered state conn).1.states n) := by
  have h : OrderedSound (p.states state) := hp state
  unfold ConnPool.installOrdered
  split
  · exact hp n
  · split
    · exact hp n
    · refine sound_setState hp _ _ ?_ n
      exact ⟨fun d hd => mem_cons_of_mem _ (h.tracked d hd), h.nodup⟩

lemma sound_releaseOrdered (alive : ℕ → Bool) (conn : ℕ) (reuse : Bool) (n : ℕ) :
    Sound .ordered ((p.releaseOrdered alive conn reuse).1.states n) := by
  have h : OrderedSound p.current := hp p.state
  rcases releaseOrdered_givenBack p conn alive reuse with hg | ⟨ht, hi, hg⟩
  · exact hg.elim (P := fun q => Sound .ordered (q.states n)) (hp n) (sound_removeOrdered hp conn n)
  · rw [hg]
    refine sound_setState hp _ _ ⟨fun d hd => ?_, ?_⟩ n
    · rcases mem_append.1 hd with hd | hd
      · exact h.tracked d hd
      · rwa [mem_singleton.1 hd]
    · exact nodup_append.2 ⟨h.nodup, nodup_singleton conn, fun a ha b hb => by
        rintro rfl
        exact hi (mem_singleton.1 hb ▸ ha)⟩

end Ordered

section Modes

variable {mode : ConnPoolMode} {p : ConnPool ℕ ε} (hp : ∀ n, Sound mode (p.states n))

include hp

lemma sound_release (alive : ℕ → Bool) (conn : ℕ) (reuse : Bool) (n : ℕ) :
    Sound mode ((release mode p alive conn reuse).1.states n) := by
  cases mode with
  | ordered => exact sound_releaseOrdered hp alive conn reuse n
  | single =>
    exact (release_givenBack p conn alive reuse).elim (P := fun q => Sound .single (q.states n)) (hp n)
      (sound_removeConn hp _ _ n)

lemma sound_invalidate (conn : ℕ) (cause : ConnError ε) (n : ℕ) :
    Sound mode ((invalidate mode p conn cause).1.states n) := by
  cases mode with
  | single =>
    exact (invalidate_givenBack p conn cause).elim (P := fun q => Sound .single (q.states n)) (hp n)
      (sound_removeConn hp _ _ n)
  | ordered =>
    exact (invalidateOrdered_givenBack p conn).elim (P := fun q => Sound .ordered (q.states n)) (hp n)
      (sound_removeOrdered hp _ n)

lemma sound_cancelState (number : ℕ) (cause : ConnError ε) (n : ℕ) :
    Sound mode ((p.cancelState number cause).states n) := by
  have hs : Sound mode { p.states number with cause := some ((p.states number).cause.getD cause) } := by
    cases mode with
    | single => exact ⟨(hp number).tracked, (hp number).unclaimed, (hp number).connecting⟩
    | ordered => exact ⟨(hp number).tracked, (hp number).nodup⟩
  unfold ConnPool.cancelState
  split <;> exact sound_setState hp number _ hs n

end Modes

end SingBox.Dns.PoolRuns
