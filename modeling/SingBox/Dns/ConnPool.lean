import Mathlib.Data.List.Basic

/-!
# The connection pool

`ConnPool`: what its methods do while they hold its lock.  They return what there is to do outside of it, the dials and
the closing of connections.  The methods come first in the mode in which one connection is shared, and then in the mode
in which idle connections are handed out in order.

A pool has a state, which a reset replaces; goroutines may still refer to earlier states, so all are kept, by their
numbers.  The attempts to connect are numbered as well.  The context of a shared connection is there by its connection:
it is done once it has a cause.
-/

namespace SingBox.Dns

/-- Errors of the pool: those of a context and of a dial, and those that its user gives as causes. -/
inductive ConnError (ε : Type) where
  /-- `net.ErrClosed` -/
  | closed
  | canceled
  | deadlineExceeded
  | dial
  | other (e : ε)
  deriving DecidableEq

/-- `connPoolConnect` -/
structure Connect (ε : Type) where
  done : Bool := false
  err : Option (ConnError ε) := none

/-- `connPoolState`; its context is done once it has a cause. -/
structure PoolState (τ ε : Type) where
  cause : Option (ConnError ε) := none
  all : List τ := []
  shared : Option τ := none
  sharedClaimed : Bool := false
  connecting : Option ℕ := none
  /-- The idle connections, the one released first in front. -/
  idle : List τ := []

structure ConnPool (τ ε : Type) where
  closed : Bool := false
  state : ℕ := 0
  states : ℕ → PoolState τ ε := fun _ => {}
  connects : ℕ → Connect ε := fun _ => {}
  connectCount : ℕ := 0
  /-- The contexts of the shared connections. -/
  causes : τ → Option (ConnError ε) := fun _ => none

inductive Acquired (τ ε : Type) where
  | error (e : ConnError ε)
  | conn (conn : τ) (created : Bool)
  /-- Wait for an attempt to connect, which is to be started if `startDial`. -/
  | wait (state connect : ℕ) (startDial : Bool)
  /-- Try again, after this connection has been closed. -/
  | dead (conn : τ)
  | retry

inductive AcquiredOrdered (τ ε : Type) where
  | error (e : ConnError ε)
  | conn (conn : τ)
  /-- Try again, after this connection has been closed. -/
  | dead (conn : τ)
  | dialAndInstall (state : ℕ)

inductive ConnPoolMode where
  | single
  | ordered
  deriving DecidableEq

namespace ConnPool

variable {τ ε : Type} [DecidableEq τ] (isAlive : τ → Bool)

def current (p : ConnPool τ ε) : PoolState τ ε := p.states p.state

def setState (p : ConnPool τ ε) (number : ℕ) (state : PoolState τ ε) : ConnPool τ ε :=
  { p with states := Function.update p.states number state }

/-- The context of a connection is canceled: only the first cause counts. -/
def cancelConn (p : ConnPool τ ε) (conn : τ) (cause : ConnError ε) : ConnPool τ ε :=
  { p with causes := Function.update p.causes conn (some ((p.causes conn).getD cause)) }

/-- `removeConn`, from the current state. -/
def removeConn (p : ConnPool τ ε) (conn : τ) (cause : ConnError ε) : ConnPool τ ε :=
  let state := { p.current with all := p.current.all.filter (· ≠ conn) }
  if p.current.shared = some conn then
    (p.setState p.state { state with shared := none, sharedClaimed := false }).cancelConn conn cause
  else p.setState p.state state

/-- The shared connection is handed out: the first time to the one for whom it was created. -/
def claim (p : ConnPool τ ε) (conn : τ) : ConnPool τ ε × Acquired τ ε :=
  if isAlive conn then
    (p.setState p.state { p.current with sharedClaimed := true }, .conn conn (!p.current.sharedClaimed))
  else (p.removeConn conn .closed, .dead conn)

def acquireShared (p : ConnPool τ ε) : ConnPool τ ε × Acquired τ ε :=
  if p.closed then (p, .error .closed)
  else
    match p.current.shared with
    | some conn => p.claim isAlive conn
    | none =>
      match p.current.connecting with
      | some connect => (p, .wait p.state connect false)
      | none =>
        ({ p.setState p.state { p.current with connecting := some p.connectCount } with
            connectCount := p.connectCount + 1 }, .wait p.state p.connectCount true)

def collectShared (p : ConnPool τ ε) (state connect : ℕ) (startDial : Bool) : ConnPool τ ε × Acquired τ ε :=
  match (p.connects connect).err with
  | some err => (p, if startDial then .error err else .retry)
  | none =>
    if p.closed then (p, .error .closed)
    else if p.state ≠ state then (p, .error .closed)
    else
      match p.current.shared with
      | none => (p, .retry)
      | some conn => p.claim isAlive conn

/-- The end of `connectSingle`: the connection is shared, or there is an error; with the connection to be closed. -/
def install (p : ConnPool τ ε) (state connect : ℕ) (dialed : Except (ConnError ε) τ) : ConnPool τ ε × Option τ :=
  let p' := p.setState state { p.states state with connecting := none }
  let fail (err : ConnError ε) : ConnPool τ ε :=
    { p' with connects := Function.update p'.connects connect { p'.connects connect with err := some err } }
  match dialed with
  | .error err => (fail err, none)
  | .ok conn =>
    if p.closed then (fail .closed, some conn)
    else if p.state ≠ state then (fail .closed, some conn)
    else
      ({ p'.setState state { p'.states state with shared := some conn, all := conn :: (p'.states state).all } with
          causes := Function.update p'.causes conn (p'.states state).cause }, none)

/-- `close(state.done)`. -/
def finish (p : ConnPool τ ε) (connect : ℕ) : ConnPool τ ε :=
  { p with connects := Function.update p.connects connect { p.connects connect with done := true } }

/-- `Release`; whether the connection is to be closed. -/
def release (p : ConnPool τ ε) (conn : τ) (reuse : Bool) : ConnPool τ ε × Bool :=
  if p.closed then (p, true)
  else if conn ∉ p.current.all then (p, true)
  else if !reuse || !isAlive conn then (p.removeConn conn .closed, true)
  else (p, false)

/-- `Invalidate`; whether the connection is to be closed. -/
def invalidate (p : ConnPool τ ε) (conn : τ) (cause : ConnError ε) : ConnPool τ ε × Bool :=
  if p.closed then (p, true)
  else if conn ∉ p.current.all then (p, false)
  else (p.removeConn conn cause, true)

/-- `Reset`; the number of the state to be closed. -/
def reset (p : ConnPool τ ε) : ConnPool τ ε × Option ℕ :=
  if p.closed then (p, none) else ({ p with state := p.state + 1 }, some p.state)

/-- `Close`; the number of the state to be closed. -/
def close (p : ConnPool τ ε) : ConnPool τ ε × Option ℕ :=
  if p.closed then (p, none) else ({ p with closed := true }, some p.state)

/-- `closeState`: the context of a state is canceled, and with it that of its shared connection. -/
def cancelState (p : ConnPool τ ε) (number : ℕ) (cause : ConnError ε) : ConnPool τ ε :=
  let p' := p.setState number { p.states number with cause := some ((p.states number).cause.getD cause) }
  match (p.states number).shared with
  | some conn => p'.cancelConn conn cause
  | none => p'

/-! ### Connections in order -/

/-- `removeConn`, from the current state. -/
def removeOrdered (p : ConnPool τ ε) (conn : τ) : ConnPool τ ε :=
  p.setState p.state { p.current with all := p.current.all.filter (· ≠ conn), idle := p.current.idle.filter (· ≠ conn) }

def acquireOrdered (p : ConnPool τ ε) : ConnPool τ ε × AcquiredOrdered τ ε :=
  if p.closed then (p, .error .closed)
  else
    match p.current.idle with
    | conn :: idle =>
      if isAlive conn then (p.setState p.state { p.current with idle := idle }, .conn conn)
      else
        (p.setState p.state { p.current with idle := idle, all := p.current.all.filter (· ≠ conn) }, .dead conn)
    | [] => (p, .dialAndInstall p.state)

/-- The end of `dialAndInstall`; whether the connection is handed out, and not to be closed. -/
def installOrdered (p : ConnPool τ ε) (state : ℕ) (conn : τ) : ConnPool τ ε × Bool :=
  if p.closed then (p, false)
  else if p.state ≠ state then (p, false)
  else (p.setState state { p.states state with all := conn :: (p.states state).all }, true)

/-- `Release`; whether the connection is to be closed. -/
def releaseOrdered (p : ConnPool τ ε) (conn : τ) (reuse : Bool) : ConnPool τ ε × Bool :=
  if p.closed then (p, true)
  else if conn ∉ p.current.all then (p, true)
  else if !reuse || !isAlive conn then (p.removeOrdered conn, true)
  else if conn ∈ p.current.idle then (p, false)
  else (p.setState p.state { p.current with idle := p.current.idle ++ [conn] }, false)

/-- `Invalidate`; whether the connection is to be closed. -/
def invalidateOrdered (p : ConnPool τ ε) (conn : τ) : ConnPool τ ε × Bool :=
  if p.closed then (p, true)
  else if conn ∉ p.current.all then (p, false)
  else (p.removeOrdered conn, true)

end ConnPool

end SingBox.Dns
