import Mathlib.Data.BitVec
import SingBox.Lib.Goroutine

/-!
# What the XHTTP connections share (`transport/v2rayxhttp/conn.go`)

The three kinds of connections are built from the same parts: deadlines with a timer and a generation
number, an `io.Pipe` for the upload, the breaker that notes how reads end, and the guard that releases
the pooled client once.  Each function here is one critical section or one atomic access; what it does
afterwards outside the lock is returned to the caller.
-/

namespace SingBox.Xhttp

/-- The errors of a connection: those the code names, and those of the world; of a text that quotes a
value, the part before it. -/
inductive ConnError where
  /-- `os.ErrDeadlineExceeded` -/
  | deadlineExceeded
  /-- `net.ErrClosed` -/
  | closed
  /-- `io.EOF` -/
  | eof
  /-- `context.Canceled` -/
  | canceled
  | other (text : String)
  deriving DecidableEq, Repr

abbrev Body := ℕ

/-- How a `Read` ends; it would panic on a connection without a reader. -/
inductive ReadResult where
  | ret (n : ℕ) (err : Option ConnError)
  | panic
  deriving DecidableEq, Repr

/-- What a `Read` returns that finds the terminal error. -/
def terminalResult (err : ConnError) : ReadResult := .ret 0 (some err)

/-- `sync.Once`: a second caller waits for the first. -/
inductive Once where
  | fresh | running | done
  deriving DecidableEq, Repr

/-! ### Deadlines -/

structure Timer where
  generation : BitVec 64
  deadline : ℤ
  deriving DecidableEq, Repr

/-- `readDeadline`.  The channel `dead` is closed where `expired` is set, so one flag stands for both. -/
structure ReadDeadline where
  expired : Bool := false
  timer : Option Timer := none
  generation : BitVec 64 := 0
  onExpire : Bool := true
  deriving DecidableEq, Repr

namespace ReadDeadline

/-- The flag says whether the callback has to run. -/
def expireLocked (d : ReadDeadline) : ReadDeadline × Bool :=
  if d.expired then (d, false) else ({ d with expired := true }, d.onExpire)

def stop (d : ReadDeadline) : ReadDeadline := { d with generation := d.generation + 1, timer := none }

/-- `set` at the time `now`; the zero time is `none`. -/
def set (d : ReadDeadline) (t : Option ℤ) (now : ℤ) : ReadDeadline × Bool :=
  match t with
  | none => (d.stop, false)
  | some t =>
    if d.expired then (d.stop, false)
    else if t - now ≤ 0 then d.stop.expireLocked
    else ({ d.stop with timer := some ⟨d.stop.generation, t⟩ }, false)

def expire (d : ReadDeadline) (generation : BitVec 64) : ReadDeadline × Bool :=
  if generation ≠ d.generation then (d, false) else d.expireLocked

/-- The timer fires at the time `now`: the generation its callback is called with. -/
def fire (d : ReadDeadline) (now : ℤ) : ReadDeadline × Option (BitVec 64) :=
  match d.timer with
  | some t => if t.deadline ≤ now then ({ d with timer := none }, some t.generation) else (d, none)
  | none => (d, none)

end ReadDeadline

/-- An `io.Pipe`: the error its read half was closed with first, and whether the write half is closed. -/
structure Pipe where
  readErr : Option ConnError := none
  writeClosed : Bool := false
  deriving DecidableEq, Repr

def Pipe.closeWithError (p : Pipe) (err : ConnError) : Pipe := { p with readErr := p.readErr.or (some err) }

/-- `writeDeadline`, with the pipe whose read half it closes. -/
structure WriteDeadline where
  pipe : Pipe := {}
  timer : Option Timer := none
  generation : BitVec 64 := 0
  deriving DecidableEq, Repr

namespace WriteDeadline

def stop (d : WriteDeadline) : WriteDeadline := { d with generation := d.generation + 1, timer := none }

def set (d : WriteDeadline) (t : Option ℤ) (now : ℤ) : WriteDeadline :=
  match t with
  | none => d.stop
  | some t =>
    if t - now ≤ 0 then { d.stop with pipe := d.pipe.closeWithError .deadlineExceeded }
    else { d.stop with timer := some ⟨d.stop.generation, t⟩ }

def expire (d : WriteDeadline) (generation : BitVec 64) : WriteDeadline :=
  if generation ≠ d.generation then d else { d with pipe := d.pipe.closeWithError .deadlineExceeded }

def fire (d : WriteDeadline) (now : ℤ) : WriteDeadline × Option (BitVec 64) :=
  match d.timer with
  | some t => if t.deadline ≤ now then ({ d with timer := none }, some t.generation) else (d, none)
  | none => (d, none)

/-- `CloseWithError` on the pipe, outside the deadline's lock. -/
def closePipe (d : WriteDeadline) (err : ConnError) : WriteDeadline :=
  { d with pipe := d.pipe.closeWithError err }

/-- `Close` on the write half of the pipe. -/
def closeWriter (d : WriteDeadline) : WriteDeadline :=
  { d with pipe := { d.pipe with writeClosed := true } }

end WriteDeadline

/-! ### The pooled client -/

/-- `xmuxRelease`: how often the usage was released, and what was noted for the breaker of the pool. -/
structure XmuxRelease where
  released : ℕ := 0
  successes : ℕ := 0
  failures : ℕ := 0
  deriving DecidableEq, Repr

namespace XmuxRelease

/-- `once.Do` runs its function, which calls `addOpenUsage(-1)`, the first time only. -/
def release (r : XmuxRelease) : XmuxRelease :=
  if 0 < r.released then r else { r with released := r.released + 1 }

def noteSuccess (r : XmuxRelease) : XmuxRelease := { r with successes := r.successes + 1 }

def noteFailure (r : XmuxRelease) : XmuxRelease := { r with failures := r.failures + 1 }

lemma release_released (r : XmuxRelease) : r.release.released = max r.released 1 := by
  unfold release
  split <;> simp <;> omega

end XmuxRelease

structure ConnBreaker where
  localClosed : Bool := false
  readOK : Bool := false
  deriving DecidableEq, Repr

def ConnBreaker.noteRead (b : ConnBreaker) (xmux : XmuxRelease) : Option ConnError → ConnBreaker × XmuxRelease
  | none => ({ b with readOK := true }, if b.readOK then xmux else xmux.noteSuccess)
  | some e => (b, if e ≠ .eof ∧ !b.localClosed then xmux.noteFailure else xmux)

lemma ConnBreaker.noteRead_released (b : ConnBreaker) (r : XmuxRelease) (err : Option ConnError) :
    (b.noteRead r err).2.released = r.released := by
  cases err with
  | none | some e =>
    simp only [noteRead]
    split <;> rfl

/-- The outside inputs of one section: a clock reading, which of two ready branches a `select` takes, and
what a call into the world returned (`statusText` is the status line of a response); `timeout` says that
the context of a POST timed out. -/
structure ConnInput where
  now : ℤ := 0
  pick : Bool := false
  n : ℕ := 0
  err : Option ConnError := none
  status : ℕ := 200
  statusText : String := "200 OK"
  timeout : Bool := false
  draw : ℕ := 0

end SingBox.Xhttp
