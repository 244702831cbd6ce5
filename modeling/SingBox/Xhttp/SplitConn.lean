import SingBox.Lib.OneShot
import SingBox.Xhttp.ConnParts

/-!
# Stream-up connections (`splitConn` in `transport/v2rayxhttp/conn.go`)

Five kinds of goroutines meet on a `splitConn`: the dial goroutine that delivers the response body, the
upload goroutine that may fail, deadline timers, readers, and whoever closes the connection.  The atomic
sections are those of the source: the bodies of `stateMu` and of the deadlines' locks, channel
operations, and the calls that are made outside of any lock.

The connection refines the machine of `SingBox.Lib.OneShot` (`splitConn_sim`).  `Write`, which only
hands its data to the pipe, is left out.
-/

namespace SingBox.Xhttp

open SingBox.Lib Multiset

/-- `splitConn`; `created` counts how often the channel was closed.  The last three fields record the
history: the bodies passed to `setupReader`, the bodies closed, and the results of the `Read`s, each with
the terminal error at its start. -/
structure SplitConn where
  ready : Bool := false
  terminalErr : Option ConnError := none
  xmux : XmuxRelease := {}
  breaker : ConnBreaker := {}
  reader : Option Body := none
  created : ℕ := 0
  readerErr : Option ConnError := none
  closeOnce : Once := .fresh
  writeDeadline : WriteDeadline := {}
  readDeadline : ReadDeadline := {}
  cancelled : Bool := false
  passed : List Body := []
  closed : List Body := []
  reads : List (Option ConnError × ReadResult) := []

/-- The atomic sections.  Those of a `Read` carry the terminal error at its start. -/
inductive SplitOp where
  /-- The critical section of `setupReader`. -/
  | setup (reader : Body) (err : Option ConnError)
  /-- `isExpired` at the end of `setupReader`. -/
  | checkExpired (b : Body)
  | closeBody (b : Body)
  /-- The critical section of `fail`. -/
  | fail (err : ConnError)
  | writeStop
  | readStop
  | closePipe (err : ConnError)
  | cancel
  | release
  /-- `closeOnce.Do`, up to the start of its function. -/
  | closeEnter
  | storeLocalClosed
  | closeWriter
  /-- The end of `closeOnce.Do`. -/
  | closeLeave
  | setRead (t : Option ℤ)
  /-- The check of `SetReadDeadline` after `set`. -/
  | recheckRead
  | setWrite (t : Option ℤ)
  | recheckWrite
  | expireRead (generation : BitVec 64)
  | expireWrite (generation : BitVec 64)
  | readSelect (start : Option ConnError)
  /-- `Read` after the deadline branch of the `select`. -/
  | readDead (start : Option ConnError)
  /-- `Read` takes the lock for the reader. -/
  | readLock (start : Option ConnError)
  /-- `Read` waits for the body. -/
  | readBody (start : Option ConnError) (b : Body)
  /-- `Read` takes the lock after the body has answered. -/
  | readAfter (start : Option ConnError) (n : ℕ) (err : Option ConnError)
  | readReturn (start : Option ConnError) (n : ℕ) (err : Option ConnError)
  deriving DecidableEq, Repr

inductive SplitCall where
  | setupReader (reader : Body) (err : Option ConnError)
  | fail (err : ConnError)
  | uploadFailed (err : ConnError)
  | close
  | read
  | setDeadline (t : Option ℤ)
  | setReadDeadline (t : Option ℤ)
  | setWriteDeadline (t : Option ℤ)
  | readTimer (now : ℤ)
  | writeTimer (now : ℤ)
  deriving DecidableEq, Repr

namespace SplitConn

/-- The state after the critical section of `fail`. -/
def failLocked (c : SplitConn) (err : ConnError) : SplitConn :=
  { c with terminalErr := some err, ready := true, created := if c.ready then c.created else c.created + 1 }

/-- What `fail` does after its critical section. -/
def failRest (c : SplitConn) (err : ConnError) : List SplitOp :=
  [SplitOp.writeStop, .readStop, .closePipe err, .cancel] ++ c.reader.toList.map SplitOp.closeBody ++ [SplitOp.release]

/-- What the read deadline does outside its lock. -/
def onExpire (fire : Bool) : List SplitOp := if fire then [.storeLocalClosed, .fail .deadlineExceeded] else []

def noteRead (c : SplitConn) (err : Option ConnError) : SplitConn :=
  { c with breaker := (c.breaker.noteRead c.xmux err).1, xmux := (c.breaker.noteRead c.xmux err).2 }

def returned (c : SplitConn) (start : Option ConnError) (r : ReadResult) : SplitConn :=
  { c with reads := (start, r) :: c.reads }

end SplitConn

def SplitOp.exec (o : SplitOp) (x : ConnInput) (c : SplitConn) : Option (SplitConn × List SplitOp) :=
  match o with
  | .setup reader err =>
    if c.ready ∨ c.terminalErr.isSome then some (c, [.closeBody reader])
    else some ({ c with reader := some reader, readerErr := err, ready := true, created := c.created + 1 },
      [.checkExpired reader])
  | .checkExpired b => some (c, if c.readDeadline.expired then [.closeBody b] else [])
  | .closeBody b => some ({ c with closed := b :: c.closed }, [])
  | .fail err => if c.terminalErr.isSome then some (c, []) else some (c.failLocked err, c.failRest err)
  | .writeStop => some ({ c with writeDeadline := c.writeDeadline.stop }, [])
  | .readStop => some ({ c with readDeadline := c.readDeadline.stop }, [])
  | .closePipe err => some ({ c with writeDeadline := c.writeDeadline.closePipe err }, [])
  | .cancel => some ({ c with cancelled := true }, [])
  | .release => some ({ c with xmux := c.xmux.release }, [])
  | .closeEnter =>
    match c.closeOnce with
    | .fresh => some ({ c with closeOnce := .running },
        [.storeLocalClosed, .writeStop, .readStop, .closeWriter, .fail .closed, .closeLeave])
    | .running => none
    | .done => some (c, [])
  | .storeLocalClosed => some ({ c with breaker := { c.breaker with localClosed := true } }, [])
  | .closeWriter => some ({ c with writeDeadline := c.writeDeadline.closeWriter }, [])
  | .closeLeave => some ({ c with closeOnce := .done }, [])
  | .setRead t =>
    some ({ c with readDeadline := (c.readDeadline.set t x.now).1 }, SplitConn.onExpire (c.readDeadline.set t x.now).2)
  | .recheckRead => some (c, if c.terminalErr.isSome then [.readStop] else [])
  | .setWrite t => some ({ c with writeDeadline := c.writeDeadline.set t x.now }, [])
  | .recheckWrite => some (c, if c.terminalErr.isSome then [.writeStop] else [])
  | .expireRead g =>
    some ({ c with readDeadline := (c.readDeadline.expire g).1 }, SplitConn.onExpire (c.readDeadline.expire g).2)
  | .expireWrite g => some ({ c with writeDeadline := c.writeDeadline.expire g }, [])
  | .readSelect start =>
    -- when both channels are closed, `select` takes either branch
    if 0 < c.created ∧ (c.readDeadline.expired → x.pick) then some (c, [.readLock start])
    else if c.readDeadline.expired then some (c, [.readDead start])
    else none
  | .readDead start => some (c.returned start (.ret 0 (c.terminalErr.or (some .deadlineExceeded))), [])
  | .readLock start =>
    match c.terminalErr.or c.readerErr with
    | some err => some (c.returned start (.ret 0 (some err)), [])
    | none =>
      match c.reader with
      | some b => some (c, [.readBody start b])
      | none => some (c.returned start .panic, [])
  | .readBody start _ => some (c, [.readAfter start x.n x.err])
  | .readAfter start n err => some (c, [.readReturn start n (c.terminalErr.or err)])
  | .readReturn start n err => some ((c.noteRead err).returned start (.ret n err), [])

/-- The code of a call; a call of `setupReader` records the body. -/
def SplitCall.entry (k : SplitCall) (c : SplitConn) : SplitConn × List SplitOp :=
  match k with
  | .setupReader reader err => ({ c with passed := reader :: c.passed }, [.setup reader err])
  | .fail err => (c, [.fail err])
  | .uploadFailed err => (c, [.fail err])
  | .close => (c, [.closeEnter])
  | .read => (c, [.readSelect c.terminalErr])
  | .setDeadline t => (c, [.setRead t, .recheckRead, .setWrite t, .recheckWrite])
  | .setReadDeadline t => (c, [.setRead t, .recheckRead])
  | .setWriteDeadline t => (c, [.setWrite t, .recheckWrite])
  | .readTimer now =>
    ({ c with readDeadline := (c.readDeadline.fire now).1 }, (c.readDeadline.fire now).2.toList.map .expireRead)
  | .writeTimer now =>
    ({ c with writeDeadline := (c.writeDeadline.fire now).1 }, (c.writeDeadline.fire now).2.toList.map .expireWrite)

/-- **A stream-up connection as a program of goroutines.** -/
def splitProgram : Program SplitConn SplitOp ConnInput SplitCall where
  entry := SplitCall.entry
  exec := SplitOp.exec

/-! ### The abstract machine -/

/-- The connection as the abstract machine sees it. -/
def SplitConn.oneShot (c : SplitConn) : OneShot Body ConnError ReadResult where
  ready := c.ready
  terminal := c.terminalErr
  bound := c.reader
  created := c.created
  offered := c.passed
  closed := c.closed
  released := c.xmux.released
  reads := c.reads

/-- What a section that is left means for the abstract machine. -/
def SplitOp.duty : SplitOp → Multiset (Duty Body ConnError)
  | .setup reader _ => {.offer reader}
  | .closeBody b => {.close b}
  | .release => {.release}
  | .readSelect start | .readDead start | .readLock start => {.read start}
  | .readBody start _ | .readAfter start _ _ | .readReturn start _ _ => {.past start}
  | _ => 0

/-! ### The simulation -/

attribute [local simp] SplitOp.duty

lemma onExpire_duty (fire : Bool) : ∀ o ∈ SplitConn.onExpire fire, o.duty = 0 := by
  cases fire <;> simp [SplitConn.onExpire]

section

open OneShot Relation.ReflTransGen

/-- The machine simulates a section. -/
def SplitSim : SplitOp → Prop := splitProgram.SimulatesAt SplitConn.oneShot SplitOp.duty terminalResult

lemma split_setup_sim {reader : Body} {err : Option ConnError} : SplitSim (.setup reader err) := by
  intro x c c' new m h _
  simp only [splitProgram, SplitOp.exec] at h
  split at h
  · cases h
    exact .pass rfl rfl fun _ => single (.reject _ _ _)
  next hn =>
    simp only [not_or, Bool.not_eq_true, Option.isSome_eq_false_iff, Option.isNone_iff_eq_none] at hn
    cases h
    exact .fulfil rfl (by simp) fun _ => single (.bind _ _ _ hn.1 hn.2)

lemma split_fail_sim {err : ConnError} : SplitSim (.fail err) := by
  intro x c c' new m h _
  simp only [splitProgram, SplitOp.exec] at h
  split at h
  · cases h
    exact .neutral rfl rfl (by simp)
  next hn =>
    have ht : c.terminalErr = none := by simpa using hn
    cases h
    have hd : duties SplitOp.duty (↑(c.failRest err) : Multiset SplitOp) = ↑c.oneShot.finishDuties := by
      rw [SplitConn.failRest, SplitConn.oneShot]
      cases c.reader <;> simp <;> rfl
    rw [duties_cons, duties_add, hd, show SplitOp.duty (.fail err) = 0 from rfl, zero_add]
    exact single (.finish _ _ _ ht)

lemma split_readDead_sim {start : Option ConnError} : SplitSim (.readDead start) := by
  intro x c c' new m h _
  cases h
  refine .fulfil rfl (by simp) fun _ => ?_
  cases ht : c.terminalErr with
  | some e => exact single (.readEnd _ _ _ e ht)
  | none => exact (single (.readOn _ _ _ ht)).tail (.readReturn _ _ _ _)

lemma split_readLock_sim {start : Option ConnError} : SplitSim (.readLock start) := by
  intro x c c' new m h _
  simp only [splitProgram, SplitOp.exec] at h
  cases ht : c.terminalErr with
  | some e =>
    rw [ht] at h
    cases h
    exact .fulfil rfl (by simp) fun _ => single (.readEnd _ _ _ e ht)
  | none =>
    split at h
    · cases h
      exact .fulfil rfl (by simp) fun _ => (single (.readOn _ _ _ ht)).tail (.readReturn _ _ _ _)
    · split at h
      · cases h
        exact .pass rfl rfl fun _ => single (.readOn _ _ _ ht)
      · cases h
        exact .fulfil rfl (by simp) fun _ => (single (.readOn _ _ _ ht)).tail (.readReturn _ _ _ _)

lemma SplitConn.noteRead_oneShot (c : SplitConn) (err : Option ConnError) : (c.noteRead err).oneShot = c.oneShot := by
  rw [oneShot, noteRead]
  rw [ConnBreaker.noteRead_released]
  rfl

lemma SplitConn.release_oneShot (c : SplitConn) : ({ c with xmux := c.xmux.release } : SplitConn).oneShot =
    { c.oneShot with released := max c.oneShot.released 1 } := by
  rw [oneShot, XmuxRelease.release_released]
  rfl

/-- **A stream-up connection is simulated by the machine that ends once.** -/
theorem splitConn_sim : splitProgram.Simulates SplitConn.oneShot SplitOp.duty terminalResult where
  call k c m := by
    cases k with
    | setupReader reader err => exact .enter rfl fun _ => single (.offer _ _ _)
    | read => exact .enter rfl fun _ => single (.startRead _ _)
    | _ => exact .idle rfl (by simp [splitProgram, SplitCall.entry])
  exec o x c c' new m h hinv := by
    cases o with
    | setup reader err => exact split_setup_sim h hinv
    | fail err => exact split_fail_sim h hinv
    | readDead start => exact split_readDead_sim h hinv
    | readLock start => exact split_readLock_sim h hinv
    | checkExpired b =>
      cases h
      split
      · exact .take rfl rfl fun _ => single (.takeClose _ _ _)
      · exact .neutral rfl rfl (by simp)
    | closeBody b =>
      cases h
      exact .fulfil rfl (by simp) fun _ => single (.close _ _ _)
    | release =>
      cases h
      rw [c.release_oneShot]
      exact .fulfil rfl (by simp) fun _ => single (.release _ _)
    | closeEnter =>
      simp only [splitProgram, SplitOp.exec] at h
      split at h <;> cases h
      · exact .neutral rfl rfl (by simp)
      · exact .neutral rfl rfl (by simp)
    | setRead t | expireRead g =>
      cases h
      exact .neutral rfl rfl (onExpire_duty _)
    | readSelect start | readBody start b | readAfter start n err =>
      simp only [splitProgram, SplitOp.exec] at h
      repeat' split at h
      all_goals cases h
      all_goals exact .pass rfl rfl fun _ => refl
    | readReturn start n err =>
      simp only [splitProgram, SplitOp.exec, Option.some.injEq] at h
      obtain ⟨rfl, rfl⟩ := h
      rw [← c.noteRead_oneShot err]
      exact .fulfil rfl (by simp) fun _ => single (.readReturn _ _ _ _)
    | _ =>
      cases h
      exact .neutral rfl rfl (by simp)

end

end SingBox.Xhttp
