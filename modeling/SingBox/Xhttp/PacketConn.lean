import SingBox.Lib.OneShot
import SingBox.Xhttp.ConnParts
import SingBox.Xhttp.Range

/-!
# Packet-up connections (`packetConn` in `transport/v2rayxhttp/conn.go`)

A `packetConn` downloads through one response body and uploads with one POST for each chunk of a
`Write`.  The atomic sections are those of the source: the bodies of `access` and of the deadline's
lock, channel operations, and the calls that are made outside of any lock.  A `sendPacket` is four of
them: it takes its sequence number, waits for its turn, starts its POST and looks at the answer.

The connection refines the machine of `SingBox.Lib.OneShot` (`packetConn_sim`).
-/

namespace SingBox.Xhttp

open SingBox.Lib Option List

/-- The parts of the client a connection uses: the two ranges of its options, and the error of
`newRequest`, which depends on nothing but the configured path. -/
structure PacketConfig where
  scMaxEachPostBytes : IntRange
  scMinPostsIntervalMs : IntRange
  requestErr : Option ConnError := none

/-- The local variables of a `Write`; `id` numbers the calls. -/
structure Writer where
  id : ℕ
  payload : GoString
  maxEach : ℕ
  written : ℕ := 0
  deriving DecidableEq, Repr

/-- The next chunk is `b[written:end]`. -/
def Writer.stop (w : Writer) : ℕ :=
  if w.payload.length < w.written + w.maxEach then w.payload.length else w.written + w.maxEach

def Writer.chunk (w : Writer) : GoString := (w.payload.take w.stop).drop w.written

structure Post where
  writer : ℕ
  seq : BitVec 64
  chunk : GoString
  deriving DecidableEq, Repr

def Writer.post (w : Writer) (seq : BitVec 64) : Post := ⟨w.id, seq, w.chunk⟩

/-- The return of a `Write`: `written` bytes of its writer and an error. -/
structure WriteResult where
  writer : Writer
  err : Option ConnError
  deriving DecidableEq, Repr

/-- `packetConn`; `created` counts how often the channel was closed, and `cancelled` says that its context has ended.
The fields after these record the history: as for a `splitConn`, and the payloads of the `Write`s, how many numbers were
taken, the POSTs started, answered 200 and failed, the numbers given up, and the `Write`s that have returned. -/
structure PacketConn where
  xmux : XmuxRelease := {}
  breaker : ConnBreaker := {}
  reader : Option Body := none
  created : ℕ := 0
  readerErr : Option ConnError := none
  ready : Bool := false
  terminalErr : Option ConnError := none
  seq : BitVec 64 := 0
  lastPost : Option ℤ := none
  closed : Bool := false
  closeOnce : Once := .fresh
  readDeadline : ReadDeadline := {}
  cancelled : Bool := false
  passed : List Body := []
  closedBodies : List Body := []
  reads : List (Option ConnError × ReadResult) := []
  writes : List GoString := []
  taken : ℕ := 0
  posts : List Post := []
  answered : List Post := []
  failed : List Post := []
  abandoned : List (BitVec 64) := []
  results : List WriteResult := []

/-- The atomic sections.  Those of a `Read` carry the terminal error at its start, those of a `Write` its
local variables. -/
inductive PacketOp where
  /-- The critical section of `setupReader`. -/
  | setup (reader : Body) (err : Option ConnError)
  /-- `isExpired` at the end of `setupReader`. -/
  | checkExpired (b : Body)
  | closeBody (b : Body)
  /-- The critical section of `fail`; a `Write` returns its result. -/
  | fail (err : ConnError) (w : Option Writer)
  | readStop
  | cancel
  | release
  /-- `closeOnce.Do`, up to the start of its function. -/
  | closeEnter
  | storeLocalClosed
  /-- The critical section of `Close`. -/
  | closeLocked
  /-- The end of `closeOnce.Do`. -/
  | closeLeave
  | setRead (t : Option ℤ)
  | expireRead (generation : BitVec 64)
  /-- The deadline's callback takes the lock for the reader. -/
  | expireLock
  | readSelect (start : Option ConnError)
  /-- The inner `select` of `Read`. -/
  | readDead (start : Option ConnError)
  /-- `Read` takes the lock for the reader. -/
  | readLock (start : Option ConnError)
  /-- `isExpired` before `Read` waits for the body. -/
  | readExpired (start : Option ConnError) (reader : Option Body)
  /-- `Read` waits for the body. -/
  | readBody (start : Option ConnError) (b : Body)
  /-- `Read` takes the lock after the body has answered. -/
  | readAfter (start : Option ConnError) (n : ℕ) (err : Option ConnError)
  /-- `isExpired` after the body has answered with an error. -/
  | readLate (start : Option ConnError) (n : ℕ) (err : ConnError)
  | readReturn (start : Option ConnError) (n : ℕ) (err : Option ConnError)
  /-- `Write` looks at the terminal error and draws the chunk limit. -/
  | writeStart (id : ℕ) (payload : GoString)
  /-- The critical section of `sendPacket`. -/
  | send (w : Writer)
  /-- `sendPacket` waits for its turn. -/
  | pace (w : Writer) (seq : BitVec 64)
  /-- `sendPacket` builds its request and starts the POST. -/
  | post (w : Writer) (seq : BitVec 64)
  | response (w : Writer) (seq : BitVec 64)
  | returnWrite (w : Writer) (err : ConnError)
  deriving DecidableEq, Repr

inductive PacketCall where
  | setupReader (reader : Body) (err : Option ConnError)
  | fail (err : ConnError)
  | close
  | read
  | write (payload : GoString)
  /-- `SetDeadline` and `SetReadDeadline`. -/
  | setReadDeadline (t : Option ℤ)
  | readTimer (now : ℤ)
  /-- The context the connection was made with ends. -/
  | contextDone
  deriving DecidableEq, Repr

namespace PacketConn

def failLocked (c : PacketConn) (err : ConnError) : PacketConn :=
  { c with terminalErr := some err, ready := true, created := if c.ready then c.created else c.created + 1 }

def failRest (c : PacketConn) : List PacketOp :=
  [PacketOp.readStop, .cancel] ++ c.reader.toList.map PacketOp.closeBody ++ [PacketOp.release]

def closeLocked (c : PacketConn) : PacketConn :=
  { c with closed := true, terminalErr := c.terminalErr.or (some .closed), ready := true,
           created := if c.ready then c.created else c.created + 1 }

def closeRest (c : PacketConn) : List PacketOp :=
  [PacketOp.readStop] ++ c.reader.toList.map PacketOp.closeBody ++ [PacketOp.cancel, .release, .closeLeave]

/-- What the read deadline does outside its lock. -/
def onExpire (fire : Bool) : List PacketOp := if fire then [.storeLocalClosed, .expireLock] else []

def noteRead (c : PacketConn) (err : Option ConnError) : PacketConn :=
  { c with breaker := (c.breaker.noteRead c.xmux err).1, xmux := (c.breaker.noteRead c.xmux err).2 }

def returned (c : PacketConn) (start : Option ConnError) (r : ReadResult) : PacketConn :=
  { c with reads := (start, r) :: c.reads }

def returnWrite (c : PacketConn) (w : Writer) (err : Option ConnError) : PacketConn :=
  { c with results := ⟨w, err⟩ :: c.results }

/-- The head of the loop of `Write`. -/
def loop (c : PacketConn) (w : Writer) : PacketConn × List PacketOp :=
  if w.written < w.payload.length then (c, [.send w]) else (c.returnWrite w none, [])

/-- `nextPostDelay`, in nanoseconds: the new `lastPost` and the delay.  `Time.Sub` returns the largest duration when the
difference exceeds it. -/
def nextPostDelay (cfg : PacketConfig) (c : PacketConn) (x : ConnInput) : Option ℤ × ℤ :=
  let interval := int64 (cfg.scMinPostsIntervalMs.rand x.draw * 1000000)
  match c.lastPost with
  | none => (some x.now, 0)
  | some last =>
    if interval ≤ 0 then (some x.now, 0)
    else if x.now < last + interval then (some (last + interval), min (last + interval - x.now) (2 ^ 63 - 1))
    else (some x.now, 0)

end PacketConn

/-- The chunk limit of a `Write`. -/
def maxEach (cfg : PacketConfig) (payload : GoString) (draw : ℕ) : ℕ :=
  if cfg.scMaxEachPostBytes.rand draw ≤ 0 then payload.length else (cfg.scMaxEachPostBytes.rand draw).toNat

def PacketOp.exec (cfg : PacketConfig) (o : PacketOp) (x : ConnInput) (c : PacketConn) :
    Option (PacketConn × List PacketOp) :=
  match o with
  | .setup reader err =>
    if c.ready ∨ c.terminalErr.isSome ∨ c.closed then some (c, [.closeBody reader])
    else some ({ c with reader := some reader, readerErr := err, ready := true, created := c.created + 1 },
      [.checkExpired reader])
  | .checkExpired b => some (c, if c.readDeadline.expired then [.closeBody b] else [])
  | .closeBody b => some ({ c with closedBodies := b :: c.closedBodies }, [])
  | .fail err w =>
    match c.terminalErr with
    | some e => some (c, w.toList.map (.returnWrite · e))
    | none =>
      if c.closed then some (c, w.toList.map (.returnWrite · .closed))
      else some (c.failLocked err, c.failRest ++ w.toList.map (.returnWrite · err))
  | .readStop => some ({ c with readDeadline := c.readDeadline.stop }, [])
  | .cancel => some ({ c with cancelled := true }, [])
  | .release => some ({ c with xmux := c.xmux.release }, [])
  | .closeEnter =>
    match c.closeOnce with
    | .fresh => some ({ c with closeOnce := .running }, [.storeLocalClosed, .closeLocked])
    | .running => none
    | .done => some (c, [])
  | .storeLocalClosed => some ({ c with breaker := { c.breaker with localClosed := true } }, [])
  | .closeLocked => some (c.closeLocked, c.closeRest)
  | .closeLeave => some ({ c with closeOnce := .done }, [])
  | .setRead t =>
    some ({ c with readDeadline := (c.readDeadline.set t x.now).1 }, PacketConn.onExpire (c.readDeadline.set t x.now).2)
  | .expireRead g =>
    some ({ c with readDeadline := (c.readDeadline.expire g).1 }, PacketConn.onExpire (c.readDeadline.expire g).2)
  | .expireLock => some (c, c.reader.toList.map .closeBody)
  | .readSelect start =>
    -- when both channels are closed, `select` takes either branch
    if 0 < c.created ∧ (c.readDeadline.expired → x.pick) then some (c, [.readLock start])
    else if c.readDeadline.expired then some (c, [.readDead start])
    else none
  | .readDead start =>
    if 0 < c.created then some (c, [.readLock start])
    else some (c.returned start (.ret 0 (some .deadlineExceeded)), [])
  | .readLock start =>
    match c.terminalErr.or c.readerErr with
    | some err => some (c.returned start (.ret 0 (some err)), [])
    | none => some (c, [.readExpired start c.reader])
  | .readExpired start reader =>
    if c.readDeadline.expired then some (c.returned start (.ret 0 (some .deadlineExceeded)), [])
    else
      match reader with
      | some b => some (c, [.readBody start b])
      | none => some (c.returned start .panic, [])
  | .readBody start _ => some (c, [.readAfter start x.n x.err])
  | .readAfter start n err =>
    match c.terminalErr, err with
    | some t, _ => some (c.returned start (.ret n (some t)), [])
    | none, some e => some (c, [.readLate start n e])
    | none, none => some (c, [.readReturn start n none])
  | .readLate start n err =>
    if c.readDeadline.expired then some (c.returned start (.ret n (some .deadlineExceeded)), [])
    else some (c, [.readReturn start n (some err)])
  | .readReturn start n err => some ((c.noteRead err).returned start (.ret n err), [])
  | .writeStart id payload =>
    match c.terminalErr with
    | some e => some (c.returnWrite ⟨id, payload, 0, 0⟩ (some e), [])
    | none => some (c.loop ⟨id, payload, maxEach cfg payload x.draw, 0⟩)
  | .send w =>
    match c.terminalErr with
    | some e => some (c.returnWrite w (some e), [])
    | none =>
      if c.closed then some (c.returnWrite w (some .closed), [])
      else
        let (lastPost, wait) := c.nextPostDelay cfg x
        some ({ c with seq := c.seq + 1, taken := c.taken + 1, lastPost },
          if 0 < wait then [.pace w c.seq] else [.post w c.seq])
  | .pace w seq =>
    -- the timer fires some time; when the context has ended too, `select` takes either branch
    if c.cancelled ∧ x.pick then
      some ({ c with abandoned := seq :: c.abandoned }.returnWrite w (some .canceled), [])
    else some (c, [.post w seq])
  | .post w seq =>
    match cfg.requestErr with
    | some e => some ({ c with abandoned := seq :: c.abandoned }.returnWrite w (some e), [])
    | none => some ({ c with posts := c.posts ++ [w.post seq] }, [.response w seq])
  | .response w seq =>
    match x.err with
    | some e =>
      -- `roundTrip` notes a failure unless the request's own context has ended
      let xmux := if c.cancelled ∨ x.timeout then c.xmux else c.xmux.noteFailure
      some ({ c with failed := c.failed ++ [w.post seq], xmux }, [.fail e (some w)])
    | none =>
      if x.status ≠ 200 then
        some ({ c with failed := c.failed ++ [w.post seq], xmux := c.xmux.noteFailure },
          [.fail (.other ("v2ray-xhttp: unexpected upload status: " ++ x.statusText)) (some w)])
      else
        some ({ c with answered := c.answered ++ [w.post seq], xmux := c.xmux.noteSuccess }.loop
          { w with written := w.stop })
  | .returnWrite w err => some (c.returnWrite w (some err), [])

/-- The code of a call; calls of `setupReader` and `Write` are recorded. -/
def PacketCall.entry (k : PacketCall) (c : PacketConn) : PacketConn × List PacketOp :=
  match k with
  | .setupReader reader err => ({ c with passed := reader :: c.passed }, [.setup reader err])
  | .fail err => (c, [.fail err none])
  | .close => (c, [.closeEnter])
  | .read => (c, [.readSelect c.terminalErr])
  | .write payload => ({ c with writes := c.writes ++ [payload] }, [.writeStart c.writes.length payload])
  | .setReadDeadline t => (c, [.setRead t])
  | .readTimer now =>
    ({ c with readDeadline := (c.readDeadline.fire now).1 }, (c.readDeadline.fire now).2.toList.map .expireRead)
  | .contextDone => ({ c with cancelled := true }, [])

/-- **A packet-up connection as a program of goroutines.** -/
def packetProgram (cfg : PacketConfig) : Program PacketConn PacketOp ConnInput PacketCall where
  entry := PacketCall.entry
  exec := PacketOp.exec cfg

/-! ### The abstract machine -/

/-- The connection as the abstract machine sees it. -/
def PacketConn.oneShot (c : PacketConn) : OneShot Body ConnError ReadResult where
  ready := c.ready
  terminal := c.terminalErr
  bound := c.reader
  created := c.created
  offered := c.passed
  closed := c.closedBodies
  released := c.xmux.released
  reads := c.reads

/-- What a section that is left means for the abstract machine. -/
def PacketOp.duty : PacketOp → Multiset (Duty Body ConnError)
  | .setup reader _ => {.offer reader}
  | .closeBody b => {.close b}
  | .release => {.release}
  | .readSelect start | .readDead start | .readLock start => {.read start}
  | .readExpired start _ | .readBody start _ | .readAfter start _ _ | .readLate start _ _
  | .readReturn start _ _ => {.past start}
  | _ => 0

variable (c : PacketConn)

/-! ### The simulation -/

lemma PacketConn.noteRead_oneShot (err : Option ConnError) : (c.noteRead err).oneShot = c.oneShot := by
  rw [oneShot, noteRead]
  rw [ConnBreaker.noteRead_released]
  rfl

lemma PacketConn.release_oneShot : ({ c with xmux := c.xmux.release } : PacketConn).oneShot =
    { c.oneShot with released := max c.oneShot.released 1 } := by
  rw [oneShot, XmuxRelease.release_released]
  rfl

attribute [local simp] PacketOp.duty

lemma PacketConn.onExpire_duty (fire : Bool) : ∀ o ∈ PacketConn.onExpire fire, o.duty = 0 := by
  cases fire <;> simp [onExpire]

lemma PacketConn.loop_duty (w : Writer) : (c.loop w).1.oneShot = c.oneShot ∧ ∀ o ∈ (c.loop w).2, o.duty = 0 := by
  unfold loop
  split
  · exact ⟨rfl, by simp⟩
  · exact ⟨rfl, by simp⟩

section

open OneShot Relation.ReflTransGen

variable {cfg : PacketConfig}

/-- The machine simulates a section. -/
def PacketSim (cfg : PacketConfig) : PacketOp → Prop :=
  (packetProgram cfg).SimulatesAt PacketConn.oneShot PacketOp.duty terminalResult

lemma packet_setup_sim {reader : Body} {err : Option ConnError} : PacketSim cfg (.setup reader err) := by
  intro x c c' new m h _
  simp only [packetProgram, PacketOp.exec] at h
  split at h
  · cases h
    exact .pass rfl rfl fun _ => single (.reject _ _ _)
  next hn =>
    simp only [not_or, Bool.not_eq_true, isSome_eq_false_iff, isNone_iff_eq_none] at hn
    cases h
    exact .fulfil rfl (by simp) fun _ => single (.bind _ _ _ hn.1 hn.2.1)

lemma returnWrite_duty (w : Option Writer) (err : ConnError) :
    ∀ o ∈ w.toList.map (PacketOp.returnWrite · err), o.duty = 0 := by
  cases w <;> simp

lemma packet_fail_sim {err : ConnError} {w : Option Writer} : PacketSim cfg (.fail err w) := by
  intro x c c' new m h _
  simp only [packetProgram, PacketOp.exec] at h
  split at h
  · cases h
    exact .neutral rfl rfl (returnWrite_duty w _)
  next ht =>
    split at h
    · cases h
      exact .neutral rfl rfl (returnWrite_duty w _)
    · cases h
      have hd : duties PacketOp.duty (↑c.failRest : Multiset PacketOp) = ↑c.oneShot.finishDuties := by
        rw [PacketConn.failRest, PacketConn.oneShot]
        cases c.reader <;> simp <;> rfl
      rw [duties_cons, duties_add, ← Multiset.coe_add, duties_add, hd, duties_eq_zero (returnWrite_duty w err),
        add_zero, show PacketOp.duty (.fail err w) = 0 from rfl, zero_add]
      exact single (.finish _ _ _ ht)

/-- The critical section of `Close` makes the connection terminal, or repeats the closing duties. -/
lemma packet_closeLocked_sim : PacketSim cfg .closeLocked := by
  intro x c c' new m h hinv
  cases h
  have hd : duties PacketOp.duty (↑c.closeRest : Multiset PacketOp) = ↑c.oneShot.finishDuties := by
    rw [PacketConn.closeRest, PacketConn.oneShot]
    cases c.reader <;> simp <;> rfl
  rw [duties_cons, duties_add, hd, show PacketOp.duty .closeLocked = 0 from rfl, zero_add]
  cases ht : c.terminalErr with
  | none =>
    have hcore : c.closeLocked.oneShot = c.oneShot.finish .closed := by
      simp [PacketConn.closeLocked, PacketConn.oneShot, OneShot.finish, ht]
    rw [hcore]
    exact single (.finish _ _ _ ht)
  | some e =>
    have hterm : c.oneShot.terminal.isSome := by
      show c.terminalErr.isSome
      rw [ht]
      rfl
    have hready : c.ready = true := hinv.terminal hterm
    have hcore : c.closeLocked.oneShot = c.oneShot := by
      simp [PacketConn.closeLocked, PacketConn.oneShot, ht, hready]
    rw [hcore, OneShot.finishDuties]
    have hrel : Steps terminalResult (c.oneShot, duties PacketOp.duty m)
        (c.oneShot, .release ::ₘ duties PacketOp.duty m) := single (.takeRelease _ _ hterm)
    cases hb : c.oneShot.bound with
    | none => exact hrel
    | some b =>
      simp only [toList_some, map_cons, map_nil, cons_append, nil_append, pending_cons_add, pending_nil_add]
      exact hrel.tail (.takeClose _ _ b)

lemma packet_readLock_sim {start : Option ConnError} : PacketSim cfg (.readLock start) := by
  intro x c c' new m h _
  simp only [packetProgram, PacketOp.exec] at h
  cases ht : c.terminalErr with
  | some e =>
    rw [ht] at h
    cases h
    exact .fulfil rfl (by simp) fun _ => single (.readEnd _ _ _ e ht)
  | none =>
    split at h
    · cases h
      exact .fulfil rfl (by simp) fun _ => (single (.readOn _ _ _ ht)).tail (.readReturn _ _ _ _)
    · cases h
      exact .pass rfl rfl fun _ => single (.readOn _ _ _ ht)

/-- A `Read` that finds no channel closed but the deadline's has not missed a terminal error: an error
is recorded together with the closing of `created`. -/
lemma packet_readDead_sim {start : Option ConnError} : PacketSim cfg (.readDead start) := by
  intro x c c' new m h hinv
  simp only [packetProgram, PacketOp.exec] at h
  split at h
  · cases h
    exact .pass rfl rfl fun _ => refl
  next hcr =>
    cases h
    have ht : c.oneShot.terminal = none := by
      by_contra hn
      exact hcr (hinv.created_pos (isSome_iff_ne_none.2 hn))
    exact .fulfil rfl (by simp) fun _ => (single (.readOn _ _ _ ht)).tail (.readReturn _ _ _ _)

lemma packet_writeStart_sim {id : ℕ} {payload : GoString} : PacketSim cfg (.writeStart id payload) := by
  intro x c c' new m h _
  simp only [packetProgram, PacketOp.exec] at h
  split at h
  · cases h
    exact .neutral rfl rfl (by simp)
  · rw [some.injEq] at h
    have hl := c.loop_duty ⟨id, payload, maxEach cfg payload x.draw, 0⟩
    rw [h] at hl
    exact .neutral hl.1 rfl hl.2

lemma packet_response_sim {w : Writer} {seq : BitVec 64} : PacketSim cfg (.response w seq) := by
  intro x c c' new m h _
  simp only [packetProgram, PacketOp.exec] at h
  split at h
  · cases h
    refine .neutral ?_ rfl (by simp)
    split <;> rfl
  · split at h
    · cases h
      exact .neutral rfl rfl (by simp)
    · rw [some.injEq] at h
      have hl := PacketConn.loop_duty { c with answered := c.answered ++ [w.post seq], xmux := c.xmux.noteSuccess }
        { w with written := w.stop }
      rw [h] at hl
      exact .neutral hl.1 rfl hl.2

/-- **A packet-up connection is simulated by the machine that ends once.** -/
theorem packetConn_sim (cfg : PacketConfig) :
    (packetProgram cfg).Simulates PacketConn.oneShot PacketOp.duty terminalResult where
  call k c m := by
    cases k with
    | setupReader reader err => exact .enter rfl fun _ => single (.offer _ _ _)
    | read => exact .enter rfl fun _ => single (.startRead _ _)
    | _ => exact .idle rfl (by simp [packetProgram, PacketCall.entry])
  exec o x c c' new m h hinv := by
    cases o with
    | setup reader err => exact packet_setup_sim h hinv
    | fail err w => exact packet_fail_sim h hinv
    | closeLocked => exact packet_closeLocked_sim h hinv
    | readDead start => exact packet_readDead_sim h hinv
    | readLock start => exact packet_readLock_sim h hinv
    | writeStart id payload => exact packet_writeStart_sim h hinv
    | response w seq => exact packet_response_sim h hinv
    | checkExpired b =>
      cases h
      split
      · exact .take rfl rfl fun _ => single (.takeClose _ _ _)
      · exact .neutral rfl rfl (by simp)
    | closeBody b =>
      cases h
      exact .fulfil rfl (by simp) fun _ => single (.close _ _ _)
    | expireLock =>
      cases h
      cases hr : c.reader with
      | none => exact .neutral rfl rfl (by simp)
      | some b => exact .take rfl rfl fun _ => single (.takeClose _ _ b)
    | release =>
      cases h
      rw [c.release_oneShot]
      exact .fulfil rfl (by simp) fun _ => single (.release _ _)
    | setRead t | expireRead g =>
      cases h
      exact .neutral rfl rfl (PacketConn.onExpire_duty _)
    | readSelect | readExpired | readAfter | readLate | readBody start b =>
      simp only [packetProgram, PacketOp.exec] at h
      repeat' split at h
      all_goals cases h
      all_goals first
        | exact .fulfil rfl (by simp) fun _ => single (.readReturn _ _ _ _)
        | exact .pass rfl rfl fun _ => refl
    | readReturn start n err =>
      simp only [packetProgram, PacketOp.exec, some.injEq] at h
      obtain ⟨rfl, rfl⟩ := h
      rw [← c.noteRead_oneShot err]
      exact .fulfil rfl (by simp) fun _ => single (.readReturn _ _ _ _)
    | closeEnter | send | pace | post =>
      simp only [packetProgram, PacketOp.exec] at h
      repeat' split at h
      all_goals cases h
      all_goals exact .neutral rfl rfl (by simp)
    | _ =>
      cases h
      exact .neutral rfl rfl (by simp)

end

end SingBox.Xhttp
