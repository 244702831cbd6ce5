import SingBox.Xhttp.ConnParts

/-!
# Stream-one connections (`streamConn` in `transport/v2rayxhttp/conn.go`)

The dial goroutine of a `streamConn` delivers one outcome, a response body or an error.  `Close`, the
read deadline and the delivery look at each other's progress through the channel `created` and the
deadline's flag, without a common lock.

A `Close` that finds `created` open closes nothing, and a later `setupReader` closes its body only when
the read deadline has expired: `streamConn_leaks_body`.  `Write`, which only hands its data to the pipe, is left out.
-/

namespace SingBox.Xhttp

open SingBox.Lib List

/-- `streamConn`; `created` counts how often the channel was closed.  The fields after `cancelled` record the history:
whether the dial goroutine has started to deliver, its body, whether the delivery has returned, what `Close` found in
`created`, the bodies closed, and the results of the `Read`s. -/
structure StreamConn where
  xmux : XmuxRelease := {}
  breaker : ConnBreaker := {}
  reader : Option Body := none
  created : ℕ := 0
  readerErr : Option ConnError := none
  closeOnce : Once := .fresh
  writeDeadline : WriteDeadline := {}
  readDeadline : ReadDeadline := {}
  cancelled : Bool := false
  dialed : Bool := false
  passed : Option Body := none
  delivered : Bool := false
  looked : Option Bool := none
  closed : List Body := []
  reads : List ReadResult := []

/-- The atomic sections.  A section that depends on another one being over is only added by it. -/
inductive StreamOp where
  /-- `setupReader` with a body, up to `close(created)`. -/
  | setup (b : Body)
  /-- `isExpired` at the end of `setupReader`. -/
  | checkExpired (b : Body)
  /-- `setupReader` closes its body. -/
  | closeLate (b : Body)
  /-- `fail`, up to `close(created)`. -/
  | fail (err : ConnError)
  /-- The dial goroutine returns. -/
  | deliver
  | closePipe (err : ConnError)
  | cancel
  | release
  /-- `closeOnce.Do`, up to the start of its function. -/
  | closeEnter
  | storeLocalClosed
  | writeStop
  | readStop
  | closeWriter
  /-- The `select` of `Close`. -/
  | closeSelect
  /-- `Close` closes the reader. -/
  | closeReader (b : Body)
  /-- The end of `closeOnce.Do`. -/
  | closeLeave
  | setRead (t : Option ℤ)
  | setWrite (t : Option ℤ)
  | expireRead (generation : BitVec 64)
  | expireWrite (generation : BitVec 64)
  /-- The `select` of the deadline's callback. -/
  | expireSelect
  /-- The deadline's callback closes the reader. -/
  | closeExpired (b : Body)
  | readSelect
  /-- The inner `select` of `Read`. -/
  | readDead
  /-- `Read` looks at `readerErr` and at the deadline. -/
  | readCheck
  /-- `Read` waits for the body. -/
  | readBody (b : Body)
  /-- `isExpired` after the body has answered with an error. -/
  | readLate (n : ℕ) (err : ConnError)
  | readReturn (n : ℕ) (err : Option ConnError)
  deriving DecidableEq, Repr

inductive StreamCall where
  /-- The outcome of the dial goroutine: `setupReader(body, nil)` or `fail(err)`. -/
  | outcome (r : Body ⊕ ConnError)
  | close
  | read
  | setDeadline (t : Option ℤ)
  | setReadDeadline (t : Option ℤ)
  | setWriteDeadline (t : Option ℤ)
  | readTimer (now : ℤ)
  | writeTimer (now : ℤ)
  deriving DecidableEq, Repr

namespace StreamConn

/-- `setupReader`, up to `close(created)`; the fields are read only after the channel is closed. -/
def setupReader (c : StreamConn) (reader : Option Body) (err : Option ConnError) : StreamConn :=
  { c with reader, readerErr := err, created := c.created + 1 }

def closeBody (c : StreamConn) (b : Body) : StreamConn := { c with closed := b :: c.closed }

/-- What `Close` does after it has looked at the reader. -/
def closeRest : List StreamOp := [.cancel, .release, .closeLeave]

/-- What the read deadline does outside its lock. -/
def onExpire (fire : Bool) : List StreamOp := if fire then [.storeLocalClosed, .expireSelect] else []

def noteRead (c : StreamConn) (err : Option ConnError) : StreamConn :=
  { c with breaker := (c.breaker.noteRead c.xmux err).1, xmux := (c.breaker.noteRead c.xmux err).2 }

def returned (c : StreamConn) (r : ReadResult) : StreamConn := { c with reads := r :: c.reads }

end StreamConn

def StreamOp.exec (o : StreamOp) (x : ConnInput) (c : StreamConn) : Option (StreamConn × List StreamOp) :=
  match o with
  | .setup b => some (c.setupReader (some b) none, [.checkExpired b])
  | .checkExpired b => some (c, if c.readDeadline.expired then [.closeLate b] else [.deliver])
  | .closeLate b => some (c.closeBody b, [.deliver])
  | .fail err => some (c.setupReader none (some err), [.closePipe err, .cancel, .release, .deliver])
  | .deliver => some ({ c with delivered := true }, [])
  | .closePipe err => some ({ c with writeDeadline := c.writeDeadline.closePipe err }, [])
  | .cancel => some ({ c with cancelled := true }, [])
  | .release => some ({ c with xmux := c.xmux.release }, [])
  | .closeEnter =>
    match c.closeOnce with
    | .fresh => some ({ c with closeOnce := .running },
        [.storeLocalClosed, .writeStop, .readStop, .closeWriter, .closeSelect])
    | .running => none
    | .done => some (c, [])
  | .storeLocalClosed => some ({ c with breaker := { c.breaker with localClosed := true } }, [])
  | .writeStop => some ({ c with writeDeadline := c.writeDeadline.stop }, [])
  | .readStop => some ({ c with readDeadline := c.readDeadline.stop }, [])
  | .closeWriter => some ({ c with writeDeadline := c.writeDeadline.closeWriter }, [])
  | .closeSelect =>
    if 0 < c.created then
      some ({ c with looked := c.looked.or (some true) },
        match c.reader with
        | some b => [.closeReader b]
        | none => StreamConn.closeRest)
    else some ({ c with looked := c.looked.or (some false) }, StreamConn.closeRest)
  | .closeReader b => some (c.closeBody b, StreamConn.closeRest)
  | .closeLeave => some ({ c with closeOnce := .done }, [])
  | .setRead t =>
    some ({ c with readDeadline := (c.readDeadline.set t x.now).1 }, StreamConn.onExpire (c.readDeadline.set t x.now).2)
  | .setWrite t => some ({ c with writeDeadline := c.writeDeadline.set t x.now }, [])
  | .expireRead g =>
    some ({ c with readDeadline := (c.readDeadline.expire g).1 }, StreamConn.onExpire (c.readDeadline.expire g).2)
  | .expireWrite g => some ({ c with writeDeadline := c.writeDeadline.expire g }, [])
  | .expireSelect => some (c, if 0 < c.created then c.reader.toList.map .closeExpired else [])
  | .closeExpired b => some (c.closeBody b, [])
  | .readSelect =>
    -- when both channels are closed, `select` takes either branch
    if 0 < c.created ∧ (c.readDeadline.expired → x.pick) then some (c, [.readCheck])
    else if c.readDeadline.expired then some (c, [.readDead])
    else none
  | .readDead =>
    if 0 < c.created then some (c, [.readCheck])
    else some (c.returned (.ret 0 (some .deadlineExceeded)), [])
  | .readCheck =>
    match c.readerErr with
    | some err => some (c.returned (.ret 0 (some err)), [])
    | none =>
      if c.readDeadline.expired then some (c.returned (.ret 0 (some .deadlineExceeded)), [])
      else
        match c.reader with
        | some b => some (c, [.readBody b])
        | none => some (c.returned .panic, [])
  | .readBody _ =>
    match x.err with
    | some err => some (c, [.readLate x.n err])
    | none => some (c, [.readReturn x.n none])
  | .readLate n err =>
    if c.readDeadline.expired then some (c.returned (.ret n (some .deadlineExceeded)), [])
    else some (c, [.readReturn n (some err)])
  | .readReturn n err => some ((c.noteRead err).returned (.ret n err), [])

/-- The code of a call.  The dial goroutine has a single outcome, so a second one does nothing. -/
def StreamCall.entry (k : StreamCall) (c : StreamConn) : StreamConn × List StreamOp :=
  match k with
  | .outcome r =>
    if c.dialed then (c, [])
    else
      match r with
      | .inl b => ({ c with dialed := true, passed := some b }, [.setup b])
      | .inr err => ({ c with dialed := true }, [.fail err])
  | .close => (c, [.closeEnter])
  | .read => (c, [.readSelect])
  | .setDeadline t => (c, [.setRead t, .setWrite t])
  | .setReadDeadline t => (c, [.setRead t])
  | .setWriteDeadline t => (c, [.setWrite t])
  | .readTimer now =>
    ({ c with readDeadline := (c.readDeadline.fire now).1 }, (c.readDeadline.fire now).2.toList.map .expireRead)
  | .writeTimer now =>
    ({ c with writeDeadline := (c.writeDeadline.fire now).1 }, (c.writeDeadline.fire now).2.toList.map .expireWrite)

/-- **A stream-one connection as a program of goroutines.** -/
def streamProgram : Program StreamConn StreamOp ConnInput StreamCall where
  entry := StreamCall.entry
  exec := StreamOp.exec

abbrev StreamState := Config StreamConn StreamOp

/-! ### The property and its condition -/

/-- Once `Close` has returned and the outcome has been delivered, the delivered body is closed. -/
def BodyClosed (s : StreamState) : Prop :=
  s.shared.closeOnce = .done → s.shared.delivered = true → ∀ b, s.shared.passed = some b → b ∈ s.shared.closed

/-- When `setupReader` looks at the deadline, no `Close` has found `created` open, or the deadline has
expired. -/
def CheckSafe (c : StreamConn) : StreamOp → Prop
  | .checkExpired _ => c.looked ≠ some false ∨ c.readDeadline.expired = true
  | _ => True

instance (c : StreamConn) : ∀ o, Decidable (CheckSafe c o)
  | .checkExpired _ => inferInstanceAs (Decidable (_ ∨ _))
  | .setup _ | .closeLate _ | .fail _ | .deliver | .closePipe _ | .cancel | .release | .closeEnter
  | .storeLocalClosed | .writeStop | .readStop | .closeWriter | .closeSelect | .closeReader _ | .closeLeave
  | .setRead _ | .setWrite _ | .expireRead _ | .expireWrite _ | .expireSelect | .closeExpired _ | .readSelect
  | .readDead | .readCheck | .readBody _ | .readLate _ _ | .readReturn _ _ => isTrue trivial

def BodySafe (s : StreamState) : Event ConnInput StreamCall → Prop
  | .call _ => True
  | .sched i _ => ∀ o ∈ s.next i, CheckSafe s.shared o

instance (s : StreamState) : ∀ e, Decidable (BodySafe s e)
  | .call _ => isTrue trivial
  | .sched i _ => inferInstanceAs (Decidable (∀ o ∈ s.next i, CheckSafe s.shared o))

/-- The outcome has been delivered; if `Close` was too early, the body is closed. -/
def Delivered (c : StreamConn) : Prop :=
  0 < c.created ∧ (c.looked = some false → ∀ b, c.passed = some b → b ∈ c.closed)

/-- `Close` is over; if it was not too early, the body is closed. -/
def Left (c : StreamConn) : Prop :=
  c.looked.isSome ∧ (c.looked = some true → ∀ b, c.passed = some b → b ∈ c.closed)

structure StreamOk (c : StreamConn) : Prop where
  dialed : c.dialed = false → c.passed = none ∧ c.created = 0
  bound : 0 < c.created → c.reader = c.passed
  looked : c.looked = some true → 0 < c.created
  delivered : c.delivered = true → Delivered c
  done : c.closeOnce = .done → Left c

def StreamOp.Ok (c : StreamConn) : StreamOp → Prop
  | .setup b => c.dialed = true ∧ c.passed = some b
  | .fail _ => c.dialed = true ∧ c.passed = none
  | .checkExpired b | .closeLate b => 0 < c.created ∧ c.passed = some b
  | .deliver => Delivered c
  | .closeReader b => c.looked.isSome ∧ c.passed = some b
  | .closeLeave => Left c
  | _ => True

def StreamInv (c : StreamConn) (m : Multiset StreamOp) : Prop := StreamOk c ∧ ∀ o ∈ m, o.Ok c

/-- How the state changes: nothing is taken back. -/
structure Grows (c c' : StreamConn) : Prop where
  dialed : c.dialed = true → c'.dialed = true ∧ c'.passed = c.passed
  created : c.created ≤ c'.created
  closed : ∀ b ∈ c.closed, b ∈ c'.closed
  looked : c'.looked = c.looked ∨ (c.looked = none ∧ (c'.looked = some false → c.created = 0))

variable {c c' : StreamConn}

lemma StreamOk.dialed_of_created (h : StreamOk c) (hc : 0 < c.created) : c.dialed = true := by
  by_contra hn
  have := (h.dialed (by simpa using hn)).2
  omega

lemma StreamOk.dialed_of_passed (h : StreamOk c) {b : Body} (hc : c.passed = some b) : c.dialed = true := by
  by_contra hn
  rw [(h.dialed (by simpa using hn)).1] at hc
  cases hc

lemma Delivered.mono (h : StreamOk c) (hg : Grows c c') (hd : Delivered c) : Delivered c' := by
  refine ⟨lt_of_lt_of_le hd.1 hg.created, fun hl b hb => ?_⟩
  rw [(hg.dialed (h.dialed_of_created hd.1)).2] at hb
  rcases hg.looked with hl' | ⟨-, hl'⟩
  · exact hg.closed b (hd.2 (hl'.symm.trans hl) b hb)
  · have := hl' hl
    have := hd.1
    omega

lemma Left.mono (h : StreamOk c) (hg : Grows c c') (hl : Left c) : Left c' := by
  obtain ⟨hsome, hclosed⟩ := hl
  rcases hg.looked with heq | ⟨hnone, -⟩
  · refine ⟨heq ▸ hsome, fun ht b hb => ?_⟩
    have ht' : c.looked = some true := heq.symm.trans ht
    rw [(hg.dialed (h.dialed_of_created (h.looked ht'))).2] at hb
    exact hg.closed b (hclosed ht' b hb)
  · rw [hnone] at hsome
    cases hsome

lemma StreamOp.Ok.mono {o : StreamOp} (h : StreamOk c) (hg : Grows c c') (ho : o.Ok c) : o.Ok c' := by
  have hpassed : ∀ b, c.passed = some b → c'.passed = some b := fun b hb =>
    (hg.dialed (h.dialed_of_passed hb)).2.trans hb
  cases o with
  | fail err | setup b => exact ⟨(hg.dialed ho.1).1, (hg.dialed ho.1).2.trans ho.2⟩
  | checkExpired b | closeLate b => exact ⟨lt_of_lt_of_le ho.1 hg.created, hpassed b ho.2⟩
  | deliver => exact Delivered.mono h hg ho
  | closeReader b =>
    refine ⟨?_, hpassed b ho.2⟩
    rcases hg.looked with heq | ⟨hnone, -⟩
    · exact heq ▸ ho.1
    · have hsome : c.looked.isSome := ho.1
      rw [hnone] at hsome
      cases hsome
  | closeLeave => exact Left.mono h hg ho
  | _ => trivial

/-- The state changes to `c'`, and the sections `new` are added to those that are left. -/
lemma StreamInv.step {new : List StreamOp} {m : Multiset StreamOp} (h : StreamInv c m)
    (hg : Grows c c') (hok : StreamOk c') (hnew : ∀ p ∈ new, p.Ok c') : StreamInv c' (↑new + m) := by
  refine ⟨hok, fun p hp => ?_⟩
  rcases Multiset.mem_add.1 hp with hp | hp
  · exact hnew p hp
  · exact (h.2 p hp).mono h.1 hg

lemma StreamOk.frame (h : StreamOk c) (hclosed : ∀ b ∈ c.closed, b ∈ c'.closed)
    (hdialed : c'.dialed = c.dialed) (hpassed : c'.passed = c.passed) (hcreated : c'.created = c.created)
    (hreader : c'.reader = c.reader) (hlooked : c'.looked = c.looked) (hdelivered : c'.delivered = c.delivered)
    (honce : c'.closeOnce = .done → c.closeOnce = .done) : Grows c c' ∧ StreamOk c' := by
  have hg : Grows c c' := ⟨fun hd => ⟨hdialed.trans hd, hpassed⟩, hcreated.ge, hclosed, .inl hlooked⟩
  refine ⟨hg, ?_, ?_, ?_, fun hd => ?_, fun hd => (h.done (honce hd)).mono h hg⟩
  · rw [hdialed, hpassed, hcreated]
    exact h.dialed
  · rw [hcreated, hreader, hpassed]
    exact h.bound
  · rw [hlooked, hcreated]
    exact h.looked
  · rw [hdelivered] at hd
    exact (h.delivered hd).mono h hg

section

variable {x : ConnInput} {o : StreamOp} {new : List StreamOp} {m : Multiset StreamOp}

lemma StreamInv.neutral (h : StreamInv c m) (hdialed : c'.dialed = c.dialed)
    (hpassed : c'.passed = c.passed) (hcreated : c'.created = c.created) (hreader : c'.reader = c.reader)
    (hlooked : c'.looked = c.looked) (hdelivered : c'.delivered = c.delivered)
    (honce : c'.closeOnce = .done → c.closeOnce = .done) (hclosed : c'.closed = c.closed)
    (hnew : ∀ p ∈ new, p.Ok c') : StreamInv c' (↑new + m) := by
  obtain ⟨hg, hok⟩ := h.1.frame (fun b hb => hclosed ▸ hb) hdialed hpassed hcreated hreader hlooked hdelivered honce
  exact h.step hg hok hnew

lemma StreamInv.closeBody {b : Body} (h : StreamInv c m) (hnew : ∀ p ∈ new, p.Ok (c.closeBody b)) :
    StreamInv (c.closeBody b) (↑new + m) := by
  have hf : Grows c (c.closeBody b) ∧ StreamOk (c.closeBody b) :=
    h.1.frame (fun a => mem_cons_of_mem b) rfl rfl rfl rfl rfl rfl id
  exact h.step hf.1 hf.2 hnew

lemma StreamOk.setupReader {reader : Option Body} (err : Option ConnError) (h : StreamOk c)
    (hdialed : c.dialed = true) (hr : reader = c.passed) :
    Grows c (c.setupReader reader err) ∧ StreamOk (c.setupReader reader err) := by
  have hg : Grows c (c.setupReader reader err) :=
    ⟨fun hd => ⟨hd, rfl⟩, Nat.le_succ _, fun _ hb => hb, .inl rfl⟩
  refine ⟨hg, fun hd => ?_, fun _ => hr, fun _ => Nat.succ_pos _, fun hd => (h.delivered hd).mono h hg,
    fun hd => (h.done hd).mono h hg⟩
  rw [show c.dialed = false from hd] at hdialed
  cases hdialed

lemma StreamInv.look (h : StreamInv c m) {b : Bool} (hb : b = decide (0 < c.created))
    (hnew : ∀ p ∈ new, p.Ok { c with looked := c.looked.or (some b) }) :
    StreamInv { c with looked := c.looked.or (some b) } (↑new + m) := by
  have hlooked : c.looked.or (some b) = c.looked ∨ (c.looked = none ∧ c.looked.or (some b) = some b) := by
    cases c.looked with
    | none => exact .inr ⟨rfl, rfl⟩
    | some v => exact .inl rfl
  have hg : Grows c { c with looked := c.looked.or (some b) } := by
    refine ⟨fun hd => ⟨hd, rfl⟩, le_refl _, fun _ hb => hb, ?_⟩
    rcases hlooked with hl | ⟨hn, hl⟩
    · exact .inl hl
    · refine .inr ⟨hn, fun hf => ?_⟩
      rw [hl, hb] at hf
      simpa using hf
  refine h.step hg ⟨h.1.dialed, h.1.bound, fun ht => ?_, fun hd => (h.1.delivered hd).mono h.1 hg,
    fun hd => (h.1.done hd).mono h.1 hg⟩ hnew
  rcases hlooked with hl | ⟨-, hl⟩
  · exact h.1.looked (hl.symm.trans ht)
  · rw [show c.looked.or (some b) = some true from ht, Option.some.injEq] at hl
    rw [← hl] at hb
    simpa using hb.symm

lemma closeRest_ok (h : Left c) : ∀ p ∈ StreamConn.closeRest, p.Ok c := by
  intro p hp
  simp only [StreamConn.closeRest, mem_cons, not_mem_nil, or_false] at hp
  rcases hp with rfl | rfl | rfl
  · trivial
  · trivial
  · exact h

attribute [local simp] StreamOp.Ok

/-- `Close` looks at `created`; when it is closed, the reader is the body passed. -/
lemma closeSelect_inv (hx : StreamOp.closeSelect.exec x c = some (c', new)) (h : StreamInv c m) :
    StreamInv c' (↑new + m) := by
  simp only [StreamOp.exec] at hx
  split at hx
  next hcr =>
    cases hx
    refine h.look (by simp [hcr]) ?_
    have hpassed := h.1.bound hcr
    cases hr : c.reader with
    | some b => simp [← hpassed, hr]
    | none =>
      refine closeRest_ok ⟨by simp, fun _ b hb => ?_⟩
      rw [show c.passed = none from hpassed.symm.trans hr] at hb
      cases hb
  next hcr =>
    cases hx
    refine h.look (by simp [hcr]) (closeRest_ok ⟨by simp, fun ht => ?_⟩)
    cases hl : c.looked with
    | none => simp [hl] at ht
    | some v =>
      rw [hl] at ht
      exact absurd (h.1.looked (hl.trans ht)) hcr

/-- **A section that meets the condition keeps the invariant.** -/
theorem streamOp_inv (hx : o.exec x c = some (c', new)) (hsafe : CheckSafe c o) (h : StreamInv c (o ::ₘ m)) :
    StreamInv c' (↑new + m) := by
  have ho : o.Ok c := h.2 o (Multiset.mem_cons_self _ _)
  replace h : StreamInv c m := ⟨h.1, fun p hp => h.2 p (Multiset.mem_cons_of_mem hp)⟩
  cases o with
  | setup b =>
    cases hx
    obtain ⟨hg, hok⟩ := h.1.setupReader none ho.1 ho.2.symm
    refine h.step hg hok fun p hp => ?_
    rw [mem_singleton.1 hp]
    exact ⟨Nat.succ_pos _, ho.2⟩
  | fail err =>
    cases hx
    obtain ⟨hg, hok⟩ := h.1.setupReader (some err) ho.1 ho.2.symm
    refine h.step hg hok ?_
    have hnone : c.passed = none := ho.2
    simp [Delivered, hnone, StreamConn.setupReader]
  | checkExpired b =>
    cases hx
    refine h.neutral rfl rfl rfl rfl rfl rfl id rfl ?_
    split
    · simpa using ho
    next hexp =>
      have hlook : c.looked ≠ some false := hsafe.resolve_right hexp
      simp only [mem_singleton, forall_eq]
      exact ⟨ho.1, fun hl => absurd hl hlook⟩
  | closeLate b =>
    cases hx
    refine h.closeBody fun p hp => ?_
    rw [mem_singleton.1 hp]
    refine ⟨ho.1, fun _ a ha => ?_⟩
    have hab : some a = some b := ha.symm.trans ho.2
    cases hab
    exact mem_cons_self
  | deliver =>
    cases hx
    have hg : Grows c { c with delivered := true } := ⟨fun hd => ⟨hd, rfl⟩, le_refl _, fun _ hb => hb, .inl rfl⟩
    exact h.step hg ⟨h.1.dialed, h.1.bound, h.1.looked, fun _ => ho, h.1.done⟩ (by simp)
  | closeSelect => exact closeSelect_inv hx h
  | closeReader b =>
    cases hx
    refine h.closeBody (closeRest_ok ⟨ho.1, fun _ a ha => ?_⟩)
    have hab : some a = some b := ha.symm.trans ho.2
    cases hab
    exact mem_cons_self
  | closeLeave =>
    cases hx
    have hg : Grows c { c with closeOnce := .done } := ⟨fun hd => ⟨hd, rfl⟩, le_refl _, fun _ hb => hb, .inl rfl⟩
    exact h.step hg ⟨h.1.dialed, h.1.bound, h.1.looked, h.1.delivered, fun _ => ho⟩ (by simp)
  | closeEnter =>
    simp only [StreamOp.exec] at hx
    split at hx <;> cases hx
    · exact h.neutral rfl rfl rfl rfl rfl rfl (fun hd => (nomatch hd)) rfl (by simp)
    · exact h.neutral rfl rfl rfl rfl rfl rfl id rfl (by simp)
  | closeExpired b =>
    cases hx
    exact h.closeBody (by simp)
  | setRead t | expireRead g =>
    cases hx
    refine h.neutral rfl rfl rfl rfl rfl rfl id rfl ?_
    unfold StreamConn.onExpire
    split <;> simp
  | readSelect | readDead | readCheck | readBody | readLate | expireSelect =>
    simp only [StreamOp.exec] at hx
    repeat' split at hx
    all_goals cases hx
    all_goals exact h.neutral rfl rfl rfl rfl rfl rfl id rfl (by simp)
  | _ =>
    cases hx
    exact h.neutral rfl rfl rfl rfl rfl rfl id rfl (by simp)

lemma StreamOk.dial {passed : Option Body} (h : StreamOk c) (hd : c.dialed = false) :
    Grows c { c with dialed := true, passed } ∧ StreamOk { c with dialed := true, passed } := by
  obtain ⟨-, hcreated⟩ := h.dialed hd
  have hnot : ¬ 0 < c.created := by omega
  refine ⟨⟨fun ht => ?_, le_refl _, fun _ hb => hb, .inl rfl⟩, fun ht => (nomatch ht), fun hc => absurd hc hnot,
    h.looked, fun ht => absurd (h.delivered ht).1 hnot, fun ht => ⟨(h.done ht).1, fun hl => ?_⟩⟩
  · rw [hd] at ht
    cases ht
  · exact absurd (h.looked hl) hnot

theorem streamCall_inv (k : StreamCall) (h : StreamInv c m) : StreamInv (k.entry c).1 (↑(k.entry c).2 + m) := by
  cases k with
  | outcome r =>
    simp only [StreamCall.entry]
    split
    · exact h.neutral rfl rfl rfl rfl rfl rfl id rfl (by simp)
    next hd =>
      have hd : c.dialed = false := by simpa using hd
      cases r with
      | inr err | inl b =>
        refine h.step (h.1.dial hd).1 (h.1.dial hd).2 ?_
        simp [(h.1.dialed hd).1]
  | _ => exact h.neutral rfl rfl rfl rfl rfl rfl id rfl (by simp [StreamCall.entry])

end

/-! ### The body is closed -/

lemma StreamInv.bodyClosed {m : Multiset StreamOp} (h : StreamInv c m) (hd : c.closeOnce = .done)
    (hdel : c.delivered = true) (b : Body) (hb : c.passed = some b) : b ∈ c.closed := by
  obtain ⟨hsome, hleft⟩ := h.1.done hd
  obtain ⟨v, hv⟩ := Option.isSome_iff_exists.1 hsome
  cases v with
  | true => exact hleft hv b hb
  | false => exact (h.1.delivered hdel).2 hv b hb

lemma streamInv_step (s : StreamState) (e : Event ConnInput StreamCall) (t : StreamState)
    (h : streamProgram.step s e = some t) (hsafe : BodySafe s e) (hs : StreamInv s.shared s.pending) :
    StreamInv t.shared t.pending := by
  rcases Program.step_cases h with ⟨k, -, h1, h2⟩ | ⟨i, x, o, s', new, m, rfl, hnext, hx, rfl, h1, h2⟩
  · rw [h1, h2]
    exact streamCall_inv k hs
  · rw [h1] at hs
    rw [h2]
    exact streamOp_inv hx (hsafe o hnext) hs

/-- **A stream-one connection closes its body**, in every interleaving in which `setupReader` does not
find the deadline running after a `Close` has found `created` open. -/
theorem streamConn_closes_body (es : List (Event ConnInput StreamCall))
    (hsafe : StepAll streamProgram.step BodySafe (.init {}) es) :
    VisitAll streamProgram.step BodyClosed (.init {}) es := by
  have hinit : StreamInv ({} : StreamConn) 0 :=
    ⟨⟨fun _ => ⟨rfl, rfl⟩, fun h => absurd h (by simp), fun h => (nomatch h), fun h => (nomatch h),
      fun h => (nomatch h)⟩, by simp⟩
  refine (visitAll_of_stepAll streamInv_step es hinit hsafe).imp fun s hs hd hdel b hb => ?_
  exact hs.bodyClosed hd hdel b hb

/-- The body arrives, then `Close` runs to its end. -/
def orderlyRun : List (Event ConnInput StreamCall) :=
  List.flatten [[.call (.outcome (.inl 7)), .call .close], .replicate 3 (.sched 0 {}), .replicate 10 (.sched 1 {})]

theorem streamConn_closes_body_orderly : VisitAll streamProgram.step BodyClosed (.init {}) orderlyRun ∧
    ∃ s, runOf streamProgram.step (.init {}) orderlyRun = some s ∧ s.shared.closeOnce = .done ∧
      s.shared.delivered = true ∧ s.shared.closed = [7] :=
  ⟨streamConn_closes_body orderlyRun (by decide), _, rfl, rfl, rfl, rfl⟩

/-- `Close` runs to its end, then the body arrives. -/
def lateRun : List (Event ConnInput StreamCall) :=
  List.flatten [[.call .close, .call (.outcome (.inl 7))], .replicate 9 (.sched 0 {}), .replicate 3 (.sched 1 {})]

/-- **A body that arrives after `Close` stays open.** -/
theorem streamConn_leaks_body : ∃ s, runOf streamProgram.step (.init {}) lateRun = some s ∧ s.shared.closeOnce = .done ∧
      s.shared.delivered = true ∧ s.shared.passed = some 7 ∧ s.shared.closed = [] ∧ ¬ BodyClosed s := by
  refine ⟨_, rfl, rfl, rfl, rfl, rfl, fun h => ?_⟩
  exact absurd (h rfl rfl 7 rfl) (by decide)

end SingBox.Xhttp
