import SingBox.Xhttp.Breaker
import SingBox.Xhttp.Deadline
import SingBox.Xhttp.PacketConn
import SingBox.Xhttp.SplitConn
import SingBox.Xhttp.StreamConn

/-!
# What the breaker counts of the three kinds of connections

A response body that has failed answers every `Read` with an error, and nothing keeps the breaker from
counting each of them: one failed exchange trips it (`failed_exchange_counted_again`).  A `splitConn` also
counts the failure of its upload again for every `Read` that it ends.
-/

namespace SingBox.Xhttp

open SingBox.Lib List

/-! ### Notes of a read -/

lemma noteRead_failures (b : ConnBreaker) (r : XmuxRelease) (err : Option ConnError) :
    (b.noteRead r err).2.failures = r.failures + (if isFailure err && !b.localClosed then 1 else 0) := by
  cases err with
  | none =>
    simp only [ConnBreaker.noteRead, isFailure]
    split <;> simp [XmuxRelease.noteSuccess]
  | some e =>
    simp only [ConnBreaker.noteRead, isFailure]
    by_cases he : e = .eof
    · simp [he]
    · cases hl : b.localClosed <;> simp [he, XmuxRelease.noteFailure]

lemma noteRead_localClosed (b : ConnBreaker) (r : XmuxRelease) (err : Option ConnError) :
    (b.noteRead r err).1.localClosed = b.localClosed := by
  cases err <;> rfl

lemma release_failures (r : XmuxRelease) : r.release.failures = r.failures := by
  unfold XmuxRelease.release
  split <;> rfl

/-! ### Stream-one connections -/

/-- The dial goroutine of a stream-one connection. -/
def streamDial : RoundTrip → StreamCall
  | .error err _ => .outcome (.inr err)
  | .response status statusText body =>
    if status ≠ 200 then .outcome (.inr (.other ("v2ray-xhttp: unexpected status: " ++ statusText)))
    else .outcome (.inl body)

def streamWire : Wire StreamConn StreamOp StreamCall Unit where
  program := streamProgram
  xmux := StreamConn.xmux
  setXmux c r := { c with xmux := r }
  heard c := !c.breaker.localClosed && !c.readDeadline.expired
  cancelled := StreamConn.cancelled
  closed := StreamConn.closed
  next _ r := some (streamDial r)
  body
    | .readBody b => some b
    | _ => none
  carries o c := match o with
    | .readLate _ err => isFailure (some err) && (!c.breaker.localClosed && !c.readDeadline.expired)
    | .readReturn _ err => isFailure err && !c.breaker.localClosed
    | _ => false
  noted _ _ _ := false
  replays _ _ := false

lemma streamWire_quieter {c c' : StreamConn} (hl : c.breaker.localClosed = true → c'.breaker.localClosed = true)
    (he : c.readDeadline.expired = true → c'.readDeadline.expired = true) : streamWire.Quieter c c' := by
  intro o h
  cases o with
  | readLate n err | readReturn n err =>
    simp only [streamWire, Bool.and_eq_true, Bool.not_eq_true'] at h ⊢
    grind
  | _ => cases h

lemma streamWire_lawful : streamWire.Lawful where
  setXmux c r := ⟨rfl, fun _ => rfl⟩
  entry k c := by
    cases k with
    | outcome r =>
      simp only [streamWire, streamProgram, StreamCall.entry]
      split
      · exact ⟨rfl, fun _ => id, by simp⟩
      · cases r <;> exact ⟨rfl, fun _ => id, by simp⟩
    | readTimer now | writeTimer now =>
      refine ⟨rfl, streamWire_quieter id ?_, fun o ho => ?_⟩
      · first | exact id | exact (readAlarm_lawful.fire_rung _ _).trans
      · obtain ⟨g, -, rfl⟩ := mem_map.1 ho
        rfl
    | _ => exact ⟨rfl, fun _ => id, Wire.quiet_of_all rfl⟩
  exec o x c c' new h _ := by
    change StreamOp.exec o x c = some (c', new) at h
    cases o with
    | closeEnter | closeSelect | readSelect | readDead | readCheck | checkExpired b =>
      -- Nothing is noted in any branch.
      simp only [StreamOp.exec] at h
      repeat' split at h
      all_goals cases h
      all_goals exact ⟨fun _ => id, .still rfl rfl⟩
    | release =>
      cases h
      exact ⟨fun _ => id, .still (release_failures _) rfl⟩
    | readBody b =>
      simp only [StreamOp.exec] at h
      split at h
      next err he =>
        cases h
        refine ⟨fun _ => id, .pass rfl _ rfl fun hp => .inr ?_⟩
        rw [Wire.fails, he]
        exact hp
      · cases h
        exact ⟨fun _ => id, .still rfl rfl⟩
    | readLate n err =>
      simp only [StreamOp.exec] at h
      split at h <;> cases h
      · exact ⟨fun _ => id, .still rfl rfl⟩
      next he =>
        refine ⟨fun _ => id, .pass rfl _ rfl fun hp => .inl ?_⟩
        simp_all [streamWire]
    | readReturn n err =>
      cases h
      exact ⟨streamWire_quieter (noteRead_localClosed _ _ _).trans id, .note (noteRead_failures _ _ _) rfl⟩
    | setRead t | expireRead g =>
      simp only [StreamOp.exec, StreamConn.onExpire] at h
      split at h <;> cases h <;> refine ⟨streamWire_quieter id ?_, .still rfl rfl⟩
      all_goals first
        | exact (readAlarm_lawful.set_keeps _ _ _).stays
        | exact (readAlarm_lawful.expire_keeps _ _).stays
    | storeLocalClosed =>
      cases h
      exact ⟨streamWire_quieter (fun _ => rfl) id, .still rfl rfl⟩
    | expireSelect =>
      cases h
      refine ⟨fun _ => id, .quiet rfl fun p hp => ?_⟩
      split at hp
      · obtain ⟨b, -, rfl⟩ := mem_map.1 hp
        rfl
      · cases hp
    | _ =>
      cases h
      exact ⟨fun _ => id, .still rfl rfl⟩
  noted o x c h := by cases h

/-! ### Stream-up connections -/

/-- The requests of a connection with a separate download. -/
inductive SplitExchange where
  | download | upload
  deriving DecidableEq, Repr

def openDownload : ConnError := .other "open download: "

/-- The two goroutines of a stream-up dial. -/
def splitNext : SplitExchange → RoundTrip → Option SplitCall
  | .download, .error _ _ => some (.fail openDownload)
  | .download, .response status statusText body =>
    some (if status ≠ 200 then .fail (.other ("v2ray-xhttp: unexpected download status: " ++ statusText))
      else .setupReader body none)
  | .upload, .error err _ => some (.uploadFailed err)
  | .upload, .response status statusText _ =>
    if status ≠ 200 then some (.uploadFailed (.other ("v2ray-xhttp: unexpected upload status: " ++ statusText)))
    else none

def splitWire : Wire SplitConn SplitOp SplitCall SplitExchange where
  program := splitProgram
  xmux := SplitConn.xmux
  setXmux c r := { c with xmux := r }
  heard c := !c.breaker.localClosed
  cancelled := SplitConn.cancelled
  closed := SplitConn.closed
  next := splitNext
  body
    | .readBody _ b => some b
    | _ => none
  carries o c := match o with
    | .readAfter _ _ err => isFailure err && !c.breaker.localClosed
    | .readReturn _ _ err => isFailure err && !c.breaker.localClosed
    | _ => false
  noted _ _ _ := false
  replays
    | .readAfter _ _ _, c => c.terminalErr.isSome
    | _, _ => false

lemma splitWire_quieter {c c' : SplitConn} (hl : c.breaker.localClosed = true → c'.breaker.localClosed = true) :
    splitWire.Quieter c c' := by
  intro o h
  cases o with
  | readAfter start n err | readReturn start n err =>
    simp only [splitWire, Bool.and_eq_true, Bool.not_eq_true'] at h ⊢
    grind
  | _ => cases h

lemma splitWire_lawful : splitWire.Lawful where
  setXmux c r := ⟨rfl, fun _ => rfl⟩
  entry k c := by
    cases k with
    | readTimer now | writeTimer now =>
      refine ⟨rfl, fun _ => id, fun o ho => ?_⟩
      obtain ⟨g, -, rfl⟩ := mem_map.1 ho
      rfl
    | _ => exact ⟨rfl, fun _ => id, Wire.quiet_of_all rfl⟩
  exec o x c c' new h hr := by
    change SplitOp.exec o x c = some (c', new) at h
    cases o with
    | setup reader err | closeEnter | readSelect start | readLock start | checkExpired b | recheckRead | recheckWrite
    | setRead t | expireRead g =>
      simp only [SplitOp.exec, SplitConn.onExpire] at h
      repeat' split at h
      all_goals cases h
      all_goals exact ⟨fun _ => id, .still rfl rfl⟩
    | fail err =>
      simp only [SplitOp.exec] at h
      split at h <;> cases h
      · exact ⟨fun _ => id, .still rfl rfl⟩
      · refine ⟨fun _ => id, .quiet rfl ?_⟩
        unfold SplitConn.failRest
        cases c.reader <;> exact Wire.quiet_of_all rfl
    | release =>
      cases h
      exact ⟨fun _ => id, .still (release_failures _) rfl⟩
    | readBody start b =>
      cases h
      exact ⟨fun _ => id, .pass rfl _ rfl .inr⟩
    | readAfter start n err =>
      cases h
      refine ⟨fun _ => id, .pass rfl _ rfl fun hp => .inl ?_⟩
      have ht : c.terminalErr = none := by simpa [splitWire] using hr (Bool.and_eq_true_iff.1 hp).2
      rw [ht] at hp
      exact hp
    | readReturn start n err =>
      cases h
      exact ⟨splitWire_quieter (noteRead_localClosed _ _ _).trans, .note (noteRead_failures _ _ _) rfl⟩
    | storeLocalClosed =>
      cases h
      exact ⟨splitWire_quieter fun _ => rfl, .still rfl rfl⟩
    | _ =>
      cases h
      exact ⟨fun _ => id, .still rfl rfl⟩
  noted o x c h := by cases h

/-! ### Packet-up connections -/

/-- The download goroutine of a packet-up dial. -/
def packetNext : Unit → RoundTrip → Option PacketCall
  | _, .error _ _ => some (.fail openDownload)
  | _, .response status statusText body =>
    some (if status ≠ 200 then .fail (.other ("v2ray-xhttp: unexpected download status: " ++ statusText))
      else .setupReader body none)

/-- A POST fails for a remote reason. -/
def postFails (o : PacketOp) (x : ConnInput) (c : PacketConn) : Bool :=
  match o with
  | .response _ _ => if x.err.isSome then !(c.cancelled || x.timeout) else x.status ≠ 200
  | _ => false

/-- The three checks that a `Read` makes before it notes an error of the body all pass. -/
def packetHeard (c : PacketConn) : Bool :=
  !c.breaker.localClosed && !c.readDeadline.expired && c.terminalErr.isNone

def packetWire (cfg : PacketConfig) : Wire PacketConn PacketOp PacketCall Unit where
  program := packetProgram cfg
  xmux := PacketConn.xmux
  setXmux c r := { c with xmux := r }
  heard := packetHeard
  cancelled := PacketConn.cancelled
  closed := PacketConn.closedBodies
  next := packetNext
  body
    | .readBody _ b => some b
    | _ => none
  carries o c := match o with
    | .readAfter _ _ err => isFailure err && packetHeard c
    | .readLate _ _ err => isFailure (some err) && (!c.breaker.localClosed && !c.readDeadline.expired)
    | .readReturn _ _ err => isFailure err && !c.breaker.localClosed
    | _ => false
  noted := postFails
  replays _ _ := false

section Packet

variable (cfg : PacketConfig)

lemma packetLoop_quiet {c c' : PacketConn} {w : Writer} {new : List PacketOp} (h : c.loop w = (c', new)) :
    c'.xmux = c.xmux ∧ (packetWire cfg).Quieter c c' ∧ ∀ o ∈ new, (packetWire cfg).carries o c' = false := by
  unfold PacketConn.loop at h
  split at h <;> cases h <;> exact ⟨rfl, fun _ => id, Wire.quiet_of_all rfl⟩

lemma packetWire_quieter {c c' : PacketConn} (hl : c.breaker.localClosed = true → c'.breaker.localClosed = true)
    (he : c.readDeadline.expired = true → c'.readDeadline.expired = true)
    (ht : c'.terminalErr.isNone = true → c.terminalErr.isNone = true) : (packetWire cfg).Quieter c c' := by
  intro o h
  cases o with
  | readAfter start n err | readLate start n err | readReturn start n err =>
    simp only [packetWire, packetHeard, Bool.and_eq_true, Bool.not_eq_true'] at h ⊢
    grind
  | _ => cases h

lemma packetWire_lawful : (packetWire cfg).Lawful where
  setXmux c r := ⟨rfl, fun _ => rfl⟩
  entry k c := by
    cases k with
    | readTimer now =>
      refine ⟨rfl, packetWire_quieter cfg id (readAlarm_lawful.fire_rung _ _).trans id, fun o ho => ?_⟩
      obtain ⟨g, -, rfl⟩ := mem_map.1 ho
      rfl
    | _ => exact ⟨rfl, fun _ => id, Wire.quiet_of_all rfl⟩
  exec o x c c' new h _ := by
    change PacketOp.exec cfg o x c = some (c', new) at h
    cases o with
    | setup reader err | closeEnter | readSelect start | readDead start | readLock start | readExpired start reader
    | send w | pace w seq | post w seq | checkExpired b =>
      simp only [PacketOp.exec] at h
      repeat' split at h
      all_goals cases h
      all_goals exact ⟨fun _ => id, .still rfl rfl⟩
    | fail err w =>
      simp only [PacketOp.exec] at h
      unfold PacketConn.failRest at h
      repeat' split at h
      all_goals
        cases h
        refine ⟨packetWire_quieter cfg id id (by simp_all [PacketConn.failLocked]), .quiet rfl ?_⟩
        cases w <;> first | exact Wire.quiet_of_all rfl | (cases c.reader <;> exact Wire.quiet_of_all rfl)
    | closeLocked =>
      cases h
      refine ⟨packetWire_quieter cfg id id (by simp [PacketConn.closeLocked]), .quiet rfl ?_⟩
      unfold PacketConn.closeRest
      cases c.reader <;> exact Wire.quiet_of_all rfl
    | release =>
      cases h
      exact ⟨fun _ => id, .still (release_failures _) rfl⟩
    | expireLock =>
      cases h
      refine ⟨fun _ => id, .quiet rfl fun p hp => ?_⟩
      obtain ⟨b, -, rfl⟩ := mem_map.1 hp
      rfl
    | readBody start b =>
      cases h
      exact ⟨fun _ => id, .pass rfl _ rfl .inr⟩
    | readAfter start n err =>
      simp only [PacketOp.exec] at h
      split at h
      · cases h
        exact ⟨fun _ => id, .still rfl rfl⟩
      · cases h
        refine ⟨fun _ => id, .pass rfl _ rfl fun hp => .inl ?_⟩
        simp_all [packetWire, packetHeard]
      · cases h
        exact ⟨fun _ => id, .still rfl rfl⟩
    | readLate start n err =>
      simp only [PacketOp.exec] at h
      split at h <;> cases h
      · exact ⟨fun _ => id, .still rfl rfl⟩
      next he =>
        refine ⟨fun _ => id, .pass rfl _ rfl fun hp => .inl ?_⟩
        simp_all [packetWire]
    | readReturn start n err =>
      cases h
      exact ⟨packetWire_quieter cfg (noteRead_localClosed _ _ _).trans id id, .note (noteRead_failures _ _ _) rfl⟩
    | setRead t | expireRead g =>
      simp only [PacketOp.exec, PacketConn.onExpire] at h
      split at h <;> cases h <;> refine ⟨packetWire_quieter cfg id ?_ id, .still rfl rfl⟩
      all_goals first
        | exact (readAlarm_lawful.set_keeps _ _ _).stays
        | exact (readAlarm_lawful.expire_keeps _ _).stays
    | storeLocalClosed =>
      cases h
      exact ⟨packetWire_quieter cfg (fun _ => rfl) id id, .still rfl rfl⟩
    | writeStart i payload =>
      simp only [PacketOp.exec] at h
      split at h
      · cases h
        exact ⟨fun _ => id, .still rfl rfl⟩
      · obtain ⟨hx, hc, hq⟩ := packetLoop_quiet cfg (Option.some.inj h)
        exact ⟨hc, .quiet (congrArg XmuxRelease.failures hx) hq⟩
    | response w seq =>
      simp only [PacketOp.exec] at h
      split at h
      next e he =>
        cases h
        by_cases hc : c.cancelled ∨ x.timeout
        · refine ⟨fun _ => id, .still ?_ rfl⟩
          simp only [Wire.failures, packetWire, if_pos hc]
        · refine ⟨fun _ => id, .request ?_ ?_ (Wire.quiet_of_all rfl)⟩
          · simpa [packetWire, postFails, he] using hc
          · simp only [Wire.failures, packetWire, if_neg hc, XmuxRelease.noteFailure]
      next he =>
        split at h
        next hs =>
          cases h
          exact ⟨fun _ => id, .request (by simpa [packetWire, postFails, he] using hs) rfl (Wire.quiet_of_all rfl)⟩
        · obtain ⟨hx, hc, hq⟩ := packetLoop_quiet cfg (Option.some.inj h)
          have hf : c'.xmux.failures = c.xmux.noteSuccess.failures := congrArg XmuxRelease.failures hx
          exact ⟨hc, .quiet hf hq⟩
    | _ =>
      cases h
      exact ⟨fun _ => id, .still rfl rfl⟩
  noted o x c h := by
    cases o with
    | readBody start b => cases h
    | _ => rfl

end Packet

/-- **The breaker counts no more failures than there are failed exchanges**, in every run of a connection of
each kind whose steps are fresh. -/
theorem failures_le_failed (cfg : PacketConfig) (es : List (Event ConnInput (StreamCall ⊕ Unit × RoundTrip)))
    (es' : List (Event ConnInput (SplitCall ⊕ SplitExchange × RoundTrip)))
    (es'' : List (Event ConnInput (PacketCall ⊕ Unit × RoundTrip)))
    (h : StepAll streamWire.metered.step streamWire.FreshStep (Config.init ({}, {})) es)
    (h' : StepAll splitWire.metered.step splitWire.FreshStep (Config.init ({}, {})) es')
    (h'' : StepAll (packetWire cfg).metered.step (packetWire cfg).FreshStep (Config.init ({}, {})) es'') :
    VisitAll streamWire.metered.step (fun s => s.shared.1.xmux.failures ≤ s.shared.2.failed) (Config.init ({}, {})) es ∧
      VisitAll splitWire.metered.step (fun s => s.shared.1.xmux.failures ≤ s.shared.2.failed)
        (Config.init ({}, {})) es' ∧
      VisitAll (packetWire cfg).metered.step (fun s => s.shared.1.xmux.failures ≤ s.shared.2.failed)
        (Config.init ({}, {})) es'' :=
  ⟨Wire.visitAll_failures streamWire_lawful rfl es h, Wire.visitAll_failures splitWire_lawful rfl es' h',
    Wire.visitAll_failures (packetWire_lawful cfg) rfl es'' h''⟩

/-- The error of a stream that the server resets. -/
def streamReset : ConnError := .other "stream error: INTERNAL_ERROR"

section Runs

variable {κ ε : Type}

/-- The goroutine `i` runs some sections; the world answers with `err`. -/
def schedule (i steps : ℕ) (err : Option ConnError) : List (Event ConnInput (κ ⊕ ε × RoundTrip)) :=
  List.replicate steps (.sched i { pick := true, err := err })

/-- A download succeeds, and then the body fails under `n` reads, one after the other. -/
def failingReads (download : ε) (setup : ℕ) (read : κ) (sections n : ℕ) : List (Event ConnInput (κ ⊕ ε × RoundTrip)) :=
  .call (.inr (download, .response 200 "200 OK" 7)) :: schedule 0 setup none ++
    (List.range n).flatMap fun i => .call (.inl read) :: schedule (i + 1) sections (some streamReset)

end Runs

def samplePacketConfig : PacketConfig := ⟨⟨1000000, 1000000⟩, ⟨30, 30⟩, none⟩

/-- One read fails, and the connection is closed. -/
theorem failures_le_failed_once :
    VisitAll streamWire.metered.step (fun s => s.shared.1.xmux.failures ≤ s.shared.2.failed) (Config.init ({}, {}))
        (failingReads () 3 StreamCall.read 5 1 ++ [.call (.inl .close)] ++ schedule 2 9 none) ∧
      VisitAll splitWire.metered.step (fun s => s.shared.1.xmux.failures ≤ s.shared.2.failed) (Config.init ({}, {}))
        (failingReads .download 2 SplitCall.read 5 1 ++ [.call (.inl .close)] ++ schedule 2 12 none) ∧
      VisitAll (packetWire samplePacketConfig).metered.step
        (fun s => s.shared.1.xmux.failures ≤ s.shared.2.failed) (Config.init ({}, {}))
        (failingReads () 2 PacketCall.read 7 1 ++ [.call (.inl .close)] ++ schedule 2 8 none) :=
  failures_le_failed samplePacketConfig _ _ _ (by decide +kernel) (by decide +kernel) (by decide +kernel)

/-- An upload fails while a read waits for the body of the download. -/
def uploadFailsUnderRead : List (Event ConnInput (SplitCall ⊕ SplitExchange × RoundTrip)) :=
  [.call (.inr (.download, .response 200 "200 OK" 7))] ++ schedule 0 2 none ++ [.call (.inl .read)] ++
    schedule 1 2 none ++ [.call (.inr (.upload, .error streamReset false))] ++ schedule 2 7 none ++
    schedule 1 3 (some .closed)

/-- **One failed exchange is counted again and again.**  By every read of a body that has failed, in each kind of
connections, and by a read that an upload's failure ends. -/
theorem failed_exchange_counted_again :
    (∃ s, runOf streamWire.metered.step (Config.init ({}, {})) (failingReads () 3 StreamCall.read 5 3) = some s ∧
      s.shared.2.failed = 1 ∧ s.shared.1.xmux.failures = 3) ∧
    (∃ s, runOf splitWire.metered.step (Config.init ({}, {})) (failingReads .download 2 SplitCall.read 5 3) =
      some s ∧ s.shared.2.failed = 1 ∧ s.shared.1.xmux.failures = 3) ∧
    (∃ s, runOf (packetWire samplePacketConfig).metered.step (Config.init ({}, {}))
      (failingReads () 2 PacketCall.read 7 3) = some s ∧ s.shared.2.failed = 1 ∧ s.shared.1.xmux.failures = 3) ∧
    (∃ s, runOf splitWire.metered.step (Config.init ({}, {})) uploadFailsUnderRead = some s ∧
      s.shared.2.failed = 1 ∧ s.shared.1.xmux.failures = 2) :=
  ⟨⟨_, rfl, rfl, rfl⟩, ⟨_, rfl, rfl, rfl⟩, ⟨_, rfl, rfl, rfl⟩, ⟨_, rfl, rfl, rfl⟩⟩

end SingBox.Xhttp
