import SingBox.Lib.Alarm
import SingBox.Xhttp.ConnParts

/-!
# The deadlines of XHTTP connections

`readDeadline` and `writeDeadline` are alarms with a generation number of 64 bits: one rings by closing the
channel `dead`, the other by closing the read half of its pipe.  A callback that `2 ^ 64` calls overtake
is taken for one of the latest call.
-/

namespace SingBox.Xhttp

open SingBox.Lib List Option

/-! ### The two deadlines are alarms -/

def Timer.pair (t : Timer) : BitVec 64 × ℤ := (t.generation, t.deadline)

def readAlarm : Alarm ReadDeadline 64 where
  generation := ReadDeadline.generation
  timer d := d.timer.map Timer.pair
  rung := ReadDeadline.expired
  set := ReadDeadline.set
  stop := ReadDeadline.stop
  fire := ReadDeadline.fire
  expire := ReadDeadline.expire

variable (d : ReadDeadline)

lemma ReadDeadline.expireLocked_eq : d.expireLocked.1 = { d with expired := true } := by
  unfold expireLocked
  split
  · cases d
    simp_all
  · rfl

lemma ReadDeadline.expireLocked_keeps : readAlarm.Keeps d d.expireLocked := by
  refine ⟨fun _ => ?_, fun hf => ⟨?_, ?_⟩⟩
  · show d.expireLocked.1.expired = true
    rw [expireLocked_eq]
  · show d.expireLocked.1.expired = true
    rw [expireLocked_eq]
  · intro h
    have he : d.expired = true := h
    simp [expireLocked, he] at hf

/-- What `set` does: it stops the timer, and then expires the deadline, arms a new timer, or nothing. -/
lemma ReadDeadline.set_cases (t : Option ℤ) (now : ℤ) :
    d.set t now = (d.stop, false) ∨ (∃ u, t = some u ∧ u ≤ now ∧ d.set t now = d.stop.expireLocked) ∨
      ∃ u, t = some u ∧ d.set t now = ({ d.stop with timer := some ⟨d.stop.generation, u⟩ }, false) := by
  unfold set
  cases t with
  | none => exact .inl rfl
  | some u =>
    dsimp only
    split
    · exact .inl rfl
    · split
      · exact .inr (.inl ⟨u, rfl, by omega, rfl⟩)
      · exact .inr (.inr ⟨u, rfl, rfl⟩)

lemma ReadDeadline.fire_cases (now : ℤ) : d.fire now = (d, none) ∨
    ∃ t, d.timer = some t ∧ t.deadline ≤ now ∧ d.fire now = ({ d with timer := none }, some t.generation) := by
  unfold fire
  split
  next t ht =>
    split
    · exact .inr ⟨t, ht, ‹_›, rfl⟩
    · exact .inl rfl
  · exact .inl rfl

lemma readAlarm_lawful : readAlarm.Lawful where
  set_generation d t now := by
    rcases d.set_cases t now with h | ⟨u, -, -, h⟩ | ⟨u, -, h⟩ <;>
      simp only [readAlarm, h, ReadDeadline.expireLocked_eq] <;> rfl
  set_timer d t now p hp := by
    rcases d.set_cases t now with h | ⟨u, -, -, h⟩ | ⟨u, rfl, h⟩ <;>
      simp only [readAlarm, h, ReadDeadline.expireLocked_eq] at hp
    · cases hp
    · cases hp
    · cases hp
      exact ⟨rfl, rfl⟩
  set_rung d t now hr := by
    rcases d.set_cases t now with h | ⟨u, hu, hle, h⟩ | ⟨u, -, h⟩ <;> simp only [readAlarm, h] at hr
    · exact .inl hr
    · exact .inr ⟨u, hu, hle⟩
    · exact .inl hr
  set_keeps d t now := by
    rcases d.set_cases t now with h | ⟨u, hu, hle, h⟩ | ⟨u, -, h⟩
    · rw [show readAlarm.set d t now = _ from h]
      exact ⟨id, by simp⟩
    · rw [show readAlarm.set d t now = _ from h]
      have hk := d.stop.expireLocked_keeps
      exact ⟨hk.stays, hk.flag⟩
    · rw [show readAlarm.set d t now = _ from h]
      exact ⟨id, by simp⟩
  stop_generation d := rfl
  stop_timer d := rfl
  stop_rung d := rfl
  fire_some d now g hg := by
    rcases d.fire_cases now with h | ⟨t, ht, hle, h⟩ <;> simp only [readAlarm, h] at hg
    · cases hg
    · cases hg
      exact ⟨t.deadline, by simp only [readAlarm, ht]; rfl, hle⟩
  fire_rung d now := by
    rcases d.fire_cases now with h | ⟨t, -, -, h⟩ <;> simp only [readAlarm, h]
  fire_generation d now := by
    rcases d.fire_cases now with h | ⟨t, -, -, h⟩ <;> simp only [readAlarm, h]
  fire_timer d now g hg := by
    rcases d.fire_cases now with h | ⟨t, -, -, h⟩ <;> simp only [readAlarm, h] at hg ⊢
    · cases hg
    · rfl
  expire_generation d g := by
    simp only [readAlarm, ReadDeadline.expire]
    split
    · rfl
    · rw [ReadDeadline.expireLocked_eq]
  expire_timer d g := by
    simp only [readAlarm, ReadDeadline.expire]
    split
    · rfl
    · rw [ReadDeadline.expireLocked_eq]
  expire_rung d g hr := by
    simp only [readAlarm, ReadDeadline.expire] at hr
    split at hr
    · exact .inl hr
    next hg => exact .inr (not_not.1 hg)
  expire_keeps d g := by
    show readAlarm.Keeps d (d.expire g)
    unfold ReadDeadline.expire
    split
    · exact ⟨id, by simp⟩
    · exact d.expireLocked_keeps

/-- The write half: without a reader (`d.reader == nil`) there is nothing to close and nothing to wait for. -/
def writeAlarm (reader : Bool) : Alarm WriteDeadline 64 where
  generation := WriteDeadline.generation
  timer d := d.timer.map Timer.pair
  rung d := d.pipe.readErr = some .deadlineExceeded
  set d t now := (if reader then d.set t now else d.stop, false)
  stop := WriteDeadline.stop
  fire := WriteDeadline.fire
  expire d g := (if reader then d.expire g else d, false)

lemma writeAlarm_set_cases (reader : Bool) (d : WriteDeadline) (t : Option ℤ) (now : ℤ) :
    (writeAlarm reader).set d t now = (d.stop, false) ∨ (∃ u, t = some u ∧ u ≤ now ∧ (writeAlarm reader).set d t now =
        ({ d.stop with pipe := d.pipe.closeWithError .deadlineExceeded }, false)) ∨
      ∃ u, t = some u ∧
        (writeAlarm reader).set d t now = ({ d.stop with timer := some ⟨d.stop.generation, u⟩ }, false) := by
  cases reader with
  | false => exact .inl rfl
  | true =>
    simp only [writeAlarm, if_true, WriteDeadline.set]
    cases t with
    | none => exact .inl rfl
    | some u =>
      dsimp only
      split
      · exact .inr (.inl ⟨u, rfl, by omega, rfl⟩)
      · exact .inr (.inr ⟨u, rfl, rfl⟩)

lemma writeAlarm_expire_cases (reader : Bool) (d : WriteDeadline) (g : BitVec 64) :
    (writeAlarm reader).expire d g = (d, false) ∨ g = d.generation ∧
      (writeAlarm reader).expire d g = ({ d with pipe := d.pipe.closeWithError .deadlineExceeded }, false) := by
  cases reader with
  | false => exact .inl rfl
  | true =>
    simp only [writeAlarm, if_true, WriteDeadline.expire]
    split
    · exact .inl rfl
    next hg => exact .inr ⟨not_not.1 hg, rfl⟩

lemma WriteDeadline.fire_cases (d : WriteDeadline) (now : ℤ) : d.fire now = (d, none) ∨
    ∃ t, d.timer = some t ∧ t.deadline ≤ now ∧ d.fire now = ({ d with timer := none }, some t.generation) := by
  unfold fire
  split
  next t ht =>
    split
    · exact .inr ⟨t, ht, ‹_›, rfl⟩
    · exact .inl rfl
  · exact .inl rfl

lemma writeAlarm_keeps {reader : Bool} {d d' : WriteDeadline}
    (h : d'.pipe = d.pipe ∨ d'.pipe = d.pipe.closeWithError .deadlineExceeded) :
    (writeAlarm reader).Keeps d (d', false) := by
  refine ⟨fun hr => ?_, by simp⟩
  simp only [writeAlarm, decide_eq_true_eq] at hr ⊢
  rcases h with h | h
  · rw [h, hr]
  · simp [h, Pipe.closeWithError, hr]

lemma writeAlarm_lawful (reader : Bool) : (writeAlarm reader).Lawful where
  set_generation d t now := by
    rcases writeAlarm_set_cases reader d t now with h | ⟨u, -, -, h⟩ | ⟨u, -, h⟩ <;> rw [h] <;> rfl
  set_timer d t now p hp := by
    rcases writeAlarm_set_cases reader d t now with h | ⟨u, -, -, h⟩ | ⟨u, rfl, h⟩ <;> rw [h] at hp <;> cases hp
    exact ⟨rfl, rfl⟩
  set_rung d t now hr := by
    rcases writeAlarm_set_cases reader d t now with h | ⟨u, hu, hle, h⟩ | ⟨u, -, h⟩ <;> rw [h] at hr
    · exact .inl hr
    · exact .inr ⟨u, hu, hle⟩
    · exact .inl hr
  set_keeps d t now := by
    rcases writeAlarm_set_cases reader d t now with h | ⟨u, -, -, h⟩ | ⟨u, -, h⟩ <;> rw [h]
    · exact writeAlarm_keeps (.inl rfl)
    · exact writeAlarm_keeps (.inr rfl)
    · exact writeAlarm_keeps (.inl rfl)
  stop_generation d := rfl
  stop_timer d := rfl
  stop_rung d := rfl
  fire_some d now g hg := by
    rcases d.fire_cases now with h | ⟨t, ht, hle, h⟩ <;> simp only [writeAlarm, h] at hg <;> cases hg
    exact ⟨t.deadline, by simp only [writeAlarm, ht]; rfl, hle⟩
  fire_rung d now := by
    rcases d.fire_cases now with h | ⟨t, -, -, h⟩ <;> simp only [writeAlarm, h]
  fire_generation d now := by
    rcases d.fire_cases now with h | ⟨t, -, -, h⟩ <;> simp only [writeAlarm, h]
  fire_timer d now g hg := by
    rcases d.fire_cases now with h | ⟨t, -, -, h⟩ <;> simp only [writeAlarm, h] at hg ⊢ <;> cases hg
    rfl
  expire_generation d g := by
    rcases writeAlarm_expire_cases reader d g with h | ⟨-, h⟩
    · rw [h]
    · rw [h]
      rfl
  expire_timer d g := by
    rcases writeAlarm_expire_cases reader d g with h | ⟨-, h⟩
    · rw [h]
    · rw [h]
      rfl
  expire_rung d g hr := by
    rcases writeAlarm_expire_cases reader d g with h | ⟨hg, h⟩
    · rw [h] at hr
      exact .inl hr
    · exact .inr hg
  expire_keeps d g := by
    rcases writeAlarm_expire_cases reader d g with h | ⟨-, h⟩ <;> rw [h]
    · exact writeAlarm_keeps (.inl rfl)
    · exact writeAlarm_keeps (.inr rfl)

/-! ### Runs of a deadline -/

structure ReadDeadlineOk (s : AlarmState ReadDeadline 64) : Prop where
  /-- It took effect for its latest call, whose time had come. -/
  due : ∀ r ∈ s.rings, r.Due
  stays : s.rings ≠ [] → s.d.expired = true
  /-- `onExpire` ran once at most, and only for a deadline that took effect. -/
  ran : s.ran ≤ s.rings.length ∧ s.rings.length ≤ 1
  /-- The callback of a timer that was armed before the latest call does nothing. -/
  stale : ∀ shot ∈ s.inFlight, shot.call < s.calls.length → s.calls.length < shot.call + 2 ^ 64 →
    s.d.expire shot.generation = (s.d, false)

lemma readDeadlineOk_of_inv {s : AlarmState ReadDeadline 64} (h : readAlarm.Inv s) : ReadDeadlineOk s := by
  obtain ⟨harmed, hrang⟩ := h
  refine ⟨hrang.due, hrang.rung, ⟨hrang.ran, hrang.rings⟩, fun shot hs hlt htimely => ?_⟩
  unfold ReadDeadline.expire
  split
  · rfl
  next hg =>
    have := harmed.latest hs htimely (not_not.1 hg)
    omega

def deadlineStart {D : Type} (d : D) (now : ℤ) : AlarmState D 64 := ⟨d, now, [], [], [], 0⟩

/-- **Deadlines take effect only when they are due.**  In every run in which no callback is overtaken by
`2 ^ 64` calls of `set` and `stop`. -/
theorem deadlines_take_effect_when_due (hd : d.timer = none) (wd : WriteDeadline)
    (hwd : wd.timer = none) (reader : Bool) (now : ℤ) (es es' : List AlarmEvent)
    (hread : StepAll readAlarm.step Alarm.Timely (deadlineStart d now) es)
    (hwrite : StepAll (writeAlarm reader).step Alarm.Timely (deadlineStart wd now) es') :
    VisitAll readAlarm.step ReadDeadlineOk (deadlineStart d now) es ∧
      VisitAll (writeAlarm reader).step (fun s => ∀ r ∈ s.rings, r.Due) (deadlineStart wd now) es' := by
  have htimer : readAlarm.timer d = none := by simp [readAlarm, hd]
  have hwtimer : (writeAlarm reader).timer wd = none := by simp [writeAlarm, hwd]
  exact ⟨(Alarm.visitAll_inv readAlarm_lawful htimer now es hread).imp fun _ => readDeadlineOk_of_inv,
    (Alarm.visitAll_inv (writeAlarm_lawful reader) hwtimer now es' hwrite).imp fun _ h => h.2.due⟩

/-- Set to one, extended to two while the callback of one is on its way; the second callback takes effect. -/
def extendedRun : List AlarmEvent :=
  [.set (some 1), .tick 1, .fire, .set (some 2), .expire 0, .tick 1, .fire, .expire 0]

theorem extendedRun_due : VisitAll readAlarm.step ReadDeadlineOk (deadlineStart {} 0) extendedRun ∧
      VisitAll (writeAlarm true).step (fun s => ∀ r ∈ s.rings, r.Due) (deadlineStart {} 0) extendedRun :=
  deadlines_take_effect_when_due {} rfl {} rfl true 0 extendedRun extendedRun (by decide) (by decide)

/-! ### Runs where a callback fires after a stop -/

lemma runOf_stops (n : ℕ) (s : AlarmState ReadDeadline 64) (hs : s.d.timer = none) :
    runOf readAlarm.step s (replicate n .stop) = some { s with
        d := { s.d with generation := s.d.generation + BitVec.ofNat 64 n }
        calls := replicate n .stop ++ s.calls } := by
  induction n generalizing s with
  | zero => simp [runOf]
  | succ n ih =>
    have hgen : s.d.stop.generation + BitVec.ofNat 64 n = s.d.generation + BitVec.ofNat 64 (n + 1) := by
      rw [ReadDeadline.stop, BitVec.ofNat_add, BitVec.add_assoc, BitVec.add_comm 1]
      rfl
    rw [replicate_succ, runOf, Alarm.step_stop readAlarm_lawful, bind_some, ih _ rfl]
    simp only [hs, replicate_succ', append_assoc, singleton_append, some.injEq,
      AlarmState.mk.injEq, ReadDeadline.mk.injEq, and_true]
    exact ⟨rfl, rfl, hgen, rfl⟩

/-- The callback of a timer that fired is overtaken by `n` calls of `stop`. -/
def overtakenRun (n : ℕ) : List AlarmEvent :=
  [.set (some 1), .tick 1, .fire] ++ (List.replicate n .stop ++ [.expire 0])

/-- The state after the first three events: the callback of the first call is on its way. -/
def firedState : AlarmState ReadDeadline 64 where
  d := { generation := 1 }
  now := 1
  inFlight := [⟨1, 1⟩]
  calls := [.set (some 1)]

/-- The state after the calls of `stop`: with a number of them that is a multiple of `2 ^ 64`, the
generation is that of the callback. -/
lemma overtakenRun_fires {n : ℕ} (hpos : 0 < n) (hn : BitVec.ofNat 64 n = 0) :
    ∃ s, runOf readAlarm.step (deadlineStart {} 0) (overtakenRun n) = some s ∧
      s.calls.head? = some .stop ∧ s.d.expired = true ∧ s.ran = 1 := by
  have hfired : runOf readAlarm.step (deadlineStart {} 0) [.set (some 1), .tick 1, .fire] = some firedState := rfl
  rw [overtakenRun, runOf_append, hfired, bind_some, runOf_append, runOf_stops n firedState rfl, hn]
  refine ⟨_, rfl, ?_, rfl, rfl⟩
  obtain ⟨m, rfl⟩ : ∃ m, n = m + 1 := ⟨n - 1, by omega⟩
  rfl

/-- **A callback that fires a stopped deadline.**  As many calls as there are generations bring back the
generation of an old callback; and `stop` does not keep a later `set` from arming a new one. -/
theorem stopped_deadline_fires : (∃ s, runOf readAlarm.step (deadlineStart {} 0) (overtakenRun (2 ^ 64)) = some s ∧
      s.calls.head? = some .stop ∧ s.d.expired = true ∧ s.ran = 1) ∧
    (∃ s, runOf readAlarm.step (deadlineStart {} 0) [.stop, .set (some 1), .tick 1, .fire, .expire 0] = some s ∧
      s.d.expired = true ∧ s.ran = 1) :=
  ⟨overtakenRun_fires (by decide) rfl, _, rfl, rfl, rfl⟩

end SingBox.Xhttp
