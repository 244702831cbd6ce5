import Mathlib.Data.BitVec
import SingBox.Lib.Run

/-!
# Alarms with a generation number

An alarm is set to a time, or stopped.  Its timer cannot be revoked once it has fired: the callback runs at
any later time, and finds out by a generation number of `w` bits whether the alarm was set or stopped since.

An alarm type gives its operations (`Alarm`) and obeys a few laws (`Alarm.Lawful`).
-/

namespace SingBox.Lib

open List

/-- The operations of an alarm.  The flag of `set` and `expire` says that a function is to be run. -/
structure Alarm (D : Type*) (w : ℕ) where
  generation : D → BitVec w
  /-- The timer that has neither fired nor been stopped: the generation of its callback, and its time. -/
  timer : D → Option (BitVec w × ℤ)
  rung : D → Bool
  set : D → Option ℤ → ℤ → D × Bool
  stop : D → D
  fire : D → ℤ → D × Option (BitVec w)
  expire : D → BitVec w → D × Bool

inductive AlarmCall where
  | set (t : Option ℤ)
  | stop
  deriving DecidableEq

/-- A callback that has started: its generation, and the number of the call that armed it. -/
structure Shot (w : ℕ) where
  generation : BitVec w
  call : ℕ
  deriving DecidableEq

/-- An alarm that rings: the number of the call it rings for, the number of calls so far, the latest of
them, and the time. -/
structure Ring where
  cause : ℕ
  calls : ℕ
  latest : Option AlarmCall
  now : ℤ
  deriving DecidableEq

/-- A ring is due: it is for the latest call, which is a `set` whose time has come. -/
def Ring.Due (r : Ring) : Prop := r.cause = r.calls ∧ ∃ t, r.latest = some (.set (some t)) ∧ t ≤ r.now

/-- An alarm with its clock, its callbacks, and what has happened: the calls and the rings, the latest first,
and how often the function was run. -/
structure AlarmState (D : Type*) (w : ℕ) where
  d : D
  now : ℤ
  inFlight : List (Shot w) := []
  calls : List AlarmCall := []
  rings : List Ring := []
  ran : ℕ := 0

inductive AlarmEvent where
  | tick (δ : ℕ)
  | set (t : Option ℤ)
  | stop
  | fire
  | expire (i : ℕ)
  deriving DecidableEq

namespace Alarm

variable {D : Type*} {w : ℕ} (A : Alarm D w)

/-- The state after an operation that may ring, on behalf of the call number `cause`. -/
def after (s : AlarmState D w) (cause : ℕ) (r : D × Bool) : AlarmState D w :=
  { s with
    d := r.1
    ran := if r.2 then s.ran + 1 else s.ran
    rings := if A.rung r.1 ∧ ¬ A.rung s.d then ⟨cause, s.calls.length, s.calls.head?, s.now⟩ :: s.rings else s.rings }

def call (s : AlarmState D w) (c : AlarmCall) : AlarmState D w := { s with calls := c :: s.calls }

def step (s : AlarmState D w) : AlarmEvent → Option (AlarmState D w)
  | .tick δ => some { s with now := s.now + δ }
  | .set t => some (A.after (call s (.set t)) (s.calls.length + 1) (A.set s.d t s.now))
  | .stop => some (A.after (call s .stop) (s.calls.length + 1) (A.stop s.d, false))
  | .fire =>
    match A.fire s.d s.now with
    | (d, some g) => some { s with d := d, inFlight := s.inFlight ++ [⟨g, s.calls.length⟩] }
    | (_, none) => none
  | .expire i =>
    match s.inFlight[i]? with
    | some shot =>
      some (A.after { s with inFlight := s.inFlight.eraseIdx i } shot.call (A.expire s.d shot.generation))
    | none => none

/-- A callback is not overtaken by as many calls as there are generations. -/
def Timely (s : AlarmState D w) : AlarmEvent → Prop
  | .expire i => ∀ shot ∈ s.inFlight[i]?, s.calls.length < shot.call + 2 ^ w
  | _ => True

instance (s : AlarmState D w) (e : AlarmEvent) : Decidable (Timely s e) := by
  cases e <;> unfold Timely <;> infer_instance

/-- An operation rings at most by turning on what stays on, and the function is run only when it does. -/
structure Keeps (d : D) (r : D × Bool) : Prop where
  stays : A.rung d → A.rung r.1
  flag : r.2 = true → A.rung r.1 ∧ ¬ A.rung d

structure Lawful : Prop where
  set_generation : ∀ d t now, A.generation (A.set d t now).1 = A.generation d + 1
  set_timer : ∀ d t now p, A.timer (A.set d t now).1 = some p → p.1 = A.generation d + 1 ∧ t = some p.2
  set_rung : ∀ d t now, A.rung (A.set d t now).1 → A.rung d ∨ ∃ u, t = some u ∧ u ≤ now
  set_keeps : ∀ d t now, A.Keeps d (A.set d t now)
  stop_generation : ∀ d, A.generation (A.stop d) = A.generation d + 1
  stop_timer : ∀ d, A.timer (A.stop d) = none
  stop_rung : ∀ d, A.rung (A.stop d) = A.rung d
  fire_some : ∀ d now g, (A.fire d now).2 = some g → ∃ u, A.timer d = some (g, u) ∧ u ≤ now
  fire_rung : ∀ d now, A.rung (A.fire d now).1 = A.rung d
  fire_generation : ∀ d now, A.generation (A.fire d now).1 = A.generation d
  fire_timer : ∀ d now g, (A.fire d now).2 = some g → A.timer (A.fire d now).1 = none
  expire_generation : ∀ d g, A.generation (A.expire d g).1 = A.generation d
  expire_timer : ∀ d g, A.timer (A.expire d g).1 = A.timer d
  expire_rung : ∀ d g, A.rung (A.expire d g).1 → A.rung d ∨ g = A.generation d
  expire_keeps : ∀ d g, A.Keeps d (A.expire d g)

/-- The timer is that of the latest call, and the callbacks know the calls since their own. -/
structure Armed (s : AlarmState D w) : Prop where
  timer : ∀ p, A.timer s.d = some p → p.1 = A.generation s.d ∧ s.calls.head? = some (.set (some p.2))
  call_le : ∀ shot ∈ s.inFlight, shot.call ≤ s.calls.length
  generation : ∀ shot ∈ s.inFlight, shot.generation + BitVec.ofNat w (s.calls.length - shot.call) = A.generation s.d
  reached : ∀ shot ∈ s.inFlight, shot.call = s.calls.length → ∃ t, s.calls.head? = some (.set (some t)) ∧ t ≤ s.now

/-- Every ring was due, there is one at most, it lasts, and the function was run at most for it. -/
structure Rang (s : AlarmState D w) : Prop where
  due : ∀ r ∈ s.rings, r.Due
  rings : s.rings.length ≤ 1
  rung : s.rings ≠ [] → A.rung s.d
  ran : s.ran ≤ s.rings.length

variable {A} {s t : AlarmState D w}

lemma step_stop (hA : A.Lawful) (s : AlarmState D w) :
    A.step s .stop = some { s with d := A.stop s.d, calls := .stop :: s.calls } := by
  have hring : ¬ (A.rung (A.stop s.d) ∧ ¬ A.rung s.d) := by
    rw [hA.stop_rung]
    exact fun h => h.2 h.1
  have hrings : (A.after (call s .stop) (s.calls.length + 1) (A.stop s.d, false)).rings = s.rings := if_neg hring
  rw [← hrings]
  rfl

lemma Rang.after (h : A.Rang s) {cause : ℕ} {r : D × Bool} (hk : A.Keeps s.d r)
    (hdue : A.rung r.1 → A.rung s.d ∨ Ring.Due ⟨cause, s.calls.length, s.calls.head?, s.now⟩) :
    A.Rang (A.after s cause r) := by
  by_cases hring : A.rung r.1 ∧ ¬ A.rung s.d
  · -- the first ring
    have hnil : s.rings = [] := by
      by_contra hne
      exact hring.2 (h.rung hne)
    have hran : s.ran = 0 := by
      have := h.ran
      rw [hnil] at this
      simpa using this
    have hrings : (A.after s cause r).rings = [⟨cause, s.calls.length, s.calls.head?, s.now⟩] := by
      simp only [Alarm.after, if_pos hring, hnil]
    refine ⟨?_, by rw [hrings]; simp, fun _ => hring.1, ?_⟩
    · intro x hx
      rw [hrings, mem_singleton] at hx
      rw [hx]
      exact (hdue hring.1).resolve_left hring.2
    · simp only [Alarm.after, hran]
      split <;> simp
  · have hrings : (A.after s cause r).rings = s.rings := by simp only [Alarm.after, if_neg hring]
    have hflag : r.2 = false := by
      cases hr : r.2 with
      | false => rfl
      | true => exact absurd (hk.flag hr) hring
    refine ⟨by rw [hrings]; exact h.due, by rw [hrings]; exact h.rings, ?_, ?_⟩
    · rw [hrings]
      exact fun hne => hk.stays (h.rung hne)
    · rw [hrings]
      simp only [Alarm.after, hflag]
      exact h.ran

lemma Armed.call (h : A.Armed s) (c : AlarmCall) {cause : ℕ} {r : D × Bool}
    (hgen : A.generation r.1 = A.generation s.d + 1)
    (htimer : ∀ p, A.timer r.1 = some p → p.1 = A.generation s.d + 1 ∧ c = .set (some p.2)) :
    A.Armed (A.after (call s c) cause r) where
  timer p hp := by
    obtain ⟨hg, hc⟩ := htimer p hp
    exact ⟨hg.trans hgen.symm, by rw [hc]; rfl⟩
  call_le shot hs := (h.call_le shot hs).trans (Nat.le_succ _)
  generation shot hs := by
    have hle := h.call_le shot hs
    show shot.generation + BitVec.ofNat w (s.calls.length + 1 - shot.call) = A.generation r.1
    rw [hgen, ← h.generation shot hs, Nat.succ_sub hle, Nat.succ_eq_add_one, BitVec.ofNat_add, ← BitVec.add_assoc]
    rfl
  reached shot hs hc := by
    have hle := h.call_le shot hs
    exact absurd hc (by show shot.call ≠ s.calls.length + 1; omega)

lemma Armed.expire (h : A.Armed s) (hA : A.Lawful) {i : ℕ} {shot : Shot w} {cause : ℕ} :
    A.Armed (A.after { s with inFlight := s.inFlight.eraseIdx i } cause (A.expire s.d shot.generation)) where
  timer p hp := by
    have hg := hA.expire_generation s.d shot.generation
    rw [show (A.after _ cause _).d = (A.expire s.d shot.generation).1 from rfl, hg]
    exact h.timer p ((hA.expire_timer s.d shot.generation).symm.trans hp)
  call_le x hx := h.call_le x (mem_of_mem_eraseIdx hx)
  generation x hx := (h.generation x (mem_of_mem_eraseIdx hx)).trans (hA.expire_generation _ _).symm
  reached x hx := h.reached x (mem_of_mem_eraseIdx hx)

lemma Armed.latest (h : A.Armed s) {shot : Shot w} (hs : shot ∈ s.inFlight)
    (htimely : s.calls.length < shot.call + 2 ^ w) (hg : shot.generation = A.generation s.d) :
    shot.call = s.calls.length := by
  have hle := h.call_le shot hs
  have hgen := h.generation shot hs
  rw [← hg] at hgen
  have hzero : BitVec.ofNat w (s.calls.length - shot.call) = 0 := by
    simpa using hgen
  have hmod := congrArg BitVec.toNat hzero
  rw [BitVec.toNat_ofNat, Nat.mod_eq_of_lt (by omega)] at hmod
  simp only [BitVec.toNat_ofNat, BitVec.ofNat_eq_ofNat, Nat.zero_mod] at hmod
  omega

lemma Armed.fire (h : A.Armed s) (hA : A.Lawful) {g : BitVec w} (hf : (A.fire s.d s.now).2 = some g) :
    A.Armed { s with d := (A.fire s.d s.now).1, inFlight := s.inFlight ++ [⟨g, s.calls.length⟩] } := by
  obtain ⟨u, hu, hnow⟩ := hA.fire_some _ _ _ hf
  obtain ⟨hg, hhead⟩ := h.timer _ hu
  have hgen := hA.fire_generation s.d s.now
  have hcases : ∀ {x : Shot w}, x ∈ s.inFlight ++ [⟨g, s.calls.length⟩] → x ∈ s.inFlight ∨ x = ⟨g, s.calls.length⟩ := by
    intro x hx
    simpa using hx
  refine ⟨?_, ?_, ?_, ?_⟩
  · intro p hp
    rw [show A.timer (A.fire s.d s.now).1 = none from hA.fire_timer _ _ _ hf] at hp
    cases hp
  · intro x hx
    rcases hcases hx with hx | rfl
    · exact h.call_le x hx
    · exact le_rfl
  · intro x hx
    rcases hcases hx with hx | rfl
    · exact (h.generation x hx).trans hgen.symm
    · simpa using hg.trans hgen.symm
  · intro x hx hc
    rcases hcases hx with hx | rfl
    · exact h.reached x hx hc
    · exact ⟨u, hhead, hnow⟩

def Inv (A : Alarm D w) (s : AlarmState D w) : Prop := A.Armed s ∧ A.Rang s

/-- **One event keeps the invariant**, unless it is a callback that comes too late. -/
theorem Inv.step (hA : A.Lawful) {e : AlarmEvent} (hstep : A.step s e = some t) (htimely : Timely s e)
    (h : A.Inv s) : A.Inv t := by
  obtain ⟨harmed, hrang⟩ := h
  cases e with
  | tick δ =>
    cases hstep
    refine ⟨⟨harmed.timer, harmed.call_le, harmed.generation, fun x hx hc => ?_⟩,
      hrang.due, hrang.rings, hrang.rung, hrang.ran⟩
    obtain ⟨u, hu, hnow⟩ := harmed.reached x hx hc
    exact ⟨u, hu, by dsimp only; omega⟩
  | set u =>
    cases hstep
    refine ⟨harmed.call _ (hA.set_generation _ _ _) fun p hp => ?_, Rang.after ?_ (hA.set_keeps _ _ _) fun hr => ?_⟩
    · obtain ⟨hg, hu⟩ := hA.set_timer _ _ _ _ hp
      exact ⟨hg, by rw [hu]⟩
    · exact ⟨hrang.due, hrang.rings, hrang.rung, hrang.ran⟩
    · refine (hA.set_rung _ _ _ hr).imp id ?_
      rintro ⟨v, rfl, hv⟩
      exact ⟨rfl, v, rfl, hv⟩
  | stop =>
    cases hstep
    have hstop := hA.stop_rung s.d
    refine ⟨harmed.call _ (hA.stop_generation _) fun p hp => ?_, Rang.after ?_ ?_ fun hr => ?_⟩
    · rw [hA.stop_timer] at hp
      cases hp
    · exact ⟨hrang.due, hrang.rings, hrang.rung, hrang.ran⟩
    · exact ⟨hstop.trans, by simp⟩
    · exact .inl (hstop.symm.trans hr)
  | fire =>
    simp only [Alarm.step] at hstep
    split at hstep
    next d g hf =>
      cases hstep
      have hd : (A.fire s.d s.now).1 = d := by rw [hf]
      have hg : (A.fire s.d s.now).2 = some g := by rw [hf]
      refine ⟨hd ▸ harmed.fire hA hg, hrang.due, hrang.rings, fun hne => ?_, hrang.ran⟩
      rw [← hd, hA.fire_rung]
      exact hrang.rung hne
    · cases hstep
  | expire i =>
    simp only [Alarm.step] at hstep
    split at hstep
    next shot hshot =>
      cases hstep
      have hmem := mem_of_getElem? hshot
      refine ⟨harmed.expire hA, Rang.after ?_ (hA.expire_keeps _ _) fun hr => ?_⟩
      · exact ⟨hrang.due, hrang.rings, hrang.rung, hrang.ran⟩
      · refine (hA.expire_rung _ _ hr).imp id fun hg => ?_
        have hc := harmed.latest hmem (htimely shot hshot) hg
        exact ⟨hc, harmed.reached shot hmem hc⟩
    · cases hstep

lemma inv_start {d : D} (hd : A.timer d = none) (now : ℤ) : A.Inv ⟨d, now, [], [], [], 0⟩ := by
  refine ⟨⟨fun p hp => ?_, by simp, by simp, by simp⟩, ⟨by simp, by simp, by simp, by simp⟩⟩
  rw [hd] at hp
  cases hp

/-- **A run in which no callback comes too late.** -/
theorem visitAll_inv (hA : A.Lawful) {d : D} (hd : A.timer d = none) (now : ℤ) (es : List AlarmEvent)
    (htimely : StepAll A.step Timely ⟨d, now, [], [], [], 0⟩ es) : VisitAll A.step A.Inv ⟨d, now, [], [], [], 0⟩ es :=
  visitAll_of_stepAll (fun _ _ _ => Inv.step hA) es (inv_start hd now) htimely

end Alarm

end SingBox.Lib
