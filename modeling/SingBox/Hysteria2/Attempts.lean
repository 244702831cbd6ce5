import SingBox.Hysteria2.Realm

/-!
# Connect attempts on one session

`handleConnect` registers a channel for its nonce, waits, and has `cancelPending` remove the entry of the nonce when it
returns, whose ever it is by then.  An attempt keeps its entry exactly as long as no attempt with the same nonce, which
was answered before it came, returns while it waits (`attempts_served_iff`).
-/

namespace SingBox.Hysteria2.Realm

open Lib Function

/-- An attempt waits, or `cancelPending` is still to run, or it has returned. -/
inductive Stage where
  | waiting | leaving | returned
  deriving DecidableEq

/-- A `handleConnect` that has registered. -/
structure Attempt where
  nonce : GoString
  stage : Stage

/-- A session and the attempts on it, each under its channel. -/
structure Attempts where
  session : Session
  attempt : ℕ → Option Attempt := fun _ => none

inductive AttemptEvent where
  | connect (nonce : GoString)
  | respond (nonce : GoString) (addresses : List GoString)
  /-- the `select` of an attempt receives from its channel -/
  | receive (ch : ℕ)
  /-- the event cannot be sent, the timer fires, or the client is gone -/
  | giveUp (ch : ℕ)
  /-- the deferred `cancelPending` -/
  | cancel (ch : ℕ)

namespace Attempts

def move (s : Attempts) (ch : ℕ) (a : Attempt) (session : Session) : Attempts :=
  ⟨session, update s.attempt ch (some a)⟩

def step (s : Attempts) : AttemptEvent → Option Attempts
  | .connect nonce =>
    match s.session.registerPending nonce with
    | (some ch, session) => some (s.move ch ⟨nonce, .waiting⟩ session)
    | (none, session) => some { s with session }
  | .respond nonce addresses => some { s with session := (s.session.deliverPending nonce addresses).2 }
  | .receive ch => do
    let a ← (s.attempt ch).filter (·.stage = .waiting)
    let r ← (s.session.chans ch).recv
    some (s.move ch ⟨a.nonce, .leaving⟩ { s.session with chans := update s.session.chans ch r.2 })
  | .giveUp ch => do
    let a ← (s.attempt ch).filter (·.stage = .waiting)
    some (s.move ch ⟨a.nonce, .leaving⟩ s.session)
  | .cancel ch => do
    let a ← (s.attempt ch).filter (·.stage = .leaving)
    some (s.move ch ⟨a.nonce, .returned⟩ (s.session.cancelPending a.nonce))

/-- Registered, and neither delivered, timed out nor cancelled. -/
def Waiting (s : Attempts) (ch : ℕ) (nonce : GoString) : Prop :=
  s.attempt ch = some ⟨nonce, .waiting⟩ ∧ (s.session.chans ch).buf = []

/-- **A waiting attempt has the entry of its nonce**, and a response goes to it and to no other. -/
def Served (s : Attempts) : Prop :=
  ∀ ch nonce, s.Waiting ch nonce → s.session.pending.lookup nonce = some ch ∧ ∀ addresses,
    let r := s.session.deliverPending nonce addresses
    r.1 = true ∧ (r.2.chans ch).buf = [addresses] ∧ ∀ other ≠ ch, r.2.chans other = s.session.chans other

/-- The attempt that returns leaves nobody waiting with its nonce. -/
def Alone (s : Attempts) : AttemptEvent → Prop
  | .cancel ch => ∀ a ∈ s.attempt ch, ∀ other, ¬s.Waiting other a.nonce
  | _ => True

/-- Every waiting attempt has the entry of its nonce. -/
def Own (s : Attempts) : Prop := ∀ ch nonce, s.Waiting ch nonce → s.session.pending.lookup nonce = some ch

/-- An open channel with room for one response. -/
def Ready (c : Chan (List GoString)) : Prop := c.cap = 1 ∧ c.closes = 0

structure Inv (s : Attempts) : Prop where
  unclosed : s.session.closed = false
  chans : ∀ ch, Ready (s.session.chans ch)

variable {s t : Attempts} {a : Attempt} {e : AttemptEvent} {c : Chan (List GoString)}

lemma Inv.ready_update (h : s.Inv) (hc : Ready c) (k ch : ℕ) : Ready (update s.session.chans k c ch) :=
  (forall_update_iff _ fun _ => Ready).2 ⟨hc, fun ch _ => h.chans ch⟩ ch

lemma Ready.trySend (h : Ready c) (v : List GoString) : Ready (c.trySend v).2 ∧ (c.trySend v).2.buf ≠ [] := by
  unfold Chan.trySend
  rw [if_neg (by simpa using h.2)]
  split
  · exact ⟨h, by simp⟩
  next hfull => exact ⟨h, fun hnil : c.buf = [] => hfull (by simp [h.1, hnil])⟩

lemma Ready.recv {r : Option (List GoString) × Chan (List GoString)} (h : Ready c) (hr : c.recv = some r) :
    Ready r.2 := by
  unfold Chan.recv at hr
  split at hr
  · cases hr
    exact h
  · simp [h.2] at hr

lemma Inv.served_iff (h : s.Inv) : s.Served ↔ s.Own := by
  refine ⟨fun hs ch nonce hw => (hs ch nonce hw).1, fun ho ch nonce hw => ⟨ho ch nonce hw, fun addresses => ?_⟩⟩
  have hsend : ((s.session.chans ch).trySend addresses).2.buf = [addresses] := by
    simp [Chan.trySend, (h.chans ch).1, (h.chans ch).2, hw.2]
  simp only [Session.deliverPending, h.unclosed, ho ch nonce hw, Bool.false_eq_true, if_false, update_self]
  exact ⟨trivial, hsend, fun other hne => update_of_ne hne ..⟩

/-- An attempt that is waiting after another one has gone on was so before. -/
lemma waiting_of_move {p : Session} {ch k : ℕ} {nonce : GoString} (hstage : a.stage ≠ .waiting)
    (hp : ∀ k ≠ ch, p.chans k = s.session.chans k) (h : (s.move ch a p).Waiting k nonce) : s.Waiting k nonce := by
  obtain ⟨ha, hbuf⟩ := h
  simp only [move, update_apply] at ha
  split at ha
  · cases ha
    contradiction
  next hne => exact ⟨ha, hp k hne ▸ hbuf⟩

lemma Inv.step (h : s.Inv) (ht : s.step e = some t) : t.Inv ∧ (s.Own → (t.Own ↔ s.Alone e)) := by
  cases e with
  | connect nonce =>
    simp only [Attempts.step, Session.registerPending] at ht
    split_ifs at ht with hfull hsome <;> cases ht
    · exact ⟨h, fun ho => iff_of_true ho trivial⟩
    · exact ⟨h, fun ho => iff_of_true ho trivial⟩
    · refine ⟨⟨h.unclosed, h.ready_update ⟨rfl, rfl⟩ _⟩, fun ho => iff_of_true (fun k nonce' hw => ?_) trivial⟩
      rcases eq_or_ne k s.session.made with rfl | hne
      · cases (update_self ..).symm.trans hw.1
        exact AList.lookup_insert _
      · have hold := ho k nonce' ⟨(update_of_ne hne ..).symm.trans hw.1, by simpa [move, hne] using hw.2⟩
        refine (AList.lookup_insert_ne ?_).trans hold
        rintro rfl
        simp [hold] at hsome
  | respond nonce addresses =>
    cases ht
    unfold Session.deliverPending
    split
    · exact ⟨h, fun ho => iff_of_true ho trivial⟩
    · split
      · exact ⟨h, fun ho => iff_of_true ho trivial⟩
      next ch hch =>
        have hsent := (h.chans ch).trySend addresses
        refine ⟨⟨h.unclosed, h.ready_update hsent.1 ch⟩, fun ho => iff_of_true (fun k nonce hw => ?_) trivial⟩
        have hne : k ≠ ch := by
          rintro rfl
          exact hsent.2 (by simpa using hw.2)
        have hold := ho k nonce ⟨hw.1, by simpa [hne] using hw.2⟩
        refine (AList.lookup_erase_ne fun heq => hne ?_).trans hold
        exact Option.some.inj (hold.symm.trans (heq ▸ hch))
  | receive ch =>
    simp only [Attempts.step, Option.bind_eq_bind, Option.bind_eq_some_iff] at ht
    obtain ⟨a, -, r, hr, ht⟩ := ht
    cases ht
    refine ⟨⟨h.unclosed, h.ready_update ((h.chans ch).recv hr) _⟩,
      fun ho => iff_of_true (fun k nonce hw => ho k nonce ?_) trivial⟩
    exact waiting_of_move (by simp) (fun k hk => update_of_ne hk ..) hw
  | giveUp ch =>
    simp only [Attempts.step, Option.bind_eq_bind, Option.bind_eq_some_iff] at ht
    obtain ⟨a, -, ht⟩ := ht
    cases ht
    refine ⟨⟨h.unclosed, h.chans⟩, fun ho => iff_of_true (fun k nonce hw => ho k nonce ?_) trivial⟩
    exact waiting_of_move (by simp) (fun _ _ => rfl) hw
  | cancel ch =>
    simp only [Attempts.step, Option.bind_eq_bind, Option.bind_eq_some_iff, Option.filter_eq_some_iff] at ht
    obtain ⟨a, ⟨ha, hstage⟩, ht⟩ := ht
    cases ht
    refine ⟨⟨h.unclosed, h.chans⟩, fun ho => ⟨fun ht a' ha' other hw => ?_, fun hC k nonce hw => ?_⟩⟩
    · cases ha.symm.trans ha'
      have hne : other ≠ ch := by
        rintro rfl
        rw [Option.some.inj (ha.symm.trans hw.1)] at hstage
        contradiction
      have hown := ht other a.nonce ⟨(update_of_ne hne ..).trans hw.1, hw.2⟩
      cases (AList.lookup_erase a.nonce _).symm.trans hown
    · have hs := waiting_of_move (by simp) (fun _ _ => rfl) hw
      refine (AList.lookup_erase_ne ?_).trans (ho k nonce hs)
      rintro rfl
      exact hC a ha k hs

/-- **The attempts that are served.**  In every interleaving on a new session, each waiting attempt has the entry of its
nonce and gets the response for it, exactly if no attempt returns while another one waits with its nonce. -/
theorem attempts_served_iff (user : User) (realm : GoString) (addresses : List GoString) (random : List Byte) (now : ℤ)
    (es : List AttemptEvent) : let new := { session := Server.newSession user realm addresses random now }
    VisitAll step Served new es ↔ StepAll step Alone new es := by
  refine visitAll_iff_stepAll (fun _ _ _ ht (h : Inv _) => (h.step ht).1) (fun s e t ht h hs => ?_) es ?_ ?_
  · rw [((h.step ht).1).served_iff]
    exact (h.step ht).2 (h.served_iff.1 hs)
  · exact ⟨rfl, fun _ => ⟨rfl, rfl⟩⟩
  · exact fun ch nonce hw => nomatch hw.1

/-- An attempt is answered, another one takes up its nonce, and the first one returns: nobody is told of a response to
the second. -/
theorem second_attempt_unserved : let nonce := List.replicate 32 0x30
    ∃ s, runOf step { session := Server.newSession ⟨[], 1⟩ (ascii "r") [ascii "1.2.3.4:5"] [] 0 }
      [.connect nonce, .respond nonce [ascii "1.2.3.4:5"], .receive 0, .connect nonce, .cancel 0] = some s ∧
    s.Waiting 1 nonce ∧ (s.session.deliverPending nonce [ascii "1.2.3.4:5"]).1 = false :=
  ⟨_, rfl, ⟨rfl, rfl⟩, rfl⟩

end Attempts

end SingBox.Hysteria2.Realm
