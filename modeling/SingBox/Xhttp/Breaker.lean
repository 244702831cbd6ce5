import SingBox.Xhttp.ConnParts

/-!
# Failed exchanges and the breaker of XMUX

The breaker counts failures from two places: `roundTrip` notes a request that fails for a remote reason,
and `noteRead` notes every `Read` that ends with an error.  A `Wire` says what the breaker sees of a kind of
connections; `Wire.metered` runs the connection together with its requests and a ledger of the exchanges that
have failed.  In runs where no `Read` that is going to be noted follows one that the body failed, the breaker
counts no more failures than the ledger has (`Wire.visitAll_failures`).
-/

namespace SingBox.Xhttp

open SingBox.Lib Multiset

/-- What `RoundTrip` returns: an error, where `done` says that the request's context has ended, or a response. -/
inductive RoundTrip where
  | error (err : ConnError) (done : Bool)
  | response (status : ℕ) (statusText : String) (body : Body)
  deriving DecidableEq, Repr

/-- `xmuxClient.roundTrip` notes a failure. -/
def RoundTrip.remote (r : RoundTrip) (cancelled : Bool) : Bool :=
  match r with
  | .error _ done => !(done || cancelled)
  | .response status _ _ => status ≠ 200

/-- The exchanges that have failed for a remote reason, and whether a response body is among them. -/
structure Ledger where
  failed : ℕ := 0
  bodyFailed : Bool := false
  deriving DecidableEq, Repr

/-- An error that `noteRead` takes for a failure. -/
def isFailure (err : Option ConnError) : Bool := err ≠ none ∧ err ≠ some .eof

/-- A kind of connections, as the breaker sees it; `ε` names the requests made outside of the program. -/
structure Wire (σ ι κ ε : Type) where
  program : Program σ ι ConnInput κ
  xmux : σ → XmuxRelease
  setXmux : σ → XmuxRelease → σ
  /-- A `Read` that the body answers now with an error is going to note it. -/
  heard : σ → Bool
  cancelled : σ → Bool
  closed : σ → List Body
  /-- What follows a request. -/
  next : ε → RoundTrip → Option κ
  /-- The section waits for the body. -/
  body : ι → Option Body
  /-- The section has an error that its `Read` is going to note. -/
  carries : ι → σ → Bool
  /-- The section is a request that fails for a remote reason. -/
  noted : ι → ConnInput → σ → Bool
  /-- The section takes over an error that the connection has ended with. -/
  replays : ι → σ → Bool

namespace Wire

variable {σ ι κ ε : Type} (W : Wire σ ι κ ε)

/-- The body has not been closed, and its request not been cancelled, from this side. -/
def intact (c : σ) (b : Body) : Bool := !(W.closed c).contains b && !W.cancelled c

def record (o : ι) (x : ConnInput) (c : σ) (l : Ledger) : Ledger :=
  if W.noted o x c then { l with failed := l.failed + 1 }
  else match W.body o with
    | some b => if isFailure x.err ∧ W.intact c b ∧ ¬ l.bodyFailed then ⟨l.failed + 1, true⟩ else l
    | none => l

/-- The state after a request: `roundTrip` has noted its failure. -/
def noteRoundTrip (r : RoundTrip) (c : σ) : σ :=
  if r.remote (W.cancelled c) then W.setXmux c (W.xmux c).noteFailure else c

/-- **The connection with its requests and the ledger of what has failed.** -/
def metered : Program (σ × Ledger) ι ConnInput (κ ⊕ ε × RoundTrip) where
  entry
    | .inl k, (c, l) => (((W.program.entry k c).1, l), (W.program.entry k c).2)
    | .inr (e, r), (c, l) =>
      let l := if r.remote (W.cancelled c) then { l with failed := l.failed + 1 } else l
      match W.next e r with
      | some k => (((W.program.entry k (W.noteRoundTrip r c)).1, l), (W.program.entry k (W.noteRoundTrip r c)).2)
      | none => ((W.noteRoundTrip r c, l), [])
  exec o x s := (W.program.exec o x s.1).map fun p => ((p.1, W.record o x s.1 s.2), p.2)

/-- If it is going to be noted, a `Read` that gets an error from the body is the first sign of its failure, and no
`Read` takes over an error. -/
def Fresh (o : ι) (x : ConnInput) (s : σ × Ledger) : Prop :=
  W.heard s.1 = true → (∀ b ∈ W.body o, isFailure x.err = true → W.intact s.1 b = true ∧ s.2.bodyFailed = false) ∧
    W.replays o s.1 = false

instance (o : ι) (x : ConnInput) (s : σ × Ledger) : Decidable (W.Fresh o x s) :=
  inferInstanceAs (Decidable (_ → _))

def FreshStep (s : Config (σ × Ledger) ι) : Event ConnInput (κ ⊕ ε × RoundTrip) → Prop
  | .call _ => True
  | .sched i x => ∀ o ∈ s.next i, W.Fresh o x s.shared

instance (s : Config (σ × Ledger) ι) : ∀ e, Decidable (W.FreshStep s e)
  | .call _ => isTrue trivial
  | .sched i x => inferInstanceAs (Decidable (∀ o ∈ s.next i, W.Fresh o x s.shared))

def failures (c : σ) : ℕ := (W.xmux c).failures

/-- The failures that are going to be noted. -/
def due (c : σ) (m : Multiset ι) : ℕ := m.countP (W.carries · c)

/-- A section is answered by a failing body. -/
def fails (o : ι) (x : ConnInput) (c : σ) : Bool := (W.body o).isSome && isFailure x.err && W.heard c

/-- What a section can do to the breaker. -/
inductive Kind (o : ι) (x : ConnInput) (c c' : σ) (new : List ι) : Prop where
  | quiet (hf : W.failures c' = W.failures c) (hnew : ∀ p ∈ new, W.carries p c' = false)
  /-- A `Read` goes on with an error that it had or that the body has answered with. -/
  | pass (hf : W.failures c' = W.failures c) (p : ι) (hnew : new = [p])
      (hp : W.carries p c' = true → W.carries o c = true ∨ W.fails o x c = true)
  /-- A `Read` notes how it ended. -/
  | note (hf : W.failures c' = W.failures c + if W.carries o c then 1 else 0) (hnew : new = [])
  | request (hn : W.noted o x c = true) (hf : W.failures c' = W.failures c + 1)
      (hnew : ∀ p ∈ new, W.carries p c' = false)

/-- What is not going to be noted in the first state is not in the second one. -/
def Quieter (c c' : σ) : Prop := ∀ o, W.carries o c' = true → W.carries o c = true

structure Lawful : Prop where
  setXmux : ∀ c r, W.xmux (W.setXmux c r) = r ∧ ∀ o, W.carries o (W.setXmux c r) = W.carries o c
  entry : ∀ k c, W.failures (W.program.entry k c).1 = W.failures c ∧ W.Quieter c (W.program.entry k c).1 ∧
    ∀ o ∈ (W.program.entry k c).2, W.carries o (W.program.entry k c).1 = false
  exec : ∀ o x c c' new, W.program.exec o x c = some (c', new) → (W.heard c = true → W.replays o c = false) →
    W.Quieter c c' ∧ W.Kind o x c c' new
  noted : ∀ o x c, W.noted o x c = true → W.body o = none

def Inv (s : σ × Ledger) (m : Multiset ι) : Prop := W.failures s.1 + W.due s.1 m ≤ s.2.failed

variable {W} {new : List ι}

lemma quiet_of_all {c : σ} (h : (new.all fun p => !W.carries p c) = true) : ∀ p ∈ new, W.carries p c = false := by
  simpa using h

variable {x : ConnInput}

lemma Kind.still {o : ι} {c c' : σ} (hf : W.failures c' = W.failures c)
    (h : (new.all fun p => !W.carries p c') = true) : W.Kind o x c c' new :=
  .quiet hf (quiet_of_all h)

lemma due_add (c : σ) (m m' : Multiset ι) : W.due c (m + m') = W.due c m + W.due c m' := countP_add _ _ _

lemma Quieter.due_le {c c' : σ} (h : W.Quieter c c') (m : Multiset ι) : W.due c' m ≤ W.due c m := by
  unfold due
  rw [countP_eq_card_filter, countP_eq_card_filter]
  exact card_le_card (monotone_filter_right m h)

lemma due_eq_zero {c : σ} (h : ∀ o ∈ new, W.carries o c = false) : W.due c ↑new = 0 := by
  unfold due
  rw [countP_eq_zero]
  intro o ho
  simp [h o ho]

lemma due_singleton (c : σ) (o : ι) : W.due c {o} = if W.carries o c then 1 else 0 := by
  unfold due
  rw [← cons_zero, countP_cons, countP_zero, Nat.zero_add]

/-- What is noted and what is going to be noted grows only by a request that fails or a body that fails. -/
lemma Kind.failures_le {o : ι} {c c' : σ} (h : W.Kind o x c c' new) :
    W.failures c' + W.due c' ↑new ≤ W.failures c + W.due c {o} +
      ((if W.noted o x c then 1 else 0) + if W.fails o x c then 1 else 0) := by
  cases h with
  | quiet hf hnew =>
    rw [due_eq_zero hnew]
    omega
  | pass hf p hnew hp =>
    subst hnew
    rw [coe_singleton, due_singleton, due_singleton]
    by_cases hc : W.carries p c' = true
    · rcases hp hc with ho | hfails
      · rw [if_pos hc, if_pos ho]
        omega
      · rw [if_pos hc, if_pos hfails]
        omega
    · rw [if_neg hc]
      omega
  | note hf hnew =>
    subst hnew
    rw [hf, due_eq_zero (by simp), due_singleton]
    omega
  | request hn hf hnew =>
    rw [due_eq_zero hnew, if_pos hn]
    omega

lemma le_record (hW : W.Lawful) {o : ι} {s : σ × Ledger} (h : W.Fresh o x s) :
    s.2.failed + ((if W.noted o x s.1 then 1 else 0) + if W.fails o x s.1 then 1 else 0) ≤
      (W.record o x s.1 s.2).failed := by
  unfold record
  by_cases hn : W.noted o x s.1 = true
  · simp [hn, fails, hW.noted o x s.1 hn]
  · rw [if_neg hn, if_neg hn]
    by_cases hf : W.fails o x s.1 = true
    · simp only [fails, Bool.and_eq_true, Option.isSome_iff_exists] at hf
      obtain ⟨⟨⟨b, hb⟩, herr⟩, hheard⟩ := hf
      obtain ⟨hi, hl⟩ := (h hheard).1 b hb herr
      simp only [hb, herr, hi, hl]
      split <;> simp
    · rw [if_neg hf]
      split
      · split <;> simp
      · simp

lemma inv_exec (hW : W.Lawful) {o : ι} {s s' : σ × Ledger} {m : Multiset ι}
    (h : W.metered.exec o x s = some (s', new)) (hfresh : W.Fresh o x s) (hs : W.Inv s (o ::ₘ m)) :
    W.Inv s' (↑new + m) := by
  obtain ⟨⟨c', new'⟩, hx, he⟩ := Option.map_eq_some_iff.1 h
  cases he
  obtain ⟨hq, hk⟩ := hW.exec o x _ _ _ hx fun h => (hfresh h).2
  have hexec := hk.failures_le
  have hrest := hq.due_le m
  have hrec := le_record hW hfresh
  unfold Inv at hs ⊢
  rw [← singleton_add, due_add] at hs
  rw [due_add]
  dsimp only
  omega

lemma inv_entry (hW : W.Lawful) (k : κ ⊕ ε × RoundTrip) {s : σ × Ledger} {m : Multiset ι} (hs : W.Inv s m) :
    W.Inv (W.metered.entry k s).1 (↑(W.metered.entry k s).2 + m) := by
  rcases s with ⟨c, l⟩
  have hentry : ∀ (k : κ) (c' : σ) (n : ℕ), W.due c' m = W.due c m → W.failures c' + W.due c m ≤ n →
      W.failures (W.program.entry k c').1 + W.due (W.program.entry k c').1 (↑(W.program.entry k c').2 + m) ≤ n := by
    intro k c' n hd hn
    obtain ⟨hf, hq, hc⟩ := hW.entry k c'
    have := hq.due_le m
    rw [due_add, due_eq_zero hc]
    omega
  cases k with
  | inl k => exact hentry k c _ rfl hs
  | inr p =>
    rcases p with ⟨e, r⟩
    -- the request adds to both sides or to none
    have hnote : W.due (W.noteRoundTrip r c) m = W.due c m ∧ W.failures (W.noteRoundTrip r c) + W.due c m ≤
        (if r.remote (W.cancelled c) then { l with failed := l.failed + 1 } else l).failed := by
      unfold noteRoundTrip
      unfold Inv at hs
      dsimp only at hs
      split
      · obtain ⟨hx, hc⟩ := hW.setXmux c (W.xmux c).noteFailure
        refine ⟨by simp only [due, hc], ?_⟩
        unfold failures at hs ⊢
        rw [hx]
        simp only [XmuxRelease.noteFailure]
        omega
      · exact ⟨rfl, hs⟩
    simp only [metered]
    split
    · exact hentry _ _ _ hnote.1 hnote.2
    · show W.failures (W.noteRoundTrip r c) + W.due (W.noteRoundTrip r c) (↑([] : List ι) + m) ≤ _
      rw [pending_nil_add, hnote.1]
      exact hnote.2

/-- **In a run whose steps are fresh, the breaker counts no more than what has failed.** -/
theorem visitAll_failures (hW : W.Lawful) {c : σ} (hc : W.failures c = 0)
    (es : List (Event ConnInput (κ ⊕ ε × RoundTrip)))
    (h : StepAll W.metered.step W.FreshStep (Config.init (c, {})) es) :
    VisitAll W.metered.step (fun s => W.failures s.shared.1 ≤ s.shared.2.failed) (Config.init (c, {})) es := by
  have hinit : W.Inv (Config.init (c, ({} : Ledger)) : Config (σ × Ledger) ι).shared 0 := by
    have hd : W.due c ↑([] : List ι) = 0 := due_eq_zero (by simp)
    exact Nat.le_of_eq (by rw [Config.shared_init, hc, ← coe_nil, hd])
  have hstep : ∀ (s : Config (σ × Ledger) ι) (e : Event ConnInput (κ ⊕ ε × RoundTrip)) t,
      W.metered.step s e = some t → W.FreshStep s e → W.Inv s.shared s.pending → W.Inv t.shared t.pending := by
    intro s e t he hf hs
    rcases Program.step_cases he with ⟨k, -, h1, h2⟩ | ⟨i, x, o, s', new, m, rfl, ho, hx, rfl, h1, h2⟩
    · rw [h1, h2]
      exact inv_entry hW k hs
    · rw [h2]
      rw [h1] at hs
      exact inv_exec hW hx (hf o ho) hs
  refine (visitAll_of_stepAll (I := fun s => W.Inv s.shared s.pending) hstep es hinit h).imp fun s hs => ?_
  exact (Nat.le_add_right _ _).trans hs

end Wire

end SingBox.Xhttp
