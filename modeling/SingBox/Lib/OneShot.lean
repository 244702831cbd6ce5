import Mathlib.Data.Multiset.Bind
import SingBox.Lib.Goroutine

/-!
# Resources that are bound once and end once

An object that many goroutines use and that ends for good: a body can be bound to it at most once, it
becomes terminal with one error, and whoever makes it terminal has to close the bound body and to
release what the object holds.

A state is a `OneShot` and the multiset of the *duties* the goroutines have taken on: bodies offered
but not looked at yet, bodies to be closed, releases, and reads under way.  `OneShot.Step` lists what
can happen, `OneShot.Inv` is the invariant.

`Program.Simulates` says that the machine simulates a program of goroutines, where each atomic section
that is left stands for some duties; then the program's runs inherit these facts.
-/

namespace SingBox.Lib

open Multiset

/-- What a goroutine has still to do.  A read carries the terminal error it found when it started. -/
inductive Duty (β ε : Type) where
  | offer (b : β)
  | close (b : β)
  | release
  /-- A read that has not looked at the terminal error yet. -/
  | read (start : Option ε)
  /-- A read that has found none. -/
  | past (start : Option ε)

/-- The object; `created` counts how often it was announced, `reads` the results of the reads, each with
the terminal error at its start. -/
structure OneShot (β ε ρ : Type) where
  ready : Bool := false
  terminal : Option ε := none
  bound : Option β := none
  created : ℕ := 0
  offered : List β := []
  closed : List β := []
  released : ℕ := 0
  reads : List (Option ε × ρ) := []

namespace OneShot

variable {β ε ρ : Type}

def finish (c : OneShot β ε ρ) (e : ε) : OneShot β ε ρ :=
  { c with terminal := some e, ready := true, created := if c.ready then c.created else c.created + 1 }

/-- The duties of the goroutine that made the object terminal. -/
def finishDuties (c : OneShot β ε ρ) : List (Duty β ε) := c.bound.toList.map .close ++ [.release]

/-- What can happen; `result e` is what a read returns that finds the terminal error `e`. -/
inductive Step (result : ε → ρ) : OneShot β ε ρ × Multiset (Duty β ε) → OneShot β ε ρ × Multiset (Duty β ε) → Prop
  | offer (c m b) : Step result (c, m) ({ c with offered := b :: c.offered }, .offer b ::ₘ m)
  | bind (c m b) (hr : c.ready = false) (ht : c.terminal = none) :
      Step result (c, .offer b ::ₘ m) ({ c with ready := true, bound := some b, created := c.created + 1 }, m)
  | reject (c m b) : Step result (c, .offer b ::ₘ m) (c, .close b ::ₘ m)
  | takeClose (c m b) : Step result (c, m) (c, .close b ::ₘ m)
  | close (c m b) : Step result (c, .close b ::ₘ m) ({ c with closed := b :: c.closed }, m)
  | finish (c m e) (ht : c.terminal = none) : Step result (c, m) (c.finish e, ↑c.finishDuties + m)
  | takeRelease (c m) (ht : c.terminal.isSome) : Step result (c, m) (c, .release ::ₘ m)
  | release (c m) : Step result (c, .release ::ₘ m) ({ c with released := max c.released 1 }, m)
  | startRead (c m) : Step result (c, m) (c, .read c.terminal ::ₘ m)
  | readEnd (c m start e) (ht : c.terminal = some e) :
      Step result (c, .read start ::ₘ m) ({ c with reads := (start, result e) :: c.reads }, m)
  | readOn (c m start) (ht : c.terminal = none) : Step result (c, .read start ::ₘ m) (c, .past start ::ₘ m)
  | readReturn (c m start r) : Step result (c, .past start ::ₘ m) ({ c with reads := (start, r) :: c.reads }, m)

abbrev Steps (result : ε → ρ) := Relation.ReflTransGen (Step (β := β) result)

structure Inv (result : ε → ρ) (p : OneShot β ε ρ × Multiset (Duty β ε)) : Prop where
  created : p.1.created = if p.1.ready then 1 else 0
  bound : p.1.bound.isSome → p.1.ready = true
  terminal : p.1.terminal.isSome → p.1.ready = true
  /-- A body offered is closed, or someone will close it, or it is bound and the object is alive. -/
  bodies : ∀ b ∈ p.1.offered, b ∈ p.1.closed ∨ .close b ∈ p.2 ∨ .offer b ∈ p.2 ∨
    (p.1.bound = some b ∧ p.1.terminal = none)
  released : p.1.released ≤ 1
  release : p.1.terminal.isSome ↔ p.1.released = 1 ∨ .release ∈ p.2
  read : ∀ e, .read (some e) ∈ p.2 → p.1.terminal = some e
  past : ∀ start, .past start ∈ p.2 → start = none
  reads : ∀ e r, (some e, r) ∈ p.1.reads → r = result e

variable {result : ε → ρ} {p q : OneShot β ε ρ × Multiset (Duty β ε)}

lemma inv_init : Inv result (({} : OneShot β ε ρ), 0) where
  created := rfl
  bound h := absurd h (by simp)
  terminal h := absurd h (by simp)
  bodies b hb := absurd hb (by simp)
  released := Nat.zero_le _
  release := by simp
  read e h := absurd h (by simp)
  past start h := absurd h (by simp)
  reads e r h := absurd h (by simp)

variable {c : OneShot β ε ρ} {m : Multiset (Duty β ε)} {d : Duty β ε}

lemma Inv.take (h : Inv result (c, m)) (hrelease : d = .release → c.terminal.isSome)
    (hread : ∀ e, d = .read (some e) → c.terminal = some e) (hpast : ∀ start, d = .past start → start = none) :
    Inv result (c, d ::ₘ m) := by
  refine ⟨h.created, h.bound, h.terminal, fun b hb => ?_, h.released, ?_, fun e he => ?_, fun start hs => ?_, h.reads⟩
  · exact (h.bodies b hb).imp_right (Or.imp mem_cons_of_mem (Or.imp_left mem_cons_of_mem))
  · refine h.release.trans ⟨Or.imp_right mem_cons_of_mem, ?_⟩
    rintro (hr | hr)
    · exact .inl hr
    · rcases mem_cons.1 hr with hr | hr
      · exact h.release.1 (hrelease hr.symm)
      · exact .inr hr
  · rcases mem_cons.1 he with he | he
    · exact hread e he.symm
    · exact h.read e he
  · rcases mem_cons.1 hs with hs | hs
    · exact hpast start hs.symm
    · exact h.past start hs

lemma Inv.drop (h : Inv result (c, d ::ₘ m))
    (hbody : ∀ b ∈ c.offered, d = .close b ∨ d = .offer b → b ∈ c.closed ∨ .close b ∈ m ∨
      (c.bound = some b ∧ c.terminal = none)) (hrelease : d = .release → c.released = 1) : Inv result (c, m) := by
  refine ⟨h.created, h.bound, h.terminal, fun b hb => ?_, h.released, ?_,
    fun e he => h.read e (mem_cons_of_mem he), fun start hs => h.past start (mem_cons_of_mem hs),
    h.reads⟩
  · have hdone : d = .close b ∨ d = .offer b → b ∈ c.closed ∨ .close b ∈ m ∨ .offer b ∈ m ∨
        (c.bound = some b ∧ c.terminal = none) := fun hd => (hbody b hb hd).imp_right (Or.imp_right .inr)
    rcases h.bodies b hb with hc | hc | hc | hc
    · exact .inl hc
    · rcases mem_cons.1 hc with hd | hc
      · exact hdone (.inl hd.symm)
      · exact .inr (.inl hc)
    · rcases mem_cons.1 hc with hd | hc
      · exact hdone (.inr hd.symm)
      · exact .inr (.inr (.inl hc))
    · exact .inr (.inr (.inr hc))
  · refine h.release.trans ⟨?_, Or.imp_right mem_cons_of_mem⟩
    rintro (hr | hr)
    · exact .inl hr
    · rcases mem_cons.1 hr with hr | hr
      · exact .inl (hrelease hr.symm)
      · exact .inr hr

lemma Inv.bind {b : β} (h : Inv result (c, .offer b ::ₘ m)) (hr : c.ready = false) (ht : c.terminal = none) :
    Inv result ({ c with ready := true, bound := some b, created := c.created + 1 }, m) := by
  have hcreated := h.created
  have hbound := h.bound
  simp only [hr, Bool.false_eq_true, imp_false, Option.isSome_iff_ne_none, not_not] at hcreated hbound
  have hi : Inv result ({ c with ready := true, bound := some b, created := c.created + 1 }, .offer b ::ₘ m) := by
    refine ⟨?_, fun _ => rfl, fun _ => rfl, fun a ha => ?_, h.released, h.release, h.read, h.past, h.reads⟩
    · simp [hcreated]
    · rcases h.bodies a ha with hc | hc | hc | ⟨hb, -⟩
      · exact .inl hc
      · exact .inr (.inl hc)
      · exact .inr (.inr (.inl hc))
      · rw [hbound] at hb
        cases hb
  refine hi.drop (fun a _ hd => ?_) nofun
  rcases hd with hd | hd
  · cases hd
  · cases hd
    exact .inr (.inr ⟨rfl, ht⟩)

lemma Inv.finish {e : ε} (h : Inv result (c, m)) (ht : c.terminal = none) :
    Inv result (c.finish e, ↑c.finishDuties + m) := by
  have hmem : ∀ d, d ∈ (↑c.finishDuties + m : Multiset (Duty β ε)) ↔
      (∃ b, c.bound = some b ∧ d = .close b) ∨ d = .release ∨ d ∈ m := by
    intro d
    simp only [finishDuties, mem_add, mem_coe, List.mem_append, List.mem_map,
      Option.mem_toList, List.mem_singleton, or_assoc, eq_comm]
  refine ⟨?_, fun _ => rfl, fun _ => rfl, fun a ha => ?_, h.released, ?_, fun e' he => ?_, fun start hs => ?_, h.reads⟩
  · have hcreated := h.created
    dsimp only [OneShot.finish] at hcreated ⊢
    rw [hcreated]
    cases c.ready <;> rfl
  · simp only [hmem, reduceCtorEq, false_or]
    rcases h.bodies a ha with hc | hc | hc | ⟨hc, -⟩
    · exact .inl hc
    · exact .inr (.inl (.inr hc))
    · exact .inr (.inr (.inl (.inr hc)))
    · exact .inr (.inl (.inl ⟨a, hc, rfl⟩))
  · simp [hmem, OneShot.finish]
  · have hm : Duty.read (some e') ∈ m := by simpa [hmem] using he
    have hsome : c.terminal = some e' := h.read e' hm
    rw [ht] at hsome
    cases hsome
  · exact h.past start (by simpa [hmem] using hs)

lemma Inv.returned {start : Option ε} {r : ρ} (h : Inv result (c, m)) (hr : ∀ e, start = some e → r = result e) :
    Inv result ({ c with reads := (start, r) :: c.reads }, m) := by
  refine ⟨h.created, h.bound, h.terminal, h.bodies, h.released, h.release, h.read, h.past, fun e r' he => ?_⟩
  rcases List.mem_cons.1 he with he | he
  · cases he
    exact hr e rfl
  · exact h.reads e r' he

theorem Inv.step (h : Inv result p) (hs : Step result p q) : Inv result q := by
  cases hs with
  | offer c m b =>
    have ht := h.take (d := .offer b) nofun nofun nofun
    refine ⟨ht.created, ht.bound, ht.terminal, fun a ha => ?_, ht.released, ht.release, ht.read, ht.past, ht.reads⟩
    rcases List.mem_cons.1 ha with rfl | ha
    · exact .inr (.inr (.inl (mem_cons_self _ _)))
    · exact ht.bodies a ha
  | bind c m b hr ht => exact h.bind hr ht
  | reject c m b =>
    -- the duty to close the body comes before the offer is dropped
    have ht := h.take (d := .close b) nofun nofun nofun
    rw [cons_swap] at ht
    refine ht.drop (fun a _ hd => ?_) nofun
    rcases hd with hd | hd
    · cases hd
    · cases hd
      exact .inr (.inl (mem_cons_self _ _))
  | takeClose c m b => exact h.take nofun nofun nofun
  | close c m b =>
    have hc : Inv result ({ c with closed := b :: c.closed }, .close b ::ₘ m) :=
      ⟨h.created, h.bound, h.terminal, fun a ha => (h.bodies a ha).imp_left (List.mem_cons_of_mem b), h.released,
        h.release, h.read, h.past, h.reads⟩
    refine hc.drop (fun a _ hd => ?_) nofun
    rcases hd with hd | hd
    · cases hd
      exact .inl List.mem_cons_self
    · cases hd
  | finish c m e ht => exact h.finish ht
  | takeRelease c m ht => exact h.take (fun _ => ht) nofun nofun
  | release c m =>
    have hle : c.released ≤ 1 := h.released
    have hmax : max c.released 1 = 1 := by omega
    have hterminal : c.terminal.isSome := h.release.2 (.inr (mem_cons_self _ _))
    have hr : Inv result ({ c with released := max c.released 1 }, .release ::ₘ m) :=
      ⟨h.created, h.bound, h.terminal, h.bodies, hmax.le, ⟨fun _ => .inl hmax, fun _ => hterminal⟩, h.read, h.past,
        h.reads⟩
    refine hr.drop (fun a _ hd => ?_) fun _ => hmax
    rcases hd with hd | hd <;> cases hd
  | startRead c m =>
    exact h.take nofun (fun e => Duty.read.inj) nofun
  | readEnd c m start e ht =>
    have hstart : ∀ e', start = some e' → result e = result e' := by
      rintro e' rfl
      have he : c.terminal = some e' := h.read e' (mem_cons_self _ _)
      rw [Option.some.inj (ht.symm.trans he)]
    have hd := h.drop (fun a _ hd => by rcases hd with hd | hd <;> cases hd) nofun
    exact hd.returned hstart
  | readOn c m start ht =>
    have hstart : start = none := by
      cases start with
      | none => rfl
      | some e =>
        have he : c.terminal = some e := h.read e (mem_cons_self _ _)
        rw [ht] at he
        cases he
    have hd := h.drop (fun a _ hd => by rcases hd with hd | hd <;> cases hd) nofun
    exact hd.take nofun nofun fun s hs => (Duty.past.inj hs).symm.trans hstart
  | readReturn c m start r =>
    have hstart : start = none := h.past start (mem_cons_self _ _)
    have hd := h.drop (fun a _ hd => by rcases hd with hd | hd <;> cases hd) nofun
    refine hd.returned fun e he => ?_
    rw [hstart] at he
    cases he

lemma Inv.steps (h : Inv result p) (hs : Steps result p q) : Inv result q := by
  induction hs with
  | refl => exact h
  | tail _ hstep ih => exact ih.step hstep

lemma Steps.terminal (hs : Steps result p q) {e : ε} (h : p.1.terminal = some e) : q.1.terminal = some e := by
  induction hs with
  | refl => exact h
  | tail _ hstep ih =>
    cases hstep with
    | finish c m e' ht => simp_all
    | _ => exact ih

lemma Inv.created_pos (h : Inv result p) (ht : p.1.terminal.isSome) : 0 < p.1.created := by
  rw [h.created, if_pos (h.terminal ht)]
  exact Nat.one_pos

/-- **With no duty left, a terminal object is released and its bodies are closed.** -/
theorem Inv.settled {c : OneShot β ε ρ} (h : Inv result (c, 0)) (ht : c.terminal.isSome) :
    c.released = 1 ∧ ∀ b ∈ c.offered, b ∈ c.closed := by
  refine ⟨by simpa using h.release.1 ht, fun b hb => ?_⟩
  rcases h.bodies b hb with hc | hc | hc | ⟨-, hn⟩
  · exact hc
  · simp at hc
  · simp at hc
  · simp_all

end OneShot

/-! ### Programs that the machine simulates -/

section Simulation

open OneShot

variable {σ ι χ κ β ε ρ : Type}

def duties (duty : ι → Multiset (Duty β ε)) (m : Multiset ι) : Multiset (Duty β ε) := m.bind duty

variable {duty : ι → Multiset (Duty β ε)}

@[simp] lemma duties_zero : duties duty 0 = 0 := zero_bind _

@[simp] lemma duties_cons (o : ι) (m : Multiset ι) : duties duty (o ::ₘ m) = duty o + duties duty m :=
  cons_bind _ _ _

@[simp] lemma duties_add (m n : Multiset ι) : duties duty (m + n) = duties duty m + duties duty n := add_bind _ _ _

lemma duties_eq_zero {l : List ι} (h : ∀ o ∈ l, duty o = 0) : duties duty (↑l : Multiset ι) = 0 := by
  induction l with
  | nil => exact duties_zero
  | cons o l ih =>
    rw [← cons_coe, duties_cons, h o (by simp), zero_add]
    exact ih fun a ha => h a (List.mem_cons_of_mem _ ha)

/-- Each call and each section of the program is matched by steps of the machine, whatever the other
goroutines have still to do. -/
structure Program.Simulates (P : Program σ ι χ κ) (core : σ → OneShot β ε ρ)
    (duty : ι → Multiset (Duty β ε)) (result : ε → ρ) : Prop where
  call : ∀ k s m, Steps result (core s, duties duty m) (core (P.entry k s).1, duties duty (↑(P.entry k s).2 + m))
  exec : ∀ o x s s' new m, P.exec o x s = some (s', new) → Inv result (core s, duties duty (o ::ₘ m)) →
    Steps result (core s, duties duty (o ::ₘ m)) (core s', duties duty (↑new + m))

/-- A section is matched by steps of the machine. -/
def Program.SimulatesAt (P : Program σ ι χ κ) (core : σ → OneShot β ε ρ) (duty : ι → Multiset (Duty β ε))
    (result : ε → ρ) (o : ι) : Prop :=
  ∀ ⦃x s s' new m⦄, P.exec o x s = some (s', new) → Inv result (core s, duties duty (o ::ₘ m)) →
    Steps result (core s, duties duty (o ::ₘ m)) (core s', duties duty (↑new + m))

variable {result : ε → ρ}

namespace OneShot.Steps

variable {c c' : OneShot β ε ρ} {o p : ι} {new : List ι} {m : Multiset ι} {d d' : Duty β ε}

lemma idle (hc : c' = c) (hnew : ∀ o ∈ new, duty o = 0) :
    Steps result (c, duties duty m) (c', duties duty (↑new + m)) := by
  rw [hc, duties_add, duties_eq_zero hnew, zero_add]

lemma neutral (hc : c' = c) (ho : duty o = 0) (hnew : ∀ o ∈ new, duty o = 0) :
    Steps result (c, duties duty (o ::ₘ m)) (c', duties duty (↑new + m)) := by
  rw [duties_cons, ho, zero_add]
  exact idle hc hnew

lemma fulfil (ho : duty o = {d}) (hnew : ∀ o ∈ new, duty o = 0) (h : ∀ m, Steps result (c, d ::ₘ m) (c', m)) :
    Steps result (c, duties duty (o ::ₘ m)) (c', duties duty (↑new + m)) := by
  rw [duties_cons, duties_add, ho, duties_eq_zero hnew, zero_add]
  exact h _

/-- A section hands its duty on, as it is or as another one. -/
lemma pass (ho : duty o = {d}) (hp : duty p = {d'}) (h : ∀ m, Steps result (c, d ::ₘ m) (c', d' ::ₘ m)) :
    Steps result (c, duties duty (o ::ₘ m)) (c', duties duty (↑[p] + m)) := by
  rw [duties_cons, pending_cons_add, pending_nil_add, duties_cons, ho, hp]
  exact h _

lemma enter (hp : duty p = {d}) (h : ∀ m, Steps result (c, m) (c', d ::ₘ m)) :
    Steps result (c, duties duty m) (c', duties duty (↑[p] + m)) := by
  rw [pending_cons_add, pending_nil_add, duties_cons, hp]
  exact h _

lemma take (ho : duty o = 0) (hp : duty p = {d}) (h : ∀ m, Steps result (c, m) (c', d ::ₘ m)) :
    Steps result (c, duties duty (o ::ₘ m)) (c', duties duty (↑[p] + m)) := by
  rw [duties_cons, ho, zero_add]
  exact enter hp h

end OneShot.Steps

namespace Program.Simulates

variable {P : Program σ ι χ κ} {core : σ → OneShot β ε ρ}

lemma step (hsim : P.Simulates core duty result) {c c' : Config σ ι} {e : Event χ κ}
    (h : P.step c e = some c') (hc : Inv result (core c.shared, duties duty c.pending)) :
    Steps result (core c.shared, duties duty c.pending) (core c'.shared, duties duty c'.pending) := by
  rcases Program.step_cases h with ⟨k, -, h1, h2⟩ | ⟨i, x, o, s', new, m, -, -, hx, rfl, h1, h2⟩
  · rw [h1, h2]
    exact hsim.call k _ _
  · rw [h1] at hc ⊢
    rw [h2]
    exact hsim.exec o x _ _ new m hx hc

/-- **The invariant holds in every state of every run.** -/
theorem visitAll (hsim : P.Simulates core duty result) (es : List (Event χ κ)) {c : Config σ ι}
    (hc : Inv result (core c.shared, duties duty c.pending)) :
    VisitAll P.step (fun c => Inv result (core c.shared, duties duty c.pending)) c es :=
  visitAll_of_inv (fun _ _ _ h hi => hi.steps (hsim.step h hi)) es hc

/-- **The first terminal error stays**, however the run goes on. -/
theorem terminal (hsim : P.Simulates core duty result) {e : ε} : ∀ (es : List (Event χ κ))
    {c c' : Config σ ι}, runOf P.step c es = some c' →
    Inv result (core c.shared, duties duty c.pending) → (core c.shared).terminal = some e →
    (core c'.shared).terminal = some e
  | [], c, c', h, _, he => by
    cases h
    exact he
  | a :: es, c, c', h, hc, he => by
    obtain ⟨d, hd, h⟩ := Option.bind_eq_some_iff.1 h
    have hs := hsim.step hd hc
    exact terminal hsim es h (hc.steps hs) (hs.terminal he)

end Program.Simulates

end Simulation

end SingBox.Lib
