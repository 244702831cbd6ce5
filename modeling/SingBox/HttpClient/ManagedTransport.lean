import SingBox.Lib.Goroutine
import SingBox.Lib.RefCount

/-!
# The managed HTTP transport

`common/httpclient/managed_transport.go`: a `ManagedTransport` passes its requests to an inner transport, which
`CloseIdleConnections` and `Reset` take away and the next request (or `Reset` itself) builds anew.  Each inner transport
has an *epoch* that counts its users; the epoch is closed once it has been replaced and has no user.

The sections are the single atomic operations of `acquireEpoch`, `releaseEpoch` and `retireEpoch` and the locked parts
of `getEpoch` and `Reset`.  An epoch and the sections that name it are a reference count with a retire mark (`view`,
`exec_view`).  It is not closed under a user as long as the last user that looks for the mark does not find one with a
new user counted in the meantime: `releaseEpoch` reads the count and the mark in two operations, and both a request and
a replacement fit in between.
-/

namespace SingBox.HttpClient.ManagedTransport

open Lib Multiset

/-! ### Epochs and sections -/

/-- `transportEpoch`; `closes` counts the calls of the inner transport's `Close`. -/
structure Epoch where
  active : ℤ := 0
  marked : Bool := false
  closeOnce : Bool := false
  closes : ℕ := 0
  deriving DecidableEq

/-- The transport and the epochs the factory has created, numbered in order. -/
structure State where
  epoch : Option ℕ := none
  /-- `rebuildAccess` is held. -/
  locked : Bool := false
  cheapRebuild : Bool
  created : ℕ := 0
  epochs : ℕ → Epoch := fun _ => {}

def State.modify (s : State) (e : ℕ) (f : Epoch → Epoch) : State :=
  { s with epochs := Function.update s.epochs e (f (s.epochs e)) }

variable (s : State)

@[simp] lemma modify_epoch (e : ℕ) (f : Epoch → Epoch) : (s.modify e f).epoch = s.epoch := rfl

@[simp] lemma modify_created (e : ℕ) (f : Epoch → Epoch) : (s.modify e f).created = s.created := rfl

@[simp] lemma modify_epochs_self (e : ℕ) (f : Epoch → Epoch) :
    (s.modify e f).epochs e = f (s.epochs e) := Function.update_self ..

@[simp] lemma modify_epochs_of_ne {d e : ℕ} (f : Epoch → Epoch) (h : e ≠ d) :
    (s.modify d f).epochs e = s.epochs e := Function.update_of_ne h ..

/-- The sections.  `reset` tells the locked part of `Reset` from that of `getEpoch`. -/
inductive Op where
  /-- `getEpoch`: the first `epoch.Load()` -/
  | load
  | lock (reset : Bool)
  | loadLocked (reset : Bool)
  /-- the factory, and `epoch.Store` if it succeeds -/
  | build (reset : Bool)
  | unlock (reset : Bool) (found : Option ℕ)
  /-- `acquireEpoch`: `active.Add(1)` -/
  | add (e : ℕ)
  /-- `acquireEpoch`: `epoch == t.epoch.Load()` -/
  | check (e : ℕ)
  | roundTrip (e : ℕ)
  /-- the response's body is open -/
  | body (e : ℕ)
  /-- `releaseEpoch`: `active.Add(-1)`, by a user of the epoch or by `acquireEpoch` -/
  | release (e : ℕ) (acquired : Bool)
  /-- `releaseEpoch`: `marked.Load()` -/
  | loadMarked (e : ℕ)
  | tryClose (e : ℕ)
  /-- `CloseIdleConnections`: `epoch.Swap(nil)` -/
  | swapIdle
  | closeIdle (e : ℕ)
  /-- `Reset`: `epoch.Swap(nil)` -/
  | swapReset
  /-- `retireEpoch`: `marked.Store(true)` -/
  | mark (e : ℕ)
  /-- `retireEpoch`: `active.Load()` -/
  | loadActive (e : ℕ)
  deriving DecidableEq

/-- What a section gets from outside: the factory succeeds, or the inner round trip returns a response with a body. -/
structure Input where
  ok : Bool := true

inductive Call where
  | roundTrip | closeIdleConnections | reset

def exec (o : Op) (x : Input) (s : State) : Option (State × List Op) :=
  match o with
  | .load =>
    match s.epoch with
    | some e => some (s, [.add e])
    | none => some (s, [.lock false])
  | .lock reset => if s.locked then none else some ({ s with locked := true }, [.loadLocked reset])
  | .loadLocked reset =>
    match s.epoch with
    | some e => some (s, [.unlock reset (some e)])
    | none => some (s, [.build reset])
  | .build reset =>
    if x.ok then
      some ({ s with epoch := some s.created, created := s.created + 1 }, [.unlock reset (some s.created)])
    else some (s, [.unlock reset none])
  | .unlock reset found =>
    some ({ s with locked := false }, if reset then [] else found.toList.map .add)
  | .add e => some (s.modify e fun p => { p with active := p.active + 1 }, [.check e])
  | .check e =>
    if s.epoch = some e then some (s, [.roundTrip e])
    else some (s, [.release e false, .load])
  | .roundTrip e => some (s, [if x.ok then .body e else .release e true])
  | .body e => some (s, [.release e true])
  | .release e _ =>
    some (s.modify e fun p => { p with active := p.active - 1 },
      if (s.epochs e).active - 1 = 0 then [.loadMarked e] else [])
  | .loadMarked e => some (s, if (s.epochs e).marked then [.tryClose e] else [])
  | .tryClose e =>
    some (s.modify e fun p => { p with closeOnce := true, closes := p.closes + if p.closeOnce then 0 else 1 }, [])
  | .swapIdle =>
    match s.epoch with
    | some e => some ({ s with epoch := none }, [.closeIdle e, .mark e])
    | none => some (s, [])
  | .closeIdle _ => some (s, [])
  | .swapReset =>
    some ({ s with epoch := none }, (if s.cheapRebuild then [.lock true] else []) ++ s.epoch.toList.map .mark)
  | .mark e => some (s.modify e fun p => { p with marked := true }, [.loadActive e])
  | .loadActive e => some (s, if (s.epochs e).active = 0 then [.tryClose e] else [])

def entry : Call → List Op
  | .roundTrip => [.load]
  | .closeIdleConnections => [.swapIdle]
  | .reset => [.swapReset]

def program : Program State Op Input Call := ⟨fun k s => (s, entry k), exec⟩

/-- A new transport: the first epoch is there already, or is built by the first request. -/
def new (cheapRebuild built : Bool) : State :=
  { cheapRebuild, epoch := if built then some 0 else none, created := if built then 1 else 0 }

/-- A request that acquired the epoch `e` has not released it. -/
def Op.Uses (e : ℕ) (o : Op) : Prop := o = .roundTrip e ∨ o = .body e ∨ o = .release e true
  deriving Decidable

/-- A request that has counted itself in the epoch `e` or is still releasing it, or a call that replaced `e` and has not
retired it. -/
def Op.Concerns (e : ℕ) (o : Op) : Prop :=
  o.Uses e ∨ o = .check e ∨ o = .release e false ∨ o = .loadMarked e ∨ o = .mark e ∨ o = .loadActive e ∨ o = .tryClose e

/-- **Epochs are closed once and none is lost.** -/
structure Tidy (c : Config State Op) : Prop where
  once : ∀ e, (c.shared.epochs e).closes ≤ 1
  /-- A replaced epoch that nobody has to do with is closed. -/
  closed : ∀ e < c.shared.created, c.shared.epoch ≠ some e → (∀ o ∈ c.pending, ¬ o.Concerns e) →
    (c.shared.epochs e).closes = 1
  /-- Every epoch is the current one, retired, or about to be retired by the call that replaced it. -/
  kept : ∀ e < c.shared.created, c.shared.epoch = some e ∨ (c.shared.epochs e).marked = true ∨ .mark e ∈ c.pending

/-- **No epoch is closed under a user.** -/
def NotUnderUser (c : Config State Op) : Prop :=
  ∀ e, 0 < (c.shared.epochs e).closes → ∀ o ∈ c.pending, ¬ o.Uses e

/-- A goroutine that took the count of an epoch to zero and now looks for its mark finds no mark, or no goroutine has
acquired the epoch since and not released it. -/
def Undisturbed (c : Config State Op) : Event Input Call → Prop
  | .sched i _ =>
    match c.next i with
    | some (.loadMarked e) => (c.shared.epochs e).marked = true → ∀ o ∈ c.pending, ¬ o.Uses e
    | _ => True
  | .call _ => True

instance (c : Config State Op) (ev : Event Input Call) : Decidable (Undisturbed c ev) := by
  unfold Undisturbed
  split
  · split <;> infer_instance
  · infer_instance

/-! ### An epoch as a reference count -/

/-- What a goroutine at the section `o` is about to do with the epoch `e`. -/
def Op.role (e : ℕ) : Op → Option RefCount.Role
  | .check d => if d = e then some .trying else none
  | .roundTrip d | .body d => if d = e then some .user else none
  | .release d acquired => if d = e then some (if acquired then .user else .leaving) else none
  | .loadMarked d => if d = e then some .asking else none
  | .mark d => if d = e then some .marking else none
  | .loadActive d => if d = e then some .looking else none
  | .tryClose d => if d = e then some .closing else none
  | .load | .lock _ | .loadLocked _ | .build _ | .unlock .. | .add _ | .swapIdle | .closeIdle _ | .swapReset => none

@[simp] lemma roles_cons (e : ℕ) (o : Op) (m : Multiset Op) : (o ::ₘ m).filterMap (Op.role e) =
    (o.role e).elim (m.filterMap (Op.role e)) (· ::ₘ m.filterMap (Op.role e)) := by
  cases h : o.role e with
  | none => exact filterMap_cons_none _ _ h
  | some a => exact filterMap_cons_some _ _ _ h

/-- The epoch `e` and the goroutines that have to do with it. -/
def view (e : ℕ) (s : State) (m : Multiset Op) : RefCount :=
  let p := s.epochs e
  ⟨s.epoch == some e, p.active, p.marked, p.closeOnce, p.closes, m.filterMap (Op.role e)⟩

/-- The action of a section on the epoch `e`, if it has one. -/
def Acts (e : ℕ) (o : Op) (r r' : RefCount) : Prop :=
  r' = r ∨ ∃ a, RefCount.Step r a r' ∧ (a = .ask → o = .loadMarked e)

variable {o : Op} {e : ℕ}

lemma Acts.of_step {r r' r'' : RefCount} {a : RefCount.Act} (h : RefCount.Step r a r'')
    (he : r' = r'') (ha : a = .ask → o = .loadMarked e) : Acts e o r r' := .inr ⟨a, he ▸ h, ha⟩

variable {s s' : State} {x : Input}

attribute [local simp] view

/-- **What a section does to an epoch** is an action of the reference count, if the section is not one that builds an
epoch over the current one. -/
theorem exec_view {new : List Op} (h : exec o x s = some (s', new))
    (hb : ∀ reset, o = .build reset → s.epoch = none) (he : e < s.created) (m : Multiset Op) :
    Acts e o (view e s (o ::ₘ m)) (view e s' (↑new + m)) := by
  unfold exec at h
  cases o with
  | load | loadLocked reset | lock reset | unlock reset found | roundTrip d =>
    dsimp only at h
    split at h <;> cases h <;> exact .inl (by simp [Op.role])
  | build reset =>
    have hn := hb reset rfl
    dsimp only at h
    split at h <;> cases h
    · exact .inl (by simp [Op.role, hn]; omega)
    · exact .inl (by simp [Op.role])
  | add d =>
    cases h
    by_cases hd : e = d
    · subst hd
      exact .of_step .add (by simp [Op.role]) nofun
    · exact .inl (by simp [Op.role, hd, Ne.symm hd])
  | check d =>
    dsimp only at h
    by_cases hd : e = d
    · subst hd
      split at h <;> cases h
      · exact .of_step (.acquire (by simp [Op.role]; rfl) (by simpa)) (by simp [Op.role]) nofun
      · exact .of_step (.back (by simp [Op.role]; rfl)) (by simp [Op.role]) nofun
    · split at h <;> cases h <;> exact .inl (by simp [Op.role, Ne.symm hd])
  | body d | closeIdle d =>
    cases h
    exact .inl (by simp [Op.role])
  | release d acquired =>
    cases h
    by_cases hd : e = d
    · subst hd
      cases acquired with
      | true =>
        refine .of_step (.release (by simp [Op.role]; rfl)) ?_ nofun
        by_cases ha : (s.epochs e).active - 1 = 0 <;> simp [ha, Op.role]
      | false =>
        refine .of_step (.leave (by simp [Op.role]; rfl)) ?_ nofun
        by_cases ha : (s.epochs e).active - 1 = 0 <;> simp [ha, Op.role]
    · refine .inl ?_
      by_cases ha : (s.epochs d).active - 1 = 0 <;> simp [hd, Ne.symm hd, Op.role]
  | loadMarked d =>
    cases h
    by_cases hd : e = d
    · subst hd
      refine .of_step (.ask (by simp [Op.role]; rfl)) ?_ fun _ => rfl
      cases ha : (s.epochs e).marked <;> simp [ha, Op.role]
    · refine .inl ?_
      cases ha : (s.epochs d).marked <;> simp [Ne.symm hd, Op.role]
  | tryClose d =>
    cases h
    by_cases hd : e = d
    · subst hd
      exact .of_step (.close (by simp [Op.role]; rfl)) (by simp) nofun
    · exact .inl (by simp [hd, Ne.symm hd, Op.role])
  | swapIdle =>
    dsimp only at h
    split at h <;> cases h
    next d hc =>
      by_cases hd : e = d
      · subst hd
        exact .of_step (.replace (by simp [hc])) (by simp [Op.role]) nofun
      · exact .inl (by simp [Ne.symm hd, hc, Op.role])
    next => exact .inl (by simp [Op.role])
  | swapReset =>
    cases h
    cases hc : s.epoch with
    | none => cases s.cheapRebuild <;> exact .inl (by simp [hc, Op.role])
    | some d =>
      by_cases hd : e = d
      · subst hd
        refine .of_step (.replace (by simp [hc])) ?_ nofun
        cases s.cheapRebuild <;> simp [Op.role]
      · refine .inl ?_
        cases s.cheapRebuild <;> simp [hc, Ne.symm hd, Op.role]
  | mark d =>
    cases h
    by_cases hd : e = d
    · subst hd
      exact .of_step (.mark (by simp [Op.role]; rfl)) (by simp [Op.role]) nofun
    · exact .inl (by simp [hd, Ne.symm hd, Op.role])
  | loadActive d =>
    cases h
    by_cases hd : e = d
    · subst hd
      refine .of_step (.look (by simp [Op.role]; rfl)) ?_ nofun
      by_cases ha : (s.epochs e).active = 0 <;> simp [ha, Op.role]
    · refine .inl ?_
      by_cases ha : (s.epochs d).active = 0 <;> simp [Ne.symm hd, Op.role]

/-! ### The lock and the numbers of the epochs -/

def Op.names : Op → Option ℕ
  | .unlock _ found => found
  | .add e | .check e | .roundTrip e | .body e | .release e _ | .loadMarked e | .tryClose e | .closeIdle e | .mark e
  | .loadActive e => some e
  | .load | .lock _ | .loadLocked _ | .build _ | .swapIdle | .swapReset => none

/-- The section runs with `rebuildAccess` held. -/
def Op.locked : Op → Bool
  | .loadLocked _ | .build _ | .unlock .. => true
  | _ => false

/-- Only epochs that have been created are current, are named or have been changed. -/
structure Known (s : State) (m : Multiset Op) : Prop where
  current : ∀ e, s.epoch = some e → e < s.created
  named : ∀ o ∈ m, ∀ e, o.names = some e → e < s.created
  fresh : ∀ e, s.created ≤ e → s.epochs e = {}

/-- One goroutine holds the lock, and one that is about to store an epoch has found none. -/
structure Locking (s : State) (m : Multiset Op) : Prop where
  holder : m.countP (Op.locked ·) = if s.locked then 1 else 0
  build : ∀ reset, .build reset ∈ m → s.epoch = none

variable {m : Multiset Op} {s : State}

lemma Known.modify (h : Known s m) (he : e < s.created) (f : Epoch → Epoch) : Known (s.modify e f) m :=
  ⟨h.current, h.named, fun d hd => by
    rw [modify_epochs_of_ne _ _ (by rw [modify_created] at hd; omega)]
    exact h.fresh d hd⟩

/-- Sections that name an epoch already named, or the current one, take the place of another. -/
lemma Known.replace {new : List Op} (h : Known s (o ::ₘ m))
    (hnew : ∀ o' ∈ new, o'.names = none ∨ o'.names = o.names ∨ o'.names = s.epoch) : Known s (↑new + m) := by
  refine ⟨h.current, fun o' ho' e he => ?_, h.fresh⟩
  rcases mem_add.1 ho' with ho' | ho'
  · rcases hnew o' ho' with h' | h' | h' <;> rw [h'] at he
    · cases he
    · exact h.named o (mem_cons_self _ _) e he
    · exact h.current e he
  · exact h.named o' (mem_cons_of_mem ho') e he

lemma Known.noCurrent (h : Known s m) : Known { s with epoch := none } m :=
  ⟨fun _ h => (by cases h), h.named, h.fresh⟩

attribute [local simp] Op.names

lemma Known.exec {new : List Op} (hx : exec o x s = some (s', new)) (h : Known s (o ::ₘ m)) : Known s' (↑new + m) := by
  have hlt := h.named o (mem_cons_self _ _)
  unfold ManagedTransport.exec at hx
  cases o with
  | load | loadLocked reset | check d =>
    dsimp only at hx
    split at hx <;> cases hx <;> exact h.replace (by simp [*])
  | lock reset =>
    dsimp only at hx
    split at hx <;> cases hx
    have h' : Known s (↑[Op.loadLocked reset] + m) := h.replace (by simp)
    exact ⟨h'.current, h'.named, h'.fresh⟩
  | build reset =>
    dsimp only at hx
    split at hx <;> cases hx
    · refine ⟨fun e he => ?_, fun o' ho' e he => ?_, fun e he => h.fresh e (Nat.le_of_succ_le he)⟩
      · cases he
        exact Nat.lt_succ_self _
      · rcases mem_add.1 ho' with ho' | ho'
        · obtain rfl := List.mem_singleton.1 ho'
          cases he
          exact Nat.lt_succ_self _
        · exact Nat.lt_succ_of_lt (h.named o' (mem_cons_of_mem ho') e he)
    · exact h.replace (by simp)
  | unlock reset found =>
    cases hx
    have h' : Known s (↑(if reset then [] else found.toList.map Op.add) + m) :=
      h.replace (by cases reset <;> cases found <;> simp)
    exact ⟨h'.current, h'.named, h'.fresh⟩
  | add d | mark d | release d acquired | tryClose d =>
    cases hx
    exact (h.replace (by simp)).modify (hlt d rfl) _
  | roundTrip d | body d | closeIdle d | loadMarked d | loadActive d =>
    cases hx
    exact h.replace (by first | (split <;> simp) | simp)
  | swapIdle =>
    dsimp only at hx
    split at hx <;> cases hx
    · exact (h.replace (by simp [*])).noCurrent
    · exact h.replace (by simp)
  | swapReset =>
    cases hx
    exact (h.replace (by cases s.cheapRebuild <;> cases s.epoch <;> simp)).noCurrent

lemma countP_outside {new : List Op} (hnew : ∀ o ∈ new, o.locked = false) (m : Multiset Op) :
    (↑new + m).countP (Op.locked ·) = m.countP (Op.locked ·) := by
  rw [countP_add, countP_eq_zero.2 fun o ho => by simp [hnew o ho], zero_add]

lemma Locking.outside {new : List Op} (h : Locking s (o ::ₘ m))
    (ho : o.locked = false) (hnew : ∀ o' ∈ new, o'.locked = false) (hl : s'.locked = s.locked)
    (he : s'.epoch = s.epoch ∨ s'.epoch = none) : Locking s' (↑new + m) := by
  refine ⟨?_, fun reset hr => ?_⟩
  · have := h.holder
    rw [countP_cons_of_neg _ (by simp [ho])] at this
    rw [countP_outside hnew, this, hl]
  · rcases mem_add.1 hr with hr | hr
    · exact absurd (hnew _ hr) (by simp [Op.locked])
    · have hn := h.build reset (mem_cons_of_mem hr)
      exact he.elim (fun he => he.trans hn) id

lemma Locking.inside (h : Locking s (o ::ₘ m)) (ho : o.locked = true) :
    s.locked = true ∧ m.countP (Op.locked ·) = 0 := by
  have := h.holder
  rw [countP_cons_of_pos (p := fun o : Op => o.locked = true) _ ho] at this
  split at this
  · exact ⟨‹_›, by omega⟩
  · omega

lemma no_build (h : m.countP (Op.locked ·) = 0) (reset : Bool) : .build reset ∉ m :=
  fun hm => countP_eq_zero.1 h _ hm rfl

lemma Locking.enter (hm : m.countP (Op.locked ·) = 0) (ho : o.locked = true)
    (hl : s.locked = true) (hb : ∀ reset, o = .build reset → s.epoch = none) : Locking s (↑[o] + m) := by
  rw [pending_cons_add, pending_nil_add]
  refine ⟨?_, fun reset hr => ?_⟩
  · rw [countP_cons_of_pos (p := fun o : Op => o.locked = true) _ ho, hm, hl]
    rfl
  · rcases mem_cons.1 hr with hr | hr
    · exact hb reset hr.symm
    · exact absurd hr (no_build hm reset)

lemma Locking.leave {new : List Op} (hm : m.countP (Op.locked ·) = 0)
    (hnew : ∀ o ∈ new, o.locked = false) (hl : s.locked = false) : Locking s (↑new + m) := by
  have hm' := (countP_outside hnew m).trans hm
  exact ⟨by rw [hm', hl]; rfl, fun reset hr => absurd hr (no_build hm' reset)⟩

lemma Locking.exec {new : List Op}
    (hx : exec o x s = some (s', new)) (h : Locking s (o ::ₘ m)) : Locking s' (↑new + m) := by
  unfold ManagedTransport.exec at hx
  cases o with
  | load | check d | release d acquired | loadMarked d | loadActive d | roundTrip d =>
    dsimp only at hx
    split at hx <;> cases hx <;> exact h.outside rfl (by simp [Op.locked]) rfl (.inl rfl)
  | lock reset =>
    dsimp only at hx
    split at hx
    · cases hx
    next hl =>
      cases hx
      have hm := h.holder
      rw [if_neg hl, countP_cons_of_neg _ (by simp [Op.locked])] at hm
      exact .enter hm rfl rfl nofun
  | loadLocked reset =>
    obtain ⟨hl, hm⟩ := h.inside rfl
    dsimp only at hx
    split at hx <;> cases hx
    · exact .enter hm rfl hl nofun
    next he => exact .enter hm rfl hl fun _ _ => he
  | build reset =>
    obtain ⟨hl, hm⟩ := h.inside rfl
    dsimp only at hx
    split at hx <;> cases hx <;> exact .enter hm rfl hl nofun
  | unlock reset found =>
    cases hx
    exact .leave (h.inside rfl).2 (by cases reset <;> cases found <;> simp [Op.locked]) rfl
  | add d | mark d | tryClose d | closeIdle d | body d =>
    cases hx
    exact h.outside rfl (by simp [Op.locked]) rfl (.inl rfl)
  | swapIdle =>
    dsimp only at hx
    split at hx <;> cases hx
    · exact h.outside rfl (by simp [Op.locked]) rfl (.inr rfl)
    · exact h.outside rfl (by simp) rfl (.inl rfl)
  | swapReset =>
    cases hx
    exact h.outside rfl (by cases s.cheapRebuild <;> cases s.epoch <;> simp [Op.locked]) rfl (.inr rfl)

/-- **What every run keeps.** -/
structure Inv (s : State) (m : Multiset Op) : Prop where
  known : Known s m
  locking : Locking s m
  counted : ∀ e < s.created, (view e s m).Counted

/-- No epoch is closed, or about to be, under a user. -/
def AllSafe (s : State) (m : Multiset Op) : Prop := ∀ e < s.created, (view e s m).Safe

lemma entry_view (k : Call) (e : ℕ) (s : State) (m : Multiset Op) : view e s (↑(entry k) + m) = view e s m := by
  cases k <;> simp [entry, Op.role]

lemma Inv.call (h : Inv s m) (k : Call) : Inv s (↑(entry k) + m) := by
  refine ⟨⟨h.known.current, fun o ho => ?_, h.known.fresh⟩, ⟨?_, fun reset hr => ?_⟩, fun e he => ?_⟩
  · rcases mem_add.1 ho with ho | ho
    · cases k <;> obtain rfl := List.mem_singleton.1 ho <;> exact nofun
    · exact h.known.named o ho
  · rw [countP_outside (by cases k <;> simp [entry, Op.locked])]
    exact h.locking.holder
  · rcases mem_add.1 hr with hr | hr
    · cases k <;> cases List.mem_singleton.1 hr
    · exact h.locking.build reset hr
  · rw [entry_view]
    exact h.counted e he

lemma names_of_role (h : o.role e ≠ none) : o.names = some e := by
  unfold Op.role at h
  split at h <;> (try split at h) <;> simp_all

lemma Known.roles (h : Known s m) (he : s.created ≤ e) : m.filterMap (Op.role e) = 0 := by
  refine eq_zero_of_forall_notMem fun a ha => ?_
  obtain ⟨o, ho, hr⟩ := (mem_filterMap _ _).1 ha
  have := h.named o ho e (names_of_role (by simp [hr]))
  omega

/-- An epoch after a section: as the section has left it, or new. -/
lemma Inv.exec_view {new : List Op} (hx : exec o x s = some (s', new)) (h : Inv s (o ::ₘ m)) (he : e < s'.created) :
    e < s.created ∧ Acts e o (view e s (o ::ₘ m)) (view e s' (↑new + m)) ∨ view e s' (↑new + m) = RefCount.new := by
  by_cases hold : e < s.created
  · refine .inl ⟨hold, ManagedTransport.exec_view hx (fun reset ho => ?_) hold m⟩
    exact h.locking.build reset (ho ▸ mem_cons_self _ _)
  · have hroles := h.known.roles (Nat.le_of_not_lt hold)
    have hfresh := h.known.fresh e (Nat.le_of_not_lt hold)
    unfold exec at hx
    cases o <;> dsimp only at hx <;> (try split at hx) <;> cases hx <;> try exact absurd he hold
    obtain rfl : e = s.created := by
      dsimp only at he
      omega
    simp [Op.role] at hroles
    exact .inr (by simp [Op.role, RefCount.new, hfresh, hroles])

lemma Inv.exec {new : List Op} (hx : exec o x s = some (s', new)) (h : Inv s (o ::ₘ m)) : Inv s' (↑new + m) := by
  refine ⟨h.known.exec hx, h.locking.exec hx, fun e he => ?_⟩
  rcases h.exec_view hx he with ⟨hold, heq | ⟨a, hstep, -⟩⟩ | heq
  · rw [heq]
    exact h.counted e hold
  · exact hstep.counted (h.counted e hold)
  · rw [heq]
    exact RefCount.counted_new

lemma uses_of_role (h : o.role e = some .user) : o.Uses e := by
  unfold Op.role at h
  split at h <;> (try split at h) <;> simp_all [Op.Uses]

lemma AllSafe.exec {new : List Op} (hx : exec o x s = some (s', new)) (h : Inv s (o ::ₘ m)) (hs : AllSafe s (o ::ₘ m))
    (hask : ∀ e, o = .loadMarked e → (s.epochs e).marked = true → ∀ p ∈ o ::ₘ m, ¬ p.Uses e) :
    AllSafe s' (↑new + m) := by
  intro e he
  rcases h.exec_view hx he with ⟨hold, heq | ⟨a, hstep, ha⟩⟩ | heq
  · rw [heq]
    exact hs e hold
  · refine hstep.safe (h.counted e hold) (hs e hold) fun h hm hu => ?_
    obtain ⟨p, hp, hr⟩ := (mem_filterMap _ _).1 hu
    exact hask e (ha h) hm p hp (uses_of_role hr)
  · rw [heq]
    exact RefCount.safe_new

lemma view_new {cheapRebuild built : Bool} (he : e < (new cheapRebuild built).created) :
    view e (new cheapRebuild built) 0 = RefCount.new := by
  cases built with
  | false => cases he
  | true =>
    obtain rfl : e = 0 := Nat.lt_one_iff.1 he
    rfl

variable (cheapRebuild built : Bool)

lemma inv_new : Inv (new cheapRebuild built) 0 := by
  refine ⟨⟨?_, nofun, fun _ _ => rfl⟩, ⟨rfl, nofun⟩, fun e he => view_new he ▸ RefCount.counted_new⟩
  cases built <;> simp [new]

lemma allSafe_new : AllSafe (new cheapRebuild built) 0 :=
  fun _ he => view_new he ▸ RefCount.safe_new

lemma Inv.step {c c' : Config State Op} {ev : Event Input Call} (h : program.step c ev = some c')
    (hc : Inv c.shared c.pending) : Inv c'.shared c'.pending :=
  Program.step_inv Inv (fun k _ _ h => h.call k) (fun _ _ _ _ _ _ hx h => h.exec hx) c ev c' h hc

lemma AllSafe.step {c c' : Config State Op} {ev : Event Input Call} (h : program.step c ev = some c')
    (hu : Undisturbed c ev) (hc : Inv c.shared c.pending) (hs : AllSafe c.shared c.pending) :
    AllSafe c'.shared c'.pending := by
  rcases Program.step_cases h with ⟨k, -, h1, h2⟩ | ⟨i, x, o, s', new, m, rfl, hi, hx, rfl, h1, h2⟩
  · rw [h1, h2]
    intro e he
    exact entry_view k e c.shared c.pending ▸ hs e he
  · rw [h1] at hc hs
    rw [h2]
    exact AllSafe.exec hx hc hs fun e ho => by simpa [Undisturbed, hi, ho, h1] using hu

lemma concerns_of_role (h : o.role e ≠ none) : o.Concerns e := by
  unfold Op.role at h
  split at h <;> (try split at h) <;> simp_all [Op.Concerns, Op.Uses]

lemma mark_of_mem_roles (h : .marking ∈ m.filterMap (Op.role e)) : .mark e ∈ m := by
  obtain ⟨o, ho, hr⟩ := (mem_filterMap _ _).1 h
  cases o <;> simp [Op.role] at hr
  · obtain ⟨-, hr⟩ := hr
    split at hr <;> cases hr
  · exact hr ▸ ho

lemma Inv.tidy {c : Config State Op} (h : Inv c.shared c.pending) : Tidy c := by
  refine ⟨fun e => ?_, fun e he hcur hidle => ?_, fun e he => ?_⟩
  · by_cases he : e < c.shared.created
    · have hcloses : (c.shared.epochs e).closes = if (c.shared.epochs e).closeOnce then 1 else 0 :=
        (h.counted e he).closes
      rw [hcloses]
      split <;> omega
    · simp [h.known.fresh e (Nat.le_of_not_lt he)]
  · -- nobody is left who could have been counted or who could still close the epoch
    have hnone : c.pending.filterMap (Op.role e) = 0 := by
      refine eq_zero_of_forall_notMem fun a ha => ?_
      obtain ⟨o, ho, hr⟩ := (mem_filterMap _ _).1 ha
      exact hidle o ho (concerns_of_role (by simp [hr]))
    obtain ⟨hcount, hcloses, -, hrep⟩ := h.counted e he
    simp only [view, hnone] at hcount hcloses hrep
    have := hrep (by simpa using hcur)
    simp at this hcount
    split at hcloses <;> omega
  · by_cases hcur : c.shared.epoch = some e
    · exact .inl hcur
    · refine .inr ?_
      rcases (h.counted e he).replaced (by simpa using hcur) with hm | ⟨hm, -⟩
      · exact .inr (mark_of_mem_roles hm)
      · exact .inl hm

lemma AllSafe.notUnderUser {c : Config State Op} (hc : Inv c.shared c.pending) (hs : AllSafe c.shared c.pending) :
    NotUnderUser c := by
  intro e hpos o ho huse
  have he : e < c.shared.created := by
    by_contra he
    simp [hc.known.fresh e (Nat.le_of_not_lt he)] at hpos
  have honce : (view e c.shared c.pending).once = true := by
    have hcloses := (hc.counted e he).closes
    by_contra honce
    rw [if_neg honce] at hcloses
    exact absurd hcloses (Nat.ne_of_gt hpos)
  refine hs e he (.inr honce) ((mem_filterMap _ _).2 ⟨o, ho, ?_⟩)
  rcases huse with rfl | rfl | rfl <;> simp [Op.role]

/-- **Epochs are closed once and not under a user.**  In every run each epoch is closed at most once, one that was
replaced and with which no goroutine has to do any more has been closed, and each is the current one, retired or about
to be.  If no goroutine that looks for the mark of an epoch it was the last one to release finds it both marked and
acquired again, no epoch is closed under a user. -/
theorem epochs_closed_once (evs : List (Event Input Call)) :
    VisitAll program.step Tidy (Config.init (new cheapRebuild built)) evs ∧
      (StepAll program.step Undisturbed (Config.init (new cheapRebuild built)) evs →
        VisitAll program.step NotUnderUser (Config.init (new cheapRebuild built)) evs) := by
  refine ⟨?_, fun h => ?_⟩
  · exact (visitAll_of_inv (fun _ _ _ h => Inv.step h) evs (inv_new cheapRebuild built)).imp fun _ h => h.tidy
  · -- the two invariants together, since the second one needs the count of the first
    have hboth := visitAll_of_stepAll (I := fun c => Inv c.shared c.pending ∧ AllSafe c.shared c.pending)
      (fun _ _ _ h hu hc => ⟨hc.1.step h, hc.2.step h hu hc.1⟩) evs
      ⟨inv_new cheapRebuild built, allSafe_new cheapRebuild built⟩ h
    exact hboth.imp fun _ hc => hc.2.notUnderUser hc.1

/-- The next section of a goroutine, with nothing special from outside. -/
abbrev go (i : ℕ) : Event Input Call := .sched i {}

/-- A request is answered, the transport is reset while the body is open, and closing the body closes the epoch. -/
def resetRun : List (Event Input Call) :=
  [.call .roundTrip, go 0, go 0, go 0, go 0] ++ [.call .reset, go 1, go 1, go 1, go 1, go 1, go 1, go 1] ++
    [go 0, go 0, go 0, go 0]

theorem epochs_closed_once_reset : StepAll program.step Undisturbed (Config.init (new true true)) resetRun ∧
    ∃ c, runOf program.step (Config.init (new true true)) resetRun = some c ∧
      (c.shared.epochs 0).closes = 1 ∧ Tidy c ∧ NotUnderUser c :=
  ⟨by decide, _, rfl, by decide, VisitAll.last (epochs_closed_once true true resetRun).1 rfl,
    VisitAll.last ((epochs_closed_once true true resetRun).2 (by decide)) rfl⟩

/-- A request that fails is releasing the epoch, as the last one, when another request acquires it and the epoch is
replaced: the first request then finds the mark and closes the transport under the second. -/
theorem closed_under_user : ∃ c, runOf program.step (Config.init (new true true))
      ([.call .roundTrip, go 0, go 0, go 0, .sched 0 ⟨false⟩, go 0] ++
        [.call .roundTrip, go 1, go 1, go 1] ++
        [.call .closeIdleConnections, go 2, go 2, go 2, go 2] ++ [go 0, go 0]) = some c ∧
      (c.shared.epochs 0).closes = 1 ∧ .roundTrip 0 ∈ c.pending ∧ ¬ NotUnderUser c := by
  refine ⟨_, rfl, by decide, by decide, fun h => ?_⟩
  exact h 0 (by decide) (.roundTrip 0) (by decide) (.inl rfl)

end SingBox.HttpClient.ManagedTransport
