import SingBox.Dns.PoolRuns

/-!
# The connections of a pool in generations

Every section of a pool's goroutines makes a step of `Generations`, or none (`gens_exec`).  What a section does besides
that is stated once: which sections take its place (`Continues`), what it adds to the history (`History`), and which
sections change nothing (`exec_frame`).
-/

namespace SingBox.Dns.PoolRuns

open Lib List Multiset Option

variable {ε : Type} {mode : ConnPoolMode} {maxInflight : ℤ}

/-! ### The connections along a run -/

structure Inv (mode : ConnPoolMode) (s : State ε) (m : Multiset (Op ε)) : Prop where
  code : ∀ o ∈ m, ∀ k, o.codeOf = some k → k = mode
  sound : ∀ n, Sound mode (s.pool.states n)
  /-- What is held, or being given back, has been handed out. -/
  held : ∀ conn ∈ (s.holders : Multiset ℕ) + m.filterMap Op.returns, conn ∈ s.log.filterMap PoolEvent.handedConn
  gens : (view s m).Inv

section

variable {s s' : State ε} {o : Op ε} {x : Input ε} {new started : List (Op ε)} {m : Multiset (Op ε)}

/-- A section that has no connection to close or to bring, and no state to retire. -/
def Op.Plain (o : Op ε) : Prop := o.closing = none ∧ o.arriving = none ∧ o.retiring = none

lemma view_cons (h : o.Plain) : view s (o ::ₘ m) = view s m := by
  unfold view
  rw [filterMap_cons_none _ _ h.1, filterMap_cons_none _ _ h.2.1, filterMap_cons_none _ _ h.2.2]

variable {l : List (Op ε)}

lemma view_append (h : ∀ o ∈ l, o.Plain) : view s (↑l + m) = view s m := by
  induction l with
  | nil => rw [pending_nil_add]
  | cons o l ih =>
    obtain ⟨ho, hl⟩ := forall_mem_cons.1 h
    rw [pending_cons_add, view_cons ho, ih hl]

lemma view_closeConn (conn : ℕ) :
    view s (.closeConn conn ::ₘ m) = { view s m with closing := conn ::ₘ (view s m).closing } := by
  simp [view, Multiset.filterMap_cons, Op.closing, Op.arriving, Op.retiring]

lemma view_closeConns (state : ℕ) :
    view s (.closeConns state ::ₘ m) = { view s m with retiring := state ::ₘ (view s m).retiring } := by
  simp [view, Multiset.filterMap_cons, Op.closing, Op.arriving, Op.retiring]

lemma view_map_closeConn (l : List ℕ) : view s (((l.map Op.closeConn : List (Op ε)) : Multiset (Op ε)) + m) =
    { view s m with closing := ↑l + (view s m).closing } := by
  induction l with
  | nil => simp
  | cons d l ih =>
    rw [List.map_cons, pending_cons_add, view_closeConn, ih]
    simp

variable {p' : ConnPool ℕ ε}

lemma view_keeps (h : Keeps s.pool p') : view { s with pool := p' } m = view s m := by
  simp [view, h.tracked, h.state, h.closed]

variable {conn : ℕ}

lemma gens_removes (h : Removes s.pool p' conn) (hg : (view s m).Inv) :
    (view { s with pool := p' } (.closeConn conn ::ₘ m)).Inv := by
  have hs := hg.step (.untrack h.mem)
  convert hs using 1
  rw [view_closeConn]
  simp [view, h.tracked, h.state, h.closed]

lemma gens_hand (created : Bool) (h : conn ∈ tracked s.pool s.pool.state) (hg : (view s m).Inv) :
    (view (s.hand conn created) m).Inv :=
  hg.step (.lend h)

lemma gens_make (hg : (view s m).Inv) (ha : o.arriving = some s.dialed) (hc : o.closing = none)
    (hr : o.retiring = none) : (view { s with dialed := s.dialed + 1 } (o ::ₘ m)).Inv := by
  convert hg.step .make using 1
  simp [view, ha, hc, hr]

lemma gens_drop (hg : (view s (o ::ₘ m)).Inv) (ha : o.arriving = some conn) (hc : o.closing = none)
    (hr : o.retiring = none) : (view s (.closeConn conn ::ₘ m)).Inv := by
  have harr : (view s (o ::ₘ m)).arriving = conn ::ₘ (view s m).arriving := filterMap_cons_some _ _ _ ha
  convert hg.step (.drop harr) using 1
  rw [view_closeConn]
  simp [view, hc, hr]

lemma gens_waste (hg : (view s m).Inv) : (view { s with dialed := s.dialed + 1 } (.closeConn s.dialed ::ₘ m)).Inv :=
  gens_drop (gens_make (o := .install 0 s.dialed) hg rfl rfl rfl) rfl rfl rfl

lemma gens_track (h : Tracks s.pool p' conn) (hg : (view s (o ::ₘ m)).Inv)
    (ha : o.arriving = some conn) (hc : o.closing = none) (hr : o.retiring = none) :
    (view { s with pool := p' } m).Inv := by
  have harr : (view s (o ::ₘ m)).arriving = conn ::ₘ (view s m).arriving := filterMap_cons_some _ _ _ ha
  convert hg.step (.track harr h.opened) using 1
  simp [view, hc, hr, h.tracked, h.state, h.closed]

attribute [local simp] Op.Plain Op.closing Op.arriving Op.retiring

/-- A turn of either mode: nothing is handed out, a connection is, or a dead one is taken out of the pool. -/
inductive Taken (s : State ε) (p' : ConnPool ℕ ε) : State ε → List (Op ε) → Prop where
  | keep {l : List (Op ε)} (hk : Keeps s.pool p') (hl : ∀ o ∈ l, o.Plain) : Taken s p' { s with pool := p' } l
  | hand (conn : ℕ) (created : Bool) (hk : Keeps s.pool p') (ho : s.pool.closed = false)
    (hc : conn ∈ tracked s.pool s.pool.state) : Taken s p' ({ s with pool := p' }.hand conn created) []
  | dead {conn : ℕ} {o : Op ε} (hr : Removes s.pool p' conn) (ho : o.Plain) :
    Taken s p' { s with pool := p' } [.closeConn conn, o]

lemma taken_acquired {a : Acquired ℕ ε} (ha : Outcome s.pool p' a)
    (hx : { s with pool := p' }.acquired a = (s', new, started)) : Taken s p' s' (new ++ started) := by
  cases a <;> cases hx
  case error | retry => exact .keep ha (by simp)
  case wait state connect startDial =>
    exact .keep ha (by cases startDial <;> simp)
  case conn conn created => exact .hand conn created ha.1 ha.2.1 ha.2.2
  case dead conn => exact .dead ha ⟨rfl, rfl, rfl⟩

lemma taken_acquiredOrdered {a : AcquiredOrdered ℕ ε} (ha : OutcomeOrdered s.pool p' a)
    (hx : { s with pool := p' }.acquiredOrdered a = (s', new, started)) : Taken s p' s' (new ++ started) := by
  cases a <;> cases hx
  case error | dialAndInstall => exact .keep ha (by simp)
  case conn conn => exact .hand conn false ha.1 ha.2.1 ha.2.2
  case dead conn => exact .dead ha ⟨rfl, rfl, rfl⟩

lemma Taken.gens (h : Taken s p' s' l) (hg : (view s m).Inv) : (view s' (↑l + m)).Inv := by
  cases h with
  | keep hk hl => rwa [view_append hl, view_keeps hk]
  | hand conn created hk _ hc =>
    rw [pending_nil_add]
    exact gens_hand created (by rwa [hk.tracked, hk.state]) (view_keeps hk ▸ hg)
  | dead hr ho =>
    rw [pending_cons_add, pending_cons_add, pending_nil_add]
    exact gens_removes hr (by rwa [view_cons ho])

/-- The sections that take a turn. -/
def Op.Turns : Op ε → Prop
  | acquireShared | collectShared .. | acquireOrdered => True
  | _ => False

lemma exec_turn (hx : exec mode maxInflight o x s = some (s', new, started)) (ho : o.Turns)
    (hcode : ∀ k, o.codeOf = some k → k = mode) (hp : ∀ n, Sound mode (s.pool.states n)) :
    ∃ p', Taken s p' s' (new ++ started) ∧ ∀ n, Sound mode (p'.states n) := by
  cases o with
  | acquireShared =>
    obtain rfl := hcode _ rfl
    have ht := acquireShared_turned x.alive s.pool
    exact ⟨_, taken_acquired (ht.outcome (hp _)) (some.inj hx), sound_turned hp ht⟩
  | collectShared state connect startDial =>
    obtain rfl := hcode _ rfl
    have ht := collectShared_turned x.alive s.pool state connect startDial
    exact ⟨_, taken_acquired (ht.outcome (hp _)) (some.inj hx), sound_turned hp ht⟩
  | acquireOrdered =>
    obtain rfl := hcode _ rfl
    exact ⟨_, taken_acquiredOrdered (acquireOrdered_outcome (hp _) x.alive) (some.inj hx),
      sound_acquireOrdered hp x.alive⟩
  | _ => cases ho

lemma gens_connectInstall {state connect : ℕ} {dialed : Except (ConnError ε) ℕ}
    (hx : exec mode maxInflight (.connectInstall state connect dialed) x s = some (s', new, started))
    (hg : (view s (.connectInstall state connect dialed ::ₘ m)).Inv) : (view s' (↑(new ++ started) + m)).Inv := by
  cases hx
  rcases install_spec s.pool state connect dialed with ⟨err, rfl, hk, hi⟩ | ⟨conn, rfl, h⟩
  · rw [hi, toList_none, map_nil, nil_append, append_nil, pending_cons_add, pending_nil_add,
      view_cons ⟨rfl, rfl, rfl⟩, view_keeps hk]
    rwa [view_cons ⟨rfl, rfl, rfl⟩] at hg
  · have hg' : (view s (.connectInstall state connect (.ok conn) ::ₘ .connectDone connect ::ₘ m)).Inv := by
      rwa [cons_swap, view_cons ⟨rfl, rfl, rfl⟩]
    rcases h with ⟨hk, hi⟩ | ⟨ht, hi⟩
    · rw [hi, toList_some, List.map_singleton, append_nil, cons_append, nil_append,
        pending_cons_add, pending_cons_add, pending_nil_add, view_keeps hk]
      exact gens_drop hg' rfl rfl rfl
    · rw [hi, toList_none, map_nil, nil_append, append_nil, pending_cons_add, pending_nil_add]
      exact gens_track ht hg' rfl rfl rfl

lemma gens_returned {closes : Bool} (h : Returned s.pool p' conn closes)
    (hc : conn ∈ s.log.filterMap PoolEvent.handedConn) (hg : (view s m).Inv) : (view { s with pool := p' }
      (((if closes then [.closeConn conn] else [] : List (Op ε)) : Multiset (Op ε)) + m)).Inv := by
  rcases h with ⟨rfl, hk⟩ | ⟨rfl, hr⟩ | ⟨rfl, hk, hn⟩
  · rw [if_neg Bool.false_ne_true, pending_nil_add, view_keeps hk]
    exact hg
  · exact gens_removes hr hg
  · rw [if_pos rfl, pending_cons_add, pending_nil_add, view_keeps hk, view_closeConn]
    exact hg.step (.giveUp hc hn)

lemma gens_exec (hx : exec mode maxInflight o x s = some (s', new, started)) (h : Inv mode s (o ::ₘ m)) :
    (view s' (↑(new ++ started) + m)).Inv := by
  have hg := h.gens
  have hcode := h.code o (mem_cons_self _ _)
  have hplain : o.Plain → (view s m).Inv := fun ho => view_cons ho ▸ hg
  cases o with
  | connectInstall state connect dialed => exact gens_connectInstall hx hg
  | install state conn =>
    simp only [exec] at hx
    rcases installOrdered_spec s.pool state conn with ⟨hk, hi⟩ | ⟨ht, hi⟩
    · rw [hi] at hx
      cases hx
      rw [append_nil, pending_cons_add, pending_nil_add, view_keeps hk]
      exact gens_drop hg rfl rfl rfl
    · rw [hi] at hx
      cases hx
      rw [append_nil, pending_nil_add]
      refine gens_hand true ?_ (gens_track ht hg rfl rfl rfl)
      rw [ht.tracked, ht.state, Function.update_self]
      exact mem_cons_self
  | closeConns state =>
    cases hx
    rw [append_nil, view_map_closeConn]
    rw [view_closeConns] at hg
    exact hg.step (.retire rfl)
  | closeConn conn =>
    cases hx
    rw [append_nil, pending_nil_add]
    rw [view_closeConn] at hg
    exact hg.step (.close rfl)
  | acquireShared | collectShared | acquireOrdered =>
    obtain ⟨p', ht, -⟩ := exec_turn hx trivial hcode h.sound
    exact ht.gens (hplain ⟨rfl, rfl, rfl⟩)
  | await | acquireSlot | releaseSlot | connectDone connect =>
    simp only [exec] at hx
    repeat' split at hx
    all_goals cases hx
    all_goals
      rw [view_append (by simp)]
      exact hplain ⟨rfl, rfl, rfl⟩
  | connectDial state connect =>
    rw [view_cons ⟨rfl, rfl, rfl⟩] at hg
    simp only [exec] at hx
    repeat' split at hx
    all_goals cases hx
    all_goals simp only [append_nil, pending_cons_add, pending_nil_add]
    · rwa [view_cons ⟨rfl, rfl, rfl⟩]
    · exact gens_make hg rfl rfl rfl
    · exact gens_waste (by rwa [view_cons ⟨rfl, rfl, rfl⟩])
  | dial state =>
    rw [view_cons ⟨rfl, rfl, rfl⟩] at hg
    simp only [exec] at hx
    repeat' split at hx
    all_goals cases hx
    all_goals simp only [append_nil, pending_nil_add]
    · exact hg
    · exact gens_make hg rfl rfl rfl
    · exact gens_waste hg
  | release conn reuse =>
    cases hx
    rw [append_nil]
    exact gens_returned (release_returned mode s.pool x.alive conn reuse) (h.held conn (by simp [Op.returns]))
      (hplain ⟨rfl, rfl, rfl⟩)
  | invalidate conn cause =>
    cases hx
    rw [append_nil]
    exact gens_returned (invalidate_returned mode s.pool conn cause) (h.held conn (by simp [Op.returns]))
      (hplain ⟨rfl, rfl, rfl⟩)
  | reset | close =>
    cases hx
    have hg := hplain ⟨rfl, rfl, rfl⟩
    rw [append_nil]
    dsimp only [ConnPool.reset, ConnPool.close]
    split
    · exact (pending_nil_add m).symm ▸ hg
    · simp only [closeState, pending_cons_add, pending_nil_add]
      rw [view_cons ⟨rfl, rfl, rfl⟩, view_closeConns]
      first | exact hg.step .replace | exact hg.step .shutdown
  | cancelState state =>
    cases hx
    rw [append_nil, pending_nil_add, view_keeps (cancelState_keeps s.pool state _)]
    exact hplain ⟨rfl, rfl, rfl⟩

/-! ### What a section does besides -/

attribute [local simp] Op.returns Op.codeOf

/-- What a section adds to the history: nothing, the end of a connection, or the hand-out of one that is tracked. -/
inductive History (s s' : State ε) : Prop where
  | same (hh : s'.holders = s.holders) (hl : s'.log = s.log)
  | closed (conn : ℕ) (hh : s'.holders = s.holders) (hl : s'.log = .closed conn :: s.log)
  | handed (conn : ℕ) (created : Bool) (hh : s'.holders = conn :: s.holders)
    (hl : s'.log = .handed conn created :: s.log) (ho : s'.pool.closed = false)
    (ht : conn ∈ tracked s'.pool s'.pool.state)

/-- A section that neither changes the pool nor hands out, returns or closes a connection. -/
def Op.Idle : Op ε → Prop
  | await .. | connectDial .. | acquireSlot _ | dial _ | releaseSlot | closeConns _ => True
  | _ => False

/-- Sections that do not return a connection and are of no mode but one. -/
def Continues (code : Option ConnPoolMode) (l : List (Op ε)) : Prop :=
  ∀ o ∈ l, o.returns = none ∧ ∀ k, o.codeOf = some k → code = some k

attribute [local simp] Continues

lemma acquired_continues {a : Acquired ℕ ε} (hx : s.acquired a = (s', new, started)) :
    Continues (some .single) (new ++ started) := by
  cases a with
  | error | conn | dead | retry | wait state connect startDial =>
    cases hx
    simp

/-- The sections that take the place of `o` are of its mode. -/
lemma exec_continues (hx : exec mode maxInflight o x s = some (s', new, started)) :
    Continues o.codeOf (new ++ started) := by
  unfold exec at hx
  cases o with
  | acquireShared | collectShared => exact acquired_continues (some.inj hx)
  | await | connectDial | acquireSlot | dial | install | connectDone | releaseSlot | cancelState | closeConn
  | closeConns state | release | invalidate =>
    dsimp only at hx
    repeat' split at hx
    all_goals cases hx
    all_goals simp
  | connectInstall state connect dialed =>
    cases hx
    cases (s.pool.install state connect dialed).2 <;> simp
  | acquireOrdered =>
    have hx := some.inj hx
    cases ha : (s.pool.acquireOrdered x.alive).2 <;> rw [ha] at hx <;> cases hx <;>
      simp
  | reset | close =>
    cases hx
    unfold closeState
    split <;> simp

lemma Taken.history (h : Taken s p' s' l) : History s s' := by
  cases h with
  | keep | dead => exact .same rfl rfl
  | hand conn created hk ho hc =>
    refine .handed conn created rfl rfl (hk.closed.trans ho) ?_
    change conn ∈ tracked p' p'.state
    rwa [hk.tracked, hk.state]

lemma exec_frame (hx : exec mode maxInflight o x s = some (s', new, started)) (ho : o.Idle) :
    s'.pool = s.pool ∧ s'.holders = s.holders ∧ s'.log = s.log := by
  unfold exec at hx
  cases o with
  | await | connectDial | acquireSlot | dial | releaseSlot | closeConns =>
    dsimp only at hx
    repeat' split at hx
    all_goals cases hx
    all_goals exact ⟨rfl, rfl, rfl⟩
  | _ => cases ho

lemma exec_history (hx : exec mode maxInflight o x s = some (s', new, started))
    (hcode : ∀ k, o.codeOf = some k → k = mode) (hp : ∀ n, Sound mode (s.pool.states n)) : History s s' := by
  have hf := exec_frame hx
  have hturn := exec_turn hx
  unfold exec at hx
  cases o with
  | acquireShared | collectShared | acquireOrdered =>
    obtain ⟨p', ht, -⟩ := hturn trivial hcode hp
    exact ht.history
  | install state conn =>
    dsimp only at hx
    rcases installOrdered_spec s.pool state conn with ⟨hk, hi⟩ | ⟨ht, hi⟩
    · rw [hi] at hx
      cases hx
      exact .same rfl rfl
    · rw [hi] at hx
      cases hx
      refine .handed conn true rfl rfl (ht.closed.trans ht.opened) ?_
      change conn ∈ tracked (s.pool.installOrdered state conn).1 (s.pool.installOrdered state conn).1.state
      rw [ht.tracked, ht.state, Function.update_self]
      exact mem_cons_self
  | closeConn conn =>
    cases hx
    exact .closed conn rfl rfl
  | await | connectDial | acquireSlot | dial | releaseSlot | closeConns =>
    obtain ⟨-, hh, hl⟩ := hf trivial
    exact .same hh hl
  | connectInstall | connectDone | release | invalidate | reset | close | cancelState =>
    cases hx
    exact .same rfl rfl

lemma Taken.pool (h : Taken s p' s' l) : s'.pool = p' := by
  cases h <;> rfl

lemma sound_exec (hx : exec mode maxInflight o x s = some (s', new, started))
    (hcode : ∀ k, o.codeOf = some k → k = mode) (hp : ∀ n, Sound mode (s.pool.states n)) (n : ℕ) :
    Sound mode (s'.pool.states n) := by
  have hf := exec_frame hx
  have hturn := exec_turn hx
  unfold exec at hx
  cases o with
  | acquireShared | collectShared | acquireOrdered =>
    obtain ⟨p', ht, hs⟩ := hturn trivial hcode hp
    exact ht.pool ▸ hs n
  | connectInstall state connect dialed =>
    obtain rfl := hcode _ rfl
    cases hx
    exact sound_install hp state connect dialed n
  | install state conn =>
    obtain rfl := hcode _ rfl
    dsimp only at hx
    split at hx <;> cases hx <;> exact sound_installOrdered hp state conn n
  | release conn reuse =>
    cases hx
    exact sound_release hp x.alive conn reuse n
  | invalidate conn cause =>
    cases hx
    exact sound_invalidate hp conn cause n
  | reset | close =>
    cases hx
    dsimp only [ConnPool.reset, ConnPool.close]
    split <;> exact hp n
  | cancelState state =>
    cases hx
    exact sound_cancelState hp state .closed n
  | await | connectDial | acquireSlot | dial | releaseSlot | closeConns =>
    rw [(hf trivial).1]
    exact hp n
  | connectDone | closeConn =>
    cases hx
    exact hp n

lemma filterMap_returns {code : Option ConnPoolMode} (h : Continues code l) :
    (↑l + m).filterMap Op.returns = m.filterMap Op.returns := by
  induction l with
  | nil => rw [pending_nil_add]
  | cons o l ih =>
    rw [pending_cons_add, filterMap_cons_none _ _ (h o mem_cons_self).1]
    exact ih fun o' ho' => h o' (mem_cons_of_mem o ho')

theorem Inv.exec (hx : exec mode maxInflight o x s = some (s', new, started)) (h : Inv mode s (o ::ₘ m)) :
    Inv mode s' (↑(new ++ started) + m) := by
  have hcode := h.code o (mem_cons_self _ _)
  have hcont := exec_continues hx
  refine ⟨fun o' ho' k hk => ?_, sound_exec hx hcode h.sound, ?_, gens_exec hx h⟩
  · rcases mem_add.1 ho' with ho' | ho'
    · exact hcode k ((hcont o' ho').2 k hk)
    · exact h.code o' (mem_cons_of_mem ho') k hk
  · intro conn hc
    rw [filterMap_returns hcont] at hc
    have hheld : conn ∈ (s.holders : Multiset ℕ) + m.filterMap Op.returns →
        conn ∈ s.log.filterMap PoolEvent.handedConn := fun hc => h.held conn <| by
      refine mem_of_le (add_le_add_right ?_ _) hc
      exact filterMap_le_filterMap _ (le_cons_self m o)
    rcases exec_history hx hcode h.sound with ⟨hh, hl⟩ | ⟨d, hh, hl⟩ | ⟨d, created, hh, hl, -, -⟩
    · rw [hh] at hc
      rw [hl]
      exact hheld hc
    · rw [hh] at hc
      rw [hl]
      exact hheld hc
    · rw [hh, ← cons_coe, cons_add, Multiset.mem_cons] at hc
      rw [hl]
      rcases hc with rfl | hc
      · exact mem_cons_self
      · exact mem_cons_of_mem _ (hheld hc)

lemma Inv.nil : Inv mode ({} : State ε) 0 where
  code o ho := by simp at ho
  sound n := by
    cases mode with
    | single => exact ⟨fun conn h => (by cases h), fun _ => rfl, fun _ => rfl⟩
    | ordered => exact ⟨fun conn h => (by cases h), nodup_nil⟩
  held conn hc := by simp at hc
  gens := by
    refine ⟨fun n _ => rfl, fun n d h => ?_, fun d n n' h => ?_, nodup_zero, fun d h => ?_, fun d h => ?_,
      fun d h => ?_, fun d h => ?_, fun d h => ?_, fun d h => ?_⟩ <;> cases h

lemma tokens_return (hc : conn ∈ s.holders) (ho : o.returns = some conn) :
    ((s.holders.erase conn : List ℕ) : Multiset ℕ) + (o ::ₘ m).filterMap Op.returns =
      ↑s.holders + m.filterMap Op.returns := by
  rw [filterMap_cons_some _ _ _ ho, add_cons, ← cons_add, cons_coe, coe_eq_coe.2 (perm_cons_erase hc).symm]

/-- A call adds at most a section of its own; a holder who gives their connection back does not hold it any more. -/
lemma entry_spec (mode : ConnPoolMode) (k : Call ε) (s : State ε) : ∃ holders l,
    entry mode k s = ({ s with holders }, l) ∧
    (∀ o ∈ l, o.Plain ∧ o.connects = none ∧ ∀ k, o.codeOf = some k → k = mode) ∧
    ∀ m : Multiset (Op ε), (holders : Multiset ℕ) + (↑l + m).filterMap Op.returns =
      ↑s.holders + m.filterMap Op.returns := by
  have hsame {o : Op ε} (ho : o.returns = none) (m : Multiset (Op ε)) :
      (s.holders : Multiset ℕ) + (↑[o] + m).filterMap Op.returns = ↑s.holders + m.filterMap Op.returns := by
    simp [filterMap_cons_none _ _ ho]
  have hplain {o : Op ε} (ho : o.Plain ∧ o.connects = none ∧ ∀ k, o.codeOf = some k → k = mode) :
      ∀ o' ∈ [o], o'.Plain ∧ o'.connects = none ∧ ∀ k, o'.codeOf = some k → k = mode := by simpa using ho
  cases k with
  | acquire | reset | close => cases mode <;> exact ⟨_, _, rfl, hplain ⟨⟨rfl, rfl, rfl⟩, rfl, by simp⟩, hsame rfl⟩
  | acquireShared =>
    cases mode with
    | single => exact ⟨_, _, rfl, hplain ⟨⟨rfl, rfl, rfl⟩, rfl, by simp⟩, hsame rfl⟩
    | ordered => exact ⟨_, [], rfl, by simp, fun m => by simp⟩
  | release conn | invalidate conn =>
    by_cases hc : conn ∈ s.holders
    · exact ⟨_, [_], if_pos hc, hplain ⟨⟨rfl, rfl, rfl⟩, rfl, by simp⟩, fun m => tokens_return hc rfl⟩
    · exact ⟨_, [], if_neg hc, by simp, fun m => by simp⟩

lemma Inv.entry (h : Inv mode s m) (k : Call ε) : Inv mode (entry mode k s).1 (↑(PoolRuns.entry mode k s).2 + m) := by
  obtain ⟨holders, l, he, hl, hheld⟩ := entry_spec mode k s
  rw [he]
  refine ⟨fun o' ho' k hk => ?_, h.sound, fun conn hc => h.held conn (hheld m ▸ hc), ?_⟩
  · rcases mem_add.1 ho' with ho' | ho'
    · exact (hl o' ho').2.2 k hk
    · exact h.code o' ho' k hk
  · rw [view_append fun o ho => (hl o ho).1]
    exact h.gens

end

end SingBox.Dns.PoolRuns
