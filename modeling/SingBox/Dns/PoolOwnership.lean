import SingBox.Dns.PoolGenerations

/-!
# Who owns the connections of a pool

When connections are handed out in order, each is held by one caller at a time: those that are held, that are being
given back and that are idle are different ones (`tokens`).  When one connection is shared, every state of the pool has
at most one dial in progress, and a connection that is handed out is said to have been created once (`Sharing`).  In
both modes no connection is handed out after it has been closed, and all have been closed once the pool is and nobody
is left who dials or closes one.
-/

namespace SingBox.Dns.PoolRuns

open Lib List Multiset Option

variable {ε : Type} {mode : ConnPoolMode} {maxInflight : ℤ}

def Op.dials : Op ε → Option ℕ
  | connectDial state _ => some state
  | _ => none

/-- A section of a caller who waits for a connection, or one that only accounts for the end of a dial: not a dial, and
not one that has a connection to install, to give back or to close. -/
def Op.Waiting : Op ε → Prop
  | acquireShared | await .. | collectShared .. | connectDone _ | acquireOrdered | acquireSlot _ | releaseSlot
  | cancelState _ => True
  | _ => False

/-- No connection is handed out after it has been closed. -/
def NotAfterClosed (log : List PoolEvent) : Prop :=
  log.Pairwise fun later earlier => ∀ conn created, later = .handed conn created → earlier ≠ .closed conn

structure Owned (mode : ConnPoolMode) (c : Config (State ε) (Op ε)) : Prop where
  one_holder : mode = .ordered → c.shared.holders.Nodup
  not_closed : NotAfterClosed c.shared.log
  one_dial : mode = .single → (c.pending.filterMap Op.dials).Nodup
  /-- One of those who have been handed a connection is told that it was created. -/
  told_once : mode = .single → ∀ conn created, .handed conn created ∈ c.shared.log →
    c.shared.log.count (.handed conn true) = 1
  /-- A closed pool has closed all connections, when the sections that close them are done. -/
  all_closed : c.shared.pool.closed = true → (∀ o ∈ c.pending, o.Waiting) →
    ∀ conn < c.shared.dialed, .closed conn ∈ c.shared.log

section

variable {s s' : State ε} {o : Op ε} {x : Input ε} {new started : List (Op ε)} {m : Multiset (Op ε)}

/-! ### Connections in order -/

/-- The holders of connections, those who are giving one back, and the idle connections. -/
def tokens (s : State ε) (m : Multiset (Op ε)) : Multiset ℕ :=
  ↑s.holders + m.filterMap Op.returns + ↑s.pool.current.idle

lemma tokens_cons (ho : o.returns = none) : tokens s (o ::ₘ m) = tokens s m := by
  rw [tokens, filterMap_cons_none _ _ ho, tokens]

/-- Who keeps their connection and hands out none takes at most idle connections away. -/
lemma tokens_le {l : List (Op ε)} {code : Option ConnPoolMode} (hl : Continues code l) (hh : s'.holders = s.holders)
    (hi : (s'.pool.current.idle : Multiset ℕ) ≤ s.pool.current.idle) : tokens s' (↑l + m) ≤ tokens s (o ::ₘ m) := by
  rw [tokens, filterMap_returns hl, hh]
  exact add_le_add (add_le_add le_rfl (filterMap_le_filterMap _ (le_cons_self m o))) hi

variable (p : ConnPool ℕ ε)

lemma idle_removeOrdered (conn : ℕ) : ((p.removeOrdered conn).current.idle : Multiset ℕ) ≤ p.current.idle := by
  simp only [ConnPool.removeOrdered, ConnPool.current, ConnPool.setState, Function.update_self]
  exact filter_sublist.subperm

lemma idle_releaseOrdered (alive : ℕ → Bool) (conn : ℕ) (reuse : Bool) :
    ((p.releaseOrdered alive conn reuse).1.current.idle : Multiset ℕ) ≤ conn ::ₘ p.current.idle := by
  have hle := le_cons_self (p.current.idle : Multiset ℕ) conn
  rcases releaseOrdered_givenBack p conn alive reuse with hg | ⟨-, -, hg⟩
  · exact hg.elim (P := fun q => (q.current.idle : Multiset ℕ) ≤ _) hle ((idle_removeOrdered p conn).trans hle)
  · simp only [hg, ConnPool.current, ConnPool.setState, Function.update_self]
    rw [← coe_add, add_comm]
    exact le_rfl

lemma idle_installOrdered (state conn : ℕ) : (p.installOrdered state conn).1.current.idle = p.current.idle := by
  unfold ConnPool.installOrdered
  split
  · rfl
  · split
    · rfl
    · exact setState_same p PoolState.idle (by rfl) p.state

lemma idle_cancelState (state : ℕ) (cause : ConnError ε) :
    (p.cancelState state cause).current.idle = p.current.idle := by
  unfold ConnPool.cancelState
  split <;> exact setState_same p PoolState.idle (by rfl) p.state

attribute [local simp] ConnPool.setState

/-- A section hands out what is idle or has been dialed, and makes idle what is given back. -/
lemma tokens_exec (hx : exec .ordered maxInflight o x s = some (s', new, started)) (h : Inv .ordered s (o ::ₘ m)) :
    tokens s' (↑(new ++ started) + m) ≤ tokens s (o ::ₘ m) ∨
      ∃ conn, o.arriving = some conn ∧ tokens s' (↑(new ++ started) + m) = conn ::ₘ tokens s (o ::ₘ m) := by
  have hl := exec_continues hx
  have hcode := h.code o (mem_cons_self _ _)
  have hf := exec_frame hx
  unfold exec at hx
  cases o with
  | acquireShared | await | collectShared | connectDial | connectInstall | connectDone => cases hcode _ rfl
  | acquireOrdered =>
    unfold ConnPool.acquireOrdered at hx
    dsimp only at hx
    split at hx
    · cases hx
      exact .inl (tokens_le hl rfl le_rfl)
    · split at hx
      next conn idle hi =>
        split at hx
        · cases hx
          refine .inl (le_of_eq ?_)
          rw [tokens_cons rfl, tokens, tokens, hi]
          simp [State.hand, ConnPool.current, ← cons_coe]
        · cases hx
          refine .inl (tokens_le hl rfl ?_)
          rw [hi]
          simp [ConnPool.current, ← cons_coe, le_cons_self]
      next =>
        cases hx
        exact .inl (tokens_le hl rfl le_rfl)
  | install state conn =>
    dsimp only at hx
    split at hx <;> cases hx
    · refine .inr ⟨conn, rfl, ?_⟩
      rw [tokens_cons rfl, tokens, tokens]
      simp [State.hand, idle_installOrdered]
    · exact .inl (tokens_le hl rfl (congrArg _ (idle_installOrdered s.pool state conn)).le)
  | release conn reuse =>
    cases hx
    refine .inl ?_
    have hret : (.release conn reuse ::ₘ m).filterMap Op.returns = conn ::ₘ m.filterMap Op.returns :=
      filterMap_cons_some _ _ _ rfl
    rw [tokens, tokens, filterMap_returns hl, hret, add_cons, cons_add, ← add_cons]
    exact add_le_add le_rfl (idle_releaseOrdered s.pool x.alive conn reuse)
  | invalidate conn cause =>
    cases hx
    refine .inl (tokens_le hl rfl ?_)
    exact (invalidateOrdered_givenBack s.pool conn).elim (P := fun q => (q.current.idle : Multiset ℕ) ≤ _) le_rfl
      (idle_removeOrdered s.pool conn)
  | reset =>
    cases hx
    refine .inl (tokens_le hl rfl ?_)
    unfold ConnPool.reset
    split
    · exact le_rfl
    · -- nothing is tracked yet in the new state, and so nothing is idle
      have hall : (s.pool.states (s.pool.state + 1)).all = [] := h.gens.future _ (Nat.lt_succ_self _)
      have hidle : (s.pool.states (s.pool.state + 1)).idle = [] :=
        eq_nil_iff_forall_not_mem.2 fun conn hc => by
          have := (h.sound (s.pool.state + 1)).tracked conn hc
          rw [hall] at this
          cases this
      simpa [ConnPool.current, hidle] using zero_le _
  | close =>
    cases hx
    refine .inl (tokens_le hl rfl ?_)
    unfold ConnPool.close
    split <;> rfl
  | cancelState state =>
    cases hx
    exact .inl (tokens_le hl rfl (congrArg _ (idle_cancelState s.pool state _)).le)
  | acquireSlot | dial | releaseSlot | closeConns =>
    obtain ⟨hp, hh, -⟩ := hf trivial
    exact .inl (tokens_le hl hh (by rw [hp]))
  | closeConn =>
    cases hx
    exact .inl (tokens_le hl rfl le_rfl)

variable {conn : ℕ}

lemma Inv.arriving_not_token (h : Inv .ordered s m) (hc : conn ∈ (view s m).arriving) : conn ∉ tokens s m := by
  rw [tokens, mem_add]
  rintro (ht | ht)
  · exact (h.gens.lent conn (h.held conn ht)).2 hc
  · exact (h.gens.arriving conn hc).2 _ ((h.sound _).tracked conn (mem_coe.1 ht))

lemma nodup_tokens_exec (hx : exec .ordered maxInflight o x s = some (s', new, started))
    (h : Inv .ordered s (o ::ₘ m)) (hn : (tokens s (o ::ₘ m)).Nodup) : (tokens s' (↑(new ++ started) + m)).Nodup := by
  rcases tokens_exec hx h with hle | ⟨conn, ho, he⟩
  · exact nodup_of_le hle hn
  · rw [he, Multiset.nodup_cons]
    refine ⟨h.arriving_not_token ?_, hn⟩
    exact (mem_filterMap _ _).2 ⟨o, mem_cons_self _ _, ho⟩

lemma nodup_tokens_entry (k : Call ε) (hn : (tokens s m).Nodup) :
    (tokens (entry mode k s).1 (↑(entry mode k s).2 + m)).Nodup := by
  obtain ⟨holders, l, he, -, hheld⟩ := entry_spec mode k s
  rw [he, tokens, hheld]
  exact hn

/-! ### A shared connection -/

structure Sharing (s : State ε) (m : Multiset (Op ε)) : Prop where
  connecting : ∀ n, (s.pool.states n).connecting.isSome ↔ n ∈ m.filterMap Op.connects
  once : (m.filterMap Op.connects).Nodup
  claimed : ∀ conn, s.pool.current.shared = some conn →
    (s.pool.current.sharedClaimed = true ↔ conn ∈ s.log.filterMap PoolEvent.handedConn)
  told : ∀ conn ∈ s.log.filterMap PoolEvent.handedConn, s.log.count (.handed conn true) = 1

/-- A pool may lose its shared connection, and nothing else about it changes. -/
structure Loses (p p' : ConnPool ℕ ε) : Prop where
  state : p'.state = p.state
  connecting : ∀ n, (p'.states n).connecting.isSome = (p.states n).connecting.isSome
  shared : p'.current.shared = none ∨
    p'.current.shared = p.current.shared ∧ p'.current.sharedClaimed = p.current.sharedClaimed

lemma Loses.refl : Loses p p := ⟨rfl, fun _ => rfl, .inr ⟨rfl, rfl⟩⟩

variable {p' : ConnPool ℕ ε}

lemma Sharing.loses (hp : Loses s.pool p') (h : Sharing s m) : Sharing { s with pool := p' } m := by
  refine ⟨fun n => ?_, h.once, fun conn hc => ?_, h.told⟩
  · rw [hp.connecting n]
    exact h.connecting n
  · rcases hp.shared with hs | ⟨hs, hcl⟩
    · rw [hs] at hc
      cases hc
    · rw [hs] at hc
      rw [hcl]
      exact h.claimed conn hc

lemma Sharing.of_eq {m' : Multiset (Op ε)} (h : Sharing s m) (hp : s'.pool = s.pool) (hl : s'.log = s.log)
    (hm : m'.filterMap Op.connects = m.filterMap Op.connects) : Sharing s' m' := by
  obtain ⟨h1, h2, h3, h4⟩ := h
  exact ⟨by rwa [hp, hm], by rwa [hm], by rwa [hp, hl], by rwa [hl]⟩

lemma Sharing.cons (ho : o.connects = none) : Sharing s (o ::ₘ m) ↔ Sharing s m :=
  have hf : (o ::ₘ m).filterMap Op.connects = m.filterMap Op.connects := filterMap_cons_none _ _ ho
  ⟨fun h => h.of_eq rfl rfl hf.symm, fun h => h.of_eq rfl rfl hf⟩

lemma Sharing.append {l : List (Op ε)} (h : Sharing s m) (hl : ∀ o ∈ l, o.connects = none) : Sharing s (↑l + m) := by
  induction l with
  | nil => rwa [pending_nil_add]
  | cons o l ih =>
    rw [pending_cons_add, Sharing.cons (hl o mem_cons_self)]
    exact ih fun o' ho' => hl o' (mem_cons_of_mem o ho')

attribute [local simp] Op.connects

lemma closeState_connects (state : Option ℕ) : ∀ o ∈ (closeState state : List (Op ε)), o.connects = none := by
  cases state <;> simp [closeState]

lemma loses_setState (state : PoolState ℕ ε) (hc : state.connecting = p.current.connecting)
    (hs : state.shared = none ∨ state.shared = p.current.shared ∧ state.sharedClaimed = p.current.sharedClaimed) :
    Loses p (p.setState p.state state) := by
  refine ⟨rfl, setState_same p (·.connecting.isSome) (by rw [hc]; rfl), ?_⟩
  simpa [ConnPool.current] using hs

lemma loses_removeConn (conn : ℕ) (cause : ConnError ε) : Loses p (p.removeConn conn cause) := by
  unfold ConnPool.removeConn
  split
  · obtain ⟨h1, h2, h3⟩ := loses_setState p { p.current with
      all := p.current.all.filter (· ≠ conn), shared := none, sharedClaimed := false } rfl (.inl rfl)
    exact ⟨h1, h2, h3⟩
  · exact loses_setState p _ rfl (.inr ⟨rfl, rfl⟩)

/-- What a turn of `acquireShared` does to the shared connection and the dials. -/
def Turn (p p' : ConnPool ℕ ε) : Acquired ℕ ε → Prop
  | .conn conn created => p.current.shared = some conn ∧ created = !p.current.sharedClaimed ∧
      p' = p.setState p.state { p.current with sharedClaimed := true }
  | .wait state connect true => state = p.state ∧ p.current.shared = none ∧ p.current.connecting = none ∧
      p' = { p.setState p.state { p.current with connecting := some connect } with connectCount := p.connectCount + 1 }
  | .wait _ _ false | .error _ | .dead _ | .retry => Loses p p'

lemma Turned.turn {p : ConnPool ℕ ε} {r : ConnPool ℕ ε × Acquired ℕ ε} (h : Turned p r) : Turn p r.1 r.2 := by
  cases h with
  | error | wait | retry => exact Loses.refl p
  | hand conn ho hc => exact ⟨hc, rfl, rfl⟩
  | dead conn hc => exact loses_removeConn p conn _
  | dial hs hn => exact ⟨rfl, hs, hn, rfl⟩

lemma handed_of_mem {log : List PoolEvent} {created : Bool} (h : .handed conn created ∈ log) :
    conn ∈ log.filterMap PoolEvent.handedConn := mem_filterMap.2 ⟨_, h, rfl⟩

/-- The shared connection is handed out, and the first one to whom it is handed is told that it was created. -/
lemma Sharing.hand (h : Sharing s m) (hc : s.pool.current.shared = some conn) :
    Sharing ({ s with pool := s.pool.setState s.pool.state { s.pool.current with sharedClaimed := true } }.hand conn
      !s.pool.current.sharedClaimed) m := by
  refine ⟨fun n => ?_, h.once, fun d hd => ?_, fun d hd => ?_⟩
  · rw [← h.connecting n]
    exact iff_of_eq (setState_same s.pool (·.connecting.isSome = true) (by rfl) n)
  · have hd' : s.pool.current.shared = some d := by
      simpa [State.hand, ConnPool.current] using hd
    obtain rfl := some.inj (hc.symm.trans hd')
    simp [State.hand, ConnPool.current, PoolEvent.handedConn]
  · change (PoolEvent.handed conn _ :: s.log).count (.handed d true) = 1
    have hcl := h.claimed conn hc
    by_cases hdc : d = conn
    · subst hdc
      cases hs : s.pool.current.sharedClaimed with
      | true =>
        have := h.told d (hcl.1 hs)
        simpa using this
      | false =>
        have hn : s.log.count (.handed d true) = 0 := count_eq_zero.2 fun hm => by
          rw [hcl.2 (handed_of_mem hm)] at hs
          cases hs
        simp [hn]
    · have := h.told d ((List.mem_cons.1 hd).resolve_left hdc)
      rw [List.count_cons_of_ne (by simpa using fun he => absurd he.symm hdc)]
      exact this

lemma Sharing.dial {connect : ℕ} (h : Sharing s m) (hs : s.pool.current.shared = none)
    (hn : s.pool.current.connecting = none)
    (hp : p' = { s.pool.setState s.pool.state { s.pool.current with connecting := some connect } with
      connectCount := s.pool.connectCount + 1 }) :
    Sharing { s with pool := p' } (.connectDial s.pool.state connect ::ₘ m) := by
  subst hp
  have hf : (.connectDial s.pool.state connect ::ₘ m).filterMap Op.connects =
      s.pool.state ::ₘ m.filterMap Op.connects := filterMap_cons_some _ _ _ rfl
  have hnot : s.pool.state ∉ m.filterMap Op.connects := fun hm => by
    have hc := (h.connecting s.pool.state).2 hm
    rw [ConnPool.current] at hn
    rw [hn] at hc
    cases hc
  refine ⟨fun n => ?_, ?_, fun conn hc => ?_, h.told⟩
  · rw [hf, Multiset.mem_cons, ← h.connecting n]
    by_cases hn : n = s.pool.state
    · subst hn
      simp
    · simp [hn]
  · rw [hf, Multiset.nodup_cons]
    exact ⟨hnot, h.once⟩
  · have hc' : s.pool.current.shared = some conn := by
      simpa [ConnPool.current] using hc
    rw [hs] at hc'
    cases hc'

lemma Sharing.acquired {a : Acquired ℕ ε} (ha : Turn s.pool p' a)
    (hx : { s with pool := p' }.acquired a = (s', new, started)) (h : Sharing s m) :
    Sharing s' (↑(new ++ started) + m) := by
  cases a with
  | error | dead | retry =>
    cases hx
    exact (h.loses ha).append (by simp)
  | conn conn created =>
    obtain ⟨hc, rfl, rfl⟩ := ha
    cases hx
    exact (h.hand hc).append (by simp)
  | wait state connect startDial =>
    cases startDial with
    | true =>
      obtain ⟨rfl, hs, hn, hp⟩ := ha
      cases hx
      rw [if_pos rfl, cons_append, nil_append, pending_cons_add, pending_cons_add, pending_nil_add, Sharing.cons rfl]
      exact h.dial hs hn hp
    | false =>
      cases hx
      exact (h.loses ha).append (by simp)

lemma install_shared (state connect : ℕ) (dialed : Except (ConnError ε) ℕ) :
    (p.install state connect dialed).1.state = p.state ∧
    (∀ n, ((p.install state connect dialed).1.states n).connecting.isSome =
      (!decide (n = state) && (p.states n).connecting.isSome)) ∧
    (p.install state connect dialed).1.current.sharedClaimed = p.current.sharedClaimed ∧
    ((p.install state connect dialed).1.current.shared = p.current.shared ∨ p.state = state ∧
      ∃ conn, dialed = .ok conn ∧ (p.install state connect dialed).1.current.shared = some conn) := by
  have hn : ∀ n, ((p.setState state { p.states state with connecting := none }).states n).connecting.isSome =
      (!decide (n = state) && (p.states n).connecting.isSome) := fun n => by
    by_cases hn : n = state
    · subst hn
      simp
    · simp [hn]
  have hc {α : Type} (f : PoolState ℕ ε → α) (hf : f { p.states state with connecting := none } = f (p.states state)) :
      f (p.setState state { p.states state with connecting := none }).current = f p.current :=
    setState_same p f hf p.state
  unfold ConnPool.install
  split
  · exact ⟨rfl, hn, hc _ rfl, .inl (hc _ rfl)⟩
  next conn =>
    split
    · exact ⟨rfl, hn, hc _ rfl, .inl (hc _ rfl)⟩
    · split
      · exact ⟨rfl, hn, hc _ rfl, .inl (hc _ rfl)⟩
      next hs =>
        obtain rfl := not_not.1 hs
        refine ⟨rfl, fun n => ?_, ?_, .inr ⟨rfl, conn, rfl, ?_⟩⟩
        · by_cases hn : n = p.state
          · subst hn
            simp
          · simp [hn]
        · simp [ConnPool.current]
        · simp [ConnPool.current]

lemma Sharing.install {state connect : ℕ} {dialed : Except (ConnError ε) ℕ}
    (hi : Inv .single s (.connectInstall state connect dialed ::ₘ m))
    (h : Sharing s (.connectInstall state connect dialed ::ₘ m)) :
    Sharing { s with pool := (s.pool.install state connect dialed).1 } m := by
  have hf : (.connectInstall state connect dialed ::ₘ m).filterMap Op.connects = state ::ₘ m.filterMap Op.connects :=
    Multiset.filterMap_cons_some _ _ _ rfl
  have honce := h.once
  rw [hf, Multiset.nodup_cons] at honce
  obtain ⟨h1, h2, h3, h4⟩ := install_shared s.pool state connect dialed
  refine ⟨fun n => ?_, honce.2, fun conn hc => ?_, h.told⟩
  · have hn := h.connecting n
    rw [hf] at hn
    rw [h2 n, Bool.and_eq_true, hn]
    by_cases hns : n = state
    · subst hns
      simp [honce.1]
    · simp [hns]
  · rw [h3]
    rcases h4 with h4 | ⟨rfl, d, rfl, h4⟩
    · exact h.claimed conn (h4 ▸ hc)
    · -- the connection has just been dialed, and nothing was shared while it was
      obtain rfl : d = conn := Option.some.inj (h4.symm.trans hc)
      have hcon := (h.connecting s.pool.state).2 (by rw [hf]; exact Multiset.mem_cons_self _ _)
      have hs : SingleSound s.pool.current := hi.sound s.pool.state
      have ha : d ∈ (view s (.connectInstall s.pool.state connect (.ok d) ::ₘ m)).arriving :=
        (Multiset.mem_filterMap _ _).2 ⟨_, Multiset.mem_cons_self _ _, rfl⟩
      rw [hs.unclaimed (hs.connecting hcon)]
      exact ⟨by simp, fun hl => absurd ha (hi.gens.lent d hl).2⟩

lemma loses_cancelState (number : ℕ) (cause : ConnError ε) : Loses p (p.cancelState number cause) := by
  unfold ConnPool.cancelState
  split <;> exact ⟨rfl, setState_same p (·.connecting.isSome) rfl,
    .inr ⟨setState_same p PoolState.shared (by rfl) _, setState_same p PoolState.sharedClaimed (by rfl) _⟩⟩

lemma Sharing.reset (hi : Inv .single s m) (h : Sharing s m) : Sharing { s with pool := s.pool.reset.1 } m := by
  unfold ConnPool.reset
  split
  · exact h
  · refine ⟨h.connecting, h.once, fun conn hc => ?_, h.told⟩
    -- nothing is tracked yet in the new state, and so nothing is shared
    have hall : (s.pool.states (s.pool.state + 1)).all = [] := hi.gens.future _ (Nat.lt_succ_self _)
    have hm := (hi.sound (s.pool.state + 1)).tracked conn hc
    rw [hall] at hm
    cases hm

lemma Inv.tail (h : Inv mode s (o ::ₘ m)) (hc : o.closing = none) (ha : o.arriving = none) (hr : o.retiring = none) :
    Inv mode s m := by
  refine ⟨fun o' ho' => h.code o' (mem_cons_of_mem ho'), h.sound, fun conn hm => h.held conn ?_,
    view_cons ⟨hc, ha, hr⟩ ▸ h.gens⟩
  exact mem_of_le (add_le_add_right (filterMap_le_filterMap _ (le_cons_self m o)) _) hm

lemma Sharing.givenBack {cause : ConnError ε} {r : ConnPool ℕ ε × Bool} (h : Sharing s m)
    (hg : GivenBack s.pool conn (s.pool.removeConn conn cause) r) :
    Sharing { s with pool := r.1 } (↑((if r.2 then [.closeConn conn] else []) ++ [] : List (Op ε)) + m) := by
  refine (h.loses (hg.elim (P := Loses s.pool) (.refl _) (loses_removeConn _ _ _))).append ?_
  split <;> simp

lemma Sharing.exec (hx : exec .single maxInflight o x s = some (s', new, started)) (hi : Inv .single s (o ::ₘ m))
    (h : Sharing s (o ::ₘ m)) : Sharing s' (↑(new ++ started) + m) := by
  have hcode := hi.code o (mem_cons_self _ _)
  have hm (ho : o.connects = none) : Sharing s m := (Sharing.cons ho).1 h
  unfold PoolRuns.exec at hx
  cases o with
  | acquireOrdered | acquireSlot | dial | install | releaseSlot => cases hcode _ rfl
  | acquireShared => exact (hm rfl).acquired (acquireShared_turned x.alive s.pool).turn (some.inj hx)
  | collectShared state connect startDial =>
    exact (hm rfl).acquired (collectShared_turned x.alive s.pool state connect startDial).turn (some.inj hx)
  | connectDial state connect | await | closeConns state =>
    dsimp only at hx
    repeat' split at hx
    all_goals cases hx
    all_goals exact h.of_eq rfl rfl (by simp [Multiset.filterMap_cons])
  | connectInstall state connect dialed =>
    cases hx
    refine (h.install hi).append ?_
    cases (s.pool.install state connect dialed).2 <;> simp
  | release conn reuse =>
    cases hx
    exact (hm rfl).givenBack (release_givenBack s.pool conn x.alive reuse)
  | invalidate conn cause =>
    cases hx
    exact (hm rfl).givenBack (invalidate_givenBack s.pool conn cause)
  | reset =>
    cases hx
    rw [append_nil]
    exact ((hm rfl).reset (hi.tail rfl rfl rfl)).append (closeState_connects _)
  | close =>
    cases hx
    rw [append_nil]
    refine Sharing.append ?_ (closeState_connects _)
    unfold ConnPool.close
    split
    · exact hm rfl
    · exact (hm rfl).loses ⟨rfl, fun _ => rfl, .inr ⟨rfl, rfl⟩⟩
  | cancelState state =>
    cases hx
    exact ((hm rfl).loses (loses_cancelState s.pool state _)).append (by simp)
  | closeConn conn | connectDone connect =>
    cases hx
    obtain ⟨h1, h2, h3, h4⟩ := hm rfl
    rw [append_nil, pending_nil_add]
    exact ⟨h1, h2, h3, h4⟩

lemma Sharing.entry (h : Sharing s m) (k : Call ε) : Sharing (entry mode k s).1 (↑(PoolRuns.entry mode k s).2 + m) := by
  obtain ⟨holders, l, he, hl, -⟩ := entry_spec mode k s
  rw [he]
  exact (h.append fun o ho => (hl o ho).2.1).of_eq rfl rfl rfl

/-! ### The history -/

lemma notAfterClosed_exec (hx : exec mode maxInflight o x s = some (s', new, started)) (h : Inv mode s (o ::ₘ m))
    (hl : NotAfterClosed s.log) : NotAfterClosed s'.log := by
  have h' := (h.exec hx).gens.closed
  rcases exec_history hx (h.code o (mem_cons_self _ _)) h.sound with ⟨-, he⟩ | ⟨d, -, he⟩ | ⟨d, created, -, he, ho, ht⟩
  · rwa [he]
  · rw [he]
    exact pairwise_cons.2 ⟨fun e _ conn created hc => (by cases hc), hl⟩
  · rw [he]
    refine pairwise_cons.2 ⟨fun e hm conn created' hc hcl => ?_, hl⟩
    cases hc
    -- a connection that was closed before is not tracked any more
    have hm' : d ∈ s'.log.filterMap PoolEvent.closedConn := by
      rw [he]
      exact mem_filterMap.2 ⟨e, mem_cons_of_mem _ hm, by rw [hcl]; rfl⟩
    exact (h' d hm').2 (.inr ⟨ho, ht⟩)

end

structure PoolInv (mode : ConnPoolMode) (c : Config (State ε) (Op ε)) : Prop where
  inv : Inv mode c.shared c.pending
  log : NotAfterClosed c.shared.log
  exclusive : mode = .ordered → (tokens c.shared c.pending).Nodup
  sharing : mode = .single → Sharing c.shared c.pending

lemma PoolInv.init : PoolInv mode (Config.init ({} : State ε)) where
  inv := Inv.nil
  log := List.Pairwise.nil
  exclusive _ := by simp [tokens, ConnPool.current]
  sharing _ := ⟨fun n => by simp, by simp, fun conn hc => (by cases hc), fun conn hc => (by cases hc)⟩

lemma PoolInv.step (c : Config (State ε) (Op ε)) (e : Event (Input ε) (Call ε)) (c' : Config (State ε) (Op ε))
    (h : (program mode maxInflight).step c e = some c') (hc : PoolInv mode c) : PoolInv mode c' := by
  rcases Forking.step_cases h with ⟨k, -, hs, hp⟩ | ⟨i, x, o, s', new, started, m, -, -, hx, hs, hm, hp⟩
  · refine ⟨?_, ?_, fun ho => ?_, fun hsi => ?_⟩
    · rw [hs, hp]
      exact hc.inv.entry k
    · rw [hs]
      obtain ⟨holders, l, he, -⟩ := entry_spec mode k c.shared
      change NotAfterClosed (entry mode k c.shared).1.log
      rw [he]
      exact hc.log
    · rw [hs, hp]
      exact nodup_tokens_entry k (hc.exclusive ho)
    · rw [hs, hp]
      exact (hc.sharing hsi).entry k
  · have hi := hc.inv
    rw [hm] at hi
    refine ⟨?_, ?_, fun ho => ?_, fun hsi => ?_⟩
    · rw [hs, hp]
      exact hi.exec hx
    · rw [hs]
      exact notAfterClosed_exec hx hi hc.log
    · subst ho
      have hn := hc.exclusive rfl
      rw [hm] at hn
      rw [hs, hp]
      exact nodup_tokens_exec hx hi hn
    · subst hsi
      have hsh := hc.sharing rfl
      rw [hm] at hsh
      rw [hs, hp]
      exact hsh.exec hx hi

lemma filterMap_eq_zero {m : Multiset (Op ε)} {f : Op ε → Option ℕ} (hm : ∀ o ∈ m, o.Waiting)
    (hf : ∀ o : Op ε, o.Waiting → f o = none) : m.filterMap f = 0 := by
  refine eq_zero_of_forall_notMem fun d hd => ?_
  obtain ⟨o, ho, he⟩ := (mem_filterMap _ _).1 hd
  rw [hf o (hm o ho)] at he
  cases he

lemma dials_le (m : Multiset (Op ε)) : m.filterMap Op.dials ≤ m.filterMap Op.connects := by
  induction m using Multiset.induction with
  | empty => exact le_rfl
  | cons o m ih =>
    rw [Multiset.filterMap_cons, Multiset.filterMap_cons]
    refine add_le_add ?_ ih
    cases o with
    | connectInstall => exact zero_le _
    | _ => exact le_rfl

lemma PoolInv.owned {c : Config (State ε) (Op ε)} (h : PoolInv mode c) : Owned mode c where
  one_holder hm := by
    have hn := h.exclusive hm
    rw [tokens, add_assoc] at hn
    exact coe_nodup.1 (nodup_of_le (le_add_right _ _) hn)
  not_closed := h.log
  one_dial hm := nodup_of_le (dials_le _) (h.sharing hm).once
  told_once hm conn created hc := (h.sharing hm).told conn (handed_of_mem hc)
  all_closed hcl hw conn hlt := by
    have hall := h.inv.gens.all_closed hcl (filterMap_eq_zero hw fun o ho => by cases o <;> first | rfl | cases ho)
      (filterMap_eq_zero hw fun o ho => by cases o <;> first | rfl | cases ho)
      (filterMap_eq_zero hw fun o ho => by cases o <;> first | rfl | cases ho) conn hlt
    obtain ⟨e, he, hce⟩ := mem_filterMap.1 hall
    cases e with
    | closed d => cases hce; exact he
    | handed => cases hce

/-- **The connections of a pool are owned**, whatever the interleaving of those who acquire, release and invalidate
them, of the dials and of those who reset and close the pool. -/
theorem pool_ownership (mode : ConnPoolMode) (maxInflight : ℤ) (evs : List (Event (Input ε) (Call ε))) :
    VisitAll (program mode maxInflight).step (Owned mode) (Config.init ({} : State ε)) evs :=
  (visitAll_of_inv PoolInv.step evs PoolInv.init).imp fun _ h => h.owned

end SingBox.Dns.PoolRuns
