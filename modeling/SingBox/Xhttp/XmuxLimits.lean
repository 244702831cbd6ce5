import SingBox.Xhttp.XmuxInv

/-!
# The concurrency and pool-size limits of XMUX

`get` reads the usage counts of the pooled clients, and the dial it serves is counted only later.  The limit
on the number of pooled connections holds in every run: a configuration that `normalizeXmux` accepts does not
limit both.
-/

namespace SingBox.Xhttp

open SingBox.Lib Except

/-! ### Accepted configurations -/

/-- What `normalizeXmux` guarantees about the two exclusive ranges. -/
structure XmuxConfig.Exclusive (config : XmuxConfig) : Prop where
  concurrency : config.maxConcurrency.WF
  connections : config.maxConnections.WF
  excl : 0 < config.maxConnections.max → config.maxConcurrency.max ≤ 0

/-- What `normalizeXmux` answers for a configuration without an `xmux` section. -/
def defaultXmux : XmuxConfig where
  maxConcurrency := defaultXmuxMaxConcurrency
  hMaxRequestTimes := defaultXmuxHMaxRequestTimes
  hMaxReusableSecs := defaultXmuxHMaxReusableSecs

lemma zero_wf : IntRange.WF ⟨0, 0⟩ := ⟨by decide, by decide, by decide⟩

lemma normalizeXmux_exclusive {options : Option XmuxOptions} {config : XmuxConfig}
    (h : normalizeXmux options = .ok config) : config.Exclusive := by
  have hdef : defaultXmux.Exclusive := ⟨⟨by decide, by decide, by decide⟩, zero_wf, by decide⟩
  unfold normalizeXmux at h
  split at h
  · cases h; exact hdef
  · split at h
    · cases h; exact hdef
    · obtain ⟨r1, h1, h⟩ := bind_ok h
      obtain ⟨r2, h2, h⟩ := bind_ok h
      by_cases hex : 0 < r2.max ∧ 0 < r1.max
      · rw [if_pos hex] at h
        cases h
      · rw [if_neg hex] at h
        obtain ⟨r3, -, h⟩ := bind_ok h
        obtain ⟨r4, -, h⟩ := bind_ok h
        obtain ⟨r5, -, h⟩ := bind_ok h
        cases h
        exact ⟨parseRangeOr_wf zero_wf h1, parseRangeOr_wf zero_wf h2, by dsimp only; omega⟩

/-! ### The rolled limits stay as they are -/

lemma get_limits (p : Pool) (x : Input) : (p.get x).1.manager.concurrency = p.manager.concurrency ∧
      (p.get x).1.manager.connections = p.manager.connections := by
  rcases p.get_cases x with hg | ⟨-, hg⟩ | ⟨c, -, -, hg⟩ <;> rw [hg] <;>
    simp [Pool.newClientLocked, Pool.takeLeftUsage, Pool.evict_manager]

variable {new : List XmuxOp} {x : Input} {p q : Pool}

lemma exec_limits {o : XmuxOp} (h : o.exec x p = some (q, new)) :
    q.manager.concurrency = p.manager.concurrency ∧ q.manager.connections = p.manager.connections := by
  cases o with
  | get =>
    have hl := get_limits p x
    simp only [XmuxOp.exec] at h
    split at h <;> rename_i hg <;> cases h <;> rw [hg] at hl <;> exact hl
  | closeClients cs => cases cs <;> cases h <;> exact ⟨rfl, rfl⟩
  | roundTripped c =>
    simp only [XmuxOp.exec] at h
    split at h <;> cases h <;> exact ⟨rfl, rfl⟩
  | _ => cases h; exact ⟨rfl, rfl⟩

/-! ### The number of pooled connections -/

/-- The pool is within its connection count, and does not limit both. -/
structure PoolBound (p : Pool) : Prop where
  excl : 0 < p.manager.connections → p.manager.concurrency ≤ 0
  length : 0 < p.manager.connections → (p.manager.clients.length : ℤ) ≤ p.manager.connections

lemma poolBound_get (h : PoolBound p) (x : Input) : PoolBound (p.get x).1 := by
  have hl := get_limits p x
  refine ⟨by rw [hl.1, hl.2]; exact h.excl, fun hpos => ?_⟩
  rw [hl.2] at hpos
  have hex := h.excl hpos
  have hlen := h.length hpos
  have hk : (p.kept x.now).length ≤ p.manager.clients.length := List.length_filter_le _ _
  rcases p.get_cases x with hg | ⟨hroom, hg⟩ | ⟨c, -, -, hg⟩
  · simp only [hg, Pool.evict_manager]
    omega
  · simp only [hg, Pool.newClientLocked, Pool.evict_manager, List.length_append, List.length_singleton]
    simp only [Pool.Opens, Pool.candidates, Pool.evict_manager] at hroom
    rcases hroom with hlt | hnone
    · omega
    · rw [if_neg hex.not_gt] at hnone
      rw [hnone]
      exact hpos
  · simp only [hg, Pool.takeLeftUsage, Pool.update_manager, Pool.evict_manager]
    omega

lemma poolBound_exec {o : XmuxOp} (h : o.exec x p = some (q, new)) (hp : PoolBound p) : PoolBound q := by
  have same : q.manager.clients = p.manager.clients → PoolBound q := by
    intro hcl
    have hl := exec_limits h
    exact ⟨by rw [hl.1, hl.2]; exact hp.excl, by rw [hl.2, hcl]; exact hp.length⟩
  cases o with
  | get =>
    have hg := poolBound_get hp x
    simp only [XmuxOp.exec] at h
    split at h <;> rename_i heq <;> cases h <;> rw [heq] at hg <;> exact hg
  | closeManager =>
    cases h
    exact ⟨hp.excl, fun hpos => le_of_lt hpos⟩
  | closeClients cs => cases cs <;> cases h <;> exact same rfl
  | roundTripped c =>
    simp only [XmuxOp.exec] at h
    split at h <;> cases h <;> exact same rfl
  | _ => cases h; exact same rfl

/-! ### The number of streams on a connection -/

/-- The candidate that the draw of a `get` points at. -/
def Pool.drawn (p : Pool) (x : Input) : Option ClientId :=
  (p.evict x.now).candidates[(randIntn (p.evict x.now).candidates.length x.pick).toNat]?

/-- Where the concurrency is limited, no client has more holders than the limit. -/
def WithinConcurrency (s : XmuxState) : Prop :=
  0 < s.shared.manager.concurrency → ∀ c, (handed c s.pending : ℤ) ≤ s.shared.manager.concurrency

def WithinConnections (s : XmuxState) : Prop :=
  0 < s.shared.manager.connections → (s.shared.manager.clients.length : ℤ) ≤ s.shared.manager.connections

/-- The condition on a step: a `get` under a concurrency limit draws a candidate that has room for the
dials in the gap too. -/
def DrawnHasRoom (s : XmuxState) : XmuxEvent → Prop
  | .call _ => True
  | .sched i x => s.next i = some .get → 0 < s.shared.manager.concurrency →
      ∀ c, s.shared.drawn x = some c → (s.shared.heap c).openUsage + inGap c s.pending < s.shared.manager.concurrency

lemma get_drawn (hk : p.manager.connections ≤ 0) : (∀ c, p.drawn x = some c → (p.get x).2 = some c) ∧
    (p.drawn x = none → (p.get x).2 = none ∨ (p.get x).2 = some p.next) := by
  have hcon : (p.evict x.now).manager.connections = p.manager.connections := by
    rw [Pool.evict_manager]
  have hnx := p.evict_next x.now
  unfold Pool.drawn Pool.get Pool.choose
  generalize p.evict x.now = q at *
  by_cases hnil : q.manager.clients = []
  · have hcand : q.candidates = [] := by
      unfold Pool.candidates
      split <;> simp [hnil]
    rw [if_pos hnil, hcand]
    refine ⟨by simp, fun _ => ?_⟩
    split
    · exact .inl rfl
    · exact .inr (by rw [hnx])
  · rw [if_neg hnil, if_neg (by omega)]
    refine ⟨fun c hc => by rw [hc], fun hnone => ?_⟩
    rw [hnone]
    exact .inr (by rw [hnx])

variable {m : Multiset XmuxOp}

/-- One more dial can be handed the client `a` exactly when `a` has room. -/
lemma within_hand {a : ClientId} {n : ℤ} (hw : ∀ c, (handed c m : ℤ) ≤ n) :
    (∀ c, (handed c (↑[XmuxOp.addOpenUsage a] + m) : ℤ) ≤ n) ↔ (handed a m : ℤ) < n := by
  have hone : ∀ c, (handed c (↑[XmuxOp.addOpenUsage a] + m) : ℤ) = handed c m + if a = c then 1 else 0 := by
    intro c
    simp only [handed, pending_cons_add, pending_nil_add, inGap_cons, counted_cons,
      XmuxOp.addOpenUsage.injEq, reduceCtorEq]
    split <;> push_cast <;> ring
  constructor
  · intro hall
    have ha := hall a
    rw [hone, if_pos rfl] at ha
    omega
  · intro ha c
    have hc := hw c
    rw [hone]
    split
    next hac =>
      subst hac
      omega
    · omega

lemma within_get (h : XmuxOp.get.exec x p = some (q, new)) (hi : XmuxInv p (.get ::ₘ m))
    (hpos : 0 < p.manager.concurrency) (hk : p.manager.connections ≤ 0)
    (hw : ∀ c, (handed c (.get ::ₘ m) : ℤ) ≤ p.manager.concurrency) :
    (∀ c, (handed c (↑new + m) : ℤ) ≤ p.manager.concurrency) ↔
      ∀ c, p.drawn x = some c → (p.heap c).openUsage + inGap c (.get ::ₘ m) < p.manager.concurrency := by
  have hm : ∀ c, handed c (.get ::ₘ m) = handed c m := fun c => by simp [handed]
  have hroom : ∀ c, (p.heap c).openUsage + inGap c (.get ::ₘ m) = handed c m := by
    intro c
    rw [hi.usage c, ← hm c, handed]
    push_cast
    ring
  simp only [hm] at hw
  simp only [hroom]
  obtain ⟨hsome, hnone⟩ := get_drawn hk
  simp only [XmuxOp.exec] at h
  cases hdr : p.drawn x with
  | some a =>
    have ha := hsome a hdr
    split at h
    next r c hg =>
      rw [hg] at ha
      cases ha
      cases h
      rw [within_hand hw]
      simp
    next r hg =>
      rw [hg] at ha
      cases ha
  | none =>
    refine iff_of_true ?_ (by simp)
    split at h
    next r b hg =>
      rcases hnone hdr with h2 | h2
      · rw [hg] at h2
        cases h2
      · rw [hg] at h2
        cases h2
        cases h
        -- the new client has no holder
        have h0 : handed p.next m = 0 := by
          by_contra hne
          have hlt := hi.handed_lt p.next (by rw [hm]; omega)
          exact absurd hlt (lt_irrefl _)
        rw [within_hand hw, h0]
        exact hpos
    · cases h
      intro c
      have hsame : handed c (↑(if x.ctxDone = true then [] else [XmuxOp.get]) + m) = handed c m := by
        split
        · simp
        · exact hm c
      rw [hsame]
      exact hw c

lemma handed_exec_le {o : XmuxOp} (h : o.exec x p = some (q, new)) (ho : o ≠ .get) (c : ClientId) :
    handed c (↑new + m) ≤ handed c (o ::ₘ m) := by
  cases o with
  | get => exact absurd rfl ho
  | closeClients cs => cases cs <;> cases h <;> simp [handed]
  | roundTripped d | countFailure d | loadArmed =>
    simp only [XmuxOp.exec] at h
    split at h <;> cases h <;> simp [handed]
  | addOpenUsage d => cases h; simp [handed]; omega
  | _ => cases h; simp [handed]

lemma within_step {s t : XmuxState} {e : XmuxEvent} (h : xmuxProgram.step s e = some t)
    (hi : XmuxInv s.shared s.pending) (hb : PoolBound s.shared) (hs : WithinConcurrency s) :
    WithinConcurrency t ↔ DrawnHasRoom s e := by
  rcases Program.step_cases h with ⟨k, rfl, h1, h2⟩ | ⟨i, x, o, q, new, m, rfl, ho, hx, rfl, h1, h2⟩
  · refine iff_of_true (fun hpos c => ?_) trivial
    have hpos' : 0 < s.shared.manager.concurrency := by rw [h1] at hpos; exact hpos
    have hsame : handed c t.pending = handed c s.pending := by
      rw [h2]
      cases k <;> simp [xmuxProgram, XmuxCall.code, handed]
    rw [h1, hsame]
    exact hs hpos' c
  · have hl := exec_limits hx
    unfold WithinConcurrency
    rw [hl.1, h2]
    simp only [DrawnHasRoom, ho, Option.some.injEq]
    by_cases hget : o = .get
    · subst hget
      refine ⟨fun hw _ hpos => ?_, fun hw hpos => ?_⟩
      all_goals
        have hk : s.shared.manager.connections ≤ 0 := by
          by_contra hk
          have := hb.excl (by omega)
          omega
        have key := within_get hx (h1 ▸ hi) hpos hk (h1 ▸ hs hpos)
        rw [← h1] at key
      · exact key.1 (hw hpos)
      · exact key.2 (hw rfl hpos)
    · refine iff_of_true (fun hpos c => ?_) (fun hg => absurd hg hget)
      have hle := handed_exec_le (m := m) hx hget c
      rw [← h1] at hle
      have := hs hpos c
      omega

def XmuxLimitInv (s : XmuxState) : Prop := XmuxInv s.shared s.pending ∧ PoolBound s.shared

lemma xmuxLimitInv_step (s : XmuxState) (e : XmuxEvent) (t : XmuxState)
    (h : xmuxProgram.step s e = some t) (hs : XmuxLimitInv s) : XmuxLimitInv t := by
  refine ⟨xmux_step_inv s e t h hs.1, ?_⟩
  exact Program.step_inv (fun p _ => PoolBound p) (fun _ _ _ hp => hp) (fun _ _ _ _ _ _ => poolBound_exec) s e t h hs.2

lemma xmuxLimitInv_init {config : XmuxConfig} (h : config.Exclusive) (r1 r2 : ℕ) :
    XmuxLimitInv (Config.init (newXmuxManager config r1 r2)) := by
  refine ⟨xmux_init_inv config r1 r2, fun hpos => ?_, fun hpos => ?_⟩
  · have h1 := h.concurrency.rand_le r1
    have h2 := h.connections.rand_le r2
    have h3 := h.excl (lt_of_lt_of_le hpos h2)
    exact h1.trans h3
  · exact le_of_lt hpos

/-- **The limits of the pool.**  For every accepted configuration and every interleaving: no client has
more holders than the rolled concurrency exactly when every `get` draws a candidate with room for the
dials in the gap; and the pool never holds more clients than the rolled connection count. -/
theorem xmux_limits_iff {options : Option XmuxOptions} {config : XmuxConfig}
    (h : normalizeXmux options = .ok config) (r1 r2 : ℕ) (es : List XmuxEvent) :
    (VisitAll xmuxProgram.step WithinConcurrency (Config.init (newXmuxManager config r1 r2)) es ↔
      StepAll xmuxProgram.step DrawnHasRoom (Config.init (newXmuxManager config r1 r2)) es) ∧
    VisitAll xmuxProgram.step WithinConnections (Config.init (newXmuxManager config r1 r2)) es := by
  have hinit := xmuxLimitInv_init (normalizeXmux_exclusive h) r1 r2
  refine ⟨?_, ?_⟩
  · refine visitAll_iff_stepAll xmuxLimitInv_step (fun s e t hst hs hP => ?_) es hinit ?_
    · exact within_step hst hs.1 hs.2 hP
    · intro hpos c
      exact le_of_lt hpos
  · exact (visitAll_of_inv xmuxLimitInv_step es hinit).imp fun s hs => hs.2.length

/-- Two dials one after the other, on the default pool. -/
theorem xmux_limits_default : normalizeXmux none = .ok defaultXmux ∧
    (VisitAll xmuxProgram.step WithinConcurrency (Config.init (newXmuxManager defaultXmux 0 0))
        [.call .dialContext, .sched 0 {}, .sched 0 {}, .call .dialContext, .sched 1 {}] ↔
      StepAll xmuxProgram.step DrawnHasRoom (Config.init (newXmuxManager defaultXmux 0 0))
        [.call .dialContext, .sched 0 {}, .sched 0 {}, .call .dialContext, .sched 1 {}]) ∧
    VisitAll xmuxProgram.step WithinConnections (Config.init (newXmuxManager defaultXmux 0 0))
      [.call .dialContext, .sched 0 {}, .sched 0 {}, .call .dialContext, .sched 1 {}] :=
  ⟨rfl, xmux_limits_iff (show normalizeXmux none = .ok defaultXmux from rfl) 0 0 _⟩

/-- Two dials call `get` before either counts itself. -/
def twoGets : List XmuxEvent := [.call .dialContext, .sched 0 {}, .call .dialContext, .sched 1 {}]

/-- On the default pool, whose concurrency is one, two dials can be handed the same client. -/
theorem xmux_exceeds_concurrency : normalizeXmux none = .ok defaultXmux ∧
    ¬ VisitAll xmuxProgram.step WithinConcurrency (Config.init (newXmuxManager defaultXmux 0 0)) twoGets := by
  refine ⟨rfl, fun h => ?_⟩
  have hrun : (runOf xmuxProgram.step (Config.init (newXmuxManager defaultXmux 0 0)) twoGets).map
      (fun t => (t.shared.manager.concurrency, handed 0 t.pending)) = some (1, 2) := by
    decide +kernel
  obtain ⟨t, ht, heq⟩ := Option.map_eq_some_iff.1 hrun
  rw [Prod.mk.injEq] at heq
  have := h.last ht (by rw [heq.1]; decide) 0
  omega

end SingBox.Xhttp
