import SingBox.Xhttp.XmuxInv

/-!
# When XMUX connections are retired

`newClientLocked` rolls three limits for a client (`transport/v2rayxhttp/xmux.go`): how often it is handed out, how many
requests it carries, and how long it is reusable.  They become three counters of different types: `leftUsage`, with one
hand-out already taken off and `-1` for no limit; the `int32` `leftRequests`, with the largest `int32` for no limit; and
a time, from a `time.Duration`.

An `XmuxLedger` keeps beside the pool what was rolled for each client, how often it was handed out and how many requests
it has carried.
-/

namespace SingBox.Xhttp

open SingBox.Lib List Function

/-! ### The ledger -/

/-- The limits rolled for a client, and the time it was made. -/
structure Rolled where
  reuse : ℤ := 0
  requests : ℤ := 0
  secs : ℤ := 0
  created : ℤ := 0

def XmuxConfig.roll (config : XmuxConfig) (x : Input) : Rolled where
  reuse := config.cMaxReuseTimes.rand x.reuse
  requests := config.hMaxRequestTimes.rand x.requests
  secs := config.hMaxReusableSecs.rand x.secs
  created := x.now

/-- A client at some time: how often it was handed out, and how many requests it has carried. -/
structure Use where
  client : ClientId
  handed : ℕ
  carried : ℕ
  now : ℤ
  deriving DecidableEq

/-- The pool and its history; an eviction is recorded as its client was, a hand-out as its client is after it. -/
structure XmuxLedger where
  pool : Pool
  handed : ClientId → ℕ := fun _ => 0
  carried : ClientId → ℕ := fun _ => 0
  rolled : ClientId → Rolled := fun _ => {}
  evictions : List Use := []
  handouts : List Use := []

inductive XmuxAction where
  | get (x : Input)
  | takeRequest (c : ClientId)
  | addOpenUsage (c : ClientId) (delta : ℤ)

namespace XmuxLedger

def use (l : XmuxLedger) (now : ℤ) (c : ClientId) : Use := ⟨c, l.handed c, l.carried c, now⟩

/-- The ledger after the client `c` was handed out. -/
def hand (l : XmuxLedger) (c : ClientId) (now : ℤ) : XmuxLedger :=
  { l with
    handed := Function.update l.handed c (l.handed c + 1)
    handouts := ⟨c, l.handed c + 1, l.carried c, now⟩ :: l.handouts }

/-- What was rolled, if the client is a new one. -/
def enter (l : XmuxLedger) (c : ClientId) (x : Input) : XmuxLedger :=
  if c = l.pool.next then { l with rolled := Function.update l.rolled c (l.pool.manager.config.roll x) } else l

def step (l : XmuxLedger) : XmuxAction → Option XmuxLedger
  | .get x =>
    let evictions := (l.pool.evicted x.now).map (l.use x.now) ++ l.evictions
    match l.pool.get x with
    | (q, none) => some { l with pool := q, evictions }
    | (q, some c) => some { (l.enter c x).hand c x.now with pool := q, evictions }
  | .takeRequest c =>
    if c < l.pool.next then
      some { l with
        pool := l.pool.update c fun k => { k with leftRequests := int32 (k.leftRequests - 1) }
        carried := Function.update l.carried c (l.carried c + 1) }
    else none
  | .addOpenUsage c delta =>
    if c < l.pool.next then some { l with pool := l.pool.update c (·.addOpenUsage delta) } else none

end XmuxLedger

/-! ### What the limits say -/

/-- Some limit of the client is reached. -/
def Rolled.Exhausted (r : Rolled) (u : Use) : Prop :=
  (0 < r.reuse ∧ u.handed = r.reuse) ∨ (0 < r.requests ∧ r.requests ≤ u.carried) ∨
    (0 < r.secs ∧ r.created + r.secs * second < u.now)

/-- The client may be handed out, as the time `u.handed`. -/
structure Rolled.Allows (r : Rolled) (u : Use) : Prop where
  reuse : 0 < r.reuse → u.handed ≤ r.reuse
  requests : 0 < r.requests → u.carried < r.requests
  secs : 0 < r.secs → u.now ≤ r.created + r.secs * second

/-- Every eviction was of an exhausted client, and every hand-out was allowed. -/
structure LimitsKept (l : XmuxLedger) : Prop where
  evictions : ∀ u ∈ l.evictions, (l.rolled u.client).Exhausted u
  handouts : ∀ u ∈ l.handouts, (l.rolled u.client).Allows u

/-- What is rolled for a new client is an `int32` and a number of seconds that is a duration; and a request leaves the
counter of its client an `int32`, above zero if there is no limit. -/
def FitsTypes (l : XmuxLedger) : XmuxAction → Prop
  | .get x => (l.pool.evict x.now).Opens →
      (l.pool.manager.config.roll x).requests ≤ maxInt32 ∧ (l.pool.manager.config.roll x).secs * second < 2 ^ 63
  | .takeRequest c => (l.carried c : ℤ) + 1 ≤
      if 0 < (l.rolled c).requests then (l.rolled c).requests + 2 ^ 31 else maxInt32 - 1
  | .addOpenUsage _ _ => True

instance (l : XmuxLedger) : DecidablePred (FitsTypes l)
  | .get _ => inferInstanceAs (Decidable (_ → _ ∧ _))
  | .takeRequest _ => inferInstanceAs (Decidable (_ ≤ _))
  | .addOpenUsage _ _ => isTrue trivial

/-! ### The counters -/

/-- The counters of a client are what its limits and its history say. -/
structure ClientOk (r : Rolled) (handed carried : ℕ) (k : XmuxClient) : Prop where
  usage : k.leftUsage = if 0 < r.reuse then r.reuse - handed else -1
  usage_nonneg : 0 < r.reuse → handed ≤ r.reuse
  requests : k.leftRequests = (if 0 < r.requests then r.requests else maxInt32) - carried
  requests_low : -(2 ^ 31) ≤ k.leftRequests
  requests_high : k.leftRequests ≤ maxInt32
  unlimited : r.requests ≤ 0 → 0 < k.leftRequests
  deadline : k.unreusableAt = if 0 < r.secs then some (r.created + r.secs * second) else none
  failing : k.failing = false
  conn : k.closed = false → k.conn.closed = false

namespace ClientOk

variable {r : Rolled} {handed carried : ℕ} {k : XmuxClient} {c : ClientId} {now : ℤ}

/-- An open client is evicted only when a limit is reached. -/
lemma exhausted (h : ClientOk r handed carried k) (hopen : k.closed = false) (hcause : k.evictCause now ≠ none) :
    r.Exhausted ⟨c, handed, carried, now⟩ := by
  unfold XmuxClient.evictCause at hcause
  rw [h.conn hopen, h.failing] at hcause
  simp only [Bool.false_eq_true, if_false] at hcause
  split at hcause
  next husage =>
    rw [h.usage] at husage
    split at husage
    · exact .inl ⟨‹_›, by dsimp only; omega⟩
    · omega
  · split at hcause
    next hreq =>
      by_cases hq : 0 < r.requests
      · rw [h.requests] at hreq
        exact .inr (.inl ⟨hq, by dsimp only; omega⟩)
      · have := h.unlimited (by omega)
        omega
    · rw [h.deadline] at hcause
      split at hcause
      next t ht =>
        split at ht
        · split at hcause
          · cases ht
            exact .inr (.inr ⟨‹_›, ‹_›⟩)
          · exact absurd rfl hcause
        · cases ht
      · exact absurd rfl hcause

lemma allows (h : ClientOk r handed carried k) (hcause : k.evictCause now = none) :
    r.Allows ⟨c, handed + 1, carried, now⟩ := by
  unfold XmuxClient.evictCause at hcause
  split at hcause
  · cases hcause
  split at hcause
  · cases hcause
  split at hcause
  · cases hcause
  split at hcause
  · cases hcause
  rename_i husage hreq
  refine ⟨fun hr => ?_, fun hq => ?_, fun hs => ?_⟩
  · rw [h.usage] at husage
    have := h.usage_nonneg hr
    dsimp only
    omega
  · rw [h.requests] at hreq
    dsimp only
    omega
  · rw [h.deadline, if_pos hs] at hcause
    dsimp only at hcause ⊢
    split at hcause
    · cases hcause
    · omega

lemma close (h : ClientOk r handed carried k) : ClientOk r handed carried k.close :=
  { h with conn := by simp [XmuxClient.close] }

lemma addOpenUsage (h : ClientOk r handed carried k) (delta : ℤ) : ClientOk r handed carried (k.addOpenUsage delta) :=
  { h with
    conn := by
      intro hopen
      have hopen : k.closed = false := hopen
      simp [XmuxClient.addOpenUsage, hopen, h.conn hopen] }

lemma takeRequest (h : ClientOk r handed carried k)
    (hfits : (carried : ℤ) + 1 ≤ if 0 < r.requests then r.requests + 2 ^ 31 else maxInt32 - 1) :
    ClientOk r handed (carried + 1) { k with leftRequests := int32 (k.leftRequests - 1) } := by
  have hmax : maxInt32 = 2147483647 := rfl
  have hreq := h.requests
  have hhigh := h.requests_high
  have hlow : -(2 ^ 31) ≤ k.leftRequests - 1 ∧ (r.requests ≤ 0 → 0 < k.leftRequests - 1) := by
    split at hfits
    · omega
    · omega
  have hint : int32 (k.leftRequests - 1) = k.leftRequests - 1 := by
    exact Int.bmod_eq_of_le (by omega) (by omega)
  exact { h with
    requests := by
      rw [hint, hreq]
      push_cast
      ring
    requests_low := by dsimp only; omega
    requests_high := by dsimp only; omega
    unlimited := fun hq => by dsimp only; rw [hint]; exact hlow.2 hq }

lemma reuse (h : ClientOk r handed carried k) (hcause : k.evictCause now = none) :
    ClientOk r (handed + 1) carried (if 0 < k.leftUsage then { k with leftUsage := k.leftUsage - 1 } else k) := by
  have hallows := (h.allows (c := 0) hcause).reuse
  have husage := h.usage
  by_cases hr : 0 < r.reuse
  · have := hallows hr
    rw [if_pos hr] at husage
    dsimp only at this
    rw [if_pos (by omega)]
    exact { h with
      usage := by
        rw [if_pos hr, husage]
        push_cast
        ring
      usage_nonneg := fun _ => by push_cast; omega }
  · rw [if_neg hr] at husage
    rw [if_neg (by omega)]
    exact { h with
      usage := by rw [if_neg hr, husage]
      usage_nonneg := fun h => absurd h hr }

end ClientOk

lemma clientOk_fresh {p : Pool} {x : Input} (hreq : (p.manager.config.roll x).requests ≤ maxInt32)
    (hsecs : (p.manager.config.roll x).secs * second < 2 ^ 63) :
    ClientOk (p.manager.config.roll x) 1 0 (p.freshClient x) := by
  have hmax : maxInt32 = 2147483647 := rfl
  unfold XmuxConfig.roll at hreq hsecs ⊢
  unfold Pool.freshClient
  dsimp only at hreq hsecs ⊢
  have hint : ∀ q : ℤ, 0 < q → q ≤ maxInt32 → int32 q = q := fun q h0 h1 => by
    exact Int.bmod_eq_of_le (by omega) (by omega)
  have hsec : second = 1000000000 := rfl
  constructor
  · split <;> simp
  · intro h
    dsimp only at h
    push_cast
    omega
  · dsimp only
    split
    · rw [hint _ ‹_› hreq]
      simp
    · simp
  · dsimp only
    split
    · rw [hint _ ‹_› hreq]
      omega
    · omega
  · dsimp only
    split
    · rw [hint _ ‹_› hreq]
      exact hreq
    · exact le_rfl
  · intro h
    dsimp only at h ⊢
    rw [if_neg (by omega)]
    decide
  · dsimp only
    split
    · rw [int64_of_mem (by rw [hsec]; omega) hsecs]
    · rfl
  · rfl
  · exact fun _ => rfl

/-- What a run keeps: the counters of all clients, that the clients of the pool are open, and what the history says. -/
structure XmuxLedgerInv (l : XmuxLedger) : Prop where
  client : ∀ c < l.pool.next, ClientOk (l.rolled c) (l.handed c) (l.carried c) (l.pool.heap c)
  pooled : ∀ c ∈ l.pool.manager.clients, c < l.pool.next ∧ (l.pool.heap c).closed = false
  unused : ∀ c, l.pool.next ≤ c → l.handed c = 0 ∧ l.carried c = 0
  known : (∀ u ∈ l.evictions, u.client < l.pool.next) ∧ ∀ u ∈ l.handouts, u.client < l.pool.next
  kept : LimitsKept l

namespace XmuxLedgerInv

variable {l : XmuxLedger} {x : Input}

lemma evict (h : XmuxLedgerInv l) (x : Input) :
    XmuxLedgerInv { l with
      pool := l.pool.evict x.now
      evictions := (l.pool.evicted x.now).map (l.use x.now) ++ l.evictions } := by
  have hclients : (l.pool.evict x.now).manager.clients = l.pool.kept x.now := by rw [Pool.evict_manager]
  refine ⟨fun c hc => ?_, fun c hc => ?_, ?_, ⟨fun u hu => ?_, ?_⟩, ⟨fun u hu => ?_, h.kept.handouts⟩⟩
  · rw [Pool.evict_next] at hc
    rw [Pool.evict_heap]
    split
    · exact (h.client c hc).close
    · exact h.client c hc
  · rw [hclients, Pool.mem_kept] at hc
    rw [Pool.evict_next, Pool.evict_heap, if_neg fun hev => (Pool.mem_evicted.1 hev).2 hc.2]
    exact h.pooled c hc.1
  · rw [Pool.evict_next]
    exact h.unused
  · rw [Pool.evict_next]
    rcases mem_append.1 hu with hu | hu
    · obtain ⟨c, hc, rfl⟩ := mem_map.1 hu
      exact (h.pooled c (Pool.mem_evicted.1 hc).1).1
    · exact h.known.1 u hu
  · rw [Pool.evict_next]
    exact h.known.2
  · rcases mem_append.1 hu with hu | hu
    · obtain ⟨c, hc, rfl⟩ := mem_map.1 hu
      obtain ⟨hmem, hcause⟩ := Pool.mem_evicted.1 hc
      obtain ⟨hlt, hopen⟩ := h.pooled c hmem
      exact (h.client c hlt).exhausted hopen hcause
    · exact h.kept.evictions u hu

lemma pooled_update (h : XmuxLedgerInv l) (c : ClientId) {f : XmuxClient → XmuxClient}
    (hf : (f (l.pool.heap c)).closed = (l.pool.heap c).closed) : ∀ d ∈ (l.pool.update c f).manager.clients,
      d < (l.pool.update c f).next ∧ ((l.pool.update c f).heap d).closed = false := by
  intro d hd
  refine ⟨(h.pooled d hd).1, ?_⟩
  rw [Pool.update_heap]
  split
  next hdc =>
    rw [hf, ← hdc]
    exact (h.pooled d hd).2
  · exact (h.pooled d hd).2

lemma reuse (h : XmuxLedgerInv l) {c : ClientId} (now : ℤ) (hmem : c ∈ l.pool.manager.clients)
    (hcause : (l.pool.heap c).evictCause now = none) :
    XmuxLedgerInv { l.hand c now with pool := l.pool.takeLeftUsage c } := by
  have hlt := (h.pooled c hmem).1
  refine ⟨fun d hd => ?_, h.pooled_update c (by split <;> rfl), fun d hd => ?_, ⟨h.known.1, ?_⟩, ⟨h.kept.evictions, ?_⟩⟩
  · dsimp only [XmuxLedger.hand, Pool.takeLeftUsage] at hd ⊢
    rw [Pool.update_heap]
    by_cases hdc : d = c
    · subst hdc
      rw [if_pos rfl, update_self]
      exact (h.client d hlt).reuse hcause
    · rw [if_neg hdc, update_of_ne hdc]
      exact h.client d hd
  · dsimp only [XmuxLedger.hand] at hd ⊢
    rw [update_of_ne (hlt.trans_le hd).ne']
    exact h.unused d hd
  · exact forall_mem_cons.2 ⟨hlt, h.known.2⟩
  · exact forall_mem_cons.2 ⟨(h.client c hlt).allows hcause, h.kept.handouts⟩

lemma newClient (h : XmuxLedgerInv l) (hreq : (l.pool.manager.config.roll x).requests ≤ maxInt32)
    (hsecs : (l.pool.manager.config.roll x).secs * second < 2 ^ 63) :
    XmuxLedgerInv { (l.enter l.pool.next x).hand l.pool.next x.now with pool := l.pool.newClientLocked x } := by
  have hunused := h.unused l.pool.next le_rfl
  have hok := clientOk_fresh hreq hsecs
  have hsec : second = 1000000000 := rfl
  have hold : ∀ c < l.pool.next, update l.rolled l.pool.next (l.pool.manager.config.roll x) c = l.rolled c :=
    fun c hc => update_of_ne hc.ne _ _
  have hlater : ∀ {c}, c < l.pool.next → c < l.pool.next + 1 := fun hc => hc.trans (Nat.lt_succ_self _)
  simp only [XmuxLedger.enter, XmuxLedger.hand, Pool.newClientLocked, hunused.1, hunused.2, if_true]
  refine ⟨fun c hc => ?_, fun c hc => ?_, fun c hc => ?_, ⟨fun u hu => ?_, ?_⟩, ⟨fun u hu => ?_, ?_⟩⟩
  · dsimp only at hc ⊢
    by_cases hnew : c = l.pool.next
    · subst hnew
      rw [update_self, update_self, update_self, hunused.2]
      exact hok
    · rw [update_of_ne hnew, update_of_ne hnew, update_of_ne hnew]
      exact h.client c ((Nat.lt_succ_iff.1 hc).lt_of_ne hnew)
  · dsimp only at hc ⊢
    rcases mem_append.1 hc with hc | hc
    · obtain ⟨hlt, hopen⟩ := h.pooled c hc
      rw [update_of_ne hlt.ne]
      exact ⟨hlater hlt, hopen⟩
    · obtain rfl := mem_singleton.1 hc
      rw [update_self]
      exact ⟨Nat.lt_succ_self _, rfl⟩
  · dsimp only at hc ⊢
    rw [update_of_ne (Nat.lt_of_succ_le hc).ne']
    exact h.unused c (Nat.le_of_succ_le hc)
  · exact hlater (h.known.1 u hu)
  · exact forall_mem_cons.2 ⟨Nat.lt_succ_self _, fun u hu => hlater (h.known.2 u hu)⟩
  · dsimp only at hu ⊢
    rw [hold _ (h.known.1 u hu)]
    exact h.kept.evictions u hu
  · dsimp only
    refine forall_mem_cons.2 ⟨?_, fun u hu => ?_⟩
    · rw [update_self]
      refine ⟨fun h => by dsimp only; push_cast; omega, fun h => by dsimp only; push_cast; exact h, fun h => ?_⟩
      have : (0 : ℤ) ≤ (l.pool.manager.config.roll x).secs * second := by rw [hsec]; omega
      have hcreated : (l.pool.manager.config.roll x).created = x.now := rfl
      dsimp only
      omega
    · rw [hold _ (h.known.2 u hu)]
      exact h.kept.handouts u hu

lemma step {t : XmuxLedger} {a : XmuxAction} (h : XmuxLedgerInv l) (hfits : FitsTypes l a) (ha : l.step a = some t) :
    XmuxLedgerInv t := by
  cases a with
  | get x =>
    have hevict := h.evict x
    have hmanager := l.pool.evict_manager x.now
    have hconfig : (l.pool.evict x.now).manager.config = l.pool.manager.config := by rw [hmanager]
    rcases l.pool.get_cases x with hget | ⟨hopens, hget⟩ | ⟨c, hc, -, hget⟩
    · simp only [XmuxLedger.step, hget, Option.some.injEq] at ha
      rw [← ha]
      exact hevict
    · simp only [XmuxLedger.step, hget, Option.some.injEq] at ha
      have hnew := hevict.newClient (by rw [hconfig]; exact (hfits hopens).1)
        (by rw [hconfig]; exact (hfits hopens).2)
      rw [← ha]
      simpa only [XmuxLedger.enter, XmuxLedger.hand, Pool.evict_next, if_true, hconfig] using hnew
    · have hkept : c ∈ l.pool.kept x.now := by
        rw [hmanager] at hc
        exact hc
      obtain ⟨hmem, hcause⟩ := Pool.mem_kept.1 hkept
      have hne : c ≠ l.pool.next := Nat.ne_of_lt (h.pooled c hmem).1
      simp only [XmuxLedger.step, hget, Option.some.injEq] at ha
      have hreuse := hevict.reuse x.now hc (by
        rw [Pool.evict_heap, if_neg fun hev => (Pool.mem_evicted.1 hev).2 hcause]
        exact hcause)
      rw [← ha]
      simpa only [XmuxLedger.enter, XmuxLedger.hand, hne, if_false] using hreuse
  | takeRequest c =>
    simp only [XmuxLedger.step] at ha
    split at ha
    next hlt =>
      cases ha
      refine ⟨fun d hd => ?_, h.pooled_update c rfl, fun d hd => ?_, h.known, ⟨h.kept.evictions, h.kept.handouts⟩⟩
      · dsimp only at hd ⊢
        rw [Pool.update_heap]
        by_cases hdc : d = c
        · subst hdc
          rw [if_pos rfl, update_self]
          exact (h.client d hlt).takeRequest hfits
        · rw [if_neg hdc, update_of_ne hdc]
          exact h.client d hd
      · dsimp only [Pool.update] at hd ⊢
        rw [update_of_ne (hlt.trans_le hd).ne']
        exact h.unused d hd
    · cases ha
  | addOpenUsage c delta =>
    simp only [XmuxLedger.step] at ha
    split at ha
    · cases ha
      refine ⟨fun d hd => ?_, h.pooled_update c rfl, h.unused, h.known, ⟨h.kept.evictions, h.kept.handouts⟩⟩
      rw [Pool.update_heap]
      split
      next hdc => exact hdc ▸ (h.client d hd).addOpenUsage delta
      · exact h.client d hd
    · cases ha

lemma init (config : XmuxConfig) (r1 r2 : ℕ) : XmuxLedgerInv { pool := newXmuxManager config r1 r2 } where
  client c hc := absurd hc (Nat.not_lt_zero c)
  pooled c hc := by simp [newXmuxManager] at hc
  unused c _ := ⟨rfl, rfl⟩
  known := ⟨by simp, by simp⟩
  kept := ⟨by simp, by simp⟩

end XmuxLedgerInv

/-- **When connections are retired.**  In every run of a pool whose connections stay open, if what is rolled fits its
types and no client carries so many requests that its counter leaves an `int32`, then a client is evicted only when it
was handed out, has carried requests or has been there as its limits say; and it is never handed out beyond them. -/
theorem xmux_limits_kept (config : XmuxConfig) (r1 r2 : ℕ) (as : List XmuxAction)
    (h : StepAll XmuxLedger.step FitsTypes { pool := newXmuxManager config r1 r2 } as) :
    VisitAll XmuxLedger.step LimitsKept { pool := newXmuxManager config r1 r2 } as :=
  have hinit := XmuxLedgerInv.init config r1 r2
  (visitAll_of_stepAll (fun _ _ _ ha hfits hinv => hinv.step hfits ha) as hinit h).imp fun _ hinv => hinv.kept

/-- One reuse, two requests and one second. -/
def strictXmux : XmuxConfig where
  maxConcurrency := ⟨4, 4⟩
  cMaxReuseTimes := ⟨2, 2⟩
  hMaxRequestTimes := ⟨2, 2⟩
  hMaxReusableSecs := ⟨1, 1⟩

theorem xmux_limits_kept_strict : VisitAll XmuxLedger.step LimitsKept { pool := newXmuxManager strictXmux 0 0 }
      [.get {}, .takeRequest 0, .get {}, .takeRequest 0, .get { now := 5 }, .get { now := 2000000000 }] :=
  xmux_limits_kept strictXmux 0 0 _ (by decide)

/-- What `normalizeXmux` makes of a limit of `2 ^ 31` requests. -/
def hugeXmux : XmuxConfig where
  maxConcurrency := ⟨4, 4⟩
  hMaxRequestTimes := ⟨2147483648, 2147483648⟩

/-- A limit of `2 ^ 31` requests is accepted, and the client is evicted at the next `get`, without a request. -/
theorem xmux_limits_broken : normalizeXmux (some ⟨ascii "4", [], [], ascii "2147483648", [], 0⟩) = .ok hugeXmux ∧
    ¬ VisitAll XmuxLedger.step LimitsKept { pool := newXmuxManager hugeXmux 0 0 } [.get {}, .get {}] := by
  refine ⟨by decide, fun h => ?_⟩
  have hlimit := (h.last rfl).evictions ⟨0, 1, 0, 0⟩ (by decide)
  revert hlimit
  unfold Rolled.Exhausted
  decide

end SingBox.Xhttp
