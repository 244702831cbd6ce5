import SingBox.Dns.Client

/-!
# How long a record lives

One lifetime is computed for a whole response and written to all its records.  It is the smallest time to live that is
not zero, or that of the SOA record of a response without answers; a record with a smaller one is given more time than
it came with (`Msg.Raises`), and every other record is never served longer than it may live.
-/

namespace SingBox.Dns

open List

variable {σ β : Type} {m : Msg} {r : RR}

def Msg.records (m : Msg) : List RR := m.answer ++ m.ns ++ m.extra

/-- The response gives a record more time than it came with: less than the SOA record of a response without answers, or
none, beside a record that has some. -/
def Msg.Raises (m : Msg) (r : RR) : Prop :=
  match if m.answer.isEmpty then extractNegativeTTL m else none with
  | some soaTTL => r.ttl < soaTTL
  | none => r.ttl = 0 ∧ ∃ r' ∈ m.records, r'.rrtype ≠ typeOPT ∧ 0 < r'.ttl

/-! ### The lifetime of a response -/

/-- The loop over the records: it ends with a time if there was one, at most that of any record that has one. -/
lemma foldl_lowerTTL_spec (rs : List RR) (t : ℕ) :
    (0 < rs.foldl lowerTTL t ↔ 0 < t ∨ ∃ r ∈ rs, r.rrtype ≠ typeOPT ∧ 0 < r.ttl) ∧ (0 < t → rs.foldl lowerTTL t ≤ t) ∧
    ∀ r ∈ rs, r.rrtype ≠ typeOPT → 0 < r.ttl → rs.foldl lowerTTL t ≤ r.ttl := by
  induction rs generalizing t with
  | nil => simp
  | cons r rs ih =>
    have hstep : (0 < lowerTTL t r ↔ 0 < t ∨ r.rrtype ≠ typeOPT ∧ 0 < r.ttl) ∧ (0 < t → lowerTTL t r ≤ t) ∧
        (r.rrtype ≠ typeOPT → 0 < r.ttl → lowerTTL t r ≤ r.ttl) := by
      unfold lowerTTL
      split
      next hopt => simp [hopt]
      · split <;> simp <;> omega
    obtain ⟨hpos, hle, hall⟩ := ih (lowerTTL t r)
    rw [foldl_cons]
    refine ⟨by rw [hpos, hstep.1]; simp [or_assoc], fun ht => ?_, forall_mem_cons.2 ⟨fun hopt hr => ?_, hall⟩⟩
    · exact (hle (hstep.1.2 (.inl ht))).trans (hstep.2.1 ht)
    · exact (hle (hstep.1.2 (.inr ⟨hopt, hr⟩))).trans (hstep.2.2 hopt hr)

/-- **A record is raised exactly if it has less than the lifetime of the response.** -/
theorem Msg.lt_computeTimeToLive_iff (hr : r ∈ m.records) (hopt : r.rrtype ≠ typeOPT) :
    r.ttl < computeTimeToLive m ↔ m.Raises r := by
  have hall : r.ttl < (m.answer ++ m.ns ++ m.extra).foldl lowerTTL 0 ↔
      r.ttl = 0 ∧ ∃ r' ∈ m.records, r'.rrtype ≠ typeOPT ∧ 0 < r'.ttl := by
    obtain ⟨hpos, -, hle⟩ := foldl_lowerTTL_spec m.records 0
    rw [← hpos.trans (or_iff_right (lt_irrefl 0))]
    refine ⟨fun hlt => ⟨?_, pos_of_gt hlt⟩, fun ⟨h0, h⟩ => by rwa [h0]⟩
    by_contra h0
    exact absurd (hle r hr hopt (Nat.pos_of_ne_zero h0)) (not_le.2 hlt)
  unfold computeTimeToLive Msg.Raises
  cases m.answer.isEmpty with
  | false => exact hall
  | true =>
    cases hneg : extractNegativeTTL m with
    | none => exact hall
    | some soaTTL => exact Iff.rfl

/-! ### What is served -/

/-- The types and the times to live of all records. -/
def Msg.lives (m : Msg) : List (ℕ × ℕ) := m.records.map fun r => (r.rrtype, r.ttl)

def withLife (timeToLive : ℕ) (p : ℕ × ℕ) : ℕ × ℕ := (p.1, if p.1 = typeOPT then p.2 else timeToLive)

lemma withLife_comp (t t' : ℕ) : withLife t ∘ withLife t' = withLife t := by
  funext p
  unfold withLife
  dsimp only [Function.comp]
  split <;> rfl

lemma normalizeTTL_lives (m : Msg) (timeToLive : ℕ) :
    (normalizeTTL m timeToLive).lives = m.lives.map (withLife timeToLive) := by
  have hmap (rs : List RR) : (rs.map (RR.withTTL timeToLive)).map (fun r => (r.rrtype, r.ttl)) =
      (rs.map fun r => (r.rrtype, r.ttl)).map (withLife timeToLive) := by
    rw [map_map, map_map]
    refine map_congr_left fun r _ => ?_
    unfold RR.withTTL withLife
    dsimp only [Function.comp]
    split <;> rfl
  simp only [Msg.lives, Msg.records, normalizeTTL, map_append, hmap]

/-- The response with the hints of its answers filtered has the same records but for the hints. -/
lemma filterHints_same (m : Msg) (strategy : DomainStrategy) :
    { m with answer := m.answer.map (RR.filterHints strategy) }.lives = m.lives ∧
      computeTimeToLive { m with answer := m.answer.map (RR.filterHints strategy) } = computeTimeToLive m := by
  have hsame (r : RR) : (r.filterHints strategy).rrtype = r.rrtype ∧ (r.filterHints strategy).ttl = r.ttl := by
    unfold RR.filterHints
    split <;> exact ⟨rfl, rfl⟩
  have hfold (rs : List RR) (t : ℕ) : (rs.map (RR.filterHints strategy)).foldl lowerTTL t = rs.foldl lowerTTL t := by
    rw [foldl_map]
    congr 1
    funext t r
    rw [lowerTTL, lowerTTL, (hsame r).1, (hsame r).2]
  constructor
  · simp [Msg.lives, Msg.records, hsame]
  · simp only [computeTimeToLive, extractNegativeTTL, foldl_append, hfold, isEmpty_map]

lemma applyResponseOptions_lives {options : QueryOptions} (hr : options.rewriteTTL = none) (question : Question)
    (m : Msg) : (applyResponseOptions question m options).1 = computeTimeToLive m ∧
      (applyResponseOptions question m options).2.lives = m.lives.map (withLife (computeTimeToLive m)) := by
  unfold applyResponseOptions
  rw [hr]
  dsimp only [Option.getD_none]
  split
  · obtain ⟨hlives, httl⟩ := filterHints_same m options.strategy
    exact ⟨httl, by rw [normalizeTTL_lives, hlives, httl]⟩
  · exact ⟨rfl, normalizeTTL_lives ..⟩

lemma Client.loadResponse_fresh {c : Client σ β} (hc : c.lru.Lawful) (hb : c.backend = .memory)
    (hd : c.disableExpire = false) {s : ClientState σ β} {key : CacheKey} {a : Answer} {expireAt now : ℕ}
    (hentry : ∀ e, c.lru.entries s.cache key = some e → e = (a, some expireAt)) {loaded : Loaded}
    (hload : (c.loadResponse s key now).1 = some loaded) (hfresh : loaded.isStale = false) :
    now ≤ expireAt ∧ loaded.answer.message = normalizeTTL a.message (secondsLeft expireAt now % 2 ^ 32) := by
  simp only [Client.loadResponse, hb, hd, Bool.false_eq_true, if_false] at hload
  split at hload
  · cases hload
  next answer at' _ heq =>
    obtain ⟨e, he, hat⟩ := hc.getWithLifetime s.cache key answer at' (by rw [heq])
    obtain ⟨rfl, rfl⟩ := Prod.mk.inj (hentry _ he)
    rw [Option.getD_some] at hat
    subst hat
    split at hload
    next h =>
      cases hload
      unfold Client.serve at h
      split at h
      · split at h
        · cases h
          cases hfresh
        · cases h
      next hlt =>
        cases h
        exact ⟨not_lt.1 hlt, rfl⟩
    · cases hload

/-- An entry leaves no more whole seconds than the rest of a longer life. -/
lemma served_le {now now' expireAt lifetime own : ℕ} (hexpire : expireAt ≤ now + lifetime * 10 ^ 9)
    (hlt : now' ≤ expireAt) (hle : lifetime ≤ own) (hnow : now ≤ now') :
    now' ≤ now + own * 10 ^ 9 ∧ secondsLeft expireAt now' % 2 ^ 32 + (now' - now) / 10 ^ 9 ≤ own := by
  have hleft := secondsLeft_lt expireAt now'
  have hmod := Nat.mod_le (secondsLeft expireAt now') (2 ^ 32)
  have hpassed := Nat.div_mul_le_self (now' - now) (10 ^ 9)
  omega

lemma Client.storeCache_memory {c : Client σ β} (hc : c.lru.Lawful) (hb : c.backend = .memory)
    (hd : c.disableExpire = false) (s : ClientState σ β) (key : CacheKey) (message origin : Msg) {timeToLive : ℕ}
    (h0 : timeToLive ≠ 0) (now : ℕ) : ∃ expireAt ≤ now + timeToLive * 10 ^ 9, ∀ e,
      c.lru.entries (c.storeCache s key message origin timeToLive now).cache key = some e →
        e = (⟨message, origin⟩, some expireAt) := by
  obtain ⟨expireAt, hle, hw⟩ := hc.addWithLifetime s.cache key ⟨message, origin⟩ (timeToLive * 10 ^ 9) now
  refine ⟨expireAt, hle, fun e he => ?_⟩
  simp only [Client.storeCache, h0, hb, hd, Bool.false_eq_true, if_false] at he
  simpa [eq_comm] using hw key e he

/-- **No record lives longer than it may, unless the response raises it.**  The records of a response get its lifetime,
which exceeds that of a record exactly if the response raises it; and what is served from memory as fresh is within the
lifetime of every other record, with no more of it than is left after whole seconds. -/
theorem lifetime_not_extended (c : Client σ β) (hc : c.lru.Lawful) (hb : c.backend = .memory)
    (hd : c.disableExpire = false) (question : Question) (response : Msg) (options : QueryOptions)
    (hr : options.rewriteTTL = none) : let applied := applyResponseOptions question response options
    applied.2.lives = response.lives.map (withLife applied.1) ∧
    (∀ r ∈ response.records, r.rrtype ≠ typeOPT → (r.ttl < applied.1 ↔ response.Raises r)) ∧
    ∀ (s s' : ClientState σ β) key now now' loaded, applied.1 ≠ 0 → now ≤ now' →
      (∀ e, c.lru.entries s'.cache key = some e →
        c.lru.entries (c.storeCache s key applied.2 response applied.1 now).cache key = some e) →
      (c.loadResponse s' key now').1 = some loaded → loaded.isStale = false →
      ∃ served, loaded.answer.message.lives = response.lives.map (withLife served) ∧
        ∀ r ∈ response.records, r.rrtype ≠ typeOPT → ¬response.Raises r →
          now' ≤ now + r.ttl * 10 ^ 9 ∧ served + (now' - now) / 10 ^ 9 ≤ r.ttl := by
  obtain ⟨httl, hlives⟩ := applyResponseOptions_lives hr question response
  have hraises : ∀ r ∈ response.records, r.rrtype ≠ typeOPT →
      (r.ttl < (applyResponseOptions question response options).1 ↔ response.Raises r) := by
    intro r hmem hopt
    rw [httl]
    exact Msg.lt_computeTimeToLive_iff hmem hopt
  refine ⟨by rw [hlives, httl], hraises, ?_⟩
  intro s s' key now now' loaded h0 hnow hkept hload hfresh
  generalize applyResponseOptions question response options = applied at *
  obtain ⟨expireAt, hexpire, hentry⟩ := Client.storeCache_memory hc hb hd s key applied.2 response h0 now
  obtain ⟨hlt, hmessage⟩ := Client.loadResponse_fresh hc hb hd (fun e he => hentry e (hkept e he)) hload hfresh
  refine ⟨_, by rw [hmessage, normalizeTTL_lives, hlives, map_map, withLife_comp], fun r hmem hopt hnot => ?_⟩
  exact served_le hexpire hlt (not_lt.1 (mt (hraises r hmem hopt).1 hnot)) hnow

/-- Two addresses, one of which is not to be kept. -/
def unevenResponse : Msg :=
  { response := true
    answer := [{ rrtype := typeA, ttl := 0, data := .a none }, { rrtype := typeA, ttl := 300, data := .a none }] }

/-- The record that is not to be kept is given the time of the other one. -/
theorem unevenResponse_raised : (applyResponseOptions {} unevenResponse {}).2.records.map RR.ttl = [300, 300] ∧
      unevenResponse.records.map RR.ttl = [0, 300] := by
  decide

/-- Two addresses, for one minute and for five. -/
def minutesResponse : Msg :=
  { response := true
    answer := [{ rrtype := typeA, ttl := 60, data := .a none }, { rrtype := typeA, ttl := 300, data := .a none }] }

/-- Ten seconds after they were stored, no more than 50 are left. -/
theorem minutesResponse_later : let c : Client _ Msg := { lru := mapCache, pack := some, unpack := some }
    let applied := applyResponseOptions {} minutesResponse {}
    let s := c.storeCache { cache := mapCache.new } {} applied.2 minutesResponse applied.1 0
    ∃ loaded served, (c.loadResponse s {} (10 * 10 ^ 9)).1 = some loaded ∧
      loaded.answer.message.lives = minutesResponse.lives.map (withLife served) ∧ served + 10 ≤ 60 := by
  intro c applied s
  have hload : (c.loadResponse s {} (10 * 10 ^ 9)).1 =
      some ⟨⟨normalizeTTL applied.2 (secondsLeft (60 * 10 ^ 9) (10 * 10 ^ 9) % 2 ^ 32), minutesResponse⟩, false⟩ := by
    have h60 : applied.1 = 60 := by decide
    simp [c, s, h60, Client.loadResponse, Client.storeCache, Client.serve, mapCache]
  obtain ⟨served, hlives, hserved⟩ := (lifetime_not_extended c mapCache_lawful rfl rfl {} minutesResponse {} rfl).2.2
    { cache := mapCache.new } s {} 0 (10 * 10 ^ 9) _ (by decide) (by decide) (fun _ h => h) hload rfl
  exact ⟨_, served, hload, hlives, (hserved _ (mem_cons_self ..) (by decide) (by rintro ⟨h, -⟩; cases h)).2⟩

end SingBox.Dns
