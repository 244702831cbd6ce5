import SingBox.Xhttp.Xmux

/-!
# What every interleaving of the pool keeps

`Pool.get_cases` says once what `get` can do.  `XmuxInv` relates the clients to the sections that are
left: a dial that was handed `c` is in the *gap* between `get` and `addOpenUsage(1)` while its next
section is `addOpenUsage c`, and it is counted while its next section is `release c`.  The usage count
of a client is the number of the holders past the gap.
-/

namespace SingBox.Xhttp

open SingBox.Lib List

/-! ### The pool operations -/

namespace Pool

variable (p : Pool) (c d : ClientId)

variable (f : XmuxClient → XmuxClient)

@[simp] lemma update_self : (p.update c f).heap c = f (p.heap c) := by
  simp [update]

lemma update_heap : (p.update c f).heap d = if d = c then f (p.heap c) else p.heap d := by
  simp [update, Function.update_apply]

@[simp] lemma update_manager : (p.update c f).manager = p.manager := rfl

lemma foldl_close_manager (cs : List ClientId) (p : Pool) :
    (cs.foldl close p).manager = p.manager ∧ (cs.foldl close p).next = p.next := by
  induction cs generalizing p with
  | nil => exact ⟨rfl, rfl⟩
  | cons a cs ih => exact ih (p.close a)

lemma close_close (k : XmuxClient) : k.close.close = k.close := by
  unfold XmuxClient.close
  by_cases h : k.openUsage ≤ 0 <;> simp [h, XmuxConn.close]

lemma foldl_close_heap (cs : List ClientId) (p : Pool) :
    (cs.foldl close p).heap c = if c ∈ cs then (p.heap c).close else p.heap c := by
  induction cs generalizing p with
  | nil => simp
  | cons a cs ih =>
    rw [foldl_cons, ih]
    by_cases ha : c = a
    · subst ha
      simp [close, close_close]
    · simp [close, update_heap, ha]

lemma evict_manager (now : ℤ) : (p.evict now).manager = { p.manager with clients := p.kept now } := by
  unfold evict
  rw [(foldl_close_manager _ _).1]
  rfl

lemma evict_next (now : ℤ) : (p.evict now).next = p.next := by
  unfold evict
  rw [(foldl_close_manager _ _).2]
  rfl

lemma evict_heap (now : ℤ) : (p.evict now).heap c = if c ∈ p.evicted now then (p.heap c).close else p.heap c := by
  unfold evict
  rw [foldl_close_heap]
  rfl

/-- **What `get` does**: it evicts, and then waits, opens a connection or reuses a pooled one. -/
theorem get_cases (x : Input) : p.get x = (p.evict x.now, none) ∨ ((p.evict x.now).Opens ∧
      p.get x = ((p.evict x.now).newClientLocked x, some p.next)) ∨ ∃ c ∈ (p.evict x.now).manager.clients,
      (0 < p.manager.concurrency → ((p.evict x.now).heap c).openUsage < p.manager.concurrency) ∧
      p.get x = ((p.evict x.now).takeLeftUsage c, some c) := by
  have hcur : (p.evict x.now).manager.concurrency = p.manager.concurrency := by
    rw [evict_manager]
  unfold get choose
  rw [evict_next]
  generalize hq : p.evict x.now = q at *
  split
  next hnil =>
    split
    · exact .inl rfl
    · exact .inr (.inl ⟨.inr (by simp [candidates, hnil]), rfl⟩)
  next hne =>
    split
    next hlt => exact .inr (.inl ⟨.inl hlt.2, rfl⟩)
    · split
      next hnone =>
        -- a nonempty list of candidates has an element at the drawn index
        refine .inr (.inl ⟨.inr ?_, rfl⟩)
        by_contra hc
        rw [getElem?_eq_none_iff] at hnone
        have hpos : 0 < (q.candidates.length : ℤ) := by
          have := length_pos_iff.2 hc
          omega
        have h1 := randIntn_lt hpos x.pick
        omega
      next c hc =>
        have hmem := mem_of_getElem? hc
        unfold candidates at hmem
        refine .inr (.inr ⟨c, ?_, ?_, rfl⟩)
        · split at hmem
          · exact (mem_filter.1 hmem).1
          · exact hmem
        · intro hpos
          rw [if_pos (hcur ▸ hpos), mem_filter, hcur] at hmem
          simpa using hmem.2

end Pool

/-! ### Holders -/

/-- The dials between `get`, which handed them `c`, and `addOpenUsage(1)`. -/
def inGap (c : ClientId) (m : Multiset XmuxOp) : ℕ := m.count (.addOpenUsage c)

/-- The dials that have counted themselves on `c` and not released it. -/
def counted (c : ClientId) (m : Multiset XmuxOp) : ℕ := m.count (.release c)

/-- The dials that were handed `c` and have not released it. -/
def handed (c : ClientId) (m : Multiset XmuxOp) : ℕ := inGap c m + counted c m

/-- `c` is one of the clients `xmuxManager.Close` has taken out and not closed yet. -/
def Closing (c : ClientId) (m : Multiset XmuxOp) : Prop := ∃ cs, XmuxOp.closeClients cs ∈ m ∧ c ∈ cs

section Counts

variable (c : ClientId) (o : XmuxOp) (m : Multiset XmuxOp)

@[simp] lemma counted_cons : counted c (o ::ₘ m) = counted c m + if o = .release c then 1 else 0 := by
  simp only [counted, Multiset.count_cons, eq_comm]

@[simp] lemma inGap_cons : inGap c (o ::ₘ m) = inGap c m + if o = .addOpenUsage c then 1 else 0 := by
  simp only [inGap, Multiset.count_cons, eq_comm]

@[simp] lemma closing_cons : Closing c (o ::ₘ m) ↔ (∃ cs, o = .closeClients cs ∧ c ∈ cs) ∨ Closing c m := by
  constructor
  · rintro ⟨cs, hcs, hc⟩
    rcases Multiset.mem_cons.1 hcs with h | h
    · exact .inl ⟨cs, h.symm, hc⟩
    · exact .inr ⟨cs, h, hc⟩
  · rintro (⟨cs, rfl, hc⟩ | ⟨cs, h, hc⟩)
    · exact ⟨cs, Multiset.mem_cons_self _ _, hc⟩
    · exact ⟨cs, Multiset.mem_cons_of_mem h, hc⟩

end Counts

/-- What relates the clients to the sections left, in every state a run reaches. -/
structure XmuxInv (p : Pool) (m : Multiset XmuxOp) : Prop where
  usage : ∀ c, (p.heap c).openUsage = counted c m
  /-- A pooled client has been made and has not been closed. -/
  pooled : ∀ c ∈ p.manager.clients, c < p.next ∧ (p.heap c).closed = false
  handed_lt : ∀ c, 0 < handed c m → c < p.next
  /-- A client that `Close` is about to close has left the pool. -/
  closing : ∀ c, Closing c m → c < p.next ∧ c ∉ p.manager.clients
  closed_lt : ∀ c, (p.heap c).closed = true → c < p.next
  /-- The connection is closed exactly when the client is retired and counts no stream, or was so
  once. -/
  conn : ∀ c, (p.heap c).conn.closed = true → (p.heap c).closed = true
  retired : ∀ c, (p.heap c).closed = true → (p.heap c).openUsage ≤ 0 → (p.heap c).conn.closed = true

/-- The part of a client that teardown depends on. -/
def XmuxClient.core (k : XmuxClient) : ℤ × XmuxConn × Bool := (k.openUsage, k.conn, k.closed)

lemma core_eq {k k' : XmuxClient} (h : k'.core = k.core) :
    k'.openUsage = k.openUsage ∧ k'.conn = k.conn ∧ k'.closed = k.closed := by
  simpa [XmuxClient.core] using h

/-- The invariant for one client, which counts `n` streams. -/
structure ClientSound (k : XmuxClient) (n : ℕ) (made pooled : Prop) : Prop where
  usage : k.openUsage = n
  pooled : pooled → made ∧ k.closed = false
  made : k.closed = true → made
  conn : k.conn.closed = true → k.closed = true
  retired : k.closed = true → k.openUsage ≤ 0 → k.conn.closed = true

lemma ClientSound.of_core {k k' : XmuxClient} {n : ℕ} {made pooled : Prop} (h : ClientSound k n made pooled)
    (hk : k'.core = k.core) : ClientSound k' n made pooled := by
  obtain ⟨husage, hconn, hclosed⟩ := core_eq hk
  exact ⟨husage.trans h.usage, hclosed ▸ h.pooled, fun hc => h.made (hclosed ▸ hc),
    fun hc => hclosed ▸ h.conn (hconn ▸ hc), fun hc hu => hconn ▸ h.retired (hclosed ▸ hc) (husage ▸ hu)⟩

section Clients

variable {p : Pool} {m : Multiset XmuxOp}

lemma XmuxInv.client (h : XmuxInv p m) (c : ClientId) :
    ClientSound (p.heap c) (counted c m) (c < p.next) (c ∈ p.manager.clients) :=
  ⟨h.usage c, h.pooled c, h.closed_lt c, h.conn c, h.retired c⟩

lemma XmuxInv.of_clients (h : ∀ c, ClientSound (p.heap c) (counted c m) (c < p.next) (c ∈ p.manager.clients))
    (hlt : ∀ c, 0 < handed c m → c < p.next) (hc : ∀ c, Closing c m → c < p.next ∧ c ∉ p.manager.clients) :
    XmuxInv p m :=
  ⟨fun c => (h c).usage, fun c => (h c).pooled, hlt, hc, fun c => (h c).made, fun c => (h c).conn,
    fun c => (h c).retired⟩

/-- The invariant reads of the pool only its members and the cores of the clients, and of the sections
only the holders. -/
lemma XmuxInv.congr {q : Pool} {n : Multiset XmuxOp} (h : XmuxInv p m)
    (hcl : q.manager.clients = p.manager.clients) (hnx : q.next = p.next)
    (hcore : ∀ c, (q.heap c).core = (p.heap c).core) (hh : ∀ c, counted c n = counted c m)
    (hg : ∀ c, inGap c n = inGap c m) (hc : ∀ c, Closing c n → Closing c m) : XmuxInv q n := by
  refine .of_clients (fun c => ?_) (fun c hpos => ?_) fun c hd => ?_
  · rw [hcl, hnx, hh]
    exact (h.client c).of_core (hcore c)
  · rw [hnx]
    exact h.handed_lt c (by simpa only [handed, hh, hg] using hpos)
  · rw [hnx, hcl]
    exact h.closing c (hc c hd)

end Clients

/-- A section that neither holds a client nor closes one. -/
def XmuxOp.Neutral (o : XmuxOp) : Prop :=
  (∀ c, o ≠ .release c) ∧ (∀ c, o ≠ .addOpenUsage c) ∧ ∀ cs, o ≠ .closeClients cs

variable {m : Multiset XmuxOp} {o : XmuxOp}

lemma XmuxInv.tail {p : Pool} (h : XmuxInv p (o ::ₘ m)) (ho : o.Neutral) : XmuxInv p m := by
  refine h.congr rfl rfl (fun _ => rfl) (fun c => ?_) (fun c => ?_) (fun c hc => ?_)
  · simp [ho.1 c]
  · simp [ho.2.1 c]
  · simp [hc]

variable {new : List XmuxOp}

lemma XmuxInv.append {p : Pool} (h : XmuxInv p m) (hnew : ∀ a ∈ new, a.Neutral) : XmuxInv p (↑new + m) := by
  induction new with
  | nil => simpa using h
  | cons a new ih =>
    have ha := hnew a (by simp)
    have := ih (fun b hb => hnew b (by simp [hb]))
    refine this.congr rfl rfl (fun _ => rfl) (fun c => ?_) (fun c => ?_) (fun c hc => ?_)
    · simp [ha.1 c]
    · simp [ha.2.1 c]
    · rw [pending_cons_add, closing_cons] at hc
      rcases hc with ⟨cs, rfl, -⟩ | hc
      · exact absurd rfl (ha.2.2 cs)
      · exact hc

lemma update_core {p : Pool} {c : ClientId} {f : XmuxClient → XmuxClient}
    (hf : ∀ k, (f k).core = k.core) (d : ClientId) : ((p.update c f).heap d).core = (p.heap d).core := by
  rw [Pool.update_heap]
  split
  next hd => rw [hf, hd]
  · rfl

/-! ### Quiet sections -/

/-- The sections that count requests and failures, and the breaker's. -/
def XmuxOp.Quiet : XmuxOp → Prop
  | .takeRequest _ | .roundTripped _ | .countFailure _ | .storeFailing _ | .noteBreakerTrip
  | .storeSuccess _ | .loadArmed | .resetBackoff => True
  | _ => False

/-- What a quiet section can do: the members of the pool and the cores of the clients stay, and what is
left to run neither holds a client nor closes one. -/
structure QuietStep (p q : Pool) (new : List XmuxOp) : Prop where
  clients : q.manager.clients = p.manager.clients
  next : q.next = p.next
  core : ∀ c, (q.heap c).core = (p.heap c).core
  neutral : ∀ a ∈ new, a.Neutral

attribute [local simp] XmuxOp.Neutral

lemma XmuxOp.Quiet.neutral (ho : o.Quiet) : o.Neutral := by
  cases o with
  | addOpenUsage c | release c | closeClients cs => exact ho.elim
  | _ => simp

lemma quietStep_of_exec {x : Input} {p q : Pool}
    (h : o.exec x p = some (q, new)) (ho : o.Quiet) : QuietStep p q new := by
  cases o with
  | get | addOpenUsage c | release c | closeManager | closeClients cs => exact ho.elim
  | takeRequest c | storeFailing c | storeSuccess c | countFailure c =>
    cases h
    exact ⟨rfl, rfl, update_core fun _ => rfl, by simp⟩
  | roundTripped c | loadArmed =>
    simp only [XmuxOp.exec] at h
    split at h <;> cases h <;> exact ⟨rfl, rfl, fun _ => rfl, by simp⟩
  | noteBreakerTrip | resetBackoff =>
    cases h
    exact ⟨rfl, rfl, fun _ => rfl, by simp⟩

lemma XmuxInv.quiet {p q : Pool}
    (h : XmuxInv p (o ::ₘ m)) (ho : o.Quiet) (hq : QuietStep p q new) : XmuxInv q (↑new + m) :=
  ((h.tail ho.neutral).append hq.neutral).congr hq.clients hq.next hq.core (fun _ => rfl) (fun _ => rfl)
    fun _ h => h

/-! ### Every section keeps the invariant -/

section Keep

variable {p : Pool} {m : Multiset XmuxOp} {c : ClientId} {cs : List ClientId}

lemma XmuxInv.setClients (h : XmuxInv p m) (hsub : ∀ d ∈ cs, d ∈ p.manager.clients) : XmuxInv (p.setClients cs) m where
  usage := h.usage
  pooled d hd := h.pooled d (hsub d hd)
  handed_lt := h.handed_lt
  closing d hd := ⟨(h.closing d hd).1, fun hmem => (h.closing d hd).2 (hsub d hmem)⟩
  closed_lt := h.closed_lt
  conn := h.conn
  retired := h.retired

lemma XmuxInv.close (h : XmuxInv p m) (hlt : c < p.next) (hout : c ∉ p.manager.clients) : XmuxInv (p.close c) m := by
  refine .of_clients (fun d => ?_) h.handed_lt h.closing
  rw [Pool.close, Pool.update_heap]
  split
  next hd =>
    subst hd
    exact ⟨h.usage d, fun hmem => absurd hmem hout, fun _ => hlt, fun _ => rfl,
      fun _ hu => by simp [XmuxClient.close, show (p.heap d).openUsage ≤ 0 from hu, XmuxConn.close]⟩
  · exact h.client d

lemma XmuxInv.foldl_close (h : XmuxInv p m)
    (hcs : ∀ d ∈ cs, d < p.next ∧ d ∉ p.manager.clients) : XmuxInv (cs.foldl Pool.close p) m := by
  induction cs generalizing p with
  | nil => exact h
  | cons a cs ih =>
    have ha := hcs a (by simp)
    exact ih (h.close ha.1 ha.2) (fun d hd => hcs d (by simp [hd]))

lemma Pool.mem_kept {now : ℤ} : c ∈ p.kept now ↔ c ∈ p.manager.clients ∧ (p.heap c).evictCause now = none := by
  simp [Pool.kept]

lemma Pool.mem_evicted {now : ℤ} : c ∈ p.evicted now ↔ c ∈ p.manager.clients ∧ (p.heap c).evictCause now ≠ none := by
  simp [Pool.evicted, Option.isSome_iff_ne_none]

lemma XmuxInv.evict (h : XmuxInv p m) (now : ℤ) : XmuxInv (p.evict now) m := by
  have h1 : XmuxInv (p.setClients (p.kept now)) m :=
    h.setClients fun d hd => (Pool.mem_kept.1 hd).1
  refine h1.foldl_close (fun d hd => ?_)
  have hd' := Pool.mem_evicted.1 hd
  exact ⟨(h.pooled d hd'.1).1, fun hk => hd'.2 (Pool.mem_kept.1 hk).2⟩

lemma XmuxInv.hand (h : XmuxInv p m) (hmem : c ∈ p.manager.clients) : XmuxInv p (.addOpenUsage c ::ₘ m) where
  usage d := by simpa using h.usage d
  pooled := h.pooled
  handed_lt d hd := by
    by_cases hdc : d = c
    · exact hdc ▸ (h.pooled c hmem).1
    · refine h.handed_lt d ?_
      simpa [handed, Ne.symm hdc] using hd
  closing d hd := h.closing d (by simpa using hd)
  closed_lt := h.closed_lt
  conn := h.conn
  retired := h.retired

lemma XmuxInv.newClient (h : XmuxInv p m) (x : Input) : XmuxInv (p.newClientLocked x) (.addOpenUsage p.next ::ₘ m) := by
  have hheap : ∀ d, (p.newClientLocked x).heap d =
      if d = p.next then p.freshClient x else p.heap d := by
    intro d
    simp [Pool.newClientLocked, Function.update_apply]
  refine .of_clients (fun d => ?_) (fun d hd => ?_) fun d hd => ?_
  · rw [hheap]
    split
    next hd =>
      subst hd
      have h0 : handed p.next m = 0 := by
        by_contra hne
        exact Nat.lt_irrefl _ (h.handed_lt _ (Nat.pos_of_ne_zero hne))
      have h1 : counted p.next m = 0 := by unfold handed at h0; omega
      constructor <;> simp [Pool.freshClient, Pool.newClientLocked, h1]
    next hd =>
      obtain ⟨husage, hpooled, hmade, hconn, hretired⟩ := h.client d
      refine ⟨by simpa using husage, fun hmem => ?_, fun hc => Nat.lt_succ_of_lt (hmade hc), hconn, hretired⟩
      have hmem : d ∈ p.manager.clients := by simpa [Pool.newClientLocked, hd] using hmem
      exact (hpooled hmem).imp_left Nat.lt_succ_of_lt
  · by_cases hdn : d = p.next
    · simp [Pool.newClientLocked, hdn]
    · exact Nat.lt_succ_of_lt (h.handed_lt d (by simpa [handed, Ne.symm hdn] using hd))
  · have hd' := h.closing d (by simpa using hd)
    simp only [Pool.newClientLocked, mem_append, mem_singleton]
    refine ⟨Nat.lt_succ_of_lt hd'.1, ?_⟩
    rintro (hmem | rfl)
    · exact hd'.2 hmem
    · exact lt_irrefl _ hd'.1

lemma XmuxInv.addUsage {delta : ℤ} {m' : Multiset XmuxOp} (h : XmuxInv p m) (hlt : c < p.next)
    (hc : (p.heap c).openUsage + delta = counted c m') (hd : ∀ d, d ≠ c → counted d m' = counted d m)
    (hh : ∀ d, d ≠ c → handed d m' = handed d m) (hcl : ∀ d, Closing d m' → Closing d m) :
    XmuxInv (p.update c (·.addOpenUsage delta)) m' := by
  refine .of_clients (fun d => ?_) (fun d hpos => ?_) fun d hd' => h.closing d (hcl d hd')
  · rw [Pool.update_heap]
    split
    next hdc =>
      subst hdc
      obtain ⟨-, hpooled, hmade, hconn, -⟩ := h.client d
      refine ⟨hc, hpooled, hmade, fun hcl' => ?_, fun hcl' hu => ?_⟩
      · simp only [XmuxClient.addOpenUsage] at hcl'
        split at hcl'
        · rename_i hretire; exact hretire.1
        · exact hconn hcl'
      · simp only [XmuxClient.addOpenUsage] at hcl' hu ⊢
        rw [if_pos ⟨hcl', hu⟩]
        rfl
    next hdc =>
      rw [hd d hdc]
      exact h.client d
  · by_cases hdc : d = c
    · exact hdc ▸ hlt
    · exact h.handed_lt d (hh d hdc ▸ hpos)

lemma XmuxInv.get {x : Input} {q : Pool} (h : XmuxOp.get.exec x p = some (q, new))
    (hi : XmuxInv p (.get ::ₘ m)) : XmuxInv q (↑new + m) := by
  have hq := (hi.tail (by simp)).evict x.now
  simp only [XmuxOp.exec] at h
  rcases p.get_cases x with hg | ⟨-, hg⟩ | ⟨c, hc, -, hg⟩
  · rw [hg] at h
    cases h
    refine hq.append (fun a ha => ?_)
    split at ha
    · simp at ha
    · simp only [mem_singleton] at ha
      simp [ha]
  · rw [hg] at h
    cases h
    rw [← p.evict_next x.now]
    exact hq.newClient x
  · rw [hg] at h
    cases h
    refine (hq.hand hc).congr rfl rfl (update_core fun k => ?_) ?_ ?_ ?_
    · split <;> rfl
    all_goals simp

lemma XmuxInv.closeManager (hi : XmuxInv p (.closeManager ::ₘ m)) :
    XmuxInv (p.setClients []) (.closeClients p.manager.clients ::ₘ m) := by
  have hm := hi.tail (by simp)
  have h1 : XmuxInv (p.setClients []) m := hm.setClients (by simp)
  refine ⟨fun d => by simpa using h1.usage d, h1.pooled, fun d hd => h1.handed_lt d ?_, fun d hd => ?_,
    h1.closed_lt, h1.conn, h1.retired⟩
  · simpa [handed] using hd
  · simp only [closing_cons, XmuxOp.closeClients.injEq, exists_eq_left'] at hd
    rcases hd with hd | hd
    · exact ⟨(hm.pooled d hd).1, by simp [Pool.setClients]⟩
    · exact h1.closing d hd

lemma XmuxInv.closeClients (hi : XmuxInv p (.closeClients (c :: cs) ::ₘ m)) :
    XmuxInv (p.close c) (.closeClients cs ::ₘ m) := by
  have hc := hi.closing c (by simp)
  have h1 := hi.close hc.1 hc.2
  refine h1.congr rfl rfl (fun _ => rfl) (fun d => by simp) (fun d => by simp) (fun d hd => ?_)
  simp only [closing_cons, XmuxOp.closeClients.injEq, exists_eq_left'] at hd ⊢
  rcases hd with hd | hd
  · exact .inl (mem_cons_of_mem _ hd)
  · exact .inr hd

/-- **Every atomic section keeps the invariant.** -/
theorem xmux_exec_inv {x : Input} {q : Pool}
    (h : o.exec x p = some (q, new)) (hi : XmuxInv p (o ::ₘ m)) : XmuxInv q (↑new + m) := by
  cases o with
  | get => exact XmuxInv.get h hi
  | addOpenUsage c | release c =>
    cases h
    have hu := hi.usage c
    refine hi.addUsage (hi.handed_lt c ?_) ?_ ?_ ?_ ?_
    · simp [handed]
    · simp [hu]
    · intro d hd; simp [Ne.symm hd]
    · intro d hd; simp [handed, Ne.symm hd]
    · intro d; simp
  | closeManager =>
    cases h
    exact hi.closeManager
  | closeClients cs =>
    cases cs with
    | nil =>
      cases h
      refine hi.congr rfl rfl (fun _ => rfl) (fun c => by simp) (fun c => by simp) (fun c hc => ?_)
      simpa using hc
    | cons c cs =>
      cases h
      exact hi.closeClients
  | _ =>
    -- the sections that are left are quiet
    exact hi.quiet trivial (quietStep_of_exec h trivial)

end Keep

lemma xmux_call_inv (k : XmuxCall) (p : Pool) (m : Multiset XmuxOp) (h : XmuxInv p m) : XmuxInv p (↑k.code + m) := by
  refine h.append (fun a ha => ?_)
  cases k <;> simp only [XmuxCall.code, mem_cons, not_mem_nil, or_false] at ha
  case roundTrip c => rcases ha with rfl | rfl <;> simp
  all_goals subst ha; simp

theorem xmux_step_inv (s : XmuxState) (e : XmuxEvent) (t : XmuxState)
    (h : xmuxProgram.step s e = some t) (hs : XmuxInv s.shared s.pending) : XmuxInv t.shared t.pending :=
  Program.step_inv XmuxInv (xmux_call_inv) (fun _ _ _ _ _ _ => xmux_exec_inv) s e t h hs

lemma xmux_init_inv (config : XmuxConfig) (r1 r2 : ℕ) : XmuxInv (newXmuxManager config r1 r2) 0 := by
  refine ⟨fun c => rfl, ?_, ?_, ?_, ?_, ?_, ?_⟩ <;>
    simp [newXmuxManager, handed, inGap, counted, Closing]

/-- **In every run the usage of a client counts the dials that use it, the clients in the pool are connected, and a
retired client that no dial uses is not.** -/
theorem xmux_pool_sound (config : XmuxConfig) (r1 r2 : ℕ) (es : List XmuxEvent) :
    VisitAll xmuxProgram.step (fun s => ∀ c, (s.shared.heap c).openUsage = counted c s.pending ∧
      (c ∈ s.shared.manager.clients → (s.shared.heap c).conn.closed = false) ∧
      ((s.shared.heap c).closed = true → counted c s.pending = 0 → (s.shared.heap c).conn.closed = true))
      (Config.init (newXmuxManager config r1 r2)) es := by
  refine (visitAll_of_inv xmux_step_inv es (xmux_init_inv config r1 r2)).imp
    fun s hs c => ⟨hs.usage c, fun hc => ?_, ?_⟩
  · by_contra hopen
    have := hs.conn c (by simpa using hopen)
    simp [(hs.pooled c hc).2] at this
  · intro hclosed hzero
    exact hs.retired c hclosed (by simp [hs.usage c, hzero])

end SingBox.Xhttp
