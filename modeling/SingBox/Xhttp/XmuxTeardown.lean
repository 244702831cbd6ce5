import SingBox.Xhttp.XmuxInv

/-!
# When a pooled connection is torn down

`xmuxClient.close` and the last `addOpenUsage(-1)` of a retired client call `conn.Close` when the usage
count is not positive.  A dial that `get` has handed the client to is counted only by its
`addOpenUsage(1)`, which is a later section, so the count is zero while all holders are in the gap.
-/

namespace SingBox.Xhttp

open SingBox.Lib

/-! ### The properties -/

/-- No connection is closed while a dial that was handed its client has not released it. -/
def NoTeardownUnderHolder (s : XmuxState) : Prop :=
  ∀ c, (s.shared.heap c).conn.closed = true → handed c s.pending = 0

/-- The client has left the pool, and `close` has been called on it. -/
def Retired (c : ClientId) (p : Pool) (m : Multiset XmuxOp) : Prop :=
  c < p.next ∧ c ∉ p.manager.clients ∧ ¬ Closing c m

/-- The connection of a retired client without holders is closed. -/
def RetiredTornDown (s : XmuxState) : Prop :=
  ∀ c, Retired c s.shared s.pending → handed c s.pending = 0 → (s.shared.heap c).conn.closed = true

/-- The section does not close the connection of a client that has a dial in the gap. -/
def GapSafe (p : Pool) (m : Multiset XmuxOp) (o : XmuxOp) (x : Input) : Prop :=
  match o with
  | .get => ∀ c ∈ p.evicted x.now, (p.heap c).openUsage ≤ 0 → inGap c m = 0
  | .closeClients (c :: _) => (p.heap c).openUsage ≤ 0 → inGap c m = 0
  | .release c => (p.heap c).closed = true → (p.heap c).openUsage ≤ 1 → inGap c m = 0
  | _ => True

def TeardownSafe (s : XmuxState) : XmuxEvent → Prop
  | .call _ => True
  | .sched i x => ∀ o, s.next i = some o → GapSafe s.shared s.pending o x

/-! ### Clients that have left the pool -/

/-- A client that has left the pool is flagged closed, or `Close` has still to close it. -/
def LeftClosed (p : Pool) (m : Multiset XmuxOp) : Prop :=
  ∀ c, Retired c p m → (p.heap c).closed = true

variable {c : ClientId} {p : Pool}

lemma evict_closed {now : ℤ} (h : (p.heap c).closed = true) : ((p.evict now).heap c).closed = true := by
  rw [Pool.evict_heap]
  split
  · rfl
  · exact h

variable {q : Pool}

lemma LeftClosed.congr {m n : Multiset XmuxOp} (h : LeftClosed p m)
    (hcl : ∀ c, c < p.next → c ∉ q.manager.clients → c ∉ p.manager.clients)
    (hnx : q.next = p.next) (hc : ∀ c, (p.heap c).closed = true → (q.heap c).closed = true)
    (hclosing : ∀ c, Closing c m → Closing c n) : LeftClosed q n := by
  rintro c ⟨hlt, hout, hn⟩
  rw [hnx] at hlt
  exact hc c (h c ⟨hlt, hcl c hlt hout, fun hm => hn (hclosing c hm)⟩)

variable {m : Multiset XmuxOp}

lemma LeftClosed.evict (h : LeftClosed p m) (now : ℤ) : LeftClosed (p.evict now) m := by
  rintro c ⟨hlt, hout, hn⟩
  rw [Pool.evict_next] at hlt
  rw [Pool.evict_manager] at hout
  by_cases hmem : c ∈ p.manager.clients
  · have hev : c ∈ p.evicted now := by
      rw [Pool.mem_evicted]
      exact ⟨hmem, fun hnone => hout (Pool.mem_kept.2 ⟨hmem, hnone⟩)⟩
    rw [Pool.evict_heap, if_pos hev]
    rfl
  · exact evict_closed (h c ⟨hlt, hmem, hn⟩)

lemma Closing.add (h : Closing c m) (new : List XmuxOp) : Closing c (↑new + m) := by
  obtain ⟨cs, hcs, hmem⟩ := h
  exact ⟨cs, Multiset.mem_add.2 (.inr hcs), hmem⟩

variable {new : List XmuxOp} {o : XmuxOp}

lemma LeftClosed.frame
    (h : LeftClosed p (o ::ₘ m)) (ho : ∀ cs, o ≠ .closeClients cs) (hcl : q.manager.clients = p.manager.clients)
    (hnx : q.next = p.next) (hc : ∀ c, (q.heap c).closed = (p.heap c).closed) : LeftClosed q (↑new + m) := by
  refine h.congr (fun c _ hout => hcl ▸ hout) hnx (fun c hd => by rw [hc, hd]) (fun c hd => ?_)
  rcases (closing_cons c o m).1 hd with ⟨cs, hcs, -⟩ | hd
  · exact absurd hcs (ho cs)
  · exact hd.add new

lemma addOpenUsage_closed (p : Pool) (c : ClientId) (delta : ℤ) (d : ClientId) :
    ((p.update c (·.addOpenUsage delta)).heap d).closed = (p.heap d).closed := by
  rw [Pool.update_heap]
  split
  next hdc =>
    rw [hdc]
    rfl
  · rfl

variable {x : Input}

lemma LeftClosed.get
    (h : XmuxOp.get.exec x p = some (q, new)) (hi : LeftClosed p (.get ::ₘ m)) : LeftClosed q (↑new + m) := by
  have hm : LeftClosed p m := hi.congr (fun _ _ h => h) rfl (fun _ h => h) (by simp)
  have hq := hm.evict x.now
  simp only [XmuxOp.exec] at h
  rcases p.get_cases x with hg | ⟨-, hg⟩ | ⟨c, -, -, hg⟩
  · rw [hg] at h
    cases h
    exact hq.congr (fun _ _ h => h) rfl (fun _ h => h) fun c hc => hc.add _
  · rw [hg] at h
    cases h
    rintro d ⟨hlt, hout, hn⟩
    simp only [Pool.newClientLocked, List.mem_append, List.mem_singleton, not_or] at hlt hout ⊢
    have hlt' : d < (p.evict x.now).next := lt_of_le_of_ne (Nat.le_of_lt_succ hlt) hout.2
    rw [Function.update_of_ne hout.2]
    exact hq d ⟨hlt', hout.1, fun hd => hn (hd.add _)⟩
  · rw [hg] at h
    cases h
    refine hq.congr (fun _ _ h => h) rfl (fun d hd => ?_) fun c hc => hc.add _
    rw [Pool.takeLeftUsage, Pool.update_heap]
    split
    next hdc =>
      subst hdc
      split <;> exact hd
    · exact hd

lemma leftClosed_exec (h : o.exec x p = some (q, new)) (hi : LeftClosed p (o ::ₘ m)) : LeftClosed q (↑new + m) := by
  cases o with
  | get => exact LeftClosed.get h hi
  | addOpenUsage c | release c =>
    cases h
    exact hi.frame (by simp) rfl rfl (addOpenUsage_closed p c _)
  | closeManager =>
    cases h
    rintro d ⟨hlt, -, hn⟩
    refine hi d ⟨hlt, fun hmem => hn ?_, fun hc => hn ?_⟩
    · exact ⟨p.manager.clients, by simp, hmem⟩
    · rcases (closing_cons d _ m).1 hc with ⟨cs, hcs, -⟩ | hc
      · cases hcs
      · exact hc.add _
  | closeClients cs =>
    cases cs with
    | nil =>
      cases h
      refine hi.congr (fun _ _ h => h) rfl (fun _ h => h) (fun c hc => ?_)
      simpa using hc
    | cons a cs =>
      cases h
      rintro d ⟨hlt, hout, hn⟩
      rw [Pool.close, Pool.update_heap]
      split
      · rfl
      next hda =>
        refine hi d ⟨hlt, hout, fun hc => hn ?_⟩
        simpa [hda] using hc
  | _ =>
    have hq := quietStep_of_exec h trivial
    exact hi.frame (by simp) hq.clients hq.next fun c => (core_eq (hq.core c)).2.2

/-! ### When a connection gets closed -/

lemma close_conn (k : XmuxClient) : k.close.conn.closed = true ↔ k.conn.closed = true ∨ k.openUsage ≤ 0 := by
  unfold XmuxClient.close
  by_cases h : k.openUsage ≤ 0 <;> simp [h, XmuxConn.close]

lemma addOpenUsage_conn (k : XmuxClient) (delta : ℤ) : (k.addOpenUsage delta).conn.closed = true ↔
      k.conn.closed = true ∨ (k.closed = true ∧ k.openUsage + delta ≤ 0) := by
  unfold XmuxClient.addOpenUsage
  by_cases h : k.closed = true ∧ k.openUsage + delta ≤ 0 <;> simp [h, XmuxConn.close]

lemma evict_conn (p : Pool) (now : ℤ) (c : ClientId) : ((p.evict now).heap c).conn.closed = true ↔
      (p.heap c).conn.closed = true ∨ (c ∈ p.evicted now ∧ (p.heap c).openUsage ≤ 0) := by
  rw [Pool.evict_heap]
  split
  · rename_i h; simp [close_conn, h]
  · rename_i h; simp [h]

lemma update_conn {f : XmuxClient → XmuxClient}
    (hf : ∀ k, (f k).conn = k.conn) (d : ClientId) : ((p.update c f).heap d).conn = (p.heap d).conn := by
  rw [Pool.update_heap]
  split
  next hd => rw [hf, hd]
  · rfl

/-- No connection of the pool is closed under a holder. -/
def Untorn (p : Pool) (m : Multiset XmuxOp) : Prop :=
  ∀ c, (p.heap c).conn.closed = true → handed c m = 0

lemma handed_cons (c : ClientId) (o : XmuxOp) (m : Multiset XmuxOp) :
    handed c (o ::ₘ m) = handed c m + if o = .addOpenUsage c ∨ o = .release c then 1 else 0 := by
  simp only [handed]
  by_cases h1 : o = .addOpenUsage c
  · subst h1
    simp
    omega
  · simp [h1]
    omega

lemma inGap_eq_zero (h : handed c m = 0) : inGap c m = 0 := by
  unfold handed at h
  omega

lemma untorn_get (h : XmuxOp.get.exec x p = some (q, new)) (hi : XmuxInv p (.get ::ₘ m)) (hu : Untorn p (.get ::ₘ m)) :
    Untorn q (↑new + m) ↔ ∀ c ∈ p.evicted x.now, (p.heap c).openUsage ≤ 0 → inGap c m = 0 := by
  have hm := hi.tail (by simp [XmuxOp.Neutral])
  have hq := hm.evict x.now
  have hsame : ∀ c, handed c m = 0 ↔ handed c (.get ::ₘ m) = 0 := by
    intro c
    rw [handed_cons]
    simp
  -- after the eviction
  have hev : Untorn (p.evict x.now) m ↔ ∀ c ∈ p.evicted x.now, (p.heap c).openUsage ≤ 0 → inGap c m = 0 := by
    constructor
    · intro ht c hc hle
      exact inGap_eq_zero (ht c ((evict_conn p x.now c).2 (.inr ⟨hc, hle⟩)))
    · intro hgap c hc
      rcases (evict_conn p x.now c).1 hc with hc | ⟨hc, hle⟩
      · exact (hsame c).2 (hu c hc)
      · have h1 := hgap c hc hle
        have h2 := hm.usage c
        unfold handed
        omega
  -- the client handed out is in the pool, so its connection is not closed
  have hpool : ∀ c ∈ (p.evict x.now).manager.clients, ((p.evict x.now).heap c).conn.closed ≠ true := by
    intro c hc hcl
    have := hq.conn c hcl
    rw [(hq.pooled c hc).2] at this
    exact absurd this (by simp)
  rw [← hev]
  simp only [XmuxOp.exec] at h
  rcases p.get_cases x with hg | ⟨-, hg⟩ | ⟨c, hc, -, hg⟩
  · rw [hg] at h
    cases h
    have hnew : ∀ c, handed c (↑(if x.ctxDone = true then [] else [XmuxOp.get]) + m) = handed c m := by
      intro c
      split
      · simp
      · simp [handed_cons]
    exact forall_congr' fun c => by rw [hnew]
  · rw [hg] at h
    cases h
    refine forall_congr' fun c => ?_
    have hfresh : ((p.evict x.now).newClientLocked x).heap c =
        if c = p.next then (p.evict x.now).freshClient x else (p.evict x.now).heap c := by
      simp [Pool.newClientLocked, Function.update_apply, Pool.evict_next]
    rw [hfresh]
    by_cases hcn : c = p.next
    · have hnot : ((p.evict x.now).heap c).conn.closed ≠ true := by
        intro hcl
        have := hq.closed_lt c (hq.conn c hcl)
        rw [Pool.evict_next, hcn] at this
        exact lt_irrefl _ this
      simp [hcn, Pool.freshClient, hcn ▸ hnot]
    · simp [hcn, handed_cons, Ne.symm hcn]
  · rw [hg] at h
    cases h
    refine forall_congr' fun d => ?_
    rw [Pool.takeLeftUsage, update_conn fun k => by split <;> rfl]
    by_cases hdc : d = c
    · subst hdc
      simp [hpool d hc]
    · simp [handed_cons, Ne.symm hdc]

lemma untorn_frame (hu : Untorn p (o ::ₘ m)) (hnew : ∀ a ∈ new, a.Neutral)
    (hconn : ∀ c, (q.heap c).conn = (p.heap c).conn) : Untorn q (↑new + m) := by
  intro c hc
  rw [hconn] at hc
  have h0 := hu c hc
  rw [handed_cons] at h0
  induction new with
  | nil => simp; omega
  | cons a new ih =>
    have ha := hnew a (by simp)
    rw [pending_cons_add, handed_cons, ih fun b hb => hnew b (by simp [hb])]
    simp [ha.1 c, ha.2.1 c]

lemma untorn_addOpenUsage (hi : XmuxInv p (.addOpenUsage c ::ₘ m))
    (hu : Untorn p (.addOpenUsage c ::ₘ m)) : Untorn (p.update c (·.addOpenUsage 1)) (.release c ::ₘ m) := by
  intro d hd
  rw [Pool.update_heap] at hd
  split at hd
  · -- the holder itself is in the gap, so its connection is open and its count not negative
    rcases (addOpenUsage_conn _ _).1 hd with hd | ⟨-, hd⟩
    · have := hu c hd
      rw [handed_cons] at this
      simp at this
    · have := hi.usage c
      omega
  next hdc =>
    have := hu d hd
    rw [handed_cons] at this
    simp [handed_cons, Ne.symm hdc]
    omega

/-- The end of a stream closes the connection under a dial in the gap, if there is one. -/
lemma untorn_release (hi : XmuxInv p (.release c ::ₘ m))
    (hu : Untorn p (.release c ::ₘ m)) : Untorn (p.update c (·.addOpenUsage (-1))) m ↔
      ((p.heap c).closed = true → (p.heap c).openUsage ≤ 1 → inGap c m = 0) := by
  have huse := hi.usage c
  simp only [counted_cons, if_true] at huse
  constructor
  · intro ht hcl hle
    have hc : ((p.update c (·.addOpenUsage (-1))).heap c).conn.closed = true := by
      rw [Pool.update_self, addOpenUsage_conn]
      exact .inr ⟨hcl, by omega⟩
    exact inGap_eq_zero (ht c hc)
  · intro hgap d hd
    rw [Pool.update_heap] at hd
    split at hd
    next hdc =>
      subst hdc
      rcases (addOpenUsage_conn _ _).1 hd with hd | ⟨hcl, hle⟩
      · have := hu d hd
        rw [handed_cons] at this
        simp at this
      · have h1 := hgap hcl (by omega)
        unfold handed
        omega
    · have := hu d hd
      rw [handed_cons] at this
      omega

lemma untorn_close (hi : XmuxInv p m) (hu : Untorn p m) :
    Untorn (p.close c) m ↔ ((p.heap c).openUsage ≤ 0 → inGap c m = 0) := by
  have huse := hi.usage c
  constructor
  · intro ht hle
    have hc : ((p.close c).heap c).conn.closed = true := by
      rw [Pool.close, Pool.update_self, close_conn]
      exact .inr hle
    exact inGap_eq_zero (ht c hc)
  · intro hgap d hd
    rw [Pool.close, Pool.update_heap] at hd
    split at hd
    next hdc =>
      subst hdc
      rcases (close_conn _).1 hd with hd | hle
      · exact hu d hd
      · unfold handed
        omega
    · exact hu d hd

/-- **A section keeps the connections of the holders exactly when it is `GapSafe`.** -/
theorem untorn_exec (h : o.exec x p = some (q, new)) (hi : XmuxInv p (o ::ₘ m)) (hu : Untorn p (o ::ₘ m)) :
    Untorn q (↑new + m) ↔ GapSafe p (o ::ₘ m) o x := by
  cases o with
  | get =>
    rw [untorn_get h hi hu]
    simp [GapSafe]
  | addOpenUsage c =>
    cases h
    exact iff_of_true (untorn_addOpenUsage hi hu) trivial
  | release c =>
    cases h
    rw [pending_nil_add, untorn_release hi hu]
    simp [GapSafe]
  | closeClients cs =>
    cases cs with
    | nil =>
      cases h
      refine iff_of_true (fun d hd => ?_) trivial
      simpa [handed_cons] using hu d hd
    | cons c cs =>
      cases h
      have hsame : ∀ d, handed d (↑[XmuxOp.closeClients cs] + m) = handed d (.closeClients (c :: cs) ::ₘ m) := by
        intro d
        simp [handed_cons]
      refine Iff.trans (forall_congr' fun d => ?_) (untorn_close hi hu)
      rw [hsame]
  | closeManager =>
    cases h
    refine iff_of_true (fun d hd => ?_) trivial
    simpa [handed_cons] using hu d hd
  | _ =>
    have hq := quietStep_of_exec h trivial
    exact iff_of_true (untorn_frame hu hq.neutral fun c => (core_eq (hq.core c)).2.1) trivial

lemma untorn_call (k : XmuxCall) (hu : Untorn p m) : Untorn p (↑k.code + m) := by
  intro c hc
  have h0 := hu c hc
  cases k <;> simpa [XmuxCall.code, handed_cons] using h0

lemma noTeardown_step {s t : XmuxState} {e : XmuxEvent} (h : xmuxProgram.step s e = some t)
    (hi : XmuxInv s.shared s.pending) (hs : NoTeardownUnderHolder s) : NoTeardownUnderHolder t ↔ TeardownSafe s e := by
  rcases Program.step_cases h with ⟨k, rfl, h1, h2⟩ | ⟨i, x, o, q, new, m, rfl, ho, hx, rfl, h1, h2⟩
  · refine iff_of_true ?_ trivial
    unfold NoTeardownUnderHolder
    rw [h1, h2]
    exact untorn_call k hs
  · have hs' : Untorn s.shared (o ::ₘ m) := h1 ▸ hs
    have key := untorn_exec hx (h1 ▸ hi) hs'
    unfold NoTeardownUnderHolder
    rw [h2]
    refine key.trans ?_
    simp [TeardownSafe, ho, h1]

def XmuxRunInv (s : XmuxState) : Prop :=
  XmuxInv s.shared s.pending ∧ LeftClosed s.shared s.pending

lemma xmuxRunInv_step (s : XmuxState) (e : XmuxEvent) (t : XmuxState)
    (h : xmuxProgram.step s e = some t) (hs : XmuxRunInv s) : XmuxRunInv t := by
  refine ⟨xmux_step_inv s e t h hs.1, ?_⟩
  refine Program.step_inv LeftClosed ?_ (fun _ _ _ _ _ _ => leftClosed_exec) s e t h hs.2
  intro k p m hp
  refine hp.congr (fun _ _ h => h) rfl (fun _ h => h) (fun c ⟨cs, hcs, hmem⟩ => ?_)
  exact ⟨cs, Multiset.mem_add.2 (.inr hcs), hmem⟩

lemma xmuxRunInv_init (config : XmuxConfig) (r1 r2 : ℕ) : XmuxRunInv (Config.init (newXmuxManager config r1 r2)) := by
  refine ⟨xmux_init_inv config r1 r2, ?_⟩
  rintro c ⟨hlt, -, -⟩
  exact absurd hlt (Nat.not_lt_zero c)

/-- **Teardown of pooled connections.**  In every interleaving no connection is closed under a holder exactly when no
step closes one while all the holders of its client are in the gap; and a retired client that has no holder is torn
down. -/
theorem xmux_teardown_iff (config : XmuxConfig) (r1 r2 : ℕ) (es : List XmuxEvent) :
    (VisitAll xmuxProgram.step NoTeardownUnderHolder (Config.init (newXmuxManager config r1 r2)) es ↔
      StepAll xmuxProgram.step TeardownSafe (Config.init (newXmuxManager config r1 r2)) es) ∧
    VisitAll xmuxProgram.step RetiredTornDown (Config.init (newXmuxManager config r1 r2)) es := by
  have hinit := xmuxRunInv_init config r1 r2
  refine ⟨?_, ?_⟩
  · refine visitAll_iff_stepAll xmuxRunInv_step (fun s e t h hs hP => ?_) es hinit ?_
    · exact noTeardown_step h hs.1 hP
    · intro c _
      rfl
  · refine (visitAll_of_inv xmuxRunInv_step es hinit).imp (fun s hs c hret hh => ?_)
    have hcl := hs.2 c hret
    have huse := hs.1.usage c
    unfold handed at hh
    exact hs.1.retired c hcl (by omega)

/-- The first dial is handed client 0, whose only reuse is then spent; before it counts itself, the
second dial evicts client 0 and closes its connection. -/
def evictInGap : List XmuxEvent :=
  [.call .dialContext, .sched 0 {}, .call .dialContext, .sched 1 {}]

/-- A pool that retires a connection after one stream. -/
def oneReuse : XmuxConfig := { maxConcurrency := ⟨4, 4⟩, cMaxReuseTimes := ⟨1, 1⟩ }

/-- A connection can be closed under a dial that `get` has handed it to. -/
theorem xmux_evicts_in_gap : ¬ VisitAll xmuxProgram.step NoTeardownUnderHolder
    (Config.init (newXmuxManager oneReuse 0 0)) evictInGap := by
  intro h
  have hrun : (runOf xmuxProgram.step (Config.init (newXmuxManager oneReuse 0 0)) evictInGap).map
      (fun t => ((t.shared.heap 0).conn.closed, handed 0 t.pending)) = some (true, 1) := by
    decide +kernel
  obtain ⟨t, ht, heq⟩ := Option.map_eq_some_iff.1 hrun
  rw [Prod.mk.injEq] at heq
  have := h.last ht 0 heq.1
  omega

end SingBox.Xhttp
