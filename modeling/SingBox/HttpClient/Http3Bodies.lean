import SingBox.HttpClient.Http3Responses

/-!
# The request bodies of a request with an HTTP/3 fallback

Each goroutine of a call has a reader of its own, and the attempt it waits for was given what that reader still yields
(`Bod`).  So an attempt is given the complete body, unless it repeats an attempt that has read from it: when the request
has no `GetBody`, `cloneRequestForRetry` leaves the reader as the failed attempt left it.
-/

namespace SingBox.HttpClient.Http3Fallback

open Lib List Multiset Option

/-! ### What is wanted, and when -/

/-- **Every attempt is given the complete body.** -/
def Whole (w : World) (q : Request) (c : Config State Op) : Prop := ∀ g ∈ c.shared.ledger.given, g = original w q

/-- An attempt after which the request is sent again has read nothing of the body, unless the request can be replayed or
its body is empty. -/
def Unspoiled (w : World) (q : Request) (c : Config State Op) : Event Input Call → Prop
  | .sched i x =>
    match c.next i with
    | some (.wait _ _ k) => k.retries x.outcome = true → requestReplayable q = true ∨ x.consumed = 0 ∨ original w q = []
    | _ => True
  | .call _ => True

/-! ### Readers -/

def Body.index : Body → Option ℕ
  | .reader i => some i
  | .nil | .noBody => none

/-- A clone of the request: with its `GetBody`, and with a reader if it has one. -/
structure Request.Like (q q₀ : Request) : Prop where
  getBody : q.getBody = q₀.getBody
  reader : q.body.index.isSome = q₀.body.index.isSome

def Op.reader (o : Op) : Option ℕ := o.request.bind fun q => q.body.index

@[simp] lemma readers_cons (o : Op) (m : Multiset Op) : (o ::ₘ m).filterMap Op.reader =
    o.reader.elim (m.filterMap Op.reader) (· ::ₘ m.filterMap Op.reader) := by
  cases h : o.reader with
  | none => exact filterMap_cons_none _ _ h
  | some a => exact filterMap_cons_some _ _ _ h

/-- No goroutine has the reader of the request. -/
structure Free (q₀ : Request) (st : Store) (m : Multiset Op) (q : Request) : Prop where
  like : q.Like q₀
  free : ∀ i, q.body.index = some i → i < st.made ∧ i ∉ m.filterMap Op.reader

structure Bod (w : World) (q₀ : Request) (st : Store) (given : List (List Byte)) (m : Multiset Op) : Prop where
  like : ∀ o ∈ m, ∀ q, o.request = some q → q.Like q₀
  nodup : (m.filterMap Op.reader).Nodup
  made : ∀ i ∈ m.filterMap Op.reader, i < st.made
  /-- A goroutine that has made no attempt has a complete body. -/
  starts : ∀ o ∈ m, ∀ q, o.request = some q → o.awaits = none → st.yields q.body = original w q₀
  waits : ∀ i q k, .wait i q k ∈ m → given[i]? = some (st.yields q.body)
  races : ∀ q st, .select q st ∈ m → q.Like q₀ ∧ requestReplayable q₀ = true

variable {w : World} {q₀ : Request} {st : Store} {given : List (List Byte)} {m : Multiset Op} {q : Request}

lemma Request.Like.replayable (h : q.Like q₀) : requestReplayable q = requestReplayable q₀ := by
  have hr := h.reader
  have hg := h.getBody
  unfold requestReplayable
  cases hq : q.body <;> cases hq₀ : q₀.body <;> simp [hq, hq₀, Body.index] at hr ⊢
  exact hg

lemma Bod.remove {o : Op} (h : Bod w q₀ st given (o ::ₘ m)) :
    Bod w q₀ st given m ∧ ∀ q, o.request = some q → Free q₀ st m q := by
  have hsub : m.filterMap Op.reader ≤ (o ::ₘ m).filterMap Op.reader :=
    filterMap_le_filterMap _ (le_cons_self _ _)
  refine ⟨⟨fun o ho => h.like o (mem_cons_of_mem ho), nodup_of_le hsub h.nodup,
    fun i hi => h.made i (mem_of_le hsub hi), fun o ho => h.starts o (mem_cons_of_mem ho),
    fun i q k hm => h.waits i q k (mem_cons_of_mem hm),
    fun q st hm => h.races q st (mem_cons_of_mem hm)⟩, fun q hq => ?_⟩
  refine ⟨h.like o (mem_cons_self _ _) q hq, fun i hi => ?_⟩
  have hr : o.reader = some i := by simp [Op.reader, hq, hi]
  have hmade := h.made i
  have hnodup := h.nodup
  simp only [readers_cons, hr, elim_some, Multiset.mem_cons, Multiset.nodup_cons] at hmade hnodup
  exact ⟨hmade (.inl trivial), hnodup.1⟩

lemma Bod.add {o : Op} (h : Bod w q₀ st given m) (hfree : ∀ q, o.request = some q → Free q₀ st m q)
    (hstart : ∀ q, o.request = some q → o.awaits = none → st.yields q.body = original w q₀)
    (hwait : ∀ i q k, o = .wait i q k → given[i]? = some (st.yields q.body))
    (hrace : ∀ q r, o = .select q r → q.Like q₀ ∧ requestReplayable q₀ = true) : Bod w q₀ st given (o ::ₘ m) := by
  have hnew : ∀ i, o.reader = some i → i < st.made ∧ i ∉ m.filterMap Op.reader := by
    intro i hi
    obtain ⟨q, hq, hi⟩ := bind_eq_some_iff.1 hi
    exact (hfree q hq).free i hi
  refine ⟨fun o' ho' q hq => ?_, ?_, ?_, fun o' ho' q hq ha => ?_, fun i q k hm => ?_, fun q r hm => ?_⟩
  · rcases mem_cons.1 ho' with rfl | ho'
    · exact (hfree q hq).like
    · exact h.like o' ho' q hq
  · cases hr : o.reader with
    | none => simpa [hr] using h.nodup
    | some i =>
      rw [readers_cons, hr, elim_some, Multiset.nodup_cons]
      exact ⟨(hnew i hr).2, h.nodup⟩
  · cases hr : o.reader with
    | none => simpa [hr] using h.made
    | some i =>
      rw [readers_cons, hr]
      intro j hj
      rcases mem_cons.1 hj with rfl | hj
      · exact (hnew j hr).1
      · exact h.made j hj
  · rcases mem_cons.1 ho' with rfl | ho'
    · exact hstart q hq ha
    · exact h.starts o' ho' q hq ha
  · rcases mem_cons.1 hm with hm | hm
    · exact hwait i q k hm.symm
    · exact h.waits i q k hm
  · rcases mem_cons.1 hm with hm | hm
    · exact hrace q r hm.symm
    · exact h.races q r hm

/-- The goroutines do not mind a change of a reader that none of them has, nor another attempt. -/
lemma Bod.congr {st' : Store} {given' : List (List Byte)} (h : Bod w q₀ st given m) (hmade : st.made ≤ st'.made)
    (hbodies : ∀ i ∈ m.filterMap Op.reader, st'.bodies i = st.bodies i)
    (hgiven : ∀ (i : ℕ) g, given[i]? = some g → given'[i]? = some g) : Bod w q₀ st' given' m := by
  have hyields : ∀ o ∈ m, ∀ q, o.request = some q → st'.yields q.body = st.yields q.body := by
    intro o ho q hq
    cases hb : q.body with
    | reader i =>
      have hr : o.reader = some i := by simp [Op.reader, hq, hb, Body.index]
      exact hbodies i ((mem_filterMap _ _).2 ⟨o, ho, hr⟩)
    | nil | noBody => rfl
  refine ⟨h.like, h.nodup, fun i hi => lt_of_lt_of_le (h.made i hi) hmade, fun o ho q hq ha => ?_,
    fun i q k hm => ?_, h.races⟩
  · rw [hyields o ho q hq]
    exact h.starts o ho q hq ha
  · rw [hyields _ hm q rfl]
    exact hgiven i _ (h.waits i q k hm)

variable {s : State}

lemma Bod.call (h : Bod w q₀ s.store s.ledger.given m) (hf : Free q₀ s.store m q) (k : After) :
    Bod w q₀ (call q k s).1.store (call q k s).1.ledger.given (.wait s.ledger.given.length q k ::ₘ m) := by
  have h' : Bod w q₀ s.store (s.ledger.given ++ [s.store.yields q.body]) m :=
    h.congr le_rfl (fun _ _ => rfl) fun i g hi => by
      rw [List.getElem?_append_left (List.getElem?_eq_some_iff.1 hi).1]
      exact hi
  refine h'.add ?_ nofun ?_ nofun
  · rintro q' ⟨⟩
    exact hf
  · rintro i q' k' ⟨⟩
    exact getElem?_concat_length

lemma Bod.consume (h : Bod w q₀ st given m) (hf : Free q₀ st m q) (n : ℕ) :
    Bod w q₀ (st.consume q.body n) given m ∧ Free q₀ (st.consume q.body n) m q := by
  cases hb : q.body with
  | nil | noBody => exact ⟨h, hf⟩
  | reader j =>
    have hj := hf.free j (by simp [hb, Body.index])
    refine ⟨h.congr le_rfl (fun i hi => ?_) fun _ _ h => h, hf.like, hf.free⟩
    have hne : i ≠ j := fun heq => hj.2 (heq ▸ hi)
    exact Function.update_of_ne hne ..

lemma Bod.clone (h : Bod w q₀ s.store given m) (hq : q.Like q₀)
    (hf : requestReplayable q₀ = false → Free q₀ s.store m q) : Bod w q₀ (cloneRequestForRetry w q s).1.store given m ∧
      Free q₀ (cloneRequestForRetry w q s).1.store m (cloneRequestForRetry w q s).2 := by
  unfold cloneRequestForRetry
  split
  next hbody =>
    have hreader : q.body.index.isSome = true := by
      cases hb : q.body <;> simp [hb, Body.index] at hbody ⊢
    refine ⟨h.congr (Nat.le_succ _) (fun i hi => ?_) fun _ _ h => h, ⟨hq.getBody, ?_⟩, ?_⟩
    · exact Function.update_of_ne (Nat.ne_of_lt (h.made i hi)) ..
    · exact hreader.symm.trans hq.reader
    · rintro i ⟨⟩
      exact ⟨Nat.lt_succ_self _, fun hi => absurd (h.made _ hi) (lt_irrefl _)⟩
  next hbody =>
    refine ⟨h, ?_⟩
    cases hb : q.body with
    | reader i =>
      refine hf ?_
      rw [← hq.replayable]
      simpa [requestReplayable, hb] using hbody
    | nil | noBody => exact ⟨hq, by simp [hb, Body.index]⟩

lemma clone_yields (s : State) (hq : q.Like q₀) :
    (cloneRequestForRetry w q s).1.store.yields (cloneRequestForRetry w q s).2.body =
      if requestReplayable q₀ then original w q₀ else s.store.yields q.body := by
  have hr := hq.reader
  unfold cloneRequestForRetry
  rw [← hq.replayable]
  cases hb : q.body <;> cases hb₀ : q₀.body <;> simp [hb, hb₀, Body.index] at hr
  all_goals
    cases hg : q.getBody <;> simp [requestReplayable, original, Store.yields, hb, hb₀, hg]

/-! ### The code keeps the readers apart -/

def Next.Bod (w : World) (q₀ : Request) (n : Next) (m : Multiset Op) : Prop :=
  Http3Fallback.Bod w q₀ n.1.store n.1.ledger.given (↑(n.2.1 ++ n.2.2) + m)

attribute [local simp] Next.Bod

lemma bod_call (h : Bod w q₀ s.store s.ledger.given m) (hf : Free q₀ s.store m q)
    (k : After) : (call q k s).Bod w q₀ m := by
  exact h.call hf k

lemma bod_deliver (h : Bod w q₀ s.store s.ledger.given m) (ret : Ret) (res : Except Err ℕ) :
    (deliver ret res s).Bod w q₀ m := by
  cases ret <;> simpa [deliver] using h

/-- A goroutine of the race is started with a clone of the request. -/
lemma bod_start (h : Bod w q₀ s.store s.ledger.given m) (hq : q.Like q₀)
    (hrep : requestReplayable q₀ = true) (st : Race) (mk : Request → Op) (hmk : ∀ q, (mk q).request = some q)
    (hawaits : ∀ q, (mk q).awaits = none) (hselect : ∀ q p r, mk q ≠ .select p r) :
    Bod w q₀ (cloneRequestForRetry w q s).1.store (cloneRequestForRetry w q s).1.ledger.given
      (.select q st ::ₘ mk (cloneRequestForRetry w q s).2 ::ₘ m) := by
  obtain ⟨hb, hf⟩ := Bod.clone h hq fun hno => absurd hno (by simp [hrep])
  rw [clone_ledger]
  refine (hb.add (fun q' hq' => ?_) (fun q' hq' _ => ?_) (fun i q' k hk => ?_) fun p r hr => ?_).add
    nofun nofun nofun ?_
  · rw [hmk] at hq'
    exact some.inj hq' ▸ hf
  · rw [hmk] at hq'
    rw [← some.inj hq', clone_yields s hq, if_pos hrep]
  · have := hawaits (cloneRequestForRetry w q s).2
    rw [hk] at this
    cases this
  · exact absurd hr (hselect _ p r)
  · rintro p r ⟨⟩
    exact ⟨hq, hrep⟩

variable {x : Input} {k : After} {i : ℕ}

lemma bod_ended {n : Next} (h : Bod w q₀ s.store s.ledger.given (.wait i q k ::ₘ m))
    (he : Ended w q (finished i q k x s) i k x.outcome n) : n.Bod w q₀ m := by
  obtain ⟨hm, hfree⟩ := h.remove
  obtain ⟨hb, hf⟩ := hm.consume (hfree q rfl) (consumed k x)
  generalize x.outcome = out at he
  cases he with
  | response p | error p => exact bod_deliver hb _ _
  | retry p =>
    obtain ⟨hb, hf⟩ := Bod.clone (s := { finished .. with maps := p }) hb hf.like fun _ => hf
    exact bod_call (by simpa [finished] using hb) hf _
  | alone => exact bod_call hb hf _
  | race hq =>
    have := bod_start (s := finished i q .cached x s) hb hf.like (hf.like.replayable ▸ hq) {} .startH3 (fun _ => rfl)
      (fun _ => rfl) (by simp)
    simpa [startH3] using this

lemma bod_raced {st : Race} {n : Next} (h : Bod w q₀ s.store s.ledger.given (.select q st ::ₘ m))
    (hr : Raced w q s st n) : n.Bod w q₀ m := by
  obtain ⟨hq, hrep⟩ := h.races q st (mem_cons_self _ _)
  have hm := h.remove.1
  cases hr with
  | @go _ l' st' p hd =>
    have hs : Bod w q₀ s.store s.ledger.given (.select q st' ::ₘ m) := by
      refine hm.add (by simp [Op.request]) (by simp [Op.request]) (by simp) ?_
      rintro _ _ ⟨⟩
      exact ⟨hq, hrep⟩
    simpa [hd.spec.1] using hs
  | @start _ l' st' p hd =>
    have hs := bod_start (s := ⟨p, s.store, l'⟩) (hd.spec.1 ▸ hm) hq hrep st' .startFallback (fun _ => rfl)
      (fun _ => rfl) (by simp)
    simpa [startFallback] using hs
  | @lost l' _ p hd => exact bod_deliver (hd.spec.1 ▸ hm) _ _
  | won p hl =>
    have hlosers : ∀ n, Bod w q₀ s.store s.ledger.given (↑(List.replicate n Op.loser) + m) := by
      intro n
      induction n with
      | zero => simpa using hm
      | succ n ih =>
        have := ih.add (o := .loser) (by simp [Op.request]) (by simp [Op.request]) (by simp) (by simp)
        simpa [List.replicate_succ] using this
    exact hlosers _

variable {n : Next} {o : Op}

lemma bod_exec (hx : Moved w x s o n) (h : Bod w q₀ s.store s.ledger.given (o ::ₘ m)) : n.Bod w q₀ m := by
  cases hx with
  | begin p hq => exact bod_call h.remove.1 (h.remove.2 _ hq) _
  | ended he => exact bod_ended h he
  | raced hr => exact bod_raced h hr
  | lose hl => simpa [Ledger.tail] using h.remove.1

/-! ### What attempts are given -/

lemma consume_yields (st : Store) (b : Body) (n : ℕ) : (st.consume b n).yields b = (st.yields b).drop n := by
  cases b <;> simp [Store.consume, Store.yields]

lemma deliver_given (ret : Ret) (res : Except Err ℕ) (s : State) :
    (deliver ret res s).1.ledger.given = s.ledger.given := by
  cases ret <;> rfl

/-- **What a section gives to an attempt**: a complete body or what an attempt was given before it, unless it sends
again a request that cannot be replayed. -/
theorem exec_given (hx : Moved w x s o n) (h : Bod w q₀ s.store s.ledger.given (o ::ₘ m))
    (hr : ∀ i q k, o = .wait i q k → k.retries x.outcome = true → requestReplayable q₀ = true) :
    ∀ g ∈ n.1.ledger.given, g ∈ s.ledger.given ∨ g = original w q₀ := by
  intro g hg
  have hsame (heq : n.1.ledger.given = s.ledger.given) : g ∈ s.ledger.given ∨ g = original w q₀ := .inl (heq ▸ hg)
  have hmore (a : List Byte) (heq : n.1.ledger.given = s.ledger.given ++ [a])
      (ha : a ∈ s.ledger.given ∨ a = original w q₀) : g ∈ s.ledger.given ∨ g = original w q₀ := by
    rw [heq, mem_append, List.mem_singleton] at hg
    rcases hg with hg | rfl
    · exact .inl hg
    · exact ha
  cases hx with
  | begin p hq ho => exact hmore _ rfl (.inr (h.starts o (mem_cons_self _ _) _ hq ho.awaits))
  | @ended i q k _ he =>
    generalize hout : x.outcome = out at he
    cases he with
    | response | error => exact hsame (deliver_given ..)
    | race => exact hsame (by simp [startH3, finished])
    | alone =>
      refine hmore (s.store.yields q.body) ?_ (.inl (mem_of_getElem? (h.waits i q _ (mem_cons_self _ _))))
      simp [call, finished, consumed, hout, consume_yields]
    | retry p _ _ hk =>
      refine hmore (original w q₀) ?_ (.inr rfl)
      simp [call, clone_yields _ (h.remove.2 q rfl).like, hr i q k rfl (hout ▸ hk), finished]
  | raced hraced =>
    refine hsame ?_
    cases hraced with
    | go p hd | lost p hd => exact hd.spec.1
    | start p hd => simp [startFallback, hd.spec.1]
    | won => rfl
  | lose => exact hsame (by simp [Ledger.tail])

/-- A request that cannot be replayed is sent again with what is left of its body. -/
lemma exec_retry (hx : Moved w x s (.wait i q k) n) (h : Bod w q₀ s.store s.ledger.given (.wait i q k ::ₘ m))
    (hk : k.retries x.outcome = true) (hrep : requestReplayable q₀ = false) :
    ∃ g ∈ s.ledger.given, n.1.ledger.given = s.ledger.given ++ [g.drop x.consumed] := by
  refine ⟨_, mem_of_getElem? (h.waits i q k (mem_cons_self _ _)), ?_⟩
  cases hx with
  | begin _ _ ho => cases ho.awaits
  | ended he =>
    generalize hout : x.outcome = out at he hk
    cases he with
    | error _ _ hr => cases hr.symm.trans hk
    | alone | race | response => simp [After.retries] at hk
    | retry =>
      have hconsumed : consumed k x = x.consumed := by
        refine if_neg ?_
        rintro ⟨rfl, he⟩
        cases hout.symm.trans he
        simp [After.retries] at hk
      simp [call, clone_yields _ (h.remove.2 q rfl).like, hrep, finished, consume_yields, hconsumed]

lemma bod_initial (w : World) (q : Request) (p : Maps) :
    Bod w q (start w q p).shared.store (start w q p).shared.ledger.given (start w q p).pending := by
  have h0 : Bod w q (start w q p).shared.store [] 0 := ⟨nofun, nodup_zero, nofun, nofun, nofun, nofun⟩
  have h1 : Bod w q (start w q p).shared.store [] (.roundTrip q ::ₘ 0) := by
    refine h0.add ?_ ?_ nofun nofun
    · rintro _ ⟨⟩
      refine ⟨⟨rfl, rfl⟩, fun i hi => ⟨?_, notMem_zero _⟩⟩
      cases hb : q.body <;> simp [hb, Body.index] at hi
      simp [start, hb, hi]
    · rintro _ ⟨⟩ -
      cases hb : q.body <;> simp [start, original, Store.yields, hb]
  exact h1

lemma bod_step (w : World) (q : Request) (c : Config State Op) (ev : Event Input Call) (c' : Config State Op)
    (h : (program w).step c ev = some c')
    (hc : Acc c.shared.ledger c.pending ∧ Bod w q c.shared.store c.shared.ledger.given c.pending) :
    Acc c'.shared.ledger c'.pending ∧ Bod w q c'.shared.store c'.shared.ledger.given c'.pending := by
  refine ⟨acc_step w c ev c' h hc.1, ?_⟩
  rcases Forking.step_cases h with ⟨⟨p⟩, -, h1, h2⟩ | ⟨i, x, o, s', new, started, m, -, -, hx, rfl, h1, h2⟩
  · rw [h1, h2]
    exact hc.2
  · rw [h1] at hc
    rw [h2]
    exact bod_exec (hc.1.moved hx) hc.2

/-- One step gives an attempt a body that is not complete just when it is not unspoiled. -/
lemma whole_step_iff (w : World) (q : Request) (c : Config State Op) (ev : Event Input Call) (c' : Config State Op)
    (h : (program w).step c ev = some c')
    (hc : Acc c.shared.ledger c.pending ∧ Bod w q c.shared.store c.shared.ledger.given c.pending) (hw : Whole w q c) :
    Whole w q c' ↔ Unspoiled w q c ev := by
  rcases Forking.step_cases h with ⟨⟨p⟩, rfl, h1, h2⟩ | ⟨i, x, o, s', new, started, m, rfl, hi, hx, rfl, h1, h2⟩
  · refine ⟨fun _ => trivial, fun _ g hg => hw g ?_⟩
    rw [h1] at hg
    exact hg
  · rw [h1] at hc
    have hmoved := hc.1.moved hx
    by_cases hspoils : (∃ j q' k, o = .wait j q' k ∧ k.retries x.outcome = true) ∧ requestReplayable q = false
    · obtain ⟨⟨j, q', k, rfl, hk⟩, hrep⟩ := hspoils
      obtain ⟨g, hg, heq⟩ := exec_retry hmoved hc.2 hk hrep
      rw [hw g hg] at heq
      have hun : Unspoiled w q c (.sched i x) ↔ x.consumed = 0 ∨ original w q = [] := by
        simp [Unspoiled, hi, hk, hrep]
      rw [hun]
      constructor
      · intro hw'
        have hdrop := hw' ((original w q).drop x.consumed) (by rw [heq]; simp)
        have hlen := congrArg length hdrop
        rw [length_drop] at hlen
        by_contra hno
        push Not at hno
        have := length_pos_of_ne_nil hno.2
        omega
      · intro hor g' hg'
        rw [heq, mem_append, List.mem_singleton] at hg'
        rcases hg' with hg' | rfl
        · exact hw g' hg'
        · rcases hor with h0 | hnil
          · rw [h0, drop_zero]
          · rw [hnil, drop_nil]
    · have hr : ∀ j q' k, o = .wait j q' k → k.retries x.outcome = true → requestReplayable q = true := by
        intro j q' k ho hk
        by_contra hrep
        exact hspoils ⟨⟨j, q', k, ho, hk⟩, by simpa using hrep⟩
      refine ⟨fun _ => ?_, fun _ g hg => ?_⟩
      · cases o with
        | wait j q' k =>
          simp only [Unspoiled, hi]
          exact fun hk => .inl (hr j q' k rfl hk)
        | _ => simp [Unspoiled, hi]
      · rcases exec_given hmoved hc.2 hr g hg with hg | hg
        · exact hw g hg
        · exact hg

/-- **The fallback never sends a damaged request, except one that cannot be replayed.**  In every run at most one
result is returned, every other response is closed, and an error is returned only if all attempts have failed.  All are
given the complete body exactly when none after which a request that cannot be replayed is sent again has read from
it. -/
theorem attempts_whole_iff (w : World) (q : Request) (p : Maps) (evs : List (Event Input Call)) :
    VisitAll (program w).step Tidy (start w q p) evs ∧ (VisitAll (program w).step (Whole w q) (start w q p) evs ↔
        StepAll (program w).step (Unspoiled w q) (start w q p) evs) := by
  refine ⟨?_, ?_⟩
  · exact (visitAll_of_inv (acc_step w) evs (acc_start w q p)).imp fun _ h => h.tidy
  · exact visitAll_iff_stepAll (bod_step w q) (whole_step_iff w q) evs ⟨acc_start w q p, bod_initial w q p⟩ nofun

def twoBytes : World := { isFallback := true, content := [1, 2] }

/-- It has no `GetBody`. -/
def once : Request := ⟨true, fun _ => [], ascii "a:443", .reader 0, false⟩

/-- The first attempt, on a cached connection, fails after one of the two bytes has been read: the fallback is given the
other byte only. -/
theorem retry_sends_rest : ∃ c, runOf (program twoBytes).step (start twoBytes once {})
      [.sched 0 {}, .sched 0 { outcome := .error (.other 0), consumed := 1 }] = some c ∧
    c.shared.ledger.given = [[1, 2], [2]] ∧ ¬ Whole twoBytes once c :=
  ⟨_, rfl, by decide +kernel, fun h => absurd (h [2] (by decide +kernel)) (by decide)⟩

end SingBox.HttpClient.Http3Fallback
