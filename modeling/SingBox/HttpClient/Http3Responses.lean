import Mathlib.Algebra.BigOperators.Group.Multiset.Basic
import SingBox.HttpClient.Http3Fallback

/-!
# The responses of a request with an HTTP/3 fallback

Every response an attempt obtains is at one place: on the channel of the race, returned, or closed.  As many results
are expected by the loop of the race and by the goroutines of `finish` as are on the channel or will be sent to it,
and one goroutine is on its way to return or has returned.
-/

namespace SingBox.HttpClient.Http3Fallback

open Lib List Multiset Function Option

/-! ### Who does what -/

inductive Owner where
  /-- the goroutine of `RoundTrip` -/
  | main
  | race
  | loser
  deriving DecidableEq

def Ret.owner : Ret → Owner
  | .caller => .main
  | .race _ => .race

def After.owner : After → Owner
  | .cached | .alone => .main
  | .h2 ret | .pass ret => ret.owner

def Op.owner : Op → Owner
  | .roundTrip _ | .select .. => .main
  | .startH3 _ | .startFallback _ => .race
  | .wait _ _ k => k.owner
  | .loser => .loser

def Op.awaits : Op → Option ℕ
  | .wait i .. => some i
  | _ => none

/-- How many results of the race a goroutine will receive. -/
def Op.expects : Op → ℕ
  | .select _ st => st.cancels - st.received
  | .loser => 1
  | _ => 0

/-- The request of a section, but for the loop of the race. -/
def Op.request : Op → Option Request
  | .roundTrip q | .startH3 q | .startFallback q | .wait _ q _ => some q
  | .select .. | .loser => none

/-- The request is sent again after such an attempt, on a clone of it. -/
def After.retries (k : After) (out : Outcome) : Bool :=
  match k, out with
  | .cached, .error e => e ≠ .noCachedConn
  | .h2 _, .error e => e = .http2Fallback
  | _, _ => false

/-- A section that has started no attempt that goes on, and expects no result. -/
structure Op.Free (o : Op) (owner : Owner) : Prop where
  awaits : o.awaits = none
  expects : o.expects = 0
  owner : o.owner = owner

@[simp] lemma awaits_wait (i : ℕ) (q : Request) (k : After) : (Op.wait i q k).awaits = some i := rfl
@[simp] lemma expects_wait (i : ℕ) (q : Request) (k : After) : (Op.wait i q k).expects = 0 := rfl
@[simp] lemma owner_loser : Op.loser.owner = .loser := rfl
@[simp] lemma expects_loser : Op.loser.expects = 1 := rfl

/-! ### What a section does -/

/-- At most an error is taken from the channel of the race. -/
inductive Ledger.Drops (l : Ledger) : ℕ → Ledger → Prop
  | none : l.Drops 0 l
  | one {h3 : Bool} {e : Err} {rest : List (Bool × Except Err ℕ)} (hl : l.results = (h3, .error e) :: rest) :
    l.Drops 1 l.tail

section

variable (w : World) (x : Input) (q : Request) (s : State)

inductive Ended (i : ℕ) : After → Outcome → Next → Prop
  | response {k : After} {ret : Ret} (p : Maps) (hk : k.owner = ret.owner) :
    Ended i k .response (deliver ret (.ok i) { s with maps := p })
  | error {k : After} {ret : Ret} {e : Err} (p : Maps) (hk : k.owner = ret.owner)
      (hr : k.retries (.error e) = false) : Ended i k (.error e) (deliver ret (.error e) { s with maps := p })
  | retry {k k' : After} {ret : Ret} {e : Err} (p : Maps) (hk : k.owner = ret.owner) (hk' : k'.owner = ret.owner)
      (hr : k.retries (.error e) = true) : Ended i k (.error e)
      (call (cloneRequestForRetry w q { s with maps := p }).2 k' (cloneRequestForRetry w q { s with maps := p }).1)
  | alone : Ended i .cached (.error .noCachedConn) (call q .alone s)
  | race (hq : requestReplayable q = true) :
    Ended i .cached (.error .noCachedConn) ((startH3 w q s).1, [.select q {}], [(startH3 w q s).2])

inductive Raced (st : Race) : Next → Prop
  | go {n : ℕ} {l' : Ledger} {st' : Race} (p : Maps) (hd : s.ledger.Drops n l') (hr : st'.received = st.received + n)
      (hc : st'.cancels = st.cancels) (hlt : st'.received < st'.cancels) :
    Raced st (⟨p, s.store, l'⟩, [.select q st'], [])
  | start {n : ℕ} {l' : Ledger} {st' : Race} (p : Maps) (hd : s.ledger.Drops n l')
      (hr : st'.received = st.received + n) (hc : st'.cancels = st.cancels + 1) (hlt : st'.received < st'.cancels) :
    Raced st ((startFallback w q ⟨p, s.store, l'⟩).1, [.select q st'], [(startFallback w q ⟨p, s.store, l'⟩).2])
  | lost {l' : Ledger} {e : Err} (p : Maps) (hd : s.ledger.Drops 1 l') (hc : st.cancels = st.received + 1) :
    Raced st (deliver .caller (.error e) ⟨p, s.store, l'⟩)
  | won {h3 : Bool} {i : ℕ} {rest : List (Bool × Except Err ℕ)} (p : Maps)
      (hl : s.ledger.results = (h3, .ok i) :: rest) :
    Raced st ((deliver .caller (.ok i) ⟨p, s.store, s.ledger.tail⟩).1, [],
      replicate (st.cancels - (st.received + 1)) .loser)

/-- **What a section does.** -/
inductive Moved : Op → Next → Prop
  | begin {o : Op} {q : Request} {k : After} (p : Maps) (hq : o.request = some q) (ho : o.Free k.owner) :
    Moved o (call q k { s with maps := p })
  | ended {i : ℕ} {q : Request} {k : After} {n : Next} (h : Ended w q (finished i q k x s) i k x.outcome n) :
    Moved (.wait i q k) n
  | raced {q : Request} {st : Race} {n : Next} (h : Raced w q s st n) : Moved (.select q st) n
  | lose {h3 : Bool} {res : Except Err ℕ} {rest : List (Bool × Except Err ℕ)}
      (hl : s.ledger.results = (h3, res) :: rest) :
    Moved .loser ({ s with ledger := s.ledger.tail.closeResponse res }, [], [])

end

section Moves

variable {w : World} {x : Input} {q : Request} {k : After} {i : ℕ} {s : State} {st : Race} {n : Next}

lemma h2Fallback_eq_call (w : World) (q : Request) (ret : Ret) (s : State) :
    ∃ k : After, k.owner = ret.owner ∧ h2FallbackRoundTrip w q ret s = call q k s := by
  unfold h2FallbackRoundTrip http2FallbackRoundTrip
  split
  · split
    · exact ⟨_, rfl, rfl⟩
    · split <;> exact ⟨_, rfl, rfl⟩
  · exact ⟨_, rfl, rfl⟩

lemma after_ended : Ended w q s i k x.outcome (after w i q k x s) := by
  rcases hx : x.outcome with _ | e
  · cases k <;> simp only [after, afterCached, afterAlone, afterH2, afterPass, hx] <;> exact .response _ rfl
  · cases k with
    | cached =>
      simp only [after, afterCached, hx]
      split
      next he =>
        obtain ⟨k', hk, heq⟩ := h2Fallback_eq_call w (cloneRequestForRetry w q { s with maps := _ }).2 .caller _
        rw [heq]
        exact .retry _ rfl hk (by simpa [After.retries] using he)
      next he =>
        obtain rfl := not_not.1 he
        split
        · exact .alone
        next hq => exact .race (by simpa using hq)
    | alone =>
      simp only [after, afterAlone, hx]
      exact .error _ rfl rfl
    | h2 ret =>
      simp only [after, afterH2, hx]
      split
      next he => exact .error s.maps rfl (by simpa [After.retries] using he)
      next he => exact .retry _ rfl rfl (by simpa [After.retries] using he)
    | pass ret =>
      simp only [after, afterPass, hx]
      exact .error s.maps rfl rfl

lemma continueRace_raced {l' : Ledger} {st' : Race} (p : Maps) (hd : s.ledger.Drops 1 l')
    (hr : st'.received = st.received + 1) (hc : st'.cancels = st.cancels) (hst : st.received < st.cancels) :
    Raced w q s st (continueRace q st' [] ⟨p, s.store, l'⟩) := by
  unfold continueRace
  split
  next hlt => exact .go p hd hr hc hlt
  · exact .lost p hd (by omega)

lemma select_raced (hx : select w q st x s = some n) (hst : st.received < st.cancels) : Raced w q s st n := by
  unfold select at hx
  split at hx
  · split at hx <;> cases hx
    unfold raceTimer
    split
    next hc => exact .start s.maps .none rfl (by simp [hc]) (by dsimp only; omega)
    · exact .go s.maps .none rfl rfl hst
  · split at hx
    · cases hx
    next h3 res rest hl =>
      cases hx
      unfold raceResult
      cases res with
      | ok i => cases h3 <;> exact .won _ hl
      | error e =>
        cases h3 with
        | false => exact continueRace_raced s.maps (.one hl) rfl rfl hst
        | true =>
          simp only [if_true]
          split
          next hc =>
            rw [continueRace, if_pos (by dsimp only; omega)]
            exact .start _ (.one hl) rfl (by simp [hc]) (by dsimp only; omega)
          · exact continueRace_raced _ (.one hl) rfl rfl hst

lemma exec_moved {o : Op} (hx : exec w o x s = some n) (hrace : ∀ q st, o = .select q st → st.received < st.cancels) :
    Moved w x s o n := by
  unfold exec at hx
  cases o with
  | roundTrip q =>
    cases hx
    unfold roundTrip roundTripHTTP3
    split
    · exact .begin s.maps rfl ⟨rfl, rfl, rfl⟩
    · split
      · obtain ⟨k, hk, heq⟩ := h2Fallback_eq_call w q .caller { s with maps := (s.maps.h3Broken q.authority x.now).2 }
        rw [heq]
        exact .begin _ rfl ⟨rfl, rfl, hk.symm⟩
      · exact .begin _ rfl ⟨rfl, rfl, rfl⟩
  | startH3 q =>
    cases hx
    exact .begin s.maps rfl ⟨rfl, rfl, rfl⟩
  | startFallback q =>
    obtain ⟨k, hk, heq⟩ := h2Fallback_eq_call w q (.race false) s
    cases hx
    rw [heq]
    exact .begin s.maps rfl ⟨rfl, rfl, hk.symm⟩
  | wait i q k =>
    cases hx
    exact .ended after_ended
  | select q st => exact .raced (select_raced hx (hrace q st rfl))
  | loser =>
    dsimp only [loser] at hx
    split at hx <;> cases hx
    next hl => exact .lose hl

end Moves

def okOf : Except Err ℕ → Option ℕ
  | .ok i => some i
  | .error _ => none

@[simp] lemma okOf_ok (i : ℕ) : okOf (.ok i) = some i := rfl

@[simp] lemma okOf_error (e : Err) : okOf (.error e) = none := rfl

def Ledger.located (l : Ledger) : List ℕ :=
  l.results.filterMap (fun r => okOf r.2) ++ l.returned.filterMap okOf ++ l.closed

variable (l : Ledger)

@[simp] lemma deliver_caller (res : Except Err ℕ) :
    l.deliver .caller res = { l with returned := l.returned ++ [res] } := rfl

@[simp] lemma deliver_race (h3 : Bool) (res : Except Err ℕ) :
    l.deliver (.race h3) res = { l with results := l.results ++ [(h3, res)] } := rfl

section

variable (l : Ledger) (res : Except Err ℕ)

@[simp] lemma closeResponse_given : (l.closeResponse res).given = l.given := by cases res <;> rfl
@[simp] lemma closeResponse_outcomes : (l.closeResponse res).outcomes = l.outcomes := by cases res <;> rfl
@[simp] lemma closeResponse_returned : (l.closeResponse res).returned = l.returned := by cases res <;> rfl
@[simp] lemma closeResponse_results : (l.closeResponse res).results = l.results := by cases res <;> rfl

end

attribute [local simp] Ledger.located

lemma located_deliver (ret : Ret) (res : Except Err ℕ) :
    (l.deliver ret res).located.Perm ((okOf res).toList ++ l.located) := by
  cases ret with
  | caller =>
    cases res with
    | error e => simp [List.filterMap_cons]
    | ok i =>
      simp only [Ledger.located, deliver_caller, filterMap_append, append_assoc]
      exact (perm_middle.append_left _).trans perm_middle
  | race h3 =>
    cases res with
    | error e | ok i => simp [List.filterMap_cons]

/-! ### What the caller sees -/

/-- **Responses and errors.** -/
structure Tidy (c : Config State Op) : Prop where
  once : c.shared.ledger.returned.length ≤ 1
  /-- A response that was obtained has been returned, or has been closed, or is on the channel. -/
  kept : ∀ i, c.shared.ledger.outcomes i = some .response → c.shared.ledger.returned = [.ok i] ∨
    i ∈ c.shared.ledger.closed ∨ ∃ h3, (h3, Except.ok i) ∈ c.shared.ledger.results
  received : c.shared.ledger.results.length ≤ (c.pending.map Op.expects).sum
  /-- The response that is returned has been obtained and not closed. -/
  unclosed : ∀ i, c.shared.ledger.returned = [.ok i] →
    c.shared.ledger.outcomes i = some .response ∧ i ∉ c.shared.ledger.closed
  /-- An error is returned only if every attempt has failed. -/
  failed : ∀ e, c.shared.ledger.returned = [.error e] →
    ∀ i < c.shared.ledger.given.length, ∃ e, c.shared.ledger.outcomes i = some (.error e)

/-! ### The counts -/

structure Acc (l : Ledger) (m : Multiset Op) : Prop where
  nodup : (m.filterMap Op.awaits).Nodup
  awaited : ∀ i, i ∈ m.filterMap Op.awaits ↔ i < l.given.length ∧ l.outcomes i = none
  fresh : ∀ i, l.given.length ≤ i → l.outcomes i = none
  single : l.located.Nodup
  placed : ∀ i, i ∈ l.located ↔ l.outcomes i = some .response
  main : (m.map Op.owner).count .main + l.returned.length = 1
  flow : (m.map Op.owner).count .race + l.results.length = (m.map Op.expects).sum
  /-- In the loop of the race a result is outstanding. -/
  racing : ∀ q st, .select q st ∈ m → st.received < st.cancels
  quiet : (∀ i, l.returned ≠ [.ok i]) → l.closed = [] ∧ (m.map Op.owner).count .loser = 0

variable {m : Multiset Op} {l : Ledger} {o : Op}

lemma Acc.returned_eq_nil (h : Acc l (o ::ₘ m)) (ho : o.owner = .main) : l.returned = [] := by
  have := h.main
  rw [Multiset.map_cons, ho, Multiset.count_cons_self] at this
  exact List.eq_nil_of_length_eq_zero (by omega)

/-- How the ledger and the sections that take the place of `o` change the counts. -/
structure Balanced (l l' : Ledger) (o : Op) (new : List Op) : Prop where
  main : (new.map Op.owner).count .main + l'.returned.length = ([o].map Op.owner).count .main + l.returned.length
  flow : (new.map Op.owner).count .race + l'.results.length + ([o].map Op.expects).sum =
    ([o].map Op.owner).count .race + l.results.length + (new.map Op.expects).sum
  racing : ∀ q st, .select q st ∈ new → st.received < st.cancels
  quiet : (∀ i, l'.returned ≠ [.ok i]) → (∀ i, l.returned ≠ [.ok i]) ∧ (([o].map Op.owner).count .loser = 0 →
    l'.closed = l.closed ∧ (new.map Op.owner).count .loser = 0)

variable {l' : Ledger} {new : List Op}

lemma Acc.move (h : Acc l (o ::ₘ m)) (hb : Balanced l l' o new)
    (hnodup : ((new.filterMap Op.awaits : Multiset ℕ) + m.filterMap Op.awaits).Nodup)
    (hawaited : ∀ i, i ∈ (new.filterMap Op.awaits : Multiset ℕ) + m.filterMap Op.awaits ↔
      i < l'.given.length ∧ l'.outcomes i = none)
    (hfresh : ∀ i, l'.given.length ≤ i → l'.outcomes i = none) (hsingle : l'.located.Nodup)
    (hplaced : ∀ i, i ∈ l'.located ↔ l'.outcomes i = some .response) : Acc l' (↑new + m) := by
  have hcount (a : Owner) (ops : List Op) :
      ((↑ops + m).map Op.owner).count a = (ops.map Op.owner).count a + (m.map Op.owner).count a := by simp
  have hsum (ops : List Op) :
      ((↑ops + m).map Op.expects).sum = (ops.map Op.expects).sum + (m.map Op.expects).sum := by simp
  have hcons : o ::ₘ m = ↑[o] + m := by simp
  rw [hcons] at h
  have hmain := h.main
  have hflow := h.flow
  have hmain' := hb.main
  have hflow' := hb.flow
  rw [hcount] at hmain hflow
  rw [hsum] at hflow
  refine ⟨by rwa [filterMap_add], by rwa [filterMap_add], hfresh, hsingle, hplaced, ?_,
    ?_, fun q st hm => ?_, fun hne => ?_⟩
  · rw [hcount]
    omega
  · rw [hcount, hsum]
    omega
  · rcases Multiset.mem_add.1 hm with hm | hm
    · exact hb.racing q st hm
    · exact h.racing q st (Multiset.mem_add.2 (.inr hm))
  · obtain ⟨hne', hsame⟩ := hb.quiet hne
    obtain ⟨hclosed, hlosers⟩ := h.quiet hne'
    rw [hcount] at hlosers ⊢
    obtain ⟨hsame, hnew⟩ := hsame (by omega)
    exact ⟨hsame.trans hclosed, by omega⟩

lemma Acc.change (h : Acc l (o ::ₘ m)) (hb : Balanced l l' o new) (hg : l'.given = l.given)
    (hout : l'.outcomes = l.outcomes) (hloc : l'.located.Perm l.located)
    (ha : new.filterMap Op.awaits = [o].filterMap Op.awaits) : Acc l' (↑new + m) := by
  have hawaits : (new.filterMap Op.awaits : Multiset ℕ) + m.filterMap Op.awaits = (o ::ₘ m).filterMap Op.awaits := by
    rw [ha, ← filterMap_coe, ← filterMap_add, coe_singleton, singleton_add]
  refine h.move hb (hawaits ▸ h.nodup) ?_ ?_ (hloc.nodup_iff.2 h.single) fun i => ?_
  · rw [hawaits, hg, hout]
    exact h.awaited
  · rw [hg, hout]
    exact h.fresh
  · rw [hloc.mem_iff, hout]
    exact h.placed i

variable {o' t : Op}

lemma Balanced.swap (ho : o'.owner = o.owner) (hr : l'.returned = l.returned) (hc : l'.closed = l.closed)
    (he : l'.results.length + o.expects = l.results.length + o'.expects)
    (hrace : ∀ q st, o' = .select q st → st.received < st.cancels) : Balanced l l' o [o'] where
  main := by simp [ho, hr]
  flow := by
    simp [ho]
    omega
  racing q st hm := hrace q st (List.mem_singleton.1 hm).symm
  quiet hne := ⟨hr ▸ hne, fun h => ⟨hc, by simpa [ho] using h⟩⟩

lemma Balanced.spawn (ho : o.owner = .main) (ho' : o'.owner = .main) (ht : t.Free .race) (hr : l'.returned = l.returned)
    (hc : l'.closed = l.closed) (he : l'.results.length + o.expects + 1 = l.results.length + o'.expects)
    (hrace : ∀ q st, o' = .select q st → st.received < st.cancels) : Balanced l l' o [o', t] where
  main := by simp [ho, ho', ht.owner, hr]
  flow := by
    simp [ho, ho', ht.owner, ht.expects]
    omega
  racing q st hm := by
    rcases mem_pair.1 hm with hm | hm
    · exact hrace q st hm.symm
    · cases hm ▸ ht.owner
  quiet hne := ⟨hr ▸ hne, fun h => ⟨hc, by simp [ho', ht.owner]⟩⟩

variable {l₁ : Ledger} {ret : Ret} {n : ℕ}

lemma Balanced.deliver {res : Except Err ℕ} (ho : o.owner = ret.owner) (hn : n = 0 ∨ ret = .caller ∧ ∃ i, res = .ok i)
    (hr : l₁.returned = l.returned) (hc : l₁.closed = l.closed) (hnil : ret = .caller → l.returned = [])
    (he : l₁.results.length + o.expects = l.results.length + n) :
    Balanced l (l₁.deliver ret res) o (replicate n .loser) := by
  refine ⟨?_, ?_, fun q st hm => (by cases List.eq_of_mem_replicate hm), fun hne => ?_⟩
  · cases ret <;> simp [List.count_replicate, Ret.owner, ho, hr, hnil]
  · cases ret <;> simp [List.count_replicate, Ret.owner, ho] <;> omega
  · obtain rfl | ⟨rfl, i, rfl⟩ := hn
    · cases ret with
      | caller => exact ⟨by simp [hnil], fun _ => ⟨hc, rfl⟩⟩
      | race h3 => exact ⟨by simpa [hr] using hne, fun _ => ⟨hc, rfl⟩⟩
    · exact absurd (by simp [hr, hnil]) (hne i)

/-! ### The code keeps the counts -/

def Next.Acc (n : Next) (m : Multiset Op) : Prop := Http3Fallback.Acc n.1.ledger (↑(n.2.1 ++ n.2.2) + m)

variable {w : World} {x : Input} {s : State} {q : Request} {k : After} {i : ℕ} {e : Err}

@[simp] lemma clone_ledger (q : Request) (s : State) : (cloneRequestForRetry w q s).1.ledger = s.ledger := by
  unfold cloneRequestForRetry
  split <;> rfl

lemma Acc.call (h : Acc s.ledger (o ::ₘ m)) (ho : o.Free k.owner) (q : Request) : (call q k s).Acc m := by
  have hold := h.awaited
  have hn := h.nodup
  have hnew := h.fresh s.ledger.given.length le_rfl
  have hwait : (([Op.wait s.ledger.given.length q k].filterMap Op.awaits : Multiset ℕ) + m.filterMap Op.awaits) =
      s.ledger.given.length ::ₘ m.filterMap Op.awaits := singleton_add ..
  rw [filterMap_cons_none _ _ ho.awaits] at hold hn
  refine h.move (.swap ho.owner.symm rfl rfl ?_ nofun) ?_ (fun i => ?_) (fun i hi => ?_) h.single h.placed
  · simp [Http3Fallback.call, ho.expects]
  · refine hwait ▸ Multiset.nodup_cons.2 ⟨?_, hn⟩
    simp [hold]
  · refine (hwait ▸ Multiset.mem_cons).trans ?_
    by_cases hi : i = s.ledger.given.length
    · simp [Http3Fallback.call, hi, hnew]
    · simp [Http3Fallback.call, hi, hold]
      omega
  · exact h.fresh i (by simp [Http3Fallback.call] at hi; omega)

/-- A goroutine that goes on after a failed attempt. -/
def token (q : Request) : Ret → Op
  | .caller => .roundTrip q
  | .race _ => .startFallback q

lemma token_free (q : Request) (ret : Ret) : (token q ret).Free ret.owner := by
  cases ret <;> exact ⟨rfl, rfl, rfl⟩

lemma Acc.finish (h : Acc l (.wait i q k ::ₘ m)) (hb : Balanced l l' (.wait i q k) new) (out : Outcome)
    (hg : l'.given = l.given) (hout : l'.outcomes = Function.update l.outcomes i (some out))
    (ha : new.filterMap Op.awaits = [])
    (hloc : l'.located.Perm ((if out = .response then [i] else []) ++ l.located)) : Acc l' (↑new + m) := by
  have hi := (h.awaited i).1 (by simp)
  have hn := h.nodup
  have hold := h.awaited
  rw [filterMap_cons_some _ _ _ (awaits_wait ..)] at hn hold
  obtain ⟨hni, hn⟩ := Multiset.nodup_cons.1 hn
  have hnot : i ∉ l.located := fun hl => by simpa [hi] using (h.placed i).1 hl
  refine h.move hb ?_ (fun j => ?_) (fun j hj => ?_) (hloc.nodup_iff.2 ?_) fun j => hloc.mem_iff.trans ?_
  · rwa [ha, pending_nil_add]
  · rw [ha, hg, hout]
    by_cases hj : j = i
    · subst hj
      simpa using hni
    · simpa [hj] using hold j
  · rw [hg] at hj
    rw [hout, update_of_ne (by omega)]
    exact h.fresh j hj
  · split
    · exact nodup_cons.2 ⟨hnot, h.single⟩
    · exact h.single
  · rw [hout, mem_append, h.placed]
    by_cases hj : j = i
    · subst hj
      cases out <;> simp [hi]
    · split <;> simp [hj]

/-- The section that waits for an attempt has ended. -/
lemma Acc.failed (h : Acc s.ledger (.wait i q k ::ₘ m)) (hx : x.outcome = .error e) (ret : Ret)
    (hk : k.owner = ret.owner) : Acc (finished i q k x s).ledger (token q ret ::ₘ m) := by
  have hf := token_free q ret
  have hb : Balanced s.ledger (finished i q k x s).ledger (.wait i q k) [token q ret] :=
    .swap (hf.owner.trans hk.symm) rfl rfl (by simp [hf.expects, finished]) (by cases ret <;> nofun)
  exact h.finish hb (.error e) rfl (by rw [← hx]; rfl) (by simp [hf.awaits]) (.refl _)

lemma Acc.deliver_error (h : Acc s.ledger (o ::ₘ m)) (ho : o.Free ret.owner) (e : Err) :
    (deliver ret (.error e) s).Acc m := by
  refine h.change (.deliver ho.owner (.inl rfl) rfl rfl ?_ (by simp [ho.expects])) ?_ ?_ (located_deliver ..) ?_
  · rintro rfl
    exact h.returned_eq_nil ho.owner
  · cases ret <;> rfl
  · cases ret <;> rfl
  · simp [ho.awaits, deliver]

variable {n : Next}

lemma acc_ended (h : Acc s.ledger (.wait i q k ::ₘ m))
    (he : Ended w q (finished i q k x s) i k x.outcome n) : n.Acc m := by
  generalize hx : x.outcome = out at he
  cases he with
  | @response _ ret p hk =>
    refine h.finish (.deliver (o := .wait i q k) hk (.inl rfl) rfl rfl ?_ rfl) .response ?_ ?_ rfl (located_deliver ..)
    · rintro rfl
      exact h.returned_eq_nil hk
    · cases ret <;> rfl
    · cases ret <;> rw [← hx] <;> rfl
  | @error _ ret e p hk hr =>
    exact (h.failed hx ret hk).deliver_error (token_free q ret) e
  | @retry _ k' ret e p hk hk' hr =>
    exact Acc.call (by simpa using h.failed hx ret hk) (hk' ▸ token_free q ret) _
  | alone => exact (h.failed hx .caller rfl).call (k := .alone) (token_free q .caller) q
  | race hq =>
    have hb : Balanced (finished i q .cached x s).ledger (finished i q .cached x s).ledger (token q .caller)
        [.select q {}, (startH3 w q (finished i q .cached x s)).2] :=
      .spawn rfl rfl ⟨rfl, rfl, rfl⟩ rfl rfl rfl (by rintro _ _ ⟨⟩; exact Nat.zero_lt_one)
    have := (h.failed hx .caller rfl).change hb rfl rfl (.refl _) rfl
    simpa [Next.Acc, startH3] using this

attribute [local simp] Ledger.tail

lemma Ledger.Drops.spec {n : ℕ} (h : l.Drops n l') : l'.given = l.given ∧ l'.outcomes = l.outcomes ∧
    l'.returned = l.returned ∧ l'.closed = l.closed ∧ l'.located = l.located ∧
      l'.results.length + n = l.results.length := by
  cases h with
  | none => exact ⟨rfl, rfl, rfl, rfl, rfl, rfl⟩
  | one hl =>
    refine ⟨rfl, rfl, rfl, rfl, ?_, ?_⟩
    · simp [hl, List.filterMap_cons]
    · simp [hl]

lemma acc_raced {st : Race} (h : Acc s.ledger (.select q st ::ₘ m)) (hr : Raced w q s st n) : n.Acc m := by
  have hst := h.racing q st (mem_cons_self _ _)
  cases hr with
  | @go n l' st' p hd hr hc hlt =>
    obtain ⟨hg, hout, hret, hclosed, hloc, hlen⟩ := hd.spec
    refine h.change (.swap rfl hret hclosed ?_ (by rintro _ _ ⟨⟩; exact hlt)) hg hout (.of_eq hloc) rfl
    simp only [Op.expects]
    omega
  | @start n l' st' p hd hr hc hlt =>
    obtain ⟨hg, hout, hret, hclosed, hloc, hlen⟩ := hd.spec
    have hb : Balanced s.ledger l' (.select q st) [.select q st', (startFallback w q ⟨p, s.store, l'⟩).2] := by
      refine .spawn rfl rfl ⟨rfl, rfl, rfl⟩ hret hclosed ?_ (by rintro _ _ ⟨⟩; exact hlt)
      simp only [Op.expects]
      omega
    simpa [Next.Acc, startFallback] using h.change hb hg hout (.of_eq hloc) rfl
  | @lost l' e p hd hc =>
    obtain ⟨hg, hout, hret, hclosed, hloc, hlen⟩ := hd.spec
    have hb : Balanced s.ledger (l'.deliver .caller (.error e)) (.select q st) [] := by
      refine .deliver rfl (.inl rfl) hret hclosed (fun _ => h.returned_eq_nil rfl) ?_
      simp only [Op.expects]
      omega
    exact h.change hb hg hout ((located_deliver ..).trans (.of_eq hloc)) rfl
  | @won h3 i rest p hl =>
    refine h.change (.deliver rfl (.inr ⟨rfl, i, rfl⟩) rfl rfl (fun _ => h.returned_eq_nil rfl) ?_) rfl rfl
      ((located_deliver ..).trans ?_) ?_
    · simp only [Op.expects, hl, Ledger.tail, length_cons, List.tail_cons]
      omega
    · simp [hl]
    · exact filterMap_eq_nil_iff.2 fun o ho => List.eq_of_mem_replicate ho ▸ rfl

lemma Acc.moved (h : Acc s.ledger (o ::ₘ m)) (hx : exec w o x s = some n) : Moved w x s o n :=
  exec_moved hx fun q st ho => h.racing q st (ho ▸ mem_cons_self _ _)

lemma acc_exec (hx : exec w o x s = some n) (h : Acc s.ledger (o ::ₘ m)) : n.Acc m := by
  cases h.moved hx with
  | begin p hq ho => exact h.call ho _
  | ended he => exact acc_ended h he
  | raced hr => exact acc_raced h hr
  | @lose h3 res rest hl =>
    have hloc : (s.ledger.tail.closeResponse res).located.Perm s.ledger.located := by
      cases res with
      | error e => simp [Ledger.closeResponse, hl, List.filterMap_cons]
      | ok i =>
        simp only [Ledger.located, Ledger.tail, hl, List.filterMap_cons]
        exact List.perm_middle
    refine h.change ⟨?_, ?_, nofun, fun hne => ⟨by simpa using hne, nofun⟩⟩ ?_ ?_ hloc rfl <;>
      simp [hl]

lemma acc_start (w : World) (q : Request) (p : Maps) : Acc (start w q p).shared.ledger (start w q p).pending where
  nodup := nodup_zero
  awaited i := by simp [start, Config.pending, Op.awaits]
  fresh _ _ := rfl
  single := nodup_nil
  placed i := by simp [start]
  main := rfl
  flow := rfl
  racing q st hm := by simp [start, Config.pending] at hm
  quiet _ := ⟨rfl, rfl⟩

lemma acc_step (w : World) (c : Config State Op) (ev : Event Input Call) (c' : Config State Op)
    (h : (program w).step c ev = some c') (hc : Acc c.shared.ledger c.pending) : Acc c'.shared.ledger c'.pending := by
  rcases Forking.step_cases h with ⟨⟨p⟩, -, h1, h2⟩ | ⟨i, x, o, s', new, started, m, -, -, hx, rfl, h1, h2⟩
  · rw [h1, h2]
    exact hc
  · rw [h2]
    exact acc_exec hx (h1 ▸ hc)

lemma Acc.pending_eq_zero (h : Acc l m) (hl : l.returned = [.error e]) : m = 0 ∧ l.results = [] ∧ l.closed = [] := by
  obtain ⟨hclosed, hloser⟩ := h.quiet (by simp [hl])
  have hmain : (m.map Op.owner).count .main = 0 := by
    have := h.main
    simp only [hl, length_singleton] at this
    omega
  -- neither the loop of the race nor a goroutine of `finish` is there to expect anything
  have hexp : (m.map Op.expects).sum = 0 := by
    refine sum_eq_zero fun n hn => ?_
    obtain ⟨o, ho, rfl⟩ := mem_map.1 hn
    cases o with
    | select q st => exact absurd (mem_map_of_mem Op.owner ho) (count_eq_zero.1 hmain)
    | loser => exact absurd (mem_map_of_mem Op.owner ho) (count_eq_zero.1 hloser)
    | _ => rfl
  have hflow := h.flow
  refine ⟨eq_zero_of_forall_notMem fun o ho => ?_, eq_nil_of_length_eq_zero (by omega), hclosed⟩
  have hmem := count_pos.2 (mem_map_of_mem Op.owner ho)
  cases howner : o.owner <;> rw [howner] at hmem <;> omega

/-- **What the caller sees** follows from the counts. -/
theorem Acc.tidy {c : Config State Op} (h : Acc c.shared.ledger c.pending) : Tidy c where
  once := by
    have := h.main
    omega
  kept i hi := by
    have hloc := (h.placed i).2 hi
    simp only [Ledger.located, mem_append, List.mem_filterMap] at hloc
    rcases hloc with (⟨⟨h3, res⟩, hr, hres⟩ | ⟨res, hr, hres⟩) | hclosed
    · cases res <;> cases hres
      exact .inr (.inr ⟨h3, hr⟩)
    · cases res <;> cases hres
      have hlen : c.shared.ledger.returned.length = 1 := by
        have := length_pos_of_mem hr
        have := h.main
        omega
      obtain ⟨res, hres⟩ := length_eq_one_iff.1 hlen
      rw [hres, List.mem_singleton] at hr
      exact .inl (by rw [hres, ← hr])
    · exact .inr (.inl hclosed)
  received := by
    have := h.flow
    omega
  unclosed i hi := by
    have hsingle := h.single
    refine ⟨(h.placed i).1 (by simp [hi]), fun hclosed => ?_⟩
    simp only [Ledger.located, hi] at hsingle
    exact (disjoint_of_nodup_append hsingle) (by simp) hclosed
  failed e he i hi := by
    obtain ⟨hm, hres, hclosed⟩ := h.pending_eq_zero he
    have hnot := (h.awaited i).not.1 (by simp [hm])
    have hloc := (h.placed i).not.1 (by simp [hres, hclosed, he])
    cases hout : c.shared.ledger.outcomes i with
    | none => exact absurd ⟨hi, hout⟩ hnot
    | some out =>
      cases out with
      | response => exact absurd hout hloc
      | error e => exact ⟨e, rfl⟩

end SingBox.HttpClient.Http3Fallback
