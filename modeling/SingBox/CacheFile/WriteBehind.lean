import SingBox.Lib.Goroutine

/-!
# The write-behind DNS cache

`SaveDNSCacheAsync` puts an answer into a map, from where a goroutine writes it into the database; `LoadDNSCache` looks
into the map and then into the database; `ClearDNSCache` clears the map and then deletes the bucket.  The state is that
of one key.  The sections of the calls are what they do under one lock of the map, or in one transaction.

The saves are numbered as they are queued, and an entry carries the number of its save.  A flush goroutine carries the
number of times the map had been cleared when it was started (its `epoch`).
-/

namespace SingBox.CacheFile

open SingBox.Lib Multiset Option

variable {β : Type}

/-! ### Entries -/

/-- `saveDNSCacheEntry`, with the number of its save. -/
structure Entry (β : Type) where
  rawMessage : β
  expireAt : ℕ
  sequence : ℕ
  saving : Bool
  number : ℕ

/-- A record of the database: the time is in seconds there. -/
structure Content (β : Type) where
  expireAt : ℕ
  rawMessage : β
  number : ℕ

/-- What a load has returned, the saves queued and the saves cleared when it started, and the saves queued before the
map was last cleared when it returned. -/
structure Returned (β : Type) where
  result : Option (β × ℕ)
  number : Option ℕ
  queued : ℕ
  cleared : ℕ
  mark : ℕ

structure State (β : Type) where
  /-- `saveDNSCache` -/
  pending : Option (Entry β) := none
  db : Option (Content β) := none
  queued : ℕ := 0
  /-- The number of times the map was cleared. -/
  epoch : ℕ := 0
  /-- The saves queued when the map was last cleared. -/
  mark : ℕ := 0
  /-- The saves queued before the start of a clear that has returned. -/
  cleared : ℕ := 0
  returned : List (Returned β) := []

inductive Op (β : Type) where
  | queue (rawMessage : β) (expireAt : ℕ)
  /-- A turn of `flushPendingDNSCacheWith` ... -/
  | flushRead (epoch : ℕ)
  /-- ... `SaveDNSCache` ... -/
  | flushSave (epoch : ℕ) (entry : Entry β)
  /-- ... and the look at the entry afterwards. -/
  | flushCheck (epoch : ℕ) (entry : Entry β)
  | loadMap (queued cleared : ℕ)
  | loadView (queued cleared : ℕ)
  | clearMap (queued : ℕ)
  | clearBucket (queued : ℕ)

inductive Call (β : Type) where
  | saveDNSCacheAsync (rawMessage : β) (expireAt : ℕ)
  | loadDNSCache
  | clearDNSCache

def entry : Call β → State β → State β × List (Op β)
  | .saveDNSCacheAsync rawMessage expireAt, s => (s, [.queue rawMessage expireAt])
  | .loadDNSCache, s => (s, [.loadMap s.queued s.cleared])
  | .clearDNSCache, s => (s, [.clearMap s.queued])

/-- `queueDNSCacheSave`: the entry that is put into the map. -/
def State.queueDNSCacheSave (s : State β) (rawMessage : β) (expireAt : ℕ) : Entry β where
  rawMessage := rawMessage
  expireAt := expireAt
  sequence := (s.pending.elim 0 Entry.sequence + 1) % 2 ^ 64
  saving := true
  number := s.queued + 1

def State.return (s : State β) (result : Option (β × ℕ)) (number : Option ℕ) (queued cleared : ℕ) : State β :=
  { s with returned := ⟨result, number, queued, cleared, s.mark⟩ :: s.returned }

def exec : Op β → Unit → State β → Option (State β × List (Op β))
  | .queue rawMessage expireAt, (), s =>
    let startFlush := !s.pending.any Entry.saving
    some ({ s with pending := some (s.queueDNSCacheSave rawMessage expireAt), queued := s.queued + 1 },
      if startFlush then [.flushRead s.epoch] else [])
  | .flushRead epoch, (), s =>
    match s.pending with
    | none => some (s, [])
    | some e => some (s, [.flushSave epoch e])
  | .flushSave epoch e, (), s =>
    some ({ s with db := some ⟨e.expireAt / 10 ^ 9, e.rawMessage, e.number⟩ }, [.flushCheck epoch e])
  | .flushCheck epoch e, (), s =>
    match s.pending with
    | none => some (s, [])
    | some current =>
      if current.sequence ≠ e.sequence then some (s, [.flushRead epoch]) else some ({ s with pending := none }, [])
  | .loadMap queued cleared, (), s =>
    match s.pending with
    | some e => some (s.return (some (e.rawMessage, e.expireAt)) (some e.number) queued cleared, [])
    | none => some (s, [.loadView queued cleared])
  | .loadView queued cleared, (), s =>
    match s.db with
    | some d => some (s.return (some (d.rawMessage, d.expireAt * 10 ^ 9)) (some d.number) queued cleared, [])
    | none => some (s.return none none queued cleared, [])
  | .clearMap queued, (), s =>
    some ({ s with pending := none, epoch := s.epoch + 1, mark := s.queued }, [.clearBucket queued])
  | .clearBucket queued, (), s => some ({ s with db := none, cleared := max s.cleared queued }, [])

def program (β : Type) : Program (State β) (Op β) Unit (Call β) := ⟨entry, exec⟩

/-! ### What loads return -/

/-- A load returns nothing that was queued before a save already queued when it started, unless the map was cleared
since; and nothing that was queued before a clear that had returned when it started. -/
def Returned.Latest (r : Returned β) : Prop :=
  ∀ n, r.number = some n → (r.queued ≤ n ∨ r.queued ≤ r.mark) ∧ r.cleared < n

def AllLatest (c : Config (State β) (Op β)) : Prop := ∀ r ∈ c.shared.returned, r.Latest

/-- A flush goroutine writes an entry in the epoch it was started in, or the entry that is in the map, or one that a
clear which has not returned will delete, with no save queued since.  It deletes an entry in its epoch, and not one that
was queued `2 ^ 64` saves after the one it has written. -/
def Op.InEpoch (s : State β) : Op β → Prop
  | .flushSave epoch e => epoch = s.epoch ∨ e.number ∈ s.pending.map Entry.number ∨
      s.queued = s.mark ∧ s.cleared < e.number
  | .flushCheck epoch e => ∀ p ∈ s.pending, p.sequence = e.sequence → epoch = s.epoch ∧ p.number < e.number + 2 ^ 64
  | _ => True

instance (s : State β) : ∀ o : Op β, Decidable (o.InEpoch s)
  | .flushSave _ _ => inferInstanceAs (Decidable (_ ∨ _ ∨ _))
  | .flushCheck epoch e => inferInstanceAs (Decidable
      (∀ p ∈ s.pending, p.sequence = e.sequence → epoch = s.epoch ∧ p.number < e.number + 2 ^ 64))
  | .queue _ _ | .flushRead _ | .loadMap _ _ | .loadView _ _ | .clearMap _ | .clearBucket _ => .isTrue trivial

/-- The step of a run is not a harmful one of a flush goroutine that has outlived a clear. -/
def FlushInEpoch (c : Config (State β) (Op β)) : Event Unit (Call β) → Prop
  | .call _ => True
  | .sched i _ => ∀ o ∈ c.next i, o.InEpoch c.shared

instance (c : Config (State β) (Op β)) : ∀ e : Event Unit (Call β), Decidable (FlushInEpoch c e)
  | .call _ => .isTrue trivial
  | .sched i _ => inferInstanceAs (Decidable (∀ o ∈ c.next i, o.InEpoch c.shared))

/-- A section of a flush goroutine that was started since the map was last cleared. -/
def Op.isLive (epoch : ℕ) : Op β → Bool
  | .flushRead started => started == epoch
  | .flushSave started _ => started == epoch
  | .flushCheck started _ => started == epoch
  | _ => false

def live (s : State β) (m : Multiset (Op β)) : ℕ := m.countP fun o => o.isLive s.epoch = true

/-- What holds of an entry in the hands of a live goroutine: it was queued since the map was last cleared and after the
saves up to `w`, and the entry of the map has grown from it. -/
structure Held (w : ℕ) (s : State β) (e : Entry β) : Prop where
  mark : s.mark < e.number
  written : w < e.number
  number : e.number ≤ s.queued
  sequence : ∀ p, s.pending = some p → (p.sequence + e.number) % 2 ^ 64 = (e.sequence + p.number) % 2 ^ 64

def Op.Ok (w : ℕ) (s : State β) : Op β → Prop
  | .queue _ _ => True
  | .flushRead epoch => epoch ≤ s.epoch
  | .flushSave epoch e => epoch ≤ s.epoch ∧ (epoch = s.epoch → Held w s e)
  | .flushCheck epoch e => epoch ≤ s.epoch ∧ (epoch = s.epoch → Held w s e ∧ ∀ d, s.db = some d → e.number ≤ d.number)
  | .loadMap queued cleared => queued ≤ s.queued ∧ cleared ≤ s.cleared
  | .loadView queued cleared => queued ≤ max s.mark w ∧ cleared ≤ s.cleared
  | .clearMap queued => queued ≤ s.queued
  | .clearBucket queued => queued ≤ s.mark

/-- The invariant: the database has no entry older than a clear that has returned or than the save `w`, the last one
whose entry was written and taken out of the map, if that was not before a clear; and an entry of the map has one live
goroutine. -/
structure Inv (w : ℕ) (s : State β) (m : Multiset (Op β)) : Prop where
  cleared : s.cleared ≤ s.mark
  mark : s.mark ≤ s.queued
  written : w ≤ s.queued
  pending : ∀ p, s.pending = some p → p.number = s.queued ∧ s.mark < s.queued ∧ w < s.queued ∧ p.saving = true
  empty : s.pending = none → s.queued ≤ max s.mark w
  db : ∀ d, s.db = some d → w ≤ max s.mark d.number ∧ s.cleared < d.number
  one : live s m ≤ if s.pending.isSome then 1 else 0
  ok : ∀ o ∈ m, o.Ok w s
  latest : ∀ r ∈ s.returned, r.Latest

section Live

variable {s : State β} {m : Multiset (Op β)} {o : Op β}

lemma live_cons : live s (o ::ₘ m) = live s m + if o.isLive s.epoch then 1 else 0 := by
  simp [live, countP_cons]

lemma not_live_of_live_eq_zero (h : live s m = 0) (ho : o ∈ m) : o.isLive s.epoch = false := by
  have := countP_eq_zero.1 h o ho
  simpa using this

lemma Inv.rest_not_live {w : ℕ} (h : Inv w s (o ::ₘ m)) (ho : o.isLive s.epoch = true) : live s m = 0 := by
  have h1 := h.one
  rw [live_cons, if_pos ho] at h1
  split at h1 <;> omega

lemma Inv.live_le {w : ℕ} (h : Inv w s (o ::ₘ m)) : live s m ≤ if s.pending.isSome then 1 else 0 := by
  have h1 := h.one
  rw [live_cons] at h1
  omega

/-- A section keeps what holds of it when the state changes, if no more is said of a live goroutine. -/
lemma Op.Ok.mono {w w' : ℕ} {s' : State β} (ho : o.Ok w s) (hepoch : s'.epoch = s.epoch)
    (hqueued : s.queued ≤ s'.queued) (hmark : s'.mark = s.mark) (hdone : w ≤ w') (hcleared : s.cleared ≤ s'.cleared)
    (hheld : o.isLive s.epoch = true → ∀ e, Held w s e → Held w' s' e)
    (hdb : o.isLive s.epoch = true → ∀ d, s'.db = some d → s.db = some d ∨ s.queued ≤ d.number) : o.Ok w' s' := by
  cases o with
  | queue raw expireAt => trivial
  | flushRead epoch => exact hepoch.ge.trans' ho
  | flushSave epoch e =>
    refine ⟨hepoch ▸ ho.1, fun he => hheld ?_ e (ho.2 (hepoch ▸ he))⟩
    simpa [Op.isLive] using hepoch ▸ he
  | flushCheck epoch e =>
    refine ⟨hepoch ▸ ho.1, fun he => ?_⟩
    have hlive : (Op.flushCheck epoch e).isLive s.epoch = true := by simpa [Op.isLive] using hepoch ▸ he
    obtain ⟨h1, h2⟩ := ho.2 (hepoch ▸ he)
    exact ⟨hheld hlive e h1, fun d hd => (hdb hlive d hd).elim (h2 d) h1.number.trans⟩
  | loadMap queued cleared => exact ⟨ho.1.trans hqueued, ho.2.trans hcleared⟩
  | loadView queued cleared =>
    exact ⟨ho.1.trans (hmark ▸ max_le_max_left _ hdone), ho.2.trans hcleared⟩
  | clearMap queued => exact le_trans ho hqueued
  | clearBucket queued => exact le_trans ho hmark.ge

end Live

/-! ### What the sections keep -/

section Sections

variable {w : ℕ} {s : State β} {m : Multiset (Op β)} {o : Op β}

lemma Inv.replace (h : Inv w s (o ::ₘ m)) (o' : Op β) (ho : o'.Ok w s)
    (hlive : o'.isLive s.epoch = true → o.isLive s.epoch = true) : Inv w s (o' ::ₘ m) := by
  refine ⟨h.cleared, h.mark, h.written, h.pending, h.empty, h.db, ?_, ?_, h.latest⟩
  · have h1 := h.one
    rw [live_cons] at h1 ⊢
    by_cases hl : o'.isLive s.epoch = true
    · rw [if_pos (hlive hl)] at h1
      rwa [if_pos hl]
    · rw [if_neg hl]
      omega
  · intro o'' ho''
    rcases mem_cons.1 ho'' with rfl | ho''
    · exact ho
    · exact h.ok o'' (mem_cons_of_mem ho'')

lemma Inv.drop (h : Inv w s (o ::ₘ m)) : Inv w s m :=
  ⟨h.cleared, h.mark, h.written, h.pending, h.empty, h.db, h.live_le,
    fun o' ho' => h.ok o' (mem_cons_of_mem ho'),
    h.latest⟩

variable {queued cleared : ℕ}

lemma Inv.return (h : Inv w s m) {result : Option (β × ℕ)} (number : Option ℕ)
    (hr : (⟨result, number, queued, cleared, s.mark⟩ : Returned β).Latest) :
    Inv w (s.return result number queued cleared) m := by
  refine ⟨h.cleared, h.mark, h.written, h.pending, h.empty, h.db, h.one, fun o ho => ?_, fun r hr' => ?_⟩
  · exact (h.ok o ho).mono rfl le_rfl rfl le_rfl le_rfl (fun _ e he => ⟨he.mark, he.written, he.number, he.sequence⟩)
      fun _ _ => .inl
  · rcases List.mem_cons.1 hr' with rfl | hr'
    · exact hr
    · exact h.latest r hr'

lemma Inv.call (h : Inv w s m) (ho : o.Ok w s) (hlive : o.isLive s.epoch = false) : Inv w s (o ::ₘ m) := by
  refine ⟨h.cleared, h.mark, h.written, h.pending, h.empty, h.db, ?_, ?_, h.latest⟩
  · rw [live_cons, if_neg (by simp [hlive])]
    exact h.one
  · intro o' ho'
    rcases mem_cons.1 ho' with rfl | ho'
    · exact ho
    · exact h.ok o' ho'

variable {p : Entry β} {e : Entry β}

/-- An entry that is held stays good when a save is queued over the one it has grown into. -/
lemma Held.queue (h : Held w s e) (hp : s.pending = some p) (hnum : p.number = s.queued) (raw : β) (expireAt : ℕ) :
    Held w { s with pending := some (s.queueDNSCacheSave raw expireAt), queued := s.queued + 1 } e := by
  refine ⟨h.mark, h.written, h.number.trans (Nat.le_succ _), fun q hq => ?_⟩
  have hs := h.sequence p hp
  cases hq
  simp only [State.queueDNSCacheSave, hp, elim_some]
  omega

lemma Inv.queue {raw : β} {expireAt : ℕ} (h : Inv w s (.queue raw expireAt ::ₘ m)) :
    Inv w { s with pending := some (s.queueDNSCacheSave raw expireAt), queued := s.queued + 1 }
      (↑(if !s.pending.any Entry.saving then [Op.flushRead (β := β) s.epoch] else []) + m) := by
  have hm := h.drop
  have hok : ∀ o ∈ m, o.Ok w { s with pending := some (s.queueDNSCacheSave raw expireAt), queued := s.queued + 1 } := by
    intro o ho
    refine (hm.ok o ho).mono rfl (Nat.le_succ _) rfl le_rfl le_rfl (fun hl e he => ?_) fun _ _ => .inl
    cases hp : s.pending with
    | none =>
      have h0 : live s m = 0 := by simpa [hp] using hm.one
      simp [not_live_of_live_eq_zero h0 ho] at hl
    | some p => exact he.queue hp (hm.pending p hp).1 raw expireAt
  have hrest : ∀ m', (∀ o ∈ m', o.Ok w
      { s with pending := some (s.queueDNSCacheSave raw expireAt), queued := s.queued + 1 }) → live s m' ≤ 1 →
      Inv w { s with pending := some (s.queueDNSCacheSave raw expireAt), queued := s.queued + 1 } m' := by
    intro m' hok' hone
    refine ⟨hm.cleared, hm.mark.trans (Nat.le_succ _), hm.written.trans (Nat.le_succ _), fun p hp => ?_, by simp, hm.db,
      hone, hok', hm.latest⟩
    cases hp
    exact ⟨rfl, Nat.lt_succ_of_le hm.mark, Nat.lt_succ_of_le hm.written, rfl⟩
  cases hp : s.pending with
  | none =>
    -- the first save since the map had no entry: it starts a goroutine
    have h0 : live s m = 0 := by simpa [hp] using hm.one
    refine hrest _ (fun o ho => ?_) ?_
    · rcases mem_cons.1 ho with rfl | ho
      · exact le_rfl
      · exact hok o ho
    · simp [live_cons, h0, Op.isLive]
  | some p =>
    simp only [any_some, (hm.pending p hp).2.2.2, Bool.not_true, Bool.false_eq_true, if_false, pending_nil_add]
    exact hrest _ hok (by simpa [hp] using hm.one)

lemma Inv.flushRead {epoch : ℕ} (h : Inv w s (.flushRead epoch ::ₘ m)) (hp : s.pending = some p) :
    Inv w s (.flushSave epoch p ::ₘ m) := by
  obtain ⟨hnum, hmark, hdone, -⟩ := h.pending p hp
  refine h.replace _ ⟨h.ok _ (mem_cons_self _ _), fun _ => ?_⟩ fun hl => hl
  refine ⟨hnum ▸ hmark, hnum ▸ hdone, hnum.le, fun q hq => ?_⟩
  rw [hp, some.injEq] at hq
  rw [hq]

lemma Inv.flushSave {epoch : ℕ} (h : Inv w s (.flushSave epoch e ::ₘ m)) (ho : (Op.flushSave epoch e).InEpoch s) :
    Inv w { s with db := some ⟨e.expireAt / 10 ^ 9, e.rawMessage, e.number⟩ } (.flushCheck epoch e ::ₘ m) := by
  obtain ⟨hle, hheld⟩ := h.ok _ (mem_cons_self _ _)
  -- a live goroutine is alone, or writes nothing newer than the entry in the map
  have hwrite : w ≤ max s.mark e.number ∧ s.cleared < e.number ∧
      ∀ o ∈ m, o.isLive s.epoch = true → s.queued ≤ e.number := by
    rcases ho with hepoch | hmem | ⟨hq, hc⟩
    · have h0 : live s m = 0 := h.rest_not_live (by simpa [Op.isLive] using hepoch)
      refine ⟨le_max_of_le_right (hheld hepoch).written.le, h.cleared.trans_lt (hheld hepoch).mark, fun o ho hl => ?_⟩
      simp [not_live_of_live_eq_zero h0 ho] at hl
    · obtain ⟨p, hp, hnum⟩ := Option.map_eq_some_iff.1 hmem
      obtain ⟨hqueued, hmark, hdone, -⟩ := h.pending p hp
      rw [← hnum, hqueued]
      exact ⟨le_max_of_le_right hdone.le, h.cleared.trans_lt hmark, fun _ _ _ => le_rfl⟩
    · refine ⟨le_max_of_le_left (hq ▸ h.written), hc, fun o ho hl => ?_⟩
      have hnone : s.pending = none := eq_none_iff_forall_ne_some.2 fun p hp => (h.pending p hp).2.1.ne hq.symm
      have h0 : live s m = 0 := by simpa [hnone] using h.drop.one
      simp [not_live_of_live_eq_zero h0 ho] at hl
  refine ⟨h.cleared, h.mark, h.written, h.pending, h.empty, fun d hd => ?_, ?_, fun o ho => ?_, h.latest⟩
  · cases hd
    exact ⟨hwrite.1, hwrite.2.1⟩
  · have h1 := h.one
    rw [live_cons] at h1 ⊢
    exact h1
  · have hsame : ∀ e', Held w s e' → Held w { s with db := some ⟨e.expireAt / 10 ^ 9, e.rawMessage, e.number⟩ } e' :=
      fun e' he => ⟨he.mark, he.written, he.number, he.sequence⟩
    rcases mem_cons.1 ho with rfl | ho
    · refine ⟨hle, fun hepoch => ⟨hsame e (hheld hepoch), fun d hd => ?_⟩⟩
      cases hd
      exact le_rfl
    · refine (h.ok o (mem_cons_of_mem ho)).mono rfl le_rfl rfl le_rfl le_rfl (fun _ => hsame) fun hl d hd => .inr ?_
      cases hd
      exact hwrite.2.2 o ho hl

/-- The entry that a live goroutine finds with the sequence number of the one it has written is that one. -/
lemma Held.number_eq (h : Held w s e) (hp : s.pending = some p) (hnum : p.number = s.queued)
    (hseq : p.sequence = e.sequence) (hlt : p.number < e.number + 2 ^ 64) : e.number = s.queued := by
  have h1 := h.sequence p hp
  have h2 := h.number
  omega

/-- **The entry is taken out of the map**: all that was queued is written. -/
theorem Inv.flushCheck {epoch : ℕ} (h : Inv w s (.flushCheck epoch e ::ₘ m))
    (hp : s.pending = some p) (hseq : p.sequence = e.sequence) (hepoch : epoch = s.epoch)
    (hlt : p.number < e.number + 2 ^ 64) : Inv s.queued { s with pending := none } m := by
  obtain ⟨hheld, hdb⟩ := (h.ok _ (mem_cons_self _ _)).2 hepoch
  have h0 : live s m = 0 := h.rest_not_live (by simpa [Op.isLive] using hepoch)
  have hnum : e.number = s.queued := hheld.number_eq hp (h.pending p hp).1 hseq hlt
  refine ⟨h.cleared, h.mark, le_rfl, by simp, fun _ => le_max_right _ _, fun d hd => ?_, h0.le, fun o ho => ?_,
    h.latest⟩
  · exact ⟨le_max_of_le_right (hnum ▸ hdb d hd), (h.db d hd).2⟩
  · have hl := not_live_of_live_eq_zero h0 ho
    exact (h.ok o (mem_cons_of_mem ho)).mono rfl le_rfl rfl h.written le_rfl (by simp [hl]) (by simp [hl])

lemma Inv.loadMap (h : Inv w s (.loadMap queued cleared ::ₘ m)) (hp : s.pending = some p) (result : Option (β × ℕ)) :
    Inv w (s.return result (some p.number) queued cleared) m := by
  obtain ⟨hq, hc⟩ := h.ok _ (mem_cons_self _ _)
  obtain ⟨hnum, hmark, -⟩ := h.pending p hp
  refine h.drop.return _ fun n hn => ?_
  cases hn
  exact ⟨Or.inl (hnum ▸ hq), by have := h.cleared; dsimp only; omega⟩

lemma Inv.loadView (h : Inv w s (.loadView queued cleared ::ₘ m)) {d : Content β}
    (hd : s.db = some d) (result : Option (β × ℕ)) : Inv w (s.return result (some d.number) queued cleared) m := by
  obtain ⟨hq, hc⟩ := h.ok _ (mem_cons_self _ _)
  obtain ⟨hdone, hcleared⟩ := h.db d hd
  refine h.drop.return _ fun n hn => ?_
  cases hn
  refine ⟨?_, hc.trans_lt hcleared⟩
  dsimp only
  omega

lemma Op.Ok.clearMap (h : o.Ok w s) (hmark : s.mark ≤ s.queued) :
    o.Ok w { s with pending := none, epoch := s.epoch + 1, mark := s.queued } ∧ o.isLive (s.epoch + 1) = false := by
  cases o with
  | flushRead epoch =>
    have h : epoch ≤ s.epoch := h
    exact ⟨Nat.le_succ_of_le h, by simp [Op.isLive]; omega⟩
  | flushSave epoch e | flushCheck epoch e =>
    have h := h.1
    exact ⟨⟨Nat.le_succ_of_le h, fun he => by dsimp only at he; omega⟩, by simp [Op.isLive]; omega⟩
  | loadMap queued cleared | clearMap queued | queue raw expireAt => exact ⟨h, rfl⟩
  | loadView queued cleared => exact ⟨⟨h.1.trans (max_le_max_right _ hmark), h.2⟩, rfl⟩
  | clearBucket queued => exact ⟨le_trans h hmark, rfl⟩

lemma Inv.clearMap (h : Inv w s (.clearMap queued ::ₘ m)) :
    Inv w { s with pending := none, epoch := s.epoch + 1, mark := s.queued } (.clearBucket queued ::ₘ m) := by
  have hok : ∀ o ∈ m, _ := fun o ho => (h.ok o (mem_cons_of_mem ho)).clearMap h.mark
  refine ⟨h.cleared.trans h.mark, le_rfl, h.written, by simp, fun _ => le_max_left _ _, fun d hd => ?_, ?_,
    fun o ho => ?_, h.latest⟩
  · exact ⟨le_max_of_le_left h.written, (h.db d hd).2⟩
  · have h0 : m.countP (fun o => o.isLive (s.epoch + 1) = true) = 0 := by
      rw [countP_eq_zero]
      intro o ho hl
      exact absurd hl (by simp [(hok o ho).2])
    rw [live_cons]
    exact h0.le
  · rcases mem_cons.1 ho with rfl | ho
    · exact h.ok _ (mem_cons_self _ _)
    · exact (hok o ho).1

lemma Inv.clearBucket (h : Inv w s (.clearBucket queued ::ₘ m)) :
    Inv w { s with db := none, cleared := max s.cleared queued } m := by
  have hq : queued ≤ s.mark := h.ok _ (mem_cons_self _ _)
  refine ⟨max_le h.cleared hq, h.mark, h.written, h.pending, h.empty, by simp, h.live_le, fun o ho => ?_, h.latest⟩
  exact (h.ok o (mem_cons_of_mem ho)).mono rfl le_rfl rfl le_rfl (le_max_left _ _)
    (fun _ e he => ⟨he.mark, he.written, he.number, he.sequence⟩) (by simp)

/-- **Every section keeps the invariant**, if what a flush goroutine does is harmless. -/
theorem Inv.exec {x : Unit} {s' : State β} {new : List (Op β)} (hx : exec o x s = some (s', new))
    (ho : o.InEpoch s) (h : Inv w s (o ::ₘ m)) : ∃ w', Inv w' s' (↑new + m) := by
  cases o with
  | queue raw expireAt =>
    cases hx
    exact ⟨w, h.queue⟩
  | flushRead epoch =>
    simp only [CacheFile.exec] at hx
    split at hx
    · cases hx
      exact ⟨w, by simpa using h.drop⟩
    next p hp =>
      cases hx
      exact ⟨w, h.flushRead hp⟩
  | flushSave epoch e =>
    cases hx
    exact ⟨w, h.flushSave ho⟩
  | flushCheck epoch e =>
    simp only [CacheFile.exec] at hx
    split at hx
    · cases hx
      exact ⟨w, by simpa using h.drop⟩
    next p hp =>
      split at hx
      · cases hx
        exact ⟨w, h.replace (.flushRead epoch) (h.ok _ (mem_cons_self _ _)).1 id⟩
      next hseq =>
        cases hx
        rw [not_not] at hseq
        obtain ⟨hepoch, hlt⟩ := ho p hp hseq
        exact ⟨s.queued, by simpa using h.flushCheck hp hseq hepoch hlt⟩
  | loadMap queued cleared =>
    simp only [CacheFile.exec] at hx
    split at hx
    next p hp =>
      cases hx
      exact ⟨w, by simpa using h.loadMap hp _⟩
    next hp =>
      cases hx
      have ⟨hq, hc⟩ := h.ok _ (mem_cons_self _ _)
      exact ⟨w, h.replace (.loadView queued cleared) ⟨hq.trans (h.empty hp), hc⟩ id⟩
  | loadView queued cleared =>
    simp only [CacheFile.exec] at hx
    split at hx
    next d hd =>
      cases hx
      exact ⟨w, by simpa using h.loadView hd _⟩
    · cases hx
      exact ⟨w, by simpa using h.drop.return none (fun n hn => by cases hn)⟩
  | clearMap queued =>
    cases hx
    exact ⟨w, h.clearMap⟩
  | clearBucket queued =>
    cases hx
    exact ⟨w, by simpa using h.clearBucket⟩

end Sections

lemma Inv.entry {w : ℕ} {s : State β} {m : Multiset (Op β)} (h : Inv w s m) (k : Call β) :
    Inv w (CacheFile.entry k s).1 (↑(CacheFile.entry k s).2 + m) := by
  cases k with
  | saveDNSCacheAsync raw expireAt => exact h.call (o := .queue raw expireAt) trivial rfl
  | loadDNSCache => exact h.call (o := .loadMap s.queued s.cleared) ⟨le_rfl, le_rfl⟩ rfl
  | clearDNSCache => exact h.call le_rfl rfl

lemma step_inv {c c' : Config (State β) (Op β)} {e : Event Unit (Call β)} (hstep : (program β).step c e = some c')
    (he : FlushInEpoch c e) (h : ∃ w, Inv w c.shared c.pending) : ∃ w, Inv w c'.shared c'.pending := by
  obtain ⟨w, h⟩ := h
  rcases Program.step_cases hstep with ⟨k, -, h1, h2⟩ | ⟨i, x, o, s', new, m, rfl, hnext, hx, rfl, h1, h2⟩
  · rw [h1, h2]
    exact ⟨w, h.entry k⟩
  · rw [h2]
    rw [h1] at h
    exact h.exec hx (he o hnext)

/-- **The cache shows the latest value** in every run in which no flush goroutine that was started before a clear writes
an entry that stays, other than the one in the map, or deletes one. -/
theorem allLatest_of_flushInEpoch (events : List (Event Unit (Call β)))
    (h : StepAll (program β).step FlushInEpoch (Config.init {}) events) :
    VisitAll (program β).step AllLatest (Config.init {}) events := by
  have hinit : Inv 0 ({} : State β) 0 := by
    constructor
    case one => exact (countP_zero _).le
    all_goals simp
  have hrun := visitAll_of_stepAll (fun _ _ _ => step_inv) events ⟨0, hinit⟩ h
  exact hrun.imp fun _ ⟨_, hI⟩ => hI.latest

/-! ### A goroutine that outlives a clear -/

/-- A save is queued and read by its goroutine; the cache is cleared, and another save is queued; then the goroutine
writes what it has read, and the answer is loaded. -/
def outlivedClear : List (Event Unit (Call ℕ)) :=
  [.call (.saveDNSCacheAsync 10 0), .sched 0 (), .sched 0 (), .call .clearDNSCache, .sched 1 (), .sched 1 (),
   .call (.saveDNSCacheAsync 20 0), .sched 2 (),
   .sched 0 (), .sched 0 (), .sched 2 (),
   .call .loadDNSCache, .sched 3 (), .sched 3 ()]

/-- The load returns the value queued before the clear, which had returned, and not the one queued after it. -/
theorem outlived_clear_shows_old_value : ∃ c, runOf (program ℕ).step (Config.init {}) outlivedClear = some c ∧
      c.shared.returned = [⟨some (10, 0), some 1, 2, 1, 1⟩] ∧ ¬AllLatest c := by
  refine ⟨_, rfl, rfl, fun h => ?_⟩
  have := (h _ List.mem_cons_self 1 rfl).2
  exact absurd this (by decide)

/-- The same calls, when the goroutine has ended before the clear. -/
def flushedBeforeClear : List (Event Unit (Call ℕ)) :=
  [.call (.saveDNSCacheAsync 10 0), .sched 0 (), .sched 0 (), .sched 0 (), .sched 0 (),
   .call .clearDNSCache, .sched 1 (), .sched 1 (),
   .call (.saveDNSCacheAsync 20 0), .sched 2 (), .sched 2 (), .sched 2 (), .sched 2 (),
   .call .loadDNSCache, .sched 3 (), .sched 3 ()]

/-- No goroutine outlives the clear, and every load shows the latest value. -/
theorem allLatest_flushedBeforeClear : StepAll (program ℕ).step FlushInEpoch (Config.init {}) flushedBeforeClear ∧
      VisitAll (program ℕ).step AllLatest (Config.init {}) flushedBeforeClear :=
  ⟨by decide, allLatest_of_flushInEpoch flushedBeforeClear (by decide)⟩

end SingBox.CacheFile
