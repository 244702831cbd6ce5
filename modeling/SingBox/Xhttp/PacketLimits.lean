import SingBox.Xhttp.PacketConn

/-!
# The limits of packet-up

`sc_max_each_post_bytes` bounds the size of an upload and `sc_min_posts_interval_ms` the pause between two uploads
(`packetConn.Write` and `nextPostDelay` in `transport/v2rayxhttp/conn.go`).  Both are ranges from which a value is drawn
each time, and both may contain values that are not positive: `"0-10"` is accepted, and so is `"5--3"`.

* A limit that is not positive means that the whole payload is sent at once, whatever the upper end of the range is.
* An interval that is not positive makes the current time the last slot, also when later slots are already taken.  And
  milliseconds become a `time.Duration`, which overflows.
-/

namespace SingBox.Xhttp

open SingBox.Lib List

/-! ### The size of an upload -/

/-- The chunks the loop of `Write` hands to `sendPacket`, whose calls return nil as `ok` says; `none` when the fuel does
not suffice. -/
def Writer.sends : ℕ → (ℕ → Bool) → Writer → Option (List GoString)
  | 0, _, _ => none
  | fuel + 1, ok, w =>
    if w.written < w.payload.length then
      if ok 0 then (sends fuel (fun i => ok (i + 1)) { w with written := w.stop }).map (w.chunk :: ·)
      else some [w.chunk]
    else some []

/-- The uploads of a `Write` on a connection that has not failed. -/
def writePosts (cfg : PacketConfig) (payload : GoString) (draw : ℕ) (ok : ℕ → Bool) : Option (List GoString) :=
  Writer.sends (payload.length + 1) ok ⟨0, payload, maxEach cfg payload draw, 0⟩

lemma Writer.length_chunk {w : Writer} (h : w.written ≤ w.payload.length) :
    w.chunk.length = min w.maxEach (w.payload.length - w.written) := by
  rw [chunk, length_drop, length_take, stop]
  split <;> omega

lemma Writer.sends_spec {w : Writer} {fuel : ℕ} (ok : ℕ → Bool) (hpos : 0 < w.maxEach)
    (hle : w.written ≤ w.payload.length) (hfuel : w.payload.length - w.written < fuel) :
    ∃ posts, w.sends fuel ok = some posts ∧
      ∀ p ∈ posts, 1 ≤ p.length ∧ p.length ≤ w.maxEach ∧ p.length ≤ w.payload.length := by
  induction fuel generalizing w ok with
  | zero => omega
  | succ fuel ih =>
    rw [sends]
    split
    · have hchunk : 1 ≤ w.chunk.length ∧ w.chunk.length ≤ w.maxEach ∧ w.chunk.length ≤ w.payload.length := by
        rw [length_chunk hle]
        omega
      split
      · have hstop : w.written < w.stop ∧ w.stop ≤ w.payload.length := by
          rw [stop]
          split <;> omega
        obtain ⟨posts, hposts, hall⟩ := ih (w := { w with written := w.stop }) (fun i => ok (i + 1)) hpos
          hstop.2 (by dsimp only; omega)
        refine ⟨w.chunk :: posts, by rw [hposts]; rfl, forall_mem_cons.2 ⟨hchunk, hall⟩⟩
      · exact ⟨[w.chunk], rfl, by simpa using hchunk⟩
    · exact ⟨[], rfl, by simp⟩

lemma Writer.chunk_mem_sends {w : Writer} {fuel : ℕ} {ok : ℕ → Bool} {posts : List GoString}
    (hlt : w.written < w.payload.length) (h : w.sends fuel ok = some posts) : w.chunk ∈ posts := by
  cases fuel with
  | zero => cases h
  | succ fuel =>
    rw [sends, if_pos hlt] at h
    split at h
    · obtain ⟨rest, -, rfl⟩ := Option.map_eq_some_iff.1 h
      exact mem_cons_self
    · cases h
      exact mem_singleton_self _

lemma writePosts_spec (cfg : PacketConfig) (payload : GoString) (draw : ℕ) (ok : ℕ → Bool) :
    ∃ posts, writePosts cfg payload draw ok = some posts ∧ ∀ p ∈ posts,
      1 ≤ p.length ∧ p.length ≤ maxEach cfg payload draw ∧ p.length ≤ payload.length := by
  by_cases hnil : payload = []
  · subst hnil
    exact ⟨[], by simp [writePosts, Writer.sends], by simp⟩
  · have hpos : 0 < maxEach cfg payload draw := by
      have := length_pos_of_ne_nil hnil
      unfold maxEach
      split <;> omega
    exact Writer.sends_spec _ hpos (Nat.zero_le _) (by dsimp only; omega)

/-- **The size of an upload.**  For every option that is accepted with a positive upper end, the loop of `Write` ends;
its uploads have between one byte and the upper end exactly when the limit that was drawn is positive or the payload is
not larger than the upper end.  All limits are positive exactly when the lower end is. -/
theorem write_posts_bounded_iff {raw : GoString} {r : IntRange}
    (hr : parseRangeOr raw "sc_max_each_post_bytes" ⟨1000000, 1000000⟩ = .ok r) (hmax : 0 < r.max) :
    (∀ (cfg : PacketConfig) payload draw ok, cfg.scMaxEachPostBytes = r →
      ∃ posts, writePosts cfg payload draw ok = some posts ∧
        ((∀ p ∈ posts, 1 ≤ p.length ∧ (p.length : ℤ) ≤ r.max) ↔ 0 < r.rand draw ∨ (payload.length : ℤ) ≤ r.max)) ∧
    ((∀ draw, 0 < r.rand draw) ↔ 0 < r.min) := by
  have hwf : r.WF := parseRangeOr_wf ⟨by decide, by decide, by decide⟩ hr
  refine ⟨fun cfg payload draw ok hcfg => ?_, fun h => ?_, fun h draw => lt_of_lt_of_le h (hwf.min_le_rand draw)⟩
  · obtain ⟨posts, hposts, hall⟩ := writePosts_spec cfg payload draw ok
    refine ⟨posts, hposts, fun h => ?_, fun h p hp => ?_⟩
    · by_contra hnot
      push Not at hnot
      -- the whole payload is the first chunk
      have heach : maxEach cfg payload draw = payload.length := by
        rw [maxEach, hcfg, if_pos hnot.1]
      have hmem := Writer.chunk_mem_sends (by dsimp only; omega) hposts
      have hlen := (h _ hmem).2
      rw [Writer.length_chunk (Nat.zero_le _)] at hlen
      dsimp only at hlen
      omega
    · obtain ⟨h1, heach, hlen⟩ := hall p hp
      refine ⟨h1, ?_⟩
      rcases h with h | h
      · have hrand := hwf.rand_le draw
        rw [maxEach, hcfg, if_neg (by omega)] at heach
        omega
      · omega
  · have := h 0
    rwa [IntRange.rand_zero hwf] at this

/-- Three bytes with the default limit. -/
theorem write_posts_bounded_default :
    ∃ posts, writePosts { scMaxEachPostBytes := ⟨1000000, 1000000⟩, scMinPostsIntervalMs := ⟨30, 30⟩ } [1, 2, 3] 0
      (fun _ => true) = some posts ∧ ∀ p ∈ posts, 1 ≤ p.length ∧ (p.length : ℤ) ≤ 1000000 := by
  obtain ⟨hposts, hpos⟩ := write_posts_bounded_iff (show parseRangeOr [] _ _ = _ from rfl) (by decide)
  obtain ⟨posts, heq, hiff⟩ := hposts { scMaxEachPostBytes := ⟨1000000, 1000000⟩, scMinPostsIntervalMs := ⟨30, 30⟩ }
    [1, 2, 3] 0 (fun _ => true) rfl
  exact ⟨posts, heq, hiff.2 (.inl (hpos.2 (by decide) 0))⟩

/-- With `"0-10"` and the draw of the lower end, eleven bytes are sent in one upload. -/
theorem write_posts_exceed : parseRangeOr (ascii "0-10") "sc_max_each_post_bytes" ⟨1000000, 1000000⟩ = .ok ⟨0, 10⟩ ∧
      writePosts { scMaxEachPostBytes := ⟨0, 10⟩, scMinPostsIntervalMs := ⟨30, 30⟩ } (replicate 11 0) 0
        (fun _ => true) = some [replicate 11 0] := by
  decide

/-! ### The uploads of a run -/

/-- One of the uploads of a `Write` with one of these payloads. -/
def IsUpload (cfg : PacketConfig) (writes : List GoString) (chunk : GoString) : Prop :=
  ∃ payload ∈ writes, ∃ draw posts, writePosts cfg payload draw (fun _ => true) = some posts ∧ chunk ∈ posts

/-- The loop of `Write` comes to the writer. -/
def Writer.Comes (cfg : PacketConfig) (writes : List GoString) (w : Writer) : Prop :=
  w.payload ∈ writes ∧ ∃ draw fuel sent rest, writePosts cfg w.payload draw (fun _ => true) = some (sent ++ rest) ∧
    Writer.sends fuel (fun _ => true) { w with id := 0 } = some rest

def PacketOp.Comes (cfg : PacketConfig) (writes : List GoString) : PacketOp → Prop
  | .writeStart _ payload => payload ∈ writes
  | .send w | .pace w _ | .post w _ | .response w _ => w.written < w.payload.length ∧ w.Comes cfg writes
  | _ => True

section Run

variable {cfg : PacketConfig} {writes writes' : List GoString} {w : Writer} {c c' : PacketConn} {new : List PacketOp}

lemma PacketOp.Comes.mono {o : PacketOp} (h : writes ⊆ writes') (ho : o.Comes cfg writes) : o.Comes cfg writes' := by
  cases o with
  | writeStart id payload => exact h ho
  | send w | pace w seq | post w seq | response w seq => exact ⟨ho.1, h ho.2.1, ho.2.2⟩
  | _ => trivial

lemma Writer.Comes.isUpload (h : w.Comes cfg writes) (hlt : w.written < w.payload.length) :
    IsUpload cfg writes w.chunk := by
  obtain ⟨hmem, draw, fuel, sent, rest, hposts, hrest⟩ := h
  exact ⟨_, hmem, draw, _, hposts, mem_append_right _ (chunk_mem_sends (w := { w with id := 0 }) hlt hrest)⟩

lemma Writer.Comes.next (h : w.Comes cfg writes) (hlt : w.written < w.payload.length) :
    Writer.Comes cfg writes { w with written := w.stop } := by
  obtain ⟨hmem, draw, fuel, sent, rest, hposts, hrest⟩ := h
  cases fuel with
  | zero => cases hrest
  | succ fuel =>
    rw [sends, if_pos hlt, if_pos rfl] at hrest
    obtain ⟨rest', hrest', rfl⟩ := Option.map_eq_some_iff.1 hrest
    refine ⟨hmem, draw, fuel, sent ++ [w.chunk], rest', ?_, hrest'⟩
    rw [append_assoc]
    exact hposts

/-- A section starts no POST but the next upload of its `Write`. -/
def KeepsPosts (cfg : PacketConfig) (c c' : PacketConn) (new : List PacketOp) : Prop :=
  c'.writes = c.writes ∧ (∀ p ∈ c'.posts, p ∈ c.posts ∨ IsUpload cfg c.writes p.chunk) ∧
    ∀ o ∈ new, o.Comes cfg c.writes

lemma Writer.Comes.loop (hl : some (c.loop w) = some (c', new)) (h : w.Comes cfg c.writes) :
    KeepsPosts cfg c c' new := by
  unfold PacketConn.loop at hl
  split at hl <;> cases hl
  next hlt => exact ⟨rfl, fun _ => .inl, by simpa using ⟨hlt, h⟩⟩
  · exact ⟨rfl, fun _ => .inl, by simp⟩

lemma packetOp_keepsPosts {o : PacketOp} {x : ConnInput} (hx : o.exec cfg x c = some (c', new))
    (ho : o.Comes cfg c.writes) : KeepsPosts cfg c c' new := by
  cases o with
  | writeStart id payload =>
    simp only [PacketOp.exec] at hx
    split at hx
    · cases hx
      exact ⟨rfl, fun _ => .inl, by simp⟩
    · obtain ⟨posts, hposts, -⟩ := writePosts_spec cfg payload x.draw fun _ => true
      exact Writer.Comes.loop hx ⟨ho, x.draw, _, [], posts, hposts, hposts⟩
  | send w | pace w seq =>
    simp only [PacketOp.exec] at hx
    repeat' split at hx
    all_goals cases hx
    all_goals first
      | exact ⟨rfl, fun _ => .inl, forall_mem_nil _⟩
      | exact ⟨rfl, fun _ => .inl, forall_mem_singleton.2 ho⟩
  | post w seq =>
    simp only [PacketOp.exec] at hx
    split at hx <;> cases hx
    · exact ⟨rfl, fun _ => .inl, by simp⟩
    · refine ⟨rfl, fun p hp => (mem_append.1 hp).imp_right fun hp => ?_, forall_mem_singleton.2 ho⟩
      rw [mem_singleton.1 hp]
      exact ho.2.isUpload ho.1
  | response w seq =>
    simp only [PacketOp.exec] at hx
    split at hx
    · cases hx
      exact ⟨rfl, fun _ => .inl, forall_mem_singleton.2 trivial⟩
    · split at hx
      · cases hx
        exact ⟨rfl, fun _ => .inl, forall_mem_singleton.2 trivial⟩
      · exact (Writer.Comes.loop hx (ho.2.next ho.1) :)
  | _ =>
    simp only [PacketOp.exec, PacketConn.failRest, PacketConn.closeRest, PacketConn.onExpire] at hx
    repeat' split at hx
    all_goals cases hx
    all_goals exact ⟨rfl, fun _ => .inl, by simp [PacketOp.Comes, or_imp, forall_and]⟩

/-- **Every upload of a run is one of the uploads of a `Write`**, whatever the interleaving. -/
theorem posts_are_uploads (cfg : PacketConfig) (es : List (Event ConnInput PacketCall)) :
    VisitAll (packetProgram cfg).step (fun s => ∀ p ∈ s.shared.posts, IsUpload cfg s.shared.writes p.chunk)
      (.init {}) es := by
  refine (visitAll_of_inv (Program.step_inv (P := packetProgram cfg)
    (fun c m => (∀ o ∈ m, o.Comes cfg c.writes) ∧ ∀ p ∈ c.posts, IsUpload cfg c.writes p.chunk) ?_ ?_) es
    ⟨by simp, by simp⟩).imp fun _ h => h.2
  · rintro k c m ⟨hm, hp⟩
    have hsub : c.writes ⊆ (k.entry c).1.writes := by cases k <;> simp [PacketCall.entry]
    refine ⟨fun o ho => ?_, fun p h => (hp p ?_).imp fun _ h => h.imp_left fun hb => hsub hb⟩
    · rcases Multiset.mem_add.1 ho with ho | ho
      · cases k with
        | readTimer now =>
          obtain ⟨g, -, rfl⟩ := mem_map.1 ho
          trivial
        | _ => simp_all [packetProgram, PacketCall.entry, PacketOp.Comes]
      · exact (hm o ho).mono hsub
    · cases k <;> exact h
  · rintro o x c c' new m hx ⟨hm, hp⟩
    obtain ⟨hw, hposts, hnew⟩ := packetOp_keepsPosts hx (hm o (Multiset.mem_cons_self o m))
    rw [hw]
    refine ⟨fun o ho => ?_, fun p h => (hposts p h).elim (hp p) id⟩
    exact (Multiset.mem_add.1 ho).elim (hnew o) fun ho => hm o (Multiset.mem_cons_of_mem ho)

end Run

/-! ### The pause between uploads -/

/-- A send instant, and the interval that was drawn for it, in nanoseconds. -/
structure Slot where
  instant : ℤ
  interval : ℤ
  deriving DecidableEq

/-- A connection and the instants `nextPostDelay` has scheduled, the last one first. -/
structure Pacing where
  conn : PacketConn := {}
  scheduled : List Slot := []

/-- The interval a call draws, as a number of nanoseconds. -/
def drawnInterval (cfg : PacketConfig) (x : ConnInput) : ℤ := cfg.scMinPostsIntervalMs.rand x.draw * 1000000

def Pacing.call (cfg : PacketConfig) (p : Pacing) (x : ConnInput) : Option Pacing :=
  some ⟨{ p.conn with lastPost := (p.conn.nextPostDelay cfg x).1 },
    ⟨x.now + (p.conn.nextPostDelay cfg x).2, drawnInterval cfg x⟩ :: p.scheduled⟩

/-- Every instant is not before the previous one, and at least its own interval after it. -/
def Paced : List Slot → Prop
  | later :: earlier :: rest =>
    earlier.instant ≤ later.instant ∧ earlier.instant + later.interval ≤ later.instant ∧ Paced (earlier :: rest)
  | _ => True

/-- The call comes after the last slot and the interval that follows it; or the interval is positive and a duration, and
so is the time until the slot. -/
def Timely (cfg : PacketConfig) (p : Pacing) (x : ConnInput) : Prop :=
  ∀ last ∈ p.conn.lastPost, last + max 0 (drawnInterval cfg x) ≤ x.now ∨
    (0 < drawnInterval cfg x ∧ drawnInterval cfg x < 2 ^ 63 ∧ last + drawnInterval cfg x - x.now < 2 ^ 63)

instance (cfg : PacketConfig) (p : Pacing) (x : ConnInput) : Decidable (Timely cfg p x) :=
  inferInstanceAs (Decidable (∀ last ∈ p.conn.lastPost, last + max 0 (drawnInterval cfg x) ≤ x.now ∨
    (0 < drawnInterval cfg x ∧ drawnInterval cfg x < 2 ^ 63 ∧ last + drawnInterval cfg x - x.now < 2 ^ 63)))

def Pacing.Linked (p : Pacing) : Prop := p.conn.lastPost = p.scheduled.head?.map Slot.instant

section Pacing

variable {cfg : PacketConfig} {p t : Pacing} {x : ConnInput}

lemma Pacing.call_first (hlinked : p.Linked) (hnone : p.conn.lastPost = none) (h : p.call cfg x = some t) :
    t.Linked ∧ Paced t.scheduled := by
  obtain rfl : t = _ := (Option.some.inj h).symm
  have hempty : p.scheduled = [] := by simpa [Pacing.Linked, hnone] using hlinked
  simp [Pacing.Linked, PacketConn.nextPostDelay, hnone, hempty, Paced]

variable {last : ℤ}

lemma nextPostDelay_some (hlast : p.conn.lastPost = some last) : p.conn.nextPostDelay cfg x =
      if int64 (drawnInterval cfg x) ≤ 0 then (some x.now, 0) else if x.now < last + int64 (drawnInterval cfg x) then
        (some (last + int64 (drawnInterval cfg x)), min (last + int64 (drawnInterval cfg x) - x.now) (2 ^ 63 - 1))
      else (some x.now, 0) := by
  rw [PacketConn.nextPostDelay, hlast]
  rfl

lemma int64_lt (z : ℤ) : int64 z < 2 ^ 63 := by
  unfold int64
  rw [Int.bmod_def]
  split <;> omega

lemma Pacing.call_timely (hlast : p.conn.lastPost = some last) (htimely : Timely cfg p x) :
    last ≤ x.now + (p.conn.nextPostDelay cfg x).2 ∧
      last + drawnInterval cfg x ≤ x.now + (p.conn.nextPostDelay cfg x).2 ∧
      (p.conn.nextPostDelay cfg x).1 = some (x.now + (p.conn.nextPostDelay cfg x).2) := by
  have hlt := int64_lt (drawnInterval cfg x)
  rw [nextPostDelay_some hlast]
  rcases htimely last hlast with h | ⟨hpos, hfits, hwait⟩
  · -- also an interval that has become positive by an overflow is waited for
    split
    · exact ⟨by dsimp only; omega, by dsimp only; omega, by simp⟩
    · split
      · rw [min_eq_left (by omega)]
        exact ⟨by dsimp only; omega, by dsimp only; omega, by simp⟩
      · exact ⟨by dsimp only; omega, by dsimp only; omega, by simp⟩
  · rw [int64_of_mem (by omega) hfits, if_neg (by omega)]
    split
    · rw [min_eq_left (by omega)]
      exact ⟨by dsimp only; omega, by dsimp only; omega, by simp⟩
    · exact ⟨by dsimp only; omega, by dsimp only; omega, by simp⟩

/-- A call that keeps the pace is timely, unless it draws an interval below every duration. -/
lemma Pacing.timely_of_paced (hlast : p.conn.lastPost = some last)
    (hlow : -(2 ^ 63) ≤ drawnInterval cfg x) (h1 : last ≤ x.now + (p.conn.nextPostDelay cfg x).2)
    (h2 : last + drawnInterval cfg x ≤ x.now + (p.conn.nextPostDelay cfg x).2) : Timely cfg p x := by
  rintro last' hlast'
  obtain rfl : last = last' := Option.some.inj (hlast.symm.trans hlast')
  rw [nextPostDelay_some hlast] at h1 h2
  by_cases hfits : drawnInterval cfg x < 2 ^ 63
  · rw [int64_of_mem hlow hfits] at h1 h2
    split at h1
    · omega
    · rw [if_neg ‹_›] at h2
      split at h1
      · rw [if_pos ‹_›] at h2
        omega
      · omega
  · -- an interval that overflows is not waited for
    have hwrap : int64 (drawnInterval cfg x) < drawnInterval cfg x := lt_of_lt_of_le (int64_lt _) (not_lt.1 hfits)
    split at h2
    · omega
    · split at h2
      · omega
      · omega

lemma Pacing.scheduled_of_linked (hlinked : p.Linked) (hlast : p.conn.lastPost = some last) :
    ∃ slot rest, p.scheduled = slot :: rest ∧ slot.instant = last := by
  rw [Pacing.Linked, hlast] at hlinked
  cases hsched : p.scheduled with
  | nil => simp [hsched] at hlinked
  | cons slot rest => exact ⟨slot, rest, rfl, by simpa [hsched] using hlinked.symm⟩

lemma Pacing.call_paced (hcall : p.call cfg x = some t) (htimely : Timely cfg p x)
    (hp : p.Linked ∧ Paced p.scheduled) : t.Linked ∧ Paced t.scheduled := by
  obtain ⟨hlinked, hpaced⟩ := hp
  cases hlast : p.conn.lastPost with
  | none => exact Pacing.call_first hlinked hlast hcall
  | some last =>
    obtain rfl : t = _ := (Option.some.inj hcall).symm
    obtain ⟨h1, h2, h3⟩ := Pacing.call_timely hlast htimely
    obtain ⟨slot, rest, hsched, rfl⟩ := Pacing.scheduled_of_linked hlinked hlast
    refine ⟨by simp [Pacing.Linked, h3], ?_⟩
    rw [hsched] at hpaced ⊢
    exact ⟨h1, h2, hpaced⟩

lemma Pacing.timely_of_call (hcall : p.call cfg x = some t) (hlow : -(2 ^ 63) ≤ drawnInterval cfg x)
    (hlinked : p.Linked) (ht : Paced t.scheduled) : Timely cfg p x := by
  cases hlast : p.conn.lastPost with
  | none =>
    intro last h
    rw [hlast] at h
    cases h
  | some last =>
    obtain rfl : t = _ := (Option.some.inj hcall).symm
    obtain ⟨slot, rest, hsched, rfl⟩ := Pacing.scheduled_of_linked hlinked hlast
    rw [hsched] at ht
    exact Pacing.timely_of_paced hlast hlow ht.1 ht.2.1

lemma Pacing.visitAll_iff (hlow : ∀ x, -(2 ^ 63) ≤ drawnInterval cfg x) (xs : List ConnInput) (hlinked : p.Linked)
    (hpaced : Paced p.scheduled) :
    VisitAll (Pacing.call cfg) (fun p => Paced p.scheduled) p xs ↔ StepAll (Pacing.call cfg) (Timely cfg) p xs := by
  induction xs generalizing p with
  | nil => exact iff_of_true hpaced trivial
  | cons x xs ih =>
    constructor
    · rintro ⟨-, hrest⟩ t ht
      have htimely := Pacing.timely_of_call ht (hlow x) hlinked (hrest t ht).head
      obtain ⟨hlinked', hpaced'⟩ := Pacing.call_paced ht htimely ⟨hlinked, hpaced⟩
      exact ⟨htimely, (ih hlinked' hpaced').1 (hrest t ht)⟩
    · intro hsteps
      refine ⟨hpaced, fun t ht => ?_⟩
      obtain ⟨hlinked', hpaced'⟩ := Pacing.call_paced ht (hsteps t ht).1 ⟨hlinked, hpaced⟩
      exact (ih hlinked' hpaced').2 (hsteps t ht).2

end Pacing

/-- **The pause between uploads.**  If every call on a new connection is timely, then the scheduled instants never go
back and each is at least its own interval after the previous one.  Where the lower end of the range is a duration,
these are the only such sequences. -/
theorem posts_paced_of_timely (cfg : PacketConfig) (xs : List ConnInput) :
    (StepAll (Pacing.call cfg) (Timely cfg) {} xs → VisitAll (Pacing.call cfg) (fun p => Paced p.scheduled) {} xs) ∧
    (cfg.scMinPostsIntervalMs.WF → -(2 ^ 63) ≤ cfg.scMinPostsIntervalMs.min * 1000000 →
      VisitAll (Pacing.call cfg) (fun p => Paced p.scheduled) {} xs →
      StepAll (Pacing.call cfg) (Timely cfg) {} xs) := by
  refine ⟨fun h => ?_, fun hwf hlow h => ?_⟩
  · refine (visitAll_of_stepAll (I := fun p : Pacing => p.Linked ∧ Paced p.scheduled) ?_ xs
      ⟨show Pacing.Linked {} from rfl, trivial⟩ h).imp fun p hp => hp.2
    exact fun p x t => Pacing.call_paced
  · refine (Pacing.visitAll_iff (fun x => ?_) xs (show Pacing.Linked {} from rfl) trivial).1 h
    have := hwf.min_le_rand x.draw
    unfold drawnInterval
    omega

/-- Three uploads at once, thirty milliseconds apart. -/
theorem posts_paced_of_timely_burst :
    VisitAll (Pacing.call { scMaxEachPostBytes := ⟨1000000, 1000000⟩, scMinPostsIntervalMs := ⟨30, 30⟩ })
      (fun p => Paced p.scheduled) {} [{ now := 5 }, { now := 5 }, { now := 5 }] := by
  exact (posts_paced_of_timely _ _).1 (by decide)

/-- With `"0-30"`: the second call takes the slot after thirty milliseconds, and the third one, which draws zero, the
present. -/
theorem posts_paced_backwards : parseRangeOr (ascii "0-30") "sc_min_posts_interval_ms" ⟨30, 30⟩ = .ok ⟨0, 30⟩ ∧
      (runOf (Pacing.call { scMaxEachPostBytes := ⟨1000000, 1000000⟩, scMinPostsIntervalMs := ⟨0, 30⟩ }) {}
        [{ now := 5, draw := 30 }, { now := 5, draw := 30 }, { now := 5, draw := 0 }]).map (·.scheduled) =
      some [⟨5, 0⟩, ⟨30000005, 30000000⟩, ⟨5, 30000000⟩] := by
  decide

end SingBox.Xhttp
