import Mathlib.Tactic.Abel
import SingBox.Xhttp.PacketConn

/-!
# Uploads of a packet-up connection

`Write` cuts its payload into chunks and sends each with a POST of its own, numbered so that the server
can put them in order.  Numbers are taken under the lock, POSTs are started and answered outside of it,
so the chunks of several writers interleave.

The history of the uploads is an `UploadLog`.  Its invariant `UploadInv` counts: every number taken is that
of a POST, of a `sendPacket` on its way to one, or was given up; every POST started is answered, failed or
under way; every `Write` has returned or is in flight.
-/

namespace SingBox.Xhttp

open SingBox.Lib List Multiset

/-! ### The history -/

structure UploadLog where
  taken : ℕ := 0
  writes : List GoString := []
  posts : List Post := []
  answered : List Post := []
  failed : List Post := []
  abandoned : List ℕ := []
  results : List WriteResult := []

def PacketConn.uploads (c : PacketConn) : UploadLog :=
  ⟨c.taken, c.writes, c.posts, c.answered, c.failed, c.abandoned.map BitVec.toNat, c.results⟩

namespace UploadLog

/-- The POSTs of one `Write`, in the order they were started. -/
def sent (u : UploadLog) (id : ℕ) : List Post := u.posts.filter (·.writer = id)

/-- The POSTs of one `Write` that were answered 200. -/
def acked (u : UploadLog) (id : ℕ) : List Post := u.answered.filter (·.writer = id)

end UploadLog

def Post.number (p : Post) : ℕ := p.seq.toNat

def content (ps : List Post) : GoString := ps.flatMap Post.chunk

/-- The numbers that sections have taken and for which no POST was started yet. -/
def PacketOp.numbers : PacketOp → Multiset ℕ
  | .pace _ seq | .post _ seq => {seq.toNat}
  | _ => 0

def PacketOp.underWay : PacketOp → Multiset Post
  | .response w seq => {w.post seq}
  | _ => 0

def PacketOp.owner : PacketOp → Multiset ℕ
  | .writeStart id _ => {id}
  | .send w | .pace w _ | .post w _ | .response w _ | .returnWrite w _ | .fail _ (some w) => {w.id}
  | _ => 0

/-! ### Chunks -/

lemma Writer.written_le_stop {w : Writer} (h : w.written ≤ w.payload.length) : w.written ≤ w.stop := by
  unfold stop
  split <;> omega

lemma Writer.stop_le {w : Writer} : w.stop ≤ w.payload.length := by
  unfold stop
  split <;> omega

lemma Writer.take_chunk {w : Writer} (h : w.written ≤ w.payload.length) :
    w.payload.take w.written ++ w.chunk = w.payload.take w.stop := by
  have htake : w.payload.take w.written = (w.payload.take w.stop).take w.written := by
    rw [take_take, min_eq_left (written_le_stop h)]
  rw [htake, chunk, take_append_drop]

/-- What was answered of a `Write` is what it has counted. -/
structure Progress (u : UploadLog) (w : Writer) : Prop where
  payload : u.writes[w.id]? = some w.payload
  le : w.written ≤ w.payload.length
  bytes : content (u.acked w.id) = w.payload.take w.written

structure Finished (u : UploadLog) (w : Writer) : Prop extends Progress u w where
  sent : content (u.sent w.id) <+: w.payload

/-- What a section that is left says about the history. -/
def PacketOp.Ok (u : UploadLog) : PacketOp → Prop
  | .writeStart id payload => u.writes[id]? = some payload ∧ u.sent id = [] ∧ u.acked id = []
  | .send w => Progress u w ∧ u.sent w.id = u.acked w.id
  | .pace w seq | .post w seq => Progress u w ∧ u.sent w.id = u.acked w.id ∧ ∀ p ∈ u.sent w.id, p.number < seq.toNat
  | .response w seq => Progress u w ∧ u.sent w.id = u.acked w.id ++ [w.post seq]
  | .returnWrite w _ | .fail _ (some w) => Finished u w
  | _ => True

/-- Numbers increase along a list of POSTs. -/
def Increasing (ps : List Post) : Prop := ps.Pairwise fun p q => p.number < q.number

structure UploadInv (u : UploadLog) (m : Multiset PacketOp) : Prop where
  /-- Every number taken is that of a POST, or on its way to one, or given up. -/
  numbers : ((u.posts.map Post.number : List ℕ) : Multiset ℕ) + m.bind PacketOp.numbers + ↑u.abandoned =
    Multiset.range u.taken
  /-- Every POST started is answered, failed or under way. -/
  posts : (↑u.posts : Multiset Post) = ↑u.answered + ↑u.failed + m.bind PacketOp.underWay
  owners : m.bind PacketOp.owner + ((u.results.map fun r => r.writer.id : List ℕ) : Multiset ℕ) =
    Multiset.range u.writes.length
  writers : ∀ p ∈ u.posts, p.writer < u.writes.length
  sent : ∀ id, Increasing (u.sent id)
  acked : ∀ id, Increasing (u.acked id)
  ops : ∀ o ∈ m, o.Ok u
  results : ∀ r ∈ u.results, Finished u r.writer ∧ (r.err = none → r.writer.written = r.writer.payload.length)

lemma uploadInv_init : UploadInv {} 0 where
  numbers := rfl
  posts := rfl
  owners := rfl
  writers _ hp := absurd hp not_mem_nil
  sent _ := .nil
  acked _ := .nil
  ops o ho := absurd ho (notMem_zero o)
  results _ hr := absurd hr not_mem_nil

/-! ### One writer at a time -/

structure SameFor (u u' : UploadLog) (id : ℕ) : Prop where
  writes : ∀ payload, u.writes[id]? = some payload → u'.writes[id]? = some payload
  sent : u'.sent id = u.sent id
  acked : u'.acked id = u.acked id

variable {u u' : UploadLog} {w : Writer} {o : PacketOp} {m : Multiset PacketOp}

lemma Progress.congr (hs : SameFor u u' w.id) (h : Progress u w) : Progress u' w :=
  ⟨hs.writes _ h.payload, h.le, hs.acked ▸ h.bytes⟩

lemma Finished.congr (hs : SameFor u u' w.id) (h : Finished u w) : Finished u' w :=
  ⟨h.toProgress.congr hs, hs.sent ▸ h.sent⟩

lemma Progress.finished (h : Progress u w) (hs : u.sent w.id = u.acked w.id) : Finished u w := by
  refine ⟨h, ?_⟩
  rw [hs, h.bytes]
  exact take_prefix _ _

variable {seq : BitVec 64}

lemma Progress.finished_response (h : Progress u w)
    (hs : u.sent w.id = u.acked w.id ++ [w.post seq]) : Finished u w := by
  refine ⟨h, ?_⟩
  rw [hs, content, flatMap_append, ← content, h.bytes]
  show w.payload.take w.written ++ (w.chunk ++ []) <+: w.payload
  rw [append_nil, Writer.take_chunk h.le]
  exact take_prefix _ _

lemma PacketOp.Ok.congr (hs : ∀ id ∈ o.owner, SameFor u u' id) (h : o.Ok u) : o.Ok u' := by
  cases o with
  | writeStart id payload =>
    have hs := hs id (by simp [owner])
    exact ⟨hs.writes _ h.1, hs.sent.trans h.2.1, hs.acked.trans h.2.2⟩
  | send w =>
    have hs := hs w.id (by simp [owner])
    exact ⟨h.1.congr hs, by rw [hs.sent, hs.acked, h.2]⟩
  | pace w seq | post w seq =>
    have hs := hs w.id (by simp [owner])
    exact ⟨h.1.congr hs, by rw [hs.sent, hs.acked, h.2.1], by rw [hs.sent]; exact h.2.2⟩
  | response w seq =>
    have hs := hs w.id (by simp [owner])
    exact ⟨h.1.congr hs, by rw [hs.sent, hs.acked, h.2]⟩
  | returnWrite w err => exact Finished.congr (hs w.id (by simp [owner])) h
  | fail err w =>
    cases w with
    | none => trivial
    | some w => exact Finished.congr (hs w.id (by simp [owner])) h
  | _ => trivial

lemma UploadInv.head (h : UploadInv u (o ::ₘ m)) : o.Ok u := h.ops o (mem_cons_self o m)

lemma bind_replace {β : Type*} (f : PacketOp → Multiset β) (o o' : PacketOp) (h : f o = f o') :
    (o ::ₘ m).bind f = (o' ::ₘ m).bind f := by
  rw [cons_bind, cons_bind, h]

/-- A `Write` has one section that is left, and none when it has returned. -/
lemma UploadInv.owner_unique {id : ℕ} (h : UploadInv u (o ::ₘ m)) (ho : id ∈ o.owner) :
    id < u.writes.length ∧ (∀ p ∈ m, id ∉ p.owner) ∧ ∀ r ∈ u.results, r.writer.id ≠ id := by
  have hown := h.owners
  rw [cons_bind, add_assoc] at hown
  have hnd : (o.owner + (m.bind PacketOp.owner + ↑(u.results.map fun r => r.writer.id))).Nodup :=
    hown ▸ nodup_range
  have hid := disjoint_left.1 (nodup_add.1 hnd).2.2 ho
  rw [mem_add, not_or] at hid
  refine ⟨?_, fun p hp hmem => hid.1 (mem_bind.2 ⟨p, hp, hmem⟩), fun r hr hmem => hid.2 ?_⟩
  · rw [← Multiset.mem_range, ← hown]
    exact Multiset.mem_add.2 (.inl ho)
  · exact mem_coe.2 (mem_map.2 ⟨r, hr, hmem⟩)

lemma UploadInv.number_lt (h : UploadInv u m) {p : Post} (hp : p ∈ u.posts) : p.number < u.taken := by
  rw [← Multiset.mem_range, ← h.numbers, Multiset.mem_add, Multiset.mem_add]
  exact .inl (.inl (Multiset.mem_coe.2 (List.mem_map_of_mem hp)))

/-- What the other `Write`s say stays true when a section changes the history of its own `Write` only. -/
lemma UploadInv.others (h : UploadInv u (o ::ₘ m)) (hsame : ∀ id ∉ o.owner, SameFor u u' id) :
    (∀ p ∈ m, p.Ok u') ∧ ∀ r ∈ u.results, Finished u' r.writer := by
  refine ⟨fun p hp => ?_, fun r hr => ?_⟩
  · refine (h.ops p (mem_cons_of_mem hp)).congr fun id hid => hsame id fun ho => ?_
    exact (h.owner_unique ho).2.1 p hp hid
  · refine (h.results r hr).1.congr (hsame _ fun ho => ?_)
    exact (h.owner_unique ho).2.2 r hr rfl

/-! ### What the sections do -/

variable {new : List PacketOp}

lemma UploadInv.replace (h : UploadInv u (o ::ₘ m))
    (hnum : (↑new : Multiset PacketOp).bind PacketOp.numbers = o.numbers)
    (hway : (↑new : Multiset PacketOp).bind PacketOp.underWay = o.underWay)
    (hown : (↑new : Multiset PacketOp).bind PacketOp.owner = o.owner) (hok : ∀ p ∈ new, p.Ok u) :
    UploadInv u (↑new + m) := by
  refine ⟨?_, ?_, ?_, h.writers, h.sent, h.acked, fun p hp => ?_, h.results⟩
  · rw [add_bind, hnum, ← cons_bind]
    exact h.numbers
  · rw [add_bind, hway, ← cons_bind]
    exact h.posts
  · rw [add_bind, hown, ← cons_bind]
    exact h.owners
  · rcases mem_add.1 hp with hp | hp
    · exact hok p hp
    · exact h.ops p (mem_cons_of_mem hp)

/-- A `Write` returns; the number it has taken, if any, is given up. -/
lemma UploadInv.returned {err : Option ConnError} {a : List ℕ} (h : UploadInv u (o ::ₘ m))
    (hnum : o.numbers = ↑a) (hway : o.underWay = 0) (hown : o.owner = {w.id}) (hf : Finished u w)
    (herr : err = none → w.written = w.payload.length) :
    UploadInv { u with results := ⟨w, err⟩ :: u.results, abandoned := a ++ u.abandoned } m := by
  have hnumbers := h.numbers
  have hposts := h.posts
  have howners := h.owners
  rw [cons_bind, hnum] at hnumbers
  rw [cons_bind, hway, zero_add] at hposts
  rw [cons_bind, hown] at howners
  have hsame : ∀ id, SameFor u { u with results := ⟨w, err⟩ :: u.results, abandoned := a ++ u.abandoned } id :=
    fun id => ⟨fun _ h => h, rfl, rfl⟩
  obtain ⟨hops, hresults⟩ := h.others fun id _ => hsame id
  refine ⟨?_, hposts, ?_, h.writers, h.sent, h.acked, hops, fun r hr => ?_⟩
  · rw [← hnumbers, ← coe_add]
    abel
  · rw [← howners, List.map_cons, ← cons_coe]
    abel
  · rcases mem_cons.1 hr with rfl | hr
    · exact ⟨hf.congr (hsame _), herr⟩
    · exact ⟨hresults r hr, (h.results r hr).2⟩

lemma UploadInv.take {o' : PacketOp} (h : UploadInv u (.send w ::ₘ m)) (hseq : seq.toNat = u.taken)
    (ho' : o' = .pace w seq ∨ o' = .post w seq) : UploadInv { u with taken := u.taken + 1 } (o' ::ₘ m) := by
  have hsame : ∀ id, SameFor u { u with taken := u.taken + 1 } id := fun id => ⟨fun _ h => h, rfl, rfl⟩
  obtain ⟨hops, hresults⟩ := h.others fun id _ => hsame id
  have hsend : PacketOp.Ok u (.send w) := h.head
  have hlt : ∀ p ∈ u.sent w.id, p.number < seq.toNat := fun p hp => hseq ▸ h.number_lt (mem_of_mem_filter hp)
  have hok : Progress { u with taken := u.taken + 1 } w ∧ u.sent w.id = u.acked w.id ∧
      ∀ p ∈ u.sent w.id, p.number < seq.toNat := ⟨hsend.1.congr (hsame _), hsend.2, hlt⟩
  obtain ⟨hnum, hway, hown, hok'⟩ : o'.numbers = {seq.toNat} ∧ o'.underWay = 0 ∧ o'.owner = {w.id} ∧
      o'.Ok { u with taken := u.taken + 1 } := by
    rcases ho' with rfl | rfl
    · exact ⟨rfl, rfl, rfl, hok⟩
    · exact ⟨rfl, rfl, rfl, hok⟩
  refine ⟨?_, ?_, ?_, h.writers, h.sent, h.acked, fun p hp => ?_, fun r hr => ⟨hresults r hr, (h.results r hr).2⟩⟩
  · have hn := h.numbers
    rw [cons_bind, show PacketOp.numbers (.send w) = 0 from rfl] at hn
    rw [cons_bind, hnum, hseq, Multiset.range_succ, ← hn, ← singleton_add]
    abel
  · rw [bind_replace PacketOp.underWay o' (.send w) hway]
    exact h.posts
  · rw [bind_replace PacketOp.owner o' (.send w) hown]
    exact h.owners
  · rcases mem_cons.1 hp with rfl | hp
    · exact hok'
    · exact hops p hp

lemma filter_append_self (ps : List Post) (seq : BitVec 64) :
    (ps ++ [w.post seq]).filter (·.writer = w.id) = ps.filter (·.writer = w.id) ++ [w.post seq] := by
  simp [Writer.post]

lemma filter_append_other (ps : List Post) (seq : BitVec 64) {id : ℕ} (h : id ≠ w.id) :
    (ps ++ [w.post seq]).filter (·.writer = id) = ps.filter (·.writer = id) := by
  simp [Writer.post, h.symm]

attribute [local simp] PacketOp.owner

lemma UploadInv.start (h : UploadInv u (.post w seq ::ₘ m)) :
    UploadInv { u with posts := u.posts ++ [w.post seq] } (.response w seq ::ₘ m) := by
  have hsame : ∀ id ∉ PacketOp.owner (.post w seq), SameFor u { u with posts := u.posts ++ [w.post seq] } id := by
    intro id hid
    have hne : id ≠ w.id := fun heq => hid (by simp [heq])
    exact ⟨fun _ h => h, filter_append_other u.posts seq hne, rfl⟩
  obtain ⟨hops, hresults⟩ := h.others hsame
  obtain ⟨hprogress, hsent, hlt⟩ : PacketOp.Ok u (.post w seq) := h.head
  have hself : UploadLog.sent { u with posts := u.posts ++ [w.post seq] } w.id = u.sent w.id ++ [w.post seq] :=
    filter_append_self u.posts seq
  refine ⟨?_, ?_, ?_, fun p hp => ?_, fun id => ?_, h.acked, fun p hp => ?_,
    fun r hr => ⟨hresults r hr, (h.results r hr).2⟩⟩
  · have hn := h.numbers
    rw [cons_bind, show PacketOp.numbers (.post w seq) = {seq.toNat} from rfl] at hn
    rw [cons_bind, show PacketOp.numbers (.response w seq) = 0 from rfl, ← hn, map_append, ← coe_add]
    show _ + ({seq.toNat} : Multiset ℕ) + _ + _ = _
    abel
  · have hp := h.posts
    rw [cons_bind, show PacketOp.underWay (.post w seq) = 0 from rfl] at hp
    rw [cons_bind, ← coe_add, hp]
    abel
  · rw [bind_replace PacketOp.owner (.response w seq) (.post w seq) rfl]
    exact h.owners
  · rcases mem_append.1 hp with hp | hp
    · exact h.writers p hp
    · rw [List.mem_singleton.1 hp]
      exact (h.owner_unique (show w.id ∈ PacketOp.owner (.post w seq) by simp)).1
  · by_cases hid : id = w.id
    · rw [hid, hself]
      refine pairwise_append.2 ⟨h.sent w.id, pairwise_singleton _ _, fun p hp q hq => ?_⟩
      rw [List.mem_singleton.1 hq]
      exact hlt p hp
    · rw [(hsame id (by simpa using hid)).sent]
      exact h.sent id
  · rcases mem_cons.1 hp with rfl | hp
    · exact ⟨⟨hprogress.payload, hprogress.le, hprogress.bytes⟩, by rw [hself, hsent]; rfl⟩
    · exact hops p hp

lemma UploadInv.failed {e : ConnError} (h : UploadInv u (.response w seq ::ₘ m)) :
    UploadInv { u with failed := u.failed ++ [w.post seq] } (.fail e (some w) ::ₘ m) := by
  have hsame : ∀ id, SameFor u { u with failed := u.failed ++ [w.post seq] } id :=
    fun id => ⟨fun _ h => h, rfl, rfl⟩
  obtain ⟨hops, hresults⟩ := h.others fun id _ => hsame id
  obtain ⟨hprogress, hsent⟩ : PacketOp.Ok u (.response w seq) := h.head
  refine ⟨?_, ?_, ?_, h.writers, h.sent, h.acked, fun p hp => ?_, fun r hr => ⟨hresults r hr, (h.results r hr).2⟩⟩
  · rw [bind_replace PacketOp.numbers (.fail e (some w)) (.response w seq) rfl]
    exact h.numbers
  · have hp := h.posts
    rw [cons_bind, show PacketOp.underWay (.response w seq) = {w.post seq} from rfl] at hp
    rw [cons_bind, show PacketOp.underWay (.fail e (some w)) = 0 from rfl, ← coe_add, hp]
    show _ = _ + (_ + ({w.post seq} : Multiset Post)) + _
    abel
  · rw [bind_replace PacketOp.owner (.fail e (some w)) (.response w seq) rfl]
    exact h.owners
  · rcases mem_cons.1 hp with rfl | hp
    · exact (hprogress.finished_response hsent).congr (hsame _)
    · exact hops p hp

lemma UploadInv.answered (h : UploadInv u (.response w seq ::ₘ m)) :
    UploadInv { u with answered := u.answered ++ [w.post seq] } (.send { w with written := w.stop } ::ₘ m) := by
  have hsame : ∀ id ∉ PacketOp.owner (.response w seq),
      SameFor u { u with answered := u.answered ++ [w.post seq] } id := by
    intro id hid
    have hne : id ≠ w.id := fun heq => hid (by simp [heq])
    exact ⟨fun _ h => h, rfl, filter_append_other u.answered seq hne⟩
  obtain ⟨hops, hresults⟩ := h.others hsame
  obtain ⟨hprogress, hsent⟩ : PacketOp.Ok u (.response w seq) := h.head
  have hself : UploadLog.acked { u with answered := u.answered ++ [w.post seq] } w.id = u.sent w.id := by
    rw [hsent]
    exact filter_append_self u.answered seq
  refine ⟨?_, ?_, ?_, h.writers, h.sent, fun id => ?_, fun p hp => ?_,
    fun r hr => ⟨hresults r hr, (h.results r hr).2⟩⟩
  · rw [bind_replace PacketOp.numbers (.send { w with written := w.stop }) (.response w seq) rfl]
    exact h.numbers
  · have hp := h.posts
    rw [cons_bind, show PacketOp.underWay (.response w seq) = {w.post seq} from rfl] at hp
    rw [cons_bind, show PacketOp.underWay (.send { w with written := w.stop }) = 0 from rfl, ← coe_add, hp]
    show _ = _ + ({w.post seq} : Multiset Post) + _ + _
    abel
  · rw [bind_replace PacketOp.owner (.send { w with written := w.stop }) (.response w seq) rfl]
    exact h.owners
  · by_cases hid : id = w.id
    · rw [hid, hself]
      exact h.sent w.id
    · rw [(hsame id (by simpa using hid)).acked]
      exact h.acked id
  · rcases mem_cons.1 hp with rfl | hp
    · refine ⟨⟨hprogress.payload, Writer.stop_le, ?_⟩, hself.symm⟩
      rw [hself, hsent, content, flatMap_append, ← content, hprogress.bytes]
      show w.payload.take w.written ++ (w.chunk ++ []) = _
      rw [append_nil, Writer.take_chunk hprogress.le]
    · exact hops p hp

lemma UploadInv.write {payload : GoString} (h : UploadInv u m) :
    UploadInv { u with writes := u.writes ++ [payload] } (.writeStart u.writes.length payload ::ₘ m) := by
  have hsame : ∀ id, SameFor u { u with writes := u.writes ++ [payload] } id := by
    refine fun id => ⟨fun p hp => ?_, rfl, rfl⟩
    obtain ⟨hlt, -⟩ := List.getElem?_eq_some_iff.1 hp
    exact (List.getElem?_append_left hlt).trans hp
  have hanswered : ∀ p ∈ u.answered, p ∈ u.posts := by
    intro p hp
    rw [← mem_coe, h.posts, mem_add, mem_add]
    exact .inl (.inl hp)
  have hfresh : ∀ ps : List Post, (∀ p ∈ ps, p ∈ u.posts) → ps.filter (·.writer = u.writes.length) = [] := by
    intro ps hps
    refine filter_eq_nil_iff.2 fun p hp hw => ?_
    have hlt := h.writers p (hps p hp)
    simp only [decide_eq_true_eq] at hw
    omega
  refine ⟨?_, ?_, ?_, fun p hp => ?_, h.sent, h.acked, fun p hp => ?_, fun r hr => ?_⟩
  · rw [cons_bind, show PacketOp.numbers (.writeStart _ _) = 0 from rfl, zero_add]
    exact h.numbers
  · rw [cons_bind, show PacketOp.underWay (.writeStart _ _) = 0 from rfl, zero_add]
    exact h.posts
  · rw [cons_bind, show PacketOp.owner (.writeStart u.writes.length payload) = {u.writes.length} from rfl,
      add_assoc, h.owners, length_append, length_singleton, Multiset.range_succ, singleton_add]
  · have hlt := h.writers p hp
    rw [length_append]
    omega
  · rcases mem_cons.1 hp with rfl | hp
    · exact ⟨getElem?_concat_length, hfresh u.posts fun _ h => h, hfresh u.answered hanswered⟩
    · exact (h.ops p hp).congr fun id _ => hsame id
  · exact ⟨(h.results r hr).1.congr (hsame _), (h.results r hr).2⟩

/-! ### Sections that have no part in uploads -/

lemma PacketOp.neutral (u : UploadLog) (h : o.owner = 0) : o.numbers = 0 ∧ o.underWay = 0 ∧ o.Ok u := by
  cases o with
  | writeStart | send | pace | post | response | returnWrite => exact absurd h (singleton_ne_zero _)
  | fail err w =>
    cases w with
    | none => exact ⟨rfl, rfl, trivial⟩
    | some w => exact absurd h (singleton_ne_zero _)
  | _ => exact ⟨rfl, rfl, trivial⟩

lemma UploadInv.drop (h : UploadInv u (o ::ₘ m)) (ho : o.owner = 0) : UploadInv u m := by
  obtain ⟨hnum, hway, -⟩ := PacketOp.neutral u ho
  obtain ⟨h1, h2, h3, h4, h5, h6, h7, h8⟩ := h
  rw [cons_bind, hnum, zero_add] at h1
  rw [cons_bind, hway, zero_add] at h2
  rw [cons_bind, ho, zero_add] at h3
  exact ⟨h1, h2, h3, h4, h5, h6, fun p hp => h7 p (mem_cons_of_mem hp), h8⟩

lemma UploadInv.add (h : UploadInv u m) (hnew : ∀ p ∈ new, p.owner = 0) : UploadInv u (↑new + m) := by
  induction new with
  | nil => rwa [pending_nil_add]
  | cons o new ih =>
    obtain ⟨hnum, hway, hok⟩ := PacketOp.neutral u (hnew o (by simp))
    obtain ⟨h1, h2, h3, h4, h5, h6, h7, h8⟩ := ih fun p hp => hnew p (mem_cons_of_mem _ hp)
    rw [pending_cons_add]
    refine ⟨?_, ?_, ?_, h4, h5, h6, fun p hp => ?_, h8⟩
    · rwa [cons_bind, hnum, zero_add]
    · rwa [cons_bind, hway, zero_add]
    · rwa [cons_bind, hnew o (by simp), zero_add]
    · rcases mem_cons.1 hp with rfl | hp
      · exact hok
      · exact h7 p hp

lemma UploadInv.neutral (h : UploadInv u (o ::ₘ m)) (ho : o.owner = 0)
    (hnew : ∀ p ∈ new, p.owner = 0) : UploadInv u (↑new + m) := (h.drop ho).add hnew

end SingBox.Xhttp
