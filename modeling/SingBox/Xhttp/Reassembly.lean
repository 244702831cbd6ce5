import SingBox.Xhttp.Upload

/-!
# What the server can reassemble

Every section of a packet-up connection keeps the invariant of its uploads, so every run does
(`packetInv_run`).  `UploadOk` is what the invariant means to the server, `upload_reassembly` the result.
-/

namespace SingBox.Xhttp

open SingBox.Lib List Multiset

variable {u : UploadLog} {w : Writer} {o : PacketOp} {m : Multiset PacketOp}

/-! ### Every section keeps the invariant -/

section

variable {cfg : PacketConfig} {x : ConnInput} {c c' : PacketConn} {new : List PacketOp}

lemma UploadInv.loop (h : UploadInv c.uploads (.send w ::ₘ m)) :
    UploadInv (c.loop w).1.uploads (↑(c.loop w).2 + m) := by
  unfold PacketConn.loop
  split
  · rw [pending_cons_add, pending_nil_add]
    exact h
  · obtain ⟨hprogress, hsent⟩ : PacketOp.Ok c.uploads (.send w) := h.head
    rw [pending_nil_add]
    refine h.returned rfl rfl rfl (hprogress.finished hsent) fun _ => ?_
    have hle := hprogress.le
    omega

attribute [local simp] PacketOp.owner

lemma UploadInv.fail {err e : ConnError} {v : Option Writer} (h : UploadInv u (.fail err v ::ₘ m)) :
    UploadInv u (↑(v.toList.map (PacketOp.returnWrite · e)) + m) := by
  cases v with
  | none => exact h.neutral rfl (by simp)
  | some w =>
    refine h.replace rfl rfl rfl ?_
    have hok : PacketOp.Ok u (.fail err (some w)) := h.head
    simpa [PacketOp.Ok] using hok

/-- A section keeps the invariant, as long as no number comes again. -/
def KeepsUploads (cfg : PacketConfig) (o : PacketOp) : Prop :=
  ∀ ⦃x c c' new m⦄, o.exec cfg x c = some (c', new) → c.seq = .ofNat 64 c.taken → c'.taken ≤ 2 ^ 64 →
    UploadInv c.uploads (o ::ₘ m) → UploadInv c'.uploads (↑new + m)

lemma writeStart_uploads {id : ℕ} {payload : GoString} : KeepsUploads cfg (.writeStart id payload) := by
  intro x c c' new m hx hseq hle h
  obtain ⟨hpayload, hsent, hacked⟩ : PacketOp.Ok c.uploads (.writeStart id payload) := h.head
  have hprogress : ∀ n, Progress c.uploads ⟨id, payload, n, 0⟩ := by
    refine fun n => ⟨hpayload, Nat.zero_le _, ?_⟩
    rw [hacked]
    rfl
  have heq : c.uploads.sent id = c.uploads.acked id := hsent.trans hacked.symm
  simp only [PacketOp.exec] at hx
  split at hx
  · cases hx
    rw [pending_nil_add]
    exact h.returned rfl rfl rfl ((hprogress 0).finished heq) (by simp)
  · rw [Option.some.injEq] at hx
    have hsend : UploadInv c.uploads (.send ⟨id, payload, maxEach cfg payload x.draw, 0⟩ ::ₘ m) := by
      have hr : UploadInv c.uploads (↑[PacketOp.send ⟨id, payload, maxEach cfg payload x.draw, 0⟩] + m) := by
        refine h.replace rfl rfl rfl ?_
        simpa using ⟨hprogress _, heq⟩
      rwa [pending_cons_add, pending_nil_add] at hr
    have hl := hsend.loop
    rwa [hx] at hl

lemma send_uploads : KeepsUploads cfg (.send w) := by
  intro x c c' new m hx hseq hle h
  obtain ⟨hprogress, hsent⟩ : PacketOp.Ok c.uploads (.send w) := h.head
  have hreturn : ∀ e, UploadInv (c.returnWrite w (some e)).uploads m := fun e =>
    h.returned rfl rfl rfl (hprogress.finished hsent) (by simp)
  simp only [PacketOp.exec] at hx
  split at hx
  · cases hx
    rw [pending_nil_add]
    exact hreturn _
  · split at hx
    · cases hx
      rw [pending_nil_add]
      exact hreturn _
    · cases hx
      have htaken : c.seq.toNat = c.taken := by
        rw [hseq, BitVec.toNat_ofNat]
        exact Nat.mod_eq_of_lt hle
      split
      · rw [pending_cons_add, pending_nil_add]
        exact h.take htaken (.inl rfl)
      · rw [pending_cons_add, pending_nil_add]
        exact h.take htaken (.inr rfl)

variable {seq : BitVec 64}

lemma pace_uploads : KeepsUploads cfg (.pace w seq) := by
  intro x c c' new m hx hseq hle h
  have hok : PacketOp.Ok c.uploads (.pace w seq) := h.head
  simp only [PacketOp.exec] at hx
  split at hx
  · cases hx
    rw [pending_nil_add]
    exact h.returned rfl rfl rfl (hok.1.finished hok.2.1) (by simp)
  · cases hx
    refine h.replace rfl rfl rfl ?_
    simpa [PacketOp.Ok] using hok

lemma post_uploads : KeepsUploads cfg (.post w seq) := by
  intro x c c' new m hx hseq hle h
  have hok : PacketOp.Ok c.uploads (.post w seq) := h.head
  simp only [PacketOp.exec] at hx
  split at hx
  · cases hx
    rw [pending_nil_add]
    exact h.returned rfl rfl rfl (hok.1.finished hok.2.1) (by simp)
  · cases hx
    rw [pending_cons_add, pending_nil_add]
    exact h.start

lemma response_uploads : KeepsUploads cfg (.response w seq) := by
  intro x c c' new m hx hseq hle h
  simp only [PacketOp.exec] at hx
  split at hx
  · cases hx
    rw [pending_cons_add, pending_nil_add]
    exact h.failed
  · split at hx
    · cases hx
      rw [pending_cons_add, pending_nil_add]
      exact h.failed
    · rw [Option.some.injEq] at hx
      have hsend : UploadInv
          ({ c with answered := c.answered ++ [w.post seq], xmux := c.xmux.noteSuccess } : PacketConn).uploads
          (.send { w with written := w.stop } ::ₘ m) := h.answered
      have hl := hsend.loop
      rwa [hx] at hl

/-- **Every section keeps the invariant.** -/
theorem packetOp_uploads (o : PacketOp) : KeepsUploads cfg o := by
  intro x c c' new m hx hseq hle h
  cases o with
  | writeStart id payload => exact writeStart_uploads hx hseq hle h
  | send w => exact send_uploads hx hseq hle h
  | pace w seq => exact pace_uploads hx hseq hle h
  | post w seq => exact post_uploads hx hseq hle h
  | response w seq => exact response_uploads hx hseq hle h
  | returnWrite w err =>
    have hok : PacketOp.Ok c.uploads (.returnWrite w err) := h.head
    cases hx
    rw [pending_nil_add]
    exact h.returned rfl rfl rfl hok (by simp)
  | fail err v =>
    simp only [PacketOp.exec] at hx
    split at hx
    · cases hx
      exact h.fail
    · split at hx
      · cases hx
        exact h.fail
      · cases hx
        rw [← coe_add, add_assoc]
        refine UploadInv.add h.fail ?_
        unfold PacketConn.failRest
        cases c.reader <;> simp
  | closeLocked =>
    cases hx
    refine h.neutral rfl ?_
    unfold PacketConn.closeRest
    cases c.reader <;> simp
  | setRead t | expireRead g =>
    cases hx
    refine h.neutral rfl ?_
    unfold PacketConn.onExpire
    split <;> simp
  | _ =>
    simp only [PacketOp.exec] at hx
    repeat' split at hx
    all_goals cases hx
    all_goals exact h.neutral rfl (by simp)

variable (k : PacketCall)

theorem packetCall_uploads (h : UploadInv c.uploads m) : UploadInv (k.entry c).1.uploads (↑(k.entry c).2 + m) := by
  cases k with
  | write payload =>
    simp only [PacketCall.entry, pending_cons_add, pending_nil_add]
    exact h.write
  | _ => exact h.add (by simp [PacketCall.entry])

/-- A number is given up when the context has ended, or when requests cannot be built. -/
def GivenUp (cfg : PacketConfig) (c : PacketConn) : Prop := c.abandoned ≠ [] → c.cancelled ∨ cfg.requestErr.isSome

lemma packetOp_givenUp (hx : o.exec cfg x c = some (c', new)) (h : GivenUp cfg c) : GivenUp cfg c' := by
  cases o with
  | cancel =>
    cases hx
    exact fun _ => .inl rfl
  | pace w seq =>
    simp only [PacketOp.exec] at hx
    split_ifs at hx with hc
    · cases hx
      exact fun _ => .inl hc.1
    · cases hx
      exact h
  | post w seq =>
    simp only [PacketOp.exec] at hx
    split at hx
    next e he =>
      cases hx
      exact fun _ => .inr (by rw [he]; rfl)
    · cases hx
      exact h
  | _ =>
    simp only [PacketOp.exec, PacketConn.loop] at hx
    repeat' split at hx
    all_goals cases hx
    all_goals exact h

lemma packetCall_givenUp (h : GivenUp cfg c) : GivenUp cfg (k.entry c).1 := by
  cases k with
  | contextDone => exact fun _ => .inl rfl
  | _ => exact h

/-- A section takes a number, or leaves the counter as it is; with a terminal error it does the latter. -/
lemma packetOp_taken (hx : o.exec cfg x c = some (c', new)) :
    c'.seq = c.seq ∧ c'.taken = c.taken ∨ c.terminalErr = none ∧ c'.seq = c.seq + 1 ∧ c'.taken = c.taken + 1 := by
  cases o with
  | send w =>
    simp only [PacketOp.exec] at hx
    split at hx
    · cases hx
      exact .inl ⟨rfl, rfl⟩
    next he =>
      split at hx <;> cases hx
      · exact .inl ⟨rfl, rfl⟩
      · exact .inr ⟨he, rfl, rfl⟩
  | _ =>
    simp only [PacketOp.exec, PacketConn.loop] at hx
    repeat' split at hx
    all_goals cases hx
    all_goals exact .inl ⟨rfl, rfl⟩

lemma packetOp_terminal {e : ConnError} (hx : o.exec cfg x c = some (c', new)) (he : c.terminalErr = some e) :
    c'.terminalErr = some e := by
  cases o with
  | closeLocked =>
    cases hx
    show c.terminalErr.or _ = _
    rw [he]
    rfl
  | fail err w | writeStart id payload | send w =>
    simp only [PacketOp.exec, he, Option.some.injEq] at hx
    obtain ⟨rfl, -⟩ := hx
    exact he
  | _ =>
    simp only [PacketOp.exec, PacketConn.loop] at hx
    repeat' split at hx
    all_goals cases hx
    all_goals exact he

lemma packetCall_frame : (k.entry c).1.terminalErr = c.terminalErr ∧ (k.entry c).1.seq = c.seq ∧
    (k.entry c).1.taken = c.taken := by
  cases k <;> exact ⟨rfl, rfl, rfl⟩

end

variable (cfg : PacketConfig)

/-- **Once a terminal error is recorded, the counter stands still.** -/
theorem packet_terminal_run {e : ConnError} {es : List (Event ConnInput PacketCall)}
    {s s' : Config PacketConn PacketOp} (hrun : runOf (packetProgram cfg).step s es = some s')
    (he : s.shared.terminalErr = some e) : s'.shared.taken = s.shared.taken := by
  have hstep := Program.step_inv (P := packetProgram cfg) (fun c _ => c.terminalErr = some e ∧ c.taken = s.shared.taken)
    (fun k c _ h => ⟨(packetCall_frame k).1.trans h.1, (packetCall_frame k).2.2.trans h.2⟩)
    (fun o x c c' new _ hx h => ⟨packetOp_terminal hx h.1, by
      rcases packetOp_taken hx with ⟨-, ht⟩ | ⟨hnone, -⟩
      · exact ht.trans h.2
      · simp [hnone] at h⟩)
  exact ((visitAll_of_inv hstep es ⟨he, rfl⟩).last hrun).2

/-- The counter is that of the numbers taken, and while these are different the uploads are counted. -/
structure UploadsCounted (cfg : PacketConfig) (c : PacketConn) (m : Multiset PacketOp) : Prop where
  seq : c.seq = .ofNat 64 c.taken
  uploads : c.taken ≤ 2 ^ 64 → UploadInv c.uploads m
  givenUp : GivenUp cfg c

lemma UploadsCounted.exec {cfg : PacketConfig} {x : ConnInput} {c c' : PacketConn} {new : List PacketOp}
    (hx : o.exec cfg x c = some (c', new)) (h : UploadsCounted cfg c (o ::ₘ m)) : UploadsCounted cfg c' (↑new + m) := by
  have htaken := packetOp_taken hx
  refine ⟨?_, fun hle => packetOp_uploads o hx h.seq hle (h.uploads ?_), packetOp_givenUp hx h.givenUp⟩
  · rcases htaken with ⟨hs, ht⟩ | ⟨-, hs, ht⟩
    · rw [hs, ht, h.seq]
    · rw [hs, ht, h.seq, BitVec.ofNat_add]
      rfl
  · omega

def PacketInv (cfg : PacketConfig) (s : Config PacketConn PacketOp) : Prop := UploadsCounted cfg s.shared s.pending

lemma packetInv_init : PacketInv cfg (.init {}) := ⟨rfl, fun _ => uploadInv_init, absurd rfl⟩

/-- **Every run keeps the invariant.** -/
theorem packetInv_run {cfg : PacketConfig} {s : Config PacketConn PacketOp} (h : PacketInv cfg s)
    (es : List (Event ConnInput PacketCall)) : VisitAll (packetProgram cfg).step (PacketInv cfg) s es := by
  refine visitAll_of_inv (Program.step_inv (P := packetProgram cfg) (UploadsCounted cfg) (fun k c m h => ?_)
    (fun o x c c' new m hx h => h.exec hx)) es h
  obtain ⟨-, hs, ht⟩ := packetCall_frame (c := c) k
  exact ⟨hs.trans (h.seq.trans (congrArg _ ht.symm)), fun hle => packetCall_uploads k (h.uploads (ht ▸ hle)),
    packetCall_givenUp k h.givenUp⟩

/-! ### What the server gets -/

def Settled (s : Config PacketConn PacketOp) : Prop := ∀ o ∈ s.pending, o.owner = 0

structure UploadOk (cfg : PacketConfig) (s : Config PacketConn PacketOp) : Prop where
  distinct : (s.shared.posts.map Post.seq).Nodup
  /-- The POSTs of one `Write` carry increasing numbers, and their chunks make up a prefix of its payload. -/
  chunks : ∀ id payload, s.shared.writes[id]? = some payload →
    Increasing (s.shared.uploads.sent id) ∧ content (s.shared.uploads.sent id) <+: payload
  /-- A `Write` returns the number of its first bytes that were answered 200; without an error these are
  all its bytes. -/
  returns : ∀ r ∈ s.shared.results, s.shared.writes[r.writer.id]? = some r.writer.payload ∧
    r.writer.written ≤ r.writer.payload.length ∧
    content (s.shared.uploads.acked r.writer.id) = r.writer.payload.take r.writer.written ∧
    (r.err = none → r.writer.written = r.writer.payload.length)
  /-- When no POST has failed and no `Write` is in flight, every number was answered 200 or given up. -/
  complete : s.shared.failed = [] → Settled s →
    (s.shared.answered.map Post.number ++ s.shared.abandoned.map BitVec.toNat).Perm (List.range s.shared.taken)
  /-- A number is given up when the context has ended, or when requests cannot be built. -/
  givenUp : s.shared.abandoned ≠ [] → s.shared.cancelled ∨ cfg.requestErr.isSome
  /-- When no number was given up either, the POSTs answered 200 can be put in the order of their numbers,
  which are `0`, `1`, … without a hole; each belongs to a `Write` that has returned, and in this order the
  chunks of each `Write` are the bytes it has counted. -/
  ordered : s.shared.failed = [] → s.shared.abandoned = [] → Settled s →
    ∃ ordered : List Post, ordered.Perm s.shared.answered ∧ ordered.map Post.number = List.range ordered.length ∧
      (∀ p ∈ ordered, ∃ r ∈ s.shared.results, r.writer.id = p.writer) ∧
      ∀ r ∈ s.shared.results, content (ordered.filter (·.writer = r.writer.id)) = r.writer.payload.take r.writer.written

/-- A section that is left knows that the POSTs of its `Write` make up a prefix of the payload. -/
lemma PacketOp.Ok.chunks {id : ℕ} (h : o.Ok u) (hid : id ∈ o.owner) :
    ∃ payload, u.writes[id]? = some payload ∧ content (u.sent id) <+: payload := by
  have hfinished : ∀ w : Writer, id ∈ ({w.id} : Multiset ℕ) → Finished u w →
      ∃ payload, u.writes[id]? = some payload ∧ content (u.sent id) <+: payload := by
    intro w hid hf
    rw [Multiset.mem_singleton.1 hid]
    exact ⟨w.payload, hf.payload, hf.sent⟩
  cases o with
  | writeStart id' payload =>
    rw [Multiset.mem_singleton.1 hid]
    refine ⟨payload, h.1, ?_⟩
    rw [h.2.1]
    exact nil_prefix
  | send w => exact hfinished w hid (h.1.finished h.2)
  | pace w seq | post w seq => exact hfinished w hid (h.1.finished h.2.1)
  | response w seq => exact hfinished w hid (h.1.finished_response h.2)
  | returnWrite w err => exact hfinished w hid h
  | fail err w =>
    cases w with
    | none => exact absurd hid (notMem_zero _)
    | some w => exact hfinished w hid h
  | _ => exact absurd hid (notMem_zero _)

lemma UploadInv.chunks {id : ℕ} {payload : GoString} (h : UploadInv u m) (hw : u.writes[id]? = some payload) :
    content (u.sent id) <+: payload := by
  obtain ⟨hlt, -⟩ := List.getElem?_eq_some_iff.1 hw
  rw [← Multiset.mem_range, ← h.owners, mem_add] at hlt
  obtain ⟨payload', hw', hchunks⟩ : ∃ payload, u.writes[id]? = some payload ∧ content (u.sent id) <+: payload := by
    rcases hlt with hlt | hlt
    · obtain ⟨o, ho, hid⟩ := mem_bind.1 hlt
      exact (h.ops o ho).chunks hid
    · obtain ⟨r, hr, rfl⟩ := mem_map.1 (mem_coe.1 hlt)
      exact ⟨_, (h.results r hr).1.payload, (h.results r hr).1.sent⟩
  rw [hw] at hw'
  cases hw'
  exact hchunks

lemma UploadInv.nodup (h : UploadInv u m) : (u.posts.map Post.number).Nodup := by
  have hnd := nodup_range u.taken
  rw [← h.numbers, add_assoc] at hnd
  exact coe_nodup.1 (nodup_add.1 hnd).1

lemma UploadInv.settled (h : UploadInv u m) (hfailed : u.failed = []) (hm : ∀ o ∈ m, o.owner = 0) :
    u.posts.Perm u.answered ∧ (u.answered.map Post.number ++ u.abandoned).Perm (List.range u.taken) ∧
      ∀ id < u.writes.length, ∃ r ∈ u.results, r.writer.id = id := by
  have hnum : m.bind PacketOp.numbers = 0 :=
    (bind_congr fun o ho => (PacketOp.neutral u (hm o ho)).1).trans (bind_zero m)
  have hway : m.bind PacketOp.underWay = 0 :=
    (bind_congr fun o ho => (PacketOp.neutral u (hm o ho)).2.1).trans (bind_zero m)
  have hown : m.bind PacketOp.owner = 0 := (bind_congr hm).trans (bind_zero m)
  have hposts := h.posts
  have hnumbers := h.numbers
  have howners := h.owners
  rw [hfailed, hway, add_zero, coe_nil, add_zero, coe_eq_coe] at hposts
  rw [hnum, add_zero, coe_add, ← coe_range, coe_eq_coe] at hnumbers
  rw [hown] at howners
  refine ⟨hposts, ((hposts.map _).symm.append_right _).trans hnumbers, fun id hid => ?_⟩
  rw [← Multiset.mem_range, ← howners] at hid
  exact mem_map.1 (mem_coe.1 hid)

/-- POSTs with the numbers `0`, `1`, … can be put in their order, which is that of each `Write`. -/
lemma exists_ordered {ps : List Post} {n : ℕ} (hseq : (ps.map Post.number).Perm (range n))
    (hinc : ∀ id, Increasing (ps.filter (·.writer = id))) :
    ∃ ordered : List Post, ordered.Perm ps ∧ ordered.map Post.number = List.range ordered.length ∧
      ∀ id : ℕ, ordered.filter (·.writer = id) = ps.filter (·.writer = id) := by
  have hperm := mergeSort_perm ps fun p q => p.number ≤ q.number
  have hsorted := @pairwise_mergeSort Post (fun p q => p.number ≤ q.number) (fun p q r => by simpa using le_trans)
    (fun p q => by simpa using le_total p.number q.number) ps
  generalize ps.mergeSort (fun p q => p.number ≤ q.number) = ordered at hperm hsorted
  have hrange : ordered.map Post.number = List.range n := by
    refine List.Perm.eq_of_pairwise' ?_ pairwise_le_range ((hperm.map _).trans hseq)
    exact pairwise_map.2 (hsorted.imp of_decide_eq_true)
  have hlen : ordered.length = n := by
    rw [← length_map, hrange, length_range]
  have hlt : Increasing ordered := pairwise_map.1 (hrange ▸ pairwise_lt_range)
  refine ⟨_, hperm, hrange.trans (by rw [hlen]), fun id => ?_⟩
  refine List.Perm.eq_of_pairwise ?_ (hlt.filter _) (hinc id) (hperm.filter _)
  exact fun p q _ _ hpq hqp => absurd hpq hqp.asymm

lemma PacketInv.ok {cfg : PacketConfig} {s : Config PacketConn PacketOp} (h : PacketInv cfg s)
    (hle : s.shared.taken ≤ 2 ^ 64) : UploadOk cfg s := by
  have hu := h.uploads hle
  refine ⟨?_, fun id payload hw => ⟨hu.sent id, hu.chunks hw⟩, fun r hr => ?_, fun hfailed hs => ?_, h.givenUp, ?_⟩
  · refine List.Nodup.of_map BitVec.toNat ?_
    rw [List.map_map]
    exact hu.nodup
  · obtain ⟨hf, herr⟩ := hu.results r hr
    exact ⟨hf.payload, hf.le, hf.bytes, herr⟩
  · exact (hu.settled hfailed hs).2.1
  · intro hfailed habandoned hs
    obtain ⟨hposts, hnumbers, hreturned⟩ := hu.settled hfailed hs
    have hnone : s.shared.uploads.abandoned = [] := by simp [PacketConn.uploads, habandoned]
    rw [hnone, append_nil] at hnumbers
    obtain ⟨ordered, hperm, hseq, hfilter⟩ := exists_ordered hnumbers hu.acked
    refine ⟨ordered, hperm, hseq, fun p hp => ?_, fun r hr => ?_⟩
    · exact hreturned _ (hu.writers p (hposts.symm.subset (hperm.subset hp)))
    · rw [hfilter]
      exact (hu.results r hr).1.bytes

/-- **Upload reassembly.**  In every state of every run of any number of calls in which no more than 2^64 numbers were
taken, the uploads are as in `UploadOk`.  Once a terminal error is recorded no number is taken, so that all POSTs carry
numbers taken before: a `sendPacket` that begins afterwards starts none. -/
theorem upload_reassembly (es : List (Event ConnInput PacketCall)) :
    VisitAll (packetProgram cfg).step (fun s => s.shared.taken ≤ 2 ^ 64 → UploadOk cfg s) (.init {}) es ∧
    ∀ es' s s' e, runOf (packetProgram cfg).step (.init {}) es = some s → s.shared.terminalErr = some e →
      runOf (packetProgram cfg).step s es' = some s' → s'.shared.taken = s.shared.taken ∧
        (s.shared.taken ≤ 2 ^ 64 → ∀ p ∈ s'.shared.posts, p.number < s.shared.taken) := by
  have hinv := packetInv_run (packetInv_init cfg) es
  refine ⟨hinv.imp fun s h => h.ok, fun es' s s' e hs he hs' => ?_⟩
  have htaken := packet_terminal_run cfg hs' he
  have hend : PacketInv cfg s' := (packetInv_run (hinv.last hs) es').last hs'
  refine ⟨htaken, fun hle p => ?_⟩
  rw [← htaken] at hle ⊢
  exact (hend.uploads hle).number_lt

/-- POSTs at least 30 ms apart, and one chunk for each `Write`. -/
def pacedConfig : PacketConfig where
  scMaxEachPostBytes := ⟨0, 0⟩
  scMinPostsIntervalMs := ⟨30, 30⟩

/-- Three `Write`s of one byte; `Close` ends the wait of the second one after the third one was answered. -/
def closedWaiting : List (Event ConnInput PacketCall) :=
  List.flatten [[.call (.write [0x61]), .call (.write [0x62]), .call (.write [0x63]), .call .close],
    .replicate 4 (.sched 0 {}), .replicate 2 (.sched 1 {}), .replicate 5 (.sched 2 {}),
    .replicate 7 (.sched 3 {}), [.sched 1 { pick := true }]]

/-- A `Write` takes its number, then another POST's failure is recorded. -/
def failedBetween : List (Event ConnInput PacketCall) :=
  [.call (.write [0x61]), .call (.fail .eof), .sched 0 {}, .sched 0 {}, .sched 1 {}]

/-- **Closing leaves a hole, and a POST can start late.**  With no failed POST and no `Write` in flight the numbers
answered are 0 and 2; and a POST starts after a terminal error is recorded. -/
theorem upload_hole_and_late_post : (∃ s, runOf (packetProgram pacedConfig).step (.init {}) closedWaiting = some s ∧
      s.shared.failed = [] ∧ Settled s ∧ s.shared.answered.map Post.seq = [0, 2] ∧
      ∀ m, ¬ (s.shared.answered.map Post.number).Perm (range m)) ∧
    ∃ s s', runOf (packetProgram pacedConfig).step (.init {}) failedBetween = some s ∧
      s.shared.terminalErr = some .eof ∧ s.shared.posts = [] ∧
      runOf (packetProgram pacedConfig).step s [.sched 0 {}] = some s' ∧ s'.shared.posts = [⟨0, 0, [0x61]⟩] := by
  constructor
  · refine ⟨_, rfl, rfl, fun o ho => absurd ho (notMem_zero o), rfl, fun m hperm => ?_⟩
    have hlen : 2 = m := hperm.length_eq.trans length_range
    subst hlen
    exact absurd hperm (by decide)
  · exact ⟨_, _, rfl, rfl, rfl, rfl, rfl⟩

end SingBox.Xhttp
