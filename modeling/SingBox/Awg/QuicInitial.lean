import Mathlib.Data.List.GetD
import Mathlib.Data.List.Sort
import SingBox.Lib.Codec
import SingBox.Lib.Draws

/-!
# The payload of a QUIC Initial

The decoy of `transport/wireguard/quic_initial_awg.go` cuts a ClientHello at random points (`planFragmentsN`), puts the
fragments in a random order with PING and PADDING frames between them (`randomizedWirePlan`), and writes the frames, one
run of PADDING being as long as the payload needs (`buildInitialPayload`).
-/

namespace SingBox.Awg

open SingBox.Lib List

/-! ### Varints -/

def quicVarint (v : ℕ) : GoString :=
  if v < 2 ^ 6 then [BitVec.ofNat 8 v]
  else if v < 2 ^ 14 then (BitVec.ofNat 8 (v / 2 ^ 8) ||| 0x40) :: toBytes 1 v
  else if v < 2 ^ 30 then (BitVec.ofNat 8 (v / 2 ^ 24) ||| 0x80) :: toBytes 3 v
  else (BitVec.ofNat 8 (v / 2 ^ 56) ||| 0xc0) :: toBytes 7 v

def appendQUICVarint (dst : GoString) (v : ℕ) : GoString := dst ++ quicVarint v

def varintLen (v : ℕ) : ℕ := if v < 2 ^ 6 then 1 else if v < 2 ^ 14 then 2 else if v < 2 ^ 30 then 4 else 8

/-- The two upper bits of the first byte tell the length. -/
def readVarint : Get ℕ := do
  let b0 ← Get.byte
  let rest ← Get.bytes (2 ^ (b0.toNat / 2 ^ 6) - 1)
  return rest.foldl (fun v b => v * 2 ^ 8 + b.toNat) (b0.toNat % 2 ^ 6)

/-! ### Fragments -/

abbrev Planner (α : Type) := Drawing String α

def plannerError {α : Type} (text : String) : Planner α := fun _ => .error (.error text)

/-- What `randInt` returns at a draw. -/
def randOf (n : ℕ) (d : Except String ℕ) : Exec String ℕ :=
  if n ≤ 1 then .ok 0
  else
    match d with
    | .ok v => .ok (v % n)
    | .error e => .error (.error e)

/-- `randInt`; every call has a draw of its own, though it is not looked at if there is only one number. -/
def randInt (n : ℕ) : Planner ℕ
  | [] => .error .loop
  | d :: ds => do
    let v ← randOf n d
    return (v, ds)

/-- The elements before `a[i]`, the last one first, are in order, and `a[i]` moves down to its place. -/
def sortInts (a : List ℕ) : List ℕ := (a.foldl (fun sorted x => sorted.orderedInsert (· ≥ ·) x) []).reverse

structure CryptoFragment where
  offset : ℕ
  data : GoString
  deriving DecidableEq

/-- The order in which a map is ranged over. -/
structure MapOrder where
  range : List ℕ → List ℕ
  range_perm : ∀ l, (range l).Perm l

/-- The loop over the cut points, until there are enough of them. -/
def cutLoop (enough interior : ℕ) (cutSet : List ℕ) : Planner (List ℕ)
  | [] => if cutSet.length < enough then .error .loop else .ok (cutSet, [])
  | d :: ds =>
    if cutSet.length < enough then do
      let p ← randOf interior d
      cutLoop enough interior (cutSet.insert (p + 1)) ds
    else .ok (cutSet, d :: ds)

def fragmentsBetween (ch : GoString) (cuts : List ℕ) : Exec String (List CryptoFragment) :=
  (cuts.zip cuts.tail).mapM fun c => do
    let data ← sliceOf ch c.1 c.2
    return ⟨c.1, data⟩

def planFragmentsN (order : MapOrder) (ch : GoString) (n : ℤ) : Planner (List CryptoFragment) :=
  if n < 2 then plannerError "amneziawg: need ≥2 CRYPTO fragments"
  else if ch.length < n then plannerError "amneziawg: ClientHello too short for the requested fragment count"
  else do
    let cutSet ← cutLoop (n.toNat - 1) (ch.length - 1) []
    fragmentsBetween ch (sortInts (0 :: order.range cutSet ++ [ch.length]))

/-! ### The plan -/

inductive FrameKind where
  | frameCrypto
  | framePing
  | framePadding
  deriving DecidableEq

structure PlanEntry where
  kind : FrameKind
  cryptoIdx : ℕ := 0
  padLen : ℕ := 0
  padFlex : Bool := false
  deriving DecidableEq

/-- `a[i], a[j] = a[j], a[i]`, for indices in range. -/
def swapAt (a : List ℕ) (i j : ℕ) : List ℕ := (a.set i (a.getD j 0)).set j (a.getD i 0)

/-- The loop of the shuffle, from the index `i` down. -/
def shuffleLoop : ℕ → List ℕ → Planner (List ℕ)
  | 0, order => pure order
  | i + 1, order => do
    let j ← randInt (i + 2)
    shuffleLoop i (swapAt order (i + 1) j)

/-- `k` runs of PADDING, from the index `i` on. -/
def padLoop (flexPick : ℕ) : ℕ → ℕ → Planner (List PlanEntry)
  | 0, _ => pure []
  | k + 1, i =>
    if i = flexPick then do
      let es ← padLoop flexPick k (i + 1)
      return { kind := .framePadding, padFlex := true } :: es
    else do
      let sz ← randInt 48
      let es ← padLoop flexPick k (i + 1)
      return { kind := .framePadding, padLen := 8 + sz } :: es

/-- Every filler goes to one of the gaps. -/
def gapLoop (n : ℕ) : List PlanEntry → List (List PlanEntry) → Planner (List (List PlanEntry))
  | [], gaps => pure gaps
  | f :: fs, gaps => do
    let slot ← randInt n
    gapLoop n fs (gaps.modify slot (· ++ [f]))

def cryptoEntry (idx : ℕ) : PlanEntry := { kind := .frameCrypto, cryptoIdx := idx }

/-- The number of PING frames, one at least. -/
def pingCount (pings : ℤ) : ℕ := if pings < 1 then 1 else pings.toNat

def randomizedWirePlan (frags : List CryptoFragment) (pings : ℤ) : Planner (List PlanEntry) :=
  let n := frags.length
  if n < 2 then plannerError "amneziawg: need ≥2 CRYPTO fragments for a wire plan"
  else do
    let pings := pingCount pings
    let order ← shuffleLoop (n - 1) (List.range n)
    let order := if order.head? = some 0 then swapAt order 0 1 else order
    let padRuns := pings + 2
    let flexPick ← randInt padRuns
    let pads ← padLoop flexPick padRuns 0
    let fillers := List.replicate pings { kind := .framePing } ++ pads
    let gaps ← gapLoop n fillers (List.replicate n [])
    return (List.zipWith (fun c gap => c :: gap) (order.map cryptoEntry) gaps).flatten

/-! ### The payload -/

def appendCryptoFrame (dst : GoString) (f : CryptoFragment) : GoString :=
  appendQUICVarint (appendQUICVarint (dst ++ [0x06]) f.offset) f.data.length ++ f.data

def fixedLoop (frags : List CryptoFragment) : List PlanEntry → ℕ → Bool → Exec String (ℕ × Bool)
  | [], total, flex => .ok (total, flex)
  | e :: plan, total, flex =>
    match e.kind with
    | .frameCrypto =>
      match frags[e.cryptoIdx]? with
      | none => .error (.error "amneziawg: bad crypto fragment index in wire plan")
      | some f =>
        fixedLoop frags plan (total + (1 + varintLen f.offset + varintLen f.data.length + f.data.length)) flex
    | .framePing => fixedLoop frags plan (total + 1) flex
    | .framePadding =>
      if e.padFlex then fixedLoop frags plan total true else fixedLoop frags plan (total + e.padLen) flex

def planFixedLen (frags : List CryptoFragment) (plan : List PlanEntry) : Exec String (ℕ × Bool) :=
  fixedLoop frags plan 0 false

/-- `make` panics above this size. -/
def maxAlloc : ℤ := 2 ^ 48

/-- The loop of `buildInitialPayload` over the plan. -/
def emitLoop (frags : List CryptoFragment) (flexLen : ℕ) : List PlanEntry → GoString → Exec String GoString
  | [], out => .ok out
  | e :: plan, out =>
    match e.kind with
    | .frameCrypto => do
      let f ← index frags e.cryptoIdx
      emitLoop frags flexLen plan (appendCryptoFrame out f)
    | .framePing => emitLoop frags flexLen plan (out ++ [0x01])
    | .framePadding =>
      emitLoop frags flexLen plan (out ++ List.replicate (if e.padFlex then flexLen else e.padLen) 0x00)

def buildInitialPayload (frags : List CryptoFragment) (plan : List PlanEntry) (targetLen : ℤ) :
    Exec String GoString := do
  let (fixed, hasFlex) ← planFixedLen frags plan
  if !hasFlex then .error (.error "amneziawg: wire plan has no flex PADDING run to absorb slack")
  else
    let flexLen := targetLen - fixed
    if flexLen < 0 then
      .error (.error "amneziawg: QUIC Initial frames overflow the length field (ClientHello too large)")
    else if maxAlloc < targetLen then .error .panic
    else
      let out ← emitLoop frags flexLen.toNat plan []
      if out.length ≠ targetLen then
        .error (.error "amneziawg: QUIC Initial payload did not land on the length field")
      else return out

/-! ### Frames -/

inductive Frame where
  | padding
  | ping
  | crypto (f : CryptoFragment)
  deriving DecidableEq

def parseFrame : Get Frame := do
  let frameType ← Get.byte
  if frameType = 0x00 then return .padding
  else if frameType = 0x01 then return .ping
  else if frameType = 0x06 then
    let offset ← readVarint
    let length ← readVarint
    let data ← Get.bytes length
    return .crypto ⟨offset, data⟩
  else failure

def Frame.crypto? : Frame → Option CryptoFragment
  | .crypto f => some f
  | _ => none

/-- The fragments follow each other from an offset on. -/
def Contiguous : ℕ → List CryptoFragment → Prop
  | _, [] => True
  | off, f :: fs => f.offset = off ∧ Contiguous (off + f.data.length) fs

/-- Put in order, the fragments follow each other from the start, and make up the bytes. -/
def Tiles (frags : List CryptoFragment) (ch : GoString) : Prop :=
  ∃ sorted, sorted.Perm frags ∧ Contiguous 0 sorted ∧ (sorted.flatMap (·.data)) = ch

/-! ### Varints are read back -/

lemma toNat_or_tag : ∀ a < 2 ^ 6, ∀ t < 4, (BitVec.ofNat 8 a ||| BitVec.ofNat 8 (2 ^ 6 * t)).toNat = 2 ^ 6 * t + a := by
  decide

lemma reads_tagged {t a k v : ℕ} (ht : t < 4) (ha : a < 2 ^ 6) (hk : 2 ^ t - 1 = k)
    (hv : a * 2 ^ (8 * k) + v % 2 ^ (8 * k) = v) :
    Reads readVarint ((BitVec.ofNat 8 a ||| BitVec.ofNat 8 (2 ^ 6 * t)) :: toBytes k v) v := by
  have hb := toNat_or_tag a ha t ht
  have hdiv : (2 ^ 6 * t + a) / 2 ^ 6 = t := by omega
  have hmod : (2 ^ 6 * t + a) % 2 ^ 6 = a := by omega
  have hrest := (reads_bytes (length_toBytes k v)).map (f := foldl (fun v b => v * 2 ^ 8 + b.toNat) a)
  rw [foldl_toBytes, hv] at hrest
  refine (reads_byte _).bind ?_
  rw [hb, hdiv, hmod, hk]
  exact hrest

lemma reads_varint {v : ℕ} (h : v < 2 ^ 62) : Reads readVarint (quicVarint v) v := by
  unfold quicVarint
  split
  · have := reads_tagged (t := 0) (v := v) (by decide) ‹_› rfl (by omega)
    simpa [toBytes] using this
  split
  · exact reads_tagged (t := 1) (by decide) (by omega) rfl (by omega)
  split
  · exact reads_tagged (t := 2) (by decide) (by omega) rfl (by omega)
  · exact reads_tagged (t := 3) (by decide) (by omega) rfl (by omega)

lemma length_quicVarint (v : ℕ) : (quicVarint v).length = varintLen v := by
  unfold quicVarint varintLen
  split <;> [skip; split <;> [skip; split]] <;> simp

lemma quicVarint_ne_nil (v : ℕ) : quicVarint v ≠ [] := by
  unfold quicVarint
  split <;> [skip; split <;> [skip; split]] <;> simp

/-! ### Cut points -/

lemma sortInts_perm (a : List ℕ) : (sortInts a).Perm a := by
  have h : ∀ acc : List ℕ, (a.foldl (fun sorted => sorted.orderedInsert (· ≥ ·)) acc).Perm (a ++ acc) := by
    induction a with
    | nil => exact List.Perm.refl
    | cons x a ih =>
      intro acc
      refine (ih _).trans ?_
      exact ((perm_orderedInsert _ x acc).append_left a).trans perm_middle
  have := h []
  rw [append_nil] at this
  exact (reverse_perm _).trans this

lemma sortInts_sorted (a : List ℕ) : (sortInts a).Pairwise (· ≤ ·) := by
  have h : ∀ acc : List ℕ, acc.Pairwise (· ≥ ·) →
      (a.foldl (fun sorted => sorted.orderedInsert (· ≥ ·)) acc).Pairwise (· ≥ ·) := by
    induction a with
    | nil => exact fun acc hacc => hacc
    | cons x a ih => exact fun acc hacc => ih _ (hacc.orderedInsert x acc)
  exact pairwise_reverse.2 (h [] List.Pairwise.nil)

variable {n : ℕ}

lemma randOf_cases (hn : 0 < n) (d : Except String ℕ) :
    (∃ v < n, randOf n d = .ok v) ∨ ∃ e, d = .error e ∧ randOf n d = .error (.error e) := by
  unfold randOf
  split
  · exact .inl ⟨0, hn, rfl⟩
  · cases d with
    | ok v => exact .inl ⟨v % n, Nat.mod_lt _ hn, rfl⟩
    | error e => exact .inr ⟨e, rfl, rfl⟩

lemma takes_randInt (hn : 0 < n) : Takes (randInt n) 1 (· < n) := by
  intro ds
  match ds with
  | [] => exact Nat.zero_lt_one
  | d :: ds =>
    have hcons : randInt n (d :: ds) = randOf n d >>= fun v => .ok (v, ds) := rfl
    rw [hcons]
    rcases randOf_cases hn d with ⟨v, hv, h⟩ | ⟨e, rfl, h⟩
    · rw [h]
      exact ⟨Nat.succ_pos _, rfl, hv⟩
    · rw [h]
      exact mem_cons_self

/-- Cut points inside the ClientHello, each of them once. -/
structure CutPoints (interior : ℕ) (cuts : List ℕ) : Prop where
  nodup : cuts.Nodup
  mem : ∀ c ∈ cuts, 0 < c ∧ c ≤ interior

lemma CutPoints.insert {interior p : ℕ} {cuts : List ℕ} (h : CutPoints interior cuts) (hp : p < interior) :
    CutPoints interior (cuts.insert (p + 1)) where
  nodup := h.nodup.insert
  mem c hc := by
    rcases mem_insert_iff.1 hc with rfl | hc
    · omega
    · exact h.mem c hc

lemma length_insert_le (cuts : List ℕ) (p : ℕ) : (cuts.insert p).length ≤ cuts.length + 1 := by
  by_cases h : p ∈ cuts
  · rw [length_insert_of_mem h]
    exact Nat.le_succ _
  · rw [insert_of_not_mem h]
    exact le_rfl

/-- The loop over the cut points goes on until there are enough of them. -/
lemma gives_cutLoop {enough interior : ℕ} (hpos : 0 < interior) {cutSet : List ℕ} (hcut : CutPoints interior cutSet)
    (hlen : cutSet.length ≤ enough) :
    Gives (cutLoop enough interior cutSet) fun cuts => CutPoints interior cuts ∧ cuts.length = enough := by
  intro ds
  induction ds generalizing cutSet with
  | nil =>
    rw [cutLoop]
    split_ifs with hlt
    · trivial
    · exact ⟨suffix_refl _, hcut, by omega⟩
  | cons d ds ih =>
    rw [cutLoop]
    split_ifs with hlt
    · rcases randOf_cases hpos d with ⟨p, hp, h⟩ | ⟨e, rfl, h⟩
      · have := ih (hcut.insert hp) ((length_insert_le cutSet (p + 1)).trans hlt)
        rw [h, ok_bind]
        rcases hrec : cutLoop enough interior (cutSet.insert (p + 1)) ds with (_ | _ | e) | ⟨cuts, rest⟩ <;>
          simp only [hrec] at this ⊢
        · exact mem_cons_of_mem _ this
        · exact ⟨this.1.trans (suffix_cons d ds), this.2⟩
      · rw [h]
        exact mem_cons_self
    · exact ⟨suffix_refl _, hcut, by omega⟩

/-! ### Fragments tile the ClientHello -/

/-- `n` fragments that follow each other and make up the ClientHello, none of them empty. -/
structure Fragments (ch : GoString) (n : ℕ) (frags : List CryptoFragment) : Prop where
  length : frags.length = n
  nonempty : ∀ f ∈ frags, f.data ≠ []
  contiguous : Contiguous 0 frags
  flatMap_data : frags.flatMap (·.data) = ch

variable {ch : GoString}

lemma fragmentsBetween_spec : ∀ {a : ℕ} {cuts : List ℕ}, (a :: cuts).Pairwise (· < ·) →
    (∀ c ∈ a :: cuts, c ≤ ch.length) → ch.length ∈ a :: cuts →
    ∃ frags, fragmentsBetween ch (a :: cuts) = .ok frags ∧ frags.length = cuts.length ∧ (∀ f ∈ frags, f.data ≠ []) ∧
      Contiguous a frags ∧ frags.flatMap (·.data) = ch.drop a := by
  intro a cuts
  induction cuts generalizing a with
  | nil =>
    intro _ _ hmem
    have ha : a = ch.length := (mem_singleton.1 hmem).symm
    exact ⟨[], rfl, rfl, by simp, trivial, by simp [ha]⟩
  | cons b cuts ih =>
    intro hsorted hle hmem
    obtain ⟨hlt, hsorted⟩ := pairwise_cons.1 hsorted
    have hab : a < b := hlt b mem_cons_self
    have hb : b ≤ ch.length := hle b (by simp)
    have hmem : ch.length ∈ b :: cuts := by
      rcases mem_cons.1 hmem with h | h
      · omega
      · exact h
    obtain ⟨frags, hfrags, hlen, hne, hcont, hdata⟩ :=
      ih hsorted (fun c hc => hle c (mem_cons_of_mem _ hc)) hmem
    have hslice : (sliceOf ch a b : Exec String _) = .ok ((ch.take b).drop a) :=
      sliceOf_eq_ok.2 ⟨⟨hab.le, hb⟩, rfl⟩
    have hdatalen : ((ch.take b).drop a).length = b - a := by
      rw [length_drop, length_take, Nat.min_eq_left hb]
    refine ⟨⟨a, (ch.take b).drop a⟩ :: frags, ?_, ?_, ?_, ?_, ?_⟩
    · have hcons : fragmentsBetween ch (a :: b :: cuts) = do
          let data ← sliceOf ch a b
          let frags ← fragmentsBetween ch (b :: cuts)
          return ⟨a, data⟩ :: frags := by
        simp [fragmentsBetween]
      rw [hcons, hslice, hfrags]
      rfl
    · simp [hlen]
    · refine forall_mem_cons.2 ⟨fun h => ?_, hne⟩
      rw [← length_eq_zero_iff, hdatalen] at h
      omega
    · refine ⟨rfl, ?_⟩
      rw [hdatalen, Nat.add_sub_cancel' hab.le]
      exact hcont
    · rw [flatMap_cons, hdata, ← drop_append_of_le_length (by rw [length_take]; omega), take_append_drop]

lemma exists_fragments (order : MapOrder) {cutSet : List ℕ}
    (hcut : CutPoints (ch.length - 1) cutSet) (hpos : 0 < ch.length) :
    ∃ frags, fragmentsBetween ch (sortInts (0 :: order.range cutSet ++ [ch.length])) = .ok frags ∧
      Fragments ch (cutSet.length + 1) frags := by
  have hrange := order.range_perm cutSet
  have hmem : ∀ c ∈ order.range cutSet, 0 < c ∧ c < ch.length := fun c hc => by
    have := hcut.mem c (hrange.mem_iff.1 hc)
    omega
  have hnodup : (0 :: order.range cutSet ++ [ch.length]).Nodup := by
    rw [cons_append, nodup_cons, nodup_append]
    refine ⟨fun h => ?_, hrange.nodup_iff.2 hcut.nodup, nodup_singleton _, fun c hc d hd => ?_⟩
    · rcases mem_append.1 h with h | h
      · exact absurd (hmem 0 h).1 (lt_irrefl 0)
      · have := mem_singleton.1 h
        omega
    · have := (hmem c hc).2
      rw [mem_singleton.1 hd]
      omega
  have hperm := sortInts_perm (0 :: order.range cutSet ++ [ch.length])
  have hsorted := sortInts_sorted (0 :: order.range cutSet ++ [ch.length])
  generalize sortInts (0 :: order.range cutSet ++ [ch.length]) = cuts at *
  have hlength := hperm.length_eq
  have hall : ∀ c ∈ cuts, c ≤ ch.length := fun c hc => by
    rcases mem_append.1 (hperm.mem_iff.1 hc) with h | h
    · rcases mem_cons.1 h with rfl | h
      · omega
      · exact (hmem c h).2.le
    · exact (mem_singleton.1 h).le
  have hlast : ch.length ∈ cuts := hperm.mem_iff.2 (by simp)
  have hzero : 0 ∈ cuts := hperm.mem_iff.2 (by simp)
  have hstrict : cuts.Pairwise (· < ·) :=
    (hsorted.and (hperm.nodup_iff.2 hnodup)).imp fun h => h.1.lt_of_ne h.2
  -- the least cut point is zero
  cases cuts with
  | nil => cases hzero
  | cons a cuts =>
    have ha : a = 0 := by
      rcases mem_cons.1 hzero with h | h
      · exact h.symm
      · exact Nat.le_zero.1 ((pairwise_cons.1 hstrict).1 0 h).le
    subst ha
    obtain ⟨frags, hfrags, hlen, hne, hcont, hdata⟩ := fragmentsBetween_spec hstrict hall hlast
    refine ⟨frags, hfrags, ⟨?_, hne, hcont, hdata⟩⟩
    simp only [length_cons, length_append, length_nil, hrange.length_eq] at hlength
    omega

lemma gives_planFragmentsN (order : MapOrder) {n : ℤ} (hn : 2 ≤ n) (hlen : n ≤ ch.length) :
    Gives (planFragmentsN order ch n) (Fragments ch n.toNat) := by
  rw [planFragmentsN, if_neg (by omega), if_neg (by omega)]
  refine (gives_cutLoop (by omega) ⟨nodup_nil, by simp⟩ (Nat.zero_le _)).bind fun cutSet hcut => ?_
  obtain ⟨frags, hok, hfrags⟩ := exists_fragments order hcut.1 (by omega)
  rw [hcut.2, show n.toNat - 1 + 1 = n.toNat by omega] at hfrags
  exact (takes_lift hok hfrags).gives

/-! ### Wire plans -/

lemma swapAt_perm {a : List ℕ} {i j : ℕ} (hi : i < a.length) (hj : j < a.length) : (swapAt a i j).Perm a := by
  have h := set_set_perm hi hj
  rwa [← getD_eq_getElem a 0 hi, ← getD_eq_getElem a 0 hj] at h

variable {order : List ℕ}

lemma takes_shuffleLoop {i : ℕ} (hi : i < order.length) :
    Takes (shuffleLoop i order) i fun shuffled => shuffled.Perm order := by
  induction i generalizing order with
  | zero => exact takes_pure (List.Perm.refl order)
  | succ i ih =>
    refine (takes_randInt (Nat.succ_pos _)).bind (Nat.add_comm 1 i) fun j hj => ?_
    have hperm := swapAt_perm hi (show j < order.length by omega)
    exact (ih (by rw [hperm.length_eq]; omega)).imp fun shuffled h => h.trans hperm

lemma head_swap (hn : 2 ≤ n) (horder : order.Perm (range n)) :
    (if order.head? = some 0 then swapAt order 0 1 else order).Perm (range n) ∧
      (if order.head? = some 0 then swapAt order 0 1 else order).head? ≠ some 0 := by
  have hlen := horder.length_eq
  rw [length_range] at hlen
  by_cases h0 : order.head? = some 0
  · rw [if_pos h0]
    refine ⟨(swapAt_perm (by omega) (by omega)).trans horder, ?_⟩
    match order, h0, hlen with
    | [0], _, hlen => simp at hlen; omega
    | 0 :: b :: rest, _, _ =>
      have hnodup := horder.nodup_iff.2 nodup_range
      have hb : b ≠ 0 := fun h => by simp [h] at hnodup
      simpa [swapAt] using hb
  · rw [if_neg h0]
    exact ⟨horder, h0⟩

/-- Runs of PADDING, `flex` of them as long as the payload needs. -/
structure Pads (k flex : ℕ) (pads : List PlanEntry) : Prop where
  length : pads.length = k
  kind : ∀ e ∈ pads, e.kind = .framePadding
  padLen : ∀ e ∈ pads, e.padLen < 56
  flex : pads.countP (·.padFlex) = flex

lemma Pads.cons {k flex : ℕ} {pads : List PlanEntry} (h : Pads k flex pads) {e : PlanEntry}
    (hkind : e.kind = .framePadding) (hlen : e.padLen < 56) :
    Pads (k + 1) (flex + if e.padFlex then 1 else 0) (e :: pads) where
  length := by rw [length_cons, h.length]
  kind := forall_mem_cons.2 ⟨hkind, h.kind⟩
  padLen := forall_mem_cons.2 ⟨hlen, h.padLen⟩
  flex := by rw [countP_cons, h.flex]

/-- Behind the run that is flexible, every run is drawn. -/
lemma takes_padLoop_after {flexPick k i : ℕ} (hi : flexPick < i) : Takes (padLoop flexPick k i) k (Pads k 0) := by
  induction k generalizing i with
  | zero => exact takes_pure ⟨rfl, by simp, by simp, rfl⟩
  | succ k ih =>
    rw [padLoop, if_neg (by omega)]
    refine (takes_randInt (by decide)).bind (Nat.add_comm 1 k) fun sz hsz => ?_
    refine (ih (show flexPick < i + 1 by omega)).bind rfl fun pads hpads => takes_pure ?_
    exact hpads.cons (e := { kind := .framePadding, padLen := 8 + sz }) rfl (show 8 + sz < 56 by omega)

lemma takes_padLoop {flexPick k i : ℕ} (hi : i ≤ flexPick) (hk : flexPick < i + k) :
    Takes (padLoop flexPick k i) (k - 1) (Pads k 1) := by
  induction k generalizing i with
  | zero => omega
  | succ k ih =>
    rw [padLoop]
    by_cases h : i = flexPick
    · rw [if_pos h]
      refine (takes_padLoop_after (show flexPick < i + 1 by omega)).bind rfl fun pads hpads => takes_pure ?_
      exact hpads.cons (e := { kind := .framePadding, padFlex := true }) rfl (by decide)
    · rw [if_neg h]
      refine (takes_randInt (by decide)).bind (show 1 + (k - 1) = k by omega) fun sz hsz => ?_
      refine (ih (show i + 1 ≤ flexPick by omega) (by omega)).bind rfl fun pads hpads => takes_pure ?_
      exact hpads.cons (e := { kind := .framePadding, padLen := 8 + sz }) rfl (show 8 + sz < 56 by omega)

lemma flatten_modify_perm (f : PlanEntry) : ∀ {slot : ℕ} {gaps : List (List PlanEntry)}, slot < gaps.length →
    (gaps.modify slot (· ++ [f])).flatten.Perm (gaps.flatten ++ [f])
  | 0, gap :: gaps, _ => by
    simp only [modify_zero_cons, flatten_cons, append_assoc]
    exact perm_append_comm.append_left gap
  | slot + 1, gap :: gaps, h => by
    simp only [modify_succ_cons, flatten_cons, append_assoc]
    exact (flatten_modify_perm f (Nat.lt_of_succ_lt_succ h)).append_left gap

lemma takes_gapLoop (hn : 0 < n) {fs : List PlanEntry} {gaps : List (List PlanEntry)} (hlen : gaps.length = n) :
    Takes (gapLoop n fs gaps) fs.length fun gaps' => gaps'.length = n ∧ gaps'.flatten.Perm (gaps.flatten ++ fs) := by
  induction fs generalizing gaps with
  | nil => exact takes_pure ⟨hlen, by rw [append_nil]⟩
  | cons f fs ih =>
    refine (takes_randInt hn).bind (Nat.add_comm 1 fs.length) fun slot hslot => ?_
    have hlen' : (gaps.modify slot (· ++ [f])).length = n := by rw [length_modify, hlen]
    refine (ih hlen').imp fun gaps' h => ⟨h.1, h.2.trans ?_⟩
    have := (flatten_modify_perm f (show slot < gaps.length by omega)).append_right fs
    simpa using this

def PlanEntry.crypto? (e : PlanEntry) : Option ℕ := if e.kind = .frameCrypto then some e.cryptoIdx else none

/-- What is on the wire: every fragment once, the one at offset zero not first, and the fillers, one of which is
flexible. -/
structure WirePlan (n pings : ℕ) (plan : List PlanEntry) : Prop where
  order : (plan.filterMap (·.crypto?)).Perm (List.range n)
  head : (plan.filterMap (·.crypto?)).head? ≠ some 0
  fillers : ∃ pads, Pads (pings + 2) 1 pads ∧
    (plan.filter (·.kind ≠ .frameCrypto)).Perm (List.replicate pings { kind := .framePing } ++ pads)

lemma filter_zipWith_gaps {gaps : List (List PlanEntry)} (hlen : gaps.length = order.length)
    (hgaps : ∀ gap ∈ gaps, ∀ e ∈ gap, e.kind ≠ .frameCrypto) :
    (zipWith (fun c gap => c :: gap) (order.map cryptoEntry) gaps).flatten.filterMap (·.crypto?) = order ∧
    (zipWith (fun c gap => c :: gap) (order.map cryptoEntry) gaps).flatten.filter (·.kind ≠ .frameCrypto) =
      gaps.flatten := by
  induction order generalizing gaps with
  | nil => simp [length_eq_zero_iff.1 hlen]
  | cons idx order ih =>
    match gaps, hlen with
    | gap :: gaps, hlen =>
      obtain ⟨hgap, hgaps⟩ := forall_mem_cons.1 hgaps
      obtain ⟨ihorder, ihgaps⟩ := ih (Nat.succ.inj hlen) hgaps
      have hnone : gap.filterMap (·.crypto?) = [] :=
        filterMap_eq_nil_iff.2 fun e he => by simp [PlanEntry.crypto?, hgap e he]
      have hall : gap.filter (·.kind ≠ .frameCrypto) = gap :=
        filter_eq_self.2 fun e he => by simpa using hgap e he
      simp only [map_cons, zipWith_cons_cons, flatten_cons, filterMap_append, filterMap_cons,
        filter_append, filter_cons, ihorder, ihgaps, hnone, hall]
      exact ⟨rfl, rfl⟩

def planDraws (n pings : ℕ) : ℕ := (n - 1) + (1 + ((pings + 1) + (2 * pings + 2)))

variable {frags : List CryptoFragment}

lemma takes_randomizedWirePlan (pings : ℤ) (hn : 2 ≤ frags.length) :
    Takes (randomizedWirePlan frags pings) (planDraws frags.length (pingCount pings))
      (WirePlan frags.length (pingCount pings)) := by
  unfold randomizedWirePlan
  rw [if_neg (by omega)]
  refine (takes_shuffleLoop (by rw [length_range]; omega)).bind rfl fun order horder => ?_
  obtain ⟨hperm, hhead⟩ := head_swap hn horder
  refine (takes_randInt (Nat.succ_pos _)).bind rfl fun flexPick hflex => ?_
  refine (takes_padLoop (Nat.zero_le _) (by rw [Nat.zero_add]; exact hflex)).bind rfl fun pads hpads => ?_
  have hfillers : (replicate (pingCount pings) { kind := .framePing : PlanEntry } ++ pads).length =
      2 * pingCount pings + 2 := by
    rw [length_append, length_replicate, hpads.length]
    ring
  refine (takes_gapLoop (by omega) length_replicate).bind hfillers fun gaps hgaps => takes_pure ?_
  rw [flatten_replicate_nil, nil_append] at hgaps
  have hlen := hperm.length_eq
  rw [length_range] at hlen
  obtain ⟨hfilterMap, hfilter⟩ := filter_zipWith_gaps (hgaps.1.trans hlen.symm) fun gap hgap e he => by
    have := hgaps.2.mem_iff.1 (mem_flatten.2 ⟨gap, hgap, he⟩)
    rcases mem_append.1 this with h | h
    · rw [eq_of_mem_replicate h]
      decide
    · rw [hpads.kind e h]
      decide
  refine ⟨?_, ?_, pads, hpads, ?_⟩
  · rw [hfilterMap]
    exact hperm
  · rw [hfilterMap]
    exact hhead
  · rw [hfilter]
    exact hgaps.2

/-! ### The payload is read back -/

def cryptoFrame (f : CryptoFragment) : GoString := 0x06 :: (quicVarint f.offset ++ (quicVarint f.data.length ++ f.data))

def entryBytes (frags : List CryptoFragment) (flexLen : ℕ) (e : PlanEntry) : GoString :=
  match e.kind with
  | .frameCrypto => (frags[e.cryptoIdx]?.map cryptoFrame).getD []
  | .framePing => [0x01]
  | .framePadding => List.replicate (if e.padFlex then flexLen else e.padLen) 0x00

def entryFrames (frags : List CryptoFragment) (flexLen : ℕ) (e : PlanEntry) : List Frame :=
  match e.kind with
  | .frameCrypto => (frags[e.cryptoIdx]?.map Frame.crypto).toList
  | .framePing => [.ping]
  | .framePadding => List.replicate (if e.padFlex then flexLen else e.padLen) .padding

def InRange (frags : List CryptoFragment) (plan : List PlanEntry) : Prop :=
  ∀ e ∈ plan, e.kind = .frameCrypto → e.cryptoIdx < frags.length

variable {plan : List PlanEntry}

lemma WirePlan.inRange {pings : ℕ} (h : WirePlan frags.length pings plan) : InRange frags plan := by
  intro e he hkind
  have : e.cryptoIdx ∈ plan.filterMap (·.crypto?) :=
    mem_filterMap.2 ⟨e, he, by rw [PlanEntry.crypto?, if_pos hkind]⟩
  exact mem_range.1 (h.order.mem_iff.1 this)

lemma emitLoop_eq {flexLen : ℕ} (h : InRange frags plan)
    (out : GoString) : emitLoop frags flexLen plan out = .ok (out ++ plan.flatMap (entryBytes frags flexLen)) := by
  induction plan generalizing out with
  | nil => simp [emitLoop]
  | cons e plan ih =>
    obtain ⟨he, hplan⟩ := forall_mem_cons.1 h
    rw [emitLoop, flatMap_cons, entryBytes]
    cases hkind : e.kind with
    | frameCrypto =>
      have hget := getElem?_eq_getElem (he hkind)
      rw [index_eq_ok.2 hget, ok_bind, ih hplan, hget]
      simp [appendCryptoFrame, appendQUICVarint, cryptoFrame]
    | framePing | framePadding =>
      dsimp only
      rw [ih hplan, append_assoc]

lemma buildInitialPayload_ok {targetLen : ℤ}
    {payload : GoString} (h : InRange frags plan) (hok : buildInitialPayload frags plan targetLen = .ok payload) :
    payload.length = targetLen ∧ targetLen ≤ maxAlloc ∧
      ∃ flexLen, payload = plan.flatMap (entryBytes frags flexLen) := by
  obtain ⟨⟨fixed, hasFlex⟩, -, hok⟩ := Except.bind_ok hok
  dsimp only at hok
  split at hok
  · cases hok
  split at hok
  · cases hok
  split at hok
  · cases hok
  rw [emitLoop_eq h, ok_bind] at hok
  split at hok
  · cases hok
  · cases hok
    exact ⟨by omega, by omega, _, rfl⟩

variable {f : CryptoFragment}

lemma reads_cryptoFrame (hoff : f.offset < 2 ^ 62) (hlen : f.data.length < 2 ^ 62) :
    Reads parseFrame (cryptoFrame f) (.crypto f) := by
  refine (reads_byte 0x06).bind ?_
  refine (reads_varint hoff).bind ?_
  refine (reads_varint hlen).bind ?_
  exact (reads_bytes rfl).map

lemma readsMany_padding (k : ℕ) : ReadsMany parseFrame (replicate k 0x00) (replicate k .padding) := by
  induction k with
  | zero => exact ReadsMany.nil parseFrame
  | succ k ih =>
    have h : Reads parseFrame [0x00] .padding := (reads_byte 0x00).bind (Reads.pure _)
    exact (h.many (cons_ne_nil _ _)).append ih

lemma readsMany_entry {flexLen : ℕ} {e : PlanEntry} (hfrags : ∀ f ∈ frags, f.offset < 2 ^ 62 ∧ f.data.length < 2 ^ 62) :
    ReadsMany parseFrame (entryBytes frags flexLen e) (entryFrames frags flexLen e) := by
  unfold entryBytes entryFrames
  cases e.kind with
  | frameCrypto =>
    cases hf : frags[e.cryptoIdx]? with
    | none => exact ReadsMany.nil parseFrame
    | some f =>
      obtain ⟨hoff, hlen⟩ := hfrags f (mem_of_getElem? hf)
      exact (reads_cryptoFrame hoff hlen).many (cons_ne_nil _ _)
  | framePing =>
    have h : Reads parseFrame [0x01] .ping := (reads_byte 0x01).bind (Reads.pure _)
    exact h.many (cons_ne_nil _ _)
  | framePadding => exact readsMany_padding _

def PlanEntry.fragment? (frags : List CryptoFragment) (e : PlanEntry) : Option CryptoFragment :=
  e.crypto?.bind (frags[·]?)

lemma filterMap_entryFrames (frags : List CryptoFragment) (flexLen : ℕ) (e : PlanEntry) :
    (entryFrames frags flexLen e).filterMap (·.crypto?) = (e.fragment? frags).toList := by
  unfold entryFrames PlanEntry.fragment? PlanEntry.crypto?
  cases e.kind with
  | frameCrypto | framePing | framePadding => cases hf : frags[e.cryptoIdx]? <;> simp [hf, Frame.crypto?]

def wireOrder (frags : List CryptoFragment) (plan : List PlanEntry) : List CryptoFragment :=
  plan.filterMap (·.fragment? frags)

lemma crypto_frames_eq (frags : List CryptoFragment) (flexLen : ℕ) (plan : List PlanEntry) :
    (plan.flatMap (entryFrames frags flexLen)).filterMap (·.crypto?) = wireOrder frags plan := by
  rw [wireOrder, filterMap_flatMap, filterMap_eq_flatMap_toList]
  simp only [filterMap_entryFrames]

lemma wireOrder_eq (frags : List CryptoFragment) (plan : List PlanEntry) :
    wireOrder frags plan = (plan.filterMap (·.crypto?)).filterMap (frags[·]?) := by
  rw [filterMap_filterMap]
  rfl

lemma length_fragment_le (frags : List CryptoFragment) (flexLen : ℕ) (e : PlanEntry) :
    ((e.fragment? frags).toList.flatMap (·.data)).length ≤ (entryBytes frags flexLen e).length := by
  unfold entryBytes PlanEntry.fragment? PlanEntry.crypto?
  cases e.kind with
  | frameCrypto =>
    cases hf : frags[e.cryptoIdx]? with
    | none => simp [hf]
    | some f =>
      simp [hf, cryptoFrame]
      omega
  | framePing | framePadding => simp

lemma length_wireOrder_le (frags : List CryptoFragment) (flexLen : ℕ) (plan : List PlanEntry) :
    ((wireOrder frags plan).flatMap (·.data)).length ≤ (plan.flatMap (entryBytes frags flexLen)).length := by
  rw [wireOrder, filterMap_eq_flatMap_toList]
  induction plan with
  | nil => exact le_rfl
  | cons e plan ih =>
    have := length_fragment_le frags flexLen e
    simp only [flatMap_cons, flatMap_append, length_append]
    omega

lemma filterMap_range_getElem? (frags : List CryptoFragment) : (range frags.length).filterMap (frags[·]?) = frags := by
  have h : (range frags.length).map (frags[·]?) = frags.map some := ext_getElem (by simp) (by simp)
  calc (range frags.length).filterMap (frags[·]?) = ((range frags.length).map (frags[·]?)).filterMap id := by
        rw [filterMap_map]
        rfl
    _ = frags := by rw [h]; simp

lemma WirePlan.wireOrder_perm {pings : ℕ}
    (h : WirePlan frags.length pings plan) : (wireOrder frags plan).Perm frags := by
  rw [wireOrder_eq]
  have := h.order.filterMap (frags[·]?)
  rwa [filterMap_range_getElem?] at this

lemma Contiguous.bounds : ∀ {off : ℕ}, Contiguous off frags → ∀ f ∈ frags,
    off ≤ f.offset ∧ f.offset + f.data.length ≤ off + (frags.flatMap (·.data)).length := by
  induction frags with
  | nil => exact fun _ f hf => by cases hf
  | cons g frags ih =>
    intro off h f hf
    rw [flatMap_cons, length_append]
    rcases mem_cons.1 hf with rfl | hf
    · have := h.1
      omega
    · have := ih h.2 f hf
      omega

lemma Fragments.offset_pos (h : Fragments ch n frags) {i : ℕ} (hi : i ≠ 0) (hf : frags[i]? = some f) :
    f.offset ≠ 0 := by
  obtain ⟨-, hne, hcont, -⟩ := h
  match frags, i, hi with
  | [], _, _ => simp at hf
  | g :: frags, i + 1, _ =>
    have hle := (hcont.2.bounds f (mem_of_getElem? hf)).1
    have hpos := length_pos_iff.2 (hne g mem_cons_self)
    omega

lemma WirePlan.head_wireOrder {pings : ℕ}
    (h : WirePlan frags.length pings plan) (hf : (wireOrder frags plan).head? = some f) :
    ∃ i, i ≠ 0 ∧ frags[i]? = some f := by
  rw [wireOrder_eq] at hf
  have horder := h.order
  have hhead := h.head
  cases hidx : plan.filterMap (·.crypto?) with
  | nil => simp [hidx] at hf
  | cons i idxs =>
    rw [hidx] at hf horder hhead
    have hi : i < frags.length := mem_range.1 (horder.mem_iff.1 mem_cons_self)
    refine ⟨i, fun h0 => hhead (by rw [h0]; rfl), ?_⟩
    rw [filterMap_cons, getElem?_eq_getElem hi] at hf
    rw [getElem?_eq_getElem hi]
    exact hf

/-- **The payload carries the ClientHello.**  A payload that was built has the length that was asked for and is a
sequence of frames; the CRYPTO frames are `n` fragments, none of them empty, that tile the ClientHello; and the first of
them is not at offset zero. -/
theorem initial_payload_carries (order : MapOrder) {ch : GoString} {n pings targetLen : ℤ}
    {draws rest draws' rest' : Draws String} {frags : List CryptoFragment} {plan : List PlanEntry} {payload : GoString}
    (hfrags : planFragmentsN order ch n draws = .ok (frags, rest))
    (hplan : randomizedWirePlan frags pings draws' = .ok (plan, rest'))
    (hpayload : buildInitialPayload frags plan targetLen = .ok payload) :
    payload.length = targetLen ∧ ∃ frames, parseFrame.many payload = some frames ∧
      (frames.filterMap (·.crypto?)).length = n ∧ (∀ f ∈ frames.filterMap (·.crypto?), f.data ≠ []) ∧
      Tiles (frames.filterMap (·.crypto?)) ch ∧ ∀ f, (frames.filterMap (·.crypto?)).head? = some f → f.offset ≠ 0 := by
  have hn : 2 ≤ n ∧ n ≤ ch.length := by
    unfold planFragmentsN at hfrags
    split at hfrags
    · cases hfrags
    split at hfrags
    · cases hfrags
    omega
  have hF := (gives_planFragmentsN order hn.1 hn.2).of_ok hfrags
  have hW := (takes_randomizedWirePlan pings (by rw [hF.length]; omega)).gives.of_ok hplan
  obtain ⟨hlen, hmax, flexLen, rfl⟩ := buildInitialPayload_ok hW.inRange hpayload
  have hperm := hW.wireOrder_perm
  -- the ClientHello fits the payload, so offsets and lengths are varints
  have hsmall : ∀ f ∈ frags, f.offset < 2 ^ 62 ∧ f.data.length < 2 ^ 62 := by
    have hle := length_wireOrder_le frags flexLen plan
    rw [(hperm.flatMap_right _).length_eq] at hle
    have hmaxAlloc : maxAlloc = 2 ^ 48 := rfl
    intro f hf
    have := hF.contiguous.bounds f hf
    omega
  refine ⟨hlen, _, (ReadsMany.flatMap fun e _ => readsMany_entry hsmall).many, ?_⟩
  rw [crypto_frames_eq]
  refine ⟨?_, fun f hf => hF.nonempty f (hperm.mem_iff.1 hf), ⟨frags, hperm.symm, hF.contiguous, hF.flatMap_data⟩, ?_⟩
  · rw [hperm.length_eq, hF.length]
    omega
  · intro f hf
    obtain ⟨i, hi, hget⟩ := hW.head_wireOrder hf
    exact hF.offset_pos hi hget

/-- The map ranged over in the order in which it was filled. -/
def MapOrder.filled : MapOrder := ⟨id, fun _ => List.Perm.refl _⟩

/-- Four bytes in two fragments, the second of them first. -/
theorem initial_payload_carries_short :
    ∃ frames, parseFrame.many ([6, 2, 2, 3, 4, 1] ++ replicate 8 0 ++ [6, 0, 2, 1, 2] ++ replicate 11 0) =
        some frames ∧ (frames.filterMap (·.crypto?)).length = (2 : ℤ) ∧
      Tiles (frames.filterMap (·.crypto?)) [1, 2, 3, 4] := by
  have hfrags : planFragmentsN .filled [1, 2, 3, 4] 2 [.ok 1] = .ok ([⟨0, [1, 2]⟩, ⟨2, [3, 4]⟩], []) := rfl
  have hplan : randomizedWirePlan [⟨0, [1, 2]⟩, ⟨2, [3, 4]⟩] 1 ([1, 0, 0, 0, 0, 1, 0, 1].map .ok) =
      .ok ([cryptoEntry 1, { kind := .framePing }, { kind := .framePadding, padLen := 8 }, cryptoEntry 0,
        { kind := .framePadding, padFlex := true }, { kind := .framePadding, padLen := 8 }], []) := rfl
  obtain ⟨-, frames, hparse, hlen, -, htiles, -⟩ :=
    initial_payload_carries .filled hfrags hplan (show buildInitialPayload _ _ 30 = _ from rfl)
  exact ⟨frames, hparse, hlen, htiles⟩

end SingBox.Awg
