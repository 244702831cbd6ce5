import SingBox.TlsFragment.Index

/-!
# TLS fragmentation

`Conn.Write`, which cuts the first packet of a TLS connection inside the labels of the server name, into packets, into
records, or both.  The cuts are random; `rand` is the sequence of the draws.  `publicSuffix` is the list of public
suffixes, of which only matters whether it knows one: then only the first label is cut.

The underlying writes succeed here; a write hands its bytes to the connection.
-/

namespace SingBox.TlsFragment

open SingBox.Lib List Except

/-! ### Cutting -/

/-- The labels, or only the first if the name has a public suffix. -/
def splitsOf (publicSuffix : GoString → GoString) (name : GoString) : Tf (List GoString) :=
  let splits := split 0x2e name
  if publicSuffix name ≠ [] then sliceOf splits 0 (splits.length - name.count 0x2e) else .ok splits

/-- The labels that are cut, and the index of the first. -/
def labelsToCut (publicSuffix : GoString → GoString) (sn : MyServerName) : Tf (List GoString × ℕ) := do
  let splits ← splitsOf publicSuffix sn.serverName
  if splits.length > 1 ∧ splits.head? = some (ascii "...") then
    return (splits.tail, sn.index + (ascii "...").length + 1)
  else return (splits, sn.index)

/-- The loop over the labels, from the `k`-th draw on. -/
def splitIndexes (rand : ℕ → ℕ) : (k currentIndex : ℕ) → List GoString → Tf (List ℕ)
  | _, _, [] => .ok []
  | k, currentIndex, label :: labels => do
    let splitAt ← intn (rand k) label.length
    let next := currentIndex + label.length + if labels = [] then 0 else 1
    let rest ← splitIndexes rand (k + 1) next labels
    return (currentIndex + splitAt) :: rest

/-- The bytes from one index to the next, and from the last one on. -/
def piecesFrom (b : GoString) : ℕ → List ℕ → Tf (List GoString)
  | lo, [] => do
    let piece ← sliceFrom b lo
    return [piece]
  | lo, hi :: indexes => do
    let piece ← sliceOf b lo hi
    let pieces ← piecesFrom b hi indexes
    return piece :: pieces

/-- The pieces; as records their payloads, of which the first one is without the header of `b`. -/
def piecesOf (b : GoString) (indexes : List ℕ) (splitRecord : Bool) : Tf (List GoString) := do
  let _ ← index indexes 0
  match ← piecesFrom b 0 indexes with
  | [] => return []
  | first :: pieces =>
    if splitRecord then
      let first ← sliceFrom first 5
      return first :: pieces
    else return first :: pieces

/-- A record with the type and the version of `b`. -/
def record (b payload : GoString) : GoString :=
  b.take 3 ++ [BitVec.ofNat 8 (payload.length / 2 ^ 8), BitVec.ofNat 8 payload.length] ++ payload

/-! ### Writing -/

/-- A connection is made only if one of the two is to be split. -/
structure Conn where
  firstPacketWritten : Bool := false
  splitPacket : Bool
  splitRecord : Bool
  enabled : splitPacket = true ∨ splitRecord = true

/-- What a write returns, what it has written to the connection below, and the connection. -/
structure Written where
  n : ℕ
  writes : List GoString
  conn : Conn

def Conn.writesOf (c : Conn) (b : GoString) (pieces : List GoString) : List GoString :=
  if c.splitRecord then
    if c.splitPacket then pieces.map (record b) else [(pieces.map (record b)).flatten]
  else pieces

def Conn.cutAt (c : Conn) (publicSuffix : GoString → GoString) (rand : ℕ → ℕ) (b : GoString) (sn : MyServerName) :
    Tf Written := do
  let (labels, currentIndex) ← labelsToCut publicSuffix sn
  let indexes ← splitIndexes rand 0 currentIndex labels
  let pieces ← piecesOf b indexes c.splitRecord
  return ⟨b.length, c.writesOf b pieces, c⟩

def Conn.write (c : Conn) (publicSuffix : GoString → GoString) (rand : ℕ → ℕ) (b : GoString) : Tf Written :=
  if !c.firstPacketWritten && b.length > 0 then do
    let c := { c with firstPacketWritten := true }
    match ← indexTLSServerName b with
    | none => return ⟨b.length, [b], c⟩
    | some sn => c.cutAt publicSuffix rand b sn
  else return ⟨b.length, [b], c⟩

def Conn.new (c : Conn) : Conn := { c with firstPacketWritten := false }

/-- What is written below by some writes, one after the other. -/
def Conn.writeAll (publicSuffix : GoString → GoString) (rand : ℕ → ℕ) : Conn → List GoString → Tf (List GoString)
  | _, [] => .ok []
  | c, b :: bs => do
    let written ← c.write publicSuffix rand b
    let rest ← Conn.writeAll publicSuffix rand written.conn bs
    return written.writes ++ rest

/-! ### The labels -/

lemma length_split (sep : Byte) (s : GoString) : (split sep s).length = s.count sep + 1 := by
  induction s with
  | nil => rfl
  | cons b s ih =>
    rw [split]
    split
    next h =>
      subst h
      rw [length_cons, ih, count_cons_self]
    next h =>
      rw [count_cons_of_ne h]
      split
      next hnil => exact absurd hnil (split_ne_nil _ _)
      next p ps heq =>
        rw [heq] at ih
        exact ih

lemma not_mem_of_mem_split {sep : Byte} {s : GoString} : ∀ {label : GoString}, label ∈ split sep s → sep ∉ label := by
  induction s with
  | nil =>
    intro label h
    rw [split, mem_singleton] at h
    simp [h]
  | cons b s ih =>
    intro label h
    rw [split] at h
    split at h
    · rcases mem_cons.1 h with rfl | h
      · simp
      · exact ih h
    next hb =>
      split at h
      next hnil => exact absurd hnil (split_ne_nil _ _)
      next p ps heq =>
        rcases mem_cons.1 h with rfl | h
        · rw [mem_cons, not_or]
          exact ⟨fun h => hb h.symm, ih (heq ▸ mem_cons_self)⟩
        · exact ih (heq ▸ mem_cons_of_mem _ h)

/-- The length of some labels with the separators between them. -/
def joinedLength : List GoString → ℕ
  | [] => 0
  | [label] => label.length
  | label :: labels => label.length + 1 + joinedLength labels

lemma joinedLength_cons_cons (label label' : GoString) (labels : List GoString) :
    joinedLength (label :: label' :: labels) = label.length + 1 + joinedLength (label' :: labels) := rfl

lemma joinedLength_split (sep : Byte) (s : GoString) : joinedLength (split sep s) = s.length := by
  induction s with
  | nil => rfl
  | cons b s ih =>
    rw [split]
    split
    · cases hs : split sep s with
      | nil => exact absurd hs (split_ne_nil _ _)
      | cons p ps =>
        rw [joinedLength_cons_cons, ← hs, length_cons, length_nil]
        omega
    · split
      next hnil => exact absurd hnil (split_ne_nil _ _)
      next p ps heq =>
        rw [heq] at ih
        cases ps with
        | nil =>
          rw [joinedLength] at ih ⊢
          rw [length_cons, length_cons, ih]
        | cons p' ps =>
          rw [joinedLength_cons_cons] at ih ⊢
          rw [length_cons, length_cons]
          omega

def cutLabels (publicSuffix : GoString → GoString) (name : GoString) : List GoString :=
  if publicSuffix name ≠ [] then (split 0x2e name).take 1 else split 0x2e name

variable (publicSuffix : GoString → GoString)

lemma cutLabels_ne_nil (name : GoString) : cutLabels publicSuffix name ≠ [] := by
  have h := split_ne_nil 0x2e name
  rw [cutLabels]
  split
  · simpa using h
  · exact h

lemma mem_split_of_mem_cutLabels {publicSuffix : GoString → GoString} {name label : GoString}
    (h : label ∈ cutLabels publicSuffix name) : label ∈ split 0x2e name := by
  rw [cutLabels] at h
  split at h
  · exact mem_of_mem_take h
  · exact h

lemma joinedLength_cutLabels_le (name : GoString) : joinedLength (cutLabels publicSuffix name) ≤ name.length := by
  have h := joinedLength_split 0x2e name
  rw [cutLabels]
  split
  · rw [← h]
    cases hs : split 0x2e name with
    | nil => exact absurd hs (split_ne_nil _ _)
    | cons p ps =>
      cases ps with
      | cons p' ps | nil =>
        simp only [take_succ_cons, take_zero, joinedLength]
        omega
  · exact h.le

/-- No label is `...`, so that looking for one changes nothing. -/
lemma labelsToCut_eq (sn : MyServerName) :
    labelsToCut publicSuffix sn = .ok (cutLabels publicSuffix sn.serverName, sn.index) := by
  have hsplits : splitsOf publicSuffix sn.serverName = .ok (cutLabels publicSuffix sn.serverName) := by
    simp only [splitsOf, cutLabels]
    split
    · refine sliceOf_eq_ok.2 ⟨⟨by omega, by omega⟩, ?_⟩
      rw [length_split, Nat.add_sub_cancel_left]
      rfl
    · rfl
  have hdots : (cutLabels publicSuffix sn.serverName).head? ≠ some (ascii "...") := by
    intro h
    exact not_mem_of_mem_split (mem_split_of_mem_cutLabels (mem_of_head? h)) (by decide)
  rw [labelsToCut, hsplits, ok_bind, if_neg fun h => hdots h.2]
  rfl

/-! ### The cuts -/

/-- Where the labels are cut, for some draws. -/
def cutsOf (rand : ℕ → ℕ) : (k currentIndex : ℕ) → List GoString → List ℕ
  | _, _, [] => []
  | k, currentIndex, label :: labels =>
    (currentIndex + rand k % label.length) ::
      cutsOf rand (k + 1) (currentIndex + label.length + if labels = [] then 0 else 1) labels

lemma splitIndexes_eq (rand : ℕ → ℕ) : ∀ {labels : List GoString} (k currentIndex : ℕ),
    (∀ label ∈ labels, label ≠ []) → splitIndexes rand k currentIndex labels = .ok (cutsOf rand k currentIndex labels)
  | [], _, _, _ => rfl
  | label :: labels, k, currentIndex, h => by
    have hne : label.length ≠ 0 := fun h0 => h label mem_cons_self (length_eq_zero_iff.1 h0)
    rw [splitIndexes, intn, if_neg hne]
    dsimp only [ok_bind]
    rw [splitIndexes_eq rand _ _ fun label' h' => h label' (mem_cons_of_mem _ h')]
    rfl

lemma ends_splitIndexes (rand : ℕ → ℕ) : ∀ {labels : List GoString} (k currentIndex : ℕ),
    Ends (splitIndexes rand k currentIndex labels) ↔ ∀ label ∈ labels, label ≠ []
  | [], _, _ => by simp [splitIndexes]
  | label :: labels, k, currentIndex => by
    rw [splitIndexes, ends_bind, forall_mem_cons]
    cases label with
    | nil => exact ⟨fun h => h.1.elim, fun h => absurd rfl h.1⟩
    | cons x label =>
      constructor
      · rintro ⟨-, h⟩
        exact ⟨cons_ne_nil _ _, (ends_splitIndexes rand _ _).1 (ends_bind.1 (h _ rfl)).1⟩
      · rintro ⟨-, h⟩
        exact ⟨trivial, fun _ _ => ends_bind.2 ⟨(ends_splitIndexes rand _ _).2 h, fun _ _ => trivial⟩⟩

lemma cutsOf_bounds (rand : ℕ → ℕ) : ∀ {labels : List GoString} (k currentIndex : ℕ),
    (∀ label ∈ labels, label ≠ []) → ∀ i ∈ cutsOf rand k currentIndex labels,
      currentIndex ≤ i ∧ i < currentIndex + joinedLength labels
  | [], _, _, _, _, hi => by simp [cutsOf] at hi
  | label :: labels, k, currentIndex, h, i, hi => by
    have hpos : 0 < label.length := length_pos_iff.2 (h label mem_cons_self)
    have hmod := Nat.mod_lt (rand k) hpos
    have hle : label.length ≤ joinedLength (label :: labels) := by
      cases labels with
      | nil => exact le_rfl
      | cons label' labels =>
        rw [joinedLength_cons_cons]
        omega
    rw [cutsOf] at hi
    rcases mem_cons.1 hi with rfl | hi
    · omega
    · have hrest := cutsOf_bounds rand _ _ (fun label' h' => h label' (mem_cons_of_mem _ h')) i hi
      cases labels with
      | nil => simp [cutsOf] at hi
      | cons label' labels =>
        rw [if_neg (by simp)] at hrest
        rw [joinedLength_cons_cons]
        omega

lemma cutsOf_sorted (rand : ℕ → ℕ) : ∀ {labels : List GoString} (k currentIndex : ℕ),
    (∀ label ∈ labels, label ≠ []) → (cutsOf rand k currentIndex labels).Pairwise (· < ·)
  | [], _, _, _ => List.Pairwise.nil
  | label :: labels, k, currentIndex, h => by
    have hpos : 0 < label.length := length_pos_iff.2 (h label mem_cons_self)
    have hmod := Nat.mod_lt (rand k) hpos
    have hrest : ∀ label' ∈ labels, label' ≠ [] := fun label' h' => h label' (mem_cons_of_mem _ h')
    rw [cutsOf, pairwise_cons]
    refine ⟨fun i hi => ?_, cutsOf_sorted rand _ _ hrest⟩
    have := (cutsOf_bounds rand _ _ hrest i hi).1
    omega

lemma cutsOf_add (rand : ℕ → ℕ) (a : ℕ) : ∀ (labels : List GoString) (k currentIndex : ℕ),
    cutsOf rand k (a + currentIndex) labels = (cutsOf rand k currentIndex labels).map (a + ·)
  | [], _, _ => rfl
  | label :: labels, k, currentIndex => by
    simp only [cutsOf, map_cons, ← cutsOf_add rand a labels, Nat.add_assoc]

/-! ### The pieces -/

lemma ends_piecesFrom (b : GoString) : ∀ {indexes : List ℕ} {lo : ℕ}, (lo :: indexes).Pairwise (· ≤ ·) →
    (Ends (piecesFrom b lo indexes) ↔ lo ≤ b.length ∧ ∀ i ∈ indexes, i ≤ b.length)
  | [], lo, _ => by
    rw [piecesFrom, ends_bind, ends_sliceFrom]
    exact ⟨fun h => ⟨h.1, by simp⟩, fun h => ⟨h.1, fun _ _ => trivial⟩⟩
  | hi :: indexes, lo, h => by
    have hle : lo ≤ hi := (pairwise_cons.1 h).1 hi mem_cons_self
    have ih := ends_piecesFrom b (pairwise_cons.1 h).2
    rw [piecesFrom, ends_bind, ends_sliceOf, forall_mem_cons]
    constructor
    · rintro ⟨⟨-, hlen⟩, hrest⟩
      have := ih.1 (ends_bind.1 (hrest _ (sliceOf_eq_ok.2 ⟨⟨hle, hlen⟩, rfl⟩))).1
      exact ⟨by omega, hlen, this.2⟩
    · rintro ⟨-, hlen, hrest⟩
      exact ⟨⟨hle, hlen⟩, fun _ _ => ends_bind.2 ⟨ih.2 ⟨hlen, hrest⟩, fun _ _ => trivial⟩⟩

/-- The pieces are not empty, and put together they are the bytes. -/
lemma piecesFrom_eq (b : GoString) : ∀ {indexes : List ℕ} {lo : ℕ}, (lo :: indexes).Pairwise (· < ·) →
    (∀ i ∈ lo :: indexes, i < b.length) →
    ∃ pieces, piecesFrom b lo indexes = .ok pieces ∧ pieces.flatten = b.drop lo ∧ ∀ p ∈ pieces, p ≠ []
  | [], lo, _, hlen => by
    have hlo := hlen lo mem_cons_self
    refine ⟨[b.drop lo], ?_, by simp, ?_⟩
    · rw [piecesFrom, sliceFrom_eq_ok.2 ⟨hlo.le, rfl⟩]
      rfl
    · simpa using hlo
  | hi :: indexes, lo, h, hlen => by
    have hlt : lo < hi := (pairwise_cons.1 h).1 hi mem_cons_self
    have hhi := hlen hi (by simp)
    obtain ⟨pieces, heq, hflat, hne⟩ :=
      piecesFrom_eq b (pairwise_cons.1 h).2 fun i hi => hlen i (mem_cons_of_mem _ hi)
    refine ⟨(b.take hi).drop lo :: pieces, ?_, ?_, ?_⟩
    · rw [piecesFrom, sliceOf_eq_ok.2 ⟨⟨hlt.le, hhi.le⟩, rfl⟩, ok_bind, heq]
      rfl
    · rw [flatten_cons, hflat]
      calc (b.take hi).drop lo ++ b.drop hi = (b.take hi ++ b.drop hi).drop lo := by
            rw [drop_append_of_le_length (by rw [length_take]; omega)]
        _ = b.drop lo := by rw [take_append_drop]
    · rw [forall_mem_cons]
      refine ⟨?_, hne⟩
      rw [← length_pos_iff, length_drop, length_take]
      omega

variable {b : GoString} {indexes : List ℕ}

lemma ends_piecesOf (splitRecord : Bool) (hne : indexes ≠ [])
    (hsorted : indexes.Pairwise (· < ·)) (h5 : ∀ i ∈ indexes, 5 ≤ i) :
    Ends (piecesOf b indexes splitRecord) ↔ ∀ i ∈ indexes, i ≤ b.length := by
  cases indexes with
  | nil => exact absurd rfl hne
  | cons i indexes =>
    have hle : (0 :: i :: indexes).Pairwise (· ≤ ·) :=
      pairwise_cons.2 ⟨fun _ _ => Nat.zero_le _, hsorted.imp Nat.le_of_lt⟩
    have hfrom := ends_piecesFrom b hle
    rw [piecesOf, ends_bind]
    constructor
    · rintro ⟨-, h⟩
      exact (hfrom.1 (ends_bind.1 (h i rfl)).1).2
    · intro h
      refine ⟨trivial, fun _ _ => ends_bind.2 ⟨hfrom.2 ⟨Nat.zero_le _, h⟩, fun pieces hpieces => ?_⟩⟩
      obtain ⟨first, hfirst, hpieces⟩ := bind_ok hpieces
      obtain ⟨rest, -, hpieces⟩ := bind_ok hpieces
      cases hpieces
      have hlen := (returns_sliceOf (Nat.zero_le _) (h i mem_cons_self)).2 first hfirst
      have := h5 i mem_cons_self
      cases splitRecord with
      | false => exact trivial
      | true => exact ends_bind.2 ⟨ends_sliceFrom.2 (by omega), fun _ _ => trivial⟩

/-! ### When a write returns -/

/-- The first packet can be cut: the walk over its extensions advances, no label that is cut is empty, and behind each
cut in the name, the draws of which are `cutsOf rand 0 0`, the packet has 65536 bytes for every extension of 65532 bytes
or more before the name. -/
structure Cuttable (publicSuffix : GoString → GoString) (rand : ℕ → ℕ) (b : GoString) : Prop where
  walk : ∀ exs, Walks b exs → Advances exs
  labels : ∀ sn, indexTLSServerName b = .ok (some sn) → ∀ label ∈ cutLabels publicSuffix sn.serverName, label ≠ []
  room : ∀ lens rest, Named b lens rest → ∀ sn, indexTLSServerName b = .ok (some sn) →
    ∀ i ∈ cutsOf rand 0 0 (cutLabels publicSuffix sn.serverName), 9 + i + 65536 * wraps lens ≤ rest.length

variable {sn : MyServerName}

lemma Conn.ends_cutAt (c : Conn) (publicSuffix : GoString → GoString) (rand : ℕ → ℕ) (b : GoString)
    (h16 : 16 ≤ sn.index) :
    Ends (c.cutAt publicSuffix rand b sn) ↔ (∀ label ∈ cutLabels publicSuffix sn.serverName, label ≠ []) ∧
      ∀ i ∈ cutsOf rand 0 sn.index (cutLabels publicSuffix sn.serverName), i ≤ b.length := by
  rw [Conn.cutAt, labelsToCut_eq, ok_bind, ends_bind, ends_splitIndexes]
  refine and_congr_right fun hlabels => ?_
  rw [splitIndexes_eq rand _ _ hlabels]
  have hpieces := ends_piecesOf (b := b) c.splitRecord ?_ (cutsOf_sorted rand 0 sn.index hlabels) ?_
  · constructor
    · intro h
      exact hpieces.1 (ends_bind.1 (h _ rfl)).1
    · intro h indexes hindexes
      cases hindexes
      exact ends_bind.2 ⟨hpieces.2 h, fun _ _ => trivial⟩
  · cases hc : cutLabels publicSuffix sn.serverName with
    | nil => exact absurd hc (cutLabels_ne_nil _ _)
    | cons label labels => exact cons_ne_nil _ _
  · intro i hi
    have := (cutsOf_bounds rand 0 sn.index hlabels i hi).1
    omega

/-- A cut is in the packet if there is room for the wraps behind it. -/
lemma cuts_le_iff (rand : ℕ → ℕ) (labels : List GoString)
    (hsn : indexTLSServerName b = .ok (some sn)) : (∀ i ∈ cutsOf rand 0 sn.index labels, i ≤ b.length) ↔
      ∀ lens rest, Named b lens rest → ∀ i ∈ cutsOf rand 0 0 labels, 9 + i + 65536 * wraps lens ≤ rest.length := by
  obtain ⟨-, lens, rest, hnamed, -, -, hindex, -⟩ := indexTLSServerName_index hsn
  have hcuts := cutsOf_add rand sn.index labels 0 0
  rw [Nat.add_zero] at hcuts
  rw [hcuts, forall_mem_map]
  constructor
  · intro h lens' rest' hnamed' i hi
    obtain ⟨rfl, rfl⟩ := hnamed.unique hnamed'
    have := h i hi
    omega
  · intro h i hi
    have := h lens rest hnamed i hi
    omega

/-- **The first write returns exactly if the packet can be cut.** -/
theorem ends_first_write_iff (c : Conn) (publicSuffix : GoString → GoString) (rand : ℕ → ℕ) (b : GoString) :
    Ends (c.new.write publicSuffix rand b) ↔ Cuttable publicSuffix rand b := by
  have hcut (sn : MyServerName) (hsn : indexTLSServerName b = .ok (some sn)) :
      Ends (Conn.cutAt { c.new with firstPacketWritten := true } publicSuffix rand b sn) ↔
        (∀ label ∈ cutLabels publicSuffix sn.serverName, label ≠ []) ∧ ∀ lens rest, Named b lens rest →
          ∀ i ∈ cutsOf rand 0 0 (cutLabels publicSuffix sn.serverName), 9 + i + 65536 * wraps lens ≤ rest.length := by
    obtain ⟨-, lens, rest, -, -, h7, hindex, -⟩ := indexTLSServerName_index hsn
    rw [Conn.ends_cutAt _ publicSuffix rand b (by omega), cuts_le_iff rand _ hsn]
  rw [Conn.write]
  split
  · rw [ends_bind, ends_indexTLSServerName]
    constructor
    · rintro ⟨hwalk, h⟩
      exact ⟨hwalk, fun sn hsn => ((hcut sn hsn).1 (h _ hsn)).1,
        fun lens rest hnamed sn hsn => ((hcut sn hsn).1 (h _ hsn)).2 lens rest hnamed⟩
    · intro h
      refine ⟨h.walk, fun r hr => ?_⟩
      cases r with
      | none => exact trivial
      | some sn => exact (hcut sn hr).2 ⟨h.labels sn hr, fun lens rest hnamed => h.room lens rest hnamed sn hr⟩
  next hb =>
    have hnil : b = [] := by
      simpa [Conn.new] using hb
    subst hnil
    refine ⟨fun _ => ⟨?_, fun sn hsn => ?_, fun _ _ _ sn hsn => ?_⟩, fun _ => trivial⟩
    · rintro exs ⟨handshake, i, hhs, -⟩
      cases hhs
    · cases hsn
    · cases hsn

/-! ### What is written -/

/-- The packet is one complete record. -/
def IsRecord (b : GoString) : Prop :=
  ∃ segmentLen : BitVec 16, (uint16At b 3 : Tf _) = .ok segmentLen ∧ b.length = 5 + segmentLen.toNat

/-- The payloads of the records: not empty, of a length of 16 bits, and together the payload of the packet. -/
structure Payloads (b : GoString) (payloads : List GoString) : Prop where
  ne_nil : ∀ p ∈ payloads, p ≠ []
  length : ∀ p ∈ payloads, p.length < 2 ^ 16
  flatten : payloads.flatten = b.drop 5

lemma piecesFrom_zero {i : ℕ} (hsorted : (i :: indexes).Pairwise (· < ·))
    (hpos : 0 < i) (hlen : ∀ j ∈ i :: indexes, j < b.length) :
    ∃ first rest, piecesFrom b 0 (i :: indexes) = .ok (first :: rest) ∧ first.length = i ∧
      first ++ rest.flatten = b ∧ ∀ p ∈ rest, p ≠ [] := by
  have hsorted0 : (0 :: i :: indexes).Pairwise (· < ·) := by
    refine pairwise_cons.2 ⟨fun j hj => ?_, hsorted⟩
    rcases mem_cons.1 hj with rfl | hj
    · exact hpos
    · exact hpos.trans ((pairwise_cons.1 hsorted).1 j hj)
  obtain ⟨pieces, heq, hflat, hne⟩ := piecesFrom_eq b hsorted0 fun j hj => by
    rcases mem_cons.1 hj with rfl | hj
    · exact (Nat.zero_le i).trans_lt (hlen i mem_cons_self)
    · exact hlen j hj
  have hpieces := heq
  obtain ⟨first, hfirst, hpieces⟩ := bind_ok hpieces
  obtain ⟨rest, -, hpieces⟩ := bind_ok hpieces
  cases hpieces
  refine ⟨first, rest, heq, ?_, hflat, fun p hp => hne p (mem_cons_of_mem _ hp)⟩
  exact (returns_sliceOf (Nat.zero_le _) (hlen i mem_cons_self).le).2 first hfirst

lemma piecesOf_packets {i : ℕ} (hsorted : (i :: indexes).Pairwise (· < ·))
    (hpos : 0 < i) (hlen : ∀ j ∈ i :: indexes, j < b.length) :
    ∃ pieces, piecesOf b (i :: indexes) false = .ok pieces ∧ pieces.flatten = b := by
  obtain ⟨first, rest, heq, -, hflat, -⟩ := piecesFrom_zero hsorted hpos hlen
  refine ⟨first :: rest, ?_, hflat⟩
  rw [piecesOf, heq]
  rfl

lemma piecesOf_records {i : ℕ} (hsorted : (i :: indexes).Pairwise (· < ·))
    (h5 : 5 < i) (hlen : ∀ j ∈ i :: indexes, j < b.length) (hrec : b.length < 5 + 2 ^ 16) :
    ∃ payloads, piecesOf b (i :: indexes) true = .ok payloads ∧ Payloads b payloads := by
  obtain ⟨first, rest, heq, hfirst, hflat, hne⟩ := piecesFrom_zero hsorted (by omega) hlen
  have hdrop : (first.drop 5 :: rest).flatten = b.drop 5 := by
    rw [flatten_cons, ← drop_append_of_le_length (by omega), hflat]
  refine ⟨first.drop 5 :: rest, ?_, ?_, fun p hp => ?_, hdrop⟩
  · rw [piecesOf, heq]
    dsimp only [index, ok_bind]
    rw [sliceFrom_eq_ok.2 ⟨by omega, rfl⟩]
    rfl
  · rw [forall_mem_cons]
    refine ⟨?_, hne⟩
    rw [← length_pos_iff, length_drop]
    omega
  · have hle := (sublist_flatten_of_mem hp).length_le
    rw [hdrop, length_drop] at hle
    omega

lemma writeAll_passes (rand : ℕ → ℕ) {c : Conn}
    (h : c.firstPacketWritten = true) (later : List GoString) : c.writeAll publicSuffix rand later = .ok later := by
  induction later with
  | nil => rfl
  | cons b later ih =>
    have hwrite : c.write publicSuffix rand b = .ok ⟨b.length, [b], c⟩ := by
      rw [Conn.write, h]
      rfl
    rw [Conn.writeAll, hwrite, ok_bind, ih]
    rfl

lemma Conn.cutAt_eq (c : Conn) (publicSuffix : GoString → GoString) (rand : ℕ → ℕ)
    (h16 : 16 ≤ sn.index) (hin : sn.index + sn.serverName.length ≤ b.length) (hrec : b.length < 5 + 2 ^ 16)
    (hlabels : ∀ label ∈ split 0x2e sn.serverName, label ≠ []) :
    ∃ writes, c.cutAt publicSuffix rand b sn = .ok ⟨b.length, writes, c⟩ ∧
      (c.splitRecord = false → writes.flatten = b) ∧ (c.splitRecord = true → ∃ payloads, Payloads b payloads ∧
        writes.flatten = (payloads.map (record b)).flatten) := by
  have hcut : ∀ label ∈ cutLabels publicSuffix sn.serverName, label ≠ [] :=
    fun label h => hlabels label (mem_split_of_mem_cutLabels h)
  have hsorted := cutsOf_sorted rand 0 sn.index hcut
  have hbounds := cutsOf_bounds rand 0 sn.index hcut
  have hname := joinedLength_cutLabels_le publicSuffix sn.serverName
  rw [Conn.cutAt, labelsToCut_eq, ok_bind]
  dsimp only
  rw [splitIndexes_eq rand _ _ hcut, ok_bind]
  generalize hindexes : cutsOf rand 0 sn.index (cutLabels publicSuffix sn.serverName) = indexes at hsorted hbounds
  cases indexes with
  | nil =>
    cases hc : cutLabels publicSuffix sn.serverName with
    | nil => exact absurd hc (cutLabels_ne_nil _ _)
    | cons label labels =>
      rw [hc] at hindexes
      cases hindexes
  | cons i indexes =>
    have hlen : ∀ j ∈ i :: indexes, j < b.length := fun j hj => by
      have := (hbounds j hj).2
      omega
    have h5 : 5 < i := by
      have := (hbounds i mem_cons_self).1
      omega
    cases hsplit : c.splitRecord with
    | false =>
      obtain ⟨pieces, heq, hflat⟩ := piecesOf_packets hsorted (by omega) hlen
      refine ⟨_, by rw [heq]; rfl, fun _ => ?_, by simp⟩
      rw [Conn.writesOf, hsplit]
      exact hflat
    | true =>
      obtain ⟨payloads, heq, hpay⟩ := piecesOf_records hsorted h5 hlen hrec
      refine ⟨_, by rw [heq]; rfl, by simp, fun _ => ⟨payloads, hpay, ?_⟩⟩
      rw [Conn.writesOf, hsplit]
      cases c.splitPacket with
      | false | true => simp

/-- **Fragmentation does not change the stream.**  One complete record with a server name without empty labels is
written as pieces that are the packet together, or as records with its type and version whose payloads are its payload
together; the write returns the length of the packet, and later writes are passed on. -/
theorem first_write_keeps_stream (c : Conn) (publicSuffix : GoString → GoString) (rand : ℕ → ℕ) {b : GoString}
    {sn : MyServerName} (hrec : IsRecord b) (hsn : indexTLSServerName b = .ok (some sn))
    (hlabels : ∀ label ∈ split 0x2e sn.serverName, label ≠ []) :
    ∃ writes conn, c.new.write publicSuffix rand b = .ok ⟨b.length, writes, conn⟩ ∧
      (c.splitRecord = false → writes.flatten = b) ∧
      (c.splitRecord = true → ∃ payloads, Payloads b payloads ∧ writes.flatten = (payloads.map (record b)).flatten) ∧
      ∀ later, conn.writeAll publicSuffix rand later = .ok later := by
  obtain ⟨segmentLen, -, hlen⟩ := hrec
  obtain ⟨h5, lens, rest, -, hn, h7, hindex, hwraps⟩ := indexTLSServerName_index hsn
  have h0 := hwraps (by omega)
  obtain ⟨writes, heq, hpackets, hrecords⟩ := Conn.cutAt_eq { c.new with firstPacketWritten := true } publicSuffix
    rand (b := b) (by omega) (by omega) (by omega) hlabels
  refine ⟨writes, { c.new with firstPacketWritten := true }, ?_, hpackets, hrecords,
    writeAll_passes publicSuffix rand rfl⟩
  have hfirst : (!c.new.firstPacketWritten && decide (b.length > 0)) = true := by
    simp [Conn.new]
    omega
  rw [Conn.write, hfirst, hsn]
  exact heq

/-! ### Some packets -/

/-- A client hello with an extension, in a record. -/
def clientHello (extension : GoString) : GoString :=
  let body : GoString := [3, 3] ++ List.replicate 32 0 ++ [0, 0, 0, 0, 0, BitVec.ofNat 8 extension.length] ++ extension
  [22, 3, 1, 0, BitVec.ofNat 8 (4 + body.length), 1, 0, 0, BitVec.ofNat 8 body.length] ++ body

def serverNameExtension (name : GoString) : GoString :=
  [0, 0, 0, BitVec.ofNat 8 (5 + name.length), 0, BitVec.ofNat 8 (3 + name.length), 0, 0,
   BitVec.ofNat 8 name.length] ++ name

/-- Both packets and records are split. -/
def splitBoth : Conn := ⟨false, true, true, Or.inl rfl⟩

def sampleHello : GoString := clientHello (serverNameExtension (ascii "a.b"))

/-- Its two labels are cut. -/
theorem sample_keeps_stream :
    ∃ writes conn, splitBoth.new.write (fun _ => []) id sampleHello = .ok ⟨sampleHello.length, writes, conn⟩ ∧
      (splitBoth.splitRecord = false → writes.flatten = sampleHello) ∧
      (splitBoth.splitRecord = true → ∃ payloads, Payloads sampleHello payloads ∧
        writes.flatten = (payloads.map (record sampleHello)).flatten) ∧
      ∀ later, conn.writeAll (fun _ => []) id later = .ok later :=
  first_write_keeps_stream splitBoth (fun _ => []) id ⟨56, by decide, by decide⟩
    (by decide : indexTLSServerName sampleHello = .ok (some ⟨58, 3, ascii "a.b", 47⟩)) (by decide)

/-- A client hello with an extension of 65532 bytes that is no server name; the record ends before it. -/
def longHello (body : GoString) : GoString :=
  [22, 3, 1, 0, 0, 1, 1, 0, 40, 3, 3] ++ List.replicate 32 0 ++ [0, 0, 0, 0, 0, 0, 0, 1, 0xff, 0xfc] ++ body

lemma walk_longHello {body : GoString} (h : body.length = 65532) :
    walk ([0, 1, 0xff, 0xfc] ++ body) = .error .loop := by
  refine settles_extensionBody.iterate_stuck _ trivial ⟨?_, rfl, ?_⟩
  · simp [h]
  · intro h
    cases h

lemma index_longHello {body : GoString} (h : body.length = 65532) :
    indexTLSServerName (longHello body) = .error .loop := by
  have hhs : handshakeOf (longHello body) = .ok (some ((longHello body).drop 5)) := by
    simp [handshakeOf, longHello, index, uint16At, sliceFrom, h]
  have hidx : extensionsIndex ((longHello body).drop 5) = .ok (some 42) := by
    simp [extensionsIndex, longHello, index, sliceFrom, h]
    rfl
  have hblock : extensionsBlock (((longHello body).drop 5).drop 42) = .ok (some ([0, 1, 0xff, 0xfc] ++ body)) := by
    rfl
  have hexs : (sliceFrom ((longHello body).drop 5) 42 : Tf _) = .ok (((longHello body).drop 5).drop 42) :=
    sliceFrom_eq_ok.2 ⟨by simp [longHello], rfl⟩
  rw [indexTLSServerName, hhs, ok_bind]
  dsimp only
  rw [indexTLSServerNameFromHandshake, hidx, ok_bind]
  dsimp only
  rw [hexs, ok_bind, indexTLSServerNameFromExtensions, hblock, ok_bind]
  dsimp only
  rw [walk_longHello h]
  rfl

/-- A server name without a label panics, and an extension of 65532 bytes is walked forever. -/
theorem empty_label_and_long_extension :
    splitBoth.new.write (fun _ => []) id (clientHello (serverNameExtension [])) = .error .panic ∧
      ∀ body : GoString, body.length = 65532 →
        splitBoth.new.write (fun _ => []) id (longHello body) = .error .loop := by
  constructor
  · rfl
  · intro body h
    rw [Conn.write, index_longHello h]
    rfl

end SingBox.TlsFragment
