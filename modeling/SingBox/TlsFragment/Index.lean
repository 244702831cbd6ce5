import SingBox.Lib.Exec

/-!
# Finding the server name in a client hello

`IndexTLSServerName`, by which the first packet of a TLS connection is cut.  The extensions are walked with two
positions: the rest of the bytes, advanced by a sum of 16 bits, and an index, advanced by the same sum of 64.  The two
part at an extension of 65532 bytes or more; at one of 65532 the walk does not advance at all.  A record is too short
for such an extension, but the handshake is not cut to the record.
-/

namespace SingBox.TlsFragment

open SingBox.Lib Except

/-! ### The search -/

structure MyServerName where
  index : ℕ
  length : ℕ
  serverName : GoString
  extensionsListLengthIndex : ℕ := 0
  deriving DecidableEq, Repr

/-- A call that returns no error. -/
abbrev Tf (α : Type) := Exec Empty α

/-- The name in the body of a `server_name` extension. -/
def nameOf (sex : GoString) (currentIndex : ℕ) : Tf (Option MyServerName) :=
  if sex.length < 5 then .ok none
  else do
    let sniType ← index sex 2
    if sniType ≠ 0 then return none
    else
      let sniLen ← uint16At sex 3
      let sex ← sliceFrom sex 5
      return some { index := currentIndex + 4 + 5, length := sniLen.toNat, serverName := sex }

def extensionBody (s : GoString × ℕ) : Tf ((GoString × ℕ) ⊕ Option MyServerName) :=
  let (exs, currentIndex) := s
  if exs.length = 0 then .ok (.inr none)
  else if exs.length < 4 then .ok (.inr none)
  else do
    let exType ← uint16At exs 0
    let exLen ← uint16At exs 2
    if exs.length < 4 + exLen.toNat then return .inr none
    else
      let sex ← sliceOf exs 4 (4 + exLen.toNat)
      if exType = 0 then
        let name ← nameOf sex currentIndex
        return .inr name
      else
        -- the sum is of 16 bits here
        let exs ← sliceFrom exs (4 + exLen).toNat
        return .inl (exs, currentIndex + (4 + exLen.toNat))

/-- The loop over the extensions; it has ended by then, or never will (`walk_eq`). -/
def walkIn (n : ℕ) (exs : GoString) : Tf (Option MyServerName) := iterate extensionBody n (exs, 2)

def walk (exs : GoString) : Tf (Option MyServerName) := walkIn (exs.length + 1) exs

/-- The extensions without their length, if they are to be walked. -/
def extensionsBlock (exs : GoString) : Tf (Option GoString) :=
  if exs.length = 0 then .ok none
  else if exs.length < 2 then .ok none
  else do
    let exsLen ← uint16At exs 0
    let exs ← sliceFrom exs 2
    if exs.length < exsLen.toNat then return none else return some exs

def indexTLSServerNameFromExtensions (exs : GoString) : Tf (Option MyServerName) := do
  match ← extensionsBlock exs with
  | none => return none
  | some exs => walk exs

/-- The versions SSL3.0 to TLS1.2, and TLS1.3. -/
def supported (version : BitVec 16) : Bool := version &&& 0xFFFC == 0x0300 || version == 0x0304

def extensionsIndex (handshake : GoString) : Tf (Option ℕ) :=
  if handshake.length < 6 + 32 + 1 then .ok none
  else do
    let handshakeType ← index handshake 0
    if handshakeType ≠ 1 then return none
    else
      let b1 ← index handshake 1
      let b2 ← index handshake 2
      let b3 ← index handshake 3
      let handshakeLen := b1.toNat * 2 ^ 16 + b2.toNat * 2 ^ 8 + b3.toNat
      let rest ← sliceFrom handshake 4
      if rest.length ≠ handshakeLen then return none
      else
        let tlsVersion ← uint16At handshake 4
        if !supported tlsVersion then return none
        else
          let sessionIDLen ← index handshake 38
          let currentIndex := 6 + 32 + 1 + sessionIDLen.toNat
          if handshake.length < currentIndex then return none
          else
            let cipherSuites ← sliceFrom handshake currentIndex
            if cipherSuites.length < 2 then return none
            else
              let csLen ← uint16At cipherSuites 0
              if cipherSuites.length < 2 + csLen.toNat + 1 then return none
              else
                let compressMethodLen ← index cipherSuites (2 + csLen.toNat)
                let currentIndex := currentIndex + (2 + csLen.toNat + 1 + compressMethodLen.toNat)
                if handshake.length < currentIndex then return none else return some currentIndex

def indexTLSServerNameFromHandshake (handshake : GoString) : Tf (Option MyServerName) := do
  match ← extensionsIndex handshake with
  | none => return none
  | some currentIndex =>
    let exs ← sliceFrom handshake currentIndex
    match ← indexTLSServerNameFromExtensions exs with
    | none => return none
    | some serverName =>
      return some
        { serverName with index := serverName.index + currentIndex, extensionsListLengthIndex := currentIndex }

/-- The handshake of a record, and whatever follows it. -/
def handshakeOf (payload : GoString) : Tf (Option GoString) :=
  if payload.length < 5 then .ok none
  else do
    let contentType ← index payload 0
    if contentType ≠ 22 then return none
    else
      let segmentLen ← uint16At payload 3
      if payload.length < 5 + segmentLen.toNat then return none
      else
        let handshake ← sliceFrom payload 5
        return some handshake

def indexTLSServerName (payload : GoString) : Tf (Option MyServerName) := do
  match ← handshakeOf payload with
  | none => return none
  | some handshake =>
    match ← indexTLSServerNameFromHandshake handshake with
    | none => return none
    | some serverName =>
      return some { serverName with
        index := serverName.index + 5
        extensionsListLengthIndex := serverName.extensionsListLengthIndex + 5 }

/-! ### Around the loop -/

lemma returns_nameOf (sex : GoString) (currentIndex : ℕ) :
    Returns (nameOf sex currentIndex) fun name => ∀ sn, name = some sn →
      sn.index = currentIndex + 9 ∧ sn.serverName.length + 5 = sex.length := by
  rw [nameOf]
  split
  · exact returns_none _
  refine (returns_index (by omega)).bind fun sniType _ => ?_
  split
  · exact returns_none _
  refine (returns_uint16At (by omega)).bind fun sniLen _ => ?_
  refine (returns_sliceFrom (by omega)).bind fun sex' hsex => ?_
  refine returns_ok fun sn h => ?_
  cases h
  exact ⟨rfl, by dsimp only; omega⟩

variable (exs : GoString)

lemma returns_extensionsBlock :
    Returns (extensionsBlock exs) fun r => ∀ block, r = some block → block.length + 2 = exs.length := by
  rw [extensionsBlock]
  split
  · exact returns_none _
  split
  · exact returns_none _
  refine (returns_uint16At (by omega)).bind fun exsLen _ => ?_
  refine (returns_sliceFrom (by omega)).bind fun block hblock => ?_
  split
  · exact returns_none _
  · refine returns_ok fun block' h => ?_
    cases h
    omega

lemma returns_extensionsIndex (handshake : GoString) :
    Returns (extensionsIndex handshake) fun r => ∀ i, r = some i → i ≤ handshake.length := by
  rw [extensionsIndex]
  split
  · exact returns_none _
  refine (returns_index (by omega)).bind fun handshakeType _ => ?_
  split
  · exact returns_none _
  refine (returns_index (by omega)).bind fun b1 _ => ?_
  refine (returns_index (by omega)).bind fun b2 _ => ?_
  refine (returns_index (by omega)).bind fun b3 _ => ?_
  refine (returns_sliceFrom (by omega)).bind fun rest _ => ?_
  dsimp only
  split
  · exact returns_none _
  refine (returns_uint16At (by omega)).bind fun tlsVersion _ => ?_
  split
  · exact returns_none _
  refine (returns_index (by omega)).bind fun sessionIDLen _ => ?_
  split
  · exact returns_none _
  refine (returns_sliceFrom (by omega)).bind fun cipherSuites hcs => ?_
  split
  · exact returns_none _
  refine (returns_uint16At (by omega)).bind fun csLen _ => ?_
  split
  · exact returns_none _
  refine (returns_index (by omega)).bind fun compressMethodLen _ => ?_
  split
  · exact returns_none _
  · refine returns_ok fun i h => ?_
    cases h
    omega

lemma returns_handshakeOf (payload : GoString) :
    Returns (handshakeOf payload) fun r => ∀ handshake, r = some handshake → handshake.length + 5 = payload.length := by
  rw [handshakeOf]
  split
  · exact returns_none _
  refine (returns_index (by omega)).bind fun contentType _ => ?_
  split
  · exact returns_none _
  refine (returns_uint16At (by omega)).bind fun segmentLen _ => ?_
  split
  · exact returns_none _
  refine (returns_sliceFrom (by omega)).bind fun handshake hhs => ?_
  refine returns_ok fun handshake' h => ?_
  cases h
  omega

/-- The walk stands at an extension of 65532 bytes that is no server name. -/
def Stuck (exs : GoString) : Prop :=
  65536 ≤ exs.length ∧ (uint16At exs 2 : Tf _) = .ok 65532 ∧ (uint16At exs 0 : Tf _) ≠ .ok 0

lemma ends_extensionBody (s : GoString × ℕ) : Ends (extensionBody s) := by
  obtain ⟨exs, currentIndex⟩ := s
  simp only [extensionBody]
  split
  · exact trivial
  split
  · exact trivial
  refine ends_bind.2 ⟨ends_uint16At.2 (by omega), fun exType _ => ?_⟩
  refine ends_bind.2 ⟨ends_uint16At.2 (by omega), fun exLen _ => ?_⟩
  split
  · exact trivial
  refine ends_bind.2 ⟨ends_sliceOf.2 (by omega), fun sex _ => ?_⟩
  split
  · exact ends_bind.2 ⟨(returns_nameOf sex currentIndex).1, fun _ _ => trivial⟩
  · refine ends_bind.2 ⟨ends_sliceFrom.2 ?_, fun _ _ => trivial⟩
    have h4 : (4 + exLen).toNat = (4 + exLen.toNat) % 2 ^ 16 := BitVec.toNat_add _ _
    omega

/-- What a turn that goes on does: the index and the bytes are advanced by the same length, up to a multiple of 65536.
-/
lemma extensionBody_next {s s' : GoString × ℕ} (h : extensionBody s = .ok (.inl s')) :
    ∃ exLen : BitVec 16, (uint16At s.1 2 : Tf _) = .ok exLen ∧ (uint16At s.1 0 : Tf _) ≠ .ok 0 ∧
      4 + exLen.toNat ≤ s.1.length ∧ s'.1 = s.1.drop ((4 + exLen.toNat) % 2 ^ 16) ∧ s'.2 = s.2 + (4 + exLen.toNat) := by
  obtain ⟨exs, currentIndex⟩ := s
  simp only [extensionBody] at h
  split at h
  · cases h
  split at h
  · cases h
  obtain ⟨exType, hty, h⟩ := bind_ok h
  obtain ⟨exLen, hl, h⟩ := bind_ok h
  split at h
  · cases h
  obtain ⟨sex, -, h⟩ := bind_ok h
  split at h
  · obtain ⟨name, -, h⟩ := bind_ok h
    cases h
  next hne =>
  obtain ⟨exs', hexs, h⟩ := bind_ok h
  cases h
  obtain ⟨-, rfl⟩ := sliceFrom_eq_ok.1 hexs
  refine ⟨exLen, hl, ?_, by dsimp only; omega, ?_, rfl⟩
  · rw [hty]
    intro h
    cases h
    exact hne rfl
  · rfl

lemma settles_extensionBody : Settles extensionBody (fun _ => True) (fun s => s.1.length) fun s => Stuck s.1 where
  inv _ _ := trivial
  lower := by
    intro s s' _ h
    obtain ⟨exLen, hl, hty, hlen, hs', -⟩ := extensionBody_next h
    have hlt := exLen.isLt
    by_cases h0 : exLen = 65532
    · right
      subst h0
      exact ⟨hlen, hl, hty⟩
    · left
      have hne : exLen.toNat ≠ 65532 := fun h => h0 (BitVec.eq_of_toNat_eq h)
      rw [hs', List.length_drop]
      omega
  stuck := by
    intro s _ ⟨hlen, hl, hty⟩
    obtain ⟨exs, currentIndex⟩ := s
    dsimp only at hlen hl hty
    refine ⟨(exs, currentIndex + 65536), ?_, hlen, hl, hty⟩
    obtain ⟨exType, hty'⟩ := uint16At_of_lt (b := exs) (i := 0) (by omega)
    have hne : exType ≠ 0 := by
      rintro rfl
      exact hty hty'
    have hsex : (sliceOf exs 4 (4 + (65532 : BitVec 16).toNat) : Tf _) =
        .ok ((exs.take (4 + (65532 : BitVec 16).toNat)).drop 4) := sliceOf_eq_ok.2 ⟨by simp; omega, rfl⟩
    simp only [extensionBody]
    rw [if_neg (by omega), if_neg (by omega), hty', hl]
    simp only [ok_bind]
    rw [if_neg (by simp; omega), hsex, ok_bind, if_neg hne]
    rfl

lemma walk_eq {n : ℕ} (h : exs.length < n) : walkIn n exs = walk exs :=
  settles_extensionBody.iterate_eq n trivial h (Nat.lt_succ_self _)

/-- No extension that the walk comes to is 65532 bytes long. -/
def Advances (exs : GoString) : Prop := ∀ s, Reaches extensionBody (exs, 2) s → ¬Stuck s.1

/-- **The walk ends exactly if it always advances.** -/
theorem ends_walk : Ends (walk exs) ↔ Advances exs := by
  rw [walk, walkIn, settles_extensionBody.ends_iff _ trivial (by simp)]
  exact forall₂_congr fun s _ => and_iff_right (ends_extensionBody s)

/-! ### Where the name is -/

variable {sn : MyServerName}

lemma extensionBody_found {s : GoString × ℕ} (h : extensionBody s = .ok (.inr (some sn))) :
    (uint16At s.1 0 : Tf _) = .ok 0 ∧ sn.index = s.2 + 9 ∧ sn.serverName.length + 9 ≤ s.1.length := by
  obtain ⟨exs, currentIndex⟩ := s
  simp only [extensionBody] at h
  split at h
  · cases h
  split at h
  · cases h
  obtain ⟨exType, hty, h⟩ := bind_ok h
  obtain ⟨exLen, -, h⟩ := bind_ok h
  split at h
  · cases h
  obtain ⟨sex, hsex, h⟩ := bind_ok h
  have hsexlen := (returns_sliceOf (by omega) (by omega)).2 sex hsex
  split at h
  next h0 =>
    obtain ⟨name, hname, h⟩ := bind_ok h
    cases h
    obtain ⟨hi, hn⟩ := (returns_nameOf sex currentIndex).2 _ hname sn rfl
    exact ⟨h0 ▸ hty, hi, by dsimp only; omega⟩
  · obtain ⟨exs', -, h⟩ := bind_ok h
    cases h

/-- From `exs` to `rest` there are extensions of these lengths, none of which is the server name. -/
inductive Passes : GoString → List (BitVec 16) → GoString → Prop
  | here (exs : GoString) : Passes exs [] exs
  | next {exs rest : GoString} {exLen : BitVec 16} {lens : List (BitVec 16)} :
      (uint16At exs 2 : Tf _) = .ok exLen → (uint16At exs 0 : Tf _) ≠ .ok 0 → 4 + exLen.toNat ≤ exs.length →
      Passes (exs.drop ((4 + exLen.toNat) % 2 ^ 16)) lens rest → Passes exs (exLen :: lens) rest

/-- How often the sum of 16 bits wraps. -/
def wraps (lens : List (BitVec 16)) : ℕ := lens.countP (65532 ≤ ·.toNat)

lemma Passes.unique {exs rest rest' : GoString} {lens lens' : List (BitVec 16)} (h : Passes exs lens rest)
    (h' : Passes exs lens' rest') (hname : (uint16At rest 0 : Tf _) = .ok 0)
    (hname' : (uint16At rest' 0 : Tf _) = .ok 0) : lens = lens' ∧ rest = rest' := by
  induction h generalizing lens' with
  | here exs =>
    cases h' with
    | here => exact ⟨rfl, rfl⟩
    | next _ hty => exact absurd hname hty
  | next hl hty _ _ ih =>
    cases h' with
    | here => exact absurd hname' hty
    | next hl' _ _ h' =>
      cases hl.symm.trans hl'
      obtain ⟨rfl, rfl⟩ := ih h' hname
      exact ⟨rfl, rfl⟩

lemma Passes.length_le {exs rest : GoString} {lens : List (BitVec 16)} (h : Passes exs lens rest) :
    rest.length ≤ exs.length := by
  induction h with
  | here => exact le_rfl
  | next _ _ _ _ ih => exact ih.trans (by simp)

lemma Passes.wraps_eq_zero {exs rest : GoString} {lens : List (BitVec 16)} (h : Passes exs lens rest)
    (hlen : exs.length < 2 ^ 16) : wraps lens = 0 := by
  induction h with
  | here => rfl
  | next _ _ hfit _ ih =>
    have := ih (by rw [List.length_drop]; omega)
    rw [wraps, List.countP_cons_of_neg (by simp; omega)]
    exact this

/-- **The index of the name** is 65536 too far for every wrap. -/
theorem iterate_index {n : ℕ} : ∀ {s : GoString × ℕ}, iterate extensionBody n s = .ok (some sn) →
    ∃ lens rest, Passes s.1 lens rest ∧ (uint16At rest 0 : Tf _) = .ok 0 ∧ sn.serverName.length + 9 ≤ rest.length ∧
      sn.index + rest.length = s.2 + 9 + s.1.length + 65536 * wraps lens := by
  induction n with
  | zero =>
    intro s h
    cases h
  | succ n ih =>
    intro s h
    cases hbody : extensionBody s with
    | error e => simp [iterate, hbody] at h
    | ok r =>
      cases r with
      | inr name =>
        simp only [iterate, hbody, Except.ok.injEq] at h
        subst h
        obtain ⟨hname, hi, hn⟩ := extensionBody_found hbody
        exact ⟨[], s.1, .here _, hname, hn, by rw [hi, wraps, List.countP_nil]; omega⟩
      | inl s' =>
        rw [iterate_next hbody] at h
        obtain ⟨exLen, hl, hty, hfit, hs1, hs2⟩ := extensionBody_next hbody
        obtain ⟨lens, rest, hpass, hname, hn, hi⟩ := ih h
        refine ⟨exLen :: lens, rest, .next hl hty hfit (hs1 ▸ hpass), hname, hn, ?_⟩
        have hlt := exLen.isLt
        rw [hi, hs1, hs2, List.length_drop, wraps, wraps, List.countP_cons]
        by_cases hw : 65532 ≤ exLen.toNat <;> simp only [hw, decide_true, decide_false, if_true] <;> simp <;> omega

/-! ### The packet -/

/-- The extensions of the packet, which are walked. -/
def Walks (payload exs : GoString) : Prop :=
  ∃ handshake i, handshakeOf payload = .ok (some handshake) ∧ extensionsIndex handshake = .ok (some i) ∧
    extensionsBlock (handshake.drop i) = .ok (some exs)

lemma ends_indexTLSServerNameFromExtensions :
    Ends (indexTLSServerNameFromExtensions exs) ↔ ∀ block, extensionsBlock exs = .ok (some block) → Advances block := by
  rw [indexTLSServerNameFromExtensions, ends_bind]
  constructor
  · rintro ⟨-, h⟩ block hblock
    exact (ends_walk block).1 (h _ hblock)
  · intro h
    refine ⟨(returns_extensionsBlock exs).1, fun r hr => ?_⟩
    cases r with
    | none => exact trivial
    | some block => exact (ends_walk block).2 (h block hr)

lemma ends_indexTLSServerNameFromHandshake (handshake : GoString) :
    Ends (indexTLSServerNameFromHandshake handshake) ↔ ∀ i block, extensionsIndex handshake = .ok (some i) →
      extensionsBlock (handshake.drop i) = .ok (some block) → Advances block := by
  have hi := returns_extensionsIndex handshake
  rw [indexTLSServerNameFromHandshake, ends_bind]
  constructor
  · rintro ⟨-, h⟩ i block hindex
    have h := h _ hindex
    dsimp only at h
    rw [sliceFrom_eq_ok.2 ⟨hi.2 _ hindex i rfl, rfl⟩, ok_bind, ends_bind] at h
    exact (ends_indexTLSServerNameFromExtensions _).1 h.1 block
  · intro h
    refine ⟨hi.1, fun r hr => ?_⟩
    cases r with
    | none => exact trivial
    | some i =>
      dsimp only
      rw [sliceFrom_eq_ok.2 ⟨hi.2 _ hr i rfl, rfl⟩, ok_bind, ends_bind]
      refine ⟨(ends_indexTLSServerNameFromExtensions _).2 fun block => h i block hr, fun name _ => ?_⟩
      cases name <;> exact trivial

/-- **The search ends exactly if the walk over the extensions always advances.** -/
theorem ends_indexTLSServerName (payload : GoString) :
    Ends (indexTLSServerName payload) ↔ ∀ exs, Walks payload exs → Advances exs := by
  rw [indexTLSServerName, ends_bind]
  constructor
  · rintro ⟨-, h⟩ exs ⟨handshake, i, hhs, hi, hblock⟩
    exact (ends_indexTLSServerNameFromHandshake handshake).1 (ends_bind.1 (h _ hhs)).1 i exs hi hblock
  · intro h
    refine ⟨(returns_handshakeOf payload).1, fun r hr => ?_⟩
    cases r with
    | none => exact trivial
    | some handshake =>
      refine ends_bind.2 ⟨?_, fun name _ => ?_⟩
      · exact (ends_indexTLSServerNameFromHandshake handshake).2 fun i block hi hblock =>
          h block ⟨handshake, i, hr, hi, hblock⟩
      · cases name <;> exact trivial

/-- The name in the packet: the lengths of the extensions before it, and the bytes from its extension on. -/
structure Named (payload : GoString) (lens : List (BitVec 16)) (rest : GoString) : Prop where
  passes : ∃ exs, Walks payload exs ∧ Passes exs lens rest
  name : (uint16At rest 0 : Tf _) = .ok 0

lemma Named.unique {payload rest rest' : GoString} {lens lens' : List (BitVec 16)} (h : Named payload lens rest)
    (h' : Named payload lens' rest') : lens = lens' ∧ rest = rest' := by
  obtain ⟨exs, ⟨handshake, i, hhs, hi, hblock⟩, hp⟩ := h.passes
  obtain ⟨exs', ⟨handshake', i', hhs', hi', hblock'⟩, hp'⟩ := h'.passes
  cases hhs.symm.trans hhs'
  cases hi.symm.trans hi'
  cases hblock.symm.trans hblock'
  exact hp.unique hp' h.name h'.name

/-- **The index of the name in the packet**: behind the record header, and 65536 too far for every wrap, of which there
is none in a packet no longer than a record. -/
theorem indexTLSServerName_index {payload : GoString}
    (h : indexTLSServerName payload = .ok (some sn)) : 5 ≤ payload.length ∧ ∃ lens rest, Named payload lens rest ∧
      sn.serverName.length + 9 ≤ rest.length ∧ rest.length + 7 ≤ payload.length ∧
      sn.index + rest.length = payload.length + 9 + 65536 * wraps lens ∧
      (payload.length < 5 + 2 ^ 16 → wraps lens = 0) := by
  obtain ⟨r, hr, h⟩ := bind_ok h
  cases r with
  | none => cases h
  | some handshake =>
    obtain ⟨name, hname, h⟩ := bind_ok h
    have hhs := (returns_handshakeOf payload).2 _ hr handshake rfl
    cases name with
    | none => cases h
    | some sn₁ =>
      cases h
      obtain ⟨r, hr', hname⟩ := bind_ok hname
      cases r with
      | none => cases hname
      | some i =>
        obtain ⟨exs, hexs, hname⟩ := bind_ok hname
        obtain ⟨hile, rfl⟩ := sliceFrom_eq_ok.1 hexs
        obtain ⟨name, hexts, hname⟩ := bind_ok hname
        cases name with
        | none => cases hname
        | some sn₀ =>
          cases hname
          obtain ⟨r, hr'', hexts⟩ := bind_ok hexts
          cases r with
          | none => cases hexts
          | some block =>
            have hblock := (returns_extensionsBlock _).2 _ hr'' block rfl
            rw [List.length_drop] at hblock
            obtain ⟨lens, rest, hpass, hty, hn, hi⟩ := iterate_index hexts
            have hle := hpass.length_le
            dsimp only at hpass hi hle ⊢
            refine ⟨by omega, lens, rest, ⟨⟨block, ⟨handshake, i, hr, hr', hr''⟩, hpass⟩, hty⟩, hn, by omega, by omega,
              fun hlt => hpass.wraps_eq_zero (by omega)⟩

end SingBox.TlsFragment
