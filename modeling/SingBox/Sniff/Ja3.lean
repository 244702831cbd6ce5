import SingBox.Lib.Exec

/-!
# The parser of client hellos

`ja3.Compute`, which the QUIC sniffer calls on the reassembled handshake.  Every index and slice is checked, and every
length is taken from the bytes.

Up to the extensions nothing can go wrong.  Among the extensions two lists, the versions and the signature algorithms,
are read without looking at how long the extension is.
-/

namespace SingBox.Sniff

open SingBox.Lib List Except

/-! ### The parser -/

inductive ParseErrorType where
  | length | contentType | version | handshakeType | sniType
  deriving DecidableEq, Repr

structure ParseError where
  errType : ParseErrorType
  check : ℕ := 0
  deriving DecidableEq, Repr

structure Extensions where
  serverName : GoString := []
  extensions : List (BitVec 16) := []
  ellipticCurves : List (BitVec 16) := []
  ellipticCurvePF : List Byte := []
  versions : List (BitVec 16) := []
  signatureAlgorithms : List (BitVec 16) := []
  deriving DecidableEq, Repr

structure ClientHello extends Extensions where
  version : BitVec 16
  cipherSuites : List (BitVec 16)
  deriving DecidableEq, Repr

abbrev Parse (α : Type) := Exec ParseError α

def parseError {α : Type} (errType : ParseErrorType) (check : ℕ := 0) : Parse α := .error (.error ⟨errType, check⟩)

/-- The versions SSL3.0 to TLS1.2, and TLS1.3. -/
def supported (version : BitVec 16) : Bool := version &&& 0xFFFC == 0x0300 || version == 0x0304

/-- The switch on the type of an extension; `sex` is its body. -/
def parseExtension (exType : BitVec 16) (sex : GoString) (e : Extensions) : Parse Extensions :=
  if exType = 0 then -- server_name
    if sex.length < 5 then parseError .length 13
    else do
      let sniType ← index sex 2
      let sniLen ← uint16At sex 3
      let sex ← sliceFrom sex 5
      if sex.length ≠ sniLen.toNat then parseError .length 14
      else if sniType = 0 then return { e with serverName := sex }
      else parseError .sniType
  else if exType = 10 then -- supported_groups
    if sex.length < 2 then parseError .length 15
    else do
      let ecsLen ← uint16At sex 0
      let sex ← sliceFrom sex 2
      if sex.length ≠ ecsLen.toNat then parseError .length 16
      else
        let ellipticCurves ← uint16s (ecsLen.toNat / 2) sex
        return { e with ellipticCurves := ellipticCurves }
  else if exType = 11 then -- ec_point_formats
    if sex.length < 1 then parseError .length 17
    else do
      let ecpfsLen ← index sex 0
      let sex ← sliceFrom sex 1
      if sex.length ≠ ecpfsLen.toNat then parseError .length 18
      else
        let ellipticCurvePF ← sliceOf sex 0 ecpfsLen.toNat
        return { e with ellipticCurvePF := ellipticCurvePF }
  else if exType = 43 then -- supported_versions
    if sex.length < 1 then parseError .length 19
    else do
      let versionsLen ← index sex 0
      -- one word for each even index below the length, whether there are bytes or not
      let versions ← uint16s ((versionsLen.toNat + 1) / 2) (sex.drop 1)
      return { e with versions := e.versions ++ versions }
  else if exType = 13 then -- signature_algorithms
    if sex.length < 2 then parseError .length 20
    else do
      let ssaLen ← uint16At sex 0
      let signatureAlgorithms ← uint16s ((ssaLen.toNat + 1) / 2) (sex.drop 2)
      return { e with signatureAlgorithms := e.signatureAlgorithms ++ signatureAlgorithms }
  else return e

def extensionBody (s : GoString × Extensions) : Parse ((GoString × Extensions) ⊕ Extensions) :=
  let (exs, e) := s
  if exs.length = 0 then .ok (.inr e)
  else if exs.length < 4 then parseError .length 11
  else do
    let exType ← uint16At exs 0
    let exLen ← uint16At exs 2
    let e := { e with extensions := e.extensions ++ [exType] }
    if exs.length < 4 + exLen.toNat then parseError .length 12
    else
      let sex ← sliceOf exs 4 (4 + exLen.toNat)
      let e ← parseExtension exType sex e
      -- the sum is of 16 bits
      let exs ← sliceFrom exs (4 + exLen).toNat
      return .inl (exs, e)

/-- The loop over the extensions: each turn takes some bytes away. -/
def parseExtensionsLoop (exs : GoString) : Parse Extensions := iterate extensionBody (exs.length + 1) (exs, {})

/-- The bytes of the extensions, without their length. -/
def extensionsBlock (exs : GoString) : Parse GoString :=
  if exs.length = 0 then .ok []
  else if exs.length < 2 then parseError .length 9
  else do
    let exsLen ← uint16At exs 0
    let exs ← sliceFrom exs 2
    if exs.length < exsLen.toNat then parseError .length 10
    else return exs

/-- The handshake up to the extensions: version, cipher suites and the extensions. -/
def parseHandshake (hs : GoString) : Parse (BitVec 16 × List (BitVec 16) × GoString) :=
  if hs.length < 6 + 32 + 1 then parseError .length 3
  else do
    let handshType ← index hs 0
    if handshType ≠ 1 then parseError .handshakeType
    else
      let b1 ← index hs 1
      let b2 ← index hs 2
      let b3 ← index hs 3
      let handshakeLen := b1.toNat * 2 ^ 16 + b2.toNat * 2 ^ 8 + b3.toNat
      let rest ← sliceFrom hs 4
      if rest.length ≠ handshakeLen then parseError .length 4
      else
        let tlsVersion ← uint16At hs 4
        if !supported tlsVersion then parseError .version 2
        else
          let sessionIDLen ← index hs 38
          if hs.length < 6 + 32 + 1 + sessionIDLen.toNat then parseError .length 5
          else
            let cs ← sliceFrom hs (6 + 32 + 1 + sessionIDLen.toNat)
            if cs.length < 2 then parseError .length 6
            else
              let csLen ← uint16At cs 0
              if cs.length < 2 + csLen.toNat + 1 then parseError .length 7
              else
                let cipherSuites ← uint16s (csLen.toNat / 2) (cs.drop 2)
                let compressMethodLen ← index cs (2 + csLen.toNat)
                if cs.length < 2 + csLen.toNat + 1 + compressMethodLen.toNat then parseError .length 8
                else
                  let exs ← sliceFrom cs (2 + csLen.toNat + 1 + compressMethodLen.toNat)
                  return (tlsVersion, cipherSuites, exs)

def parseSegment (segment : GoString) : Parse GoString :=
  if segment.length < 5 then parseError .length 1
  else do
    let contType ← index segment 0
    if contType ≠ 22 then parseError .contentType
    else
      let tlsRecordVersion ← uint16At segment 1
      if !supported tlsRecordVersion then parseError .version 1
      else
        let segmentLen ← uint16At segment 3
        let rest ← sliceFrom segment 5
        if rest.length < segmentLen.toNat then parseError .length 2
        else sliceOf segment 5 (5 + segmentLen.toNat)

/-- What `ja3.Compute` comes to before the loop over the extensions. -/
def computeHead (payload : GoString) : Parse (BitVec 16 × List (BitVec 16) × GoString) := do
  let hs ← parseSegment payload
  let (version, cipherSuites, exs) ← parseHandshake hs
  let exs ← extensionsBlock exs
  return (version, cipherSuites, exs)

/-- `ja3.Compute`. -/
def compute (payload : GoString) : Parse ClientHello := do
  let (version, cipherSuites, exs) ← computeHead payload
  let e ← parseExtensionsLoop exs
  return { e with version := version, cipherSuites := cipherSuites }

/-! ### Before the extensions -/

lemma returns_parseSegment (segment : GoString) : Returns (parseSegment segment) fun hs => hs.length < 2 ^ 16 := by
  rw [parseSegment]
  split
  · exact returns_error _ _
  refine (returns_index (by omega)).bind fun contType _ => ?_
  split
  · exact returns_error _ _
  refine (returns_uint16At (by omega)).bind fun tlsRecordVersion _ => ?_
  split
  · exact returns_error _ _
  refine (returns_uint16At (by omega)).bind fun segmentLen _ => ?_
  refine (returns_sliceFrom (by omega)).bind fun rest hrest => ?_
  split
  · exact returns_error _ _
  refine ⟨ends_sliceOf.2 (by omega), fun hs hhs => ?_⟩
  have := (returns_sliceOf (by omega) (by omega)).2 hs hhs
  omega

lemma returns_parseHandshake (hs : GoString) : Returns (parseHandshake hs) fun r => r.2.2.length ≤ hs.length := by
  rw [parseHandshake]
  split
  · exact returns_error _ _
  refine (returns_index (by omega)).bind fun handshType _ => ?_
  split
  · exact returns_error _ _
  refine (returns_index (by omega)).bind fun b1 _ => ?_
  refine (returns_index (by omega)).bind fun b2 _ => ?_
  refine (returns_index (by omega)).bind fun b3 _ => ?_
  refine (returns_sliceFrom (by omega)).bind fun rest _ => ?_
  split
  · exact returns_error _ _
  refine (returns_uint16At (by omega)).bind fun tlsVersion _ => ?_
  split
  · exact returns_error _ _
  refine (returns_index (by omega)).bind fun sessionIDLen _ => ?_
  split
  · exact returns_error _ _
  refine (returns_sliceFrom (by omega)).bind fun cs hcs => ?_
  split
  · exact returns_error _ _
  refine (returns_uint16At (by omega)).bind fun csLen _ => ?_
  split
  · exact returns_error _ _
  refine (returns_uint16s (by rw [length_drop]; omega)).bind fun cipherSuites _ => ?_
  refine (returns_index (by omega)).bind fun compressMethodLen _ => ?_
  split
  · exact returns_error _ _
  refine (returns_sliceFrom (by omega)).bind fun exs hexs => ?_
  exact returns_ok (by dsimp only; omega)

lemma returns_extensionsBlock (exs : GoString) :
    Returns (extensionsBlock exs) fun block => block.length ≤ exs.length := by
  rw [extensionsBlock]
  split
  · exact returns_ok (by simp)
  split
  · exact returns_error _ _
  refine (returns_uint16At (by omega)).bind fun exsLen _ => ?_
  refine (returns_sliceFrom (by omega)).bind fun block hblock => ?_
  split
  · exact returns_error _ _
  · exact returns_ok (by omega)

/-- **Up to the extensions the parser returns**, and the length of the extensions is one of 16 bits. -/
theorem returns_computeHead (payload : GoString) : Returns (computeHead payload) fun r => r.2.2.length < 2 ^ 16 := by
  refine (returns_parseSegment payload).bind fun hs hhs => ?_
  refine (returns_parseHandshake hs).bind fun r hr => ?_
  refine (returns_extensionsBlock r.2.2).bind fun block hblock => ?_
  exact returns_ok (by dsimp only; omega)

/-! ### The extensions -/

/-- A list of words of `n` bytes after a header is all there; an odd byte needs another one. -/
def listFits (header n : ℕ) (sex : GoString) : Prop := header + 2 * ((n + 1) / 2) ≤ sex.length

/-- The lists of versions and of signature algorithms in the body of an extension are complete. -/
def ListsFit (exType : BitVec 16) (sex : GoString) : Prop :=
  (∀ n : Byte, exType = 43 → sex[0]? = some n → listFits 1 n.toNat sex) ∧
    ∀ n : BitVec 16, exType = 13 → (uint16At sex 0 : Parse _) = .ok n → listFits 2 n.toNat sex

lemma ends_list {header n : ℕ} {sex : GoString} (h : header ≤ sex.length) (f : List (BitVec 16) → Extensions) :
    Ends (do let words ← uint16s ((n + 1) / 2) (sex.drop header); return f words : Parse Extensions) ↔
      listFits header n sex := by
  rw [ends_bind, ends_uint16s, length_drop, listFits]
  constructor
  · omega
  · intro h'
    exact ⟨by omega, fun _ _ => trivial⟩

lemma ends_parseExtension_checked {exType : BitVec 16} (h43 : exType ≠ 43) (h13 : exType ≠ 13) (sex : GoString)
    (e : Extensions) : Ends (parseExtension exType sex e) := by
  rw [parseExtension]
  split
  · split
    · exact trivial
    refine (Returns.bind (returns_index (by omega)) fun sniType _ => ?_).ends (Q := fun _ => True)
    refine (returns_uint16At (by omega)).bind fun sniLen _ => ?_
    refine (returns_sliceFrom (by omega)).bind fun sex' hsex => ?_
    split
    · exact returns_error _ _
    split
    · exact returns_ok trivial
    · exact returns_error _ _
  split
  · split
    · exact trivial
    refine (Returns.bind (returns_uint16At (by omega)) fun ecsLen _ => ?_).ends (Q := fun _ => True)
    refine (returns_sliceFrom (by omega)).bind fun sex' hsex => ?_
    split
    · exact returns_error _ _
    refine (returns_uint16s (by omega)).bind fun ellipticCurves _ => ?_
    exact returns_ok trivial
  split
  · split
    · exact trivial
    refine (Returns.bind (returns_index (by omega)) fun ecpfsLen _ => ?_).ends (Q := fun _ => True)
    refine (returns_sliceFrom (by omega)).bind fun sex' hsex => ?_
    split
    · exact returns_error _ _
    refine (returns_sliceOf (by omega) (by omega)).bind fun ellipticCurvePF _ => ?_
    exact returns_ok trivial
  exact trivial

lemma ends_parseExtension_versions (sex : GoString) (e : Extensions) :
    Ends (parseExtension 43 sex e) ↔ ∀ n : Byte, sex[0]? = some n → listFits 1 n.toNat sex := by
  rw [parseExtension, if_neg (by decide), if_neg (by decide), if_neg (by decide), if_pos rfl]
  split
  · refine ⟨fun _ n hn => ?_, fun _ => trivial⟩
    have := (List.getElem?_eq_some_iff.1 hn).1
    omega
  rw [ends_bind]
  constructor
  · rintro ⟨-, h⟩ n hn
    exact (ends_list (by omega) _).1 (h n (index_eq_ok.2 hn))
  · intro h
    refine ⟨ends_index.2 (by omega), fun n hn => ?_⟩
    exact (ends_list (by omega) _).2 (h n (index_eq_ok.1 hn))

lemma ends_parseExtension_algorithms (sex : GoString) (e : Extensions) : Ends (parseExtension 13 sex e) ↔
      ∀ n : BitVec 16, (uint16At sex 0 : Parse _) = .ok n → listFits 2 n.toNat sex := by
  rw [parseExtension, if_neg (by decide), if_neg (by decide), if_neg (by decide), if_neg (by decide), if_pos rfl]
  split
  · refine ⟨fun _ n hn => ?_, fun _ => trivial⟩
    have := ends_uint16At.1 (hn ▸ ends_ok n : Ends (uint16At sex 0 : Parse _))
    omega
  rw [ends_bind]
  constructor
  · rintro ⟨-, h⟩ n hn
    exact (ends_list (by omega) _).1 (h n hn)
  · intro h
    refine ⟨ends_uint16At.2 (by omega), fun n hn => ?_⟩
    exact (ends_list (by omega) _).2 (h n hn)

/-- **An extension is parsed exactly if its lists are complete.** -/
theorem ends_parseExtension (exType : BitVec 16) (sex : GoString) (e : Extensions) :
    Ends (parseExtension exType sex e) ↔ ListsFit exType sex := by
  by_cases h43 : exType = 43
  · subst h43
    rw [ends_parseExtension_versions]
    exact ⟨fun h => ⟨fun n _ => h n, fun _ h => absurd h (by decide)⟩, fun h n => h.1 n rfl⟩
  by_cases h13 : exType = 13
  · subst h13
    rw [ends_parseExtension_algorithms]
    exact ⟨fun h => ⟨fun _ h => absurd h (by decide), fun n _ => h n⟩, fun h n => h.2 n rfl⟩
  refine ⟨fun _ => ⟨fun _ h => absurd h h43, fun _ h => absurd h h13⟩, fun _ => ?_⟩
  exact ends_parseExtension_checked h43 h13 sex e

example : parseExtension 43 [2, 3] {} = .error .panic ∧ parseExtension 13 [0, 2] {} = .error .panic := by decide

/-- An extension that the loop comes to is complete, or is not parsed. -/
def ExtensionFits (exs : GoString) : Prop :=
  ∀ exType exLen : BitVec 16, (uint16At exs 0 : Parse _) = .ok exType → (uint16At exs 2 : Parse _) = .ok exLen →
    4 + exLen.toNat ≤ exs.length → ListsFit exType ((exs.take (4 + exLen.toNat)).drop 4)

lemma uint16_add_four {n : BitVec 16} (h : 4 + n.toNat < 2 ^ 16) : (4 + n).toNat = 4 + n.toNat := by
  exact Nat.mod_eq_of_lt h

lemma extensionBody_next {s s' : GoString × Extensions} (hI : s.1.length < 2 ^ 16)
    (h : extensionBody s = .ok (.inl s')) : s'.1.length < s.1.length := by
  obtain ⟨exs, e⟩ := s
  simp only [extensionBody] at h
  split at h
  · cases h
  split at h
  · cases h
  obtain ⟨exType, -, h⟩ := bind_ok h
  obtain ⟨exLen, -, h⟩ := bind_ok h
  split at h
  · cases h
  obtain ⟨sex, -, h⟩ := bind_ok h
  obtain ⟨e', -, h⟩ := bind_ok h
  obtain ⟨exs', hexs, h⟩ := bind_ok h
  cases h
  obtain ⟨-, rfl⟩ := sliceFrom_eq_ok.1 hexs
  rw [uint16_add_four (by dsimp only at hI; omega)]
  dsimp only
  rw [length_drop]
  omega

lemma ends_extensionBody {s : GoString × Extensions} (hI : s.1.length < 2 ^ 16) :
    Ends (extensionBody s) ↔ ExtensionFits s.1 := by
  obtain ⟨exs, e⟩ := s
  dsimp only at hI
  simp only [extensionBody]
  split
  · refine ⟨fun _ exType _ h => ?_, fun _ => trivial⟩
    omega
  split
  · exact ⟨fun _ _ _ _ _ h => by omega, fun _ => trivial⟩
  obtain ⟨exType, hty⟩ := uint16At_of_lt (b := exs) (i := 0) (by omega)
  obtain ⟨exLen, hl⟩ := uint16At_of_lt (b := exs) (i := 2) (by omega)
  have hfits : ExtensionFits exs ↔
      (4 + exLen.toNat ≤ exs.length → ListsFit exType ((exs.take (4 + exLen.toNat)).drop 4)) := by
    constructor
    · intro h
      exact h exType exLen hty hl
    · intro h exType' exLen' hty' hl'
      cases hty.symm.trans hty'
      cases hl.symm.trans hl'
      exact h
  rw [hfits, hty, hl]
  simp only [ok_bind]
  split
  · exact ⟨fun _ h => absurd h (by omega), fun _ => trivial⟩
  have hsex : (sliceOf exs 4 (4 + exLen.toNat) : Parse _) = .ok ((exs.take (4 + exLen.toNat)).drop 4) :=
    sliceOf_eq_ok.2 ⟨by omega, rfl⟩
  rw [hsex, ok_bind, ends_bind, ends_parseExtension]
  constructor
  · rintro ⟨h, -⟩ _
    exact h
  · intro h
    refine ⟨h (by omega), fun e' _ => ends_bind.2 ⟨ends_sliceFrom.2 ?_, fun _ _ => trivial⟩⟩
    rw [uint16_add_four (by omega)]
    omega

lemma settles_extensionBody :
    Settles extensionBody (fun s => s.1.length < 2 ^ 16) (fun s => s.1.length) fun _ => False where
  inv hI h := by have := extensionBody_next hI h; omega
  lower hI h := Or.inl (extensionBody_next hI h)
  stuck _ h := h.elim

/-- The extensions of a handshake are complete, as far as the parser comes. -/
def ExtensionsFit (exs : GoString) : Prop :=
  ∀ s, Reaches extensionBody (exs, {}) s → ExtensionFits s.1

/-- The extensions of a payload are complete, if the parser comes to them. -/
def PayloadFits (payload : GoString) : Prop :=
  ∀ version cipherSuites exs, computeHead payload = .ok (version, cipherSuites, exs) → ExtensionsFit exs

/-- **The parser returns exactly if the extensions it comes to are complete.** -/
theorem ends_compute (payload : GoString) : Ends (compute payload) ↔ PayloadFits payload := by
  have hhead := returns_computeHead payload
  rw [compute, ends_bind]
  have hloop : ∀ exs : GoString, exs.length < 2 ^ 16 → (Ends (parseExtensionsLoop exs) ↔ ExtensionsFit exs) := by
    intro exs hlen
    rw [parseExtensionsLoop, settles_extensionBody.ends_iff _ hlen (by simp)]
    refine forall₂_congr fun s hs => ?_
    rw [ends_extensionBody (settles_extensionBody.reaches hlen hs)]
    exact and_iff_left id
  constructor
  · rintro ⟨-, h⟩ version cipherSuites exs heq
    exact (hloop exs (hhead.2 _ heq)).1 (ends_bind.1 (h _ heq)).1
  · intro h
    refine ⟨hhead.1, fun r hr => ends_bind.2 ⟨(hloop _ (hhead.2 r hr)).2 (h _ _ _ hr), fun _ _ => trivial⟩⟩

end SingBox.Sniff
