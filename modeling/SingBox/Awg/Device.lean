import Mathlib.Data.Fintype.Pi
import SingBox.Awg.Obf
import SingBox.Lib.Bytes

/-!
# The AmneziaWG device and its framing state

The framing state consists of a prefix length and a header range for each of the four message types
and of the header protection key.  `IpcSetDevice` stages a new framing state while a configuration text
is read, and `mergeWithDevice` (`device/uapi.go`) installs it in one step, after checking it.
-/

namespace SingBox.Awg

open SingBox.Lib List

/-! ### Messages -/

/-- The four message types; `none` of an `Option MessageType` is `MessageUnknownType`. -/
inductive MessageType where
  | initiation
  | response
  | cookieReply
  | transport
  deriving DecidableEq, Repr

namespace MessageType

/-- The constants `MessageInitiationType` and so on. -/
def number : MessageType → ℕ
  | initiation => 1
  | response => 2
  | cookieReply => 3
  | transport => 4

/-- The size of the message without prefix and trailer; for a transport message, of an empty one. -/
def size : MessageType → ℤ
  | initiation => 148
  | response => 92
  | cookieReply => 64
  | transport => 32

end MessageType

def messageTypes : List MessageType := [.initiation, .response, .cookieReply, .transport]

lemma mem_messageTypes (t : MessageType) : t ∈ messageTypes := by cases t <;> decide

lemma messageTypes_pair {t u : MessageType} (h : t ≠ u) :
    [t, u].Sublist messageTypes ∨ [u, t].Sublist messageTypes := by
  cases t <;> cases u <;> first | exact absurd rfl h | decide

instance : Fintype MessageType := ⟨⟨messageTypes, by decide⟩, mem_messageTypes⟩

def messageTransportHeaderSize : ℤ := 16
def messageTransportSize : ℤ := 32
def minMessageSize : ℤ := 32
def headerCipherNonceSize : ℤ := 12

def awgPacketSize (pre content overhead : ℤ) : Option ℤ :=
  if pre < 0 ∨ content < 0 ∨ overhead < 0 ∨ overhead > awgMaxPacketSize ∨
      pre > awgMaxPacketSize - overhead ∨ content > awgMaxPacketSize - overhead - pre then none
  else some (pre + content + overhead)

lemma awgPacketSize_eq_some {pre content overhead n : ℤ} :
    awgPacketSize pre content overhead = some n ↔ 0 ≤ pre ∧ 0 ≤ content ∧ 0 ≤ overhead ∧
      pre + content + overhead ≤ awgMaxPacketSize ∧ n = pre + content + overhead := by
  unfold awgPacketSize
  split
  · simp only [reduceCtorEq, false_iff]
    omega
  · rw [Option.some.injEq]
    omega

/-! ### Header ranges -/

/-- A range of first words.  The field `stop` is the `end` of the source. -/
structure MagicHeader where
  start : BitVec 32
  stop : BitVec 32
  le : start ≤ stop
  deriving DecidableEq, Repr

inductive SpecError where
  | new (text : String)
  | parse (part : GoString) (cause : NumError)
  deriving DecidableEq, Repr

def parseUint32 (part : GoString) : Except SpecError (BitVec 32) :=
  match parseUint 32 part with
  | .ok n => .ok (BitVec.ofNat 32 n)
  | .error e => .error (.parse part e)

/-- A range of 32-bit numbers, written as one number or as two with a dash between them. -/
def parseSpan (badFormat : String) (spec : GoString) : Except SpecError { r : BitVec 32 × BitVec 32 // r.1 ≤ r.2 } :=
  match split 0x2d spec with
  | [a] => do
    let start ← parseUint32 a
    return ⟨(start, start), BitVec.le_refl _⟩
  | [a, b] => do
    let start ← parseUint32 a
    let stop ← parseUint32 b
    if h : start ≤ stop then return ⟨(start, stop), h⟩ else throw (.new "wrong range specified")
  | _ => throw (.new badFormat)

def newMagicHeader (spec : GoString) : Except SpecError MagicHeader :=
  (parseSpan "bad format" spec).map fun r => ⟨r.1.1, r.1.2, r.2⟩

namespace MagicHeader

def validate (h : MagicHeader) (val : BitVec 32) : Bool := h.start ≤ val && val ≤ h.stop

/-- `rand.Int` panics when the interval is empty; the width is computed in `uint32`. -/
def generate (h : MagicHeader) (draw : ℕ) : Go (BitVec 32) :=
  let high := (h.stop - h.start + 1).toNat
  if high = 0 then .error .panic else .ok (h.start + BitVec.ofNat 32 (draw % high))

def Full (h : MagicHeader) : Prop := h.stop.toNat - h.start.toNat + 1 = 2 ^ 32

def Overlaps (h k : MagicHeader) : Prop := h.start ≤ k.stop ∧ k.start ≤ h.stop

instance (h : MagicHeader) : Decidable h.Full := inferInstanceAs (Decidable (_ = _))

instance (h k : MagicHeader) : Decidable (h.Overlaps k) := inferInstanceAs (Decidable (_ ∧ _))

lemma Overlaps.symm {h k : MagicHeader} (ho : h.Overlaps k) : k.Overlaps h := ⟨ho.2, ho.1⟩

lemma validate_iff {h : MagicHeader} {val : BitVec 32} : h.validate val = true ↔ h.start ≤ val ∧ val ≤ h.stop := by
  simp [validate]

@[simp] lemma validate_start (h : MagicHeader) : h.validate h.start = true :=
  validate_iff.2 ⟨BitVec.le_refl _, h.le⟩

lemma validate_of_not_overlaps {h k : MagicHeader} {val : BitVec 32} (ho : ¬ h.Overlaps k)
    (hv : h.validate val = true) : k.validate val = false := by
  rw [validate_iff] at hv
  by_contra hk
  rw [Bool.not_eq_false, validate_iff] at hk
  exact ho ⟨BitVec.le_trans hv.1 hk.2, BitVec.le_trans hk.1 hv.2⟩

/-- **A range that is not full generates a word it validates**, and draws from a nonempty interval. -/
theorem generate_validates {h : MagicHeader} (hf : ¬ h.Full) (draw : ℕ) :
    ∃ val, h.generate draw = .ok val ∧ h.validate val = true := by
  have hle : h.start.toNat ≤ h.stop.toNat := h.le
  have hwidth : (h.stop - h.start + 1).toNat = h.stop.toNat - h.start.toNat + 1 := by
    unfold Full at hf
    rw [BitVec.toNat_add, BitVec.toNat_sub_of_le h.le]
    exact Nat.mod_eq_of_lt (by simp; omega)
  have hpos : (h.stop - h.start + 1).toNat ≠ 0 := by omega
  refine ⟨_, if_neg hpos, ?_⟩
  have hd := Nat.mod_lt draw (Nat.pos_of_ne_zero hpos)
  rw [validate_iff, BitVec.le_def, BitVec.le_def, BitVec.toNat_add, BitVec.toNat_ofNat]
  omega

end MagicHeader

/-! ### Keys -/

structure HeaderCipherKey where
  bytes : GoString
  length_eq : bytes.length = 32
  deriving DecidableEq, Repr

def HeaderCipherKey.isZero (key : HeaderCipherKey) : Bool := key.bytes = List.replicate 32 0

/-! ### The framing state -/

/-- `device.paddings`, `device.headers` and `device.headerProtection.key`. -/
structure Wire where
  paddings : MessageType → ℤ
  headers : MessageType → Option MagicHeader
  key : Option HeaderCipherKey
  deriving DecidableEq

/-- `UintRange`; the zero range means that the option is not set. -/
structure UintRange where
  lo : BitVec 32 := 0
  hi : BitVec 32 := 0
  deriving DecidableEq, Repr

def UintRange.isZero (r : UintRange) : Bool := r = {}

def UintRange.fromString (str : GoString) : Except SpecError UintRange :=
  (parseSpan "wrong format" str).map fun r => ⟨r.1.1, r.1.2⟩

structure Junk where
  count : ℤ := 0
  min : ℤ := 0
  max : ℤ := 0
  deriving DecidableEq, Repr

/-- The state of a device that framing and configuration use; `κ` is the type of key pairs, and
`keypairs` the key pair of an entry of the index table. -/
structure Device (κ : Type) where
  wire : Wire
  junk : Junk := {}
  ipackets : Fin 5 → Option ObfChain := fun _ => none
  randomTrailers : Bool := false
  disableCookies : Bool := false
  contentPaddingAddition : UintRange := {}
  rekeyAfterTimeSec : UintRange := {}
  mtu : ℤ := 0
  keypairs : BitVec 32 → Option κ := fun _ => none

def newWire : Wire where
  paddings _ := 0
  headers t := some ⟨BitVec.ofNat 32 t.number, BitVec.ofNat 32 t.number, BitVec.le_refl _⟩
  key := none

def newDevice (κ : Type) (mtu : ℤ) : Device κ := { wire := newWire, mtu }

/-- The key that masks headers, if there is one and it is not zero. -/
def maskKey (key : Option HeaderCipherKey) : Option HeaderCipherKey :=
  key.filter fun k => !k.isZero

/-- What the checks of a merge establish. -/
structure Wire.Valid (w : Wire) : Prop where
  header : ∀ t, ∃ h, w.headers t = some h ∧ ¬ h.Full
  disjoint : ∀ t u h k, t ≠ u → w.headers t = some h → w.headers u = some k → ¬ h.Overlaps k
  nonneg : ∀ t, 0 ≤ w.paddings t
  fits : ∀ t, w.paddings t + t.size ≤ awgMaxPacketSize
  nonce : (maskKey w.key).isSome → ∀ t, headerCipherNonceSize ≤ w.paddings t

/-- The staged configuration of one `IpcSet`. -/
structure IpcSetDevice where
  paddings : MessageType → ℤ
  headerProtectionKey : Option HeaderCipherKey
  headers : MessageType → Option MagicHeader := fun _ => none

namespace IpcSetDevice

def checkPaddings (d : IpcSetDevice) : List MessageType → Go Unit
  | [] => .ok ()
  | t :: ts =>
    if (awgPacketSize (d.paddings t) t.size 0).isNone then
      .error (.error ("S" ++ toString t.number ++ " exceeds maximum packet size"))
    else if (maskKey d.headerProtectionKey).isSome ∧ d.paddings t < headerCipherNonceSize then
      .error (.error ("S" ++ toString t.number ++ " must be at least 12 for header protection"))
    else d.checkPaddings ts

/-- The inner loop over the headers: `left` against all the later ones. -/
def checkRight (left : MagicHeader) : List (Option MagicHeader) → Go Unit
  | [] => .ok ()
  | none :: _ => .error (.error "missing message header")
  | some right :: hs =>
    if left.Overlaps right then .error (.error "headers must not overlap") else checkRight left hs

def checkHeaders : List (Option MagicHeader) → Go Unit
  | [] => .ok ()
  | none :: _ => .error (.error "invalid or full-width message header range")
  | some left :: hs =>
    if left.Full then .error (.error "invalid or full-width message header range")
    else do
      checkRight left hs
      checkHeaders hs

/-- Headers that were not staged are taken from the device. -/
def inheritHeaders (d : IpcSetDevice) (w : Wire) : IpcSetDevice :=
  { d with headers := fun t => (d.headers t).or (w.headers t) }

/-- The staged record is returned with the headers it took from the device. -/
def mergeWithDevice (d : IpcSetDevice) (w : Wire) : Go (IpcSetDevice × Wire) := do
  d.checkPaddings messageTypes
  let d := d.inheritHeaders w
  checkHeaders (messageTypes.map d.headers)
  return (d, { paddings := d.paddings, headers := d.headers, key := d.headerProtectionKey })

/-! ### The merge -/

lemma checkPaddings_ok {d : IpcSetDevice} {ts : List MessageType}
    (h : d.checkPaddings ts = .ok ()) : ∀ t ∈ ts, 0 ≤ d.paddings t ∧ d.paddings t + t.size ≤ awgMaxPacketSize ∧
      ((maskKey d.headerProtectionKey).isSome → headerCipherNonceSize ≤ d.paddings t) := by
  induction ts with
  | nil => simp
  | cons t ts ih =>
    unfold checkPaddings at h
    split at h
    · cases h
    · split at h
      · cases h
      next hsize hnonce =>
        rw [Bool.not_eq_true, Option.isNone_eq_false_iff, Option.isSome_iff_exists] at hsize
        obtain ⟨n, hn⟩ := hsize
        rw [awgPacketSize_eq_some] at hn
        rintro u (_ | ⟨_, hu⟩)
        · exact ⟨hn.1, by omega, fun hk => not_lt.1 fun hlt => hnonce ⟨hk, hlt⟩⟩
        · exact ih h u hu

lemma checkRight_ok {left : MagicHeader} {hs : List (Option MagicHeader)}
    (h : checkRight left hs = .ok ()) : ∀ r ∈ hs, ∃ k, r = some k ∧ ¬ left.Overlaps k := by
  induction hs with
  | nil => simp
  | cons r hs ih =>
    cases r with
    | none => cases h
    | some right =>
      unfold checkRight at h
      split at h
      · cases h
      next ho =>
        rintro r (_ | ⟨_, hr⟩)
        · exact ⟨right, rfl, ho⟩
        · exact ih h r hr

lemma checkHeaders_ok {hs : List (Option MagicHeader)} (h : checkHeaders hs = .ok ()) :
    (∀ r ∈ hs, ∃ k, r = some k ∧ ¬ k.Full) ∧
      hs.Pairwise fun l r => ∀ h k, l = some h → r = some k → ¬ h.Overlaps k := by
  induction hs with
  | nil => simp
  | cons l hs ih =>
    cases l with
    | none => cases h
    | some left =>
      unfold checkHeaders at h
      split at h
      · cases h
      next hfull =>
        obtain ⟨_, hright, hrest⟩ := Except.bind_ok h
        have hr := checkRight_ok hright
        obtain ⟨ih1, ih2⟩ := ih hrest
        refine ⟨?_, pairwise_cons.2 ⟨?_, ih2⟩⟩
        · rintro r (_ | ⟨_, hr⟩)
          · exact ⟨left, rfl, hfull⟩
          · exact ih1 r hr
        · rintro r hmem a b ⟨⟩ rfl
          obtain ⟨k, hk, ho⟩ := hr _ hmem
          cases hk
          exact ho

/-- **The merge installs what was staged, and only when it is valid.** -/
theorem mergeWithDevice_ok {d d' : IpcSetDevice} {w w' : Wire} (h : d.mergeWithDevice w = .ok (d', w')) :
    w'.Valid ∧ d' = d.inheritHeaders w ∧ w' = ⟨d.paddings, (d.inheritHeaders w).headers, d.headerProtectionKey⟩ := by
  obtain ⟨_, hp, h⟩ := Except.bind_ok h
  obtain ⟨_, hh, h⟩ := Except.bind_ok h
  cases h
  have hp := fun t => checkPaddings_ok hp t (mem_messageTypes t)
  obtain ⟨h1, h2⟩ := checkHeaders_ok hh
  refine ⟨⟨fun t => ?_, ?_, fun t => (hp t).1, fun t => (hp t).2.1, fun hk t => (hp t).2.2 hk⟩, rfl, rfl⟩
  · exact h1 _ (mem_map_of_mem (mem_messageTypes t))
  · intro t u a b htu ha hb ho
    rw [pairwise_map, pairwise_iff_forall_sublist] at h2
    rcases messageTypes_pair htu with hs | hs
    · exact h2 hs a b ha hb ho
    · exact h2 hs b a hb ha ho.symm

end IpcSetDevice

end SingBox.Awg
