import SingBox.Lib.Bytes
import SingBox.Lib.Run
import SingBox.Sniff.Ja3

/-!
# The QUIC sniffer

`QUICClientHello`: the header of an Initial packet, its decryption, the frames, and the handshake put together from the
fragments of this packet and those that earlier packets have left in the metadata.

A slice of the plaintext may reach to the end of the packet buffer, which is longer; a CRYPTO frame panics only beyond
that.  The fragments are put together by looking for one that starts where the last one ended, which never ends at an
empty one.
-/

namespace SingBox.Sniff

open SingBox.Lib List Except

/-! ### Reading -/

inductive QuicError where
  | eof
  | unexpectedEOF
  | badTypeByte
  | badVersion
  | badPacketType
  | badDestConnIDLen
  /-- `os.ErrInvalid` -/
  | invalid
  /-- The AEAD does not open. -/
  | authentication
  deriving DecidableEq, Repr

abbrev Quic (α : Type) := Exec QuicError α

def quicError {α : Type} (e : QuicError) : Quic α := .error (.error e)

/-- `reader.ReadByte()`; a reader is what is left of its bytes. -/
def readByte : GoString → Quic (Byte × GoString)
  | [] => quicError .eof
  | b :: r => .ok (b, r)

/-- `io.ReadFull` into `n` bytes, and `binary.Read` of a value of `n` bytes. -/
def readFull (n : ℕ) (r : GoString) : Quic (GoString × GoString) :=
  if n ≤ r.length then .ok (r.take n, r.drop n) else if r = [] then quicError .eof else quicError .unexpectedEOF

/-- `io.CopyN(io.Discard, reader, n)`. -/
def discard (n : ℕ) (r : GoString) : Quic GoString := if n ≤ r.length then .ok (r.drop n) else quicError .eof

/-- The values of `qtls.ReadUvarint`. -/
abbrev Uvarint := BitVec 62

/-- `qtls.ReadUvarint`: the two upper bits of the first byte tell the length, and are not part of the value. -/
def readUvarint (r : GoString) : Quic (Uvarint × GoString) := do
  let (firstByte, r) ← readByte r
  let len := firstByte.extractLsb' 6 2
  let b1 : BitVec 6 := firstByte.setWidth 6
  if len = 0 then return (b1.setWidth 62, r)
  else
    let (b2, r) ← readByte r
    if len = 1 then return ((b1 ++ b2).setWidth 62, r)
    else
      let (b3, r) ← readByte r
      let (b4, r) ← readByte r
      if len = 2 then return ((b1 ++ b2 ++ b3 ++ b4).setWidth 62, r)
      else
        let (b5, r) ← readByte r
        let (b6, r) ← readByte r
        let (b7, r) ← readByte r
        let (b8, r) ← readByte r
        return (b1 ++ b2 ++ b3 ++ b4 ++ b5 ++ b6 ++ b7 ++ b8, r)

/-- `n` integers that are not looked at. -/
def skipUvarints : ℕ → GoString → Quic GoString
  | 0, r => .ok r
  | n + 1, r => do
    let (_, r) ← readUvarint r
    skipUvarints n r

/-! ### The header -/

def versionDraft29 : BitVec 32 := 0xff00001d
def version1 : BitVec 32 := 0x1
def version2 : BitVec 32 := 0x6b3343cf

/-- What is read of a packet before it is decrypted. -/
structure Header where
  versionNumber : BitVec 32
  destConnID : GoString
  packetLen : Uvarint
  hdrLen : ℕ
  pnBytes : GoString
  deriving DecidableEq, Repr

def beUint32 (b : GoString) : BitVec 32 := BitVec.ofNat 32 (b.foldl (fun n x => n * 2 ^ 8 + x.toNat) 0)

def readHeader (packet : GoString) : Quic Header := do
  let (typeByte, r) ← readByte packet
  if typeByte &&& 0x40 = 0 then quicError .badTypeByte
  else
    let (versionBytes, r) ← readFull 4 r
    let versionNumber := beUint32 versionBytes
    if versionNumber ≠ versionDraft29 ∧ versionNumber ≠ version1 ∧ versionNumber ≠ version2 then quicError .badVersion
    else
      let packetType := (typeByte &&& 0x30) >>> 4
      if packetType = 0 ∧ versionNumber = version2 ∨ packetType = 2 ∧ versionNumber ≠ version2 ∨ packetType > 2 then
        quicError .badPacketType
      else
        let (destConnIDLen, r) ← readByte r
        if destConnIDLen = 0 ∨ destConnIDLen > 20 then quicError .badDestConnIDLen
        else
          let (destConnID, r) ← readFull destConnIDLen.toNat r
          let (srcConnIDLen, r) ← readByte r
          let r ← discard srcConnIDLen.toNat r
          let (tokenLen, r) ← readUvarint r
          let r ← discard tokenLen.toNat r
          let (packetLen, r) ← readUvarint r
          let hdrLen := packet.length - r.length
          if hdrLen + packetLen.toNat > packet.length then quicError .invalid
          else
            let r ← discard 4 r
            let (pnBytes, _) ← readFull 16 r
            return ⟨versionNumber, destConnID, packetLen, hdrLen, pnBytes⟩

/-! ### Decryption -/

/-- The key derivation and the ciphers: any functions, as far as the lengths are right. -/
structure Crypto where
  /-- `hkdf.Extract` with SHA-256. -/
  extract : (secret salt : GoString) → GoString
  /-- `hkdf.Expand` with SHA-256. -/
  expand : (secret info : GoString) → (length : ℕ) → GoString
  encrypt : (key block : GoString) → GoString
  length_encrypt : ∀ key block, (encrypt key block).length = block.length
  /-- `Open` of AES in Galois counter mode. -/
  gcmOpen : (key nonce data additional : GoString) → Option GoString
  length_open : ∀ {key nonce data additional plaintext}, gcmOpen key nonce data additional = some plaintext →
    plaintext.length + 16 = data.length

/-- `qtls.HKDFExpandLabel` with no context. -/
def Crypto.hkdfExpandLabel (crypto : Crypto) (secret : GoString) (label : String) (length : ℕ) : GoString :=
  crypto.expand secret (hkdfLabel (ascii label) length) length

def saltOld : GoString :=
  [0xaf, 0xbf, 0xec, 0x28, 0x99, 0x93, 0xd2, 0x4c, 0x9e, 0x97,
   0x86, 0xf1, 0x9c, 0x61, 0x11, 0xe0, 0x43, 0x90, 0xa8, 0x99]
def saltV1 : GoString :=
  [0x38, 0x76, 0x2c, 0xf7, 0xf5, 0x59, 0x34, 0xb3, 0x4d, 0x17,
   0x9a, 0xe6, 0xa4, 0xc8, 0x0c, 0xad, 0xcc, 0xbb, 0x7f, 0x0a]
def saltV2 : GoString :=
  [0x0d, 0xed, 0xe3, 0xde, 0xf7, 0x00, 0xa6, 0xdb, 0x81, 0x93,
   0x81, 0xbe, 0x6e, 0x26, 0x9d, 0xcb, 0xf9, 0xbd, 0x2e, 0xd9]

def Header.salt (h : Header) : GoString :=
  if h.versionNumber = version1 then saltV1 else if h.versionNumber = version2 then saltV2 else saltOld

/-- The label of a key, which has another name in version 2. -/
def Header.label (h : Header) (name : String) : String :=
  if h.versionNumber = version2 then "quicv2 " ++ name else "quic " ++ name

def Crypto.secret (crypto : Crypto) (h : Header) : GoString :=
  crypto.hkdfExpandLabel (crypto.extract h.destConnID h.salt) "client in" 32

/-- The plaintext, and the packet buffer from where it starts. -/
structure Decrypted where
  plaintext : GoString
  buffer : GoString
  deriving DecidableEq, Repr

/-- The header protection is removed, and the payload opened in place. -/
def Crypto.decrypt (crypto : Crypto) (packet : GoString) (h : Header) : Quic Decrypted := do
  let mask := crypto.encrypt (crypto.hkdfExpandLabel (crypto.secret h) (h.label "hp") 16) h.pnBytes
  let b0 ← index packet 0
  let m0 ← index mask 0
  let newPacket := packet.set 0 (b0 ^^^ (m0 &&& 0xf))
  let protectedBytes ← sliceOf newPacket h.hdrLen (h.hdrLen + 4)
  let maskBytes ← sliceOf mask 1 5
  let newPacket := newPacket.take h.hdrLen ++ List.zipWith (· ^^^ ·) protectedBytes maskBytes ++
    newPacket.drop (h.hdrLen + 4)
  let first ← index newPacket 0
  let packetNumberLength := (first &&& 0x3).toNat + 1
  if h.hdrLen + packetNumberLength > h.packetLen.toNat + h.hdrLen then quicError .invalid
  else
    let packetNumber ← sliceOf newPacket h.hdrLen (h.hdrLen + packetNumberLength)
    let extHdrLen := h.hdrLen + packetNumberLength
    -- the bytes of the mask behind the packet number are taken back
    let tail ← sliceOf packet extHdrLen (h.hdrLen + 4)
    let newPacket := newPacket.take extHdrLen ++ tail ++ newPacket.drop (h.hdrLen + 4)
    let data ← sliceOf newPacket extHdrLen (h.packetLen.toNat + h.hdrLen)
    let key := crypto.hkdfExpandLabel (crypto.secret h) (h.label "key") 16
    let iv := crypto.hkdfExpandLabel (crypto.secret h) (h.label "iv") 12
    let nonce := List.replicate (8 - packetNumberLength) 0 ++ packetNumber
    let additional ← sliceOf newPacket 0 extHdrLen
    match crypto.gcmOpen key (xorNonce iv nonce) data additional with
    | none => quicError .authentication
    | some plaintext => return ⟨plaintext, plaintext ++ newPacket.drop (extHdrLen + plaintext.length)⟩

/-! ### Frames -/

/-- `qCryptoFragment`. -/
structure Fragment where
  offset : Uvarint
  length : Uvarint
  payload : GoString
  length_payload : payload.length = length.toNat
  deriving DecidableEq

structure Frames where
  reader : GoString
  frameTypeList : List Byte := []
  fragments : List Fragment := []
  deriving DecidableEq

def skipAck (frameType : Byte) (r : GoString) : Quic GoString := do
  let r ← skipUvarints 2 r -- Largest Acknowledged, ACK Delay
  let (ackRangeCount, r) ← readUvarint r
  let r ← skipUvarints 1 r -- First ACK Range
  let r ← skipUvarints (2 * ackRangeCount.toNat) r -- Gap, ACK Range Length
  if frameType = 0x03 then skipUvarints 3 r -- ECT0 Count, ECT1 Count, ECN-CE Count
  else return r

def Decrypted.frameBody (d : Decrypted) (s : Frames) : Quic (Frames ⊕ Frames) :=
  match s.reader with
  | [] => .ok (.inr s)
  | frameType :: r =>
    let frameTypeList := s.frameTypeList ++ [frameType]
    if frameType = 0x00 ∨ frameType = 0x01 then return .inl { s with reader := r, frameTypeList := frameTypeList }
    else if frameType = 0x02 ∨ frameType = 0x03 then do
      let r ← skipAck frameType r
      return .inl { s with reader := r, frameTypeList := frameTypeList }
    else if frameType = 0x06 then do
      let (offset, r) ← readUvarint r
      let (length, r) ← readUvarint r
      let payload ← sliceLen d.buffer (d.plaintext.length - r.length) length.toNat
      return .inl ⟨r.drop length.toNat, frameTypeList, s.fragments ++ [⟨offset, length, payload.1, payload.2⟩]⟩
    else if frameType = 0x1c then do
      let r ← skipUvarints 2 r -- Error Code, Frame Type
      let (length, r) ← readUvarint r
      return .inl { s with reader := r.drop length.toNat, frameTypeList := frameTypeList }
    else quicError .invalid

def Decrypted.frames (d : Decrypted) : Quic Frames :=
  iterate d.frameBody (d.plaintext.length + 1) { reader := d.plaintext }

/-! ### The handshake -/

/-- A turn of the loop that puts the fragments together, in a buffer of a size. -/
def findBody (fragments : List Fragment) (size : ℕ) (s : ℕ × GoString) : Quic ((ℕ × GoString) ⊕ GoString) :=
  match fragments.find? fun f => f.offset.toNat = s.1 with
  | some fragment =>
    return .inl (fragment.offset.toNat + fragment.length.toNat, (s.2 ++ fragment.payload).take size)
  | none => return .inr s.2

/-- The fragments that start at or after an index. -/
def fragmentsFrom (fragments : List Fragment) (index : ℕ) : ℕ :=
  fragments.countP fun f => index ≤ f.offset.toNat

/-- The handshake as a record, in `n` turns: `frameLen` is the length of all fragments. -/
def reassembleIn (n : ℕ) (fragments : List Fragment) : Quic GoString :=
  let frameLen := (fragments.map fun f => f.length.toNat).sum
  let header : GoString := [0x16, 0x03, 0x03, BitVec.ofNat 8 (frameLen / 2 ^ 8), BitVec.ofNat 8 frameLen]
  iterate (findBody fragments (5 + frameLen)) n (0, header)

/-- The handshake as a record; the loop has ended by then, or never will (`reassembleIn_eq`). -/
def reassemble (fragments : List Fragment) : Quic GoString := reassembleIn (fragmentsFrom fragments 0 + 1) fragments

/-! ### The client -/

def isZero (l : List Byte) : Bool := l.all (· = 0)

/-- The two upper nibbles of a GREASE value are the same. -/
def isGrease (l : List (BitVec 16)) : Bool := l.head?.any fun v => v &&& 0x0F0F = 0x0A0A

def isQUICGo (fingerprint : ClientHello) : Bool :=
  fingerprint.ellipticCurves.contains 0x11EC || fingerprint.extensions.contains 0xFF01

/-- The loop around the guesses, every one of which leaves it. -/
def guessClient (frameTypeList : List Byte) (fingerprint : ClientHello) : Quic String :=
  if frameTypeList.length = 1 then return "firefox"
  else do
    let first ← index frameTypeList 0
    let rest ← sliceFrom frameTypeList 1
    let safari := first = 0x06 && isZero rest &&
      (fingerprint.versions.length = 2 && isGrease fingerprint.versions && fingerprint.ellipticCurves.length = 5 &&
          isGrease fingerprint.ellipticCurves ||
        fingerprint.cipherSuites = [0x1302] && fingerprint.ellipticCurves = [0x001d] &&
          fingerprint.signatureAlgorithms = [0x0403])
    if safari then return "safari"
    else
      let last ← index frameTypeList (frameTypeList.length - 1)
      let init ← sliceOf frameTypeList 0 (frameTypeList.length - 1)
      if last = 0x06 && isZero init then return "quic-go"
      else if frameTypeList.count 0x06 > 1 || frameTypeList.count 0x01 > 0 then
        return if isQUICGo fingerprint then "quic-go" else "chromium"
      else return "unknown"

/-! ### The sniffer -/

structure SniffMetadata where
  protocol : String := ""
  domain : GoString := []
  client : String := ""
  sniffContext : Option (List Fragment) := none
  deriving DecidableEq

/-- The new metadata, and whether more data is needed. -/
structure Hello where
  metadata : SniffMetadata
  needMoreData : Option ParseError := none
  deriving DecidableEq

/-- The frames of a packet, from its header on. -/
def Crypto.framesOf (crypto : Crypto) (packet : GoString) : Quic Frames := do
  let header ← readHeader packet
  let d ← crypto.decrypt packet header
  d.frames

/-- The client is guessed if it is not known yet. -/
def SniffMetadata.clientOf (m : SniffMetadata) (frameTypeList : List Byte) (fingerprint : ClientHello) : Quic String :=
  if m.client = "" then guessClient frameTypeList fingerprint else .ok m.client

def SniffMetadata.frames (m : SniffMetadata) (f : Frames) : Quic Hello := do
  let fragments := f.fragments ++ m.sniffContext.getD []
  let payload ← reassemble fragments
  let m := { m with protocol := "quic", sniffContext := none }
  match ← attempt (compute payload) with
  | .error e => return ⟨{ m with sniffContext := some fragments }, some e⟩
  | .ok fingerprint =>
    let client ← m.clientOf f.frameTypeList fingerprint
    return ⟨{ m with domain := fingerprint.serverName, client := client }, none⟩

def Crypto.quicClientHello (crypto : Crypto) (m : SniffMetadata) (packet : GoString) : Quic Hello := do
  let f ← crypto.framesOf packet
  m.frames f

/-! ### Up to the frames -/

lemma returns_readByte (r : GoString) : Returns (readByte r) fun p => p.2.length + 1 = r.length := by
  cases r with
  | nil => exact returns_error _ _
  | cons b r => exact returns_ok rfl

lemma returns_readFull (n : ℕ) (r : GoString) :
    Returns (readFull n r) fun p => p.1.length = n ∧ p.2.length + n = r.length := by
  rw [readFull]
  split
  · exact returns_ok (by simp; omega)
  · split <;> exact returns_error _ _

lemma returns_discard (n : ℕ) (r : GoString) : Returns (discard n r) fun r' => r'.length + n = r.length := by
  rw [discard]
  split
  · exact returns_ok (by simp; omega)
  · exact returns_error _ _

lemma returns_readUvarint (r : GoString) : Returns (readUvarint r) fun p => p.2.length < r.length := by
  refine (returns_readByte r).bind fun ⟨b1, r1⟩ h1 => ?_
  dsimp only at h1 ⊢
  split
  · exact returns_ok (by dsimp only; omega)
  refine (returns_readByte r1).bind fun ⟨b2, r2⟩ h2 => ?_
  dsimp only at h2
  split
  · exact returns_ok (by dsimp only; omega)
  refine (returns_readByte r2).bind fun ⟨b3, r3⟩ h3 => ?_
  refine (returns_readByte r3).bind fun ⟨b4, r4⟩ h4 => ?_
  dsimp only at h3 h4
  split
  · exact returns_ok (by dsimp only; omega)
  refine (returns_readByte r4).bind fun ⟨b5, r5⟩ h5 => ?_
  refine (returns_readByte r5).bind fun ⟨b6, r6⟩ h6 => ?_
  refine (returns_readByte r6).bind fun ⟨b7, r7⟩ h7 => ?_
  refine (returns_readByte r7).bind fun ⟨b8, r8⟩ h8 => ?_
  dsimp only at h5 h6 h7 h8
  exact returns_ok (by dsimp only; omega)

lemma returns_skipUvarints (n : ℕ) : ∀ r, Returns (skipUvarints n r) fun r' => r'.length ≤ r.length := by
  induction n with
  | zero =>
    intro r
    exact returns_ok le_rfl
  | succ n ih =>
    intro r
    refine (returns_readUvarint r).bind fun p hp => ?_
    exact ⟨(ih p.2).1, fun r' h => ((ih p.2).2 r' h).trans hp.le⟩

/-- The header leaves room for the packet number and the sample, and the packet has the bytes it says. -/
structure Header.Fits (h : Header) (packet : GoString) : Prop where
  sample : h.hdrLen + 20 ≤ packet.length
  packetLen : h.hdrLen + h.packetLen.toNat ≤ packet.length
  pnBytes : h.pnBytes.length = 16

lemma returns_readHeader (packet : GoString) : Returns (readHeader packet) fun h => h.Fits packet := by
  refine (returns_readByte packet).bind fun ⟨typeByte, r1⟩ h1 => ?_
  dsimp only at h1 ⊢
  split
  · exact returns_error _ _
  refine (returns_readFull 4 r1).bind fun ⟨versionBytes, r2⟩ h2 => ?_
  dsimp only at h2
  split
  · exact returns_error _ _
  split
  · exact returns_error _ _
  refine (returns_readByte r2).bind fun ⟨destConnIDLen, r3⟩ h3 => ?_
  dsimp only at h3
  split
  · exact returns_error _ _
  refine (returns_readFull destConnIDLen.toNat r3).bind fun ⟨destConnID, r4⟩ h4 => ?_
  refine (returns_readByte r4).bind fun ⟨srcConnIDLen, r5⟩ h5 => ?_
  refine (returns_discard srcConnIDLen.toNat r5).bind fun r6 h6 => ?_
  refine (returns_readUvarint r6).bind fun ⟨tokenLen, r7⟩ h7 => ?_
  refine (returns_discard tokenLen.toNat r7).bind fun r8 h8 => ?_
  refine (returns_readUvarint r8).bind fun ⟨packetLen, r9⟩ h9 => ?_
  dsimp only at h4 h5 h7 h9 ⊢
  split
  · exact returns_error _ _
  refine (returns_discard 4 r9).bind fun r10 h10 => ?_
  refine (returns_readFull 16 r10).bind fun ⟨pnBytes, r11⟩ h11 => ?_
  exact returns_ok ⟨by dsimp only; omega, by dsimp only; omega, h11.1⟩

variable {packet : GoString}

variable (crypto : Crypto)

lemma Crypto.returns_decrypt {h : Header} (hf : h.Fits packet) : Returns (crypto.decrypt packet h) fun _ => True := by
  have h1 := hf.sample
  have h2 := hf.packetLen
  have hmask := crypto.length_encrypt (crypto.hkdfExpandLabel (crypto.secret h) (h.label "hp") 16) h.pnBytes
  rw [hf.pnBytes] at hmask
  refine (returns_index (by omega)).bind fun b0 _ => ?_
  refine (returns_index (by omega)).bind fun m0 _ => ?_
  refine (returns_sliceOf (by omega) (by simp; omega)).bind fun protectedBytes hp => ?_
  refine (returns_sliceOf (by omega) (by omega)).bind fun maskBytes hm => ?_
  have hxor : (zipWith (· ^^^ ·) protectedBytes maskBytes).length = h.hdrLen + 4 - h.hdrLen := by
    rw [length_zipWith]
    omega
  have hnew := length_splice (b := packet.set 0 (b0 ^^^ (m0 &&& 0xf))) (by omega : h.hdrLen ≤ h.hdrLen + 4)
    (by rw [length_set]; omega) hxor
  rw [length_set] at hnew
  dsimp only
  generalize (packet.set 0 (b0 ^^^ (m0 &&& 0xf))).take h.hdrLen ++ zipWith (· ^^^ ·) protectedBytes maskBytes ++
    (packet.set 0 (b0 ^^^ (m0 &&& 0xf))).drop (h.hdrLen + 4) = newPacket at hnew
  refine (returns_index (by omega)).bind fun first _ => ?_
  have hfirst : (first &&& 0x3).toNat < 4 := by
    exact lt_of_le_of_lt Nat.and_le_right (by decide)
  split
  · exact returns_error _ _
  refine (returns_sliceOf (by omega) (by omega)).bind fun packetNumber _ => ?_
  refine (returns_sliceOf (by omega) (by omega)).bind fun tail htail => ?_
  have hnew' := length_splice (b := newPacket) (by omega) (by omega) htail
  refine (returns_sliceOf (by omega) (by omega)).bind fun data _ => ?_
  refine (returns_sliceOf (by omega) (by omega)).bind fun additional _ => ?_
  split
  · exact returns_error _ _
  · exact returns_ok trivial

/-! ### The frames -/

lemma returns_skipAck (frameType : Byte) (r : GoString) :
    Returns (skipAck frameType r) fun r' => r'.length ≤ r.length := by
  refine (returns_skipUvarints 2 r).bind fun r1 h1 => ?_
  refine (returns_readUvarint r1).bind fun ⟨ackRangeCount, r2⟩ h2 => ?_
  refine (returns_skipUvarints 1 r2).bind fun r3 h3 => ?_
  refine (returns_skipUvarints (2 * ackRangeCount.toNat) r3).bind fun r4 h4 => ?_
  dsimp only at h2
  split
  · exact ⟨(returns_skipUvarints 3 r4).1, fun r5 h => by have := (returns_skipUvarints 3 r4).2 r5 h; omega⟩
  · exact returns_ok (by omega)

/-- A frame that is a CRYPTO frame ends in the packet buffer. -/
def Decrypted.FrameFits (d : Decrypted) (reader : GoString) : Prop :=
  ∀ r offset r' length r'', reader = 0x06 :: r → readUvarint r = .ok (offset, r') →
    readUvarint r' = .ok (length, r'') → d.plaintext.length - r''.length + length.toNat ≤ d.buffer.length

/-- A turn that goes on has read something, and a new fragment comes with its frame; the last one changes nothing. -/
lemma Decrypted.frameBody_cases {d : Decrypted} {s : Frames} {r : Frames ⊕ Frames} (h : d.frameBody s = .ok r) :
    r.elim (fun s' => s'.reader.length < s.reader.length ∧ s'.frameTypeList ≠ []) (· = s) := by
  rw [Decrypted.frameBody] at h
  split at h
  · cases h
    rfl
  next frameType r heq =>
  rw [heq, length_cons]
  split at h
  · cases h
    exact ⟨Nat.lt_succ_self _, by simp⟩
  split at h
  · obtain ⟨r', hr', h⟩ := bind_ok h
    cases h
    have := (returns_skipAck frameType r).2 r' hr'
    exact ⟨by dsimp only; omega, by simp⟩
  split at h
  · obtain ⟨⟨offset, r1⟩, h1, h⟩ := bind_ok h
    obtain ⟨⟨length, r2⟩, h2, h⟩ := bind_ok h
    obtain ⟨payload, -, h⟩ := bind_ok h
    cases h
    have := (returns_readUvarint r).2 _ h1
    have := (returns_readUvarint r1).2 _ h2
    exact ⟨by rw [length_drop]; dsimp only at *; omega, by simp⟩
  split at h
  · obtain ⟨r1, h1, h⟩ := bind_ok h
    obtain ⟨⟨length, r2⟩, h2, h⟩ := bind_ok h
    cases h
    have := (returns_skipUvarints 2 r).2 _ h1
    have := (returns_readUvarint r1).2 _ h2
    exact ⟨by rw [length_drop]; dsimp only at *; omega, by simp⟩
  · cases h

lemma Decrypted.ends_frameBody (d : Decrypted) (s : Frames) : Ends (d.frameBody s) ↔ d.FrameFits s.reader := by
  rw [Decrypted.frameBody]
  split
  next heq =>
    refine ⟨fun _ r _ _ _ _ h => ?_, fun _ => trivial⟩
    rw [heq] at h
    cases h
  next frameType r heq =>
  have hother (h : frameType ≠ 0x06) : d.FrameFits s.reader := by
    intro r' _ _ _ _ hr
    rw [heq] at hr
    exact absurd (cons.inj hr).1 h
  split
  next hty => exact ⟨fun _ => hother (by rintro rfl; simp at hty), fun _ => trivial⟩
  split
  next hty =>
    refine ⟨fun _ => hother (by rintro rfl; simp at hty), fun _ => ?_⟩
    exact ends_bind.2 ⟨(returns_skipAck frameType r).1, fun _ _ => trivial⟩
  split
  next hty =>
    subst hty
    constructor
    · intro h r0 offset r1 length r2 hr h1 h2
      rw [heq] at hr
      cases hr
      rw [h1] at h
      simp only [ok_bind, h2] at h
      exact ends_sliceLen.1 (ends_bind.1 h).1
    · intro h
      refine ends_bind.2 ⟨(returns_readUvarint r).1, fun ⟨offset, r1⟩ h1 => ?_⟩
      refine ends_bind.2 ⟨(returns_readUvarint r1).1, fun ⟨length, r2⟩ h2 => ?_⟩
      exact ends_bind.2 ⟨ends_sliceLen.2 (h r offset r1 length r2 heq h1 h2), fun _ _ => trivial⟩
  next h6 =>
  split
  · refine ⟨fun _ => hother h6, fun _ => ?_⟩
    refine ends_bind.2 ⟨(returns_skipUvarints 2 r).1, fun r1 _ => ?_⟩
    exact ends_bind.2 ⟨(returns_readUvarint r1).1, fun _ _ => trivial⟩
  · exact ⟨fun _ => hother h6, fun _ => trivial⟩

lemma Decrypted.settles_frameBody (d : Decrypted) :
    Settles d.frameBody (fun _ => True) (fun s => s.reader.length) fun _ => False where
  inv _ _ := trivial
  lower _ h := Or.inl (Decrypted.frameBody_cases h).1
  stuck _ h := h.elim

/-- The CRYPTO frames that the loop comes to end in the packet buffer. -/
def Decrypted.FramesFit (d : Decrypted) : Prop :=
  ∀ s, Reaches d.frameBody { reader := d.plaintext } s → d.FrameFits s.reader

lemma Decrypted.ends_frames (d : Decrypted) : Ends d.frames ↔ d.FramesFit := by
  rw [Decrypted.frames, d.settles_frameBody.ends_iff _ trivial (by simp)]
  refine forall₂_congr fun s _ => ?_
  rw [d.ends_frameBody]
  exact and_iff_left id

variable {f : Frames}

lemma Decrypted.frames_fragments {d : Decrypted} (h : d.frames = .ok f) (hf : f.frameTypeList = []) :
    f.fragments = [] := by
  have hpost : f.frameTypeList = [] → f.fragments = [] := by
    refine iterate_post (I := fun s => s.frameTypeList = [] → s.fragments = [])
      (Q := fun s => s.frameTypeList = [] → s.fragments = []) ?_ ?_ _ (fun _ => rfl) h
    · intro s s' _ hbody hnil
      exact absurd hnil (Decrypted.frameBody_cases hbody).2
    · intro s a hs hbody
      cases Decrypted.frameBody_cases hbody
      exact hs
  exact hpost hf

/-! ### The handshake -/

/-- The fragment that the loop takes at an index is empty. -/
def emptyAt (fragments : List Fragment) (index : ℕ) : Prop :=
  ∃ f, fragments.find? (fun f => f.offset.toNat = index) = some f ∧ f.length = 0

lemma fragmentsFrom_lt {fragments : List Fragment} {f : Fragment} (hf : f ∈ fragments) {index : ℕ}
    (h : f.offset.toNat < index) : fragmentsFrom fragments index < fragmentsFrom fragments f.offset.toNat := by
  simp only [fragmentsFrom]
  induction fragments with
  | nil => simp at hf
  | cons g fragments ih =>
    have hle : fragments.countP (fun g => index ≤ g.offset.toNat) ≤
        fragments.countP fun g => f.offset.toNat ≤ g.offset.toNat := by
      refine countP_mono_left fun g _ hg => ?_
      simp only [decide_eq_true_eq] at hg ⊢
      omega
    rw [countP_cons, countP_cons]
    rcases mem_cons.1 hf with rfl | hf
    · rw [if_neg (by simpa using h), if_pos (by simp)]
      omega
    · have := ih hf
      by_cases hg : index ≤ g.offset.toNat
      · rw [if_pos (by simpa using hg), if_pos (by simpa using h.le.trans hg)]
        omega
      · rw [if_neg (by simpa using hg)]
        omega

variable (fragments : List Fragment)

lemma settles_findBody (size : ℕ) :
    Settles (findBody fragments size) (fun s => s.2.length ≤ size) (fun s => fragmentsFrom fragments s.1)
      fun s => emptyAt fragments s.1 where
  inv := by
    intro s s' _ h
    rw [findBody] at h
    split at h
    · cases h
      simp
    · cases h
  lower := by
    intro s s' _ h
    rw [findBody] at h
    split at h
    next f hf =>
      cases h
      have hoff : f.offset.toNat = s.1 := by simpa using find?_some hf
      by_cases h0 : f.length = 0
      · exact Or.inr ⟨f, hf, h0⟩
      · left
        have hpos : f.length.toNat ≠ 0 := fun h => h0 (BitVec.eq_of_toNat_eq h)
        dsimp only
        rw [← hoff]
        exact fragmentsFrom_lt (mem_of_find?_eq_some hf) (by omega)
    · cases h
  stuck := by
    intro s hI ⟨f, hf, h0⟩
    have hoff : f.offset.toNat = s.1 := by simpa using find?_some hf
    refine ⟨s, ?_, f, hf, h0⟩
    have hpay : f.payload = [] := length_eq_zero_iff.1 (by rw [f.length_payload, h0]; rfl)
    rw [findBody, hf]
    dsimp only
    rw [hpay, append_nil, take_of_length_le hI, h0, hoff]
    rfl

/-- The indices up to which the fragments join: 0, and the end of the fragment that the loop takes at such an index. -/
inductive Joined (fragments : List Fragment) : ℕ → Prop
  | start : Joined fragments 0
  | next {i : ℕ} {f : Fragment} (hi : Joined fragments i)
      (hf : fragments.find? (fun f => f.offset.toNat = i) = some f) :
      Joined fragments (f.offset.toNat + f.length.toNat)

/-- No fragment that the loop takes is empty. -/
def NoEmpty (fragments : List Fragment) : Prop := ∀ i, Joined fragments i → ¬emptyAt fragments i

lemma joined_iff_reaches (size : ℕ) (header : GoString) (i : ℕ) :
    Joined fragments i ↔ ∃ buffer, Reaches (findBody fragments size) (0, header) (i, buffer) := by
  constructor
  · intro h
    induction h with
    | start => exact ⟨header, .refl⟩
    | next _ hf ih =>
      obtain ⟨buffer, hr⟩ := ih
      exact ⟨_, hr.tail (by rw [findBody, hf]; rfl)⟩
  · rintro ⟨buffer, hr⟩
    generalize hs : (i, buffer) = s at hr
    have hall : Joined fragments s.1 := by
      clear hs
      induction hr with
      | refl => exact .start
      | tail _ hbody ih =>
        rw [findBody] at hbody
        split at hbody
        next f hf =>
          cases hbody
          exact .next ih hf
        · cases hbody
    rwa [← hs] at hall

lemma reassembleIn_eq {n : ℕ} (h : fragmentsFrom fragments 0 < n) : reassembleIn n fragments = reassemble fragments :=
  (settles_findBody fragments _).iterate_eq n (by simp) h (Nat.lt_succ_self _)

/-- **The fragments are put together exactly if none that the loop takes is empty.** -/
theorem ends_reassemble : Ends (reassemble fragments) ↔ NoEmpty fragments := by
  rw [reassemble, reassembleIn, (settles_findBody fragments _).ends_iff _ (by simp) (by simp)]
  constructor
  · intro h i hi
    obtain ⟨buffer, hr⟩ := (joined_iff_reaches fragments _ _ i).1 hi
    exact (h _ hr).2
  · intro h s hs
    refine ⟨?_, h s.1 ((joined_iff_reaches fragments _ _ s.1).2 ⟨s.2, hs⟩)⟩
    rw [findBody]
    split <;> exact trivial

/-- The fragments follow each other from an index on, and none is empty. -/
def Follow : ℕ → List Fragment → Prop
  | _, [] => True
  | i, f :: fs => f.offset.toNat = i ∧ 0 < f.length.toNat ∧ Follow (i + f.length.toNat) fs

lemma Follow.le {fs : List Fragment} {i : ℕ} (h : Follow i fs) : ∀ f ∈ fs, i ≤ f.offset.toNat := by
  induction fs generalizing i with
  | nil => simp
  | cons g fs ih => exact forall_mem_cons.2 ⟨h.1.ge, fun f hf => (Nat.le_add_right ..).trans (ih h.2.2 f hf)⟩

lemma Follow.iterate_findBody {fragments fs : List Fragment} {size i n : ℕ} {buffer : GoString} (h : Follow i fs)
    (hmem : ∀ f, f ∈ fs ↔ f ∈ fragments ∧ i ≤ f.offset.toNat)
    (hsize : (buffer ++ fs.flatMap Fragment.payload).length ≤ size) (hn : fs.length < n) :
    iterate (findBody fragments size) n (i, buffer) = .ok (buffer ++ fs.flatMap Fragment.payload) := by
  induction fs generalizing i n buffer with
  | nil =>
    obtain ⟨n, rfl⟩ := Nat.exists_eq_add_of_lt hn
    have hf : fragments.find? (fun f => f.offset.toNat = i) = none := by grind
    simp [Lib.iterate, findBody, hf, pure, Except.pure]
  | cons g fs ih =>
    obtain ⟨rfl, hpos, hrest⟩ := h
    obtain ⟨n, rfl⟩ := Nat.exists_eq_add_of_lt hn
    -- the others start after `g`
    have hlater := hrest.le
    have hf : fragments.find? (fun f => f.offset.toNat = g.offset.toNat) = some g := by
      cases hf : fragments.find? (fun f => f.offset.toNat = g.offset.toNat) <;> grind
    rw [flatMap_cons, ← append_assoc] at hsize ⊢
    have hbody : findBody fragments size (g.offset.toNat, buffer) =
        .ok (.inl (g.offset.toNat + g.length.toNat, buffer ++ g.payload)) := by
      simp only [findBody, hf]
      rw [take_of_length_le (by rw [length_append] at hsize; omega)]
      rfl
    rw [iterate_next hbody]
    exact ih hrest (by grind) hsize (by grind)

/-- **Fragments that tile a handshake are put together to it**, in whatever order they come. -/
theorem reassemble_of_follow {fragments fs : List Fragment} (h : Follow 0 fs) (hperm : fragments.Perm fs) :
    let data := fs.flatMap Fragment.payload
    reassemble fragments =
      .ok ([0x16, 0x03, 0x03, BitVec.ofNat 8 (data.length / 2 ^ 8), BitVec.ofNat 8 data.length] ++ data) := by
  intro data
  have hlen : (fragments.map fun f => f.length.toNat).sum = data.length := by
    rw [(hperm.map _).sum_nat, length_flatMap]
    exact congrArg _ (map_congr_left fun f _ => f.length_payload.symm)
  rw [reassemble, reassembleIn, hlen]
  exact h.iterate_findBody (by simp [hperm.mem_iff]) (by simp [data]; omega) (by simp [fragmentsFrom, hperm.length_eq])

theorem reassemble_swapped : reassemble [⟨1, 1, [8], rfl⟩, ⟨0, 1, [7], rfl⟩] = .ok [0x16, 3, 3, 0, 2, 7, 8] :=
  @reassemble_of_follow _ [⟨0, 1, [7], rfl⟩, ⟨1, 1, [8], rfl⟩] (by simp [Follow]) (.swap ..)

/-! ### The client -/

lemma ends_guessClient {frameTypeList : List Byte} (h : frameTypeList ≠ []) (fingerprint : ClientHello) :
    Ends (guessClient frameTypeList fingerprint) := by
  have hlen := length_pos_iff.2 h
  rw [guessClient]
  split
  · exact trivial
  refine ends_bind.2 ⟨ends_index.2 hlen, fun first _ => ?_⟩
  refine ends_bind.2 ⟨ends_sliceFrom.2 (by omega), fun rest _ => ?_⟩
  dsimp only
  split
  · exact trivial
  refine ends_bind.2 ⟨ends_index.2 (by omega), fun last _ => ?_⟩
  refine ends_bind.2 ⟨ends_sliceOf.2 (by omega), fun init _ => ?_⟩
  repeat' split
  all_goals exact trivial

/-- The fragments left in the metadata are not yet a handshake. -/
def SniffMetadata.Incomplete (m : SniffMetadata) : Prop :=
  ∀ fragments, m.sniffContext = some fragments →
    ∃ payload e, reassemble fragments = .ok payload ∧ compute payload = .error (.error e)

/-- A call with a packet: its CRYPTO frames end in the packet buffer, none of the fragments put together is empty, and
the lists of the handshake are complete. -/
structure Crypto.PacketFits (crypto : Crypto) (m : SniffMetadata) (packet : GoString) : Prop where
  frames : ∀ header d, readHeader packet = .ok header → crypto.decrypt packet header = .ok d → d.FramesFit
  fragments : ∀ f, crypto.framesOf packet = .ok f → NoEmpty (f.fragments ++ m.sniffContext.getD [])
  payload : ∀ f payload, crypto.framesOf packet = .ok f →
    reassemble (f.fragments ++ m.sniffContext.getD []) = .ok payload → PayloadFits payload

lemma Crypto.ends_framesOf (packet : GoString) : Ends (crypto.framesOf packet) ↔
      ∀ header d, readHeader packet = .ok header → crypto.decrypt packet header = .ok d → d.FramesFit := by
  have hh := returns_readHeader packet
  rw [Crypto.framesOf, ends_bind]
  constructor
  · rintro ⟨-, h⟩ header d hheader hd
    exact d.ends_frames.1 ((ends_bind.1 (h header hheader)).2 d hd)
  · intro h
    refine ⟨hh.1, fun header hheader => ends_bind.2 ⟨(crypto.returns_decrypt (hh.2 header hheader)).1, fun d hd => ?_⟩⟩
    exact d.ends_frames.2 (h header d hheader hd)

variable {crypto : Crypto}

lemma Crypto.framesOf_fragments
    (h : crypto.framesOf packet = .ok f) (hf : f.frameTypeList = []) : f.fragments = [] := by
  obtain ⟨header, -, h⟩ := bind_ok h
  obtain ⟨d, -, h⟩ := bind_ok h
  exact Decrypted.frames_fragments h hf

variable {m : SniffMetadata}

lemma SniffMetadata.Incomplete.compute_ne_ok (hm : m.Incomplete) {payload : GoString}
    (h : reassemble (m.sniffContext.getD []) = .ok payload) (fingerprint : ClientHello) :
    compute payload ≠ .ok fingerprint := by
  have hnot : ∃ payload e, reassemble (m.sniffContext.getD []) = .ok payload ∧ compute payload = .error (.error e) := by
    cases hc : m.sniffContext with
    | none => exact ⟨[0x16, 0x03, 0x03, 0, 0], ⟨.length, 3⟩, rfl, rfl⟩
    | some fragments => exact hm fragments hc
  obtain ⟨payload', e, h', he⟩ := hnot
  cases h.symm.trans h'
  rw [he]
  simp

lemma SniffMetadata.ends_frames (hm : m.Incomplete) (hf : f.frameTypeList = [] → f.fragments = []) :
    Ends (m.frames f) ↔ NoEmpty (f.fragments ++ m.sniffContext.getD []) ∧
      ∀ payload, reassemble (f.fragments ++ m.sniffContext.getD []) = .ok payload → PayloadFits payload := by
  rw [SniffMetadata.frames, ends_bind, ends_reassemble]
  refine and_congr_right fun _ => forall₂_congr fun payload hpayload => ?_
  rw [ends_bind, ends_attempt, ends_compute]
  refine and_iff_left ?_
  intro r hr
  cases r with
  | error e => exact trivial
  | ok fingerprint =>
    have hcompute : compute payload = .ok fingerprint := by
      generalize compute payload = x at hr
      rcases x with (_ | _ | _) | _ <;> cases hr
      rfl
    have hne : f.frameTypeList ≠ [] := by
      intro hnil
      rw [hf hnil] at hpayload
      exact hm.compute_ne_ok hpayload fingerprint hcompute
    refine ends_bind.2 ⟨?_, fun _ _ => trivial⟩
    rw [SniffMetadata.clientOf]
    split
    · exact ends_guessClient hne fingerprint
    · exact trivial

lemma SniffMetadata.frames_incomplete {hello : Hello} (h : m.frames f = .ok hello) : hello.metadata.Incomplete := by
  obtain ⟨payload, hpayload, h⟩ := bind_ok h
  obtain ⟨r, hr, h⟩ := bind_ok h
  cases r with
  | error e =>
    cases h
    intro fragments hfragments
    cases hfragments
    refine ⟨payload, e, hpayload, ?_⟩
    generalize compute payload = x at hr
    rcases x with (_ | _ | _) | _ <;> cases hr
    rfl
  | ok fingerprint =>
    obtain ⟨client, -, h⟩ := bind_ok h
    cases h
    intro fragments hfragments
    cases hfragments

/-- **A call returns exactly if the packet fits.** -/
theorem Crypto.ends_quicClientHello (hm : m.Incomplete) (packet : GoString) :
    Ends (crypto.quicClientHello m packet) ↔ crypto.PacketFits m packet := by
  rw [Crypto.quicClientHello, ends_bind, crypto.ends_framesOf]
  have hcall : ∀ f, crypto.framesOf packet = .ok f → _ := fun f hf =>
    SniffMetadata.ends_frames hm (crypto.framesOf_fragments hf)
  constructor
  · rintro ⟨hframes, h⟩
    exact ⟨hframes, fun f hf => ((hcall f hf).1 (h f hf)).1, fun f payload hf => ((hcall f hf).1 (h f hf)).2 payload⟩
  · intro h
    exact ⟨h.frames, fun f hf => (hcall f hf).2 ⟨h.fragments f hf, fun payload => h.payload f payload hf⟩⟩

/-! ### Sequences of calls -/

/-- The metadata of a connection, and whether all calls so far have returned. -/
structure Session where
  metadata : SniffMetadata
  alive : Bool := true

/-- A call with the next packet; an error that is returned leaves the metadata as it was. -/
def Crypto.call (crypto : Crypto) (s : Session) (packet : GoString) : Option Session :=
  if s.alive then
    match crypto.quicClientHello s.metadata packet with
    | .ok hello => some { s with metadata := hello.metadata }
    | .error (.error _) => some s
    | .error _ => some { s with alive := false }
  else none

lemma Crypto.call_alive {s t : Session} (h : crypto.call s packet = some t) :
    t.alive = true ↔ Ends (crypto.quicClientHello s.metadata packet) := by
  rw [Crypto.call] at h
  split at h
  next halive =>
    split at h
    next hello heq =>
      cases h
      rw [heq]
      exact ⟨fun _ => trivial, fun _ => halive⟩
    next e heq =>
      cases h
      rw [heq]
      exact ⟨fun _ => trivial, fun _ => halive⟩
    next e hne heq =>
      cases h
      rw [heq]
      rcases e with _ | _ | e
      · exact ⟨by simp, fun h => h.elim⟩
      · exact ⟨by simp, fun h => h.elim⟩
      · exact absurd rfl (hne e)
  · cases h

lemma Crypto.call_incomplete {s t : Session} (h : crypto.call s packet = some t)
    (hs : s.metadata.Incomplete) : t.metadata.Incomplete := by
  rw [Crypto.call] at h
  split at h
  · split at h
    next hello heq =>
      cases h
      obtain ⟨f, -, heq⟩ := bind_ok heq
      exact SniffMetadata.frames_incomplete heq
    · cases h
      exact hs
    · cases h
      exact hs
  · cases h

/-- **Every call of a sequence returns exactly if every packet fits**: its CRYPTO frames end in the packet buffer, no
empty fragment is taken, and the lists of the handshake are complete. -/
theorem alive_iff_packetFits (m : SniffMetadata) (packets : List GoString) :
    VisitAll crypto.call (fun s => s.alive = true) ⟨{ m with sniffContext := none }, true⟩ packets ↔
      StepAll crypto.call (fun s packet => crypto.PacketFits s.metadata packet) ⟨{ m with sniffContext := none }, true⟩
        packets := by
  refine visitAll_iff_stepAll (I := fun s => s.metadata.Incomplete) ?_ ?_ packets (fun _ h => by cases h) rfl
  · intro s packet t ht hs
    exact Crypto.call_incomplete ht hs
  · intro s packet t ht hs _
    rw [Crypto.call_alive ht, crypto.ends_quicClientHello hs]

/-! ### Packets that do not fit -/

/-- Ciphers that leave the plaintext as it is. -/
def nullCrypto : Crypto where
  extract secret _ := secret
  expand secret _ _ := secret
  encrypt _ block := block.map fun _ => 0
  length_encrypt _ _ := List.length_map _
  gcmOpen _ _ data _ := if 16 ≤ data.length then some (data.take (data.length - 16)) else none
  length_open := by
    intro _ _ data _ plaintext h
    split at h
    · cases h
      rw [List.length_take]
      omega
    · cases h

/-- An Initial packet of version 1 with a short plaintext. -/
def initialPacket (plaintext : GoString) : GoString :=
  [0xc0, 0, 0, 0, 1, 1, 0x2a, 0, 0, 0x40, BitVec.ofNat 8 (17 + plaintext.length), 0] ++ plaintext ++ List.replicate 16 0

/-- A CRYPTO frame of 64 bytes in a packet that has none of them panics; one of no bytes at the start of the handshake
is looked for forever. -/
theorem crypto_frames_panic_and_loop :
    nullCrypto.quicClientHello {} (initialPacket [0x06, 0x00, 0x40, 0x40]) = .error .panic ∧
      nullCrypto.quicClientHello {} (initialPacket [0x06, 0x00, 0x00]) = .error .loop := by
  constructor
  · decide
  · decide

end SingBox.Sniff
