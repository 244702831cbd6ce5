import SingBox.Awg.Packet

/-!
# Transport messages from the sender to the inner packet

`encryptTransport` (`device/send.go`) chooses a padding, moves the plaintext behind prefix and header
inside the element's buffer, seals it in place and masks the header.  On the other side the core of the
received packet is opened in place (`RoutineDecryption`) and `processInboundContainer`
(`device/receive.go`) cuts the padding off by the length field of the inner IP packet.

The AEAD is a parameter, with what is assumed of it as fields.
-/

namespace SingBox.Awg

open SingBox.Lib List Except

/-- An authenticated cipher with tags of 16 bytes that opens what it has sealed. -/
structure Aead (κ : Type) where
  sealMsg : κ → GoString → GoString → GoString
  openMsg : κ → GoString → GoString → Option GoString
  length_seal : ∀ k n p, (sealMsg k n p).length = p.length + 16
  open_seal : ∀ k n p, openMsg k n (sealMsg k n p) = some p

def aeadNonce (counter : BitVec 64) : GoString := List.replicate 4 0 ++ putUint64 counter

/-! ### The replay filter (`replay/replay.go`) -/

structure Filter where
  last : ℕ := 0
  ring : ℕ → BitVec 64 := fun _ => 0

/-- Clear the blocks `current + 1` … `current + n`. -/
def clearBlocks (ring : ℕ → BitVec 64) (current : ℕ) : ℕ → ℕ → BitVec 64
  | 0 => ring
  | n + 1 => fun i => if i = (current + n + 1) % 128 then 0 else clearBlocks ring current n i

/-- Check the bit of the counter and set it. -/
def Filter.mark (f : Filter) (counter : ℕ) : Filter × Bool :=
  let old := f.ring (counter / 64 % 128)
  let new := old ||| (1 <<< (counter % 64))
  ({ f with ring := fun i => if i = counter / 64 % 128 then new else f.ring i }, old != new)

def Filter.validateCounter (f : Filter) (counter limit : ℕ) : Filter × Bool :=
  if limit ≤ counter then (f, false)
  else if f.last < counter then
    let current := f.last / 64
    let diff := min (counter / 64 - current) 128
    Filter.mark { last := counter, ring := clearBlocks f.ring current diff } counter
  else if f.last - counter > 127 * 64 then (f, false)
  else f.mark counter

def rejectAfterMessages : ℕ := 2 ^ 64 - 2 ^ 13 - 1

structure Keypair (κ : Type) where
  send : κ
  receive : κ
  localIndex : BitVec 32
  remoteIndex : BitVec 32

section

variable {κ : Type} (chacha20 : HeaderCipherKey → GoString → ℕ → Byte) (aead : Aead κ)

/-! ### Padding -/

/-- The random draws of one call of `encryptTransport`, and the content of a fresh buffer. -/
structure TransportDraws where
  additionHigh : ℕ
  additionLow : ℕ
  trailer : ℕ
  header : ℕ
  front : ℕ → Byte
  fresh : ℕ → Byte

/-- `-1` when no range is configured.  The width is computed in `uint64`. -/
def randomPaddingAddition (addition : UintRange) (udpWindow : ℕ) (packetSize : ℤ) (draws : TransportDraws) : ℤ :=
  if addition.isZero then -1
  else
    let udpWindow := min (udpWindow : ℤ) awgMaxPacketSize
    if udpWindow ≤ packetSize then 0
    else
      let lo := addition.lo.toNat
      let width := (addition.hi.toNat + (2 ^ 64 - lo) + 1) % 2 ^ 64
      let picked := if width = 2 ^ 32 then
          fastrandn (2 ^ 16) draws.additionHigh * 2 ^ 16 + fastrandn (2 ^ 16) draws.additionLow
        else lo + fastrandn (width % 2 ^ 32) draws.additionLow
      min (picked : ℤ) (udpWindow - packetSize)

/-- `-1` when trailers are off. -/
def randomTrailer (randomTrailers : Bool) (udpWindow : ℕ) (packetSize : ℤ) (draws : TransportDraws) : ℤ :=
  if !randomTrailers then -1
  else
    let udpWindow := min (udpWindow : ℤ) awgMaxPacketSize
    if udpWindow ≤ packetSize then 0
    else fastrandn (udpWindow - packetSize).toNat draws.trailer

/-- `(n + PaddingMultiple - 1) & ^(PaddingMultiple - 1)`. -/
def roundUp16 (n : ℤ) : ℤ := (n + 15) - (n + 15) % 16

def calculatePaddingSize (packetSize mtu : ℤ) : ℤ :=
  if mtu = 0 then roundUp16 packetSize - packetSize
  else
    let lastUnit := if packetSize > mtu then packetSize.tmod mtu else packetSize
    min (roundUp16 lastUnit) mtu - lastUnit

/-- The padding of a transport message; the window of the peer has been raised to `base`. -/
def Device.transportPadding (dev : Device (Keypair κ)) (udpWindow : ℕ) (length base : ℤ) (draws : TransportDraws) : ℤ :=
  let udpWindow := max udpWindow base.toNat
  let padding := randomPaddingAddition dev.contentPaddingAddition udpWindow base draws
  let padding := if padding < 0 then randomTrailer dev.randomTrailers udpWindow base draws else padding
  let padding := if padding < 0 then calculatePaddingSize length dev.mtu else padding
  min padding (awgMaxPacketSize - base)

/-! ### Sending -/

/-- `packet` is the plaintext, a part of `buffer`; of the buffer, all bytes up to its capacity count. -/
structure QueueOutboundElement (κ : Type) where
  buffer : GoString
  packet : GoString
  nonce : BitVec 64
  keypair : Keypair κ

/-- `aead.Seal(b[:off], …)`: in place when the capacity suffices, else the buffer stays as it is. -/
def sealInto (b : GoString) (off : ℤ) (sealed : GoString) : GoString :=
  if off + sealed.length ≤ b.length then
    b.take off.toNat ++ sealed ++ b.drop (off.toNat + sealed.length)
  else b

/-- What `encryptTransport` leaves in the element and in the peer. -/
structure EncryptedElement where
  packet : GoString
  isKeepalive : Bool
  udpWindow : ℕ
  deriving DecidableEq, Repr

def transportHeader (word : BitVec 32) (elem : QueueOutboundElement κ) : GoString :=
  putUint32 word ++ putUint32 elem.keypair.remoteIndex ++ putUint64 elem.nonce

/-- The part of `encryptTransport` that writes prefix, header and sealed content into a buffer that
holds the plaintext at its place. -/
def Device.sealTransport (dev : Device (Keypair κ)) (elem : QueueOutboundElement κ) (buffer : GoString)
    (padding : ℤ) (draws : TransportDraws) : Go GoString := do
  let pre := dev.wire.paddings .transport
  let length : ℤ := elem.packet.length
  let contentOffset := pre + messageTransportHeaderSize
  let front ← slice buffer 0 pre
  let buffer ← copyAt buffer 0 (fillRandom draws.front front.length)
  let _ ← slice buffer pre contentOffset
  match dev.wire.headers .transport with
  | none => throw .panic
  | some h =>
    let word ← h.generate draws.header
    let buffer ← copyAt buffer pre (transportHeader word elem)
    let plaintext ← slice buffer contentOffset (contentOffset + length + padding)
    let tail ← slice plaintext length plaintext.length
    let plaintext := plaintext.take length.toNat ++ List.replicate tail.length 0
    return sealInto buffer contentOffset (aead.sealMsg elem.keypair.send (aeadNonce elem.nonce) plaintext)

/-- The part of `encryptTransport` that masks the header. -/
def Wire.maskTransport (w : Wire) (buffer : GoString) : Go GoString :=
  match maskKey w.key with
  | none => .ok buffer
  | some k => do
    let pre := w.paddings .transport
    let salt ← slice buffer 0 headerCipherNonceSize
    let header ← slice buffer pre (pre + messageTransportHeaderSize)
    copyAt buffer pre (xorKeyStream (chacha20 k salt) header)

/-- The buffer for the packet: a larger one when the element's own is too small. -/
def QueueOutboundElement.grow (elem : QueueOutboundElement κ) (allocation : ℤ) (draws : TransportDraws) : Go GoString :=
  if (elem.buffer.length : ℤ) < allocation then .ok (fillRandom draws.fresh allocation.toNat)
  else slice elem.buffer 0 allocation

def Device.encryptTransport (dev : Device (Keypair κ)) (udpWindow : ℕ) (elem : QueueOutboundElement κ)
    (draws : TransportDraws) : Go EncryptedElement :=
  let pre := dev.wire.paddings .transport
  match awgPacketSize pre elem.packet.length messageTransportSize with
  | none => .error (.error "transport exceeds maximum packet size")
  | some base =>
    if (maskKey dev.wire.key).isSome ∧ pre < headerCipherNonceSize then
      .error (.error "header protection requires a nonce-sized prefix")
    else
      let padding := dev.transportPadding udpWindow elem.packet.length base draws
      let allocation := base + padding
      if allocation > maxMessageSize then .error (.error "transport exceeds buffer size")
      else do
        let buffer ← elem.grow allocation draws
        let buffer ← copyAt buffer (pre + messageTransportHeaderSize) elem.packet
        let buffer ← dev.sealTransport aead elem buffer padding draws
        let packet ← dev.wire.maskTransport chacha20 buffer
        return { packet, isKeepalive := elem.packet = [], udpWindow := max udpWindow base.toNat }

/-! ### Receiving -/

/-- The buffer holds the received packet from its first byte; `packet` is `none` once decryption has
failed. -/
structure QueueInboundElement (κ : Type) where
  buffer : GoString
  packet : Option GoString
  counter : BitVec 64
  keypair : Keypair κ
  padding : ℤ

/-- The element `RoutineReceiveIncoming` makes of a prepared transport packet. -/
def inboundElement (core : GoString) (keypair : Keypair κ) (padding : ℤ) : QueueInboundElement κ :=
  { buffer := core, packet := some core, counter := 0, keypair, padding }

/-- One element of `RoutineDecryption`; the plaintext replaces the content in the buffer. -/
def decryptElement (elem : QueueInboundElement κ) : Go (QueueInboundElement κ) := do
  let packet := elem.packet.getD []
  let field ← slice packet 8 16
  let content ← slice packet 16 packet.length
  let counter ← leUint64 field
  match aead.openMsg elem.keypair.receive (aeadNonce counter) content with
  | none => return { elem with packet := none, counter }
  | some plaintext =>
    let buffer ← copyAt elem.buffer 16 plaintext
    return { elem with buffer, packet := some plaintext, counter }

/-- The state of the peer that inbound processing changes; the filters are those of its key pairs. -/
structure InboundState where
  filters : BitVec 32 → Filter
  udpWindow : ℕ := 500
  rxBytes : ℕ := 0
  dataPacketReceived : Bool := false
  scratch : List GoString := []

/-- The inner packet without padding, when its header is sound and its source allowed. -/
def innerPacket (allowed : GoString → Bool) (packet : GoString) : Go (Option GoString) :=
  match packet with
  | [] => .ok none
  | b :: _ =>
    if b >>> 4 = 4 then
      if packet.length < 20 then .ok none
      else do
        let length ← beUint16 (← slice packet 2 4)
        if length.toNat > packet.length ∨ length.toNat < 20 then return none
        else
          let packet ← slice packet 0 length.toNat
          let src ← slice packet 12 16
          return if allowed src then some packet else none
    else if b >>> 4 = 6 then
      if packet.length < 40 then .ok none
      else do
        let length ← beUint16 (← slice packet 4 6)
        if length.toNat + 40 > packet.length then return none
        else
          let packet ← slice packet 0 (length.toNat + 40)
          let src ← slice packet 8 24
          return if allowed src then some packet else none
    else .ok none

def inboundStep (allowed : GoString → Bool) (s : InboundState) (elem : QueueInboundElement κ) : Go InboundState :=
  match elem.packet with
  | none => .ok s
  | some packet =>
    let index := elem.keypair.localIndex
    let (filter, valid) := (s.filters index).validateCounter elem.counter.toNat rejectAfterMessages
    let s := { s with filters := fun i => if i = index then filter else s.filters i }
    if !valid then .ok s
    else
      let window := (elem.padding + messageTransportSize + packet.length).toNat % 2 ^ 32
      let s := { s with rxBytes := s.rxBytes + (packet.length + 32), udpWindow := max s.udpWindow window }
      -- an empty packet, or one that starts with a zero byte, is a keepalive
      if packet.headD 0 = 0 then .ok s
      else do
        let s := { s with dataPacketReceived := true }
        match ← innerPacket allowed packet with
        | none => return s
        | some inner =>
          let out ← slice elem.buffer 0 (16 + inner.length)
          return { s with scratch := s.scratch ++ [out] }

/-- The state after a container and the packets written to the TUN device. -/
def processInboundContainer (allowed : GoString → Bool) (s : InboundState)
    (elems : List (QueueInboundElement κ)) : Go (InboundState × List GoString) := do
  let s ← elems.foldlM (inboundStep allowed) { s with dataPacketReceived := false, scratch := [] }
  return (s, s.scratch.map (List.drop 16))

variable {chacha20 aead}

/-! ### What is sent -/

lemma exists_append_of_length {b : GoString} {m n : ℕ} (h : b.length = m + n) :
    ∃ x y, b = x ++ y ∧ x.length = m ∧ y.length = n :=
  ⟨b.take m, b.drop m, (take_append_drop m b).symm, by simp; omega, by simp; omega⟩

lemma sealInto_append {a b sealed : GoString} {off : ℤ} (hoff : off = a.length)
    (hlen : sealed.length = b.length) : sealInto (a ++ b) off sealed = a ++ sealed := by
  subst hoff
  rw [sealInto, if_pos (by simp [hlen]), Int.toNat_natCast, take_left' rfl,
    drop_of_length_le (by simp [hlen]), append_nil]

@[simp] lemma length_transportHeader (word : BitVec 32) (elem : QueueOutboundElement κ) :
    (transportHeader word elem).length = 16 := rfl

variable {elem : QueueOutboundElement κ} {dev : Device (Keypair κ)}

/-- **Sealing in place.**  A buffer with the plaintext behind prefix and header and with room for
padding and tag becomes the packet, still unmasked. -/
theorem sealTransport_eq {x y z u : GoString}
    (hv : dev.wire.Valid) (hx : (x.length : ℤ) = dev.wire.paddings .transport) (hy : y.length = 16)
    (hu : u.length = 16) (draws : TransportDraws) : ∃ word, dev.wire.validates .transport word = true ∧
      dev.sealTransport aead elem (x ++ y ++ (elem.packet ++ z) ++ u) z.length draws =
        .ok (fillRandom draws.front x.length ++ transportHeader word elem ++
          aead.sealMsg elem.keypair.send (aeadNonce elem.nonce) (elem.packet ++ replicate z.length 0)) := by
  obtain ⟨h, hh, hfull⟩ := hv.header .transport
  obtain ⟨word, hgen, hval⟩ := MagicHeader.generate_validates hfull draws.header
  refine ⟨word, by rw [Wire.validates, hh]; exact hval, ?_⟩
  generalize hF : fillRandom draws.front x.length = F
  have hFx : F.length = x.length := by rw [← hF, length_fillRandom]
  generalize hS : aead.sealMsg elem.keypair.send (aeadNonce elem.nonce) (elem.packet ++ replicate z.length 0) = S
  have hSlen : S.length = ((elem.packet ++ z) ++ u).length := by
    rw [← hS, aead.length_seal]
    simp
    omega
  have hoff : dev.wire.paddings .transport + messageTransportHeaderSize = (F ++ transportHeader word elem).length := by
    rw [length_append, hFx, ← hx]
    rfl
  -- the buffer after each write
  have e1 : slice (x ++ y ++ (elem.packet ++ z) ++ u) 0 (dev.wire.paddings .transport) = .ok x := by
    rw [append_assoc, append_assoc]
    exact slice_left hx.symm
  have e2 : copyAt (x ++ y ++ (elem.packet ++ z) ++ u) 0 F = .ok (F ++ y ++ ((elem.packet ++ z) ++ u)) := by
    simp only [append_assoc]
    exact copyAt_left hFx
  have e3 : slice (F ++ y ++ ((elem.packet ++ z) ++ u)) (dev.wire.paddings .transport)
      (dev.wire.paddings .transport + messageTransportHeaderSize) = .ok y :=
    slice_append (by rw [hFx, hx]) (by rw [hFx, hx, hy]; rfl)
  have e4 : copyAt (F ++ y ++ ((elem.packet ++ z) ++ u)) (dev.wire.paddings .transport)
      (transportHeader word elem) = .ok (F ++ transportHeader word elem ++ ((elem.packet ++ z) ++ u)) :=
    copyAt_append (by rw [hFx, hx]) (by rw [hy]; rfl)
  have e5 : slice (F ++ transportHeader word elem ++ ((elem.packet ++ z) ++ u))
      (dev.wire.paddings .transport + messageTransportHeaderSize)
      (dev.wire.paddings .transport + messageTransportHeaderSize + elem.packet.length + z.length) =
      .ok (elem.packet ++ z) := by
    rw [← append_assoc]
    refine slice_append hoff ?_
    rw [hoff, add_assoc, ← Nat.cast_add, ← length_append]
  have e6 : slice (elem.packet ++ z) elem.packet.length (elem.packet ++ z).length = .ok z := slice_right rfl
  have e7 : sealInto (F ++ transportHeader word elem ++ ((elem.packet ++ z) ++ u))
      (dev.wire.paddings .transport + messageTransportHeaderSize) S = F ++ transportHeader word elem ++ S :=
    sealInto_append hoff hSlen
  unfold Device.sealTransport
  simp only [bind, Except.bind, e1, hF, e2, e3, hh, hgen, e4, e5, e6, Int.toNat_natCast, take_left' rfl, hS, e7]
  rfl

theorem maskTransport_framed {w : Wire} {F header S : GoString} (hv : w.Valid)
    (hF : (F.length : ℤ) = w.paddings .transport) (hh : header.length = 16) :
    ∃ packet, w.maskTransport chacha20 (F ++ header ++ S) = .ok packet ∧
      Framed chacha20 w .transport F header S packet := by
  refine ⟨_, ?_, .of_valid hv hF rfl⟩
  cases hk : maskKey w.key with
  | none =>
    simp only [Wire.maskTransport, Wire.maskStream, hk, xorKeyStream_zero]
  | some k =>
    have h12 : 12 ≤ F.length := by
      have := hv.nonce (by rw [hk]; rfl) .transport
      rw [← hF] at this
      exact Int.ofNat_le.1 this
    have e1 : slice (F ++ header ++ S) 0 headerCipherNonceSize = .ok (F.take 12) := by
      nth_rewrite 1 [← take_append_drop 12 F]
      rw [append_assoc, append_assoc]
      exact slice_left (by rw [length_take, Nat.min_eq_left h12]; rfl)
    have e2 : slice (F ++ header ++ S) (w.paddings .transport)
        (w.paddings .transport + messageTransportHeaderSize) = .ok header :=
      slice_append hF.symm (by rw [hF, hh]; rfl)
    simp only [Wire.maskTransport, Wire.maskStream, hk, e1, e2]
    exact copyAt_append hF.symm (length_xorKeyStream _ _)

/-- Sealing reads the padding as a part of the buffer, so it is not negative. -/
lemma padding_nonneg {buffer out : GoString} {padding : ℤ} {draws : TransportDraws}
    (h : dev.sealTransport aead elem buffer padding draws = .ok out) : 0 ≤ padding := by
  obtain ⟨_, -, h⟩ := bind_ok h
  obtain ⟨_, -, h⟩ := bind_ok h
  obtain ⟨_, -, h⟩ := bind_ok h
  split at h
  · cases h
  · obtain ⟨_, -, h⟩ := bind_ok h
    obtain ⟨_, -, h⟩ := bind_ok h
    obtain ⟨plaintext, hp, h⟩ := bind_ok h
    obtain ⟨tail, ht, -⟩ := bind_ok h
    have h1 := slice_length hp
    have h2 := slice_length ht
    omega

/-- **What `encryptTransport` puts on the wire**: the clear prefix, the masked header, and the sealed
plaintext with zero bytes behind it. -/
theorem encryptTransport_ok {udpWindow : ℕ} {draws : TransportDraws} {out : EncryptedElement} (hv : dev.wire.Valid)
    (h : dev.encryptTransport chacha20 aead udpWindow elem draws = .ok out) :
    ∃ word front pad, dev.wire.validates .transport word = true ∧
      Framed chacha20 dev.wire .transport front (transportHeader word elem)
        (aead.sealMsg elem.keypair.send (aeadNonce elem.nonce) (elem.packet ++ replicate pad 0))
        out.packet ∧
      (out.packet.length : ℤ) ≤ awgMaxPacketSize := by
  unfold Device.encryptTransport at h
  dsimp only at h
  split at h
  · cases h
  rename_i base hbase
  rw [awgPacketSize_eq_some] at hbase
  have h32 : messageTransportSize = 32 := rfl
  have h16 : messageTransportHeaderSize = 16 := rfl
  generalize hpad : dev.transportPadding udpWindow elem.packet.length base draws = padding at h
  have hle : padding ≤ awgMaxPacketSize - base := hpad ▸ min_le_right _ _
  split at h
  · cases h
  split at h
  · cases h
  obtain ⟨buffer, hbuf, h⟩ := bind_ok h
  obtain ⟨buffer', hcopy, h⟩ := bind_ok h
  obtain ⟨sealed, hseal, h⟩ := bind_ok h
  obtain ⟨packet, hmask, h⟩ := bind_ok h
  cases h
  have h0 := padding_nonneg hseal
  have hlen : (buffer.length : ℤ) = base + padding := by
    unfold QueueOutboundElement.grow at hbuf
    split at hbuf
    · cases hbuf
      rw [length_fillRandom]
      omega
    · rw [slice_length hbuf, sub_zero]
  -- the buffer, cut where prefix, header, plaintext, padding and tag go
  obtain ⟨x, b1, rfl, hx, hb1⟩ := exists_append_of_length
    (show buffer.length = (dev.wire.paddings .transport).toNat +
      (16 + (elem.packet.length + (padding.toNat + 16))) by omega)
  obtain ⟨y, b2, rfl, hy, hb2⟩ := exists_append_of_length hb1
  obtain ⟨p, b3, rfl, hp, hb3⟩ := exists_append_of_length hb2
  obtain ⟨z, u, rfl, hz, hu⟩ := exists_append_of_length hb3
  have hxl : (x.length : ℤ) = dev.wire.paddings .transport := by omega
  have hzl : (z.length : ℤ) = padding := by omega
  have hcopy' : copyAt (x ++ (y ++ (p ++ (z ++ u)))) (dev.wire.paddings .transport +
      messageTransportHeaderSize) elem.packet = .ok (x ++ y ++ (elem.packet ++ z) ++ u) := by
    have hoff : dev.wire.paddings .transport + messageTransportHeaderSize = (x ++ y).length := by
      rw [length_append, hy, ← hxl]
      rfl
    have := copyAt_append (c := z ++ u) hoff hp.symm
    simpa only [append_assoc] using this
  rw [hcopy'] at hcopy
  cases hcopy
  obtain ⟨word, hword, hseal'⟩ := sealTransport_eq hv hxl hy hu draws
  rw [hzl, hseal] at hseal'
  cases hseal'
  obtain ⟨packet', hmask', hf⟩ := maskTransport_framed hv
    (show ((fillRandom draws.front x.length).length : ℤ) = _ by rw [length_fillRandom, hxl])
    (length_transportHeader word elem)
  rw [hmask] at hmask'
  cases hmask'
  refine ⟨word, _, z.length, hword, hf, ?_⟩
  have hl := hf.length
  rw [aead.length_seal, length_append, length_replicate, length_transportHeader] at hl
  show (packet.length : ℤ) ≤ _
  omega

/-! ### What is received -/

section

variable {dev : Device (Keypair κ)} {elem : QueueOutboundElement κ} {word : BitVec 32}
  {front content packet : GoString} {kp : Keypair κ}

/-- A key pair under the receiver index makes the transport test decide. -/
lemma determine_transport (hv : dev.wire.Valid)
    (hf : Framed chacha20 dev.wire .transport front (transportHeader word elem) content packet)
    (hword : dev.wire.validates .transport word = true) (hc : 16 ≤ content.length)
    (hle : (packet.length : ℤ) ≤ awgMaxPacketSize) (hk : dev.keypairs elem.keypair.remoteIndex = some kp) :
    dev.determinePacketTypeAndPadding chacha20 packet none = .ok (some .transport, dev.wire.paddings .transport) := by
  have h32 : messageTransportSize = 32 := rfl
  have hmin : minMessageSize = 32 := rfl
  have hl := hf.length
  rw [length_transportHeader] at hl
  have h0 := hv.nonneg .transport
  have hw : dev.wire.wordAt chacha20 packet (dev.wire.paddings .transport) 0 = .ok word :=
    hf.wordAt rfl (by omega) (by omega) (leUint32_put word _)
  have hr : dev.wire.wordAt chacha20 packet (dev.wire.paddings .transport) 4 = .ok elem.keypair.remoteIndex :=
    hf.wordAt rfl (by omega) (by omega) (leUint32_put elem.keypair.remoteIndex (putUint64 elem.nonce))
  have hm : dev.matchTransport chacha20 packet none = .ok .keypair := by
    rw [Device.matchTransport, awgPacketSize_transport hv]
    simp only [bind, Except.bind, hw, hr, hword, hk]
    rw [if_pos (by omega)]
    rfl
  unfold Device.determinePacketTypeAndPadding
  rw [if_neg (by omega)]
  simp only [hm, bind, Except.bind, reduceCtorEq]
  rfl

lemma prepare_transport (hv : dev.wire.Valid)
    (hf : Framed chacha20 dev.wire .transport front (transportHeader word elem) content packet)
    (hword : dev.wire.validates .transport word = true) (hc : 16 ≤ content.length)
    (hle : (packet.length : ℤ) ≤ awgMaxPacketSize) (hk : dev.keypairs elem.keypair.remoteIndex = some kp) :
    dev.prepareReceivedPacket chacha20 packet =
      .ok (transportHeader word elem ++ content, some .transport, dev.wire.paddings .transport) := by
  have hdet := determine_transport hv hf hword hc hle hk
  have hl := hf.length
  have hf' : Framed chacha20 dev.wire .transport front (transportHeader word elem) (content ++ [])
      packet := by rwa [append_nil]
  refine prepare_of_determine hf' hdet rfl ?_
  rw [MessageType.coreSize, if_pos rfl]
  omega

end

/-- The element of a received packet that holds the plaintext. -/
structure Opened (header plaintext : GoString) (counter : BitVec 64) (kp : Keypair κ)
    (e : QueueInboundElement κ) : Prop where
  buffer : ∃ tag, e.buffer = header ++ plaintext ++ tag
  header : header.length = 16
  packet : e.packet = some plaintext
  counter : e.counter = counter
  keypair : e.keypair = kp

variable (aead) in
/-- Opening in place: the plaintext stands in the buffer behind the header. -/
lemma decryptElement_sealed (kp : Keypair κ) (padding : ℤ) (word : BitVec 32)
    (elem : QueueOutboundElement κ) (plaintext : GoString) (hkey : kp.receive = elem.keypair.send) :
    ∃ e, decryptElement aead (inboundElement (transportHeader word elem ++
        aead.sealMsg elem.keypair.send (aeadNonce elem.nonce) plaintext) kp padding) = .ok e ∧
      Opened (transportHeader word elem) plaintext elem.nonce kp e := by
  generalize hS : aead.sealMsg elem.keypair.send (aeadNonce elem.nonce) plaintext = S
  have hSlen : S.length = plaintext.length + 16 := by rw [← hS, aead.length_seal]
  obtain ⟨s, tag, rfl, hs, -⟩ := exists_append_of_length hSlen
  have e1 : slice (transportHeader word elem ++ (s ++ tag)) 8 16 = .ok (putUint64 elem.nonce) := by
    exact slice_append rfl rfl
  have e2 : slice (transportHeader word elem ++ (s ++ tag)) 16
      (transportHeader word elem ++ (s ++ tag)).length = .ok (s ++ tag) := slice_right rfl
  have e3 : leUint64 (putUint64 elem.nonce) = .ok elem.nonce := by
    exact leUint64_put elem.nonce []
  have e4 : aead.openMsg kp.receive (aeadNonce elem.nonce) (s ++ tag) = some plaintext := by
    rw [hkey, ← hS, aead.open_seal]
  have e5 : copyAt (transportHeader word elem ++ (s ++ tag)) 16 plaintext =
      .ok (transportHeader word elem ++ plaintext ++ tag) := by
    rw [← append_assoc]
    exact copyAt_append rfl hs.symm
  simp only [decryptElement, inboundElement, Option.getD_some, bind, Except.bind, e1, e2, e3, e4, e5]
  exact ⟨_, rfl, ⟨tag, rfl⟩, rfl, rfl, rfl, rfl⟩

/-! ### Inner packets -/

/-- An IPv4 packet: a header of twenty bytes or more, and a length field that is right. -/
def IPv4Packet (p : GoString) : Prop :=
  20 ≤ p.length ∧ p.headD 0 >>> 4 = 4 ∧ ∃ n, beUint16 ((p.take 4).drop 2) = .ok n ∧ n.toNat = p.length

def IPv6Packet (p : GoString) : Prop :=
  40 ≤ p.length ∧ p.headD 0 >>> 4 = 6 ∧ ∃ n, beUint16 ((p.take 6).drop 4) = .ok n ∧ n.toNat + 40 = p.length

def innerSource (p : GoString) : GoString :=
  if p.headD 0 >>> 4 = 4 then (p.take 16).drop 12 else (p.take 24).drop 8

lemma slice_append_left {p z : GoString} (lo hi : ℕ) (hlo : lo ≤ hi) (hhi : hi ≤ p.length) :
    slice (p ++ z) lo hi = .ok ((p.take hi).drop lo) := by
  rw [slice, if_pos (by simp; omega), Int.toNat_natCast, Int.toNat_natCast, take_append_of_le_length hhi]

lemma innerPacket_append {allowed : GoString → Bool} {p : GoString} (z : GoString)
    (h : IPv4Packet p ∨ IPv6Packet p) (ha : allowed (innerSource p) = true) :
    innerPacket allowed (p ++ z) = .ok (some p) := by
  cases p with
  | nil => rcases h with ⟨h, -⟩ | ⟨h, -⟩ <;> simp at h
  | cons b t =>
    have hlen : (b :: t ++ z).length = (b :: t).length + z.length := length_append
    have hwhole : slice (b :: t ++ z) 0 ((b :: t).length : ℕ) = .ok (b :: t) := slice_left rfl
    rcases h with ⟨h20, hb, n, hn, hnl⟩ | ⟨h40, hb, n, hn, hnl⟩
    · rw [innerSource, if_pos hb] at ha
      have hb : b >>> 4 = 4 := hb
      have hfield : slice (b :: t ++ z) 2 4 = .ok (((b :: t).take 4).drop 2) :=
        slice_append_left 2 4 (by omega) (by omega)
      have hsrc : slice (b :: t ++ []) 12 16 = .ok (((b :: t).take 16).drop 12) :=
        slice_append_left 12 16 (by omega) (by omega)
      rw [append_nil] at hsrc
      rw [cons_append, innerPacket, if_pos hb, ← cons_append, if_neg (by omega)]
      simp only [bind, Except.bind, hfield, hn]
      rw [if_neg (by omega), hnl, hwhole]
      simp only [hsrc, ha]
      rfl
    · have h4 : ¬ (b :: t).headD 0 >>> 4 = 4 := by rw [hb]; decide
      rw [innerSource, if_neg h4] at ha
      have hb : b >>> 4 = 6 := hb
      have h4 : ¬ b >>> 4 = 4 := h4
      have hfield : slice (b :: t ++ z) 4 6 = .ok (((b :: t).take 6).drop 4) :=
        slice_append_left 4 6 (by omega) (by omega)
      have hsrc : slice (b :: t ++ []) 8 24 = .ok (((b :: t).take 24).drop 8) :=
        slice_append_left 8 24 (by omega) (by omega)
      rw [append_nil] at hsrc
      have hcast : ((n.toNat : ℤ) + 40) = ((b :: t).length : ℕ) := by rw [← hnl]; rfl
      rw [cons_append, innerPacket, if_neg h4, if_pos hb, ← cons_append, if_neg (by omega)]
      simp only [bind, Except.bind, hfield, hn]
      rw [if_neg (by omega), hcast, hwhole]
      simp only [hsrc, ha]
      rfl

/-! ### End to end -/

lemma process_keepalive {header : GoString} {n : ℕ} {counter : BitVec 64} {kp : Keypair κ}
    {e : QueueInboundElement κ} (h : Opened header (replicate n 0) counter kp e)
    (allowed : GoString → Bool) (s : InboundState) :
    ∃ s', processInboundContainer allowed s [e] = .ok (s', []) ∧ s'.dataPacketReceived = false := by
  have hz : (replicate n (0 : Byte)).headD 0 = 0 := by cases n <;> rfl
  simp only [processInboundContainer, foldlM_cons, inboundStep, h.packet, hz]
  split
  · exact ⟨_, rfl, rfl⟩
  · exact ⟨_, rfl, rfl⟩

lemma IPv4Packet.or_head_ne {p z : GoString} (hp : IPv4Packet p ∨ IPv6Packet p) : (p ++ z).headD 0 ≠ 0 := by
  cases p with
  | nil => rcases hp with ⟨hp, -⟩ | ⟨hp, -⟩ <;> simp at hp
  | cons b t =>
    rintro hb
    subst hb
    rcases hp with ⟨-, hp, -⟩ | ⟨-, hp, -⟩
    · exact absurd hp (by simp)
    · exact absurd hp (by simp)

lemma process_packet {header p z : GoString} {counter : BitVec 64} {kp : Keypair κ}
    {e : QueueInboundElement κ} (h : Opened header (p ++ z) counter kp e) {allowed : GoString → Bool} {s : InboundState}
    (hfresh : ((s.filters kp.localIndex).validateCounter counter.toNat rejectAfterMessages).2 = true)
    (hp : IPv4Packet p ∨ IPv6Packet p) (ha : allowed (innerSource p) = true) :
    ∃ s', processInboundContainer allowed s [e] = .ok (s', [p]) ∧ s'.dataPacketReceived = true := by
  obtain ⟨tag, htag⟩ := h.buffer
  have hout : slice e.buffer 0 (16 + p.length) = .ok (header ++ p) := by
    rw [htag, ← append_assoc, append_assoc (header ++ p)]
    exact slice_left (by rw [length_append, h.header]; rfl)
  have hdrop : (header ++ p).drop 16 = p := drop_left' h.header
  simp only [processInboundContainer, foldlM_cons, foldlM_nil, inboundStep, h.packet, h.keypair,
    h.counter, hfresh, Bool.not_true, IPv4Packet.or_head_ne hp, if_false, Bool.false_eq_true,
    innerPacket_append z hp ha, bind, Except.bind, hout, pure, Except.pure, nil_append, map_cons, hdrop]
  exact ⟨_, rfl, rfl⟩

/-- **Transport messages are transparent.**  A packet that `encryptTransport` produces fits the limit, and a receiver
with the same framing and the key pair gets the index, the counter and the content of the sender, which opens to the
plaintext followed by zero bytes.  A keepalive delivers nothing, and an IP packet from an allowed source is delivered as
it was. -/
theorem transport_transparent {d d' : IpcSetDevice} {w w' : Wire} {snd rcv : Device (Keypair κ)}
    (hm : d.mergeWithDevice w = .ok (d', w')) (hs : snd.wire = w') (hr : rcv.wire = w')
    {udpWindow : ℕ} {elem : QueueOutboundElement κ} {draws : TransportDraws} {out : EncryptedElement}
    (henc : snd.encryptTransport chacha20 aead udpWindow elem draws = .ok out) {kp : Keypair κ}
    (hk : rcv.keypairs elem.keypair.remoteIndex = some kp) (hkey : kp.receive = elem.keypair.send) :
    (out.packet.length : ℤ) ≤ awgMaxPacketSize ∧ ∃ core pad, rcv.prepareReceivedPacket chacha20 out.packet =
        .ok (core, some .transport, w'.paddings .transport) ∧
      leUint32 (core.drop 4) = .ok elem.keypair.remoteIndex ∧
      leUint64 (core.drop 8) = .ok elem.nonce ∧
      aead.openMsg kp.receive (aeadNonce elem.nonce) (core.drop 16) =
        some (elem.packet ++ replicate pad 0) ∧
      ∃ e, decryptElement aead (inboundElement core kp (w'.paddings .transport)) = .ok e ∧
        ∀ (allowed : GoString → Bool) (s : InboundState),
          (elem.packet = [] → ∃ s', processInboundContainer allowed s [e] = .ok (s', []) ∧
            s'.dataPacketReceived = false) ∧
          (IPv4Packet elem.packet ∨ IPv6Packet elem.packet → allowed (innerSource elem.packet) = true →
            ((s.filters kp.localIndex).validateCounter elem.nonce.toNat rejectAfterMessages).2 = true →
            ∃ s', processInboundContainer allowed s [e] = .ok (s', [elem.packet]) ∧ s'.dataPacketReceived = true) := by
  obtain ⟨hv, -, -⟩ := IpcSetDevice.mergeWithDevice_ok hm
  subst hr
  obtain ⟨word, front, pad, hword, hf, hle⟩ := encryptTransport_ok (hs ▸ hv) henc
  rw [hs] at hword hf
  have hprep := prepare_transport hv hf hword (by rw [aead.length_seal]; omega) hle hk
  obtain ⟨e, hdec, hopen⟩ := decryptElement_sealed aead kp (rcv.wire.paddings .transport) word elem
    (elem.packet ++ replicate pad 0) hkey
  refine ⟨hle, _, pad, hprep, ?_, ?_, ?_, e, hdec, fun allowed s => ⟨fun he => ?_, fun hp ha hfresh => ?_⟩⟩
  · exact leUint32_put elem.keypair.remoteIndex (putUint64 elem.nonce ++ _)
  · exact leUint64_put elem.nonce _
  · rw [drop_left' (length_transportHeader word elem), hkey, aead.open_seal]
  · rw [he] at hopen
    exact process_keepalive hopen allowed s
  · exact process_packet hopen hfresh hp ha

end

/-- Messages in the clear with a tag of zero bytes. -/
def zeroTag : Aead Unit where
  sealMsg _ _ p := p ++ List.replicate 16 0
  openMsg _ _ c := some (c.take (c.length - 16))
  length_seal _ _ p := by simp
  open_seal _ _ p := by simp

def zeroDraws : TransportDraws := ⟨0, 0, 0, 0, fun _ => 7, fun _ => 9⟩

/-- Prefixes of twelve bytes, a header protection key, and a key pair under the index 3. -/
def transportDevice : Device (Keypair Unit) where
  wire := ⟨fun _ => 12, newWire.headers, some ⟨List.replicate 32 7, rfl⟩⟩
  mtu := 1408
  keypairs i := if i = 3 then some ⟨(), (), 3, 5⟩ else none

def ipv4Header : GoString := [0x45, 0, 0, 20] ++ List.replicate 16 1

def ipv4Element : QueueOutboundElement Unit := ⟨[], ipv4Header, 0, ⟨(), (), 5, 3⟩⟩

/-- An IPv4 packet travels through a masked tunnel. -/
theorem transport_transparent_ipv4 :
    ∃ out, transportDevice.encryptTransport (fun _ _ i => BitVec.ofNat 8 i) zeroTag 0 ipv4Element
        zeroDraws = .ok out ∧ (out.packet.length : ℤ) ≤ awgMaxPacketSize ∧
      ∃ core e, transportDevice.prepareReceivedPacket (fun _ _ i => BitVec.ofNat 8 i) out.packet =
          .ok (core, some .transport, 12) ∧
        decryptElement zeroTag (inboundElement core ⟨(), (), 3, 5⟩ 12) = .ok e ∧
        ∃ s', processInboundContainer (fun src => src = [1, 1, 1, 1]) ⟨fun _ => {}, 500, 0, false, []⟩ [e] =
          .ok (s', [ipv4Header]) := by
  refine ⟨_, rfl, ?_⟩
  obtain ⟨hle, core, -, hprep, -, -, -, e, hdec, h⟩ := transport_transparent
    (d := ⟨fun _ => 12, some ⟨replicate 32 7, rfl⟩, fun _ => none⟩) (w := newWire) rfl
    (show transportDevice.wire = _ from rfl) rfl
    (show transportDevice.encryptTransport (fun _ _ i => BitVec.ofNat 8 i) zeroTag 0 ipv4Element
      zeroDraws = _ from rfl) (show transportDevice.keypairs 3 = some ⟨(), (), 3, 5⟩ from rfl) rfl
  obtain ⟨s', hs, -⟩ := (h (fun src => src = [1, 1, 1, 1]) ⟨fun _ => {}, 500, 0, false, []⟩).2
    (.inl ⟨by decide, by decide, 20, rfl, rfl⟩) rfl (by decide +kernel)
  exact ⟨hle, core, e, hprep, hdec, s', hs⟩

end SingBox.Awg
