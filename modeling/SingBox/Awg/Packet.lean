import SingBox.Awg.Device

/-!
# Framing handshake messages and recognising received packets

A handshake message travels behind a random prefix and, with `random_trailers`, before a random
trailer; with a header protection key its bytes are masked by a ChaCha20 key stream whose nonce is the
start of the prefix (`frameHandshake`, `device/send.go`).  The receiver does not know the type of a
packet: `determinePacketTypeAndPadding` tries each type at that type's prefix length, and
`prepareReceivedPacket` then removes prefix, mask and trailer (`device/receive.go`).

ChaCha20 is a parameter.  `maskStream` is the key stream of a device, all zero without a key, so that
masking is the same operation in both cases.
-/

namespace SingBox.Awg

open SingBox.Lib List

section

variable {κ : Type} (chacha20 : HeaderCipherKey → GoString → ℕ → Byte)

/-! ### Sending -/

structure HandshakeWireConfig where
  header : BitVec 32
  pre : ℤ
  size : ℤ
  key : Option HeaderCipherKey
  randomTrailers : Bool

/-- The framing of a handshake message, taken before the message is made; other messages have none. -/
def Device.handshakeWireConfig (dev : Device κ) (t : MessageType) (draw : ℕ) : Go HandshakeWireConfig :=
  let config : HandshakeWireConfig := ⟨0, 0, 0, dev.wire.key, dev.randomTrailers⟩
  if t = .transport then .ok config
  else match dev.wire.headers t with
    | none => .error .panic
    | some h => do
      let header ← h.generate draw
      return { config with header, pre := dev.wire.paddings t, size := t.size }

/-- `fastrandn`: a number below `n`, or zero. -/
def fastrandn (n : ℕ) (draw : ℕ) : ℕ := if n = 0 then 0 else draw % n

/-- The random bytes are those of two calls of `rand.Read`, which does not fail. -/
def HandshakeWireConfig.frameHandshake (config : HandshakeWireConfig) (core : GoString) (window : ℤ)
    (draw : ℕ) (r1 r2 : ℕ → Byte) : Go GoString :=
  if config.size = 0 then .error (.error "invalid handshake type")
  else match awgPacketSize config.pre config.size 0 with
  | none => .error (.error "invalid handshake size")
  | some base =>
    if (core.length : ℤ) ≠ config.size then .error (.error "invalid handshake size")
    else if (maskKey config.key).isSome ∧ config.pre < headerCipherNonceSize then
      .error (.error "header protection requires a nonce-sized prefix")
    else
      let window := min window awgMaxPacketSize
      let trailer := if config.randomTrailers ∧ window > base then
        fastrandn (window - base).toNat draw else 0
      let front := fillRandom r1 config.pre.toNat
      let body := match maskKey config.key with
        | some k => xorKeyStream (chacha20 k (front.take 12)) core
        | none => core
      .ok (front ++ body ++ fillRandom r2 trailer)

def Device.frame (dev : Device κ) (t : MessageType) (core : GoString) (window : ℤ)
    (gen draw : ℕ) (r1 r2 : ℕ → Byte) : Go GoString := do
  let config ← dev.handshakeWireConfig t gen
  config.frameHandshake chacha20 core window draw r1 r2

/-! ### Receiving -/

def Wire.headerProtectionCipher (w : Wire) (salt : GoString) : Option (ℕ → Byte) :=
  (maskKey w.key).map fun k => chacha20 k salt

/-- The first bytes of the key stream of a packet, or zero bytes. -/
def Wire.typeHash (w : Wire) (packet : GoString) (n : ℕ) : GoString :=
  if 12 ≤ packet.length then
    match w.headerProtectionCipher chacha20 (packet.take 12) with
    | some ks => keyStream ks n
    | none => List.replicate n 0
  else List.replicate n 0

/-- The word at the position `pos` of the data behind a prefix, unmasked. -/
def Wire.wordAt (w : Wire) (packet : GoString) (padding : ℤ) (pos : ℕ) : Go (BitVec 32) := do
  let data ← slice packet padding packet.length
  let val ← leUint32 (data.drop pos)
  let mask ← leUint32 ((w.typeHash chacha20 packet 8).drop pos)
  return val ^^^ mask

def Wire.validates (w : Wire) (t : MessageType) (val : BitVec 32) : Bool :=
  (w.headers t).any fun h => h.validate val

inductive TransportMatch where
  | no
  | header
  | keypair
  deriving DecidableEq, Repr

def Device.matchTransport (dev : Device κ) (packet : GoString) (expectedType : Option MessageType) :
    Go TransportMatch :=
  let padding := dev.wire.paddings .transport
  match awgPacketSize padding 0 messageTransportSize with
  | none => .ok .no
  | some expectedSize =>
    if expectedSize ≤ packet.length then do
      let val ← dev.wire.wordAt chacha20 packet padding 0
      if dev.wire.validates .transport val then
        if expectedType = some .transport then return .header
        else
          let receiver ← dev.wire.wordAt chacha20 packet padding 4
          return if (dev.keypairs receiver).isSome then .keypair else .header
      else return .no
    else .ok .no

def Device.matchHandshake (dev : Device κ) (packet : GoString) (t : MessageType) : Go Bool :=
  match awgPacketSize (dev.wire.paddings t) t.size 0 with
  | none => .ok false
  | some expectedSize =>
    if packet.length = expectedSize ∨ (dev.randomTrailers ∧ packet.length > expectedSize) then do
      let val ← dev.wire.wordAt chacha20 packet (dev.wire.paddings t) 0
      return dev.wire.validates t val
    else .ok false

def Device.matchHandshakes (dev : Device κ) (packet : GoString) (expectedType : Option MessageType) :
    List MessageType → Go (Option MessageType)
  | [] => .ok none
  | t :: ts =>
    if expectedType = none ∨ expectedType = some t then do
      if ← dev.matchHandshake chacha20 packet t then return some t
      else dev.matchHandshakes packet expectedType ts
    else dev.matchHandshakes packet expectedType ts

def Device.determinePacketTypeAndPadding (dev : Device κ) (packet : GoString)
    (expectedType : Option MessageType) : Go (Option MessageType × ℤ) :=
  if (packet.length : ℤ) < minMessageSize ∨ (packet.length : ℤ) > awgMaxPacketSize then .ok (none, 0)
  else do
    let transport ← if expectedType = none ∨ expectedType = some .transport then
      dev.matchTransport chacha20 packet expectedType else .ok .no
    let fallback := if transport = .no then (none, 0)
      else (some MessageType.transport, dev.wire.paddings .transport)
    if transport = .keypair ∨ expectedType = some .transport then return fallback
    else
      match ← dev.matchHandshakes chacha20 packet expectedType [.initiation, .response, .cookieReply] with
      | some t => return (some t, dev.wire.paddings t)
      | none => return fallback

/-- The length of the core behind the prefix, of the `rest` bytes there. -/
def MessageType.coreSize (t : MessageType) (rest : ℤ) : ℤ := if t = .transport then rest else t.size

def MessageType.protectedSize (t : MessageType) : ℤ :=
  if t = .transport then messageTransportHeaderSize else t.size

/-- The core of a received packet, its type and its prefix length. -/
def Device.prepareReceivedPacket (dev : Device κ) (packet : GoString) : Go (GoString × Option MessageType × ℤ) := do
  let (msgType, pre) ← dev.determinePacketTypeAndPadding chacha20 packet none
  match msgType with
  | none => return ([], none, 0)
  | some t =>
    let core ← slice packet pre (pre + t.coreSize (packet.length - pre))
    match maskKey dev.wire.key with
    | none => return (core, some t, pre)
    | some k =>
      if pre < headerCipherNonceSize then return ([], none, 0)
      else
        let salt ← slice packet 0 headerCipherNonceSize
        let header ← slice core 0 t.protectedSize
        return (xorKeyStream (chacha20 k salt) header ++ core.drop t.protectedSize.toNat, some t, pre)

/-! ### Masking -/

def Wire.maskStream (w : Wire) (salt : GoString) : ℕ → Byte :=
  match maskKey w.key with
  | some k => chacha20 k salt
  | none => fun _ => 0

variable {chacha20}

lemma xorKeyStream_zero (b : GoString) : xorKeyStream (fun _ => 0) b = b := by
  apply ext_getElem
  · simp
  · simp [xorKeyStream]

variable {w : Wire}

/-- The nonce is the same with or without what follows the prefix. -/
lemma maskStream_take {front : GoString} (rest : GoString) (h : (maskKey w.key).isSome → 12 ≤ front.length) :
    w.maskStream chacha20 ((front ++ rest).take 12) = w.maskStream chacha20 (front.take 12) := by
  unfold Wire.maskStream
  split
  next k hk => rw [take_append_of_le_length (h (by rw [hk]; rfl))]
  · rfl

variable {packet : GoString}

lemma typeHash_eq (n : ℕ) (h : 12 ≤ packet.length) :
    w.typeHash chacha20 packet n = keyStream (w.maskStream chacha20 (packet.take 12)) n := by
  rw [Wire.typeHash, if_pos h, Wire.headerProtectionCipher, Wire.maskStream]
  cases maskKey w.key with
  | some k => rfl
  | none => exact (xorKeyStream_zero _).symm

variable {v : BitVec 32}

lemma wordAt_append {front rest : GoString} {padding : ℤ} {pos : ℕ}
    (hf : (front.length : ℤ) = padding) (hlen : 12 ≤ (front ++ rest).length) (hpos : pos ≤ 4)
    (hv : leUint32 (rest.drop pos) = .ok v) : w.wordAt chacha20 (front ++ rest) padding pos =
      .ok (v ^^^ ksWord (w.maskStream chacha20 ((front ++ rest).take 12)) pos) := by
  have hk : ∀ ks : ℕ → Byte, leUint32 ((keyStream ks 8).drop pos) = .ok (ksWord ks pos) := by
    intro ks
    rw [keyStream, xorKeyStream_drop, drop_replicate]
    exact leUint32_keyStream (fun i => ks (pos + i)) (by omega)
  unfold Wire.wordAt
  rw [slice_right hf.symm, typeHash_eq 8 hlen]
  show (leUint32 (rest.drop pos) >>= _) = _
  rw [hv]
  rw [hk]
  rfl

lemma wordAt_total {padding : ℤ} {pos : ℕ} (h0 : 0 ≤ padding)
    (h12 : 12 ≤ packet.length) (hpos : pos ≤ 4) (hlen : padding + pos + 4 ≤ packet.length) :
    ∃ v, w.wordAt chacha20 packet padding pos = .ok v := by
  obtain ⟨v, hv⟩ := leUint32_of_length (b := (packet.drop padding.toNat).drop pos)
    (by rw [length_drop, length_drop]; omega)
  have hsplit : packet = packet.take padding.toNat ++ packet.drop padding.toNat :=
    (take_append_drop _ _).symm
  have hl : ((packet.take padding.toNat).length : ℤ) = padding := by
    rw [length_take]; omega
  have h : w.wordAt chacha20 (packet.take padding.toNat ++ packet.drop padding.toNat) padding pos = _ :=
    wordAt_append hl (by rw [← hsplit]; exact h12) hpos hv
  rw [← hsplit] at h
  exact ⟨_, h⟩

/-! ### What is sent -/

lemma awgPacketSize_valid (hv : w.Valid) (t : MessageType) :
    awgPacketSize (w.paddings t) t.size 0 = some (w.paddings t + t.size) := by
  have h1 := hv.fits t
  have h2 := hv.nonneg t
  have h3 : 0 ≤ t.size := by cases t <;> decide
  exact awgPacketSize_eq_some.2 ⟨h2, h3, le_refl _, by omega, by omega⟩

lemma awgPacketSize_transport (hv : w.Valid) : awgPacketSize (w.paddings .transport) 0 messageTransportSize =
      some (w.paddings .transport + messageTransportSize) := by
  have h1 := hv.fits .transport
  have h2 := hv.nonneg .transport
  exact awgPacketSize_eq_some.2 ⟨h2, le_refl _, by decide, by simpa [MessageType.size, messageTransportSize] using h1,
    by omega⟩

/-- The packet consists of a clear prefix of the type's length, the masked bytes `core` and `tail`. -/
structure Framed (chacha20 : HeaderCipherKey → GoString → ℕ → Byte) (w : Wire) (t : MessageType)
    (front core tail packet : GoString) : Prop where
  eq : packet = front ++ xorKeyStream (w.maskStream chacha20 (front.take 12)) core ++ tail
  front_length : (front.length : ℤ) = w.paddings t
  nonce : (maskKey w.key).isSome → 12 ≤ front.length

namespace Framed

variable {w : Wire} {t : MessageType} {front core tail packet : GoString}

lemma of_valid (hv : w.Valid) (hf : (front.length : ℤ) = w.paddings t)
    (hp : packet = front ++ xorKeyStream (w.maskStream chacha20 (front.take 12)) core ++ tail) :
    Framed chacha20 w t front core tail packet := by
  refine ⟨hp, hf, fun hk => ?_⟩
  have h := hv.nonce hk t
  rw [← hf] at h
  exact Int.ofNat_le.1 h

lemma length (h : Framed chacha20 w t front core tail packet) :
    (packet.length : ℤ) = w.paddings t + core.length + tail.length := by
  rw [h.eq, length_append, length_append, length_xorKeyStream, ← h.front_length]
  rfl

lemma wordAt (h : Framed chacha20 w t front core tail packet) {padding : ℤ}
    (hp : padding = w.paddings t) (h12 : 12 ≤ packet.length) {pos : ℕ} (hpos : pos ≤ 4)
    (hv : leUint32 (core.drop pos) = .ok v) : w.wordAt chacha20 packet padding pos = .ok v := by
  have hdrop : leUint32 ((xorKeyStream (w.maskStream chacha20 (front.take 12)) core ++ tail).drop pos) =
      .ok (v ^^^ ksWord (w.maskStream chacha20 (front.take 12)) pos) := by
    have h4 : pos ≤ core.length := by
      by_contra hlt
      rw [drop_of_length_le (by omega)] at hv
      cases hv
    rw [drop_append_of_le_length (by simpa using h4), xorKeyStream_drop]
    exact leUint32_append (leUint32_xorKeyStream _ hv) tail
  have heq := h.eq
  rw [append_assoc] at heq
  subst heq
  rw [wordAt_append (h.front_length.trans hp.symm) h12 hpos hdrop, maskStream_take _ h.nonce,
    BitVec.xor_assoc, BitVec.xor_self, BitVec.xor_zero]

end Framed

def Device.trailerLen (dev : Device κ) (base window : ℤ) (draw : ℕ) : ℕ :=
  if dev.randomTrailers ∧ min window awgMaxPacketSize > base then
    fastrandn (min window awgMaxPacketSize - base).toNat draw else 0

variable {dev : Device κ} {t : MessageType}

/-- **With a valid framing state, a message of the right size is framed.** -/
theorem frame_framed {core : GoString} (hv : dev.wire.Valid) (ht : t ≠ .transport)
    (hc : (core.length : ℤ) = t.size) (window : ℤ) (gen draw : ℕ) (r1 r2 : ℕ → Byte) :
    ∃ wire, dev.frame chacha20 t core window gen draw r1 r2 = .ok wire ∧
      Framed chacha20 dev.wire t (fillRandom r1 (dev.wire.paddings t).toNat) core
        (fillRandom r2 (dev.trailerLen (dev.wire.paddings t + t.size) window draw)) wire := by
  obtain ⟨h, hh, hfull⟩ := hv.header t
  obtain ⟨header, hgen, -⟩ := MagicHeader.generate_validates hfull gen
  have hnonce : ¬ ((maskKey dev.wire.key).isSome ∧ dev.wire.paddings t < headerCipherNonceSize) :=
    fun hk => absurd (hv.nonce hk.1 t) (by omega)
  have hsize : t.size ≠ 0 := by cases t <;> decide
  refine ⟨_, ?_, .of_valid hv ?_ rfl⟩
  · unfold Device.frame Device.handshakeWireConfig
    rw [if_neg ht, hh]
    simp only [hgen, bind, Except.bind, pure, Except.pure, HandshakeWireConfig.frameHandshake,
      awgPacketSize_valid hv, hc, ne_eq, not_true_eq_false, if_false, hsize, hnonce, Device.trailerLen,
      Wire.maskStream]
    cases maskKey dev.wire.key with
    | some k => rfl
    | none => simp only [xorKeyStream_zero]
  · rw [length_fillRandom, Int.toNat_of_nonneg (hv.nonneg t)]

lemma trailerLen_le {base window : ℤ} {draw : ℕ} :
    base + dev.trailerLen base window draw ≤ max base (min window awgMaxPacketSize) := by
  unfold Device.trailerLen
  split
  · have hpos : 0 < (min window awgMaxPacketSize - base).toNat := by omega
    have := Nat.mod_lt draw hpos
    rw [fastrandn, if_neg (by omega)]
    omega
  · simp

lemma trailerLen_off (h : dev.randomTrailers = false) (base window : ℤ) (draw : ℕ) :
    dev.trailerLen base window draw = 0 := by
  simp [Device.trailerLen, h]

/-! ### The tests of a receiver -/

lemma matchHandshake_eq (hv : dev.wire.Valid) (hw : dev.wire.wordAt chacha20 packet (dev.wire.paddings t) 0 = .ok v) :
    dev.matchHandshake chacha20 packet t = .ok (decide (packet.length = dev.wire.paddings t + t.size ∨
      (dev.randomTrailers ∧ packet.length > dev.wire.paddings t + t.size)) && dev.wire.validates t v) := by
  rw [Device.matchHandshake, awgPacketSize_valid hv]
  dsimp only
  split
  next h =>
    rw [hw, decide_eq_true h]
    rfl
  next h => rw [decide_eq_false h, Bool.false_and]

lemma matchHandshake_of_length (hv : dev.wire.Valid) (htr : dev.randomTrailers = false)
    (hne : (packet.length : ℤ) ≠ dev.wire.paddings t + t.size) : dev.matchHandshake chacha20 packet t = .ok false := by
  rw [Device.matchHandshake, awgPacketSize_valid hv]
  exact if_neg (by simp [htr, hne])

lemma matchHandshake_total (t : MessageType) (hv : dev.wire.Valid) (h12 : 12 ≤ packet.length) :
    ∃ b, dev.matchHandshake chacha20 packet t = .ok b := by
  by_cases h : dev.wire.paddings t + t.size ≤ packet.length
  · have hs : 4 ≤ t.size := by cases t <;> decide
    obtain ⟨v, hw⟩ : ∃ v, dev.wire.wordAt chacha20 packet (dev.wire.paddings t) 0 = .ok v :=
      wordAt_total (hv.nonneg t) h12 (by omega) (by push_cast; omega)
    exact ⟨_, matchHandshake_eq hv hw⟩
  · rw [Device.matchHandshake, awgPacketSize_valid hv]
    exact ⟨false, if_neg (by omega)⟩

lemma matchTransport_total (hv : dev.wire.Valid) (h12 : 12 ≤ packet.length) (hk : ∀ i, dev.keypairs i = none) :
    ∃ m, dev.matchTransport chacha20 packet none = .ok m ∧ m ≠ .keypair := by
  rw [Device.matchTransport, awgPacketSize_transport hv]
  dsimp only
  split
  · have hsz : messageTransportSize = 32 := rfl
    have hread : ∀ pos ≤ 4, ∃ v,
        dev.wire.wordAt chacha20 packet (dev.wire.paddings .transport) pos = .ok v := fun pos hpos =>
      wordAt_total (hv.nonneg .transport) h12 hpos (by omega)
    obtain ⟨v, hw⟩ := hread 0 (by omega)
    obtain ⟨r, hr⟩ := hread 4 (by omega)
    simp only [hw, hr, bind, Except.bind, hk]
    split
    · exact ⟨.header, rfl, by decide⟩
    · exact ⟨.no, rfl, by decide⟩
  · exact ⟨.no, rfl, by decide⟩

lemma matchTransport_no (hv : dev.wire.Valid)
    (hw : dev.wire.wordAt chacha20 packet (dev.wire.paddings .transport) 0 = .ok v)
    (hn : dev.wire.validates .transport v = false) : dev.matchTransport chacha20 packet none = .ok .no := by
  rw [Device.matchTransport, awgPacketSize_transport hv]
  dsimp only
  split
  · rw [hw]
    simp only [bind, Except.bind, hn]
    rfl
  · rfl

/-! ### How a packet is recognised -/

lemma matchHandshakes_find {b : MessageType → Bool}
    {ts : List MessageType} (h : ∀ t ∈ ts, dev.matchHandshake chacha20 packet t = .ok (b t)) :
    dev.matchHandshakes chacha20 packet none ts = .ok (ts.find? b) := by
  induction ts with
  | nil => rfl
  | cons t ts ih =>
    have ht := h t (by simp)
    have ih := ih fun u hu => h u (by simp [hu])
    simp only [Device.matchHandshakes, true_or, ht, bind, Except.bind, find?_cons]
    cases b t with
    | true => rfl
    | false => exact ih

lemma determine_of_find {b : MessageType → Bool} {m : TransportMatch} (h1 : minMessageSize ≤ packet.length)
    (h2 : (packet.length : ℤ) ≤ awgMaxPacketSize) (hm : dev.matchTransport chacha20 packet none = .ok m)
    (hk : m ≠ .keypair) (hb : ∀ u ∈ [MessageType.initiation, .response, .cookieReply],
      dev.matchHandshake chacha20 packet u = .ok (b u))
    (hf : [MessageType.initiation, .response, .cookieReply].find? b = some t) :
    dev.determinePacketTypeAndPadding chacha20 packet none = .ok (some t, dev.wire.paddings t) := by
  unfold Device.determinePacketTypeAndPadding
  rw [if_neg (by omega)]
  simp only [hm, bind, Except.bind, reduceCtorEq, or_false, hk, matchHandshakes_find hb, hf]
  rfl

/-- **Prefix, mask and trailer are removed** from a packet that is recognised. -/
theorem prepare_of_determine {front header rest tail : GoString}
    (hf : Framed chacha20 dev.wire t front header (rest ++ tail) packet)
    (hd : dev.determinePacketTypeAndPadding chacha20 packet none = .ok (some t, dev.wire.paddings t))
    (hh : (header.length : ℤ) = t.protectedSize)
    (hr : (header.length : ℤ) + rest.length = t.coreSize (packet.length - dev.wire.paddings t)) :
    dev.prepareReceivedPacket chacha20 packet = .ok (header ++ rest, some t, dev.wire.paddings t) := by
  rw [← hf.front_length] at hd hr ⊢
  have hp : packet = front ++ (xorKeyStream (dev.wire.maskStream chacha20 (front.take 12)) header ++
      rest) ++ tail := by rw [hf.eq]; simp
  have hcore : slice packet front.length (front.length + t.coreSize (packet.length - front.length)) =
      .ok (xorKeyStream (dev.wire.maskStream chacha20 (front.take 12)) header ++ rest) := by
    rw [← hr, hp]
    exact slice_append rfl (by simp)
  unfold Device.prepareReceivedPacket
  rw [hd]
  simp only [bind, Except.bind, hcore]
  cases hk : maskKey dev.wire.key with
  | none =>
    have hz : dev.wire.maskStream chacha20 (front.take 12) = fun _ => 0 := by
      rw [Wire.maskStream, hk]
    rw [hz, xorKeyStream_zero]
    rfl
  | some k =>
    have h12 : 12 ≤ front.length := hf.nonce (by rw [hk]; rfl)
    have hks : dev.wire.maskStream chacha20 (front.take 12) = chacha20 k (front.take 12) := by
      rw [Wire.maskStream, hk]
    have hsalt : slice packet 0 headerCipherNonceSize = .ok (front.take 12) := by
      rw [hp, append_assoc]
      nth_rewrite 1 [← take_append_drop 12 front]
      rw [append_assoc]
      exact slice_left (by rw [length_take, Nat.min_eq_left h12]; rfl)
    have hhead : slice (xorKeyStream (chacha20 k (front.take 12)) header ++ rest) 0 t.protectedSize =
        .ok (xorKeyStream (chacha20 k (front.take 12)) header) := slice_left (by simpa using hh.symm)
    have hdrop : (xorKeyStream (chacha20 k (front.take 12)) header ++ rest).drop t.protectedSize.toNat =
        rest := drop_left' (by simp [← hh])
    have hpre : ¬ (front.length : ℤ) < headerCipherNonceSize := by
      unfold headerCipherNonceSize
      omega
    simp only [hks, if_neg hpre, hsalt, hhead, hdrop, xorKeyStream_xorKeyStream]
    rfl

end

end SingBox.Awg
