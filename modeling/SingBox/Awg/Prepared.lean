import SingBox.Awg.Packet

/-!
# Received packets are prepared safely

`prepareReceivedPacket` for any packet and any framing state, valid or not: prefixes may be negative or larger than a
packet, headers may be missing or overlap, a key may be set together with prefixes that are too short for its nonce.
Every test reads inside the packet, since `awgPacketSize` bounds the prefix before anything is sliced; what a test that
succeeds says about the packet is `Recognised`.
-/

namespace SingBox.Awg

open SingBox.Lib List

variable {κ : Type} {chacha20 : HeaderCipherKey → GoString → ℕ → Byte} {dev : Device κ} {packet : GoString}

/-- The packet has room for a message of the type behind the prefix of that type, and the word there is a header of
the type. -/
structure Recognised (chacha20 : HeaderCipherKey → GoString → ℕ → Byte) (dev : Device κ) (packet : GoString)
    (t : MessageType) : Prop where
  nonneg : 0 ≤ dev.wire.paddings t
  room : dev.wire.paddings t + t.size ≤ packet.length
  header : ∃ v, dev.wire.wordAt chacha20 packet (dev.wire.paddings t) 0 = .ok v ∧ dev.wire.validates t v

/-! ### The tests -/

lemma matchHandshake_spec (chacha20 : HeaderCipherKey → GoString → ℕ → Byte) (dev : Device κ)
    (h12 : 12 ≤ packet.length) (t : MessageType) :
    ∃ b, dev.matchHandshake chacha20 packet t = .ok b ∧ (b = true → Recognised chacha20 dev packet t) := by
  rw [Device.matchHandshake]
  cases hsize : awgPacketSize (dev.wire.paddings t) t.size 0 with
  | none => exact ⟨false, rfl, by simp⟩
  | some n =>
    obtain ⟨h0, hs, -, -, rfl⟩ := awgPacketSize_eq_some.1 hsize
    dsimp only
    split
    · have hroom : dev.wire.paddings t + t.size ≤ packet.length := by omega
      have h4 : 4 ≤ t.size := by cases t <;> decide
      obtain ⟨v, hv⟩ : ∃ v, dev.wire.wordAt chacha20 packet (dev.wire.paddings t) 0 = .ok v :=
        wordAt_total h0 h12 (by omega) (by push_cast; omega)
      rw [hv]
      exact ⟨_, rfl, fun hval => ⟨h0, hroom, v, hv, hval⟩⟩
    · exact ⟨false, rfl, by simp⟩

lemma matchTransport_spec (chacha20 : HeaderCipherKey → GoString → ℕ → Byte) (dev : Device κ)
    (h12 : 12 ≤ packet.length) : ∃ m, dev.matchTransport chacha20 packet none = .ok m ∧
      (m ≠ .no → Recognised chacha20 dev packet .transport) := by
  rw [Device.matchTransport]
  cases hsize : awgPacketSize (dev.wire.paddings .transport) 0 messageTransportSize with
  | none => exact ⟨.no, rfl, by simp⟩
  | some n =>
    obtain ⟨h0, -, -, -, rfl⟩ := awgPacketSize_eq_some.1 hsize
    dsimp only
    split
    · have hsz : messageTransportSize = 32 := rfl
      have hread : ∀ pos ≤ 4, ∃ v, dev.wire.wordAt chacha20 packet (dev.wire.paddings .transport) pos = .ok v :=
        fun pos hpos => wordAt_total h0 h12 hpos (by omega)
      obtain ⟨v, hv⟩ := hread 0 (by omega)
      obtain ⟨r, hr⟩ := hread 4 (by omega)
      have hrec (hval : dev.wire.validates .transport v = true) : Recognised chacha20 dev packet .transport :=
        ⟨h0, by rw [show MessageType.transport.size = messageTransportSize from rfl]; omega, v, hv, hval⟩
      simp only [hv, hr, bind, Except.bind, reduceCtorEq]
      split
      next hval =>
        exact ⟨_, rfl, fun _ => hrec hval⟩
      · exact ⟨.no, rfl, by simp⟩
    · exact ⟨.no, rfl, by simp⟩

/-- The classifier reads inside the packet, and a type it returns is recognised at that type's prefix. -/
lemma determine_spec (chacha20 : HeaderCipherKey → GoString → ℕ → Byte) (dev : Device κ) (packet : GoString) :
    ∃ r pre, dev.determinePacketTypeAndPadding chacha20 packet none = .ok (r, pre) ∧
      ∀ t, r = some t → pre = dev.wire.paddings t ∧ Recognised chacha20 dev packet t := by
  rw [Device.determinePacketTypeAndPadding]
  split
  · exact ⟨none, 0, rfl, by simp⟩
  · have hmin : minMessageSize = 32 := rfl
    have h12 : 12 ≤ packet.length := by omega
    obtain ⟨m, hm, htransport⟩ := matchTransport_spec chacha20 dev h12
    choose b hb hrec using matchHandshake_spec chacha20 dev h12
    have hfound : dev.matchHandshakes chacha20 packet none [.initiation, .response, .cookieReply] = .ok _ :=
      matchHandshakes_find fun t _ => hb t
    generalize hfind : find? _ _ = found at hfound
    simp only [if_true, hm, hfound, bind, Except.bind, reduceCtorEq, or_false]
    -- what is returned when no handshake test decides
    have hfallback : ∃ r pre, (if m = .no then (none, 0) else
        (some MessageType.transport, dev.wire.paddings .transport)) = (r, pre) ∧
          ∀ t, r = some t → pre = dev.wire.paddings t ∧ Recognised chacha20 dev packet t := by
      split
      · exact ⟨none, 0, rfl, by simp⟩
      next hno =>
        refine ⟨_, _, rfl, fun t ht => ?_⟩
        cases ht
        exact ⟨rfl, htransport hno⟩
    obtain ⟨r, pre, heq, hfall⟩ := hfallback
    rw [heq]
    split
    · exact ⟨r, pre, rfl, hfall⟩
    · cases found with
      | some t =>
        refine ⟨some t, _, rfl, fun u hu => ?_⟩
        cases hu
        exact ⟨rfl, hrec t (find?_some hfind)⟩
      | none => exact ⟨r, pre, rfl, hfall⟩

/-! ### The core -/

namespace Recognised

variable {t : MessageType}

/-- The sizes of a recognised packet: the masked bytes are inside the core, and the core is inside the packet. -/
lemma sizes (h : Recognised chacha20 dev packet t) :
    4 ≤ t.protectedSize ∧ t.protectedSize ≤ t.coreSize (packet.length - dev.wire.paddings t) ∧
      t.size ≤ t.coreSize (packet.length - dev.wire.paddings t) ∧
      dev.wire.paddings t + t.coreSize (packet.length - dev.wire.paddings t) ≤ packet.length := by
  have hroom := h.room
  cases t <;>
    simp only [MessageType.protectedSize, MessageType.coreSize, MessageType.size, messageTransportHeaderSize,
      reduceCtorEq] at hroom ⊢ <;> omega

/-- A recognised packet is cut into prefix, masked bytes, the rest of the core and what follows it. -/
lemma exists_framed (h : Recognised chacha20 dev packet t)
    (hnonce : (maskKey dev.wire.key).isSome → headerCipherNonceSize ≤ dev.wire.paddings t) :
    ∃ front header rest tail, Framed chacha20 dev.wire t front header (rest ++ tail) packet ∧
      (header.length : ℤ) = t.protectedSize ∧
      (header.length : ℤ) + rest.length = t.coreSize (packet.length - dev.wire.paddings t) := by
  obtain ⟨h4, hprot, -, hcore⟩ := h.sizes
  have h0 := h.nonneg
  set pre := (dev.wire.paddings t).toNat with hpre
  set size := t.protectedSize.toNat with hsize
  set core := (t.coreSize (packet.length - dev.wire.paddings t)).toNat with hcoreN
  have hfront : (packet.take pre).length = pre := by rw [length_take]; omega
  refine ⟨packet.take pre,
    xorKeyStream (dev.wire.maskStream chacha20 ((packet.take pre).take 12)) ((packet.drop pre).take size),
    ((packet.drop pre).drop size).take (core - size), ((packet.drop pre).drop size).drop (core - size),
    ⟨?_, ?_, fun hk => ?_⟩, ?_, ?_⟩
  · rw [xorKeyStream_xorKeyStream, take_append_drop, append_assoc, take_append_drop, take_append_drop]
  · rw [hfront]; omega
  · have := hnonce hk
    unfold headerCipherNonceSize at this
    omega
  · rw [length_xorKeyStream, length_take, length_drop]; omega
  · simp only [length_xorKeyStream, length_take, length_drop]
    omega

end Recognised

/-- What a prepared packet is: the core has the size of its type, and its first word is a header of the type. -/
structure Prepared (dev : Device κ) (t : MessageType) (core : GoString) : Prop where
  handshake_length : t ≠ .transport → (core.length : ℤ) = t.size
  transport_length : t = .transport → messageTransportSize ≤ core.length
  header : ∃ v, leUint32 core = .ok v ∧ dev.wire.validates t v

/-- **Every received packet is prepared safely.**  Whatever the packet and the framing state, no access is out of range;
and when a type is returned, the core is as large as a message of that type and starts with one of its headers. -/
theorem prepareReceivedPacket_safe (chacha20 : HeaderCipherKey → GoString → ℕ → Byte) (dev : Device κ)
    (packet : GoString) : ∃ core r pre, dev.prepareReceivedPacket chacha20 packet = .ok (core, r, pre) ∧
      ∀ t, r = some t → Prepared dev t core := by
  obtain ⟨r, pre, hdet, hrecognised⟩ := determine_spec chacha20 dev packet
  cases r with
  | none =>
    refine ⟨[], none, 0, ?_, by simp⟩
    rw [Device.prepareReceivedPacket, hdet]
    rfl
  | some t =>
    obtain ⟨rfl, hrec⟩ := hrecognised t rfl
    obtain ⟨h4, hprot, hsize, hcore⟩ := hrec.sizes
    by_cases hnonce : (maskKey dev.wire.key).isSome → headerCipherNonceSize ≤ dev.wire.paddings t
    · obtain ⟨front, header, rest, tail, hframed, hheader, hrest⟩ := hrec.exists_framed hnonce
      refine ⟨header ++ rest, some t, _, prepare_of_determine hframed hdet hheader hrest, fun u hu => ?_⟩
      cases hu
      have hlen : ((header ++ rest).length : ℤ) = t.coreSize (packet.length - dev.wire.paddings t) := by
        rw [length_append, ← hrest]
        rfl
      refine ⟨fun hne => ?_, fun heq => ?_, ?_⟩
      · rw [hlen, MessageType.coreSize, if_neg hne]
      · rw [hlen]
        subst heq
        exact hsize
      · -- the word the classifier read is the first word of the unmasked core
        obtain ⟨v, hv⟩ := leUint32_of_length (b := header) (by omega)
        obtain ⟨v', hv', hval⟩ := hrec.header
        have h12 : 12 ≤ packet.length := by
          have := hrec.nonneg
          have : 12 ≤ t.size := by cases t <;> decide
          omega
        have hword := hframed.wordAt rfl h12 (Nat.zero_le 4) (show leUint32 (drop 0 _) = .ok v by simpa using hv)
        rw [hv', Except.ok.injEq] at hword
        subst hword
        exact ⟨v', leUint32_append hv rest, hval⟩
    · -- a key with a prefix that has no room for the nonce: the packet is dropped
      push Not at hnonce
      obtain ⟨hk, hshort⟩ := hnonce
      obtain ⟨k, hk⟩ := Option.isSome_iff_exists.1 hk
      refine ⟨[], none, 0, ?_, by simp⟩
      have hslice : ∃ core, slice packet (dev.wire.paddings t)
          (dev.wire.paddings t + t.coreSize (packet.length - dev.wire.paddings t)) = .ok core := by
        have := hrec.nonneg
        rw [slice, if_pos (by omega)]
        exact ⟨_, rfl⟩
      obtain ⟨core, hslice⟩ := hslice
      rw [Device.prepareReceivedPacket, hdet]
      simp only [bind, Except.bind, hslice, hk, if_pos hshort]
      rfl

end SingBox.Awg
