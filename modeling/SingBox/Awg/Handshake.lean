import SingBox.Awg.Packet

/-!
# Recognising handshake messages

Two results about a sender and a receiver with the same accepted framing state.  The header ranges are
disjoint, but each type is tested at its own prefix length, and for a longer prefix the bytes there are
random.
-/

namespace SingBox.Awg

open SingBox.Lib List

section

variable {κ : Type} {chacha20 : HeaderCipherKey → GoString → ℕ → Byte}

/-- The handshake types in the order in which a receiver tests them. -/
abbrev handshakeTypes : List MessageType := [.initiation, .response, .cookieReply]

lemma size_ge (t : MessageType) : 32 ≤ t.size := by cases t <;> decide

variable {t u : MessageType}

lemma validates_iff {w : Wire} (hv : w.Valid) {val : BitVec 32}
    (ht : w.validates t val = true) : w.validates u val = true ↔ u = t := by
  refine ⟨fun hu => ?_, fun h => h ▸ ht⟩
  by_contra hne
  simp only [Wire.validates, Option.any_eq_true] at ht hu
  obtain ⟨h, hh, hval⟩ := ht
  obtain ⟨k, hk, kval⟩ := hu
  have := MagicHeader.validate_of_not_overlaps (hv.disjoint t u h k (Ne.symm hne) hh hk) hval
  rw [this] at kval
  cases kval

/-! ### Equal prefixes -/

lemma determine_of_word {dev : Device κ} {packet : GoString} {t : MessageType} {val : BitVec 32}
    (hv : dev.wire.Valid) (ht : t ≠ .transport) (h1 : minMessageSize ≤ packet.length)
    (h2 : (packet.length : ℤ) ≤ awgMaxPacketSize)
    (hword : ∀ u, dev.wire.wordAt chacha20 packet (dev.wire.paddings u) 0 = .ok val)
    (hin : dev.wire.validates t val = true) (hlen : (packet.length : ℤ) = dev.wire.paddings t + t.size ∨
      (dev.randomTrailers = true ∧ (packet.length : ℤ) > dev.wire.paddings t + t.size)) :
    dev.determinePacketTypeAndPadding chacha20 packet none = .ok (some t, dev.wire.paddings t) := by
  have hvals : ∀ u, dev.wire.validates u val = decide (u = t) := by
    intro u
    rw [Bool.eq_iff_iff, decide_eq_true_iff]
    exact validates_iff hv hin
  refine determine_of_find (b := fun u => decide (u = t)) h1 h2 (m := .no) ?_ (by decide) ?_ ?_
  · exact matchTransport_no hv (hword _) (by rw [hvals, decide_eq_false (Ne.symm ht)])
  · intro u _
    rw [matchHandshake_eq hv (hword u), hvals]
    by_cases hu : u = t
    · subst hu
      rw [decide_eq_true hlen]
      rfl
    · simp [hu]
  · cases t <;> first | rfl | exact absurd rfl ht

/-- **Handshake messages survive framing.**  With equal prefixes and an accepted framing state, a
handshake message is framed within the window, or with no trailer at all, and the receiver gets back
the message, its type and the prefix length. -/
theorem handshake_roundtrip {d d' : IpcSetDevice} {w w' : Wire} {snd rcv : Device κ}
    (hm : d.mergeWithDevice w = .ok (d', w')) (heq : ∀ t u, w'.paddings t = w'.paddings u)
    (hs : snd.wire = w') (hr : rcv.wire = w') (htr : rcv.randomTrailers = snd.randomTrailers)
    {t : MessageType} (ht : t ≠ .transport) {core : GoString} (hc : (core.length : ℤ) = t.size)
    {val : BitVec 32} (hval : leUint32 core = .ok val) (hin : w'.validates t val = true)
    (window : ℤ) (gen draw : ℕ) (r1 r2 : ℕ → Byte) :
    ∃ wire, snd.frame chacha20 t core window gen draw r1 r2 = .ok wire ∧
      (wire.length : ℤ) ≤ max (w'.paddings t + t.size) (min window awgMaxPacketSize) ∧
      rcv.prepareReceivedPacket chacha20 wire = .ok (core, some t, w'.paddings t) := by
  obtain ⟨hv, -, -⟩ := IpcSetDevice.mergeWithDevice_ok hm
  have h0 := hv.nonneg t
  have hfits := hv.fits t
  have h32 := size_ge t
  obtain ⟨wire, hwire, hf⟩ : ∃ wire, snd.frame chacha20 t core window gen draw r1 r2 = .ok wire ∧ _ :=
    frame_framed (hs ▸ hv) ht hc window gen draw r1 r2
  rw [hs] at hf
  have hlen := hf.length
  rw [length_fillRandom] at hlen
  have hn : w'.paddings t + t.size + snd.trailerLen (w'.paddings t + t.size) window draw ≤
      max (w'.paddings t + t.size) (min window awgMaxPacketSize) := trailerLen_le
  refine ⟨wire, hwire, by omega, ?_⟩
  subst hr
  have hdet : rcv.determinePacketTypeAndPadding chacha20 wire none = .ok (some t, rcv.wire.paddings t) := by
    refine determine_of_word hv ht (by unfold minMessageSize; omega) (by omega) (fun u => ?_) hin ?_
    · exact hf.wordAt (heq u t) (by omega) (by omega) hval
    · rw [htr]
      by_cases hz : snd.randomTrailers = true
      · by_cases hn0 : snd.trailerLen (rcv.wire.paddings t + t.size) window draw = 0
        · left; omega
        · right; exact ⟨hz, by omega⟩
      · rw [trailerLen_off (by simpa using hz)] at hlen
        left; omega
  have hprep : rcv.prepareReceivedPacket chacha20 wire = .ok (core ++ [], some t, rcv.wire.paddings t) :=
    prepare_of_determine hf hdet (by rw [hc, MessageType.protectedSize, if_neg ht])
      (by rw [MessageType.coreSize, if_neg ht, hc]; simp)
  rwa [append_nil] at hprep

/-- A key stream that counts, for examples. -/
def countingStream : HeaderCipherKey → GoString → ℕ → Byte := fun _ _ i => BitVec.ofNat 8 i

/-- A framing with prefixes of twelve bytes and a header protection key. -/
def maskedFraming : IpcSetDevice where
  paddings _ := 12
  headerProtectionKey := some ⟨List.replicate 32 1, rfl⟩

def maskedDevice : Device Unit where
  wire := ⟨fun _ => 12, newWire.headers, maskedFraming.headerProtectionKey⟩
  randomTrailers := true

/-- A response behind twelve bytes of prefix, masked and with a trailer. -/
theorem handshake_roundtrip_masked : ∃ wire, maskedDevice.frame countingStream .response (2 :: replicate 91 0) 1000 0 7
        (fun _ => 5) (fun _ => 9) = .ok wire ∧
      (wire.length : ℤ) ≤ max (12 + 92) (min 1000 awgMaxPacketSize) ∧
      maskedDevice.prepareReceivedPacket countingStream wire = .ok (2 :: replicate 91 0, some .response, 12) :=
  handshake_roundtrip (d := maskedFraming) (w := newWire) rfl (fun _ _ => rfl) rfl rfl rfl
    (by decide) rfl rfl rfl 1000 0 7 _ _

/-! ### Prefixes of any length -/

/-- The lengths of the handshake types on the wire, `s1 + 148`, `s2 + 92` and `s3 + 64`, differ. -/
def Wire.LengthsDiffer (w : Wire) : Prop :=
  handshakeTypes.Pairwise fun t u => w.paddings t + t.size ≠ w.paddings u + u.size

/-- The receiver recognises every handshake message of the sender. -/
def Recognises (chacha20 : HeaderCipherKey → GoString → ℕ → Byte) (snd rcv : Device κ) : Prop :=
  ∀ (t : MessageType) (core : GoString) (val : BitVec 32) (window : ℤ) (gen draw : ℕ)
    (r1 r2 : ℕ → Byte), t ≠ .transport → (core.length : ℤ) = t.size → leUint32 core = .ok val →
    snd.wire.validates t val = true →
    ∃ wire, snd.frame chacha20 t core window gen draw r1 r2 = .ok wire ∧
      rcv.determinePacketTypeAndPadding chacha20 wire none = .ok (some t, rcv.wire.paddings t)

lemma Wire.LengthsDiffer.ne {w : Wire} (h : w.LengthsDiffer)
    (ht : t ∈ handshakeTypes) (hu : u ∈ handshakeTypes) (htu : t ≠ u) :
    w.paddings t + t.size ≠ w.paddings u + u.size := by
  have : Std.Symm fun t u => w.paddings t + t.size ≠ w.paddings u + u.size :=
    ⟨fun _ _ hne => hne.symm⟩
  exact h.forall ht hu htu

lemma recognises_of_lengthsDiffer {snd rcv : Device κ} (hv : rcv.wire.Valid)
    (hs : snd.wire = rcv.wire) (hst : snd.randomTrailers = false) (hrt : rcv.randomTrailers = false)
    (hk : ∀ i, rcv.keypairs i = none) (hd : rcv.wire.LengthsDiffer) : Recognises chacha20 snd rcv := by
  intro t core val window gen draw r1 r2 ht hc hval hin
  obtain ⟨wire, hwire, hf⟩ : ∃ wire, snd.frame chacha20 t core window gen draw r1 r2 = .ok wire ∧ _ :=
    frame_framed (hs ▸ hv) ht hc window gen draw r1 r2
  refine ⟨wire, hwire, ?_⟩
  rw [hs] at hf hin
  have hlen := hf.length
  rw [hc, length_fillRandom, trailerLen_off hst, Nat.cast_zero, add_zero] at hlen
  have h0 := hv.nonneg t
  have hfits := hv.fits t
  have h32 := size_ge t
  have hmem : t ∈ handshakeTypes := by cases t <;> first | decide | exact absurd rfl ht
  obtain ⟨m, hm, hmk⟩ : ∃ m, rcv.matchTransport chacha20 wire none = .ok m ∧ m ≠ .keypair :=
    matchTransport_total hv (by omega) hk
  refine determine_of_find (b := fun u => decide (u = t)) (by unfold minMessageSize; omega) (by omega)
    hm hmk ?_ (by cases t <;> first | rfl | exact absurd rfl ht)
  intro u hu
  by_cases hut : u = t
  · subst hut
    rw [matchHandshake_eq hv (hf.wordAt rfl (by omega) (by omega) hval), hin, decide_eq_true (.inl hlen)]
    simp
  · rw [matchHandshake_of_length hv hrt (hlen ▸ hd.ne hmem hu (Ne.symm hut)), decide_eq_false hut]

/-- A type that is tested before `t` and succeeds hides `t`. -/
lemma find_ne {b : MessageType → Bool} (h : [u, t].Sublist handshakeTypes)
    (hu : b u = true) : ∃ x, handshakeTypes.find? b = some x ∧ x ≠ t := by
  by_cases hi : b .initiation = true
  · refine ⟨.initiation, by simp [hi], ?_⟩
    rintro rfl
    revert h
    cases u <;> decide
  · have hut : u = .response ∧ t = .cookieReply := by
      have hne : u ≠ .initiation := fun he => hi (he ▸ hu)
      revert h hne
      cases u <;> cases t <;> decide
    obtain ⟨rfl, rfl⟩ := hut
    exact ⟨.response, by simp [hi, hu], by decide⟩

lemma exists_fillRandom (s : GoString) : ∃ r, fillRandom r s.length = s := by
  refine ⟨fun i => s.getD i 0, ?_⟩
  apply ext_getElem
  · simp
  · intro i h1 h2
    simp [fillRandom, h2]

/-- A prefix of type `t` that holds, where type `u` has its first word, a word of `u`'s range. -/
lemma not_recognises {snd rcv : Device κ} (hv : rcv.wire.Valid) (hs : snd.wire = rcv.wire)
    (hst : snd.randomTrailers = false) (hk : ∀ i, rcv.keypairs i = none)
    (hsub : [u, t].Sublist handshakeTypes) (hlen : rcv.wire.paddings u + u.size = rcv.wire.paddings t + t.size) :
    ¬ Recognises chacha20 snd rcv := by
  intro hrec
  have hgap : t.size + 4 ≤ u.size := by
    revert hsub
    cases u <;> cases t <;> decide
  have h0 := hv.nonneg u
  have hfits := hv.fits t
  have h32 := size_ge t
  obtain ⟨hu, hhu, -⟩ := hv.header u
  obtain ⟨ht, hht, -⟩ := hv.header t
  -- the prefix: zero bytes, the masked word of `u`, zero bytes
  let front : GoString := replicate (rcv.wire.paddings u).toNat 0
  let word := xorKeyStream (rcv.wire.maskStream chacha20 (front.take 12)) (putUint32 hu.start)
  let pad : GoString := replicate (u.size - t.size - 4).toNat 0
  have hplen : (front ++ word ++ pad).length = (rcv.wire.paddings t).toNat := by
    simp [front, word, pad]
    omega
  obtain ⟨r1, hr1⟩ := exists_fillRandom (front ++ word ++ pad)
  rw [hplen] at hr1
  let core : GoString := putUint32 ht.start ++ replicate (t.size - 4).toNat 0
  have hc : (core.length : ℤ) = t.size := by
    simp [core]
    omega
  have hne : t ≠ .transport := by
    revert hsub
    cases u <;> cases t <;> decide
  obtain ⟨wire, hwire, hdet⟩ := hrec t core ht.start 0 0 0 r1 (fun _ => 0) hne hc (leUint32_put _ _)
    (by rw [hs, Wire.validates, hht]; simp)
  obtain ⟨wire', hwire', hf⟩ : ∃ wire, snd.frame chacha20 t core 0 0 0 r1 (fun _ => 0) = .ok wire ∧ _ :=
    frame_framed (hs ▸ hv) hne hc 0 0 0 r1 (fun _ => 0)
  rw [hwire] at hwire'
  cases hwire'
  have hl := hf.length
  rw [hs, length_fillRandom, trailerLen_off hst, Nat.cast_zero] at hl
  -- read at the prefix length of `u`, the packet is a message of type `u`
  have hfu : Framed chacha20 rcv.wire u front (putUint32 hu.start)
      (pad ++ (xorKeyStream (rcv.wire.maskStream chacha20 ((front ++ word ++ pad).take 12)) core)) wire := by
    refine .of_valid hv (by simp [front, h0]) ?_
    rw [hf.eq, hs, hr1, trailerLen_off hst]
    simp only [fillRandom, range_zero, map_nil, append_nil, word, append_assoc]
  have hmatch : rcv.matchHandshake chacha20 wire u = .ok true := by
    rw [matchHandshake_eq hv (hfu.wordAt rfl (by omega) (by omega) (leUint32_put _ [])),
      decide_eq_true (.inl (by omega)), Wire.validates, hhu]
    simp
  obtain ⟨m, hm, hmk⟩ : ∃ m, rcv.matchTransport chacha20 wire none = .ok m ∧ m ≠ .keypair :=
    matchTransport_total hv (by omega) hk
  have htotal : ∀ x, ∃ b, rcv.matchHandshake chacha20 wire x = .ok b :=
    fun x => matchHandshake_total x hv (by omega)
  choose b hb using htotal
  have hbu : b u = true := by
    have := hb u
    rw [hmatch] at this
    exact (Except.ok.inj this).symm
  obtain ⟨x, hx, hxt⟩ := find_ne hsub hbu
  have hother := determine_of_find (by unfold minMessageSize; omega) (by omega) hm hmk (fun x _ => hb x) hx
  rw [hdet] at hother
  cases hother
  exact hxt rfl

/-- **When handshake messages are recognised.**  Without trailers and key pairs in the index table, a receiver with the
same accepted framing state recognises every handshake message exactly when the handshake types have different lengths
on the wire. -/
theorem handshake_recognised_iff {d d' : IpcSetDevice} {w w' : Wire} {snd rcv : Device κ}
    (hm : d.mergeWithDevice w = .ok (d', w')) (hs : snd.wire = w') (hr : rcv.wire = w')
    (hst : snd.randomTrailers = false) (hrt : rcv.randomTrailers = false)
    (hk : ∀ i, rcv.keypairs i = none) : Recognises chacha20 snd rcv ↔ w'.LengthsDiffer := by
  obtain ⟨hv, -, -⟩ := IpcSetDevice.mergeWithDevice_ok hm
  subst hr
  refine ⟨fun hrec => ?_, recognises_of_lengthsDiffer hv hs hst hrt hk⟩
  rw [Wire.LengthsDiffer, pairwise_iff_forall_sublist]
  intro u t hsub hlen
  exact not_recognises hv hs hst hk hsub hlen hrec

theorem handshake_recognised_default :
    (Recognises countingStream (newDevice Unit 0) (newDevice Unit 0) ↔ newWire.LengthsDiffer) ∧ newWire.LengthsDiffer :=
  ⟨handshake_recognised_iff (d := ⟨fun _ => 0, none, fun _ => none⟩) (w := newWire) rfl rfl rfl rfl rfl
    fun _ => rfl, by unfold Wire.LengthsDiffer; decide⟩

/-- `s2 = 56`, all else as `NewDevice` sets it. -/
def collidingWire : Wire := { newWire with paddings := fun t => if t = .response then 56 else 0 }

def collidingDevice : Device Unit := { wire := collidingWire }

/-- With `s1 = 0` and `s2 = 56` an initiation and a response are both 148 bytes long.  A response whose
random prefix starts with the bytes 1, 0, 0, 0 is taken for an initiation. -/
theorem response_taken_for_initiation :
    IpcSetDevice.mergeWithDevice ⟨collidingWire.paddings, none, fun _ => none⟩ newWire =
        .ok (⟨collidingWire.paddings, none, newWire.headers⟩, collidingWire) ∧
      ∃ wire, collidingDevice.frame countingStream .response (2 :: replicate 91 0) 0 0 0
          (fun i => if i = 0 then 1 else 0) (fun _ => 0) = .ok wire ∧
        collidingDevice.determinePacketTypeAndPadding countingStream wire none = .ok (some .initiation, 0) ∧
        ¬ Recognises countingStream collidingDevice collidingDevice := by
  refine ⟨rfl, _, rfl, by decide +kernel, fun h => ?_⟩
  obtain ⟨wire, hwire, hdet⟩ := h .response (2 :: replicate 91 0) 2 0 0 0
    (fun i => if i = 0 then 1 else 0) (fun _ => 0) (by decide) rfl rfl rfl
  cases hwire
  revert hdet
  decide +kernel

end

end SingBox.Awg
