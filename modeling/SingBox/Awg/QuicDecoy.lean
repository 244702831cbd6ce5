import SingBox.Awg.ClientHello
import SingBox.Lib.Uniform

/-!
# The QUIC decoy

`buildInitialPacket` (`transport/wireguard/quic_initial_awg.go`): a ClientHello, its payload in frames, the header of an
Initial packet, and the encryption of both.  The random bytes of the connection id, of the ClientHello and of the key
share are arguments; the draws of the planner are what is left to chance.

With a domain that `validateMasqueDomain` accepts there is room for the frames whatever is drawn, so that nothing but
the loop over the cut points can keep the packet from being built; and that loop ends at the fifth cut point.
-/

namespace SingBox.Awg

open SingBox.Lib List

/-! ### The packet -/

def quicInitialTotalLen : ℤ := 1250
def quicAEADTagLen : ℕ := 16
def quicDCIDLen : ℕ := 8
def quicVersion1 : ℕ := 0x1

def quicSaltV1 : GoString :=
  [0x38, 0x76, 0x2c, 0xf7, 0xf5, 0x59, 0x34, 0xb3, 0x4d, 0x17,
   0x9a, 0xe6, 0xa4, 0xc8, 0x0c, 0xad, 0xcc, 0xbb, 0x7f, 0x0a]

structure QuicGenParams where
  fragments : ℤ
  pings : ℤ
  totalLenMin : ℤ
  totalLenMax : ℤ

def defaultQUICGenParams : QuicGenParams where
  fragments := 6
  pings := 2
  totalLenMin := quicInitialTotalLen
  totalLenMax := quicInitialTotalLen

/-- The key derivation and the ciphers: any functions, as far as the lengths are right. -/
structure InitialCrypto where
  /-- `hkdf.Extract` with SHA-256. -/
  extract : (secret salt : GoString) → GoString
  /-- `hkdf.Expand` with SHA-256. -/
  expand : (secret info : GoString) → (length : ℕ) → GoString
  length_expand : ∀ secret info length, (expand secret info length).length = length
  /-- `Seal` of AES in Galois counter mode. -/
  gcmSeal : (key nonce plaintext additional : GoString) → GoString
  length_gcmSeal : ∀ key nonce plaintext additional,
    (gcmSeal key nonce plaintext additional).length = plaintext.length + quicAEADTagLen
  /-- A block of AES. -/
  encrypt : (key block : GoString) → GoString
  length_encrypt : ∀ key block, (encrypt key block).length = block.length

/-- The lengths of keys that `aes.NewCipher` takes. -/
def aesKey (key : GoString) : Prop := key.length = 16 ∨ key.length = 24 ∨ key.length = 32

instance : DecidablePred aesKey := fun _ => inferInstanceAs (Decidable (_ ∨ _))

/-- With no context; the labels that the source has as constants are what it computes for the others. -/
def InitialCrypto.quicHKDFExpandLabel (c : InitialCrypto) (secret : GoString) (label : String) (length : ℕ) :
    GoString :=
  c.expand secret (hkdfLabel (ascii label) length) length

/-- `Seal` of `quicXorNonceAEAD`, which leaves its mask as it was. -/
def InitialCrypto.xorNonceSeal (c : InitialCrypto) (key iv nonce plaintext additional : GoString) : GoString :=
  c.gcmSeal key (xorNonce iv nonce) plaintext additional

def InitialCrypto.deriveInitialKeys (c : InitialCrypto) (dcid : GoString) : GoString × GoString × GoString :=
  let initialSecret := c.extract dcid quicSaltV1
  let clientSecret := c.quicHKDFExpandLabel initialSecret "client in" 32
  (c.quicHKDFExpandLabel clientSecret "quic key" 16, c.quicHKDFExpandLabel clientSecret "quic iv" 12,
    c.quicHKDFExpandLabel clientSecret "quic hp" 16)

def InitialCrypto.encryptInitial (c : InitialCrypto) (header payload key iv hp : GoString) (pnOffset pn : ℕ) :
    Exec String GoString :=
  if iv.length ≠ 12 ∨ ¬aesKey key then .error .panic
  else
    let nonce := toBytes 8 pn
    let packet := header ++ c.xorNonceSeal key iv nonce payload header
    let sampleOffset := pnOffset + 4
    if packet.length < sampleOffset + 16 then
      .error (.error "amneziawg: QUIC Initial too short to sample for header protection")
    else if ¬aesKey hp then .error (.error "crypto/aes: invalid key size")
    else do
      let sample ← sliceOf packet sampleOffset (sampleOffset + 16)
      let mask := c.encrypt hp sample
      let m0 ← index mask 0
      let b0 ← index packet 0
      let packet := packet.set 0 (b0 ^^^ (m0 &&& 0x0f))
      let m1 ← index mask 1
      let b1 ← index packet pnOffset
      return packet.set pnOffset (b1 ^^^ m1)

def pickTotalLen (p : QuicGenParams) : Planner ℤ :=
  let lo := if p.totalLenMin < 1200 then 1200 else p.totalLenMin
  let hi := if p.totalLenMax < lo then lo else p.totalLenMax
  if hi = lo then pure lo
  else do
    let d ← randInt (hi - lo + 1).toNat
    return lo + d

/-- The header of the packet up to the packet number, and the packet number of one byte. -/
def initialHeader (dcid : GoString) (lengthField : ℕ) : GoString :=
  appendQUICVarint ([0xC0] ++ toBytes 4 quicVersion1 ++ [BitVec.ofNat 8 quicDCIDLen] ++ dcid ++ [0x00] ++ [0x00])
    lengthField ++ [0x00]

/-- `buildInitialPacket` from the fragments of the ClientHello on. -/
def packetOf (c : InitialCrypto) (dcid : Bytes 8) (p : QuicGenParams) (frags : List CryptoFragment) :
    Planner GoString := do
  let plan ← randomizedWirePlan frags p.pings
  let totalLen ← pickTotalLen p
  let headerLen : ℤ := 8 + quicDCIDLen + 2 + 1
  let payloadLen := totalLen - headerLen - quicAEADTagLen
  let lengthField := 1 + payloadLen + quicAEADTagLen
  if lengthField < 2 ^ 6 ∨ 2 ^ 14 ≤ lengthField then
    plannerError "amneziawg: QUIC Initial length field outside 2-byte varint range"
  else
    let payload ← buildInitialPayload frags plan payloadLen
    let header := initialHeader dcid lengthField.toNat
    let pnOffset := header.length - 1
    let (key, iv, hp) := c.deriveInitialKeys dcid
    let packet ← c.encryptInitial header payload key iv hp pnOffset 0
    if packet.length ≠ totalLen then plannerError "amneziawg: QUIC Initial assembled to unexpected size"
    else return packet

/-- `buildBrowserClientHello` is that of another library. -/
def buildClientHello (browserHello : GoString → String → Exec String GoString) (sni : GoString) (tlsRandom : Bytes 32)
    (x25519Pub : GoString) (browser : String) : Exec String GoString :=
  if browser = "chrome" ∨ browser = "firefox" then browserHello sni browser
  else buildGenericClientHello sni tlsRandom x25519Pub

/-- What the packet is made of besides the draws of the planner. -/
structure PacketInput where
  crypto : InitialCrypto
  browserHello : GoString → String → Exec String GoString
  order : MapOrder
  dcid : Bytes 8
  tlsRandom : Bytes 32
  x25519Pub : Bytes 32

def buildInitialPacket (x : PacketInput) (sni : GoString) (browser : String) (p : QuicGenParams) :
    Planner GoString := do
  let clientHello ← buildClientHello x.browserHello sni x.tlsRandom x.x25519Pub browser
  let frags ← planFragmentsN x.order clientHello p.fragments
  packetOf x.crypto x.dcid p frags

/-! ### The frames fit -/

/-- The length of an entry that is not flexible. -/
def entryLen (frags : List CryptoFragment) (e : PlanEntry) : ℕ :=
  match e.kind with
  | .frameCrypto => (frags[e.cryptoIdx]?.map fun f => (cryptoFrame f).length).getD 0
  | .framePing => 1
  | .framePadding => if e.padFlex then 0 else e.padLen

def PlanEntry.isFlex (e : PlanEntry) : Bool := e.kind = .framePadding && e.padFlex

lemma length_cryptoFrame (f : CryptoFragment) :
    (cryptoFrame f).length = 1 + varintLen f.offset + varintLen f.data.length + f.data.length := by
  simp only [cryptoFrame, length_cons, length_append, length_quicVarint]
  omega

variable {frags : List CryptoFragment} {plan : List PlanEntry}

lemma fixedLoop_eq (h : InRange frags plan) (total : ℕ) (flex : Bool) : fixedLoop frags plan total flex =
      .ok (total + (plan.map (entryLen frags)).sum, flex || plan.any (·.isFlex)) := by
  induction plan generalizing total flex with
  | nil => simp [fixedLoop]
  | cons e plan ih =>
    obtain ⟨he, hplan⟩ := forall_mem_cons.1 h
    rw [fixedLoop, map_cons, any_cons, entryLen, PlanEntry.isFlex]
    cases hkind : e.kind with
    | frameCrypto =>
      rw [List.getElem?_eq_getElem (he hkind)]
      dsimp only
      rw [ih hplan, ← length_cryptoFrame]
      simp [Nat.add_assoc]
    | framePing =>
      rw [ih hplan]
      simp [Nat.add_assoc]
    | framePadding =>
      dsimp only
      cases hflex : e.padFlex
      · rw [if_neg (by simp), ih hplan]
        simp [Nat.add_assoc]
      · rw [ih hplan]
        simp

lemma length_entryBytes (frags : List CryptoFragment) (flexLen : ℕ) (e : PlanEntry) :
    (entryBytes frags flexLen e).length = entryLen frags e + if e.isFlex then flexLen else 0 := by
  unfold entryBytes entryLen PlanEntry.isFlex
  cases e.kind with
  | frameCrypto => cases frags[e.cryptoIdx]? <;> simp
  | framePing => simp
  | framePadding => cases e.padFlex <;> simp

lemma length_flatMap_entryBytes (frags : List CryptoFragment) (flexLen : ℕ) (plan : List PlanEntry) :
    (plan.flatMap (entryBytes frags flexLen)).length =
      (plan.map (entryLen frags)).sum + plan.countP (·.isFlex) * flexLen := by
  induction plan with
  | nil => simp
  | cons e plan ih =>
    rw [flatMap_cons, length_append, length_entryBytes, ih, map_cons, sum_cons, countP_cons]
    split <;> ring

lemma sum_entryLen (frags : List CryptoFragment) (plan : List PlanEntry) :
    (plan.map (entryLen frags)).sum = ((wireOrder frags plan).map fun f => (cryptoFrame f).length).sum +
      ((plan.filter (·.kind ≠ .frameCrypto)).map (entryLen frags)).sum := by
  induction plan with
  | nil => rfl
  | cons e plan ih =>
    unfold wireOrder at ih ⊢
    rw [map_cons, sum_cons, ih]
    cases hkind : e.kind with
    | frameCrypto =>
      cases hf : frags[e.cryptoIdx]? <;> simp [PlanEntry.fragment?, PlanEntry.crypto?, hkind, hf, entryLen]
      ring
    | framePing | framePadding => simp [PlanEntry.fragment?, PlanEntry.crypto?, hkind]; ring

lemma varintLen_le {v : ℕ} (h : v < 2 ^ 14) : varintLen v ≤ 2 := by
  unfold varintLen
  split <;> omega

variable {ch : GoString}

lemma Fragments.sum_cryptoFrame_le {n : ℕ} (h : Fragments ch n frags)
    (hch : ch.length < 2 ^ 14) : (frags.map fun f => (cryptoFrame f).length).sum ≤ 5 * n + ch.length := by
  have hle : ∀ f ∈ frags, (cryptoFrame f).length ≤ 5 + f.data.length := fun f hf => by
    have := h.contiguous.bounds f hf
    rw [h.flatMap_data] at this
    have hoff := varintLen_le (show f.offset < 2 ^ 14 by omega)
    have hlen := varintLen_le (show f.data.length < 2 ^ 14 by omega)
    rw [length_cryptoFrame]
    omega
  have hdata : (frags.map fun f => f.data.length).sum = ch.length := by
    rw [← h.flatMap_data, length_flatMap]
  calc (frags.map fun f => (cryptoFrame f).length).sum ≤ (frags.map fun f => 5 + f.data.length).sum :=
        sum_le_sum hle
    _ = 5 * n + ch.length := by
        rw [sum_map_add, hdata, map_const', sum_replicate, h.length, smul_eq_mul, Nat.mul_comm]

lemma Pads.sum_entryLen_le {k flex : ℕ} {pads : List PlanEntry} (h : Pads k flex pads) (frags : List CryptoFragment) :
    (pads.map (entryLen frags)).sum ≤ 56 * k := by
  have hle : ∀ e ∈ pads, entryLen frags e ≤ 56 := fun e he => by
    have := h.padLen e he
    rw [entryLen, h.kind e he]
    dsimp only
    split <;> omega
  calc (pads.map (entryLen frags)).sum ≤ (pads.map fun _ => 56).sum := sum_le_sum hle
    _ = 56 * k := by rw [map_const', sum_replicate, h.length, smul_eq_mul, Nat.mul_comm]

lemma WirePlan.sum_entryLen_le {pings : ℕ}
    (h : WirePlan frags.length pings plan) (hF : Fragments ch frags.length frags) (hch : ch.length < 2 ^ 14) :
    (plan.map (entryLen frags)).sum ≤ 5 * frags.length + ch.length + (pings + 56 * (pings + 2)) := by
  obtain ⟨pads, hpads, hperm⟩ := h.fillers
  have hfrags := hF.sum_cryptoFrame_le hch
  have hle := hpads.sum_entryLen_le frags
  have hping : entryLen frags { kind := .framePing } = 1 := rfl
  rw [sum_entryLen, (h.wireOrder_perm.map _).sum_eq, (hperm.map _).sum_eq, map_append, sum_append,
    map_replicate, sum_replicate, hping, smul_eq_mul]
  omega

lemma WirePlan.countP_isFlex {n pings : ℕ} (h : WirePlan n pings plan) : plan.countP (·.isFlex) = 1 := by
  obtain ⟨pads, hpads, hperm⟩ := h.fillers
  have hfilter : (plan.filter (·.kind ≠ .frameCrypto)).countP (·.isFlex) = plan.countP (·.isFlex) := by
    rw [countP_filter]
    refine countP_congr fun e _ => ?_
    unfold PlanEntry.isFlex
    cases e.kind <;> simp
  have hflex : pads.countP (·.isFlex) = pads.countP (·.padFlex) :=
    countP_congr fun e he => by simp [PlanEntry.isFlex, hpads.kind e he]
  have hping : PlanEntry.isFlex { kind := .framePing } = false := rfl
  rw [← hfilter, hperm.countP_eq, countP_append, hflex, hpads.flex, countP_replicate]
  rfl

lemma buildInitialPayload_returns {pings : ℕ} {targetLen : ℤ}
    (h : WirePlan frags.length pings plan) (hfit : (plan.map (entryLen frags)).sum ≤ targetLen)
    (hmax : targetLen ≤ maxAlloc) :
    ∃ payload, buildInitialPayload frags plan targetLen = .ok payload ∧ payload.length = targetLen := by
  have hany : plan.any (·.isFlex) = true := by
    obtain ⟨e, he, hflex⟩ := countP_pos_iff.1 (h.countP_isFlex ▸ Nat.one_pos)
    exact any_eq_true.2 ⟨e, he, hflex⟩
  have hlen := length_flatMap_entryBytes frags (targetLen - (plan.map (entryLen frags)).sum).toNat plan
  rw [h.countP_isFlex] at hlen
  refine ⟨plan.flatMap (entryBytes frags (targetLen - (plan.map (entryLen frags)).sum).toNat), ?_, by omega⟩
  rw [buildInitialPayload, planFixedLen, fixedLoop_eq h.inRange, ok_bind, Nat.zero_add, hany]
  dsimp only
  rw [if_neg (by simp), if_neg (by omega), if_neg (by omega), emitLoop_eq h.inRange, ok_bind, nil_append,
    if_neg (by omega)]
  rfl

/-! ### The packet is built -/

lemma encryptInitial_returns (c : InitialCrypto) {header payload key iv hp : GoString} {pnOffset : ℕ}
    (hkeys : key.length = 16 ∧ iv.length = 12 ∧ hp.length = 16) (hpn : pnOffset < header.length)
    (hlen : 20 ≤ payload.length) (pn : ℕ) :
    ∃ packet, c.encryptInitial header payload key iv hp pnOffset pn = .ok packet ∧
      packet.length = header.length + (payload.length + 16) := by
  set packet := header ++ c.xorNonceSeal key iv (toBytes 8 pn) payload header with hpacket
  have hpacketLen : packet.length = header.length + (payload.length + 16) := by
    rw [length_append, InitialCrypto.xorNonceSeal, c.length_gcmSeal]
    rfl
  have hsample : (sliceOf packet (pnOffset + 4) (pnOffset + 4 + 16) : Exec String _) =
      .ok ((packet.take (pnOffset + 4 + 16)).drop (pnOffset + 4)) :=
    sliceOf_eq_ok.2 ⟨⟨by omega, by omega⟩, rfl⟩
  set mask := c.encrypt hp ((packet.take (pnOffset + 4 + 16)).drop (pnOffset + 4)) with hmask
  have hmaskLen : mask.length = 16 := by
    rw [c.length_encrypt, length_drop, length_take]
    omega
  have hindex : ∀ {l : GoString} {i : ℕ}, i < l.length → ∃ b, (index l i : Exec String Byte) = .ok b :=
    fun h => ⟨_, index_eq_ok.2 (List.getElem?_eq_getElem h)⟩
  obtain ⟨m0, hm0⟩ := hindex (show 0 < mask.length by omega)
  obtain ⟨m1, hm1⟩ := hindex (show 1 < mask.length by omega)
  obtain ⟨b0, hb0⟩ := hindex (show 0 < packet.length by omega)
  obtain ⟨b1, hb1⟩ := hindex (show pnOffset < (packet.set 0 (b0 ^^^ (m0 &&& 0x0f))).length by
    rw [length_set]
    omega)
  refine ⟨(packet.set 0 (b0 ^^^ (m0 &&& 0x0f))).set pnOffset (b1 ^^^ m1), ?_, ?_⟩
  · rw [InitialCrypto.encryptInitial, if_neg (by rw [aesKey]; omega)]
    dsimp only
    rw [← hpacket, if_neg (by omega), if_neg (by rw [aesKey]; omega), hsample, ok_bind, hm0, ok_bind, hb0, hm1,
      ok_bind, hb1]
    rfl
  · rw [length_set, length_set, hpacketLen]

/-- From the fragments on, the packet is built in a fixed number of draws. -/
lemma takes_packetOf (c : InitialCrypto) (dcid : Bytes 8) (hF : Fragments ch 6 frags) (hch : ch.length ≤ 471) :
    Takes (packetOf c dcid defaultQUICGenParams frags) (planDraws 6 2) fun packet => packet.length = 1250 := by
  have hlen := hF.length
  have hF' : Fragments ch frags.length frags := hlen ▸ hF
  have hplan := takes_randomizedWirePlan 2 (show 2 ≤ frags.length by omega)
  rw [show planDraws frags.length (pingCount 2) = planDraws 6 2 by rw [hlen]; rfl] at hplan
  refine hplan.bind (Nat.add_zero _) fun plan hW => ?_
  have hpick : pickTotalLen defaultQUICGenParams = pure 1250 := rfl
  rw [hpick, pure_bind]
  have hfit : ((plan.map (entryLen frags)).sum : ℤ) ≤ 1215 := by
    have := hW.sum_entryLen_le hF' (by omega)
    rw [show pingCount 2 = 2 from rfl] at this
    omega
  obtain ⟨payload, hok, hpayload⟩ := buildInitialPayload_returns hW hfit (by decide)
  have hvarint : varintLen 1232 = 2 := rfl
  have hheader : (initialHeader dcid 1232).length = 19 := by
    simp [initialHeader, appendQUICVarint, length_quicVarint, hvarint, dcid.2]
  have hkeys : ∀ k iv hp, c.deriveInitialKeys dcid = (k, iv, hp) → k.length = 16 ∧ iv.length = 12 ∧ hp.length = 16 := by
    intro k iv hp h
    cases h
    exact ⟨c.length_expand _ _ _, c.length_expand _ _ _, c.length_expand _ _ _⟩
  obtain ⟨packet, hpacket, hpacketLen⟩ := encryptInitial_returns c (hkeys _ _ _ rfl)
    (show (initialHeader dcid 1232).length - 1 < (initialHeader dcid 1232).length by omega)
    (show 20 ≤ payload.length by omega) 0
  have h1250 : packet.length = 1250 := by omega
  refine (takes_lift hok rfl).bind (Nat.zero_add 0) fun _ hb => ?_
  subst hb
  refine (takes_lift hpacket rfl).bind (Nat.zero_add 0) fun _ hb => ?_
  subst hb
  rw [if_neg (by omega)]
  exact takes_pure h1250

/-! ### The loop over the cut points ends -/

def cutPoints (interior : ℕ) (draws : List ℕ) : Finset ℕ := (draws.map fun v => v % interior + 1).toFinset

lemma randOf_ok {n : ℕ} (hn : 0 < n) (v : ℕ) : randOf n (.ok v) = .ok (v % n) := by
  unfold randOf
  split
  · rw [show n = 1 by omega, Nat.mod_one]
  · rfl

/-- With enough different cut points the loop ends, and leaves the other draws. -/
lemma cutLoop_returns {enough interior : ℕ} (hpos : 0 < interior) (others : Draws String) {draws cutSet : List ℕ}
    (h : enough ≤ (cutSet.toFinset ∪ cutPoints interior draws).card) :
    ∃ cuts rest, cutLoop enough interior cutSet (draws.map .ok ++ others) = .ok (cuts, rest) ∧ others <:+ rest := by
  induction draws generalizing cutSet with
  | nil =>
    have hlen : ¬cutSet.length < enough := by
      have := toFinset_card_le cutSet
      simp only [cutPoints, map_nil, toFinset_nil, Finset.union_empty] at h
      omega
    refine ⟨cutSet, others, ?_, suffix_refl _⟩
    cases others with
    | nil | cons d ds => rw [map_nil, nil_append, cutLoop, if_neg hlen]
  | cons v draws ih =>
    rw [map_cons, cons_append, cutLoop]
    split
    · rw [randOf_ok hpos]
      refine ih (h.trans (Finset.card_le_card fun c hc => ?_))
      simp only [cutPoints, map_cons, toFinset_cons, Finset.mem_union, Finset.mem_insert,
        mem_toFinset, mem_insert_iff] at hc ⊢
      tauto
    · exact ⟨cutSet, _, rfl, (suffix_append _ _).trans (suffix_cons _ _)⟩

lemma planFragmentsN_returns (order : MapOrder) {n : ℤ} (hn : 2 ≤ n) (hlen : n ≤ ch.length)
    {draws : List ℕ} (others : Draws String) (h : n.toNat - 1 ≤ (cutPoints (ch.length - 1) draws).card) :
    ∃ frags rest, planFragmentsN order ch n (draws.map .ok ++ others) = .ok (frags, rest) ∧ others <:+ rest ∧
      Fragments ch n.toNat frags := by
  have hcard : n.toNat - 1 ≤ (([] : List ℕ).toFinset ∪ cutPoints (ch.length - 1) draws).card := by
    exact h
  obtain ⟨cuts, rest, hcuts, hrest⟩ := cutLoop_returns (by omega) others hcard
  have hgives := (gives_cutLoop (show 0 < ch.length - 1 by omega) ⟨nodup_nil, by simp⟩ (Nat.zero_le _)).of_ok hcuts
  obtain ⟨frags, hok, hfrags⟩ := exists_fragments order hgives.1 (by omega)
  rw [hgives.2, show n.toNat - 1 + 1 = n.toNat by omega] at hfrags
  refine ⟨frags, rest, ?_, hrest, hfrags⟩
  rw [planFragmentsN, if_neg (by omega), if_neg (by omega)]
  rw [drawing_bind_ok hcuts, hok]
  rfl

lemma ae_cutPoints {k interior : ℕ} (h : k ≤ interior) :
    ∀ᵐ ω ∂uniformDraws interior, ∃ N, k ≤ (cutPoints interior ((List.range N).map ω)).card := by
  refine (ae_uniformDraws interior).mono fun ω hω => ?_
  choose! i hi using hω
  refine ⟨((Finset.range k).sup i) + 1, ?_⟩
  calc k = ((Finset.range k).image (· + 1)).card := by
        rw [Finset.card_image_of_injective _ (add_left_injective 1), Finset.card_range]
    _ ≤ _ := Finset.card_le_card fun c hc => ?_
  obtain ⟨x, hx, rfl⟩ := Finset.mem_image.1 hc
  have hlt : x < interior := (Finset.mem_range.1 hx).trans_le h
  have hle : i x ≤ (Finset.range k).sup i := Finset.le_sup hx
  simp only [cutPoints, mem_toFinset, mem_map, mem_range, exists_exists_and_eq_and]
  exact ⟨i x, by omega, by rw [hi x hlt, Nat.mod_eq_of_lt hlt]⟩

/-! ### The decoy -/

/-- **The generic decoy never fails for an accepted domain.**  The ClientHello is well formed and names the domain.
Whatever the planner draws, the packet is built and has 1250 bytes, or the loop over the cut points goes on: it has
ended when there were five different ones among its draws, as there are almost surely. -/
theorem generic_decoy_never_fails (x : PacketInput) {domain : GoString} {browser : String}
    (hdomain : validateMasqueDomain domain = .ok ()) (hbrowser : browser ≠ "chrome" ∧ browser ≠ "firefox") :
    ∃ ch hello, buildGenericClientHello domain x.tlsRandom x.x25519Pub = .ok ch ∧
      parseClientHello.all ch = some hello ∧ hello.serverNames = [domain] ∧
      Gives (buildInitialPacket x domain browser defaultQUICGenParams) (fun packet => packet.length = 1250) ∧
      (∀ draws others : List ℕ, 5 ≤ (cutPoints (ch.length - 1) draws).card → planDraws 6 2 ≤ others.length →
        ∃ packet rest, buildInitialPacket x domain browser defaultQUICGenParams ((draws ++ others).map .ok) =
          .ok (packet, rest) ∧ packet.length = 1250) ∧
      ∀ᵐ ω ∂uniformDraws (ch.length - 1), ∃ N, 5 ≤ (cutPoints (ch.length - 1) ((List.range N).map ω)).card := by
  obtain ⟨hne, hlen⟩ := length_of_validateMasqueDomain hdomain
  obtain ⟨ch, hch, hchLen, hparse⟩ := buildGenericClientHello_spec hne hlen x.tlsRandom x.x25519Pub
  rw [genericLen] at hchLen
  have hhello : buildClientHello x.browserHello domain x.tlsRandom x.x25519Pub browser = .ok ch := by
    rw [buildClientHello, if_neg (not_or.2 hbrowser), hch]
  have hpacket : ∀ frags, Fragments ch 6 frags →
      Takes (packetOf x.crypto x.dcid defaultQUICGenParams frags) (planDraws 6 2) fun packet => packet.length = 1250 :=
    fun frags hF => takes_packetOf x.crypto x.dcid hF (by omega)
  have h6 : (6 : ℤ) ≤ ch.length := by omega
  have hnames : (genericHello domain x.tlsRandom x.x25519Pub).serverNames = [domain] := by
    simp [ClientHello.serverNames, genericHello]
  refine ⟨ch, _, hch, hparse, hnames, ?_, fun draws others hdraws hothers => ?_, ae_cutPoints (by omega)⟩
  · refine (takes_lift hhello rfl).gives.bind fun _ hb => ?_
    subst hb
    exact (gives_planFragmentsN x.order (by decide) h6).bind fun frags hF => (hpacket frags hF).gives
  · obtain ⟨frags, rest, hfrags, hrest, hF⟩ :=
      planFragmentsN_returns x.order (by decide) h6 (others.map .ok) hdraws
    have hall : ∀ e, Except.error e ∉ rest := fun e he => by
      have := ((gives_planFragmentsN x.order (by decide) h6).suffix hfrags).subset he
      simp at this
    obtain ⟨packet, hok, hlength⟩ := (hpacket frags hF).returns
      (by have := hrest.length_le; rw [length_map] at this; omega) hall
    refine ⟨packet, rest.drop (planDraws 6 2), ?_, hlength⟩
    rw [map_append, buildInitialPacket, hhello]
    exact (drawing_bind_ok hfrags).trans hok

/-- A packet of zeros, with a cipher that only appends a tag. -/
def zeroPacket : PacketInput where
  crypto :=
    { extract := fun secret _ => secret
      expand := fun _ _ length => List.replicate length 0
      length_expand := fun _ _ _ => List.length_replicate
      gcmSeal := fun _ _ plaintext _ => plaintext ++ List.replicate 16 0
      length_gcmSeal := fun _ _ _ _ => List.length_append
      encrypt := fun _ block => block
      length_encrypt := fun _ _ => rfl }
  browserHello := fun _ _ => .error (.error "unknown browser")
  order := .filled
  dcid := ⟨List.replicate 8 0, rfl⟩
  tlsRandom := ⟨List.replicate 32 0, rfl⟩
  x25519Pub := ⟨List.replicate 32 0, rfl⟩

theorem generic_decoy_never_fails_example :
    ∃ ch hello, buildGenericClientHello (ascii "example.org.") zeroPacket.tlsRandom zeroPacket.x25519Pub = .ok ch ∧
      parseClientHello.all ch = some hello ∧ hello.serverNames = [ascii "example.org."] := by
  have hdomain : validateMasqueDomain (ascii "example.org.") = .ok () := by decide
  have hbrowser : "curl" ≠ "chrome" ∧ "curl" ≠ "firefox" := by decide
  obtain ⟨ch, hello, hch, hparse, hnames, -⟩ := generic_decoy_never_fails zeroPacket hdomain hbrowser
  exact ⟨ch, hello, hch, hparse, hnames⟩

end SingBox.Awg
