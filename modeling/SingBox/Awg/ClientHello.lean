import SingBox.Awg.Options
import SingBox.Awg.QuicInitial

/-!
# The generic ClientHello

`buildGenericClientHello` (`transport/wireguard/quic_clienthello_awg.go`) writes a ClientHello with a server name, a key
share and transport parameters, and pads it to 294 bytes if it is shorter.  `parseClientHello` reads one; every length
field has to cover its contents exactly, from the handshake down to the names of the server name extension.
-/

namespace SingBox.Awg

open SingBox.Lib List

/-! ### The domain -/

lemma length_of_validateMasqueDomain {domain : GoString} (h : validateMasqueDomain domain = .ok ()) :
    domain ≠ [] ∧ domain.length ≤ 254 := by
  unfold validateMasqueDomain at h
  dsimp only at h
  have hname : domain.length ≤ (if domain.getLast? = some 0x2e then domain.dropLast else domain).length + 1 := by
    split
    · rw [length_dropLast]
      omega
    · omega
  generalize (if domain.getLast? = some 0x2e then domain.dropLast else domain) = name at h hname
  split at h
  · cases h
  refine ⟨‹_›, ?_⟩
  split at h
  · cases h
  · omega

/-! ### Writing -/

/-- Bytes behind their length, as `appendVec16` appends them. -/
def vec16 (body : GoString) : GoString := toBytes 2 body.length ++ body

def appendVec16 (dst body : GoString) : GoString := dst ++ vec16 body

/-- An extension, as `appendExtension` appends it. -/
def extensionBytes (extType : ℕ) (data : GoString) : GoString := toBytes 2 extType ++ vec16 data

def appendExtension (dst : GoString) (extType : ℕ) (data : GoString) : GoString := dst ++ extensionBytes extType data

def quicCHTargetLen : ℕ := 294

def quicCHMinLen : ℕ := 291

/-- A transport parameter, as `appendParam` appends it. -/
def paramBytes (id : ℕ) (value : GoString) : GoString := quicVarint id ++ (quicVarint value.length ++ value)

/-- The transport parameters in their order; the values are varints. -/
def transportParams : List (ℕ × ℕ) :=
  [(0x01, 30000), (0x04, 0x00c00000), (0x05, 0x00100000), (0x06, 0x00100000), (0x07, 0x00100000), (0x08, 100),
    (0x09, 100), (0x0e, 8), (0x03, 1472)]

def buildQUICTransportParams : GoString :=
  transportParams.foldl (fun p param => p ++ paramBytes param.1 (appendQUICVarint [] param.2)) []

def sigAlgs : GoString :=
  [0x04, 0x03, 0x08, 0x04, 0x04, 0x01, 0x08, 0x05, 0x05, 0x01, 0x08, 0x06, 0x06, 0x01, 0x02, 0x01]

/-- The extensions but for the padding. -/
def genericExtensions (sni x25519Pub : GoString) : GoString :=
  let exts := appendExtension [] 0x000a (appendVec16 [] [0x00, 0x1d])
  let exts := appendExtension exts 0x000d (appendVec16 [] sigAlgs)
  let sniEntry := appendVec16 [0x00] sni
  let exts := appendExtension exts 0x0000 (appendVec16 [] sniEntry)
  let ks := appendVec16 (toBytes 2 0x001d) x25519Pub
  let exts := appendExtension exts 0x0033 (appendVec16 [] ks)
  let exts := appendExtension exts 0x0039 buildQUICTransportParams
  let exts := appendExtension exts 0x0a0a [0x00, 0x00, 0x00]
  let exts := appendExtension exts 0x002d [0x01, 0x01]
  let exts := appendExtension exts 0x0010 (appendVec16 [] (0x02 :: ascii "h3"))
  let exts := appendExtension exts 0x001b [0x02, 0x00, 0x02]
  appendExtension exts 0x002b [0x02, 0x03, 0x04]

/-- The body of the ClientHello up to the extensions. -/
def genericBody (tlsRandom : GoString) : GoString :=
  appendVec16 ([0x03, 0x03] ++ tlsRandom ++ [0x00]) [0x13, 0x01] ++ [0x01, 0x00]

/-- The length of the padding; it is zero if the ClientHello is long enough. -/
def genericPad (sni tlsRandom x25519Pub : GoString) : ℕ :=
  quicCHTargetLen - (4 + (genericBody tlsRandom).length + 2 + (genericExtensions sni x25519Pub).length) - 4

abbrev Bytes (n : ℕ) := { b : GoString // b.length = n }

def buildGenericClientHello (sni : GoString) (tlsRandom : Bytes 32) (x25519Pub : GoString) : Exec String GoString :=
  if sni = [] then .error (.error "amneziawg: ip=quic requires a non-empty id (SNI) for the ClientHello")
  else if x25519Pub.length ≠ 32 then .error (.error "amneziawg: x25519 public key must be 32 bytes")
  else
    let pad := genericPad sni tlsRandom x25519Pub
    let exts := appendExtension (genericExtensions sni x25519Pub) 0x0015 (List.replicate pad 0)
    let body := appendVec16 (genericBody tlsRandom) exts
    let out := [0x01] ++ toBytes 3 body.length ++ body
    if out.length < quicCHMinLen then
      .error (.error "amneziawg: ClientHello assembled shorter than the minimum fragmentable length")
    else .ok out

/-! ### Reading -/

inductive Extension where
  /-- The names, each with its type. -/
  | serverName (names : List (ℕ × GoString))
  /-- The keys, each with its group. -/
  | keyShare (shares : List (ℕ × GoString))
  | alpn (protocols : List GoString)
  | transportParameters (params : List (ℕ × GoString))
  /-- Items of a fixed size behind a length of 16 bits. -/
  | vector16 (extType : ℕ) (items : GoString)
  /-- Items of a fixed size behind a length of 8 bits. -/
  | vector8 (extType : ℕ) (items : GoString)
  | raw (extType : ℕ) (data : GoString)
  deriving DecidableEq

/-- A tag of `k` bytes, and bytes behind their length. -/
def parseTagged (k : ℕ) : Get (ℕ × GoString) := do
  let tag ← Get.uint k
  let data ← Get.vec 2 some
  return (tag, data)

def parseParam : Get (ℕ × GoString) := do
  let id ← readVarint
  let length ← readVarint
  let value ← Get.bytes length
  return (id, value)

def parseExtensionData (extType : ℕ) (data : GoString) : Option Extension :=
  if extType = 0x0000 then ((Get.vec 2 (parseTagged 1).many).all data).map .serverName
  else if extType = 0x0033 then ((Get.vec 2 (parseTagged 2).many).all data).map .keyShare
  else if extType = 0x0010 then ((Get.vec 2 (Get.vec 1 some).many).all data).map .alpn
  else if extType = 0x0039 then (parseParam.many data).map .transportParameters
  else if extType = 0x000a ∨ extType = 0x000d then ((Get.vec 2 some).all data).map (.vector16 extType)
  else if extType = 0x002d ∨ extType = 0x001b ∨ extType = 0x002b then
    ((Get.vec 1 some).all data).map (.vector8 extType)
  else some (.raw extType data)

def parseExtension : Get Extension := do
  let extType ← Get.uint 2
  Get.vec 2 (parseExtensionData extType)

structure ClientHello where
  version : ℕ
  random : GoString
  sessionID : GoString
  cipherSuites : GoString
  compressionMethods : GoString
  extensions : List Extension
  deriving DecidableEq

def parseHelloBody : Get ClientHello := do
  let version ← Get.uint 2
  let random ← Get.bytes 32
  let sessionID ← Get.vec 1 some
  let cipherSuites ← Get.vec 2 some
  let compressionMethods ← Get.vec 1 some
  let extensions ← Get.vec 2 parseExtension.many
  return ⟨version, random, sessionID, cipherSuites, compressionMethods, extensions⟩

def parseClientHello : Get ClientHello := do
  let msgType ← Get.byte
  if msgType = 0x01 then Get.vec 3 parseHelloBody.all else failure

def ClientHello.serverNames (hello : ClientHello) : List GoString :=
  hello.extensions.flatMap fun e =>
    match e with
    | .serverName names => (names.filter (·.1 = 0)).map (·.2)
    | _ => []

/-! ### What was written is read -/

def genericHello (sni tlsRandom x25519Pub : GoString) : ClientHello where
  version := 0x0303
  random := tlsRandom
  sessionID := []
  cipherSuites := [0x13, 0x01]
  compressionMethods := [0x00]
  extensions := [.vector16 0x000a [0x00, 0x1d], .vector16 0x000d sigAlgs, .serverName [(0, sni)],
    .keyShare [(0x001d, x25519Pub)], .transportParameters (transportParams.map fun p => (p.1, quicVarint p.2)),
    .raw 0x0a0a [0x00, 0x00, 0x00], .vector8 0x002d [0x01], .alpn [ascii "h3"], .vector8 0x001b [0x00, 0x02],
    .vector8 0x002b [0x03, 0x04], .raw 0x0015 (List.replicate (genericPad sni tlsRandom x25519Pub) 0)]

lemma all_vec16 (b : GoString) (hb : b.length < 2 ^ 16) : (Get.vec 2 some).all (vec16 b) = some b :=
  (reads_vec rfl hb).all

lemma all_tagged {k tag : ℕ} {data : GoString} (htag : tag < 2 ^ (8 * k)) (hk : k ≤ 2) (hdata : data.length < 2 ^ 15) :
    (Get.vec 2 (parseTagged k).many).all (vec16 (toBytes k tag ++ vec16 data)) = some [(tag, data)] := by
  have hentry : Reads (parseTagged k) (toBytes k tag ++ vec16 data) (tag, data) := by
    refine (reads_uint htag).bind ?_
    exact (reads_vec rfl (by omega)).map
  have hlen : (toBytes k tag ++ vec16 data).length = k + (2 + data.length) := by simp [vec16]
  refine (reads_vec (hentry.many ?_).many (by omega)).all
  rw [← length_pos_iff]
  omega

lemma reads_param {id : ℕ} {value : GoString} (hid : id < 2 ^ 62) (hvalue : value.length < 2 ^ 62) :
    Reads parseParam (paramBytes id value) (id, value) := by
  refine (reads_varint hid).bind ?_
  refine (reads_varint hvalue).bind ?_
  exact (reads_bytes rfl).map

lemma transportParams_eq :
    buildQUICTransportParams = transportParams.flatMap fun p => paramBytes p.1 (quicVarint p.2) := by
  simp [buildQUICTransportParams, transportParams, appendQUICVarint]

lemma many_transportParams :
    parseParam.many buildQUICTransportParams = some (transportParams.map fun p => (p.1, quicVarint p.2)) := by
  have hsmall : ∀ p ∈ transportParams, p.1 < 2 ^ 62 ∧ (quicVarint p.2).length < 2 ^ 62 := by decide
  rw [transportParams_eq]
  refine many_flatMap (forall₂_map_right_iff.2 (forall₂_same.2 fun p hp => ⟨?_, ?_⟩))
  · exact append_ne_nil_of_left_ne_nil (quicVarint_ne_nil _) _
  · exact reads_param (hsmall p hp).1 (hsmall p hp).2

def genericList (sni tlsRandom x25519Pub : GoString) : List (ℕ × GoString) :=
  [(0x000a, vec16 [0x00, 0x1d]), (0x000d, vec16 sigAlgs), (0x0000, vec16 (toBytes 1 0 ++ vec16 sni)),
    (0x0033, vec16 (toBytes 2 0x001d ++ vec16 x25519Pub)), (0x0039, buildQUICTransportParams),
    (0x0a0a, [0x00, 0x00, 0x00]), (0x002d, [0x01, 0x01]), (0x0010, vec16 (0x02 :: ascii "h3")),
    (0x001b, [0x02, 0x00, 0x02]), (0x002b, [0x02, 0x03, 0x04]),
    (0x0015, List.replicate (genericPad sni tlsRandom x25519Pub) 0)]

lemma genericExtensions_eq (sni tlsRandom x25519Pub : GoString) :
    appendExtension (genericExtensions sni x25519Pub) 0x0015 (replicate (genericPad sni tlsRandom x25519Pub) 0) =
      (genericList sni tlsRandom x25519Pub).flatMap fun e => extensionBytes e.1 e.2 := by
  have hzero : toBytes 1 0 = [0x00] := rfl
  simp [genericExtensions, genericList, appendExtension, appendVec16, hzero]

lemma length_buildQUICTransportParams : buildQUICTransportParams.length = 45 := by
  decide

lemma length_genericExtensions (sni x25519Pub : GoString) :
    (genericExtensions sni x25519Pub).length = 134 + sni.length + x25519Pub.length := by
  simp [genericExtensions, appendExtension, appendVec16, extensionBytes, vec16, length_buildQUICTransportParams,
    sigAlgs, ascii]
  omega

lemma length_genericBody (tlsRandom : GoString) : (genericBody tlsRandom).length = 9 + tlsRandom.length := by
  simp [genericBody, appendVec16, vec16]
  omega

variable {extType : ℕ}

lemma reads_extension {data : GoString} {e : Extension} (htype : extType < 2 ^ 16)
    (hdata : data.length < 2 ^ 16) (he : parseExtensionData extType data = some e) :
    extensionBytes extType data ≠ [] ∧ Reads parseExtension (extensionBytes extType data) e := by
  refine ⟨?_, (reads_uint htype).bind (reads_vec he hdata)⟩
  rw [← length_pos_iff, extensionBytes, length_append, length_toBytes]
  omega

lemma parse_vector16 {items : GoString} (htype : extType = 0x000a ∨ extType = 0x000d)
    (hitems : items.length < 2 ^ 16) : parseExtensionData extType (vec16 items) = some (.vector16 extType items) := by
  rw [parseExtensionData, if_neg (by omega), if_neg (by omega), if_neg (by omega), if_neg (by omega), if_pos htype,
    all_vec16 items hitems]
  rfl

lemma parse_raw (htype : extType = 0x0a0a ∨ extType = 0x0015) (data : GoString) :
    parseExtensionData extType data = some (.raw extType data) := by
  rw [parseExtensionData, if_neg (by omega), if_neg (by omega), if_neg (by omega), if_neg (by omega), if_neg (by omega),
    if_neg (by omega)]

lemma parse_serverName {sni : GoString} (hsni : sni.length < 2 ^ 15) :
    parseExtensionData 0x0000 (vec16 (toBytes 1 0 ++ vec16 sni)) = some (.serverName [(0, sni)]) := by
  rw [parseExtensionData, all_tagged (by decide) (by decide) hsni]
  rfl

lemma parse_keyShare {key : GoString} (hkey : key.length < 2 ^ 15) :
    parseExtensionData 0x0033 (vec16 (toBytes 2 0x001d ++ vec16 key)) = some (.keyShare [(0x001d, key)]) := by
  rw [parseExtensionData, all_tagged (by decide) (by decide) hkey]
  rfl

lemma parse_alpn : parseExtensionData 0x0010 (vec16 (0x02 :: ascii "h3")) = some (.alpn [ascii "h3"]) := by
  have hname : Reads (Get.vec 1 some) (toBytes 1 (ascii "h3").length ++ ascii "h3") (ascii "h3") :=
    reads_vec rfl (by decide)
  have hall : (Get.vec 2 (Get.vec 1 some).many).all (vec16 (0x02 :: ascii "h3")) = some [ascii "h3"] :=
    (reads_vec (hname.many (cons_ne_nil _ _)).many (by decide)).all
  rw [parseExtensionData, hall]
  rfl

lemma parse_transportParams : parseExtensionData 0x0039 buildQUICTransportParams =
    some (.transportParameters (transportParams.map fun p => (p.1, quicVarint p.2))) := by
  rw [parseExtensionData, many_transportParams]
  rfl

lemma many_genericList {sni x25519Pub : GoString} (tlsRandom : GoString) (hsni : sni.length ≤ 254)
    (hpub : x25519Pub.length = 32) :
    parseExtension.many ((genericList sni tlsRandom x25519Pub).flatMap fun e => extensionBytes e.1 e.2) =
      some (genericHello sni tlsRandom x25519Pub).extensions := by
  have hpad : (replicate (genericPad sni tlsRandom x25519Pub) (0 : Byte)).length < 2 ^ 16 := by
    rw [length_replicate, genericPad, quicCHTargetLen]
    omega
  have hname : (vec16 (toBytes 1 0 ++ vec16 sni)).length < 2 ^ 16 := by
    simp [vec16]
    omega
  have hshare : (vec16 (toBytes 2 0x001d ++ vec16 x25519Pub)).length < 2 ^ 16 := by
    simp [vec16]
    omega
  have hparams : buildQUICTransportParams.length < 2 ^ 16 := by
    decide
  unfold genericList genericHello
  generalize replicate (genericPad sni tlsRandom x25519Pub) (0 : Byte) = padding at hpad
  refine many_flatMap ?_
  refine .cons (reads_extension (by norm_num) (by decide) (parse_vector16 (.inl rfl) (by decide))) ?_
  refine .cons (reads_extension (by norm_num) (by decide) (parse_vector16 (.inr rfl) (by decide))) ?_
  refine .cons (reads_extension (by norm_num) hname (parse_serverName (by omega))) ?_
  refine .cons (reads_extension (by norm_num) hshare (parse_keyShare (by omega))) ?_
  refine .cons (reads_extension (by norm_num) hparams parse_transportParams) ?_
  refine .cons (reads_extension (by norm_num) (by decide) (parse_raw (.inl rfl) _)) ?_
  refine .cons (reads_extension (by norm_num) (by decide) rfl) ?_
  refine .cons (reads_extension (by norm_num) (by decide) parse_alpn) ?_
  refine .cons (reads_extension (by norm_num) (by decide) rfl) ?_
  refine .cons (reads_extension (by norm_num) (by decide) rfl) ?_
  exact .cons (reads_extension (by norm_num) hpad (parse_raw (.inr rfl) _)) .nil

def genericLen (sni : GoString) : ℕ := max 294 (217 + sni.length)

/-- **The generic ClientHello** is built for every name that is not too long, and read back. -/
theorem buildGenericClientHello_spec {sni : GoString} (hne : sni ≠ []) (hsni : sni.length ≤ 254)
    (tlsRandom x25519Pub : Bytes 32) :
    ∃ ch, buildGenericClientHello sni tlsRandom x25519Pub = .ok ch ∧ ch.length = genericLen sni ∧
      parseClientHello.all ch = some (genericHello sni tlsRandom x25519Pub) := by
  obtain ⟨tlsRandom, hrandom⟩ := tlsRandom
  obtain ⟨x25519Pub, hpub⟩ := x25519Pub
  have hexts := genericExtensions_eq sni tlsRandom x25519Pub
  have hmany := many_genericList tlsRandom hsni hpub
  have hextsLen : ((genericList sni tlsRandom x25519Pub).flatMap fun e => extensionBytes e.1 e.2).length =
      170 + sni.length + genericPad sni tlsRandom x25519Pub := by
    rw [← hexts]
    simp only [appendExtension, extensionBytes, vec16, length_append, length_genericExtensions, length_toBytes,
      length_replicate]
    omega
  have hpad : genericPad sni tlsRandom x25519Pub = 77 - sni.length := by
    rw [genericPad, length_genericBody, length_genericExtensions, quicCHTargetLen]
    omega
  have hbodyLen : (appendVec16 (genericBody tlsRandom)
      ((genericList sni tlsRandom x25519Pub).flatMap fun e => extensionBytes e.1 e.2)).length =
      213 + sni.length + (77 - sni.length) := by
    rw [appendVec16, vec16, length_append, length_append, length_genericBody, length_toBytes, hextsLen]
    omega
  have hbody : Reads parseHelloBody (appendVec16 (genericBody tlsRandom)
      ((genericList sni tlsRandom x25519Pub).flatMap fun e => extensionBytes e.1 e.2))
      (genericHello sni tlsRandom x25519Pub) := by
    have hsplit : ∀ exts : GoString, appendVec16 (genericBody tlsRandom) exts =
        toBytes 2 0x0303 ++ (tlsRandom ++ ((toBytes 1 0 ++ []) ++ ((toBytes 2 2 ++ [0x13, 0x01]) ++
          ((toBytes 1 1 ++ [0x00]) ++ (toBytes 2 exts.length ++ exts))))) := fun exts => by
      simp [genericBody, appendVec16, vec16, toBytes]
    rw [hsplit]
    refine (reads_uint (by decide)).bind ?_
    refine (reads_bytes hrandom).bind ?_
    refine (reads_vec (b := []) rfl (by decide)).bind ?_
    refine (reads_vec (b := [0x13, 0x01]) rfl (by decide)).bind ?_
    refine (reads_vec (b := [0x00]) rfl (by decide)).bind ?_
    exact (reads_vec hmany (by omega)).map
  have hmsg := reads_vec (k := 3) hbody.all (by omega)
  refine ⟨_, ?_, ?_, ((reads_byte 0x01).bind hmsg).all⟩
  · rw [buildGenericClientHello, if_neg hne, if_neg (by simpa using hpub)]
    dsimp only
    rw [hexts, append_assoc]
    rw [hbodyLen, quicCHMinLen]
    simp
    omega
  · rw [length_append, length_append, length_toBytes, length_singleton, genericLen]
    omega

end SingBox.Awg
