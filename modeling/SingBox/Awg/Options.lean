import SingBox.Awg.Uapi

/-!
# From AmneziaWG options to configuration lines

`awgIpcLines` (`transport/wireguard/device_awg.go`) turns the options of an endpoint into lines for
`IpcSetOperation`, each written as a line break, the key, an equals sign and the value.  Magic headers
are normalised first (`option/wireguard_awg.go`); with a masquerade protocol the packets `i1` and `i2`
are generated (`transport/wireguard/masque_awg.go`, with the packet generators as a parameter).

Errors are texts; the values they quote are left out.
-/

namespace SingBox.Awg

open SingBox.Lib List Except

/-! ### Options -/

/-- `option.AmneziaWGOptions`; the families `s1` … `s4`, `h1` … `h4` and `i1` … `i5` are functions. -/
structure AmneziaWGOptions where
  jc : BitVec 32 := 0
  jmin : BitVec 32 := 0
  jmax : BitVec 32 := 0
  s : MessageType → BitVec 32 := fun _ => 0
  h : MessageType → GoString := fun _ => []
  i : Fin 5 → GoString := fun _ => []
  id : GoString := []
  ip : GoString := []
  ib : GoString := []
  randomTrailers : Option Bool := none
  disableCookie : Option Bool := none
  headerProtectionKey : GoString := []
  contentPaddingAddition : GoString := []
  rekeyAfterTime : GoString := []
  deriving DecidableEq

def AmneziaWGOptions.isSet (o : AmneziaWGOptions) : Bool := o ≠ {}

/-! ### Magic headers -/

def parsePart (part : GoString) : Except String ℕ :=
  match parseUint 32 (trimSpace part) with
  | .ok n => .ok n
  | .error _ => .error "invalid magic header: parse"

/-- The canonical text of a range; the range `0` is no range. -/
def magicText (start stop : ℕ) : Except String GoString :=
  if stop < start then .error "invalid magic header: range start > end"
  else if stop = 0 then .ok []
  else if start = stop then .ok (formatUint start)
  else .ok (formatUint start ++ 0x2d :: formatUint stop)

def normalizeMagicHeader (spec : GoString) : Except String GoString :=
  if hasLineBreak spec then .error "magic header must not contain CR or LF"
  else if trimSpace spec = [] then .ok []
  else
    match cut 0x2d (trimSpace spec) with
    | none => do
      let start ← parsePart (trimSpace spec)
      magicText start start
    | some (part0, part1) =>
      if 0x2d ∈ part1 then .error "invalid magic header: expected uint32 or \"min-max\""
      else do
        let start ← parsePart part0
        let stop ← parsePart part1
        magicText start stop

/-! ### Masquerading -/

def lowerByte (b : Byte) : Byte := if 0x41 ≤ b ∧ b ≤ 0x5a then b + 32 else b

/-- The loop of `strings.ToLower`.  Outside ASCII only `U+0130` and `U+212A` have an ASCII lower case;
other bytes are kept, which makes no difference in a comparison with an ASCII word. -/
def toLowerLoop : ℕ → GoString → GoString
  | 0, _ => []
  | _ + 1, [] => []
  | n + 1, b :: s =>
    if [0xc4, 0xb0].isPrefixOf (b :: s) then 0x69 :: toLowerLoop n (s.drop 1)
    else if [0xe2, 0x84, 0xaa].isPrefixOf (b :: s) then 0x6b :: toLowerLoop n (s.drop 2)
    else lowerByte b :: toLowerLoop n s

def toLower (s : GoString) : GoString := toLowerLoop s.length s

def labelByte (c : Byte) : Bool :=
  (0x61 ≤ c && c ≤ 0x7a) || (0x41 ≤ c && c ≤ 0x5a) || (0x30 ≤ c && c ≤ 0x39) || c = 0x2d || c = 0x5f

def validateLabel (label : GoString) : Except String Unit :=
  if label = [] then .error "amneziawg: invalid masquerade domain: empty label"
  else if 63 < label.length then .error "amneziawg: invalid masquerade domain: label longer than 63 bytes"
  else if label.head? = some 0x2d ∨ label.getLast? = some 0x2d then
    .error "amneziawg: invalid masquerade domain: label with leading/trailing hyphen"
  else if label.all labelByte then .ok ()
  else .error ("amneziawg: invalid masquerade domain: illegal character " ++
    "(only a-z A-Z 0-9 - _ allowed)")

def validateMasqueDomain (domain : GoString) : Except String Unit :=
  let name := if domain.getLast? = some 0x2e then domain.dropLast else domain
  if domain = [] then .error "amneziawg: id (masquerade domain) is required when ip/ib is set"
  else if name = [] ∨ 253 < name.length then
    .error "amneziawg: invalid masquerade domain: empty or longer than 253 bytes"
  else if name.head? = some 0x2e then .error "amneziawg: invalid masquerade domain: leading dot"
  else (split 0x2e name).forM validateLabel

def normalizeMasqueBrowser (ib proto : GoString) : Except String GoString :=
  let browser := toLower (trimSpace ib)
  if browser = [] then .ok []
  else if ¬ [ascii "chrome", ascii "firefox", ascii "curl"].contains browser then
    .error "amneziawg: unknown masquerade browser; one of chrome|firefox|curl"
  else if proto ≠ ascii "quic" then
    .error "amneziawg: ib (browser) is only meaningful with ip=quic"
  else .ok browser

/-- The packet generators, with their random draws.  The invite of `masqueI1` and those of `masqueI1I2`
belong to different SIP dialogs. -/
structure Generators where
  quic : GoString → GoString → Except String GoString
  stun : Except String GoString
  dnsHost : GoString
  dns : GoString → Except String GoString
  sipInvite : GoString → Except String GoString
  dialogInvite : GoString → Except String GoString
  dialogTrying : GoString → Except String GoString

def masqueI1 (gen : Generators) (o : AmneziaWGOptions) : Except String GoString :=
  if o.id = [] ∧ o.ip = [] ∧ o.ib = [] then .ok []
  else if o.i 0 ≠ [] then
    .error "amneziawg: id/ip/ib masquerade conflicts with an explicit i1; use one or the other"
  else
    let proto := toLower (trimSpace o.ip)
    let domain := trimSpace o.id
    if proto = [] then
      .error ("amneziawg: ip (masquerade protocol) is required when id/ib is set; " ++
        "one of quic|dns|stun|sip")
    else do
      if domain ≠ [] then validateMasqueDomain domain
      let browser ← normalizeMasqueBrowser o.ib proto
      if proto = ascii "quic" then
        if domain = [] then throw ("amneziawg: id (masquerade domain) is required for ip=quic " ++
          "(it becomes the ClientHello SNI)")
        else gen.quic domain browser
      else if proto = ascii "stun" then gen.stun
      else if proto = ascii "dns" then gen.dns (if domain = [] then gen.dnsHost else domain)
      else if proto = ascii "sip" then gen.sipInvite domain
      else throw "amneziawg: unknown masquerade protocol; one of quic|dns|stun|sip"

def masqueI1I2 (gen : Generators) (o : AmneziaWGOptions) : Except String (GoString × GoString) := do
  let i1 ← masqueI1 gen o
  if i1 = [] then return ([], [])
  else if toLower (trimSpace o.ip) = ascii "sip" then
    let invite ← gen.dialogInvite (trimSpace o.id)
    let trying ← gen.dialogTrying (trimSpace o.id)
    return (invite, trying)
  else return (i1, [])

/-- The values of `i1` and `i2`, generated or explicit. -/
def packetValues (gen : Generators) (o : AmneziaWGOptions) : Except String (GoString × GoString) := do
  let (masque, masque2) ← masqueI1I2 gen o
  if masque = [] then return (o.i 0, o.i 1)
  else if masque2 = [] then return (masque, o.i 1)
  else if o.i 1 ≠ [] then
    throw ("amneziawg: id/ip/ib masquerade (ip=sip) fills i2; an explicit i2 conflicts with it")
  else return (masque, masque2)

/-! ### Checks -/

def awgMaxJunkCount : ℕ := 128
def awgMaxJunkSize : ℕ := 65507

def validateJunk (o : AmneziaWGOptions) : Except String Unit :=
  if awgMaxJunkCount < o.jc.toNat then .error "amneziawg: jc must be <= 128"
  else if awgMaxJunkSize < o.jmax.toNat then .error "amneziawg: jmax must be <= 65507"
  else if o.jmax < o.jmin then .error "amneziawg: jmin must be <= jmax"
  else .ok ()

def validateRekeyAfterTime (value : GoString) : Except String Unit :=
  if value = [] then .ok ()
  else
    let (low, high) := (cut 0x2d value).getD (value, value)
    match parseUint 32 low, parseUint 32 high with
    | .ok lo, .ok hi =>
      if hi < lo then .error "amneziawg: rekey_after_time must be seconds or a seconds range"
      else if lo = 0 ∧ hi = 2 ^ 32 - 1 then .error "amneziawg: rekey_after_time range is too wide"
      else .ok ()
    | _, _ => .error "amneziawg: rekey_after_time must be seconds or a seconds range"

def isHex (s : GoString) : Bool := s.all fun c => (hexDigit? c).isSome

/-- All the strings of the options, as `awgIpcLines` checks them. -/
def AmneziaWGOptions.strings (o : AmneziaWGOptions) : List GoString :=
  messageTypes.map o.h ++ (List.finRange 5).map o.i ++
    [o.id, o.ip, o.ib, o.headerProtectionKey, o.contentPaddingAddition, o.rekeyAfterTime]

/-! ### Writing lines -/

/-- The text written so far, and the error of a string that holds a line break. -/
structure Builder where
  text : GoString := []
  stringErr : Option String := none

namespace Builder

def writeLine (b : Builder) (key : DeviceKey) (value : GoString) : Builder :=
  { b with text := b.text ++ 0x0a :: ascii key.name ++ 0x3d :: value }

def writeUint (b : Builder) (key : DeviceKey) (value : BitVec 32) : Builder :=
  if value ≠ 0 then b.writeLine key (formatUint value.toNat) else b

def writeStr (b : Builder) (key : DeviceKey) (value : GoString) : Builder :=
  if hasLineBreak value then
    { b with stringErr := some ("amneziawg: " ++ key.name ++ " must not contain CR or LF") }
  else if value ≠ [] then b.writeLine key value else b

def writeMagic (b : Builder) (key : DeviceKey) (value : GoString) : Except String Builder :=
  match normalizeMagicHeader value with
  | .error e => .error (key.name ++ ": " ++ e)
  | .ok spec => .ok (b.writeStr key spec)

def writeBool (b : Builder) (key : DeviceKey) (value : Option Bool) : Builder :=
  match value with
  | some v => b.writeLine key (formatBool v)
  | none => b

end Builder

def writeKey (o : AmneziaWGOptions) (b : Builder) : Except String Builder :=
  if o.headerProtectionKey = [] then .ok b
  else if o.headerProtectionKey.length ≠ 64 ∨ !isHex o.headerProtectionKey then
    .error ("amneziawg: header_protection_key must be a valid 64-character hex string (32 bytes)")
  else if o.s .initiation < 12 ∨ o.s .response < 12 ∨ o.s .cookieReply < 12 ∨ o.s .transport < 12 then
    .error "amneziawg: s1..s4 must each be >= 12 bytes when header_protection_key is used"
  else .ok (b.writeStr .headerProtectionKey o.headerProtectionKey)

def writeNumbers (o : AmneziaWGOptions) (b : Builder) : Builder :=
  let b := ((b.writeUint .jc o.jc).writeUint .jmin o.jmin).writeUint .jmax o.jmax
  messageTypes.foldl (fun b t => b.writeUint (.s t) (o.s t)) b

def writeHeaders (o : AmneziaWGOptions) (b : Builder) : Except String Builder :=
  messageTypes.foldlM (fun b t => b.writeMagic (.h t) (o.h t)) b

def writePackets (o : AmneziaWGOptions) (i1 i2 : GoString) (b : Builder) : Builder :=
  let b := (b.writeStr (.i 0) i1).writeStr (.i 1) i2
  ((b.writeStr (.i 2) (o.i 2)).writeStr (.i 3) (o.i 3)).writeStr (.i 4) (o.i 4)

def writeRest (o : AmneziaWGOptions) (b : Builder) : Builder :=
  let b := b.writeStr .contentPaddingAddition o.contentPaddingAddition
  let b := b.writeStr .rekeyAfterTime o.rekeyAfterTime
  (b.writeBool .randomTrailers o.randomTrailers).writeBool .disableCookies o.disableCookie

def awgIpcLines (gen : Generators) (o : AmneziaWGOptions) : Except String GoString :=
  if !o.isSet then .ok []
  else if o.strings.any hasLineBreak then
    .error "amneziawg: string options must not contain CR or LF"
  else do
    validateJunk o
    validateRekeyAfterTime o.rekeyAfterTime
    let (i1, i2) ← packetValues gen o
    let b ← writeHeaders o (writeNumbers o {})
    let b ← writeKey o (writePackets o i1 i2 b)
    match (writeRest o b).stringErr with
    | some e => throw e
    | none => return (writeRest o b).text

/-! ### What the lines hold -/

def awgKeys : List DeviceKey :=
  ([DeviceKey.jc, .jmin, .jmax] ++ messageTypes.map DeviceKey.s) ++ messageTypes.map DeviceKey.h ++
    [DeviceKey.i 0, .i 1, .i 2, .i 3, .i 4] ++ [DeviceKey.headerProtectionKey] ++
    [DeviceKey.contentPaddingAddition, .rekeyAfterTime, .randomTrailers, .disableCookies]

def uintText (value : BitVec 32) : Option GoString :=
  if value ≠ 0 then some (formatUint value.toNat) else none

def strText (value : GoString) : Option GoString := if value ≠ [] then some value else none

def packetText (o : AmneziaWGOptions) (i1 i2 : GoString) (k : Fin 5) : GoString :=
  if k = 0 then i1 else if k = 1 then i2 else o.i k

/-- The value of an option as its line writes it; `none` when the option is not set. -/
def optionText (o : AmneziaWGOptions) (i1 i2 : GoString) : DeviceKey → Option GoString
  | .jc => uintText o.jc
  | .jmin => uintText o.jmin
  | .jmax => uintText o.jmax
  | .s t => uintText (o.s t)
  | .h t => strText ((normalizeMagicHeader (o.h t)).toOption.getD [])
  | .i k => strText (packetText o i1 i2 k)
  | .headerProtectionKey => strText o.headerProtectionKey
  | .contentPaddingAddition => strText o.contentPaddingAddition
  | .rekeyAfterTime => strText o.rekeyAfterTime
  | .randomTrailers => o.randomTrailers.map formatBool
  | .disableCookies => o.disableCookie.map formatBool
  | _ => none

/-- The line of a key, if there is one. -/
def lineOf (o : AmneziaWGOptions) (i1 i2 : GoString) (k : DeviceKey) : List (DeviceKey × GoString) :=
  ((optionText o i1 i2 k).map fun v => (k, v)).toList

def optionLines (o : AmneziaWGOptions) (i1 i2 : GoString) : List (DeviceKey × GoString) :=
  awgKeys.flatMap (lineOf o i1 i2)

def lineText (p : DeviceKey × GoString) : GoString := ascii p.1.name ++ 0x3d :: p.2

def render (ls : List (DeviceKey × GoString)) : GoString := ls.flatMap fun p => 0x0a :: lineText p

lemma awgKeys_nodup : awgKeys.Nodup := by decide

lemma name_ok (k : DeviceKey) : hasLineBreak (ascii k.name) = false ∧ 0x3d ∉ ascii k.name ∧
    DeviceKey.ofName (ascii k.name) = some k := by
  cases k <;> first
    | decide +kernel
    | (rename_i t; revert t; decide +kernel)

/-- `b'` is `b` with the lines `ls` added, unless a string was refused. -/
structure Writes (b b' : Builder) (ls : List (DeviceKey × GoString)) : Prop where
  clean : b'.stringErr = none → b.stringErr = none
  text : b'.stringErr = none → b'.text = b.text ++ render ls
  values : b'.stringErr = none → ∀ p ∈ ls, hasLineBreak p.2 = false

namespace Writes

variable {b b' b'' : Builder} {ls ls' : List (DeviceKey × GoString)}

lemma refl (b : Builder) : Writes b b [] := ⟨id, fun _ => by simp [render], by simp⟩

lemma trans (h : Writes b b' ls) (h' : Writes b' b'' ls') : Writes b b'' (ls ++ ls') := by
  refine ⟨fun hn => h.clean (h'.clean hn), fun hn => ?_, fun hn p hp => ?_⟩
  · rw [h'.text hn, h.text (h'.clean hn), render, render, render, flatMap_append, append_assoc]
  · rcases mem_append.1 hp with hp | hp
    · exact h.values (h'.clean hn) p hp
    · exact h'.values hn p hp

lemma line (b : Builder) (k : DeviceKey) {value : GoString} (hv : hasLineBreak value = false) :
    Writes b (b.writeLine k value) [(k, value)] := by
  refine ⟨id, fun _ => ?_, fun _ p hp => ?_⟩
  · simp [Builder.writeLine, render, lineText]
  · rw [mem_singleton] at hp
    rw [hp]
    exact hv

lemma foldl {f : Builder → MessageType → Builder} {g : MessageType → List (DeviceKey × GoString)}
    (hf : ∀ b t, Writes b (f b t) (g t)) : ∀ (ts : List MessageType) (b : Builder),
    Writes b (ts.foldl f b) (ts.flatMap g)
  | [], b => refl b
  | t :: ts, b => (hf b t).trans (foldl hf ts (f b t))

lemma foldlM {f : Builder → MessageType → Except String Builder}
    {g : MessageType → List (DeviceKey × GoString)} (hf : ∀ b t b', f b t = .ok b' → Writes b b' (g t)) :
    ∀ (ts : List MessageType) (b b' : Builder), ts.foldlM f b = .ok b' → Writes b b' (ts.flatMap g)
  | [], b, b', h => by
    cases h
    exact refl b
  | t :: ts, b, b', h => by
    rw [foldlM_cons] at h
    obtain ⟨c, hc, h⟩ := bind_ok h
    exact (hf b t c hc).trans (foldlM hf ts c b' h)

end Writes

lemma formatUint_hasLineBreak (n : ℕ) : hasLineBreak (formatUint n) = false := by
  rw [hasLineBreak, any_eq_false]
  intro b hb
  have hdigit := (mem_formatUint hb).1
  simp only [Bool.or_eq_true, decide_eq_true_eq]
  rintro (rfl | rfl)
  · exact absurd hdigit (by decide)
  · exact absurd hdigit (by decide)

lemma writes_uint (b : Builder) (k : DeviceKey) (value : BitVec 32) :
    Writes b (b.writeUint k value) ((uintText value).map fun v => (k, v)).toList := by
  unfold Builder.writeUint uintText
  split
  · exact .line b k (formatUint_hasLineBreak _)
  · exact .refl b

lemma writes_str (b : Builder) (k : DeviceKey) (value : GoString) :
    Writes b (b.writeStr k value) ((strText value).map fun v => (k, v)).toList := by
  unfold Builder.writeStr strText
  split
  · exact ⟨fun h => (nomatch h), fun h => (nomatch h), fun h => (nomatch h)⟩
  next hb =>
    split
    · exact .line b k (Bool.not_eq_true _ ▸ hb)
    · exact .refl b

lemma writes_bool (b : Builder) (k : DeviceKey) (value : Option Bool) :
    Writes b (b.writeBool k value) ((value.map formatBool).map fun v => (k, v)).toList := by
  cases value with
  | none => exact .refl b
  | some v =>
    refine .line b k ?_
    cases v <;> decide

variable {b b' : Builder}

lemma writes_magic {k : DeviceKey} {value : GoString} (h : b.writeMagic k value = .ok b') :
    Writes b b' ((strText ((normalizeMagicHeader value).toOption.getD [])).map fun v => (k, v)).toList := by
  unfold Builder.writeMagic at h
  split at h
  · cases h
  next spec hspec =>
    cases h
    rw [hspec]
    exact writes_str b k spec

variable {o : AmneziaWGOptions}

lemma writes_key (h : writeKey o b = .ok b') :
    Writes b b' ((strText o.headerProtectionKey).map fun v => (.headerProtectionKey, v)).toList := by
  unfold writeKey at h
  split at h
  next hk =>
    cases h
    rw [hk]
    exact .refl b
  · split at h
    · cases h
    · split at h
      · cases h
      · cases h
        exact writes_str b _ _

section

variable (o : AmneziaWGOptions) (i1 i2 : GoString) (b : Builder)

lemma writes_numbers : Writes b (writeNumbers o b)
    (([DeviceKey.jc, .jmin, .jmax] ++ messageTypes.map DeviceKey.s).flatMap (lineOf o i1 i2)) := by
  rw [flatMap_append]
  refine .trans ?_ (.foldl (fun b t => writes_uint b (.s t) (o.s t)) messageTypes _)
  exact (writes_uint b .jc o.jc).trans ((writes_uint _ .jmin o.jmin).trans
    ((writes_uint _ .jmax o.jmax).trans (.refl _)))

lemma writes_packets : Writes b (writePackets o i1 i2 b) ([.i 0, .i 1, .i 2, .i 3, .i 4].flatMap (lineOf o i1 i2)) :=
  (writes_str b (.i 0) i1).trans ((writes_str _ (.i 1) i2).trans ((writes_str _ (.i 2) (o.i 2)).trans
    ((writes_str _ (.i 3) (o.i 3)).trans ((writes_str _ (.i 4) (o.i 4)).trans (.refl _)))))

lemma writes_rest : Writes b (writeRest o b)
    ([.contentPaddingAddition, .rekeyAfterTime, .randomTrailers, .disableCookies].flatMap (lineOf o i1 i2)) :=
  (writes_str b .contentPaddingAddition o.contentPaddingAddition).trans
    ((writes_str _ .rekeyAfterTime o.rekeyAfterTime).trans
    ((writes_bool _ .randomTrailers o.randomTrailers).trans
    ((writes_bool _ .disableCookies o.disableCookie).trans (.refl _))))

end

lemma writeHeaders_ok (h : writeHeaders o b = .ok b')
    (t : MessageType) : ∃ text, normalizeMagicHeader (o.h t) = .ok text := by
  suffices ∀ (ts : List MessageType) (b b' : Builder), ts.foldlM (fun b t => b.writeMagic (.h t) (o.h t)) b = .ok b' →
      ∀ t ∈ ts, ∃ text, normalizeMagicHeader (o.h t) = .ok text from
    this messageTypes b b' h t (mem_messageTypes t)
  intro ts
  induction ts with
  | nil => exact fun _ _ _ _ ht => (nomatch ht)
  | cons u ts ih =>
    intro b b' h
    rw [foldlM_cons] at h
    obtain ⟨c, hc, h⟩ := bind_ok h
    rintro t (_ | ⟨_, ht⟩)
    · unfold Builder.writeMagic at hc
      split at hc
      · cases hc
      · exact ⟨_, ‹_›⟩
    · exact ih c b' h t ht

/-- **The text is the lines of the options that are set**, and no value breaks a line. -/
theorem awgIpcLines_render {gen : Generators} {out : GoString} (h : awgIpcLines gen o = .ok out) :
    ∃ i1 i2, packetValues gen o = .ok (i1, i2) ∧ out = render (optionLines o i1 i2) ∧
      (∀ p ∈ optionLines o i1 i2, hasLineBreak p.2 = false) ∧ ∀ t, ∃ text, normalizeMagicHeader (o.h t) = .ok text := by
  unfold awgIpcLines at h
  split at h
  next hset =>
    have ho : o = {} := by simpa [AmneziaWGOptions.isSet] using hset
    subst ho
    cases h
    refine ⟨[], [], rfl, ?_, ?_, fun _ => ⟨[], rfl⟩⟩
    · rfl
    · exact fun _ hp => (nomatch hp)
  split at h
  · cases h
  obtain ⟨_, -, h⟩ := bind_ok h
  obtain ⟨_, -, h⟩ := bind_ok h
  obtain ⟨⟨i1, i2⟩, hi, h⟩ := bind_ok h
  obtain ⟨bh, hbh, h⟩ := bind_ok h
  obtain ⟨bk, hbk, h⟩ := bind_ok h
  have hkey : Writes (writePackets o i1 i2 bh) bk ([.headerProtectionKey].flatMap (lineOf o i1 i2)) := by
    rw [flatMap_singleton]
    exact writes_key hbk
  have hheaders : Writes (writeNumbers o {}) bh ((messageTypes.map .h).flatMap (lineOf o i1 i2)) :=
    .foldlM (fun _ _ _ hb => writes_magic hb) messageTypes _ _ hbh
  have hw := ((((writes_numbers o i1 i2 {}).trans hheaders).trans
    (writes_packets o i1 i2 bh)).trans hkey).trans (writes_rest o i1 i2 bk)
  simp only [← flatMap_append] at hw
  refine ⟨i1, i2, hi, ?_⟩
  split at h
  · cases h
  next hnone =>
    cases h
    exact ⟨hw.text hnone, hw.values hnone, writeHeaders_ok hbh⟩

end SingBox.Awg
