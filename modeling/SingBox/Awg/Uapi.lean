import SingBox.Awg.Device
import SingBox.Lib.Run

/-!
# The configuration protocol of a device (`device/uapi.go`)

`IpcSetOperation` reads a text line by line.  Before the first `public_key` line the lines configure the
device: most take effect at once, the framing options are staged in an `IpcSetDevice`.  The staged
framing is merged at the first `public_key` line, at a blank line and at the end of the text.

The operation is a small machine: `begin` reads the text into lines and `advance` is one round of the
loop.  Peers are not part of the state; what the operating system and the peer table answer to a line is
an input of its round (`Answers`).
-/

namespace SingBox.Awg

open SingBox.Lib

/-! ### Errors -/

inductive IpcErrorCode where
  | io | protocol | invalid | portInUse
  deriving DecidableEq, Repr

/-- An `IPCError`; of its text, the part before the wrapped error or the value. -/
structure IpcError where
  code : IpcErrorCode
  text : String
  deriving DecidableEq, Repr

def invalid {α : Type} (text : String) : Except IpcError α := .error ⟨.invalid, text⟩

/-! ### Lines -/

/-- The longest line, without its end, that fits the buffer of a `bufio.Scanner`. -/
def maxLine : ℕ := 65535

/-- A line without a carriage return at its end. -/
def dropCR (line : GoString) : GoString := if line.getLast? = some 0x0d then line.dropLast else line

/-- The lines of a text up to the first that is too long, and whether there is such a line. -/
def scanPieces : List GoString → List GoString × Bool
  | [] => ([], false)
  | [p] => if p = [] then ([], false) else if maxLine < p.length then ([], true) else ([dropCR p], false)
  | p :: q :: ps =>
    if maxLine < p.length then ([], true)
    else (dropCR p :: (scanPieces (q :: ps)).1, (scanPieces (q :: ps)).2)

def scan (text : GoString) : List GoString × Bool := scanPieces (split 0x0a text)

/-! ### Device lines -/

inductive DeviceKey where
  | privateKey | listenPort | fwmark | replacePeers
  | jc | jmin | jmax
  | s (t : MessageType)
  | h (t : MessageType)
  | i (k : Fin 5)
  | randomTrailers | disableCookies | headerProtectionKey | contentPaddingAddition | rekeyAfterTime
  deriving DecidableEq, Repr

namespace DeviceKey

def name : DeviceKey → String
  | privateKey => "private_key"
  | listenPort => "listen_port"
  | fwmark => "fwmark"
  | replacePeers => "replace_peers"
  | jc => "jc"
  | jmin => "jmin"
  | jmax => "jmax"
  | s t => "s" ++ toString t.number
  | h t => "h" ++ toString t.number
  | i k => "i" ++ toString (k.val + 1)
  | randomTrailers => "random_trailers"
  | disableCookies => "disable_cookies"
  | headerProtectionKey => "header_protection_key"
  | contentPaddingAddition => "content_padding_addition"
  | rekeyAfterTime => "rekey_after_time"

def all : List DeviceKey :=
  [privateKey, listenPort, fwmark, replacePeers, jc, jmin, jmax] ++ messageTypes.map s ++
    messageTypes.map h ++ (List.finRange 5).map i ++
    [randomTrailers, disableCookies, headerProtectionKey, contentPaddingAddition, rekeyAfterTime]

def ofName (key : GoString) : Option DeviceKey := all.find? fun k => ascii k.name = key

end DeviceKey

/-- What the world answers while a line is handled. -/
structure Answers where
  bindUpdate : Bool := true
  bindSetMark : Bool := true
  newPeer : Bool := true
  parseEndpoint : Bool := true
  parsePrefix : Bool := true

/-- `loadExactHex` for 32 bytes. -/
def loadExactHex (src : GoString) : Option HeaderCipherKey :=
  match decodeHex src with
  | none => none
  | some bytes => if h : bytes.length = 32 then some ⟨bytes, h⟩ else none

def parseJunk (key : DeviceKey) (value : GoString) : Except IpcError ℤ :=
  match atoi value with
  | .error _ => invalid ("failed to parse " ++ key.name)
  | .ok n => if n ≤ 0 then invalid (key.name ++ " must be a positive value") else .ok n

def parsePadding (key : DeviceKey) (value : GoString) : Except IpcError ℤ :=
  match atoi value with
  | .error _ => invalid ("failed to parse " ++ key.name)
  | .ok n => if n < 0 then invalid (key.name ++ " must be non-negative") else .ok n

/-- The result of a parser, with the text of its error. -/
def orInvalid {ε α : Type} (text : String) : Except ε α → Except IpcError α
  | .ok v => .ok v
  | .error _ => invalid text

def checkUint (bitSize : ℕ) (text : String) (value : GoString) : Except IpcError Unit :=
  match parseUint bitSize value with
  | .ok _ => .ok ()
  | .error _ => invalid text

section

variable {κ : Type}

/-- The device and the staged framing after a device line. -/
def handleKey (a : Answers) (dev : Device κ) (d : IpcSetDevice) (value : GoString) :
    DeviceKey → Except IpcError (Device κ × IpcSetDevice)
  | .privateKey =>
    match loadExactHex value with
    | none => invalid "failed to set private_key"
    | some _ => .ok (dev, d)
  | .listenPort => do
    checkUint 16 "failed to parse listen_port" value
    if a.bindUpdate then return (dev, d) else throw ⟨.portInUse, "failed to set listen_port"⟩
  | .fwmark => do
    checkUint 32 "invalid fwmark" value
    if a.bindSetMark then return (dev, d) else throw ⟨.portInUse, "failed to update fwmark"⟩
  | .replacePeers =>
    if value = ascii "true" then .ok (dev, d) else invalid "failed to set replace_peers, invalid value"
  | .jc => do
    let n ← parseJunk .jc value
    return ({ dev with junk := { dev.junk with count := n } }, d)
  | .jmin => do
    let n ← parseJunk .jmin value
    return ({ dev with junk := { dev.junk with min := n } }, d)
  | .jmax => do
    let n ← parseJunk .jmax value
    return ({ dev with junk := { dev.junk with max := n } }, d)
  | .s t => do
    let n ← parsePadding (.s t) value
    return (dev, { d with paddings := fun u => if u = t then n else d.paddings u })
  | .h t => do
    let h ← orInvalid ("failed to parse H" ++ toString t.number) (newMagicHeader value)
    return (dev, { d with headers := fun u => if u = t then some h else d.headers u })
  | .i k => do
    let c ← orInvalid ("failed to parse I" ++ toString (k.val + 1)) (newObfChain value)
    return ({ dev with ipackets := fun j => if j = k then some c else dev.ipackets j }, d)
  | .randomTrailers => do
    let b ← orInvalid "failed to parse random_trailers" (parseBool value)
    return ({ dev with randomTrailers := b }, d)
  | .disableCookies => do
    let b ← orInvalid "failed to parse disable_cookies" (parseBool value)
    return ({ dev with disableCookies := b }, d)
  | .headerProtectionKey =>
    match loadExactHex value with
    | none => invalid "failed to set header_protection_key"
    | some k => .ok (dev, { d with headerProtectionKey := some k })
  | .contentPaddingAddition => do
    let r ← orInvalid "failed to parse content_padding_addition" (UintRange.fromString value)
    return ({ dev with contentPaddingAddition := r }, d)
  | .rekeyAfterTime => do
    let r ← orInvalid "failed to parse rekey after time" (UintRange.fromString value)
    return ({ dev with rekeyAfterTimeSec := r }, d)

def handleDeviceLine (a : Answers) (dev : Device κ) (d : IpcSetDevice) (key value : GoString) :
    Except IpcError (Device κ × IpcSetDevice) :=
  match DeviceKey.ofName key with
  | none => invalid "invalid UAPI device key"
  | some k => handleKey a dev d value k

/-! ### Peer lines -/

def handlePublicKeyLine (a : Answers) (value : GoString) : Except IpcError Unit :=
  match loadExactHex value with
  | none => invalid "failed to get peer by public key"
  | some _ => if a.newPeer then .ok () else invalid "failed to create new peer"

def handlePeerLine (a : Answers) (key value : GoString) : Except IpcError Unit :=
  if key = ascii "update_only" then
    if value = ascii "true" then .ok () else invalid "failed to set update only, invalid value"
  else if key = ascii "remove" then
    if value = ascii "true" then .ok () else invalid "failed to set remove, invalid value"
  else if key = ascii "preshared_key" then
    if (loadExactHex value).isSome then .ok () else invalid "failed to set preshared key"
  else if key = ascii "endpoint" then
    if a.parseEndpoint then .ok () else invalid "failed to set endpoint"
  else if key = ascii "persistent_keepalive_interval" then
    checkUint 16 "failed to set persistent keepalive interval" value
  else if key = ascii "replace_allowed_ips" then
    if value = ascii "true" then .ok () else invalid "failed to replace allowedips, invalid value"
  else if key = ascii "allowed_ip" then
    if a.parsePrefix then .ok () else invalid "failed to set allowed ip"
  else if key = ascii "protocol_version" then
    if value = ascii "1" then .ok () else invalid "invalid protocol version"
  else invalid "invalid UAPI peer key"

/-! ### The operation -/

/-- A running operation: the staged framing, whether device lines are still read, the lines to come,
and what the scanner does after them.  `before` and `read` are the framing state the operation started
with and the lines it has read. -/
structure IpcRun where
  ipcDev : IpcSetDevice
  deviceConfig : Bool
  lines : List GoString
  tooLong : Bool
  before : Wire
  read : List GoString

structure IpcResult where
  err : Option IpcError
  before : Wire
  read : List GoString

/-- The device, the running operation (`ipcMutex` lets only one run) and the result of the last one. -/
structure IpcState (κ : Type) where
  dev : Device κ
  run : Option IpcRun := none
  result : Option IpcResult := none

inductive IpcEvent where
  | begin (text : GoString)
  | advance (a : Answers)

def IpcRun.finish (r : IpcRun) (dev : Device κ) (err : Option IpcError) : IpcState κ :=
  { dev, result := some ⟨err, r.before, r.read⟩ }

/-- A merge; `next` is what the operation does after a successful one. -/
def IpcRun.merge (r : IpcRun) (dev : Device κ) (next : IpcRun → Device κ → IpcState κ) : IpcState κ :=
  match r.ipcDev.mergeWithDevice dev.wire with
  | .error _ => r.finish dev (some ⟨.invalid, "failed to merge with device"⟩)
  | .ok (ipcDev, wire) => next { r with ipcDev } { dev with wire }

def IpcRun.configLine (r : IpcRun) (a : Answers) (dev : Device κ) (key value : GoString) : IpcState κ :=
  if r.deviceConfig then
    match handleDeviceLine a dev r.ipcDev key value with
    | .error e => r.finish dev (some e)
    | .ok (dev, ipcDev) => { dev, run := some { r with ipcDev } }
  else
    match handlePeerLine a key value with
    | .error e => r.finish dev (some e)
    | .ok () => { dev, run := some r }

def IpcRun.publicKey (r : IpcRun) (a : Answers) (dev : Device κ) (value : GoString) : IpcState κ :=
  match handlePublicKeyLine a value with
  | .error e => r.finish dev (some e)
  | .ok () => { dev, run := some { r with deviceConfig := false } }

def IpcRun.line (r : IpcRun) (a : Answers) (dev : Device κ) (line : GoString) : IpcState κ :=
  if line = [] then r.merge dev fun r dev => r.finish dev none
  else
    match cut 0x3d line with
    | none => r.finish dev (some ⟨.protocol, "failed to parse line"⟩)
    | some (key, value) =>
      if key = ascii "public_key" then
        if r.deviceConfig then r.merge dev fun r dev => r.publicKey a dev value
        else r.publicKey a dev value
      else r.configLine a dev key value

/-- One round of the loop, or the end of the input. -/
def IpcRun.advance (r : IpcRun) (a : Answers) (dev : Device κ) : IpcState κ :=
  match r.lines with
  | line :: rest => IpcRun.line { r with lines := rest, read := r.read ++ [line] } a dev line
  | [] =>
    if r.tooLong then r.finish dev (some ⟨.io, "failed to read input"⟩)
    else r.merge dev fun r dev => r.finish dev none

def beginSet (dev : Device κ) (text : GoString) : IpcState κ where
  dev := dev
  run := some {
    ipcDev := { paddings := dev.wire.paddings, headerProtectionKey := dev.wire.key }
    deviceConfig := true
    lines := (scan text).1
    tooLong := (scan text).2
    before := dev.wire
    read := [] }

def ipcStep (s : IpcState κ) : IpcEvent → Option (IpcState κ)
  | .begin text => if s.run.isNone then some (beginSet s.dev text) else none
  | .advance a => s.run.map fun r => r.advance a s.dev

/-! ### Device lines only stage the framing -/

lemma handleKey_wire {a : Answers} {dev dev' : Device κ} {d d' : IpcSetDevice} {value : GoString}
    {k : DeviceKey} (h : handleKey a dev d value k = .ok (dev', d')) : dev'.wire = dev.wire := by
  cases k with
  | privateKey | headerProtectionKey | replacePeers =>
    simp only [handleKey] at h
    split at h <;> cases h
    rfl
  | listenPort | fwmark =>
    obtain ⟨_, -, h⟩ := Except.bind_ok h
    split at h <;> cases h
    rfl
  | _ =>
    obtain ⟨_, -, h⟩ := Except.bind_ok h
    cases h
    rfl

lemma handleDeviceLine_wire {a : Answers} {dev dev' : Device κ} {d d' : IpcSetDevice}
    {key value : GoString} (h : handleDeviceLine a dev d key value = .ok (dev', d')) : dev'.wire = dev.wire := by
  unfold handleDeviceLine at h
  split at h
  · cases h
  · exact handleKey_wire h

lemma newWire_valid : newWire.Valid where
  header t := ⟨_, rfl, by cases t <;> decide⟩
  disjoint t u h k htu hh hk := by
    cases hh
    cases hk
    revert htu
    cases t <;> cases u <;> decide
  nonneg _ := le_refl _
  fits t := by cases t <;> decide
  nonce hk := absurd hk (by decide)

def IsPublicKeyLine (line : GoString) : Prop :=
  ∃ value, cut 0x3d line = some (ascii "public_key", value)

/-- While device lines are read, the framing is as it was; afterwards a `public_key` line was read. -/
structure RunInv (wire : Wire) (r : IpcRun) : Prop where
  device : r.deviceConfig = true → wire = r.before
  peers : r.deviceConfig = false → ∃ line ∈ r.read, IsPublicKeyLine line

/-- An operation that failed without having read a `public_key` line left the framing as it was. -/
def FailureKeeps (wire : Wire) (res : IpcResult) : Prop :=
  res.err.isSome → (∀ line ∈ res.read, ¬ IsPublicKeyLine line) → wire = res.before

structure IpcInv (s : IpcState κ) : Prop where
  valid : s.dev.wire.Valid
  run : ∀ r, s.run = some r → RunInv s.dev.wire r
  result : ∀ res, s.result = some res → FailureKeeps s.dev.wire res

variable {dev : Device κ} {r : IpcRun} {a : Answers}

lemma IpcInv.of_run (hv : dev.wire.Valid) (hr : RunInv dev.wire r) : IpcInv { dev, run := some r } := by
  refine ⟨hv, ?_, fun _ h => nomatch h⟩
  rintro _ ⟨⟩
  exact hr

lemma IpcRun.finish_inv {err : Option IpcError} (hv : dev.wire.Valid)
    (h : err.isSome → (∀ line ∈ r.read, ¬ IsPublicKeyLine line) → dev.wire = r.before) : IpcInv (r.finish dev err) := by
  refine ⟨hv, fun _ h => (nomatch h), ?_⟩
  rintro _ ⟨⟩
  exact h

lemma IpcRun.fail_inv {e : IpcError} (hv : dev.wire.Valid) (hr : RunInv dev.wire r) :
    IpcInv (r.finish dev (some e)) := by
  refine finish_inv hv fun _ hno => ?_
  cases hd : r.deviceConfig with
  | true => exact hr.device hd
  | false =>
    obtain ⟨line, hmem, hpk⟩ := hr.peers hd
    exact absurd hpk (hno line hmem)

lemma IpcRun.merge_inv {next : IpcRun → Device κ → IpcState κ} (hv : dev.wire.Valid) (hr : RunInv dev.wire r)
    (hnext : ∀ ipcDev wire, wire.Valid → IpcInv (next { r with ipcDev } { dev with wire })) :
    IpcInv (r.merge dev next) := by
  unfold IpcRun.merge
  split
  · exact fail_inv hv hr
  next h => exact hnext _ _ (IpcSetDevice.mergeWithDevice_ok h).1

lemma IpcRun.configLine_inv {key value : GoString} (hv : dev.wire.Valid) (hr : RunInv dev.wire r) :
    IpcInv (r.configLine a dev key value) := by
  unfold IpcRun.configLine
  split
  · split
    · exact fail_inv hv hr
    next h =>
      have hw := handleDeviceLine_wire h
      exact .of_run (hw ▸ hv) ⟨fun hd => hw ▸ hr.device hd, hr.peers⟩
  · split
    · exact fail_inv hv hr
    · exact .of_run hv hr

lemma IpcRun.publicKey_inv {value : GoString} (hv : dev.wire.Valid)
    (hpk : ∃ line ∈ r.read, IsPublicKeyLine line) : IpcInv (r.publicKey a dev value) := by
  unfold IpcRun.publicKey
  split
  · refine finish_inv hv fun _ hno => ?_
    obtain ⟨line, hmem, h⟩ := hpk
    exact absurd h (hno line hmem)
  · exact .of_run hv ⟨fun h => (nomatch h), fun _ => hpk⟩

lemma IpcRun.line_inv {line : GoString} (hv : dev.wire.Valid) (hr : RunInv dev.wire r)
    (hmem : line ∈ r.read) : IpcInv (r.line a dev line) := by
  unfold IpcRun.line
  split
  · exact merge_inv hv hr fun _ _ hw => finish_inv hw fun h => (nomatch h)
  · split
    · exact fail_inv hv hr
    next key value hcut =>
      split
      next hkey =>
        subst hkey
        have hpk : ∃ line ∈ r.read, IsPublicKeyLine line := ⟨line, hmem, value, hcut⟩
        split
        · exact merge_inv hv hr fun _ _ hw => publicKey_inv hw hpk
        · exact publicKey_inv hv hpk
      · exact configLine_inv hv hr

lemma IpcRun.advance_inv (hv : dev.wire.Valid) (hr : RunInv dev.wire r) : IpcInv (r.advance a dev) := by
  unfold IpcRun.advance
  split
  · refine line_inv hv ⟨hr.device, fun hd => ?_⟩ (by simp)
    obtain ⟨l, hl, hpk⟩ := hr.peers hd
    exact ⟨l, List.mem_append_left _ hl, hpk⟩
  · split
    · exact fail_inv hv hr
    · exact merge_inv hv hr fun _ _ hw => finish_inv hw fun h => (nomatch h)

lemma ipcStep_inv (s : IpcState κ) (e : IpcEvent) (t : IpcState κ) (h : ipcStep s e = some t)
    (hs : IpcInv s) : IpcInv t := by
  cases e with
  | begin text =>
    simp only [ipcStep, Option.ite_none_right_eq_some, Option.some.injEq] at h
    obtain ⟨-, rfl⟩ := h
    exact .of_run hs.valid ⟨fun _ => rfl, fun h => (nomatch h)⟩
  | advance a =>
    obtain ⟨r, hr, rfl⟩ := Option.map_eq_some_iff.1 h
    exact IpcRun.advance_inv hs.valid (hs.run r hr)

/-! ### The framing invariant -/

/-- **The framing state stays valid.**  Through any sequence of configuration texts, also between two lines: the framing
state is valid; an operation that failed before its first `public_key` line left it as it was; and each header range
generates a word that it validates. -/
theorem framing_invariant (κ : Type) (mtu : ℤ) (es : List IpcEvent) :
    VisitAll ipcStep (fun s : IpcState κ => s.dev.wire.Valid ∧
      (∀ res, s.result = some res → res.err.isSome → (∀ line ∈ res.read, ¬ IsPublicKeyLine line) →
        s.dev.wire = res.before) ∧
      ∀ t draw, ∃ h val, s.dev.wire.headers t = some h ∧ h.generate draw = .ok val ∧
        h.validate val = true) { dev := newDevice κ mtu } es := by
  have hinit : IpcInv ({ dev := newDevice κ mtu } : IpcState κ) :=
    ⟨newWire_valid, fun _ h => (nomatch h), fun _ h => (nomatch h)⟩
  refine (visitAll_of_inv ipcStep_inv es hinit).imp fun s hs => ⟨hs.valid, hs.result, fun t draw => ?_⟩
  obtain ⟨h, hh, hfull⟩ := hs.valid.header t
  obtain ⟨val, hgen, hval⟩ := MagicHeader.generate_validates hfull draw
  exact ⟨h, val, hh, hgen, hval⟩

end

end SingBox.Awg
