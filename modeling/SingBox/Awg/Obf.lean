import SingBox.Lib.GoString

/-!
# Signature packets (`device/obf.go`, `device/obf_*.go`)

The options `i1` … `i5` hold packets written as a chain of tags, `<b 0x…>`, `<r 16>` and so on.
`newObfChain` reads the tags one by one; text between tags is skipped.  It goes on after a bad tag to
collect all errors, and stops at once at a missing `>` or when the chain exceeds the packet limit.
-/

namespace SingBox.Awg

open SingBox.Lib

/-- `MaxMessageSize` is 65535 in the default build; the IPv4 UDP payload limit is below it. -/
def maxMessageSize : ℤ := 65535

def awgMaxPacketSize : ℤ := min maxMessageSize 65507

/-! ### Tags -/

/-- The parts of a chain: one constructor for each implementation of the interface `obf`. -/
inductive Obf where
  | bytes (content : GoString)
  | timestamp
  | rand (length : ℤ)
  | randChar (length : ℤ)
  | randDigits (length : ℤ)
  | data
  | dataString
  | dataSize (length : ℤ)
  deriving DecidableEq, Repr

/-- `ObfuscatedLen`; that of `ds` is `base64.RawStdEncoding.EncodedLen`. -/
def Obf.obfuscatedLen (n : ℤ) : Obf → ℤ
  | .bytes content => content.length
  | .timestamp => 4
  | .rand length => length
  | .randChar length => length
  | .randDigits length => length
  | .data => n
  | .dataString => n / 3 * 4 + (n % 3 * 8 + 5) / 6
  | .dataSize length => length

inductive BuildError where
  | new (text : String)
  | hex
  deriving DecidableEq, Repr

def parseCPSLength (val : GoString) : Except BuildError ℤ :=
  match atoi val with
  | .ok length =>
    if length < 0 ∨ length > awgMaxPacketSize then
      .error (.new "CPS length must be between 0 and the packet limit")
    else .ok length
  | .error _ => .error (.new "CPS length must be between 0 and the packet limit")

/-- `strings.TrimPrefix(val, "0x")`. -/
def trimHexMark (val : GoString) : GoString :=
  if (ascii "0x").isPrefixOf val then val.drop 2 else val

def newBytesObf (val : GoString) : Except BuildError Obf :=
  let val := trimHexMark val
  if val.length = 0 then .error (.new "empty argument")
  else if val.length % 2 ≠ 0 then .error (.new "odd amount of symbols")
  else if ((val.length / 2 : ℕ) : ℤ) > awgMaxPacketSize then
    .error (.new "CPS bytes exceed packet limit")
  else match decodeHex val with
    | some bytes => .ok (.bytes bytes)
    | none => .error .hex

def obfBuilder (key val : GoString) : Option (Except BuildError Obf) :=
  if key = ascii "b" then some (newBytesObf val)
  else if key = ascii "t" then some (.ok .timestamp)
  else if key = ascii "r" then some ((parseCPSLength val).map .rand)
  else if key = ascii "rc" then some ((parseCPSLength val).map .randChar)
  else if key = ascii "rd" then some ((parseCPSLength val).map .randDigits)
  else if key = ascii "d" then some (.ok .data)
  else if key = ascii "ds" then some (.ok .dataString)
  else if key = ascii "dz" then some ((parseCPSLength val).map .dataSize)
  else none

/-! ### Chains -/

structure ObfChain where
  spec : GoString
  obfs : List Obf
  deriving DecidableEq, Repr

inductive ObfError where
  | missingClose
  | emptyTag
  | unknownTag (key : GoString)
  | build (key : GoString) (cause : BuildError)
  | tooLong
  deriving DecidableEq, Repr

def parseTag (tag : GoString) : Except ObfError Obf :=
  match fields tag with
  | [] => .error .emptyTag
  | key :: args =>
    match obfBuilder key (args.headD []) with
    | none => .error (.unknownTag key)
    | some (.error cause) => .error (.build key cause)
    | some (.ok o) => .ok o

/-- The loop of `newObfChain`.  Every round takes at least two bytes off `remaining`, so that its
length is fuel enough. -/
def obfLoop : ℕ → GoString → ℤ → List Obf → List ObfError → Except (List ObfError) (List Obf)
  | 0, _, _, obfs, errs => if errs = [] then .ok obfs else .error errs
  | fuel + 1, remaining, total, obfs, errs =>
    match cut 0x3c remaining with
    | none => if errs = [] then .ok obfs else .error errs
    | some (_, tagAndRest) =>
      match cut 0x3e tagAndRest with
      | none => .error [.missingClose]
      | some (tag, rest) =>
        match parseTag tag with
        | .error e => obfLoop fuel rest total obfs (errs ++ [e])
        | .ok o =>
          if o.obfuscatedLen 0 < 0 ∨ o.obfuscatedLen 0 > awgMaxPacketSize - total then
            .error [.tooLong]
          else obfLoop fuel rest (total + o.obfuscatedLen 0) (obfs ++ [o]) errs

def newObfChain (spec : GoString) : Except (List ObfError) ObfChain :=
  (obfLoop spec.length spec 0 [] []).map fun obfs => ⟨spec, obfs⟩

end SingBox.Awg
