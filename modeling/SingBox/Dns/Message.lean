import SingBox.Lib.Netip

/-!
# DNS messages

The part of a DNS message that the client reads and writes, and the functions of the client on messages: times to
live, the options of a query, and the client subnet.
-/

namespace SingBox.Dns

/-! ### Addresses -/

/-- `netip.Addr`. -/
inductive Addr where
  | v4 (bits : BitVec 32)
  | v6 (bits : BitVec 128)
  deriving DecidableEq

def Addr.is4 : Addr → Bool
  | .v4 _ => true
  | .v6 _ => false

def Addr.bitLen : Addr → ℕ
  | .v4 _ => 32
  | .v6 _ => 128

/-- The address of an IPv4-mapped one. -/
def Addr.unmap : Addr → Addr
  | .v4 bits => .v4 bits
  | .v6 bits => if bits.toNat / 2 ^ 32 = 0xffff then .v4 (bits.setWidth 32) else .v6 bits

def Addr.string : Addr → String
  | .v4 bits => String.ofList (Lib.string4 bits)
  | .v6 bits => String.ofList (Lib.string16 bits)

/-- `netip.Prefix`: valid if it has a length. -/
structure Subnet where
  addr : Option Addr := none
  bits : Option ℕ := none
  deriving DecidableEq

def Subnet.isValid (p : Subnet) : Bool := p.bits.isSome

/-- `netip.PrefixFrom`: an address and a length, which has to fit. -/
def Subnet.ofAddr (addr : Addr) (bits : ℕ) : Subnet :=
  { addr := some addr, bits := if bits ≤ addr.bitLen then some bits else none }

def Subnet.string (p : Subnet) : String :=
  match p.bits with
  | none => "invalid Prefix"
  | some bits => p.addr.elim "invalid IP" Addr.string ++ "/" ++ String.ofList (Lib.formatBase 10 bits)

/-! ### Records -/

def typeA : ℕ := 1
def typeOPT : ℕ := 41
def typeHTTPS : ℕ := 65

def rcodeSuccess : ℕ := 0

def edns0Subnet : ℕ := 8

/-- An EDNS option.  The address of a client subnet is there if its bytes are those of an address. -/
inductive EDNS0 where
  | subnet (family sourceNetmask sourceScope : ℕ) (address : Option Addr)
  | other (code : ℕ) (data : List UInt8)
  deriving DecidableEq

def EDNS0.option : EDNS0 → ℕ
  | .subnet .. => edns0Subnet
  | .other code _ => code

def EDNS0.isSubnet : EDNS0 → Bool
  | .subnet .. => true
  | .other .. => false

/-- A parameter of an HTTPS record; a hint is there if its bytes are those of an address. -/
inductive SVCBValue where
  | ipv4Hint (hints : List (Option Addr))
  | ipv6Hint (hints : List (Option Addr))
  | other (key : ℕ)
  deriving DecidableEq

inductive RData where
  | a (addr : Option Addr)
  | aaaa (addr : Option Addr)
  | soa (minTTL : ℕ)
  | https (values : List SVCBValue)
  | opt (options : List EDNS0)
  | other (data : List UInt8)
  deriving DecidableEq

structure RR where
  name : String := ""
  rrtype : ℕ
  cls : ℕ := 1
  ttl : ℕ := 0
  data : RData
  deriving DecidableEq

structure Question where
  name : String := ""
  qtype : ℕ := 0
  qclass : ℕ := 1
  deriving DecidableEq

structure Msg where
  id : ℕ := 0
  response : Bool := false
  authoritative : Bool := false
  recursionDesired : Bool := false
  recursionAvailable : Bool := false
  rcode : ℕ := rcodeSuccess
  question : List Question := []
  answer : List RR := []
  ns : List RR := []
  extra : List RR := []
  deriving DecidableEq

/-! ### Times to live -/

def extractNegativeTTL (response : Msg) : Option ℕ :=
  response.ns.findSome? fun r =>
    match r.data with
    | .soa minTTL => some (min r.ttl minTTL)
    | _ => none

/-- A turn of the loop of `computeTimeToLive`. -/
def lowerTTL (timeToLive : ℕ) (r : RR) : ℕ :=
  if r.rrtype = typeOPT then timeToLive
  else if timeToLive = 0 ∨ 0 < r.ttl ∧ r.ttl < timeToLive then r.ttl
  else timeToLive

def computeTimeToLive (response : Msg) : ℕ :=
  let all := (response.answer ++ response.ns ++ response.extra).foldl lowerTTL 0
  if response.answer.isEmpty then (extractNegativeTTL response).getD all else all

def RR.withTTL (timeToLive : ℕ) (r : RR) : RR := if r.rrtype = typeOPT then r else { r with ttl := timeToLive }

def normalizeTTL (response : Msg) (timeToLive : ℕ) : Msg :=
  { response with
    answer := response.answer.map (RR.withTTL timeToLive)
    ns := response.ns.map (RR.withTTL timeToLive)
    extra := response.extra.map (RR.withTTL timeToLive) }

/-! ### Query options -/

inductive DomainStrategy where
  | asIS | preferIPv4 | preferIPv6 | ipv4Only | ipv6Only
  deriving DecidableEq

structure QueryOptions where
  strategy : DomainStrategy := .asIS
  lookupStrategy : DomainStrategy := .asIS
  disableCache : Bool := false
  disableOptimisticCache : Bool := false
  rewriteTTL : Option ℕ := none
  timeout : ℕ := 0
  clientSubnet : Subnet := {}
  removeClientSubnet : Bool := false
  deriving DecidableEq

/-- The strategy keeps a hint of an HTTPS record. -/
def DomainStrategy.keepsHint : DomainStrategy → SVCBValue → Bool
  | .ipv4Only, .ipv6Hint _ => false
  | .ipv6Only, .ipv4Hint _ => false
  | _, _ => true

def RR.filterHints (strategy : DomainStrategy) (r : RR) : RR :=
  match r.data with
  | .https values => { r with data := .https (values.filter strategy.keepsHint) }
  | _ => r

def applyResponseOptions (question : Question) (response : Msg) (options : QueryOptions) : ℕ × Msg :=
  let response :=
    if question.qtype = typeHTTPS ∧ (options.strategy = .ipv4Only ∨ options.strategy = .ipv6Only) then
      { response with answer := response.answer.map (RR.filterHints options.strategy) }
    else response
  let timeToLive := options.rewriteTTL.getD (computeTimeToLive response)
  (timeToLive, normalizeTTL response timeToLive)

/-! ### The client subnet -/

def RR.subnets (r : RR) : List EDNS0 :=
  match r.data with
  | .opt options => options.filter EDNS0.isSubnet
  | _ => []

def clientSubnetFromMessage (message : Msg) : Subnet :=
  match message.extra.flatMap RR.subnets with
  | .subnet _ sourceNetmask _ (some address) :: _ => .ofAddr address.unmap sourceNetmask
  | _ => {}

def removeClientSubnet (message : Msg) : Msg :=
  { message with extra := message.extra.map fun r =>
      match r.data with
      | .opt options => { r with data := .opt (options.filter fun it => it.option != edns0Subnet) }
      | _ => r }

/-- The loop `findExists` of `setClientSubnet`: the first OPT record with a client subnet, or else the last record, if
it is an OPT record. -/
def findExists (extra : List RR) : Option ℕ :=
  match extra.findIdx? fun r => !r.subnets.isEmpty with
  | some i => some i
  | none =>
    match extra.getLast? with
    | some { data := .opt _, .. } => some (extra.length - 1)
    | _ => none

/-- The options of an OPT record with the subnet set: in the first client subnet, or in a new one at the end. -/
def setSubnetOption (address : Addr) (bits : ℕ) : List EDNS0 → List EDNS0
  | [] => [.subnet (if address.is4 then 1 else 2) (bits % 2 ^ 8) 0 (some address)]
  | .subnet _ _ sourceScope _ :: options =>
    .subnet (if address.is4 then 1 else 2) (bits % 2 ^ 8) sourceScope (some address) :: options
  | .other code data :: options => .other code data :: setSubnetOption address bits options

def RR.setSubnet (address : Addr) (bits : ℕ) (r : RR) : RR :=
  match r.data with
  | .opt options => { r with data := .opt (setSubnetOption address bits options) }
  | _ => r

/-- `SetClientSubnet`, for a valid subnet. -/
def setClientSubnet (message : Msg) (address : Addr) (bits : ℕ) : Msg :=
  match findExists message.extra with
  | some i => { message with extra := message.extra.modify i (RR.setSubnet address bits) }
  | none =>
    { message with extra := message.extra ++
        [{ name := ".", rrtype := typeOPT, cls := 0, data := .opt (setSubnetOption address bits []) }] }

end SingBox.Dns
