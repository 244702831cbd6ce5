import SingBox.Dns.Message
import SingBox.Lib.Bytes
import SingBox.Lib.Goroutine

/-!
# The FakeIP store

`Store` hands out addresses of a range of each family for domains, one after the other and from the start again at the
end of the range; its storage keeps which address a domain has and which domain an address has.  There are two:
`MemoryStorage`, of maps, and `CacheFile`, of buckets of a database whose keys and values are bytes.  A transaction on
the database that fails leaves it as it was.

The sections of a call are what it does under one lock of the storage, or in one transaction, and what `Create` does
between them while it holds `addressAccess`.  A domain is handed its address where it is loaded, or where it is stored.
`M.AddrFromIP` is a parameter.
-/

namespace SingBox.FakeIp

open Lib Dns

/-! ### Addresses -/

/-- `netip.Addr`, whose zero value is not a valid address. -/
abbrev NetAddr := Option Addr

/-- `netip.Addr.Is4` -/
def is4 (address : NetAddr) : Bool := address.any Addr.is4

/-- `netip.Addr.AsSlice` -/
def asSlice : NetAddr → GoString
  | none => []
  | some (.v4 bits) => toBytes 4 bits.toNat
  | some (.v6 bits) => toBytes 16 bits.toNat

/-- `netip.AddrFromSlice` -/
def addrFromSlice (b : GoString) : NetAddr :=
  if b.length = 4 then some (.v4 (BitVec.ofNat 32 (ofBytes b)))
  else if b.length = 16 then some (.v6 (BitVec.ofNat 128 (ofBytes b)))
  else none

section Range

variable {w : ℕ}

/-- `netip.Addr.Next` of an address of `w` bits. -/
def next (address : BitVec w) : Option (BitVec w) := if address + 1 = 0 then none else some (address + 1)

/-- A valid `netip.Prefix` of addresses of `w` bits. -/
structure Range (w : ℕ) where
  addr : BitVec w
  bits : Fin (w + 1)
  deriving DecidableEq

namespace Range

/-- `broadcastAddress` -/
def last (r : Range w) : BitVec w := r.addr ||| BitVec.ofNat w (2 ^ (w - r.bits) - 1)

/-- `netip.Prefix.Contains` -/
def contains (r : Range w) (address : BitVec w) : Bool := (address ^^^ r.addr) >>> (w - r.bits : ℕ) == 0

/-- The address after the current one, or the start of the range. -/
def nextAddress (r : Range w) (current : BitVec w) : Option (BitVec w) :=
  match next current with
  | some address =>
    if address = r.last ∨ r.contains address = false then (next r.addr).bind next else some address
  -- the zero address is in no range
  | none => (next r.addr).bind next

end Range

end Range

/-! ### Storages -/

abbrev Map (α β : Type) := α → Option β

structure MemoryStorage where
  addressCache : Map NetAddr GoString := fun _ => none
  domainCache4 : Map GoString NetAddr := fun _ => none
  domainCache6 : Map GoString NetAddr := fun _ => none

namespace MemoryStorage

def fakeIPStore (s : MemoryStorage) (address : NetAddr) (domain : GoString) : MemoryStorage :=
  let s' : MemoryStorage :=
    match s.addressCache address with
    | some oldDomain =>
      if is4 address then { s with domainCache4 := Function.update s.domainCache4 oldDomain none }
      else { s with domainCache6 := Function.update s.domainCache6 oldDomain none }
    | none => s
  let s'' : MemoryStorage := { s' with addressCache := Function.update s'.addressCache address (some domain) }
  if is4 address then { s'' with domainCache4 := Function.update s''.domainCache4 domain (some address) }
  else { s'' with domainCache6 := Function.update s''.domainCache6 domain (some address) }

def fakeIPLoad (s : MemoryStorage) (address : NetAddr) : Option GoString := s.addressCache address

def fakeIPLoadDomain (s : MemoryStorage) (domain : GoString) (isIPv6 : Bool) : Option NetAddr :=
  if !isIPv6 then s.domainCache4 domain else s.domainCache6 domain

end MemoryStorage

/-- `FakeIPMetadata` -/
structure Metadata where
  inet4Range : Option (Range 32)
  inet6Range : Option (Range 128)
  inet4Current : Option (BitVec 32)
  inet6Current : Option (BitVec 128)
  deriving DecidableEq

/-- `netip.Prefix.MarshalBinary`: the zero prefix has -1 bits. -/
def marshalPrefix (address : NetAddr) (bits : Option ℕ) : GoString :=
  asSlice address ++ [bits.elim 255 (BitVec.ofNat 8 ·)]

/-- `FakeIPMetadata.MarshalBinary` -/
def Metadata.marshalBinary (m : Metadata) : GoString :=
  [marshalPrefix (m.inet4Range.map fun r => .v4 r.addr) (m.inet4Range.map fun r => r.bits),
    marshalPrefix (m.inet6Range.map fun r => .v6 r.addr) (m.inet6Range.map fun r => r.bits),
    asSlice (m.inet4Current.map .v4), asSlice (m.inet6Current.map .v6)].flatMap fun data =>
      putBeUint16 (BitVec.ofNat 16 data.length) ++ data

/-- The buckets of the database; one that does not exist is empty. -/
structure Database where
  bucketFakeIP : Map GoString GoString := fun _ => none
  bucketFakeIPDomain4 : Map GoString GoString := fun _ => none
  bucketFakeIPDomain6 : Map GoString GoString := fun _ => none

/-- `bbolt.Bucket.Put`: a key must not be blank. -/
def put (bucket : Map GoString GoString) (key value : GoString) : Option (Map GoString GoString) :=
  if key = [] then none else some (Function.update bucket key (some value))

def keyMetadata : GoString := ascii "fakeip_metadata"

/-- `CacheFile`; the maps are those of `FakeIPStoreAsync`, which no `Store` calls. -/
structure CacheFile where
  db : Database := {}
  saveDomain : Map NetAddr GoString := fun _ => none
  saveAddress4 : Map GoString NetAddr := fun _ => none
  saveAddress6 : Map GoString NetAddr := fun _ => none
  saveMetadata : Option Metadata := none

namespace CacheFile

def storeTx (db : Database) (address : NetAddr) (domain : GoString) : Option Database :=
  let oldDomain := db.bucketFakeIP (asSlice address)
  (put db.bucketFakeIP (asSlice address) domain).bind fun bucketFakeIP =>
    let bucket := if is4 address then db.bucketFakeIPDomain4 else db.bucketFakeIPDomain6
    let bucket := match oldDomain with
      | some oldDomain => Function.update bucket oldDomain none
      | none => bucket
    (put bucket domain (asSlice address)).map fun bucket =>
      if is4 address then { db with bucketFakeIP, bucketFakeIPDomain4 := bucket }
      else { db with bucketFakeIP, bucketFakeIPDomain6 := bucket }

/-- `FakeIPStore`; an error is logged only. -/
def fakeIPStore (c : CacheFile) (address : NetAddr) (domain : GoString) : CacheFile :=
  { c with db := (storeTx c.db address domain).getD c.db }

def fakeIPLoad (c : CacheFile) (address : NetAddr) : Option GoString :=
  match c.saveDomain address with
  | some domain => some domain
  | none =>
    let domain := (c.db.bucketFakeIP (asSlice address)).getD []
    if domain ≠ [] then some domain else none

variable (addrFromIP : GoString → NetAddr)

def fakeIPLoadDomain (c : CacheFile) (domain : GoString) (isIPv6 : Bool) : Option NetAddr :=
  match if !isIPv6 then c.saveAddress4 domain else c.saveAddress6 domain with
  | some address => some address
  | none =>
    let bucket := if isIPv6 then c.db.bucketFakeIPDomain6 else c.db.bucketFakeIPDomain4
    let address := addrFromIP ((bucket domain).getD [])
    if address.isSome then some address else none

end CacheFile

inductive StorageKind where
  | memory
  | cacheFile
  deriving DecidableEq

/-- `FakeIPStorage` -/
inductive Storage where
  | memory (s : MemoryStorage)
  | cacheFile (c : CacheFile)

namespace Storage

def kind : Storage → StorageKind
  | memory _ => .memory
  | cacheFile _ => .cacheFile

def fakeIPStore (address : NetAddr) (domain : GoString) : Storage → Storage
  | memory s => memory (s.fakeIPStore address domain)
  | cacheFile c => cacheFile (c.fakeIPStore address domain)

def fakeIPLoad (address : NetAddr) : Storage → Option GoString
  | memory s => s.fakeIPLoad address
  | cacheFile c => c.fakeIPLoad address

def fakeIPLoadDomain (addrFromIP : GoString → NetAddr) (domain : GoString) (isIPv6 : Bool) : Storage → Option NetAddr
  | memory s => s.fakeIPLoadDomain domain isIPv6
  | cacheFile c => c.fakeIPLoadDomain addrFromIP domain isIPv6

def fakeIPReset : Storage → Storage
  | memory _ => memory {}
  | cacheFile c => cacheFile { c with db := {} }

/-- `FakeIPSaveMetadataAsync`: the metadata is kept for the timer. -/
def fakeIPSaveMetadataAsync (m : Metadata) : Storage → Storage
  | memory s => memory s
  | cacheFile c => cacheFile { c with saveMetadata := some m }

/-- The metadata that the timer finds. -/
def saveMetadata : Storage → Option Metadata
  | memory _ => none
  | cacheFile c => c.saveMetadata

def fakeIPSaveMetadata (m : Metadata) : Storage → Storage
  | memory s => memory s
  | cacheFile c => cacheFile { c with
      db := { c.db with bucketFakeIP := Function.update c.db.bucketFakeIP keyMetadata (some m.marshalBinary) } }

end Storage

/-! ### The store -/

structure Ranges where
  inet4Range : Option (Range 32)
  inet6Range : Option (Range 128)
  deriving DecidableEq

inductive Entry where
  | created (domain : GoString) (isIPv6 : Bool) (address : NetAddr)
  | failed (domain : GoString) (isIPv6 : Bool) (err : String)
  | reset

structure Store extends Ranges where
  inet4Current : Option (BitVec 32)
  inet6Current : Option (BitVec 128)
  storage : Storage
  /-- `addressAccess` -/
  locked : Bool := false
  log : List Entry := []

namespace Store

/-- `Start`, with the metadata that was found in the storage. -/
def start (r : Ranges) (storage : Storage) (metadata : Option Metadata) : Store :=
  match metadata with
  | some m =>
    if m.inet4Range = r.inet4Range ∧ m.inet6Range = r.inet6Range then
      { r with inet4Current := m.inet4Current, inet6Current := m.inet6Current, storage }
    else
      { r with
        inet4Current := r.inet4Range.bind fun p => next p.addr
        inet6Current := r.inet6Range.bind fun p => next p.addr
        storage := storage.fakeIPReset }
  | none =>
    { r with
      inet4Current := r.inet4Range.bind fun p => next p.addr
      inet6Current := r.inet6Range.bind fun p => next p.addr
      storage := storage.fakeIPReset }

def advance (s : Store) (isIPv6 : Bool) : Except String (NetAddr × Store) :=
  if !isIPv6 then
    match s.inet4Current with
    | none => .error "missing IPv4 fakeip address range"
    | some current =>
      let nextAddress := s.inet4Range.bind fun r => r.nextAddress current
      .ok (nextAddress.map .v4, { s with inet4Current := nextAddress })
  else
    match s.inet6Current with
    | none => .error "missing IPv6 fakeip address range"
    | some current =>
      let nextAddress := s.inet6Range.bind fun r => r.nextAddress current
      .ok (nextAddress.map .v6, { s with inet6Current := nextAddress })

def metadata (s : Store) : Metadata := ⟨s.inet4Range, s.inet6Range, s.inet4Current, s.inet6Current⟩

def record (s : Store) (e : Entry) : Store := { s with log := e :: s.log }

end Store

/-- The domains that are asked for are not empty. -/
abbrev Domain := { domain : GoString // domain ≠ [] }

inductive Op where
  /-- The parts of `Create`. -/
  | load (domain : Domain) (isIPv6 : Bool)
  | lock (domain : Domain) (isIPv6 : Bool)
  | check (domain : Domain) (isIPv6 : Bool)
  | advance (domain : Domain) (isIPv6 : Bool)
  | store (domain : Domain) (isIPv6 : Bool) (address : NetAddr)
  | saveMetadataAsync
  | unlock
  | lookup (address : NetAddr)
  | reset
  | saveMetadata (m : Metadata)

inductive Call where
  | create (domain : Domain) (isIPv6 : Bool)
  | lookup (address : NetAddr)
  | reset
  /-- The timer of `FakeIPSaveMetadataAsync` fires. -/
  | timer

variable (addrFromIP : GoString → NetAddr)

def exec : Op → Unit → Store → Option (Store × List Op)
  | .load domain isIPv6, _, s =>
    match s.storage.fakeIPLoadDomain addrFromIP domain isIPv6 with
    | some address => some (s.record (.created domain isIPv6 address), [])
    | none => some (s, [.lock domain isIPv6])
  | .lock domain isIPv6, _, s =>
    if s.locked then none else some ({ s with locked := true }, [.check domain isIPv6])
  | .check domain isIPv6, _, s =>
    match s.storage.fakeIPLoadDomain addrFromIP domain isIPv6 with
    | some address => some (s.record (.created domain isIPv6 address), [.unlock])
    | none => some (s, [.advance domain isIPv6])
  | .advance domain isIPv6, _, s =>
    match s.advance isIPv6 with
    | .error err => some (s.record (.failed domain isIPv6 err), [.unlock])
    | .ok (address, s') => some (s', [.store domain isIPv6 address])
  | .store domain isIPv6 address, _, s =>
    some ({ s with storage := s.storage.fakeIPStore address domain }.record (.created domain isIPv6 address),
      [.saveMetadataAsync])
  | .saveMetadataAsync, _, s => some ({ s with storage := s.storage.fakeIPSaveMetadataAsync s.metadata }, [.unlock])
  | .unlock, _, s => some ({ s with locked := false }, [])
  | .lookup _, _, s => some (s, [])
  | .reset, _, s => some ({ s with storage := s.storage.fakeIPReset }.record .reset, [])
  | .saveMetadata m, _, s => some ({ s with storage := s.storage.fakeIPSaveMetadata m }, [])

def entry : Call → Store → Store × List Op
  | .create domain isIPv6, s => (s, [.load domain isIPv6])
  | .lookup address, s => (s, [.lookup address])
  | .reset, s => (s, [.reset])
  | .timer, s => (s, s.storage.saveMetadata.toList.map .saveMetadata)

def program : Program Store Op Unit Call := ⟨entry, exec addrFromIP⟩

end SingBox.FakeIp
