import SingBox.FakeIp.Store
import SingBox.Lib.Links

/-!
# The FakeIP storages as links

What the two storages return is a link between the domains of each family and the addresses: `FakeIPStore` makes a link
in the sense of `Links` (`Sound.store`), a reset removes all of them (`sound_reset`), and the metadata that is saved
beside them changes none.
-/

namespace SingBox.FakeIp

open Lib Dns Function Option

/-- The family of an address; one that is not valid is kept among the IPv6 addresses. -/
def family (address : NetAddr) : Bool := !is4 address

/-- The address of a domain, which `Create` returns without any other step. -/
def addressOf (addrFromIP : GoString → NetAddr) (storage : Storage) (isIPv6 : Bool) (domain : GoString) :
    Option NetAddr :=
  storage.fakeIPLoadDomain addrFromIP domain isIPv6

def domainOf (storage : Storage) (address : NetAddr) : Option GoString := storage.fakeIPLoad address

variable (address : NetAddr)

/-! ### Addresses as bytes -/

lemma addrFromSlice_asSlice : addrFromSlice (asSlice address) = address := by
  match address with
  | none => rfl
  | some (.v4 bits) =>
    have h := ofBytes_toBytes (k := 4) bits.isLt
    rw [asSlice, addrFromSlice, if_pos (length_toBytes 4 _), h, BitVec.ofNat_toNat, BitVec.setWidth_eq]
  | some (.v6 bits) =>
    have h := ofBytes_toBytes (k := 16) bits.isLt
    rw [asSlice, addrFromSlice, if_neg (by rw [length_toBytes]; decide), if_pos (length_toBytes 16 _), h,
      BitVec.ofNat_toNat, BitVec.setWidth_eq]

lemma length_asSlice : (asSlice address).length = address.elim 0 fun a => a.bitLen / 8 := by
  match address with
  | none => rfl
  | some (.v4 bits) | some (.v6 bits) =>
    rw [asSlice]
    simp [Addr.bitLen]

lemma asSlice_ne_nil (address : Addr) : asSlice (some address) ≠ [] := by
  intro h
  have hl := length_asSlice (some address)
  rw [h] at hl
  cases address <;> simp [Addr.bitLen] at hl

lemma length_keyMetadata : keyMetadata.length = 15 := by decide

lemma asSlice_ne_keyMetadata : asSlice address ≠ keyMetadata := by
  intro h
  have hl := length_asSlice address
  rw [h, length_keyMetadata] at hl
  rcases address with _ | a
  · cases hl
  · cases a <;> simp [Addr.bitLen] at hl

/-! ### Storages -/

/-- Nothing waits to be written, and no address is linked to an empty domain. -/
structure CacheFile.Clean (c : CacheFile) : Prop where
  saveDomain : ∀ address, c.saveDomain address = none
  saveAddress4 : ∀ domain, c.saveAddress4 domain = none
  saveAddress6 : ∀ domain, c.saveAddress6 domain = none
  nonempty : ∀ key, c.db.bucketFakeIP key ≠ some []

/-- The storage links domains and addresses. -/
structure Sound (addrFromIP : GoString → NetAddr) (storage : Storage) : Prop where
  linked : Linked family (addressOf addrFromIP storage) (domainOf storage)
  clean : ∀ c, storage = .cacheFile c → c.Clean

section

variable {addrFromIP : GoString → NetAddr} {domain : GoString}

lemma links_of_updates {storage storage' : Storage} {address : NetAddr}
    (hd : ∀ a, domainOf storage' a = if a = address then some domain else domainOf storage a)
    (ha : ∀ f n, addressOf addrFromIP storage' f n = if f = family address then
        if n = domain then some address
        else if domainOf storage address = some n then none else addressOf addrFromIP storage f n
      else addressOf addrFromIP storage f n) :
    Links family (addressOf addrFromIP storage) (addressOf addrFromIP storage') (domainOf storage) (domainOf storage')
      domain address where
  name_self := by rw [hd, if_pos rfl]
  name_other w hw := by rw [hd, if_neg hw]
  value_self := by rw [ha, if_pos rfl, if_pos rfl]
  value_before n hn hb := by rw [ha, if_pos rfl, if_neg hn, if_pos hb]
  value_other n hn hb := by rw [ha, if_pos rfl, if_neg hn, if_neg hb]
  kind_other f hf := by
    funext n
    rw [ha, if_neg hf]

lemma MemoryStorage.links (addrFromIP : GoString → NetAddr) (s : MemoryStorage) (address : NetAddr)
    (domain : GoString) :
    Links family (addressOf addrFromIP (.memory s)) (addressOf addrFromIP (.memory (s.fakeIPStore address domain)))
      (domainOf (.memory s)) (domainOf (.memory (s.fakeIPStore address domain))) domain address := by
  refine links_of_updates (fun a => ?_) fun f n => ?_
  · rcases eq_none_or_eq_some (s.addressCache address) with h | ⟨oldDomain, h⟩ <;>
      rcases Bool.eq_false_or_eq_true (is4 address) with h4 | h4 <;>
      simp [domainOf, Storage.fakeIPLoad, MemoryStorage.fakeIPLoad, MemoryStorage.fakeIPStore, h, h4, update_apply]
  · rcases eq_none_or_eq_some (s.addressCache address) with h | ⟨oldDomain, h⟩ <;>
      rcases Bool.eq_false_or_eq_true (is4 address) with h4 | h4 <;> cases f <;>
      simp [addressOf, domainOf, Storage.fakeIPLoad, Storage.fakeIPLoadDomain, MemoryStorage.fakeIPLoad,
        MemoryStorage.fakeIPLoadDomain, MemoryStorage.fakeIPStore, family, h, h4, update_apply, eq_comm]

variable {c : CacheFile}

lemma CacheFile.Clean.load (hc : c.Clean) (address : NetAddr) :
    c.fakeIPLoad address = c.db.bucketFakeIP (asSlice address) := by
  unfold CacheFile.fakeIPLoad
  rw [hc.saveDomain]
  have hn := hc.nonempty (asSlice address)
  cases h : c.db.bucketFakeIP (asSlice address) with
  | none => simp
  | some domain =>
    rw [h] at hn
    have : domain ≠ [] := fun he => hn (congrArg some he)
    simp [this]

def bucketOf (db : Database) (isIPv6 : Bool) : Map GoString GoString :=
  if isIPv6 then db.bucketFakeIPDomain6 else db.bucketFakeIPDomain4

lemma CacheFile.Clean.loadDomain (hc : c.Clean) (haddr : ∀ b, addrFromIP b = addrFromSlice b)
    (domain : GoString) (isIPv6 : Bool) : c.fakeIPLoadDomain addrFromIP domain isIPv6 =
      ((bucketOf c.db isIPv6 domain).bind addrFromSlice).map some := by
  have hs : (if !isIPv6 then c.saveAddress4 domain else c.saveAddress6 domain) = none := by
    cases isIPv6
    · exact hc.saveAddress4 domain
    · exact hc.saveAddress6 domain
  unfold CacheFile.fakeIPLoadDomain
  rw [hs]
  dsimp only
  rw [haddr, bucketOf]
  cases (if isIPv6 = true then c.db.bucketFakeIPDomain6 else c.db.bucketFakeIPDomain4) domain with
  | none => rfl
  | some b => cases h : addrFromSlice b <;> simp [h]

/-- What the transaction of `FakeIPStore` writes for a valid address. -/
lemma CacheFile.storeTx_spec (db : Database) (a : Addr) (hd : domain ≠ []) :
    ∃ db', CacheFile.storeTx db (some a) domain = some db' ∧
      db'.bucketFakeIP = Function.update db.bucketFakeIP (asSlice (some a)) (some domain) ∧
      ∀ isIPv6 n, bucketOf db' isIPv6 n =
        if isIPv6 = family (some a) then
          if n = domain then some (asSlice (some a))
          else if db.bucketFakeIP (asSlice (some a)) = some n then none else bucketOf db isIPv6 n
        else bucketOf db isIPv6 n := by
  unfold CacheFile.storeTx
  simp only [put, if_neg (asSlice_ne_nil a), if_neg hd]
  refine ⟨_, rfl, ?_, fun isIPv6 n => ?_⟩
  · cases is4 (some a) <;> rfl
  · rcases eq_none_or_eq_some (db.bucketFakeIP (asSlice (some a))) with h | ⟨oldDomain, h⟩ <;>
      rcases Bool.eq_false_or_eq_true (is4 (some a)) with h4 | h4 <;> cases isIPv6 <;>
      simp [bucketOf, family, h, h4, update_apply, eq_comm]

lemma CacheFile.links (hc : c.Clean) (haddr : ∀ b, addrFromIP b = addrFromSlice b) (a : Addr) (hd : domain ≠ []) :
    Links family (addressOf addrFromIP (.cacheFile c))
      (addressOf addrFromIP (.cacheFile (c.fakeIPStore (some a) domain))) (domainOf (.cacheFile c))
      (domainOf (.cacheFile (c.fakeIPStore (some a) domain))) domain (some a) ∧
    (c.fakeIPStore (some a) domain).Clean := by
  obtain ⟨db', htx, hb, hf⟩ := CacheFile.storeTx_spec c.db a hd
  have hdb : c.fakeIPStore (some a) domain = { c with db := db' } := by
    rw [CacheFile.fakeIPStore, htx, getD_some]
  have hc' : ({ c with db := db' } : CacheFile).Clean := by
    refine ⟨hc.saveDomain, hc.saveAddress4, hc.saveAddress6, fun key => ?_⟩
    rw [hb, update_apply]
    split
    · simpa using hd
    · exact hc.nonempty key
  rw [hdb]
  refine ⟨links_of_updates (fun w => ?_) fun f n => ?_, hc'⟩
  · change CacheFile.fakeIPLoad _ w = if w = some a then some domain else CacheFile.fakeIPLoad _ w
    rw [hc.load, hc'.load]
    simp only [hb, update_apply, (Function.LeftInverse.injective addrFromSlice_asSlice).eq_iff]
  · change CacheFile.fakeIPLoadDomain _ _ n f = _
    have hl : domainOf (.cacheFile c) (some a) = c.db.bucketFakeIP (asSlice (some a)) := hc.load (some a)
    have ho : addressOf addrFromIP (.cacheFile c) f n = ((bucketOf c.db f n).bind addrFromSlice).map some :=
      hc.loadDomain haddr n f
    rw [hc'.loadDomain haddr, hl, ho]
    rw [hf]
    split
    · split
      · rw [bind_some, addrFromSlice_asSlice]
        rfl
      · split <;> rfl
    · rfl

theorem Sound.store {storage : Storage} (haddr : ∀ b, addrFromIP b = addrFromSlice b) (h : Sound addrFromIP storage)
    {address : NetAddr} (hd : domain ≠ []) (ha : storage.kind = .cacheFile → address.isSome)
    (hn : addressOf addrFromIP storage (family address) domain = none) :
    Links family (addressOf addrFromIP storage) (addressOf addrFromIP (storage.fakeIPStore address domain))
      (domainOf storage) (domainOf (storage.fakeIPStore address domain)) domain address ∧
    Sound addrFromIP (storage.fakeIPStore address domain) := by
  cases storage with
  | memory s =>
    have hl := s.links addrFromIP address domain
    exact ⟨hl, h.linked.link hn hl, fun c hc => (by cases hc)⟩
  | cacheFile c =>
    obtain ⟨a, rfl⟩ := isSome_iff_exists.1 (ha rfl)
    obtain ⟨hl, hc⟩ := CacheFile.links (h.clean c rfl) haddr a hd
    exact ⟨hl, h.linked.link hn hl, fun c' hc' => by cases hc'; exact hc⟩

lemma sound_reset (storage : Storage) (h : ∀ c, storage = .cacheFile c → c.Clean)
    (haddr : ∀ b, addrFromIP b = addrFromSlice b) :
    (∀ isIPv6 domain, addressOf addrFromIP storage.fakeIPReset isIPv6 domain = none) ∧
      Sound addrFromIP storage.fakeIPReset := by
  cases storage with
  | memory s =>
    have ha : ∀ isIPv6 domain, addressOf addrFromIP (.memory {}) isIPv6 domain = none := fun isIPv6 domain => by
      cases isIPv6 <;> rfl
    refine ⟨ha, fun isIPv6 n v => ?_, fun c hc => (by cases hc)⟩
    exact ⟨fun hv => (by cases (ha isIPv6 n).symm.trans hv), fun hv => (by cases hv.2)⟩
  | cacheFile c =>
    have hc := h c rfl
    have hc' : ({ c with db := {} } : CacheFile).Clean :=
      ⟨hc.saveDomain, hc.saveAddress4, hc.saveAddress6, fun _ hk => (by cases hk)⟩
    have ha : ∀ isIPv6 domain, addressOf addrFromIP (.cacheFile { c with db := {} }) isIPv6 domain = none :=
      fun isIPv6 domain => by
        refine (hc'.loadDomain haddr domain isIPv6).trans ?_
        cases isIPv6 <;> rfl
    refine ⟨ha, fun isIPv6 n v => ?_, fun c' hc'' => by cases hc''; exact hc'⟩
    refine ⟨fun hv => (by cases (ha isIPv6 n).symm.trans hv), fun hv => ?_⟩
    cases (hc'.load v).symm.trans hv.2

/-- What a storage returns is not changed by its metadata. -/
structure SameLoads (addrFromIP : GoString → NetAddr) (storage storage' : Storage) : Prop where
  address : addressOf addrFromIP storage' = addressOf addrFromIP storage
  domain : domainOf storage' = domainOf storage
  kind : storage'.kind = storage.kind
  clean : (∀ c, storage = .cacheFile c → c.Clean) → ∀ c, storage' = .cacheFile c → c.Clean

lemma sameLoads_saveMetadataAsync (storage : Storage) (m : Metadata) :
    SameLoads addrFromIP storage (storage.fakeIPSaveMetadataAsync m) := by
  cases storage with
  | memory s => exact ⟨rfl, rfl, rfl, fun h => h⟩
  | cacheFile c =>
    refine ⟨rfl, rfl, rfl, fun h c' hc' => ?_⟩
    cases hc'
    obtain ⟨h1, h2, h3, h4⟩ := h c rfl
    exact ⟨h1, h2, h3, h4⟩

lemma sameLoads_saveMetadata (addrFromIP : GoString → NetAddr) (storage : Storage) (m : Metadata) :
    SameLoads addrFromIP storage (storage.fakeIPSaveMetadata m) := by
  cases storage with
  | memory s => exact ⟨rfl, rfl, rfl, fun h => h⟩
  | cacheFile c =>
    refine ⟨rfl, ?_, rfl, fun h c' hc' => ?_⟩
    · -- no address has the key of the metadata
      funext a
      simp only [domainOf, Storage.fakeIPLoad, Storage.fakeIPSaveMetadata, CacheFile.fakeIPLoad,
        update_of_ne (asSlice_ne_keyMetadata a)]
    · cases hc'
      obtain ⟨h1, h2, h3, h4⟩ := h c rfl
      refine ⟨h1, h2, h3, fun key => ?_⟩
      change Function.update c.db.bucketFakeIP keyMetadata (some m.marshalBinary) key ≠ some []
      rw [update_apply]
      split
      · simp [Metadata.marshalBinary, putBeUint16]
      · exact h4 key

lemma SameLoads.sound {storage storage' : Storage} (h : SameLoads addrFromIP storage storage')
    (hs : Sound addrFromIP storage) : Sound addrFromIP storage' :=
  ⟨by rw [h.address, h.domain]; exact hs.linked, h.clean hs.clean⟩

end

end SingBox.FakeIp
