import SingBox.FakeIp.Storages

/-!
# Domains and their FakeIP addresses

The domains of each family and their addresses are linked in both storages (`Bijective`): a link is made under
`addressAccess` for a domain that has no address in its family, and takes the address from the domain that had it.

The addresses that are handed out are valid, but for one case: when the range starts with the second address before the
end of its family, the address after the next one does not exist.  `Create` then returns the zero address, which no
storage keeps as an IPv4 address, and which the database does not keep at all.
-/

namespace SingBox.FakeIp

open Lib Dns Multiset Option

/-- The domain was handed the address, and since then neither another domain has been nor was there a reset. -/
def Stands : List Entry → GoString → Bool → NetAddr → Prop
  | [], _, _, _ => False
  | .reset :: _, _, _, _ => False
  | .failed .. :: log, domain, isIPv6, address => Stands log domain isIPv6 address
  | .created domain' isIPv6' address' :: log, domain, isIPv6, address =>
    domain = domain' ∧ isIPv6 = isIPv6' ∧ address = address' ∨
      (address = address' → domain = domain') ∧ Stands log domain isIPv6 address

section

variable (addrFromIP : GoString → NetAddr)

structure Bijective (s : Store) : Prop where
  /-- What was handed out is found in both directions. -/
  stands : ∀ domain isIPv6 address, Stands s.log domain isIPv6 address →
    domainOf s.storage address = some domain ∧ addressOf addrFromIP s.storage isIPv6 domain = some address
  injective : ∀ isIPv6 domain domain' address, addressOf addrFromIP s.storage isIPv6 domain = some address →
    addressOf addrFromIP s.storage isIPv6 domain' = some address → domain = domain'
  inverse : ∀ isIPv6 domain address, addressOf addrFromIP s.storage isIPv6 domain = some address ↔
    family address = isIPv6 ∧ domainOf s.storage address = some domain

/-- A database in which the domains and the addresses are linked. -/
structure Consistent (db : Database) : Prop where
  linked : Linked family (addressOf addrFromIP (.cacheFile { db })) (domainOf (.cacheFile { db }))
  nonempty : ∀ key, db.bucketFakeIP key ≠ some []

end

/-- The current address of a store with a range. -/
inductive Advanced {w : ℕ} (r : Option (Range w)) : Option (BitVec w) → Prop where
  | start : Advanced r (r.bind fun p => next p.addr)
  | step {current : BitVec w} (h : Advanced r (some current)) : Advanced r (r.bind fun p => p.nextAddress current)

/-- A store that has just been started: in memory, or over a database in which earlier runs may have left their links
and, if they used the same ranges, the addresses that were current. -/
inductive Started (addrFromIP : GoString → NetAddr) (r : Ranges) : StorageKind → Store → Prop where
  | memory : Started addrFromIP r .memory (Store.start r (.memory {}) none)
  | cacheFile {db : Database} (metadata : Option Metadata) (hdb : Consistent addrFromIP db)
    (hm : ∀ m ∈ metadata, m.inet4Range = r.inet4Range ∧ m.inet6Range = r.inet6Range →
      Advanced r.inet4Range m.inet4Current ∧ Advanced r.inet6Range m.inet6Current) :
    Started addrFromIP r .cacheFile (Store.start r (.cacheFile { db }) metadata)

/-- The range does not start with the second address before the end of its family; in memory an IPv6 range may. -/
def Usable (r : Ranges) (kind : StorageKind) : Prop :=
  (∀ p ∈ r.inet4Range, p.addr ≠ BitVec.allOnes 32 - 1) ∧
    (kind = .cacheFile → ∀ p ∈ r.inet6Range, p.addr ≠ BitVec.allOnes 128 - 1)

instance (r : Ranges) (kind : StorageKind) : Decidable (Usable r kind) := inferInstanceAs (Decidable (_ ∧ _))

/-! ### The next address -/

section Next

variable {w : ℕ}

lemma next_eq_none {a : BitVec w} : next a = none ↔ a + 1 = 0 := by
  unfold next
  split
  next h => exact ⟨fun _ => h, fun _ => rfl⟩
  next h => exact ⟨by simp, fun h' => absurd h' h⟩

lemma next_eq_some {a b : BitVec w} (h : next a = some b) : b = a + 1 := by
  unfold next at h
  split at h <;> cases h
  rfl

lemma next_next {a b : BitVec w} (h : next a = some b) (ha : a ≠ BitVec.allOnes w - 1) : (next b).isSome := by
  obtain rfl := next_eq_some h
  rw [← ne_none_iff_isSome, Ne, next_eq_none]
  intro h0
  apply ha
  rw [← BitVec.neg_one_eq_allOnes]
  calc a = a + 1 + 1 - 1 - 1 := by rw [BitVec.add_sub_cancel, BitVec.add_sub_cancel]
    _ = -1 - 1 := by rw [h0]; exact congrArg (· - 1) (BitVec.zero_sub 1)

lemma Advanced.range {r : Option (Range w)} {current : Option (BitVec w)} (h : Advanced r current)
    (hc : current.isSome) : ∃ p b, r = some p ∧ next p.addr = some b := by
  induction h with
  | start =>
    obtain ⟨b, hb⟩ := isSome_iff_exists.1 hc
    obtain ⟨p, hp, hb⟩ := bind_eq_some_iff.1 hb
    exact ⟨p, b, hp, hb⟩
  | step h ih => exact ih rfl

lemma isSome_nextAddress {r : Option (Range w)} {current : BitVec w} (h : Advanced r (some current))
    (hr : ∀ p ∈ r, p.addr ≠ BitVec.allOnes w - 1) : (r.bind fun p => p.nextAddress current).isSome := by
  obtain ⟨p, b, rfl, hb⟩ := h.range rfl
  have hw : ((next p.addr).bind next).isSome := by
    rw [hb]
    exact next_next hb (hr p rfl)
  change (p.nextAddress current).isSome
  unfold Range.nextAddress
  split
  · split
    · exact hw
    · rfl
  · exact hw

/-- The range that starts with the second address before the end has no address after the next one. -/
lemma nextAddress_end {p : Range w} (hw : BitVec.allOnes w ≠ 0) (hp : p.addr = BitVec.allOnes w - 1) :
    next p.addr = some (BitVec.allOnes w) ∧ p.nextAddress (BitVec.allOnes w) = none := by
  have hnext : next p.addr = some (BitVec.allOnes w) := by
    rw [next, hp, BitVec.sub_add_cancel, if_neg hw]
  have hlast : next (BitVec.allOnes w) = none :=
    next_eq_none.2 (by rw [← BitVec.neg_one_eq_allOnes]; exact BitVec.add_left_neg 1)
  refine ⟨hnext, ?_⟩
  unfold Range.nextAddress
  rw [hlast, hnext]
  exact hlast

end Next

def Op.locked : Op → Bool
  | .check .. | .advance .. | .store .. | .saveMetadataAsync | .unlock => true
  | _ => false

section

variable {addrFromIP : GoString → NetAddr} {r : Ranges} {kind : StorageKind} {s s' : Store} {o : Op} {new : List Op}
  {m : Multiset Op}

structure Holds (addrFromIP : GoString → NetAddr) (r : Ranges) (kind : StorageKind) (s : Store) : Prop where
  sound : Sound addrFromIP s.storage
  kind : s.storage.kind = kind
  ranges : s.toRanges = r
  inet4Current : Advanced r.inet4Range s.inet4Current
  inet6Current : Advanced r.inet6Range s.inet6Current
  stands : ∀ domain isIPv6 address, Stands s.log domain isIPv6 address →
    domainOf s.storage address = some domain ∧ addressOf addrFromIP s.storage isIPv6 domain = some address

/-- The domain of a section that is about to make a link has no address in its family. -/
def Op.Ready (addrFromIP : GoString → NetAddr) (kind : StorageKind) (storage : Storage) : Op → Prop
  | .advance domain isIPv6 => addressOf addrFromIP storage isIPv6 domain = none
  | .store domain isIPv6 address => addressOf addrFromIP storage isIPv6 domain = none ∧ family address = isIPv6 ∧
      (kind = .cacheFile → address.isSome)
  | _ => True

structure Inv (addrFromIP : GoString → NetAddr) (r : Ranges) (kind : StorageKind) (s : Store) (m : Multiset Op) :
    Prop where
  holds : Holds addrFromIP r kind s
  holder : m.countP (Op.locked ·) ≤ 1
  free : s.locked = false → m.countP (Op.locked ·) = 0
  ready : ∀ o ∈ m, o.Ready addrFromIP kind s.storage

variable {isIPv6 : Bool} {address : NetAddr}

lemma Holds.created {domain : GoString} (h : Holds addrFromIP r kind s)
    (ha : addressOf addrFromIP s.storage isIPv6 domain = some address) :
    Holds addrFromIP r kind (s.record (.created domain isIPv6 address)) where
  __ := h
  stands d f a := by
    rintro (⟨rfl, rfl, rfl⟩ | ⟨-, hs⟩)
    · exact ⟨((h.sound.linked _ _ _).1 ha).2, ha⟩
    · exact h.stands d f a hs

variable {storage : Storage}

lemma Holds.sameLoads (h : Holds addrFromIP r kind s)
    (hl : SameLoads addrFromIP s.storage storage) : Holds addrFromIP r kind { s with storage } where
  __ := h
  sound := hl.sound h.sound
  kind := hl.kind.trans h.kind
  stands d f a hs := by
    rw [hl.address, hl.domain]
    exact h.stands d f a hs

lemma Holds.reset (haddr : ∀ b, addrFromIP b = addrFromSlice b) (h : Holds addrFromIP r kind s) :
    Holds addrFromIP r kind ({ s with storage := s.storage.fakeIPReset }.record .reset) where
  __ := h
  sound := (sound_reset s.storage h.sound.clean haddr).2
  kind := by
    rw [← h.kind]
    change s.storage.fakeIPReset.kind = s.storage.kind
    cases s.storage <;> rfl
  stands d f a hs := hs.elim

variable {domain : Domain}

lemma Holds.store (haddr : ∀ b, addrFromIP b = addrFromSlice b)
    (h : Holds addrFromIP r kind s) (hr : Op.Ready addrFromIP kind s.storage (.store domain isIPv6 address)) :
    Holds addrFromIP r kind ({ s with storage := s.storage.fakeIPStore address domain }.record
      (.created domain isIPv6 address)) := by
  obtain ⟨hn, rfl, hk⟩ := hr
  obtain ⟨hl, hs⟩ := h.sound.store haddr domain.2 (fun hc => hk (h.kind.symm.trans hc)) hn
  refine { h with sound := hs, kind := ?_, stands := ?_ }
  · rw [← h.kind]
    cases s.storage <;> rfl
  · rintro d f a (⟨rfl, rfl, rfl⟩ | ⟨hne, hst⟩)
    · exact ⟨hl.name_self, hl.value_self⟩
    · -- the links that stand are not those of the address or of the domain
      obtain ⟨h1, h2⟩ := h.stands d f a hst
      have haa : a ≠ address := by
        rintro rfl
        obtain rfl := hne rfl
        rw [((h.sound.linked f _ a).1 h2).1] at hn
        rw [h2] at hn
        cases hn
      have hname := (hl.name_other a haa).trans h1
      exact ⟨hname, (hs.linked f d a).2 ⟨((h.sound.linked f d a).1 h2).1, hname⟩⟩

lemma Holds.advance (hu : Usable r kind) (h : Holds addrFromIP r kind s) (ha : s.advance isIPv6 = .ok (address, s')) :
    Holds addrFromIP r kind s' ∧ s'.storage = s.storage ∧ s'.locked = s.locked ∧ family address = isIPv6 ∧
      (kind = .cacheFile → address.isSome) := by
  have hr4 : s.inet4Range = r.inet4Range := congrArg Ranges.inet4Range h.ranges
  have hr6 : s.inet6Range = r.inet6Range := congrArg Ranges.inet6Range h.ranges
  cases isIPv6 with
  | false =>
    have hc := h.inet4Current
    simp only [Store.advance, Bool.not_false, if_true] at ha
    split at ha
    · cases ha
    next current h4 =>
      cases ha
      rw [h4] at hc
      obtain ⟨a, hsome⟩ := isSome_iff_exists.1 (isSome_nextAddress hc hu.1)
      refine ⟨{ h with inet4Current := ?_ }, rfl, rfl, ?_, fun _ => ?_⟩
      · rw [hr4]
        exact .step hc
      · rw [hr4, hsome]
        rfl
      · rw [hr4, hsome]
        rfl
  | true =>
    have hc := h.inet6Current
    simp only [Store.advance, Bool.not_true, Bool.false_eq_true, if_false] at ha
    split at ha
    · cases ha
    next current h6 =>
      cases ha
      rw [h6] at hc
      refine ⟨{ h with inet6Current := ?_ }, rfl, rfl, ?_, fun hk => ?_⟩
      · rw [hr6]
        exact .step hc
      · cases s.inet6Range.bind fun p => p.nextAddress current <;> rfl
      · rw [hr6, isSome_map]
        exact isSome_nextAddress hc (hu.2 hk)

lemma ready_of_not_locked (h : o.locked = false) : o.Ready addrFromIP kind storage := by
  cases o <;> trivial

lemma Inv.others (h : Inv addrFromIP r kind s (o ::ₘ m)) (ho : o.locked = true) : m.countP (Op.locked ·) = 0 := by
  have hh := h.holder
  rw [countP_cons_of_pos (p := fun o : Op => o.locked = true) _ ho] at hh
  omega

lemma Inv.tail_ready (h : Inv addrFromIP r kind s (o ::ₘ m)) : ∀ o ∈ m, o.Ready addrFromIP kind s.storage :=
  fun o ho => h.ready o (mem_cons_of_mem ho)

lemma Inv.proceed {o' : Op} (h : Inv addrFromIP r kind s (o ::ₘ m)) (ho : o.locked = true)
    (hh : Holds addrFromIP r kind s') (hl : s'.locked = s.locked) (ho' : o'.locked = true)
    (hr : o'.Ready addrFromIP kind s'.storage) : Inv addrFromIP r kind s' (o' ::ₘ m) := by
  refine ⟨hh, ?_, fun hf => ?_, fun o'' ho'' => ?_⟩
  · rw [countP_cons_of_pos (p := fun o : Op => o.locked = true) _ ho', h.others ho]
  · have hz := h.free (hl.symm.trans hf)
    rw [countP_cons_of_pos (p := fun o : Op => o.locked = true) _ ho] at hz
    cases hz
  · rcases mem_cons.1 ho'' with rfl | ho''
    · exact hr
    · exact ready_of_not_locked (by simpa using countP_eq_zero.1 (h.others ho) o'' ho'')

lemma countP_cons_not_locked (ho : o.locked = false) : (o ::ₘ m).countP (Op.locked ·) = m.countP (Op.locked ·) :=
  countP_cons_of_neg _ (by simp [ho])

lemma Inv.drop (h : Inv addrFromIP r kind s (o ::ₘ m)) (ho : o.locked = false) : Inv addrFromIP r kind s m where
  holds := h.holds
  holder := countP_cons_not_locked ho ▸ h.holder
  free hf := countP_cons_not_locked ho ▸ h.free hf
  ready := h.tail_ready

lemma Inv.cons (h : Inv addrFromIP r kind s m) (ho : o.locked = false) : Inv addrFromIP r kind s (o ::ₘ m) where
  holds := h.holds
  holder := by rw [countP_cons_not_locked ho]; exact h.holder
  free hf := by rw [countP_cons_not_locked ho]; exact h.free hf
  ready o' ho' := by
    rcases mem_cons.1 ho' with rfl | ho'
    · exact ready_of_not_locked ho
    · exact h.ready o' ho'

lemma Inv.exec (haddr : ∀ b, addrFromIP b = addrFromSlice b) (hu : Usable r kind) {x : Unit}
    (hx : exec addrFromIP o x s = some (s', new)) (h : Inv addrFromIP r kind s (o ::ₘ m)) :
    Inv addrFromIP r kind s' (↑new + m) := by
  have hr := h.ready o (mem_cons_self _ _)
  unfold FakeIp.exec at hx
  cases o with
  | load domain isIPv6 =>
    have h' := h.drop rfl
    dsimp only at hx
    split at hx
    next address ha =>
      cases hx
      rw [pending_nil_add]
      exact { h' with holds := h.holds.created ha }
    next =>
      cases hx
      exact h'.cons rfl
  | lock domain isIPv6 =>
    have h' := h.drop rfl
    dsimp only at hx
    split at hx <;> cases hx
    next hf =>
      rw [pending_cons_add, pending_nil_add]
      have hz := h'.free (by simpa using hf)
      refine ⟨{ h'.holds with }, ?_, by simp, fun o ho => ?_⟩
      · rw [countP_cons_of_pos (p := fun o : Op => o.locked = true) _ rfl, hz]
      · rcases mem_cons.1 ho with rfl | ho
        · trivial
        · exact h'.ready o ho
  | check domain isIPv6 =>
    dsimp only at hx
    split at hx
    next address ha =>
      cases hx
      exact h.proceed rfl (h.holds.created ha) rfl rfl trivial
    next ha =>
      cases hx
      exact h.proceed rfl h.holds rfl rfl ha
  | advance domain isIPv6 =>
    dsimp only at hx
    split at hx
    · cases hx
      exact h.proceed rfl { h.holds with } rfl rfl trivial
    next address s'' ha =>
      cases hx
      obtain ⟨hh, hst, hlk, hfam, hval⟩ := h.holds.advance hu ha
      refine h.proceed rfl hh hlk rfl ⟨?_, hfam, hval⟩
      rw [hst]
      exact hr
  | store domain isIPv6 address =>
    cases hx
    exact h.proceed rfl (h.holds.store haddr hr) rfl rfl trivial
  | saveMetadataAsync =>
    cases hx
    exact h.proceed rfl (h.holds.sameLoads (sameLoads_saveMetadataAsync _ _)) rfl rfl trivial
  | unlock =>
    cases hx
    rw [pending_nil_add]
    have hz := h.others rfl
    exact ⟨{ h.holds with }, by omega, fun _ => hz, h.tail_ready⟩
  | lookup address =>
    cases hx
    rw [pending_nil_add]
    exact h.drop rfl
  | reset =>
    cases hx
    rw [pending_nil_add]
    have h' := h.drop rfl
    refine ⟨h.holds.reset haddr, h'.holder, h'.free, fun o ho => ?_⟩
    have hnone := (sound_reset s.storage h.holds.sound.clean haddr).1
    have hro := h'.ready o ho
    cases o with
    | advance domain isIPv6 => exact hnone isIPv6 domain
    | store domain isIPv6 address => exact ⟨hnone isIPv6 domain, hro.2⟩
    | _ => trivial
  | saveMetadata md =>
    cases hx
    rw [pending_nil_add]
    have h' := h.drop rfl
    have hl := sameLoads_saveMetadata addrFromIP s.storage md
    refine ⟨h.holds.sameLoads hl, h'.holder, h'.free, fun o ho => ?_⟩
    have hro := h'.ready o ho
    cases o with
    | advance domain isIPv6 => exact (congrFun (congrFun hl.address isIPv6) domain).trans hro
    | store domain isIPv6 address => exact ⟨(congrFun (congrFun hl.address isIPv6) domain).trans hro.1, hro.2⟩
    | _ => trivial

lemma Inv.entry (h : Inv addrFromIP r kind s m) (k : Call) :
    Inv addrFromIP r kind (entry k s).1 (↑(FakeIp.entry k s).2 + m) := by
  cases k with
  | create domain isIPv6 | lookup address | reset =>
    exact h.cons rfl
  | timer =>
    rw [FakeIp.entry]
    cases s.storage.saveMetadata with
    | none => exact (by simpa using h)
    | some md => exact (h.cons rfl)

lemma Holds.start_reset (haddr : ∀ b, addrFromIP b = addrFromSlice b)
    (hc : ∀ c, storage = .cacheFile c → c.Clean) (hk : storage.kind = kind) :
    Holds addrFromIP r kind (Store.start r storage none) where
  sound := (sound_reset storage hc haddr).2
  kind := by
    rw [← hk]
    cases storage <;> rfl
  ranges := rfl
  inet4Current := .start
  inet6Current := .start
  stands _ _ _ hs := hs.elim

lemma Started.holds (haddr : ∀ b, addrFromIP b = addrFromSlice b) (h : Started addrFromIP r kind s) :
    Holds addrFromIP r kind s := by
  cases h with
  | memory => exact .start_reset haddr (fun c hc => (by cases hc)) rfl
  | @cacheFile db metadata hdb hm =>
    have hc : ({ db } : CacheFile).Clean := ⟨fun _ => rfl, fun _ => rfl, fun _ => rfl, hdb.nonempty⟩
    have hclean : ∀ c, Storage.cacheFile { db } = .cacheFile c → c.Clean := fun c hc' => by
      cases hc'
      exact hc
    cases metadata with
    | none => exact .start_reset haddr hclean rfl
    | some md =>
      by_cases hr : md.inet4Range = r.inet4Range ∧ md.inet6Range = r.inet6Range
      · rw [Store.start, if_pos hr]
        obtain ⟨h4, h6⟩ := hm md rfl hr
        exact ⟨⟨hdb.linked, hclean⟩, rfl, rfl, h4, h6, fun _ _ _ hs => hs.elim⟩
      · rw [Store.start, if_neg hr]
        exact .start_reset haddr hclean rfl

lemma Holds.bijective (h : Holds addrFromIP r kind s) : Bijective addrFromIP s :=
  ⟨h.stands, fun _ _ _ _ => h.sound.linked.injective, h.sound.linked⟩

/-! ### The end of a family -/

/-- `Create` for a domain that has no address, without any other call. -/
def createRun (domain : Domain) (isIPv6 : Bool) : List (Event Unit Call) :=
  [.call (.create domain isIPv6), .sched 0 (), .sched 0 (), .sched 0 (), .sched 0 (), .sched 0 ()]

lemma runOf_createRun (hn : addressOf addrFromIP s.storage isIPv6 domain = none) (hf : s.locked = false)
    (ha : Store.advance { s with locked := true } isIPv6 = .ok (address, s')) :
    runOf (program addrFromIP).step (Config.init s) (createRun domain isIPv6) =
      some ⟨{ s' with storage := s'.storage.fakeIPStore address domain }.record (.created domain isIPv6 address),
        [[.saveMetadataAsync]]⟩ := by
  have hn' : s.storage.fakeIPLoadDomain addrFromIP domain isIPv6 = none := hn
  simp [createRun, runOf, Program.step, program, Config.init, FakeIp.entry, FakeIp.exec, hn', hf, ha]

lemma advance_end4 {p : Range 32} (hr : r.inet4Range = some p) (hp : p.addr = BitVec.allOnes 32 - 1)
    (storage : Storage) :
    ∃ s', Store.advance { Store.start r storage none with locked := true } false = .ok (none, s') ∧
      s'.storage = storage.fakeIPReset := by
  obtain ⟨h1, h2⟩ := nextAddress_end (by decide) hp
  simpa [Store.advance, Store.start, hr, h1] using h2

lemma advance_end6 {p : Range 128} (hr : r.inet6Range = some p) (hp : p.addr = BitVec.allOnes 128 - 1)
    (storage : Storage) : ∃ s', Store.advance { Store.start r storage none with locked := true } true = .ok (none, s') ∧
      s'.storage = storage.fakeIPReset := by
  obtain ⟨h1, h2⟩ := nextAddress_end (by decide) hp
  simpa [Store.advance, Store.start, hr, h1] using h2

/-- The zero address that `Create` returns is not found again. -/
lemma not_bijective_of_zero (hs : s.locked = false) (hn : addressOf addrFromIP s.storage isIPv6 domain = none)
    (ha : ∃ s', Store.advance { s with locked := true } isIPv6 = .ok (none, s') ∧ s'.storage = s.storage)
    (hz : addressOf addrFromIP (s.storage.fakeIPStore none domain) isIPv6 domain = none) :
    ¬VisitAll (program addrFromIP).step (fun c => Bijective addrFromIP c.shared) (Config.init s)
      (createRun domain isIPv6) := by
  intro hv
  obtain ⟨s', ha, hst⟩ := ha
  have hb := hv.last (runOf_createRun hn hs ha)
  have hfound := (hb.stands domain isIPv6 none (.inl ⟨rfl, rfl, rfl⟩)).2
  change addressOf addrFromIP (s'.storage.fakeIPStore none domain) isIPv6 domain = some none at hfound
  rw [hst, hz] at hfound
  cases hfound

/-- The zero address is no IPv4 address for the maps, and the database does not take it. -/
lemma addressOf_store_zero {domain : GoString}
    (hk : storage.kind = .memory → isIPv6 = false) (hn : addressOf addrFromIP storage isIPv6 domain = none) :
    addressOf addrFromIP (storage.fakeIPStore none domain) isIPv6 domain = none := by
  cases storage with
  | memory s =>
    obtain rfl := hk rfl
    rw [← hn]
    simp only [addressOf, Storage.fakeIPStore, Storage.fakeIPLoadDomain, MemoryStorage.fakeIPStore]
    cases s.addressCache none <;> rfl
  | cacheFile c => exact hn

lemma not_bijective_of_end (haddr : ∀ b, addrFromIP b = addrFromSlice b)
    (ha : ∀ storage, ∃ s', Store.advance { Store.start r storage none with locked := true } isIPv6 = .ok (none, s') ∧
      s'.storage = storage.fakeIPReset) (hk : kind = .memory → isIPv6 = false) :
    ∃ s evs, Started addrFromIP r kind s ∧
      ¬VisitAll (program addrFromIP).step (fun c => Bijective addrFromIP c.shared) (Config.init s) evs := by
  obtain ⟨storage, hst, hc, hs⟩ : ∃ storage : Storage, storage.kind = kind ∧
      (∀ c, storage = .cacheFile c → c.Clean) ∧ Started addrFromIP r kind (Store.start r storage none) := by
    cases kind with
    | memory => exact ⟨.memory {}, rfl, fun c hc => (by cases hc), .memory⟩
    | cacheFile =>
      have hclean : ∀ c, Storage.cacheFile {} = .cacheFile c → c.Clean := fun c hc => by
        cases hc
        exact ⟨fun _ => rfl, fun _ => rfl, fun _ => rfl, fun _ hk => (by cases hk)⟩
      have hdb : Consistent addrFromIP {} :=
        ⟨(sound_reset (.cacheFile {}) hclean haddr).2.linked, fun _ hk => (by cases hk)⟩
      exact ⟨_, rfl, hclean, .cacheFile none hdb fun _ hm => (by cases hm)⟩
  have hn := (sound_reset storage hc haddr).1
  have hkind : storage.fakeIPReset.kind = kind := by
    rw [← hst]
    cases storage <;> rfl
  let domain : Domain := ⟨ascii "a", by decide⟩
  exact ⟨_, createRun domain isIPv6, hs, not_bijective_of_zero rfl (hn isIPv6 domain) (ha storage)
    (addressOf_store_zero (fun h => hk (hkind.symm.trans h)) (hn isIPv6 domain))⟩

end

/-- **The FakeIP addresses and their domains are a bijection** at every moment of every run of a store that has been
started with these ranges, exactly when no range of the two starts with the second address before the end of its
family. -/
theorem fakeip_bijection_iff (addrFromIP : GoString → NetAddr) (haddr : ∀ b, addrFromIP b = addrFromSlice b)
    (r : Ranges) (kind : StorageKind) : (∀ s, Started addrFromIP r kind s → ∀ evs, VisitAll (program addrFromIP).step
      (fun c => Bijective addrFromIP c.shared) (Config.init s) evs) ↔ Usable r kind := by
  constructor
  · intro h
    by_contra hu
    obtain ⟨s, evs, hs, hv⟩ : ∃ s evs, Started addrFromIP r kind s ∧
        ¬VisitAll (program addrFromIP).step (fun c => Bijective addrFromIP c.shared) (Config.init s) evs := by
      rw [Usable, not_and_or] at hu
      rcases hu with hu | hu
      · push Not at hu
        obtain ⟨p, hp, he⟩ := hu
        exact not_bijective_of_end haddr (advance_end4 hp he) fun _ => rfl
      · push Not at hu
        obtain ⟨rfl, p, hp, he⟩ := hu
        exact not_bijective_of_end haddr (advance_end6 hp he) fun h => (by cases h)
    exact hv (h s hs evs)
  · intro hu s hs evs
    have hinit : Inv addrFromIP r kind s 0 :=
      ⟨hs.holds haddr, by simp, fun _ => by simp, fun o ho => by simp at ho⟩
    have hrun := visitAll_of_inv (I := fun c => Inv addrFromIP r kind c.shared c.pending)
      (Program.step_inv (P := program addrFromIP) _ (fun k _ _ h => h.entry k)
        fun _ _ _ _ _ _ hx h => h.exec haddr hu hx) evs (s := Config.init s) hinit
    exact hrun.imp fun _ h => h.holds.bijective

/-- The ranges `198.18.0.0/15` and `fc00::/18`. -/
def sampleRanges : Ranges where
  inet4Range := some ⟨0xc6120000#32, 15⟩
  inet6Range := some ⟨0xfc000000000000000000000000000000#128, 18⟩

theorem fakeip_bijection_sample : Usable sampleRanges .cacheFile ∧
    ∀ s, Started addrFromSlice sampleRanges .cacheFile s → ∀ evs, VisitAll (program addrFromSlice).step
      (fun c => Bijective addrFromSlice c.shared) (Config.init s) evs :=
  ⟨by decide, (fakeip_bijection_iff addrFromSlice (fun _ => rfl) sampleRanges .cacheFile).2 (by decide)⟩

/-- The range `255.255.255.254/31`. -/
def endRanges : Ranges := ⟨some ⟨0xfffffffe#32, 31⟩, none⟩

/-- The first address of `255.255.255.254/31` that is handed out is the zero one, and it is kept among the IPv6
addresses: it is not found again for the domain. -/
theorem zero_address_handed_out : ¬VisitAll (program addrFromSlice).step (fun c => Bijective addrFromSlice c.shared)
    (Config.init (Store.start endRanges (.memory {}) none)) (createRun ⟨ascii "a", by decide⟩ false) :=
  not_bijective_of_zero rfl rfl (advance_end4 rfl rfl (.memory {})) (addressOf_store_zero (fun _ => rfl) rfl)

end SingBox.FakeIp
