import SingBox.Dns.Client
import SingBox.Lib.Run

/-!
# The key a cached answer is served for

The cache in memory is a map over the whole key.  The store in a file is one over a name, a question name and a type;
`persistentName` writes the name from the transport tag, the client subnet and the environment, and the class of the
question is left out.

`CacheKey.Separable` is what keeps two keys apart in the store: with it the name determines the three parts it was
written from.
-/

namespace SingBox.Dns

open SingBox.Lib List Option Function

/-! ### The text of a subnet -/

variable {ch : Char}

lemma Addr.isAddrChar_of_mem {a : Addr} (h : ch ∈ a.string.toList) : isAddrChar ch = true := by
  cases a with
  | v4 bits => exact isAddrChar_of_mem_string4 (by simpa [Addr.string] using h)
  | v6 bits => exact isAddrChar_of_mem_string16 (by simpa [Addr.string] using h)

lemma Addr.string_injective : Function.Injective Addr.string := by
  intro a b h
  cases a with
  | v4 x =>
    cases b with
    | v4 y => rw [string4_injective (String.ofList_injective h)]
    | v6 y => exact absurd (String.ofList_injective h ▸ colon_mem_string16 y) (colon_not_mem_string4 x)
  | v6 x =>
    cases b with
    | v4 y => exact absurd (String.ofList_injective h ▸ colon_mem_string16 x) (colon_not_mem_string4 y)
    | v6 y => rw [string16_injective (String.ofList_injective h)]

def Subnet.addrString (p : Subnet) : String := p.addr.elim "invalid IP" Addr.string

variable {p : Subnet}

lemma Subnet.toList_string {bits : ℕ} (h : p.bits = some bits) :
    p.string.toList = p.addrString.toList ++ '/' :: formatBase 10 bits := by
  simp [Subnet.string, h, Subnet.addrString]

lemma Subnet.mem_addrString (h : ch ∈ p.addrString.toList) : ch ∈ "invalid IP".toList ∨ isAddrChar ch = true := by
  rw [Subnet.addrString] at h
  cases ha : p.addr with
  | none => exact Or.inl (by simpa [ha] using h)
  | some a => exact Or.inr (Addr.isAddrChar_of_mem (by simpa [ha] using h))

/-- Neither the bytes that `persistentName` puts in front of a part, nor the slash. -/
lemma Subnet.not_mem_addrString (h : ch ∈ ['/', '\x00', '\x01']) : ch ∉ p.addrString.toList := by
  intro hm
  simp only [mem_cons, not_mem_nil, or_false] at h
  rcases Subnet.mem_addrString hm with hm | hm <;> rcases h with rfl | rfl | rfl <;> exact absurd hm (by decide)

lemma Subnet.addrString_inj {q : Subnet} (h : p.addrString = q.addrString) : p.addr = q.addr := by
  have hno : ∀ a : Addr, a.string ≠ "invalid IP" := by
    intro a ha
    have : isAddrChar ' ' = true := Addr.isAddrChar_of_mem (by rw [ha]; decide)
    exact absurd this (by decide)
  simp only [Subnet.addrString] at h
  cases hp : p.addr with
  | none =>
    cases hq : q.addr with
    | none => rfl
    | some b =>
      rw [hp, hq] at h
      exact absurd h.symm (hno b)
  | some a =>
    cases hq : q.addr with
    | none =>
      rw [hp, hq] at h
      exact absurd h (hno a)
    | some b =>
      rw [hp, hq] at h
      rw [Addr.string_injective h]

/-- The bytes that `persistentName` puts in front of a part are not in a number. -/
lemma not_mem_formatBase {b n : ℕ} (hb : 2 ≤ b ∧ b ≤ 36) (h : ch ∈ ['\x00', '\x01']) : ch ∉ formatBase b n := by
  intro hm
  simp only [mem_cons, not_mem_nil, or_false] at h
  rcases h with rfl | rfl <;> exact absurd (mem_formatBase hb.1 hb.2 hm) (by decide)

lemma slash_not_mem_formatBase (n : ℕ) : '/' ∉ formatBase 10 n := fun h =>
  absurd (mem_formatBase (by omega) (by omega) h) (by decide)

lemma Subnet.string_inj {q : Subnet} (hp : p.isValid = true) (hq : q.isValid = true) (h : p.string = q.string) :
    p = q := by
  obtain ⟨m, hm⟩ := isSome_iff_exists.1 hp
  obtain ⟨n, hn⟩ := isSome_iff_exists.1 hq
  have hl := congrArg String.toList h
  rw [Subnet.toList_string hm, Subnet.toList_string hn, append_cons_inj_of_notMem
    (Subnet.not_mem_addrString (by simp)) (slash_not_mem_formatBase m)] at hl
  have haddr := Subnet.addrString_inj (String.toList_inj.1 hl.1)
  have hbits := formatBase_injective (by omega) (by omega) hl.2.2
  cases p
  cases q
  simp_all

lemma Subnet.not_mem_string (hp : p.isValid = true) (h : ch ∈ ['\x00', '\x01']) : ch ∉ p.string.toList := by
  obtain ⟨m, hm⟩ := isSome_iff_exists.1 hp
  rw [Subnet.toList_string hm]
  intro hmem
  rcases mem_append.1 hmem with hmem | hmem
  · exact Subnet.not_mem_addrString (mem_cons_of_mem _ h) hmem
  · rcases mem_cons.1 hmem with rfl | hmem
    · exact absurd h (by decide)
    · exact not_mem_formatBase (by omega) h hmem

/-! ### The name in the store -/

def CacheKey.subnetPart (k : CacheKey) : List Char :=
  if k.clientSubnet.isValid then '\x00' :: k.clientSubnet.string.toList else []

def CacheKey.environmentPart (k : CacheKey) : List Char :=
  if k.environment ≠ 0 then '\x01' :: formatBase 36 k.environment else []

lemma CacheKey.toList_persistentName (k : CacheKey) :
    k.persistentName.toList = k.transportTag.toList ++ (k.subnetPart ++ k.environmentPart) := by
  simp only [CacheKey.persistentName, CacheKey.subnetPart, CacheKey.environmentPart]
  split <;> split <;> simp

lemma CacheKey.not_mem_subnetPart (k : CacheKey) : '\x01' ∉ k.subnetPart := by
  rw [CacheKey.subnetPart]
  split
  next h =>
    intro hm
    rcases mem_cons.1 hm with hm | hm
    · exact absurd hm (by decide)
    · exact Subnet.not_mem_string h (by simp) hm
  · simp

/-- The part for the subnet ends where the one for the environment begins. -/
lemma CacheKey.takeWhile_parts (k : CacheKey) :
    (k.subnetPart ++ k.environmentPart).takeWhile (· ≠ '\x01') = k.subnetPart := by
  have hs : ∀ ch ∈ k.subnetPart, (decide (ch ≠ '\x01')) = true := fun ch hm => by
    have hne : ch ≠ '\x01' := fun h => k.not_mem_subnetPart (h ▸ hm)
    simpa using hne
  rw [takeWhile_append_of_pos hs, CacheKey.environmentPart]
  split <;> simp

variable {k k' : CacheKey}

lemma CacheKey.parts_inj (h : k.subnetPart ++ k.environmentPart = k'.subnetPart ++ k'.environmentPart) :
    k.subnetPart = k'.subnetPart ∧ k.environmentPart = k'.environmentPart := by
  have hs : k.subnetPart = k'.subnetPart := by
    rw [← k.takeWhile_parts, h, k'.takeWhile_parts]
  rw [hs] at h
  exact ⟨hs, append_cancel_left h⟩

lemma CacheKey.environment_inj (h : k.environmentPart = k'.environmentPart) : k.environment = k'.environment := by
  simp only [CacheKey.environmentPart] at h
  split at h <;> split at h
  · exact formatBase_injective (by omega) (by omega) (cons.inj h).2
  · cases h
  · cases h
  · omega

lemma CacheKey.subnet_inj (h : k.subnetPart = k'.subnetPart) :
    k.clientSubnet = k'.clientSubnet ∨ k.clientSubnet.isValid = false ∧ k'.clientSubnet.isValid = false := by
  simp only [CacheKey.subnetPart] at h
  split at h <;> split at h
  next hk hk' => exact Or.inl (Subnet.string_inj hk hk' (String.toList_inj.1 (cons.inj h).2))
  · cases h
  · cases h
  next hk hk' => exact Or.inr ⟨by simpa using hk, by simpa using hk'⟩

/-! ### Keys the store keeps apart -/

/-- The tag of the second key is the name of the first one, with or without its environment, and the second key has none
of the parts that this name has. -/
def CacheKey.Continues (k k' : CacheKey) : Prop :=
  k.transportTag ≠ k'.transportTag ∧ k'.clientSubnet.isValid = false ∧
  (k'.transportTag = { k with environment := 0 }.persistentName ∧ k'.environment = k.environment ∨
    k'.transportTag = k.persistentName ∧ k'.environment = 0)

/-- If the keys ask for one name and type, they have one class, no tag is the name of the other key, and the subnets are
the same if neither is valid. -/
def CacheKey.Separable (k k' : CacheKey) : Prop :=
  k.question.name = k'.question.name → k.question.qtype = k'.question.qtype →
    k.question.qclass = k'.question.qclass ∧ ¬k.Continues k' ∧ ¬k'.Continues k ∧
    (k.clientSubnet.isValid = false → k'.clientSubnet.isValid = false → k.clientSubnet = k'.clientSubnet)

lemma CacheKey.subnetPart_eq_nil (h : k.clientSubnet.isValid = false) : k.subnetPart = [] := by
  simp [CacheKey.subnetPart, h]

/-- A name begins a part for a subnet only where its first part begins. -/
lemma CacheKey.not_mem_tail_parts (k : CacheKey) : '\x00' ∉ (k.subnetPart ++ k.environmentPart).tail := by
  have henv : '\x00' ∉ k.environmentPart := by
    rw [CacheKey.environmentPart]
    split
    · intro h
      rcases mem_cons.1 h with h | h
      · exact absurd h (by decide)
      · exact not_mem_formatBase (by omega) (by simp) h
    · simp
  rw [CacheKey.subnetPart]
  split
  next h =>
    simp only [cons_append, tail_cons, mem_append, not_or]
    exact ⟨Subnet.not_mem_string h (by simp), henv⟩
  · exact fun h => henv (mem_of_mem_tail h)

/-- A tag that goes on where the other one ends, in a name of both, is a name of the other key. -/
lemma CacheKey.continues_of_append {s : List Char} (hs : s ≠ [])
    (htag : k'.transportTag.toList = k.transportTag.toList ++ s)
    (hp : k.subnetPart ++ k.environmentPart = s ++ (k'.subnetPart ++ k'.environmentPart)) : k.Continues k' := by
  have hne : k.transportTag ≠ k'.transportTag := by
    intro h
    rw [h] at htag
    exact hs (self_eq_append_right.1 htag)
  have hsub : k'.clientSubnet.isValid = false := by
    by_contra hv
    obtain ⟨ch, s, rfl⟩ := exists_cons_of_ne_nil hs
    refine k.not_mem_tail_parts ?_
    rw [hp, CacheKey.subnetPart, if_pos (by simpa using hv)]
    simp
  rw [k'.subnetPart_eq_nil hsub, nil_append] at hp
  refine ⟨hne, hsub, ?_⟩
  by_cases henv : k'.environment = 0
  · refine Or.inr ⟨String.toList_inj.1 ?_, henv⟩
    rw [htag, k.toList_persistentName, hp]
    simp [CacheKey.environmentPart, henv]
  · -- the part for the environment begins where the subnet of the first key ends
    rw [CacheKey.environmentPart, CacheKey.environmentPart, if_pos henv] at hp
    by_cases hk : k.environment = 0
    · rw [if_neg (not_not.2 hk), append_nil] at hp
      exact absurd (hp ▸ by simp) k.not_mem_subnetPart
    · rw [if_pos hk, append_cons_inj_of_notMem k.not_mem_subnetPart (not_mem_formatBase (by omega) (by simp))] at hp
      refine Or.inl ⟨String.toList_inj.1 ?_, (formatBase_injective (by omega) (by omega) hp.2.2).symm⟩
      rw [htag, CacheKey.toList_persistentName, ← hp.1]
      simp [CacheKey.environmentPart, CacheKey.subnetPart]

/-- Of two names that are equal, the tags are, unless one continues the other. -/
lemma CacheKey.tag_inj (h1 : ¬k.Continues k') (h2 : ¬k'.Continues k) (h : k.persistentName = k'.persistentName) :
    k.transportTag = k'.transportTag := by
  have hl := congrArg String.toList h
  rw [k.toList_persistentName, k'.toList_persistentName] at hl
  rcases append_eq_append_iff.1 hl with ⟨s, hs, hp⟩ | ⟨s, hs, hp⟩
  · by_cases h0 : s = []
    · rw [h0, append_nil] at hs
      exact (String.toList_inj.1 hs).symm
    · exact absurd (CacheKey.continues_of_append h0 hs hp) h1
  · by_cases h0 : s = []
    · rw [h0, append_nil] at hs
      exact String.toList_inj.1 hs
    · exact absurd (CacheKey.continues_of_append h0 hs hp) h2

/-- **Separable keys share a place in the store only if they are equal.** -/
theorem CacheKey.storeKey_inj (hk : k.Separable k') (h : k.storeKey = k'.storeKey) : k = k' := by
  simp only [CacheKey.storeKey, StoreKey.mk.injEq] at h
  obtain ⟨hname, hq, ht⟩ := h
  obtain ⟨hclass, h1, h2, hsubnet⟩ := hk hq ht
  have htag := CacheKey.tag_inj h1 h2 hname
  have hl := congrArg String.toList hname
  rw [k.toList_persistentName, k'.toList_persistentName, htag] at hl
  obtain ⟨hs, he⟩ := CacheKey.parts_inj (append_cancel_left hl)
  have hsub : k.clientSubnet = k'.clientSubnet := by
    rcases CacheKey.subnet_inj hs with hs | ⟨hs, hs'⟩
    · exact hs
    · exact hsubnet hs hs'
  have henv := CacheKey.environment_inj he
  obtain ⟨⟨_, _, _⟩, _, _, _⟩ := k
  simp_all

variable {σ β : Type}

/-- The calls on the cache.  An entry may also be removed at any time: the file is purged. -/
inductive CacheCall where
  | storeCache (key : CacheKey) (message origin : Msg) (timeToLive now : ℕ)
  | loadResponse (key : CacheKey) (now : ℕ)
  | evict (key : CacheKey)

structure Stored where
  key : CacheKey
  message : Msg
  origin : Msg

/-- The cache, with what has been stored, and what has been served for which key. -/
structure CacheHistory (σ β : Type) where
  state : ClientState σ β
  stored : List Stored := []
  served : List (CacheKey × Answer) := []

def Client.newCache (c : Client σ β) : CacheHistory σ β := { state := { cache := c.lru.new } }

def Client.cacheStep (c : Client σ β) (h : CacheHistory σ β) : CacheCall → Option (CacheHistory σ β)
  | .storeCache key message origin timeToLive now =>
    some { h with state := c.storeCache h.state key message origin timeToLive now
                  stored := ⟨key, message, origin⟩ :: h.stored }
  | .loadResponse key now =>
    some { h with state := (c.loadResponse h.state key now).2
                  served := ((c.loadResponse h.state key now).1.map fun l => (key, l.answer)).toList ++ h.served }
  | .evict key =>
    some { h with state := { h.state with
      cache := c.lru.remove h.state.cache key
      dnsCache := Function.update h.state.dnsCache key.storeKey none } }

/-- What can be served of a message: its times to live may be rewritten. -/
def SameBut (m r : Msg) : Prop := r = m ∨ ∃ timeToLive, r = normalizeTTL m timeToLive

/-- What can be served of a stored message; a file gives back what its bytes decode to. -/
def Client.Restores (c : Client σ β) (m r : Msg) : Prop :=
  match c.backend with
  | .persistent => ∃ raw m', c.pack m = some raw ∧ c.unpack raw = some m' ∧ SameBut m' r
  | _ => SameBut m r

/-- An answer comes from what was stored under a key.  Since every call may have an origin of its own, this says which
call stored it. -/
def Client.StoredUnder (c : Client σ β) (stored : List Stored) (key : CacheKey) (answer : Answer) : Prop :=
  ∃ e ∈ stored, e.key = key ∧ e.origin = answer.origin ∧ c.Restores e.message answer.message

/-- Every answer served for a key was stored under this key. -/
def Client.OwnKey (c : Client σ β) (h : CacheHistory σ β) : Prop := ∀ p ∈ h.served, c.StoredUnder h.stored p.1 p.2

/-- A load from a file, for a key that can be told from the keys that were stored. -/
def Client.SeparableCall (c : Client σ β) (h : CacheHistory σ β) : CacheCall → Prop
  | .loadResponse key _ => c.backend = .persistent → ∀ e ∈ h.stored, key.Separable e.key
  | _ => True

lemma Client.serve_sameBut {c : Client σ β} {m o : Msg} {expireAt now : ℕ} {l : Loaded}
    (h : c.serve m o expireAt now = some l) : l.answer.origin = o ∧ SameBut m l.answer.message := by
  simp only [Client.serve] at h
  split at h
  · split at h
    · cases h
      exact ⟨rfl, Or.inr ⟨_, rfl⟩⟩
    · cases h
  · cases h
    exact ⟨rfl, Or.inr ⟨_, rfl⟩⟩

/-- Every entry was put where it is by a call that stored it there. -/
structure Client.Kept (c : Client σ β) (s : ClientState σ β) (stored : List Stored) : Prop where
  memory : ∀ key entry, c.lru.entries s.cache key = some entry →
    ∃ e ∈ stored, e.key = key ∧ e.origin = entry.1.origin ∧ e.message = entry.1.message
  persistent : ∀ key entry, s.dnsCache key = some entry →
    ∃ e ∈ stored, e.key.storeKey = key ∧ e.origin = entry.origin ∧ c.pack e.message = some entry.raw

section Kept

variable {c : Client σ β} {s : ClientState σ β} {stored : List Stored}

lemma Client.Kept.mono (hk : c.Kept s stored) (e : Stored) : c.Kept s (e :: stored) := by
  constructor
  · intro key entry hentry
    obtain ⟨e', he, hrest⟩ := hk.memory key entry hentry
    exact ⟨e', mem_cons_of_mem _ he, hrest⟩
  · intro key entry hentry
    obtain ⟨e', he, hrest⟩ := hk.persistent key entry hentry
    exact ⟨e', mem_cons_of_mem _ he, hrest⟩

/-- The cache in memory may lose entries. -/
lemma Client.Kept.within (hk : c.Kept s stored) {cache : σ}
    (hw : Within (c.lru.entries cache) (c.lru.entries s.cache)) : c.Kept { s with cache := cache } stored :=
  ⟨fun key entry hentry => hk.memory key entry (hw key entry hentry), hk.persistent⟩

lemma Client.Kept.remove (hc : c.lru.Lawful) (hk : c.Kept s stored) (key : CacheKey) :
    c.Kept { s with cache := c.lru.remove s.cache key } stored := by
  refine hk.within fun k entry hentry => ?_
  have hentry := hc.remove s.cache key k entry hentry
  by_cases hkey : k = key
  · simp [hkey] at hentry
  · rwa [update_of_ne hkey] at hentry

lemma Client.Kept.purge (hk : c.Kept s stored) (key : StoreKey) :
    c.Kept { s with dnsCache := Function.update s.dnsCache key none } stored := by
  refine ⟨hk.memory, fun k entry hentry => ?_⟩
  by_cases hkey : k = key
  · simp [hkey] at hentry
  · exact hk.persistent k entry (by simpa [update_of_ne hkey] using hentry)

lemma Client.Kept.addMemory (hk : c.Kept s stored) {e : Stored} (he : e ∈ stored) {cache : σ} {expireAt : Option ℕ}
    (hw : Within (c.lru.entries cache)
      (update (c.lru.entries s.cache) e.key (some (⟨e.message, e.origin⟩, expireAt)))) :
    c.Kept { s with cache := cache } stored := by
  refine ⟨fun k entry hentry => ?_, hk.persistent⟩
  have hentry := hw k entry hentry
  by_cases hkey : k = e.key
  · subst hkey
    simp only [update_self, some.injEq] at hentry
    exact ⟨e, he, rfl, by simp [← hentry], by simp [← hentry]⟩
  · exact hk.memory k entry (by simpa [update_of_ne hkey] using hentry)

lemma Client.Kept.addPersistent (hk : c.Kept s stored) {e : Stored} (he : e ∈ stored) {raw : β}
    (hraw : c.pack e.message = some raw) (expireAt : ℕ) :
    c.Kept { s with dnsCache := Function.update s.dnsCache e.key.storeKey (some ⟨raw, expireAt, e.origin⟩) }
      stored := by
  refine ⟨hk.memory, fun k entry hentry => ?_⟩
  by_cases hkey : k = e.key.storeKey
  · subst hkey
    simp only [update_self, some.injEq] at hentry
    exact ⟨e, he, rfl, by simp [← hentry], by simp [← hentry, hraw]⟩
  · exact hk.persistent k entry (by simpa [update_of_ne hkey] using hentry)

lemma Client.Kept.storeCache (hc : c.lru.Lawful) (hk : c.Kept s stored) (key : CacheKey) (m o : Msg)
    (timeToLive now : ℕ) : c.Kept (c.storeCache s key m o timeToLive now) (⟨key, m, o⟩ :: stored) := by
  have hold := hk.mono ⟨key, m, o⟩
  simp only [Client.storeCache]
  split
  · exact hold
  · split
    · split
      · exact hold
      next raw hraw => exact hold.addPersistent mem_cons_self hraw _
    · exact hold
    · split
      · exact hold.addMemory mem_cons_self (hc.add s.cache key ⟨m, o⟩)
      · obtain ⟨_, -, hw⟩ := hc.addWithLifetime s.cache key ⟨m, o⟩ (timeToLive * 10 ^ 9) now
        exact hold.addMemory mem_cons_self hw

lemma Client.Kept.loadResponse (hc : c.lru.Lawful) (hk : c.Kept s stored) (key : CacheKey) (now : ℕ) :
    c.Kept (c.loadResponse s key now).2 stored := by
  have hfound := hk.within (hc.afterGetWithLifetime s.cache key)
  simp only [Client.loadResponse]
  split
  · exact hk
  · exact hk
  · split
    · exact hk.within (hc.afterGet s.cache key now)
    · split
      next heq => rwa [heq] at hfound
      next heq =>
        rw [heq] at hfound
        split
        · exact hfound
        · exact hfound.remove hc key



lemma Client.loadPersistentResponse_storedUnder (hk : c.Kept s stored) (hb : c.backend = .persistent)
    {key : CacheKey} (hsep : ∀ e ∈ stored, key.Separable e.key) {now : ℕ} {l : Loaded}
    (hl : c.loadPersistentResponse s key now = some l) : c.StoredUnder stored key l.answer := by
  simp only [Client.loadPersistentResponse, bind_eq_bind, bind_eq_some_iff] at hl
  obtain ⟨entry, hentry, m', hm', hl⟩ := hl
  obtain ⟨e, he, hkey, horigin, hpack⟩ := hk.persistent _ _ hentry
  have hl' : l.answer.origin = entry.origin ∧ SameBut m' l.answer.message := by
    split at hl
    · cases hl
      exact ⟨rfl, Or.inl rfl⟩
    · exact Client.serve_sameBut hl
  refine ⟨e, he, (CacheKey.storeKey_inj (hsep e he) hkey.symm).symm, horigin.trans hl'.1.symm, ?_⟩
  simp only [Client.Restores, hb]
  exact ⟨entry.raw, m', hpack, hm', hl'.2⟩

lemma Client.loadResponse_storedUnder (hc : c.lru.Lawful) (hk : c.Kept s stored) {key : CacheKey}
    (hsep : c.backend = .persistent → ∀ e ∈ stored, key.Separable e.key) {now : ℕ} {l : Loaded}
    (hl : (c.loadResponse s key now).1 = some l) : c.StoredUnder stored key l.answer := by
  simp only [Client.loadResponse] at hl
  cases hb : c.backend with
  | persistent =>
    simp only [hb] at hl
    exact Client.loadPersistentResponse_storedUnder hk hb (hsep hb) hl
  | none => simp [hb] at hl
  | memory =>
    -- an answer found in memory was stored for its key, and is served as it is or with other times to live
    have hserved {a : Answer} {e : Option ℕ} (hentry : c.lru.entries s.cache key = some (a, e))
        (horigin : l.answer.origin = a.origin) (hsame : SameBut a.message l.answer.message) :
        c.StoredUnder stored key l.answer := by
      obtain ⟨st, hst, hkey, ho, hmsg⟩ := hk.memory _ _ hentry
      refine ⟨st, hst, hkey, ho.trans horigin.symm, ?_⟩
      simp only [Client.Restores, hb]
      exact hmsg ▸ hsame
    simp only [hb] at hl
    split at hl
    · obtain ⟨a, ha, rfl⟩ := map_eq_some_iff.1 hl
      obtain ⟨_, hentry⟩ := hc.get _ _ _ _ ha
      exact hserved hentry rfl (Or.inl rfl)
    · split at hl
      · cases hl
      next answer expireAt _ heq =>
        obtain ⟨_, hentry, -⟩ := hc.getWithLifetime s.cache key answer expireAt (by rw [heq])
        split at hl
        next l' hl' =>
          cases hl
          have hs := Client.serve_sameBut hl'
          exact hserved hentry hs.1 hs.2
        · cases hl

end Kept

/-- What holds after every call: the entries are where they were stored, and every answer was stored under its key. -/
structure Client.CacheInv (c : Client σ β) (h : CacheHistory σ β) : Prop where
  kept : c.Kept h.state h.stored
  ownKey : c.OwnKey h

lemma Client.cacheStep_inv {c : Client σ β} (hc : c.lru.Lawful) {h h' : CacheHistory σ β} {call : CacheCall}
    (hstep : c.cacheStep h call = some h') (hsep : c.SeparableCall h call) (hI : c.CacheInv h) : c.CacheInv h' := by
  cases call with
  | storeCache key m o timeToLive now =>
    rw [Client.cacheStep, some.injEq] at hstep
    subst hstep
    refine ⟨hI.kept.storeCache hc key m o timeToLive now, fun p hp => ?_⟩
    obtain ⟨e, he, hrest⟩ := hI.ownKey p hp
    exact ⟨e, mem_cons_of_mem _ he, hrest⟩
  | loadResponse key now =>
    rw [Client.cacheStep, some.injEq] at hstep
    subst hstep
    refine ⟨hI.kept.loadResponse hc key now, fun p hp => ?_⟩
    rcases mem_append.1 hp with hp | hp
    · rw [mem_toList, map_eq_some_iff] at hp
      obtain ⟨l, hl, rfl⟩ := hp
      exact Client.loadResponse_storedUnder hc hI.kept hsep hl
    · exact hI.ownKey p hp
  | evict key =>
    rw [Client.cacheStep, some.injEq] at hstep
    subst hstep
    exact ⟨(hI.kept.remove hc key).purge key.storeKey, hI.ownKey⟩

/-- **A cached answer is served only for its own key**, in memory in every run, from a file in every run whose loads are
for keys that can be told from those that were stored. -/
theorem ownKey_of_separable (c : Client σ β) (hc : c.lru.Lawful) (calls : List CacheCall)
    (h : StepAll c.cacheStep c.SeparableCall c.newCache calls) : VisitAll c.cacheStep c.OwnKey c.newCache calls := by
  have hinit : c.CacheInv c.newCache :=
    ⟨⟨by simp [Client.newCache, hc.new], by simp [Client.newCache]⟩, by simp [Client.OwnKey, Client.newCache]⟩
  have hrun := visitAll_of_stepAll (fun _ _ _ => Client.cacheStep_inv hc) calls hinit h
  exact hrun.imp fun _ hI => hI.ownKey

/-! ### A class that is lost -/

/-- A client with its cache in a file. -/
def persistentClient : Client (CacheKey → Option (Answer × Option ℕ)) Msg where
  backend := .persistent
  lru := mapCache
  pack := some
  unpack := some

/-- A key for the version of a server: a TXT question, in a class. -/
def versionKey (qclass : ℕ) : CacheKey :=
  { question := { name := "version.bind.", qtype := 16, qclass := qclass }, transportTag := "local" }

def versionResponse : Msg := { response := true, question := [{ name := "version.bind.", qtype := 16 }] }

/-- An answer in class IN is stored, and one in a class is asked for a second later. -/
def classCalls (qclass : ℕ) : List CacheCall :=
  [.storeCache (versionKey 1) versionResponse versionResponse 60 0, .loadResponse (versionKey qclass) (10 ^ 9)]

/-- In the store in a file the question in class CH gets the answer to the one in class IN. -/
theorem chaos_gets_internet_answer : ∃ h,
      runOf persistentClient.cacheStep persistentClient.newCache (classCalls 3) = some h ∧
      (h.served.map fun p => p.1) = [versionKey 3] ∧ ¬persistentClient.OwnKey h := by
  refine ⟨_, rfl, by decide, fun hown => ?_⟩
  obtain ⟨e, he, hkey, -⟩ := hown (versionKey 3, _) mem_cons_self
  obtain rfl : e = ⟨versionKey 1, versionResponse, versionResponse⟩ := mem_singleton.1 he
  exact absurd hkey (by decide)

/-- The question in class IN gets it, and this is its own. -/
theorem ownKey_internet : let c := persistentClient
    StepAll c.cacheStep c.SeparableCall c.newCache (classCalls 1) ∧
      VisitAll c.cacheStep c.OwnKey c.newCache (classCalls 1) := by
  intro c
  have h : StepAll c.cacheStep c.SeparableCall c.newCache (classCalls 1) := by
    refine fun t ht => ⟨trivial, fun u hu => ⟨fun _ e he => ?_, trivial⟩⟩
    cases ht
    obtain rfl : e = ⟨versionKey 1, versionResponse, versionResponse⟩ := mem_singleton.1 he
    exact fun _ _ => ⟨rfl, fun hc => hc.1 rfl, fun hc => hc.1 rfl, fun _ _ => rfl⟩
  exact ⟨h, ownKey_of_separable persistentClient mapCache_lawful _ h⟩

end SingBox.Dns
