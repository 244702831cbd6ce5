import SingBox.Dns.Message
import SingBox.Lib.Float64

/-!
# The cache of the DNS client

`Client.storeCache` and `Client.loadResponse`: answers are cached in memory, by a cache of another package (`Lru`), or
in a file.  Times and durations are in nanoseconds; the clock is an argument.

Every answer carries the response of a transport that it was made from (`origin`).
-/

namespace SingBox.Dns

open SingBox.Lib

/-! ### Keys -/

/-- `dnsCacheKey`. -/
structure CacheKey where
  question : Question := {}
  transportTag : String := ""
  clientSubnet : Subnet := {}
  environment : ℕ := 0
  deriving DecidableEq

/-- The key of a store in a file: a transport name, a question name and a type. -/
structure StoreKey where
  transportName : String
  qName : String
  qType : ℕ
  deriving DecidableEq

def CacheKey.persistentName (key : CacheKey) : String :=
  let name := key.transportTag
  let name := if key.clientSubnet.isValid then name ++ "\x00" ++ key.clientSubnet.string else name
  if key.environment ≠ 0 then name ++ "\x01" ++ String.ofList (formatBase 36 key.environment) else name

def CacheKey.storeKey (key : CacheKey) : StoreKey := ⟨key.persistentName, key.question.name, key.question.qtype⟩

/-! ### The cache in memory -/

/-- A response, and the one it was made from. -/
structure Answer where
  message : Msg
  origin : Msg

/-- `freelru.Cache`, of another package; `entries` is what a state of it has for each key: an answer, and when it
expires, if it does. -/
structure Lru (σ : Type) where
  new : σ
  add : σ → CacheKey → Answer → σ
  addWithLifetime : σ → CacheKey → Answer → (lifetime now : ℕ) → σ
  get : σ → CacheKey → (now : ℕ) → Option Answer × σ
  getWithLifetimeNoExpire : σ → CacheKey → Option (Answer × ℕ) × σ
  remove : σ → CacheKey → σ
  entries : σ → CacheKey → Option (Answer × Option ℕ)

/-- A map with no other entries; some may be missing. -/
def Within {α β : Type} (m m' : α → Option β) : Prop := ∀ a b, m a = some b → m' a = some b

/-- **A cache that may lose entries** at any time: it returns what was added for the key and not removed, and an entry
expires no later than its lifetime says. -/
structure Lru.Lawful {σ : Type} (lru : Lru σ) : Prop where
  new : ∀ key, lru.entries lru.new key = none
  add : ∀ s key a, Within (lru.entries (lru.add s key a)) (Function.update (lru.entries s) key (some (a, none)))
  addWithLifetime : ∀ s key a lifetime now, ∃ expireAt ≤ now + lifetime, Within
    (lru.entries (lru.addWithLifetime s key a lifetime now))
    (Function.update (lru.entries s) key (some (a, some expireAt)))
  get : ∀ s key now a, (lru.get s key now).1 = some a → ∃ expireAt, lru.entries s key = some (a, expireAt)
  afterGet : ∀ s key now, Within (lru.entries (lru.get s key now).2) (lru.entries s)
  getWithLifetime : ∀ s key a expireAt, (lru.getWithLifetimeNoExpire s key).1 = some (a, expireAt) →
    ∃ e, lru.entries s key = some (a, e) ∧ e.getD expireAt = expireAt
  afterGetWithLifetime : ∀ s key, Within (lru.entries (lru.getWithLifetimeNoExpire s key).2) (lru.entries s)
  remove : ∀ s key, Within (lru.entries (lru.remove s key)) (Function.update (lru.entries s) key none)

/-- A cache that loses nothing. -/
def mapCache : Lru (CacheKey → Option (Answer × Option ℕ)) where
  new _ := none
  add s key a := Function.update s key (some (a, none))
  addWithLifetime s key a lifetime now := Function.update s key (some (a, some (now + lifetime)))
  get s key _ := ((s key).map Prod.fst, s)
  getWithLifetimeNoExpire s key := ((s key).map fun e => (e.1, e.2.getD 0), s)
  remove s key := Function.update s key none
  entries s := s

lemma mapCache_lawful : mapCache.Lawful where
  new _ := rfl
  add _ _ _ _ _ h := h
  addWithLifetime _ _ _ _ _ := ⟨_, le_rfl, fun _ _ h => h⟩
  get s key now a h := by simpa [mapCache] using h
  afterGet _ _ _ _ _ h := h
  getWithLifetime s key a expireAt h := by
    simp only [mapCache, Option.map_eq_some_iff, Prod.mk.injEq] at h
    obtain ⟨e, he, rfl, rfl⟩ := h
    exact ⟨e.2, he, by cases e.2 <;> rfl⟩
  afterGetWithLifetime _ _ _ _ h := h
  remove _ _ _ _ h := h

/-! ### The client -/

inductive Backend where
  | none | memory | persistent
  deriving DecidableEq

/-- The client, and what it uses of other packages: the cache, and the wire format of messages. -/
structure Client (σ β : Type) where
  disableExpire : Bool := false
  optimisticTimeout : ℕ := 0
  backend : Backend := .memory
  lru : Lru σ
  pack : Msg → Option β
  unpack : β → Option Msg

structure PersistentEntry (β : Type) where
  raw : β
  expireAt : ℕ
  origin : Msg

structure ClientState (σ β : Type) where
  cache : σ
  dnsCache : StoreKey → Option (PersistentEntry β) := fun _ => none

variable {σ β : Type}

/-- `time.Duration.Seconds`. -/
def seconds (d : ℕ) : ℚ := float64 (float64 (d / 10 ^ 9 : ℕ) + float64 (float64 (d % 10 ^ 9 : ℕ) / 10 ^ 9))

/-- `int(expireAt.Sub(now).Seconds())` of a time that is not over; `Sub` is at most the longest duration. -/
def secondsLeft (expireAt now : ℕ) : ℕ := ⌊seconds (min (expireAt - now) (2 ^ 63 - 1))⌋₊

/-- The rounding adds less than a second. -/
lemma secondsLeft_lt (expireAt now : ℕ) : secondsLeft expireAt now * 10 ^ 9 < expireAt - now + 10 ^ 9 := by
  unfold secondsLeft
  have hle : min (expireAt - now) (2 ^ 63 - 1) ≤ expireAt - now := min_le_left ..
  have hmax : min (expireAt - now) (2 ^ 63 - 1) ≤ 2 ^ 63 - 1 := min_le_right ..
  generalize min (expireAt - now) (2 ^ 63 - 1) = d at hle hmax
  refine lt_of_lt_of_le ?_ (Nat.add_le_add_right hle _)
  have hwhole : float64 (d / 10 ^ 9 : ℕ) ≤ (d / 10 ^ 9 : ℕ) := float64_le (by positivity) le_rfl (by omega)
  rcases Nat.eq_zero_or_pos (d % 10 ^ 9) with h0 | hpos
  · have hfloor : ⌊seconds d⌋₊ ≤ d / 10 ^ 9 := by
      refine Nat.floor_le_of_le ?_
      simp only [seconds, h0, Nat.cast_zero, float64_zero, zero_div, add_zero]
      exact float64_le (float64_nonneg (by positivity)) hwhole (by omega)
    omega
  · -- a part of a second rounds to one at most
    have hpart : float64 (float64 (d % 10 ^ 9 : ℕ) / 10 ^ 9) ≤ (1 : ℕ) := by
      refine float64_le (div_nonneg (float64_nonneg (by positivity)) (by positivity)) ?_ (by norm_num)
      rw [Nat.cast_one, div_le_one (by positivity)]
      exact_mod_cast float64_le (q := (d % 10 ^ 9 : ℕ)) (n := 10 ^ 9) (by positivity)
        (by exact_mod_cast (Nat.mod_lt d (by norm_num)).le) (by norm_num)
    have hfloor : ⌊seconds d⌋₊ ≤ d / 10 ^ 9 + 1 := by
      refine Nat.floor_le_of_le (float64_le (add_nonneg (float64_nonneg (by positivity)) (float64_nonneg ?_)) ?_ ?_)
      · exact div_nonneg (float64_nonneg (by positivity)) (by positivity)
      · push_cast
        exact add_le_add hwhole (by simpa using hpart)
      · omega
    omega

/-- An hour and 100 nanoseconds of a life of 2^31 - 1 seconds are rounded to an hour. -/
example : secondsLeft ((2 ^ 31 - 1) * 10 ^ 9) (3600 * 10 ^ 9 + 100) = 2 ^ 31 - 1 - 3600 := by decide +kernel

structure Loaded where
  answer : Answer
  isStale : Bool

/-- An entry at a time: fresh, stale, or of no use. -/
def Client.serve (c : Client σ β) (message origin : Msg) (expireAt now : ℕ) : Option Loaded :=
  if expireAt < now then
    if 0 < c.optimisticTimeout ∧ now < expireAt + c.optimisticTimeout then
      some ⟨⟨normalizeTTL message 1, origin⟩, true⟩
    else none
  else some ⟨⟨normalizeTTL message (secondsLeft expireAt now % 2 ^ 32), origin⟩, false⟩

def Client.loadPersistentResponse (c : Client σ β) (s : ClientState σ β) (key : CacheKey) (now : ℕ) :
    Option Loaded := do
  let entry ← s.dnsCache key.storeKey
  let response ← c.unpack entry.raw
  if c.disableExpire then some ⟨⟨response, entry.origin⟩, false⟩
  else c.serve response entry.origin entry.expireAt now

/-- `loadResponse`; an entry in memory that is of no use any more is removed. -/
def Client.loadResponse (c : Client σ β) (s : ClientState σ β) (key : CacheKey) (now : ℕ) :
    Option Loaded × ClientState σ β :=
  match c.backend with
  | .persistent => (c.loadPersistentResponse s key now, s)
  | .none => (none, s)
  | .memory =>
    if c.disableExpire then
      let (found, cache) := c.lru.get s.cache key now
      (found.map (⟨·, false⟩), { s with cache := cache })
    else match c.lru.getWithLifetimeNoExpire s.cache key with
      | (none, cache) => (none, { s with cache := cache })
      | (some (answer, expireAt), cache) =>
        match c.serve answer.message answer.origin expireAt now with
        | some loaded => (some loaded, { s with cache := cache })
        | none => (none, { s with cache := c.lru.remove cache key })

/-- `storeCache`, for the response of a transport. -/
def Client.storeCache (c : Client σ β) (s : ClientState σ β) (key : CacheKey) (message origin : Msg)
    (timeToLive now : ℕ) : ClientState σ β :=
  if timeToLive = 0 then s
  else match c.backend with
    | .persistent =>
      match c.pack message with
      | none => s
      | some raw =>
        let entry := ⟨raw, now + timeToLive * 10 ^ 9, origin⟩
        { s with dnsCache := Function.update s.dnsCache key.storeKey (some entry) }
    | .none => s
    | .memory =>
      if c.disableExpire then { s with cache := c.lru.add s.cache key ⟨message, origin⟩ }
      else { s with cache := c.lru.addWithLifetime s.cache key ⟨message, origin⟩ (timeToLive * 10 ^ 9) now }

end SingBox.Dns
