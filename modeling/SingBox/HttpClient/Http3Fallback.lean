import SingBox.Lib.Fork
import SingBox.Lib.HttpResponse

/-!
# HTTP/3 with a fallback

`common/httpclient/http3_transport.go`, `http2_fallback_transport.go` and `helpers.go`: a request is tried on a cached
HTTP/3 connection; if that fails it goes to the fallback transport, and if there is no such connection a new HTTP/3
connection and, after a delay, the fallback transport race for it.  The fallback transport may itself try HTTP/2 and
then HTTP/1.1.

One run is one call of `RoundTrip` with the goroutines it starts.  The inner transports answer as they like, and an
attempt that fails has read as much of its body as it likes, unless it failed because there was no cached connection.
A section ends where the goroutine waits for something: an inner transport, the channel of the race or its timer.  Other
requests may change what is known about authorities at any time.
-/

namespace SingBox.HttpClient.Http3Fallback

open Lib

/-! ### Requests -/

/-- The body of a request; readers are numbered. -/
inductive Body where
  | nil
  | noBody
  | reader (i : ℕ)
  deriving DecidableEq

/-- The fields of a request that decide where it goes; `authority` is `requestAuthority(request)`. -/
structure Request where
  https : Bool
  header : Header
  authority : GoString
  body : Body
  /-- `GetBody != nil` -/
  getBody : Bool

def toLower (s : GoString) : GoString := s.map fun b => if 0x41 ≤ b ∧ b ≤ 0x5a then b + 0x20 else b

/-- `strings.Contains` -/
def contains (s sub : GoString) : Bool := s.tails.any sub.isPrefixOf

def requestRequiresHTTP1 (q : Request) : Bool :=
  contains (toLower (q.header.get (ascii "Connection"))) (ascii "upgrade") &&
    equalFold (q.header.get (ascii "Upgrade")) (ascii "websocket")

def requestReplayable (q : Request) : Bool := q.body = .nil || q.body = .noBody || q.getBody

inductive Err where
  | noCachedConn
  | http2Fallback
  | other (code : ℕ)
  /-- `E.Errors` -/
  | errors (e f : Err)
  deriving DecidableEq

inductive Outcome where
  | response
  | error (e : Err)
  deriving DecidableEq

/-! ### What is known about authorities -/

/-- `http3BrokenEntry`, with times in nanoseconds; the zero time is `none`. -/
structure BrokenEntry where
  till : Option ℤ := none
  backoff : ℤ := 0

structure Maps where
  broken : GoString → Option BrokenEntry := fun _ => none
  fallbackAuthority : GoString → Bool := fun _ => false

def minute : ℤ := 60000000000

namespace Maps

def clearH3Broken (p : Maps) (authority : GoString) : Maps :=
  if authority = [] then p else { p with broken := Function.update p.broken authority none }

def h3Broken (p : Maps) (authority : GoString) (now : ℤ) : Bool × Maps :=
  if authority = [] then (false, p)
  else
    match p.broken authority with
    | none => (false, p)
    | some entry =>
      if ∃ till ∈ entry.till, now < till then (true, p)
      else (false, { p with broken := Function.update p.broken authority none })

def nextBackoff (backoff : ℤ) : ℤ := if backoff = 0 then 5 * minute else min (backoff * 2) (48 * 60 * minute)

def markH3Broken (p : Maps) (authority : GoString) (now : ℤ) : Maps :=
  if authority = [] then p
  else
    let backoff := nextBackoff ((p.broken authority).getD {}).backoff
    { p with broken := Function.update p.broken authority (some ⟨some (now + backoff), backoff⟩) }

def isH2Fallback (p : Maps) (authority : GoString) : Bool := authority ≠ [] && p.fallbackAuthority authority

def markH2Fallback (p : Maps) (authority : GoString) : Maps :=
  if authority = [] then p else { p with fallbackAuthority := Function.update p.fallbackAuthority authority true }

end Maps

/-! ### The state of a call -/

/-- The readers of request bodies: how many there are, and what each of them still yields. -/
structure Store where
  made : ℕ
  bodies : ℕ → List Byte

def Store.yields (st : Store) : Body → List Byte
  | .reader i => st.bodies i
  | .nil | .noBody => []

def Store.consume (st : Store) (b : Body) (n : ℕ) : Store :=
  match b with
  | .reader i => { st with bodies := Function.update st.bodies i ((st.bodies i).drop n) }
  | .nil | .noBody => st

/-- The attempts of a call and what has become of their responses.  A response is named by its attempt. -/
structure Ledger where
  /-- What the body given to each attempt was to yield. -/
  given : List (List Byte) := []
  outcomes : ℕ → Option Outcome := fun _ => none
  results : List (Bool × Except Err ℕ) := []
  returned : List (Except Err ℕ) := []
  closed : List ℕ := []

structure State where
  maps : Maps := {}
  store : Store
  ledger : Ledger := {}

/-- The fallback is an `http2FallbackTransport`; what the body of the request yields; and what `GetBody` returns, by its
documentation a new copy of the body. -/
structure World where
  isFallback : Bool
  content : List Byte
  getBody : Except Err (List Byte) := .ok content
  getBody_copy : getBody = .ok content := by rfl

/-- Where a result goes: to the caller of `RoundTrip`, or to the channel of the race. -/
inductive Ret where
  | caller
  | race (h3 : Bool)
  deriving DecidableEq

/-- What the code does when an attempt has ended. -/
inductive After where
  /-- the attempt on a cached connection -/
  | cached
  /-- the one HTTP/3 attempt of a request that cannot be replayed -/
  | alone
  /-- the HTTP/2 attempt of an `http2FallbackTransport` -/
  | h2 (ret : Ret)
  /-- its result is the result -/
  | pass (ret : Ret)
  deriving DecidableEq

/-- The local variables of `roundTripHTTP3Race`; `cancels` is the number of attempts started. -/
structure Race where
  cancels : ℕ := 1
  received : ℕ := 0
  h3Err : Option Err := none
  fallbackErr : Option Err := none
  /-- the timer has neither fired nor been stopped -/
  armed : Bool := true

inductive Op where
  | roundTrip (q : Request)
  /-- the goroutine of the race that uses HTTP/3 -/
  | startH3 (q : Request)
  /-- the goroutine of the race that uses the fallback -/
  | startFallback (q : Request)
  /-- an inner transport has been called -/
  | wait (i : ℕ) (q : Request) (k : After)
  /-- the loop of the race -/
  | select (q : Request) (st : Race)
  /-- a goroutine started by `finish` -/
  | loser

structure Input where
  now : ℤ := 0
  outcome : Outcome := .response
  /-- how much of its body an attempt has read -/
  consumed : ℕ := 0
  /-- the timer is taken in the `select` -/
  timer : Bool := false

inductive Call where
  | others (p : Maps)

/-- The state, what the goroutine does next and the goroutines it starts. -/
abbrev Next := State × List Op × List Op

/-! ### The code -/

section

variable (w : World)

def mustGetBody : List Byte :=
  match h : w.getBody with
  | .ok body => body
  -- the panic
  | .error _ => absurd (h.symm.trans w.getBody_copy) (by simp)

@[simp] lemma mustGetBody_eq : mustGetBody w = w.content := by
  unfold mustGetBody
  split
  next h => exact Except.ok.inj (h.symm.trans w.getBody_copy)
  next h => exact absurd (h.symm.trans w.getBody_copy) (by simp)

def cloneRequestForRetry (q : Request) (s : State) : State × Request :=
  if q.body ≠ .nil ∧ q.body ≠ .noBody ∧ q.getBody then
    ({ s with store := ⟨s.store.made + 1, Function.update s.store.bodies s.store.made (mustGetBody w)⟩ },
      { q with body := .reader s.store.made })
  else (s, q)

def call (q : Request) (k : After) (s : State) : Next :=
  ({ s with ledger := { s.ledger with given := s.ledger.given ++ [s.store.yields q.body] } },
    [.wait s.ledger.given.length q k], [])

/-- A result is returned, or sent to the channel of the race. -/
def Ledger.deliver (l : Ledger) (ret : Ret) (res : Except Err ℕ) : Ledger :=
  match ret with
  | .caller => { l with returned := l.returned ++ [res] }
  | .race h3 => { l with results := l.results ++ [(h3, res)] }

def deliver (ret : Ret) (res : Except Err ℕ) (s : State) : Next :=
  ({ s with ledger := s.ledger.deliver ret res }, [], [])

/-- `http2FallbackTransport.roundTrip`, up to its first attempt; HTTP/1.1 is always allowed. -/
def http2FallbackRoundTrip (q : Request) (ret : Ret) (s : State) : Next :=
  if !q.https || requestRequiresHTTP1 q then call q (.pass ret) s
  else if s.maps.isH2Fallback q.authority then call q (.pass ret) s
  else call q (.h2 ret) s

def h2FallbackRoundTrip (q : Request) (ret : Ret) (s : State) : Next :=
  if w.isFallback then http2FallbackRoundTrip q ret s else call q (.pass ret) s

/-- `roundTripHTTP3`, up to its first attempt. -/
def roundTripHTTP3 (q : Request) (now : ℤ) (s : State) : Next :=
  let s' := { s with maps := (s.maps.h3Broken q.authority now).2 }
  if (s.maps.h3Broken q.authority now).1 then h2FallbackRoundTrip w q .caller s'
  else call q .cached s'

def roundTrip (q : Request) (now : ℤ) (s : State) : Next :=
  if !q.https || requestRequiresHTTP1 q then
    -- `h2Fallback.RoundTrip`: an `http2FallbackTransport` uses HTTP/1.1 then
    call q (.pass .caller) s
  else roundTripHTTP3 w q now s

/-- `startRoundTrip(true)` -/
def startH3 (q : Request) (s : State) : State × Op :=
  ((cloneRequestForRetry w q s).1, .startH3 (cloneRequestForRetry w q s).2)

/-- `startRoundTrip(false)` -/
def startFallback (q : Request) (s : State) : State × Op :=
  ((cloneRequestForRetry w q s).1, .startFallback (cloneRequestForRetry w q s).2)

/-- `roundTripHTTP3` after the attempt on a cached connection. -/
def afterCached (i : ℕ) (q : Request) (x : Input) (s : State) : Next :=
  match x.outcome with
  | .response => deliver .caller (.ok i) { s with maps := s.maps.clearH3Broken q.authority }
  | .error e =>
    if e ≠ .noCachedConn then
      let r := cloneRequestForRetry w q { s with maps := s.maps.markH3Broken q.authority x.now }
      h2FallbackRoundTrip w r.2 .caller r.1
    else if !requestReplayable q then call q .alone s
    else ((startH3 w q s).1, [.select q {}], [(startH3 w q s).2])

/-- `roundTripHTTP3` after the HTTP/3 attempt of a request that cannot be replayed. -/
def afterAlone (i : ℕ) (q : Request) (x : Input) (s : State) : Next :=
  match x.outcome with
  | .response => deliver .caller (.ok i) { s with maps := s.maps.clearH3Broken q.authority }
  | .error e => deliver .caller (.error e) { s with maps := s.maps.markH3Broken q.authority x.now }

/-- `http2FallbackTransport.roundTrip` after the HTTP/2 attempt. -/
def afterH2 (ret : Ret) (i : ℕ) (q : Request) (x : Input) (s : State) : Next :=
  match x.outcome with
  | .response => deliver ret (.ok i) s
  | .error e =>
    if e ≠ .http2Fallback then deliver ret (.error e) s
    else
      let r := cloneRequestForRetry w q { s with maps := s.maps.markH2Fallback q.authority }
      call r.2 (.pass ret) r.1

def afterPass (ret : Ret) (i : ℕ) (x : Input) (s : State) : Next :=
  match x.outcome with
  | .response => deliver ret (.ok i) s
  | .error e => deliver ret (.error e) s

def consumed (k : After) (x : Input) : ℕ := if k = .cached ∧ x.outcome = .error .noCachedConn then 0 else x.consumed

def finished (i : ℕ) (q : Request) (k : After) (x : Input) (s : State) : State :=
  { s with
    store := s.store.consume q.body (consumed k x)
    ledger := { s.ledger with outcomes := Function.update s.ledger.outcomes i (some x.outcome) } }

def after (i : ℕ) (q : Request) (k : After) (x : Input) (s : State) : Next :=
  match k with
  | .cached => afterCached w i q x s
  | .alone => afterAlone i q x s
  | .h2 ret => afterH2 w ret i q x s
  | .pass ret => afterPass ret i x s

/-- The error of a race in which all attempts have failed. -/
def Race.error (st : Race) : Err :=
  match st.h3Err, st.fallbackErr with
  | some e, some f => .errors e f
  | none, some f => f
  | some e, none => e
  | none, none => .other 0

/-- The loop of the race after an error has been received. -/
def continueRace (q : Request) (st : Race) (started : List Op) (s : State) : Next :=
  if st.received < st.cancels then (s, [.select q st], started)
  else
    -- `finish(-1)` starts no goroutine: everything has been received
    ((deliver .caller (.error st.error) s).1, [], started)

/-- `case <-timer.C` -/
def raceTimer (q : Request) (st : Race) (s : State) : Next :=
  if st.cancels = 1 then
    ((startFallback w q s).1, [.select q { st with cancels := 2, armed := false }], [(startFallback w q s).2])
  else (s, [.select q { st with armed := false }], [])

/-- `case raceResult := <-results` -/
def raceResult (q : Request) (st : Race) (h3 : Bool) (res : Except Err ℕ) (now : ℤ) (s : State) : Next :=
  let st := { st with received := st.received + 1 }
  match res with
  | .ok i =>
    let s := if h3 then { s with maps := s.maps.clearH3Broken q.authority } else s
    ((deliver .caller (.ok i) s).1, [], List.replicate (st.cancels - st.received) .loser)
  | .error e =>
    if h3 then
      let s := { s with maps := s.maps.markH3Broken q.authority now }
      if st.cancels = 1 then
        continueRace q { st with h3Err := some e, cancels := 2, armed := false } [(startFallback w q s).2]
          (startFallback w q s).1
      else continueRace q { st with h3Err := some e } [] s
    else continueRace q { st with fallbackErr := some e } [] s

def Ledger.tail (l : Ledger) : Ledger := { l with results := l.results.tail }

def select (q : Request) (st : Race) (x : Input) (s : State) : Option Next :=
  if x.timer then if st.armed then some (raceTimer w q st s) else none
  else
    match s.ledger.results with
    | [] => none
    | (h3, res) :: _ => some (raceResult w q st h3 res x.now { s with ledger := s.ledger.tail })

def Ledger.closeResponse (l : Ledger) (res : Except Err ℕ) : Ledger :=
  match res with
  | .ok i => { l with closed := i :: l.closed }
  | .error _ => l

def loser (s : State) : Option Next :=
  match s.ledger.results with
  | [] => none
  | (_, res) :: _ => some ({ s with ledger := s.ledger.tail.closeResponse res }, [], [])

def exec (o : Op) (x : Input) (s : State) : Option Next :=
  match o with
  | .roundTrip q => some (roundTrip w q x.now s)
  | .startH3 q => some (call q (.pass (.race true)) s)
  | .startFallback q => some (h2FallbackRoundTrip w q (.race false) s)
  | .wait i q k => some (after w i q k x (finished i q k x s))
  | .select q st => select w q st x s
  | .loser => loser s

def entry (k : Call) (s : State) : State × List Op :=
  match k with
  | .others p => ({ s with maps := p }, [])

def program : Forking State Op Input Call := ⟨entry, exec w⟩

/-- A call of `RoundTrip`: nothing has been read of the request's body yet. -/
def start (q : Request) (p : Maps) : Config State Op :=
  ⟨{ maps := p
     store := ⟨match q.body with | .reader i => i + 1 | .nil | .noBody => 0, fun _ => w.content⟩ },
    [[.roundTrip q]]⟩

/-- What the body of the request yields at first. -/
def original (q : Request) : List Byte :=
  match q.body with
  | .reader _ => w.content
  | .nil | .noBody => []

end

end SingBox.HttpClient.Http3Fallback
