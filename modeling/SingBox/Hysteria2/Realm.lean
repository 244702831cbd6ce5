import Mathlib.Data.List.AList
import SingBox.Lib.Chan
import SingBox.Lib.Goroutine
import SingBox.Lib.GoString

/-!
# The realm server of Hysteria

`protocol/hysteria2/realm_server.go`: servers register under a realm name and get a session; clients connect to a realm
and are told the addresses of its server, which learns of the attempt as an event and may answer it.

Each section is what a handler does while it holds `access`, or one operation on a channel outside of it, so every
configuration is one in which the lock is free.  The handlers are modelled from the point where their request has been
decoded and validated: a request that fails there leaves the server as it is.  Sessions are pointers and are numbered
as they are registered, the channels of the pending attempts of a session likewise.  The callback of a session's timer
may run at any time.
-/

namespace SingBox.Hysteria2.Realm

open Lib

/-! ### Sessions -/

def sessionTTL : ℤ := 60
def eventChannelSize : ℕ := 16
def maxPendingAttempts : ℕ := 16

/-- `realmUser` -/
structure User where
  name : GoString
  maxRealms : ℤ

inductive RealmEvent where
  | heartbeatAck (ttl : ℤ)
  | punch (addresses : List GoString) (nonce obfs : GoString)
  deriving DecidableEq

abbrev GoMap (α : Type) := AList fun _ : GoString => α

/-- `realmSession`, with times in seconds; `chans` are the channels that have been made for its attempts. -/
structure Session where
  id : GoString
  realmID : GoString
  username : GoString
  addresses : List GoString
  expires : ℤ
  events : Chan RealmEvent := { cap := eventChannelSize }
  done : Chan Unit := { cap := 0 }
  closed : Bool := false
  pending : GoMap ℕ := ∅
  made : ℕ := 0
  chans : ℕ → Chan (List GoString) := fun _ => { cap := 1 }

namespace Session

/-- The channels of the pending attempts are closed, one after the other. -/
def closeEach (chans : ℕ → Chan (List GoString)) (pending : List ℕ) : ℕ → Chan (List GoString) :=
  pending.foldl (fun chans ch => Function.update chans ch (chans ch).close) chans

/-- The session in `removeSessionLocked`. -/
def shut (p : Session) : Session :=
  { p with
    closed := true
    done := p.done.close
    events := p.events.close
    chans := closeEach p.chans (p.pending.entries.map Sigma.snd)
    pending := ∅ }

def expired (p : Session) (now : ℤ) : Bool := p.expires < now

def registerPending (p : Session) (nonce : GoString) : Option ℕ × Session :=
  if p.closed || maxPendingAttempts ≤ p.pending.keys.length then (none, p)
  else if (p.pending.lookup nonce).isSome then (none, p)
  else
    (some p.made, { p with
      made := p.made + 1
      chans := Function.update p.chans p.made { cap := 1 }
      pending := p.pending.insert nonce p.made })

def deliverPending (p : Session) (nonce : GoString) (addresses : List GoString) : Bool × Session :=
  if p.closed then (false, p)
  else
    match p.pending.lookup nonce with
    | none => (false, p)
    | some ch =>
      (true, { p with
        pending := p.pending.erase nonce
        chans := Function.update p.chans ch ((p.chans ch).trySend addresses).2 })

def cancelPending (p : Session) (nonce : GoString) : Session := { p with pending := p.pending.erase nonce }

def sendEvent (p : Session) (ev : RealmEvent) : Bool × Session :=
  if p.closed then (false, p) else ((p.events.trySend ev).1, { p with events := (p.events.trySend ev).2 })

/-- The lock-held part of `handleHeartbeat`. -/
def heartbeat (p : Session) (addresses : Option (List GoString)) (now : ℤ) : Session :=
  { p with expires := now + sessionTTL, addresses := addresses.getD p.addresses }

end Session

/-! ### The server -/

structure Server where
  realms : GoMap ℕ := ∅
  sessions : GoMap ℕ := ∅
  userCounts : GoMap ℤ := ∅
  created : ℕ := 0
  session : ℕ → Session := fun _ => ⟨[], [], [], [], 0, { cap := 0 }, { cap := 0 }, true, ∅, 0, fun _ => { cap := 1 }⟩

namespace Server

/-- `s.userCounts[name]` -/
def count (s : Server) (name : GoString) : ℤ := (s.userCounts.lookup name).getD 0

def set (s : Server) (i : ℕ) (p : Session) : Server := { s with session := Function.update s.session i p }

/-- `userCounts` after a session of the name is gone. -/
def uncount (s : Server) (name : GoString) : GoMap ℤ :=
  if s.count name - 1 ≤ 0 then s.userCounts.erase name else s.userCounts.insert name (s.count name - 1)

def removeSessionLocked (s : Server) (i : ℕ) : Server :=
  let p := s.session i
  if p.closed then s
  else
    { s.set i p.shut with
      realms := if s.realms.lookup p.realmID = some i then s.realms.erase p.realmID else s.realms
      userCounts := if (s.sessions.lookup p.id).isSome then s.uncount p.username else s.userCounts
      sessions := s.sessions.erase p.id }

def removeExpiredSession (s : Server) (i : ℕ) (now : ℤ) : Server :=
  if (s.session i).closed || !(s.session i).expired now then s else s.removeSessionLocked i

def getSessionByToken (s : Server) (token : GoString) (now : ℤ) : Option ℕ :=
  (s.sessions.lookup token).filter fun i => !(s.session i).closed && !(s.session i).expired now

/-- The session of a realm in `handleConnect`. -/
def getRealm (s : Server) (realm : GoString) (now : ℤ) : Option ℕ :=
  (s.realms.lookup realm).filter fun i => !(s.session i).closed && !(s.session i).expired now

inductive RegisterError where
  | realmTaken
  | limitReached
  | entropyFailure
  deriving DecidableEq

def hexDigits : List Byte := ascii "0123456789abcdef"

/-- `hex.EncodeToString` -/
def encodeHex (b : List Byte) : GoString :=
  b.flatMap fun x => [hexDigits.getD (x.toNat / 16) 0, hexDigits.getD (x.toNat % 16) 0]

def newSession (user : User) (realm : GoString) (addresses : List GoString) (random : List Byte) (now : ℤ) : Session :=
  { id := encodeHex random, realmID := realm, username := user.name, addresses, expires := now + sessionTTL }

/-- The lock-held part of `handleRegister`; `random` is what `rand.Read` gives. -/
def register (s : Server) (user : User) (realm : GoString) (addresses : List GoString) (random : Option (List Byte))
    (now : ℤ) : Except RegisterError Server :=
  if (s.realms.lookup realm).isSome then .error .realmTaken
  else if 0 < user.maxRealms ∧ user.maxRealms ≤ s.count user.name then .error .limitReached
  else
    match random with
    | none => .error .entropyFailure
    | some b =>
      .ok { s.set s.created (newSession user realm addresses b now) with
        created := s.created + 1
        realms := s.realms.insert realm s.created
        sessions := s.sessions.insert (encodeHex b) s.created
        userCounts := s.userCounts.insert user.name (s.count user.name + 1) }

end Server

/-! ### The handlers -/

structure ConnectRequest where
  addresses : List GoString
  nonce : GoString
  obfs : GoString

/-- The handlers behind `authSession`. -/
inductive Handler where
  | deregister
  | heartbeat (addresses : Option (List GoString))
  | connectResponse (nonce : GoString) (addresses : List GoString)
  | events

inductive Op where
  | register (user : User) (realm : GoString) (addresses : List GoString)
  | authSession (token realm : GoString) (k : Handler)
  | removeSession (i : ℕ)
  | heartbeat (i : ℕ) (addresses : Option (List GoString))
  | sendEvent (i : ℕ) (ev : RealmEvent)
  | deliverPending (i : ℕ) (nonce : GoString) (addresses : List GoString)
  /-- the loop of `handleEvents` -/
  | receiveEvent (i : ℕ)
  | lookupRealm (realm : GoString) (req : ConnectRequest)
  | registerPending (i : ℕ) (req : ConnectRequest)
  /-- `sendEvent` in `handleConnect`, with the channel of the attempt -/
  | punch (i ch : ℕ) (req : ConnectRequest)
  /-- the `select` of `handleConnect` -/
  | await (i ch : ℕ)
  | cancelPending (i : ℕ) (nonce : GoString)
  | removeExpiredSession (i : ℕ)
  | closeAll

inductive Branch where
  | channel
  | timer
  | done
  | cancelled
  deriving DecidableEq

structure Input where
  now : ℤ := 0
  random : Option (List Byte) := none
  branch : Branch := .channel
  /-- the order in which `closeAll` goes through the map -/
  order : List ℕ := []

inductive Call where
  | register (user : User) (realm : GoString) (addresses : List GoString)
  | session (token realm : GoString) (k : Handler)
  | connect (realm : GoString) (req : ConnectRequest)
  /-- the callback of a session's timer -/
  | expiry (i : ℕ)
  | closeAll

def Handler.ops (i : ℕ) : Handler → List Op
  | .deregister => [.removeSession i]
  | .heartbeat addresses => [.heartbeat i addresses, .sendEvent i (.heartbeatAck sessionTTL)]
  | .connectResponse nonce addresses => [.deliverPending i nonce addresses]
  | .events => [.receiveEvent i]

def exec (o : Op) (x : Input) (s : Server) : Option (Server × List Op) :=
  match o with
  | .register user realm addresses =>
    match s.register user realm addresses x.random x.now with
    | .ok s' => some (s', [])
    | .error _ => some (s, [])
  | .authSession token realm k =>
    match s.getSessionByToken token x.now with
    | some i => some (s, if (s.session i).realmID = realm then k.ops i else [])
    | none => some (s, [])
  | .removeSession i => some (s.removeSessionLocked i, [])
  | .heartbeat i addresses => some (s.set i ((s.session i).heartbeat addresses x.now), [])
  | .sendEvent i ev => some (s.set i ((s.session i).sendEvent ev).2, [])
  | .deliverPending i nonce addresses => some (s.set i ((s.session i).deliverPending nonce addresses).2, [])
  | .receiveEvent i =>
    if x.branch = .cancelled then some (s, [])
    else
      (s.session i).events.recv.map fun r =>
        (s.set i { s.session i with events := r.2 }, if r.1.isSome then [.receiveEvent i] else [])
  | .lookupRealm realm req =>
    match s.getRealm realm x.now with
    | some i => some (s, [.registerPending i req])
    | none => some (s, [])
  | .registerPending i req =>
    match ((s.session i).registerPending req.nonce).1 with
    | some ch =>
      some (s.set i ((s.session i).registerPending req.nonce).2, [.punch i ch req, .cancelPending i req.nonce])
    | none => some (s, [])
  | .punch i ch req =>
    let r := (s.session i).sendEvent (.punch req.addresses req.nonce req.obfs)
    some (s.set i r.2, if r.1 then [.await i ch] else [])
  | .await i ch =>
    match x.branch with
    | .channel =>
      ((s.session i).chans ch).recv.map fun r =>
        (s.set i { s.session i with chans := Function.update (s.session i).chans ch r.2 }, [])
    | .done => if (s.session i).done.closes ≠ 0 then some (s, []) else none
    | .timer | .cancelled => some (s, [])
  | .cancelPending i nonce => some (s.set i ((s.session i).cancelPending nonce), [])
  | .removeExpiredSession i => some (s.removeExpiredSession i x.now, [])
  | .closeAll =>
    if x.order.Perm (s.sessions.entries.map Sigma.snd) then some (x.order.foldl Server.removeSessionLocked s, [])
    else none

def entry (k : Call) (s : Server) : Server × List Op :=
  match k with
  | .register user realm addresses => (s, [.register user realm addresses])
  | .session token realm k => (s, [.authSession token realm k])
  | .connect realm req => (s, [.lookupRealm realm req])
  | .expiry i => (s, if i < s.created then [.removeExpiredSession i] else [])
  | .closeAll => (s, [.closeAll])

def program : Program Server Op Input Call := ⟨entry, exec⟩

end SingBox.Hysteria2.Realm
