import Mathlib.Data.Finmap
import SingBox.Lib.GoString
import SingBox.Lib.Run

/-!
# The users of the Shadowsocks management API

`UserManager` changes its map, sends the whole map to the managed server, and returns the error of the server without
undoing the change.  A rejected change stays, so it also is part of every list sent later.
-/

namespace SingBox.SsmApi

open Lib

abbrev UsersMap := Finmap fun _ : GoString => GoString

/-- `UpdateUsers` of the managed server: the error it returns for a list of users with their passwords. -/
abbrev Server := List (Σ _ : GoString, GoString) → Option GoString

inductive Op where
  | add (username password : GoString)
  | update (username password : GoString)
  | delete (username : GoString)

/-- A call, with the order in which the loop of `postUpdate` meets the users. -/
structure Call where
  op : Op
  order : List (Σ _ : GoString, GoString)

structure UserManager where
  usersMap : UsersMap := ∅
  /-- the users the server accepted last -/
  accepted : List (Σ _ : GoString, GoString) := []
  /-- the users before the last call, if it returned an error -/
  failed : Option UsersMap := none

namespace UserManager

def change (m : UserManager) : Op → Except GoString UsersMap
  | .add username password =>
    if (m.usersMap.lookup username).isSome then .error (ascii "user " ++ username ++ ascii " already exists")
    else .ok (m.usersMap.insert username password)
  | .update username password => .ok (m.usersMap.insert username password)
  | .delete username => .ok (m.usersMap.erase username)

/-- `Add`, `Update` and `Delete`: the error, and the manager after the call. -/
def call (server : Server) (m : UserManager) (c : Call) : Option GoString × UserManager :=
  match m.change c.op with
  | .error e => (some e, { m with failed := some m.usersMap })
  | .ok usersMap =>
    match server c.order with
    | some e => (some e, { m with usersMap, failed := some m.usersMap })
    | none => (none, { usersMap, accepted := c.order })

/-- A call whose order is one of the map it sends. -/
def step (server : Server) (m : UserManager) (c : Call) : Option UserManager :=
  if ∀ users ∈ (m.change c.op).toOption, c.order = users.entries then some (m.call server c).2 else none

/-- **A call that fails leaves the users as they were**, and the users the server accepted last are the stored ones. -/
def Kept (m : UserManager) : Prop := (∀ users ∈ m.failed, m.usersMap = users) ∧ m.accepted = m.usersMap.entries

/-- The call adds a name that is stored, stores a password again, or deletes a name that is not stored. -/
def Idle (users : UsersMap) : Op → Prop
  | .add username _ => username ∈ users
  | .update username password => users.lookup username = some password
  | .delete username => username ∉ users

/-- The server accepts the list, or the call does not change the users. -/
def Taken (server : Server) (m : UserManager) (c : Call) : Prop := server c.order = none ∨ Idle m.usersMap c.op

lemma insert_eq_self {users : UsersMap} {username password : GoString} :
    users.insert username password = users ↔ users.lookup username = some password := by
  constructor
  · intro h
    rw [← h, Finmap.lookup_insert]
  · intro h
    refine Finmap.ext_lookup fun name => ?_
    by_cases hname : name = username
    · rw [hname, Finmap.lookup_insert, h]
    · rw [Finmap.lookup_insert_of_ne _ hname]

lemma change_eq_self (m : UserManager) (op : Op) :
    (∀ users ∈ (m.change op).toOption, users = m.usersMap) ↔ Idle m.usersMap op := by
  cases op with
  | add username password =>
    rw [change, Idle, ← Finmap.lookup_isSome]
    by_cases h : (m.usersMap.lookup username).isSome = true
    · simp [h, Except.toOption]
    · simp [Except.toOption, insert_eq_self, Option.not_isSome_iff_eq_none.1 h]
  | update username password => simp [change, Idle, Except.toOption, insert_eq_self]
  | delete username =>
    simp only [change, Idle, Except.toOption, Option.mem_some_iff, forall_eq']
    constructor
    · intro h
      rw [← h]
      exact Finmap.notMem_erase_self
    · intro h
      refine Finmap.ext_lookup fun name => ?_
      by_cases hname : name = username
      · rw [hname, Finmap.lookup_erase, Finmap.lookup_eq_none.2 h]
      · rw [Finmap.lookup_erase_ne hname]

/-- **The calls that keep the manager and its server together.** -/
theorem kept_iff_taken (server : Server) (cs : List Call) :
    VisitAll (step server) Kept {} cs ↔ StepAll (step server) (Taken server) {} cs := by
  refine visitAll_iff_stepAll (I := fun _ => True) (fun _ _ _ _ _ => trivial) (fun m c t ht _ hm => ?_) cs trivial ?_
  · unfold step at ht
    split at ht
    next horder =>
      cases ht
      unfold call Taken
      rw [← change_eq_self]
      cases hchange : m.change c.op with
      | error e => simp [Kept, Except.toOption, hm.2]
      | ok users =>
        cases hserver : server c.order with
        | none => simpa [Kept, hchange, Except.toOption] using horder
        | some e =>
          simp only [Kept, Except.toOption, Option.mem_some_iff, forall_eq', reduceCtorEq, false_or,
            and_iff_left_iff_imp]
          rintro rfl
          exact hm.2
    · cases ht
  · exact ⟨by simp, rfl⟩

/-- The server rejects a password, and the manager keeps it. -/
theorem rejected_user_stays : ∃ m, runOf (step fun _ => some (ascii "bad key length"))
      {} [⟨.add (ascii "a") (ascii "b"), [⟨ascii "a", ascii "b"⟩]⟩] = some m ∧
    m.failed = some ∅ ∧ m.usersMap.lookup (ascii "a") = some (ascii "b") ∧ m.accepted = [] :=
  ⟨_, rfl, rfl, rfl, rfl⟩

end UserManager

end SingBox.SsmApi
