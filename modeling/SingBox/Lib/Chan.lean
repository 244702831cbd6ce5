import Mathlib.Data.List.Basic

/-!
# Channels

A buffered channel with a record of how it was misused: how often it was closed, and how often something was sent on
it after that.  Both a second `close` and a send on a closed channel panic, so a program uses its channels well if the
first count is at most one and the second is zero.
-/

namespace SingBox.Lib

structure Chan (α : Type*) where
  cap : ℕ
  buf : List α := []
  closes : ℕ := 0
  lateSends : ℕ := 0
  deriving DecidableEq

namespace Chan

variable {α : Type*}

def close (c : Chan α) : Chan α := { c with closes := c.closes + 1 }

/-- A send in a `select` with a default: whether there was room. -/
def trySend (c : Chan α) (v : α) : Bool × Chan α :=
  if c.closes ≠ 0 then (false, { c with lateSends := c.lateSends + 1 })
  else if c.buf.length < c.cap then (true, { c with buf := c.buf ++ [v] })
  else (false, c)

/-- A receive: a value, or nothing from a closed channel.  It blocks on an open channel without a value. -/
def recv (c : Chan α) : Option (Option α × Chan α) :=
  match c.buf with
  | v :: rest => some (some v, { c with buf := rest })
  | [] => if c.closes ≠ 0 then some (none, c) else none

@[simp] lemma closes_close (c : Chan α) : c.close.closes = c.closes + 1 := rfl

@[simp] lemma lateSends_close (c : Chan α) : c.close.lateSends = c.lateSends := rfl

@[simp] lemma closes_trySend (c : Chan α) (v : α) : (c.trySend v).2.closes = c.closes := by
  unfold trySend
  split
  · rfl
  · split <;> rfl

lemma lateSends_trySend {c : Chan α} (h : c.closes = 0) (v : α) : (c.trySend v).2.lateSends = c.lateSends := by
  unfold trySend
  rw [if_neg (by simpa using h)]
  split <;> rfl

lemma recv_counts {c c' : Chan α} {v : Option α} (h : c.recv = some (v, c')) :
    c'.closes = c.closes ∧ c'.lateSends = c.lateSends := by
  unfold recv at h
  split at h
  · cases h
    exact ⟨rfl, rfl⟩
  · split at h <;> cases h
    exact ⟨rfl, rfl⟩

end Chan

end SingBox.Lib
