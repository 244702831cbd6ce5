import Mathlib.Data.List.Forall2
import SingBox.Lib.Bytes

/-!
# Reading back what was written

A `Get` takes a value off the front of some bytes.  `Reads p bs a` says that it takes exactly `bs` and returns `a`,
whatever follows; so what was written piece by piece is read piece by piece (`Reads.bind`).

`many p` reads until nothing is left.  `ReadsMany p bs as` says that it reads `bs` as the values `as` and then goes on
with what follows.
-/

namespace SingBox.Lib

open List

abbrev Get (α : Type) := StateT (List Byte) Option α

variable {α β : Type}

namespace Get

def byte : Get Byte
  | [] => none
  | b :: r => some (b, r)

def bytes (n : ℕ) : Get (List Byte) := fun r => if n ≤ r.length then some (r.take n, r.drop n) else none

/-- A number of `k` bytes, the highest first. -/
def uint (k : ℕ) : Get ℕ := do
  let b ← bytes k
  return ofBytes b

/-- A value behind its length of `k` bytes. -/
def vec (k : ℕ) (p : List Byte → Option α) : Get α := do
  let n ← uint k
  let b ← bytes n
  p b

/-- The value, if there is nothing after it. -/
def all (p : Get α) (bs : List Byte) : Option α :=
  match p bs with
  | some (a, []) => some a
  | _ => none

/-- Values until nothing is left; reading a value has to take a byte. -/
def many (p : Get α) (bs : List Byte) : Option (List α) :=
  if bs = [] then some []
  else
    match p bs with
    | none => none
    | some (a, r) => if r.length < bs.length then (many p r).map (a :: ·) else none
termination_by bs.length

end Get

/-! ### One value -/

/-- The reader takes these bytes, whatever follows, and returns the value. -/
def Reads (p : Get α) (bs : List Byte) (a : α) : Prop := ∀ rest, p (bs ++ rest) = some (a, rest)

lemma Reads.pure (a : α) : Reads (Pure.pure a) [] a := fun _ => rfl

variable {p : Get α} {a : α}

lemma Reads.bind {f : α → Get β} {bs cs : List Byte} {b : β} (hp : Reads p bs a)
    (hf : Reads (f a) cs b) : Reads (p >>= f) (bs ++ cs) b := by
  intro rest
  rw [append_assoc]
  calc (p >>= f) (bs ++ (cs ++ rest)) = (p (bs ++ (cs ++ rest))).bind fun x => f x.1 x.2 := rfl
    _ = f a (cs ++ rest) := by rw [hp]; rfl
    _ = some (b, rest) := hf rest

variable {bs : List Byte}

lemma Reads.map {f : α → β} (hp : Reads p bs a) : Reads (p >>= fun a => Pure.pure (f a)) bs (f a) := by
  simpa using hp.bind (f := fun a => Pure.pure (f a)) (Reads.pure (f a))

lemma Reads.all (h : Reads p bs a) : p.all bs = some a := by
  have := h []
  rw [append_nil] at this
  rw [Get.all, this]

lemma reads_byte (b : Byte) : Reads Get.byte [b] b := fun _ => rfl

lemma reads_bytes {n : ℕ} (h : bs.length = n) : Reads (Get.bytes n) bs bs := by
  intro rest
  rw [Get.bytes, if_pos (by rw [length_append]; omega), take_left' h, drop_left' h]

lemma reads_uint {k n : ℕ} (h : n < 2 ^ (8 * k)) : Reads (Get.uint k) (toBytes k n) n := by
  have := (reads_bytes (length_toBytes k n)).map (f := ofBytes)
  rwa [ofBytes_toBytes h] at this

lemma reads_lift {x : Option α} (h : x = some a) : Reads (liftM x : Get α) [] a := by
  subst h
  exact fun _ => rfl

lemma reads_vec {k : ℕ} {p : List Byte → Option α} {b : List Byte} (hp : p b = some a)
    (hb : b.length < 2 ^ (8 * k)) : Reads (Get.vec k p) (toBytes k b.length ++ b) a := by
  refine (reads_uint hb).bind ?_
  rw [← append_nil b]
  exact (reads_bytes (by rw [append_nil])).bind (reads_lift hp)

/-! ### Many values -/

/-- These bytes are read as these values, whatever follows. -/
def ReadsMany (p : Get α) (bs : List Byte) (as : List α) : Prop :=
  ∀ rest, p.many (bs ++ rest) = (p.many rest).map (as ++ ·)

lemma ReadsMany.nil (p : Get α) : ReadsMany p [] [] := by
  intro rest
  simp

lemma ReadsMany.append {cs : List Byte} {as as' : List α} (h : ReadsMany p bs as)
    (h' : ReadsMany p cs as') : ReadsMany p (bs ++ cs) (as ++ as') := by
  intro rest
  rw [append_assoc, h, h', Option.map_map]
  congr 1
  funext l
  simp

lemma Reads.many (h : Reads p bs a) (hne : bs ≠ []) : ReadsMany p bs [a] := by
  intro rest
  have hpos := length_pos_iff.2 hne
  rw [Get.many, if_neg (by simp [hne]), h]
  dsimp only
  rw [if_pos (by rw [length_append]; omega)]
  rfl

lemma ReadsMany.flatMap {γ : Type} {f : γ → List Byte} {g : γ → List α} {l : List γ}
    (h : ∀ x ∈ l, ReadsMany p (f x) (g x)) : ReadsMany p (l.flatMap f) (l.flatMap g) := by
  induction l with
  | nil => exact ReadsMany.nil p
  | cons x l ih =>
    exact (h x mem_cons_self).append (ih fun y hy => h y (mem_cons_of_mem _ hy))

lemma ReadsMany.many {as : List α} (h : ReadsMany p bs as) : p.many bs = some as := by
  have := h []
  rw [Get.many.eq_def p []] at this
  simpa using this

lemma many_flatMap {γ : Type} {f : γ → List Byte} {l : List γ} {as : List α}
    (h : List.Forall₂ (fun x a => f x ≠ [] ∧ Reads p (f x) a) l as) : p.many (l.flatMap f) = some as := by
  have hmany : ReadsMany p (l.flatMap f) as := by
    induction h with
    | nil => exact ReadsMany.nil p
    | cons hx _ ih => exact (hx.2.many hx.1).append ih
  exact hmany.many

end SingBox.Lib
