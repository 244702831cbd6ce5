import Mathlib.Data.List.Infix
import SingBox.Lib.Exec

/-!
# Readers

A reader is a state with a `Read` function.  What it still has to give (`Delivers`) is what its calls return, however
long the buffers are; `delivers_of_left` is the rule to find it.

A `Source` is a connection or a body: a stream in the pieces in which it arrives.  Every way to split a stream into
reads is a list of such pieces, since a read returns at most one of them.
-/

namespace SingBox.Lib

open List

/-- `Read`, for a buffer of the given length: the bytes, the error and the state after it. -/
abbrev Reader (σ ε : Type) := σ → ℕ → List Byte × Option ε × σ

section Readers

variable {σ ε : Type} (read : Reader σ ε)

/-- What calls of `Read` for buffers of these lengths return together, and the state after them. -/
def readMany : σ → List ℕ → List Byte × σ
  | c, [] => ([], c)
  | c, n :: ns => ((read c n).1 ++ (readMany (read c n).2.2 ns).1, (readMany (read c n).2.2 ns).2)

/-- **The bytes a reader still has to give**: calls with buffers that are not empty return nothing else, and all of it
when there are as many calls as bytes. -/
def Delivers (c : σ) (bytes : List Byte) : Prop :=
  ∀ ns : List ℕ, (∀ n ∈ ns, 0 < n) →
    (readMany read c ns).1 <+: bytes ∧ (bytes.length ≤ ns.length → (readMany read c ns).1 = bytes)

variable {read}

lemma Delivers.unique {c : σ} {a b : List Byte} (ha : Delivers read c a) (hb : Delivers read c b) : a = b := by
  let ns := replicate (max a.length b.length) 1
  have hns : ∀ n ∈ ns, 0 < n := fun n hn => by rw [eq_of_mem_replicate hn]; exact Nat.one_pos
  have hlen : ns.length = max a.length b.length := length_replicate
  calc a = (readMany read c ns).1 := ((ha ns hns).2 (by omega)).symm
    _ = b := (hb ns hns).2 (by omega)

/-- **What is left to give**, when every call takes its bytes off the front of it, and at least one. -/
theorem delivers_of_left (I : σ → Prop) (left : σ → List Byte)
    (hread : ∀ c n, I c → 0 < n → I (read c n).2.2 ∧ left c = (read c n).1 ++ left (read c n).2.2 ∧
      (left c ≠ [] → (read c n).1 ≠ [])) {c : σ} (hc : I c) : Delivers read c (left c) := by
  intro ns
  induction ns generalizing c with
  | nil => exact fun _ => ⟨ nil_prefix, fun h => (eq_nil_of_length_eq_zero (by simpa using h)).symm⟩
  | cons n ns ih =>
    intro hns
    obtain ⟨hI, hleft, hne⟩ := hread c n hc (hns n mem_cons_self)
    obtain ⟨hpre, hall⟩ := ih hI fun m hm => hns m (mem_cons_of_mem _ hm)
    simp only [readMany]
    rw [hleft]
    refine ⟨(prefix_append_right_inj _).2 hpre, fun hlen => ?_⟩
    have hrest : (left (read c n).2.2).length ≤ ns.length := by
      by_cases h0 : left c = []
      · rw [h0] at hleft
        rw [(append_eq_nil_iff.1 hleft.symm).2]
        exact Nat.zero_le _
      · have := length_pos_iff.2 (hne h0)
        rw [length_append, length_cons] at hlen
        omega
    rw [hall hrest]

/-- A reader that passes on its errors changed. -/
def Reader.mapErr {ε' : Type} (f : ε → ε') (read : Reader σ ε) : Reader σ ε' := fun c n =>
  match read c n with
  | (bytes, err, c') => (bytes, err.map f, c')

lemma readMany_mapErr {ε' : Type} (f : ε → ε') (read : Reader σ ε) (c : σ) (ns : List ℕ) :
    readMany (Reader.mapErr f read) c ns = readMany read c ns := by
  induction ns generalizing c with
  | nil => rfl
  | cons n ns ih =>
    simp only [readMany, ih]
    rfl

lemma delivers_mapErr {ε' : Type} (f : ε → ε') {read : Reader σ ε} {c : σ} {bytes : List Byte} :
    Delivers (Reader.mapErr f read) c bytes ↔ Delivers read c bytes := by
  simp only [Delivers, readMany_mapErr]

/-- `io.ReadFull` with some fuel: calls of `Read` until there are `k` bytes. -/
def readFullLoop (read : Reader σ ε) : ℕ → σ → ℕ → Exec ε (List Byte) × σ
  | _, c, 0 => (.ok [], c)
  | 0, c, _ + 1 => (.error .loop, c)
  | fuel + 1, c, k + 1 =>
    match read c (k + 1) with
    | (bytes, err, c') =>
      if k + 1 ≤ bytes.length then (.ok bytes, c')
      else
        match err with
        | some e => (.error (.error e), c')
        | none =>
          match readFullLoop read fuel c' (k + 1 - bytes.length) with
          | (.ok rest, c'') => (.ok (bytes ++ rest), c'')
          | r => r

/-- `io.ReadFull`, for a buffer of the length `k`. -/
def readFull (read : Reader σ ε) (c : σ) (k : ℕ) : Exec ε (List Byte) × σ := readFullLoop read k c k

end Readers

/-! ### Streams in pieces -/

/-- A stream in the pieces in which it arrives, each of at least one byte, and the error at its end. -/
structure Source (ε : Type) where
  pieces : List (Byte × List Byte)
  err : ε
  /-- The error comes with the last bytes, not after them. -/
  eager : Bool := false
  deriving DecidableEq

namespace Source

variable {ε : Type}

def unread (s : Source ε) : List Byte := s.pieces.flatMap fun p => p.1 :: p.2

def count (pieces : List (Byte × List Byte)) : ℕ := (pieces.flatMap fun p => p.1 :: p.2).length

/-- One of the pieces ends after `n` bytes. -/
def EndsAt (s : Source ε) (n : ℕ) : Prop := ∃ done rest, s.pieces = done ++ rest ∧ count done = n

/-- A read with room for `n + 1` bytes: the bytes, of which there is at least one, and the error; or the end. -/
def recv (s : Source ε) (n : ℕ) : Option (Byte × List Byte × Option ε × Source ε) :=
  match s.pieces with
  | [] => none
  | (c, cs) :: rest =>
    match cs.drop n with
    | [] => some (c, cs, if s.eager && rest.isEmpty then some s.err else none, { s with pieces := rest })
    | d :: ds => some (c, cs.take n, none, { s with pieces := (d, ds) :: rest })

def read : Reader (Source ε) ε
  | s, 0 => ([], none, s)
  | s, n + 1 =>
    match s.recv n with
    | none => ([], some s.err, s)
    | some (c, cs, err, s') => (c :: cs, err, s')

@[simp] lemma count_append (a b : List (Byte × List Byte)) : count (a ++ b) = count a + count b := by
  simp [count]

@[simp] lemma count_cons (p : Byte × List Byte) (ps : List (Byte × List Byte)) :
    count (p :: ps) = p.2.length + 1 + count ps := by
  rw [count, flatMap_cons, length_append]
  rfl

lemma length_unread (s : Source ε) : s.unread.length = count s.pieces := rfl

lemma not_endsAt {s : Source ε} {done rest : List (Byte × List Byte)} {p : Byte × List Byte} {n : ℕ}
    (h : s.pieces = done ++ p :: rest) (hlo : count done < n) (hhi : n < count done + (p.2.length + 1)) :
    ¬s.EndsAt n := by
  rintro ⟨done', rest', h', hn⟩
  rw [h] at h'
  rcases append_eq_append_iff.1 h' with ⟨t, rfl, ht⟩ | ⟨t, rfl, ht⟩
  · rcases t with _ | ⟨q, t⟩
    · simp only [append_nil] at hn
      omega
    · cases ht
      simp only [count_append, count_cons] at hn
      omega
  · simp only [count_append] at hlo
    omega

lemma recv_eq_none {s : Source ε} {n : ℕ} : s.recv n = none ↔ s.unread = [] := by
  rcases s with ⟨_ | ⟨⟨c, cs⟩, rest⟩, err, eager⟩
  · exact ⟨fun _ => rfl, fun _ => rfl⟩
  · simp only [recv, unread, flatMap_cons, cons_append, reduceCtorEq]
    split <;> simp

lemma recv_eq_some {s s' : Source ε} {n : ℕ} {c : Byte} {cs : List Byte} {err : Option ε}
    (h : s.recv n = some (c, cs, err, s')) :
    s.unread = c :: cs ++ s'.unread ∧ cs.length ≤ n ∧ s'.err = s.err ∧ (err ≠ none → s'.unread = []) := by
  rcases s with ⟨_ | ⟨⟨d, ds⟩, rest⟩, e, eager⟩
  · cases h
  · simp only [recv] at h
    split at h
    next hdrop =>
      obtain ⟨rfl, rfl, rfl, rfl⟩ := h
      refine ⟨rfl, drop_eq_nil_iff.1 hdrop, rfl, fun he => ?_⟩
      rw [unread, flatMap_eq_nil_iff]
      intro p hp
      rcases rest with _ | ⟨r, rest⟩
      · cases hp
      · simp at he
    next x xs hdrop =>
      obtain ⟨rfl, rfl, rfl, rfl⟩ := h
      refine ⟨?_, length_take_le _ _, rfl, absurd rfl⟩
      have hds : ds = ds.take n ++ x :: xs := by rw [← hdrop, take_append_drop]
      simp only [unread, flatMap_cons, cons_append]
      conv_lhs => rw [hds, append_assoc, cons_append]

/-- What a read of a stream for `n` bytes does. -/
structure ReadOf (s : Source ε) (n : ℕ) (bytes : List Byte) (err : Option ε) (s' : Source ε) : Prop where
  unread : s.unread = bytes ++ s'.unread
  le : bytes.length ≤ n
  some_bytes : 0 < n → s.unread ≠ [] → bytes ≠ []
  ended : err ≠ none → s'.unread = []
  some_err : 0 < n → bytes = [] → err ≠ none

theorem read_spec (s : Source ε) (n : ℕ) : s.ReadOf n (s.read n).1 (s.read n).2.1 (s.read n).2.2 := by
  cases n with
  | zero => exact ⟨rfl, Nat.le_refl 0, fun h => absurd h (Nat.lt_irrefl 0), absurd rfl,
      fun h => absurd h (Nat.lt_irrefl 0)⟩
  | succ n =>
    simp only [read]
    cases h : s.recv n with
    | none => exact ⟨rfl, Nat.zero_le _, fun _ => absurd (recv_eq_none.1 h), fun _ => recv_eq_none.1 h,
        fun _ _ => Option.some_ne_none _⟩
    | some r =>
      obtain ⟨hs, hlen, -, herr⟩ := recv_eq_some h
      exact ⟨hs, Nat.succ_le_succ hlen, fun _ _ => cons_ne_nil _ _, herr,
        fun _ h => absurd h (cons_ne_nil _ _)⟩

lemma readFullLoop_spec (fuel : ℕ) : ∀ {s : Source ε} {k : ℕ}, k ≤ fuel →
    (∃ s', readFullLoop read fuel s k = (.ok (s.unread.take k), s') ∧ k ≤ s.unread.length ∧
        s'.unread = s.unread.drop k) ∨
      ∃ e s', readFullLoop read fuel s k = (.error (.error e), s') ∧ s.unread.length < k ∧ s'.unread = [] := by
  induction fuel with
  | zero =>
    intro s k hk
    obtain rfl : k = 0 := by omega
    exact .inl ⟨s, rfl, Nat.zero_le _, rfl⟩
  | succ fuel ih =>
    intro s k hk
    rcases k with _ | k
    · exact .inl ⟨s, by simp only [readFullLoop, take_zero], Nat.zero_le _, rfl⟩
    have hread := read_spec s (k + 1)
    rw [readFullLoop]
    generalize s.read (k + 1) = r at hread
    obtain ⟨bytes, err, s'⟩ := r
    dsimp only at hread ⊢
    have hle := hread.le
    have hcount : s.unread.length = bytes.length + s'.unread.length := by rw [hread.unread, length_append]
    split
    · have heq : bytes.length = k + 1 := by omega
      refine .inl ⟨s', ?_, by omega, ?_⟩
      · rw [hread.unread, take_left' heq]
      · rw [hread.unread, drop_left' heq]
    · split
      next e =>
        have hend := hread.ended (Option.some_ne_none e)
        rw [hend, length_nil] at hcount
        exact .inr ⟨e, s', rfl, by omega, hend⟩
      · have hpos : 0 < bytes.length := length_pos_iff.2 fun h => hread.some_err (by omega) h rfl
        rcases ih (s := s') (k := k + 1 - bytes.length) (by omega) with ⟨s'', hs'', hk', hun⟩ | ⟨e, s'', hs'', hk', hun⟩
        · refine .inl ⟨s'', ?_, by omega, ?_⟩
          · rw [hs'', hread.unread, take_append, take_of_length_le hread.le]
          · rw [hun, hread.unread, drop_append, drop_eq_nil_iff.2 hread.le, nil_append]
        · exact .inr ⟨e, s'', by rw [hs''], by omega, hun⟩

/-- **What `io.ReadFull` does on a stream**: it takes `k` bytes, or there are not as many. -/
theorem readFull_spec (s : Source ε) (k : ℕ) :
    (∃ s', readFull read s k = (.ok (s.unread.take k), s') ∧ k ≤ s.unread.length ∧ s'.unread = s.unread.drop k) ∨
      ∃ e s', readFull read s k = (.error (.error e), s') ∧ s.unread.length < k ∧ s'.unread = [] :=
  readFullLoop_spec k (Nat.le_refl k)

end Source

end SingBox.Lib
