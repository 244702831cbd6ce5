import SingBox.Lib.Bufio
import SingBox.Lib.Run

/-!
# The gRPC-lite connection

`GunConn.Read` takes messages apart: a head of six bytes, the length of the data as a varint, and the data.  The length
is any 64-bit number that the peer likes; it is converted to an `int` and then cuts the buffer of the caller.

`int` has `w` bits.  A length that is negative as an `int` is the one thing that makes `Read` panic (`read_spec`).
-/

namespace SingBox.Transport

open SingBox.Lib

variable {ε : Type} (w : ℕ)

/-- `int(v)`, for an unsigned `v`. -/
def intOf (v : ℕ) : ℤ := (BitVec.ofNat w v).toInt

/-- The length of `b[:k]` if it is less than that of `b`, or else of `b`: `if len(b) > k { b = b[:k] }`. -/
def cutTo (n : ℕ) (k : ℤ) : Exec ε ℕ :=
  if k < n then
    if 0 ≤ k then .ok k.toNat else .error .panic
  else .ok n

/-- Why a read fails: the reader does, or a length has more than 64 bits. -/
inductive GunError (ε : Type) where
  | reader (e : ε)
  | overflow
  deriving DecidableEq

/-- `GunConn`, once it is set up; `err` is what it was set up with. -/
structure GunConn (ε : Type) where
  reader : Bufio ε
  err : Option ε := none
  readRemaining : ℤ := 0
  deriving DecidableEq

/-- `newGunConn`, or `setup`. -/
def newGunConn (reader : Source ε) (err : Option ε) : GunConn ε := { reader := .newReader reader, err }

namespace GunConn

/-- The data of a frame: as much as there is of what remains of it. -/
def readData (c : GunConn ε) (n : ℕ) : Exec (GunError ε) (List Byte × Option (GunError ε) × GunConn ε) := do
  let n ← cutTo n c.readRemaining
  let r := c.reader.read n
  return (r.1, r.2.1.map .reader, { c with reader := r.2.2, readRemaining := c.readRemaining - r.1.length })

/-- `Read`, for a buffer of the given length: the bytes read into it and the error. -/
def read (c : GunConn ε) (n : ℕ) : Exec (GunError ε) (List Byte × Option (GunError ε) × GunConn ε) :=
  match c.err with
  | some e => .ok ([], some (.reader e), c)
  | none =>
    if 0 < c.readRemaining then c.readData n
    else
      match c.reader.discard 6 with
      | (.error .panic, _) => .error .panic
      | (.error .loop, _) => .error .loop
      | (.error (.error e), r) => .ok ([], some (.reader e), { c with reader := r })
      | (.ok _, r) =>
        match r.readUvarint with
        | (.error e, r') => .ok ([], some (e.elim .overflow .reader), { c with reader := r' })
        | (.ok dataLen, r') => readData { c with reader := r', readRemaining := intOf w dataLen } n

/-- The length in the head of the next frame, if its head arrives. -/
def nextLen (c : GunConn ε) : Option ℕ := (uvarint (c.reader.unread.drop 6)).map Prod.fst

/-- The frame that `Read` starts, if it starts one, does not have a negative length. -/
def FrameFits (c : GunConn ε) : Prop :=
  c.err = none → c.readRemaining ≤ 0 → ∀ v ∈ c.nextLen, 0 ≤ intOf w v

instance (c : GunConn ε) : Decidable (c.FrameFits w) := by unfold FrameFits; infer_instance

structure Inv (c : GunConn ε) : Prop where
  settled : c.reader.Settled
  remaining : 0 ≤ c.readRemaining

/-! ### One call -/

/-- What a call that returns comes to: a count that fits the buffer, and a connection to go on with. -/
def Fine (n : ℕ) (r : List Byte × Option (GunError ε) × GunConn ε) : Prop := r.1.length ≤ n ∧ r.2.2.Inv

variable {c : GunConn ε}

lemma readData_of_nonneg (hS : c.reader.Settled) (hr : 0 ≤ c.readRemaining) (n : ℕ) :
    ∃ r, c.readData n = .ok r ∧ Fine n r := by
  obtain ⟨m, hm, hmn, hmr⟩ : ∃ m, (cutTo n c.readRemaining : Exec (GunError ε) ℕ) = .ok m ∧ m ≤ n ∧
      (m : ℤ) ≤ c.readRemaining := by
    unfold cutTo
    split
    · exact ⟨c.readRemaining.toNat, rfl, by omega, by omega⟩
    · exact ⟨n, rfl, Nat.le_refl n, by omega⟩
  obtain ⟨hS', -, hlen⟩ := Bufio.read_spec hS m
  refine ⟨_, by rw [readData, hm]; rfl, by dsimp only; omega, ⟨hS', ?_⟩⟩
  dsimp only
  omega

lemma readData_of_neg (hr : c.readRemaining < 0) (n : ℕ) : c.readData n = .error .panic := by
  have hcut : (cutTo n c.readRemaining : Exec (GunError ε) ℕ) = .error .panic := by
    rw [cutTo, if_pos (by omega), if_neg (by omega)]
  rw [readData, hcut]
  rfl

/-- **One call**: it returns a count that fits the buffer, unless it starts a frame of negative length, and then it
panics. -/
theorem read_spec (h : c.Inv) (n : ℕ) :
    (c.FrameFits w ∧ ∃ r, c.read w n = .ok r ∧ Fine n r) ∨ ¬c.FrameFits w ∧ c.read w n = .error .panic := by
  unfold read
  cases herr : c.err with
  | some e => exact .inl ⟨fun he => by simp [herr] at he, _, rfl, Nat.zero_le _, h⟩
  | none =>
    dsimp only
    split
    · exact .inl ⟨fun _ hle => by omega, readData_of_nonneg h.settled h.remaining n⟩
    · obtain ⟨hS, hd⟩ := Bufio.discard_spec h.settled 6
      generalize c.reader.discard 6 = d at hS hd
      obtain ⟨d, r⟩ := d
      rcases hd with ⟨rfl, hlen, hun⟩ | ⟨⟨e, rfl⟩, hlen⟩
      · obtain ⟨hS', hv⟩ := Bufio.readUvarint_spec hS
        dsimp only at hun ⊢
        rw [hun] at hv
        generalize r.readUvarint = u at hS' hv
        obtain ⟨u, r'⟩ := u
        rcases hv with ⟨v, rfl, hv⟩ | ⟨⟨e, rfl⟩, hv⟩
        · have hnext : c.nextLen = some v := by rw [nextLen, hv]; rfl
          by_cases hfit : 0 ≤ intOf w v
          · refine .inl ⟨fun _ _ v' hv' => ?_, readData_of_nonneg hS' hfit n⟩
            rw [hnext] at hv'
            cases hv'
            exact hfit
          · exact .inr ⟨fun hF => hfit (hF herr (by omega) v hnext), readData_of_neg (by simpa using hfit) n⟩
        · have hnext : c.nextLen = none := by rw [nextLen, hv]; rfl
          exact .inl ⟨fun _ _ v hv => by simp [hnext] at hv, _, rfl, Nat.zero_le _, hS', h.remaining⟩
      · have hnext : c.nextLen = none := by
          rw [nextLen, List.drop_eq_nil_iff.2 (by omega)]
          rfl
        exact .inl ⟨fun _ _ v hv => by simp [hnext] at hv, _, rfl, Nat.zero_le _, hS, h.remaining⟩

/-! ### Sequences of calls -/

/-- How a call came out: the connection, the length of the buffer and the count. -/
structure Returned (ε : Type) where
  conn : GunConn ε
  buffer : ℕ
  count : ℕ

/-- A call of `Read` after the calls before it; after a panic there is none. -/
def step : Exec (GunError ε) (Returned ε) → ℕ → Option (Exec (GunError ε) (Returned ε))
  | .error _, _ => none
  | .ok c, n => some (match c.conn.read w n with
    | .ok r => .ok ⟨r.2.2, n, r.1.length⟩
    | .error h => .error h)

/-- The call has not sliced out of range, and its count is between `0` and the length of the buffer. -/
def Survived : Exec (GunError ε) (Returned ε) → Prop
  | .error _ => False
  | .ok c => c.count ≤ c.buffer

/-- The frame that the call starts, if it starts one, does not have a negative length. -/
def NextFits : Exec (GunError ε) (Returned ε) → ℕ → Prop
  | .error _, _ => True
  | .ok c, _ => c.conn.FrameFits w

instance : (s : Exec (GunError ε) (Returned ε)) → (n : ℕ) → Decidable (NextFits w s n)
  | .error _, _ => isTrue trivial
  | .ok c, _ => inferInstanceAs (Decidable (c.conn.FrameFits w))

def start (reader : Source ε) (err : Option ε) : Exec (GunError ε) (Returned ε) := .ok ⟨newGunConn reader err, 0, 0⟩

lemma step_spec (s : Exec (GunError ε) (Returned ε)) (n : ℕ) (t : Exec (GunError ε) (Returned ε))
    (h : step w s n = some t) (hI : ∀ c, s = .ok c → c.conn.Inv) :
    (∀ c, t = .ok c → c.conn.Inv) ∧ (Survived t ↔ NextFits w s n) := by
  rcases s with _ | c
  · cases h
  · cases h
    rcases read_spec w (hI c rfl) n with ⟨hF, r, hr, hfine⟩ | ⟨hF, hr⟩
    · rw [hr]
      exact ⟨fun c' hc' => by cases hc'; exact hfine.2, fun _ => hF, fun _ => hfine.1⟩
    · rw [hr]
      exact ⟨fun c' hc' => (by cases hc'), ⟨False.elim, hF⟩⟩

/-- **The connections that survive their peer**: over every stream, in whatever pieces it arrives and whatever buffers
it is read into, no call panics and every count fits its buffer, exactly if no frame that is started has a length that
is negative as an `int`. -/
theorem reads_survive_iff (reader : Source ε) (err : Option ε) (buffers : List ℕ) :
    VisitAll (step w) Survived (start reader err) buffers ↔ StepAll (step w) (NextFits w) (start reader err) buffers :=
  visitAll_iff_stepAll (I := fun s => ∀ c, s = .ok c → c.conn.Inv)
    (fun s n t h hI => (step_spec w s n t h hI).1) (fun s n t h hI _ => (step_spec w s n t h hI).2) buffers
    (fun c hc => by cases hc; exact ⟨Bufio.settled_newReader reader, Int.le_refl 0⟩) (Nat.le_refl 0)

/-- A frame of the length `2 ^ 63`, and one call for it. -/
theorem read_panics_on_negative_length : ¬VisitAll (step 64) Survived
      (start { pieces := [(0, [0, 0, 0, 11, 10, 128, 128, 128, 128, 128, 128, 128, 128, 128, 1])], err := () } none)
      [1] :=
  fun h => h.2 (.error .panic) rfl

end GunConn

end SingBox.Transport
