import SingBox.Lib.Reader

/-!
# Padded connections

The first eight frames of a Naive connection are padded: a head with the sizes of the data and of the padding, the data,
and the padding.  `readWithPadding` takes them apart; the padding of a frame is skipped by the call after the one that
has read the last of its data.

The connection calls itself replaceable once it has seen eight heads.  At that point the padding of the eighth frame is
still to be skipped, so what it would deliver (`left`) is not what is unread (`delivers_unread_iff`).
-/

namespace SingBox.Transport

open SingBox.Lib List

variable {ε : Type}

def paddingCount : ℕ := 8

/-- `paddingConn`, with the connection it reads from. -/
structure PaddingConn (ε : Type) where
  conn : Source ε
  readPadding : ℕ := 0
  readRemaining : ℕ := 0
  paddingRemaining : ℕ := 0
  deriving DecidableEq

namespace PaddingConn

def readData (c : PaddingConn ε) (n : ℕ) : List Byte × Option (Halt ε) × PaddingConn ε :=
  match c.conn.read (min n c.readRemaining) with
  | (bytes, some e, conn) => (bytes, some (.error e), { c with conn })
  | (bytes, none, conn) => (bytes, none, { c with conn, readRemaining := c.readRemaining - bytes.length })

/-- A read that starts with the head of a frame. -/
def readFrame (c : PaddingConn ε) (n : ℕ) : List Byte × Option (Halt ε) × PaddingConn ε :=
  match readFull Source.read c.conn 3 with
  | (.error h, conn) => ([], some h, { c with conn })
  | (.ok head, conn) =>
    let originalDataSize := (head.getD 0 0).toNat * 256 + (head.getD 1 0).toNat
    match conn.read (min n originalDataSize) with
    | (bytes, some e, conn) => (bytes, some (.error e), { c with conn })
    | (bytes, none, conn) =>
      (bytes, none, { c with
        conn
        readPadding := c.readPadding + 1
        readRemaining := originalDataSize - bytes.length
        paddingRemaining := (head.getD 2 0).toNat })

/-- `rw.SkipN` of the padding that remains. -/
def skipPadding (c : PaddingConn ε) : Option (Halt ε) × PaddingConn ε :=
  if 0 < c.paddingRemaining then
    match readFull Source.read c.conn c.paddingRemaining with
    | (.error h, conn) => (some h, { c with conn })
    | (.ok _, conn) => (none, { c with conn, paddingRemaining := 0 })
  else (none, c)

def readWithPadding : Reader (PaddingConn ε) (Halt ε) := fun c n =>
  if 0 < c.readRemaining then c.readData n
  else
    match c.skipPadding with
    | (some h, c) => ([], some h, c)
    | (none, c) =>
      if c.readPadding < paddingCount then c.readFrame n
      else
        match c.conn.read n with
        | (bytes, err, conn) => (bytes, err.map .error, { c with conn })

def readerReplaceable (c : PaddingConn ε) : Bool := c.readPadding = paddingCount

end PaddingConn

def naiveConnRead (wrapError : Halt ε → Halt ε) : Reader (PaddingConn ε) (Halt ε) :=
  Reader.mapErr wrapError PaddingConn.readWithPadding

def naiveH2ConnRead (wrapError : Halt ε → Halt ε) : Reader (PaddingConn ε) (Halt ε) :=
  Reader.mapErr wrapError PaddingConn.readWithPadding

/-! ### What a replaceable connection delivers -/

namespace PaddingConn

/-- What a connection delivers when it expects no more heads: the rest of the data and what follows the padding. -/
def left (c : PaddingConn ε) : List Byte :=
  c.conn.unread.take c.readRemaining ++ c.conn.unread.drop (c.readRemaining + c.paddingRemaining)

/-- A call that takes its bytes off what is left to deliver, at least one of them, and expects no head after it. -/
structure Gives (c : PaddingConn ε) (r : List Byte × Option (Halt ε) × PaddingConn ε) : Prop where
  replaceable : r.2.2.readerReplaceable = true
  left : c.left = r.1 ++ r.2.2.left
  some_bytes : c.left ≠ [] → r.1 ≠ []

variable {c : PaddingConn ε}

lemma gives_readData (h : c.readerReplaceable = true) (hr : 0 < c.readRemaining) {n : ℕ}
    (hn : 0 < n) : c.Gives (c.readData n) := by
  have hread := Source.read_spec c.conn (min n c.readRemaining)
  unfold readData
  generalize c.conn.read (min n c.readRemaining) = r at hread
  obtain ⟨bytes, err, conn⟩ := r
  dsimp only at hread
  have hlen : bytes.length ≤ c.readRemaining := hread.le.trans (Nat.min_le_right _ _)
  have hleft : c.left = bytes ++ (conn.unread.take (c.readRemaining - bytes.length) ++
      conn.unread.drop (c.readRemaining - bytes.length + c.paddingRemaining)) := by
    rw [left, hread.unread, take_append, take_of_length_le hlen, append_assoc, drop_append,
      drop_eq_nil_iff.2 (by omega), nil_append]
    congr 3
    omega
  have hne : c.left ≠ [] → bytes ≠ [] := fun h0 => hread.some_bytes (by omega) fun h' => h0 (by simp [left, h'])
  rcases err with _ | e
  · exact ⟨h, hleft, hne⟩
  · -- at the end of the stream it does not matter that the data still to come is not counted down
    have hend := hread.ended (Option.some_ne_none e)
    refine ⟨h, ?_, hne⟩
    rw [hleft]
    simp [left, hend]

lemma skipPadding_spec (hr : c.readRemaining = 0) :
    (∃ conn, c.skipPadding = (none, { c with conn, paddingRemaining := 0 }) ∧ conn.unread = c.left) ∨
      ∃ h conn, c.skipPadding = (some h, { c with conn }) ∧ conn.unread = [] ∧ c.left = [] := by
  have hleft : c.left = c.conn.unread.drop c.paddingRemaining := by simp [left, hr]
  unfold skipPadding
  split
  · rcases Source.readFull_spec c.conn c.paddingRemaining with ⟨conn, hc, -, hun⟩ | ⟨e, conn, hc, hlt, hun⟩
    · exact .inl ⟨conn, by rw [hc], hun.trans hleft.symm⟩
    · exact .inr ⟨.error e, conn, by rw [hc], hun, by rw [hleft, drop_eq_nil_iff]; omega⟩
  · obtain hp0 : c.paddingRemaining = 0 := by omega
    refine .inl ⟨c.conn, ?_, by rw [hleft, hp0, drop_zero]⟩
    rcases c with ⟨conn, readPadding, readRemaining, paddingRemaining⟩
    cases hp0
    rfl

/-- **A call on a replaceable connection.** -/
theorem gives_readWithPadding (h : c.readerReplaceable = true) {n : ℕ} (hn : 0 < n) :
    c.Gives (c.readWithPadding n) := by
  have hpad : c.readPadding = paddingCount := of_decide_eq_true h
  unfold readWithPadding
  split
  next hr => exact gives_readData h hr hn
  · obtain hr0 : c.readRemaining = 0 := by omega
    rcases skipPadding_spec hr0 with ⟨conn, hskip, hconn⟩ | ⟨halt, conn, hskip, hconn, hleft⟩
    · have hread := Source.read_spec conn n
      rw [hskip]
      simp only [hpad, Nat.lt_irrefl]
      exact ⟨decide_eq_true rfl, by rw [← hconn, hread.unread]; simp [left], fun h0 =>
        hread.some_bytes hn (hconn ▸ h0)⟩
    · rw [hskip]
      exact ⟨h, by rw [hleft]; simp [left, hconn], absurd hleft⟩

theorem delivers_left (h : c.readerReplaceable = true) : Delivers readWithPadding c c.left :=
  delivers_of_left (fun c => c.readerReplaceable = true) left
    (fun _ _ hc hn => ⟨(gives_readWithPadding hc hn).replaceable, (gives_readWithPadding hc hn).left,
      (gives_readWithPadding hc hn).some_bytes⟩) h

/-- **When a replaceable connection hides nothing**: no padding remains, or nothing follows the data before it. -/
theorem delivers_unread_iff (h : c.readerReplaceable = true) :
    Delivers readWithPadding c c.conn.unread ↔ c.paddingRemaining = 0 ∨ c.conn.unread.length ≤ c.readRemaining := by
  constructor
  · intro hd
    have hlen := congrArg length (hd.unique (delivers_left h))
    rw [left, length_append, length_take, length_drop] at hlen
    omega
  · intro hc
    have heq : c.left = c.conn.unread := by
      rcases hc with hc | hc
      · rw [left, hc, Nat.add_zero, take_append_drop]
      · rw [left, take_of_length_le hc, drop_eq_nil_iff.2 (by omega), append_nil]
    exact heq ▸ delivers_left h

end PaddingConn

end SingBox.Transport
