import SingBox.Lib.Reader

/-!
# Buffered readers

`bufio.Reader`, with the functions of it that readers of protocols use.  Its bytes are those in its buffer and then
those of the stream that it reads (`unread`); its functions take theirs off the front, whatever the pieces are in which
the stream arrives.

A pending error comes from the end of the stream (`Settled`).
-/

namespace SingBox.Lib

open List

/-- `bufio.Reader`: `buf` is what has been read and not been used, `err` the error that is pending. -/
structure Bufio (ε : Type) where
  size : ℕ
  buf : List Byte := []
  err : Option ε := none
  src : Source ε
  deriving DecidableEq

namespace Bufio

variable {ε : Type}

def newReader (src : Source ε) : Bufio ε := { size := 4096, src }

def unread (b : Bufio ε) : List Byte := b.buf ++ b.src.unread

/-- `fill`; there is room in the buffer. -/
def fill (b : Bufio ε) : Bufio ε :=
  match b.src.recv (b.size - b.buf.length - 1) with
  | none => { b with err := some b.src.err }
  | some (c, cs, err, src) => { b with buf := b.buf ++ c :: cs, err := err.or b.err, src }

def read : Reader (Bufio ε) ε
  | b, 0 => if b.buf = [] then ([], b.err, { b with err := none }) else ([], none, b)
  | b, n + 1 =>
    match b.buf with
    | c :: cs => (c :: cs.take n, none, { b with buf := cs.drop n })
    | [] =>
      match b.err with
      | some e => ([], some e, { b with err := none })
      | none =>
        if b.size ≤ n + 1 then
          -- a large read goes past the buffer
          match b.src.recv n with
          | none => ([], some b.src.err, b)
          | some (c, cs, err, src) => (c :: cs, err, { b with src })
        else
          match b.src.recv (b.size - 1) with
          | none => ([], some b.src.err, b)
          | some (c, cs, err, src) => (c :: cs.take n, none, { b with buf := cs.drop n, err, src })

def readByte (b : Bufio ε) : Except ε Byte × Bufio ε :=
  match b.buf with
  | c :: cs => (.ok c, { b with buf := cs })
  | [] =>
    match b.err with
    | some e => (.error e, { b with err := none })
    | none =>
      match b.src.recv (b.size - 1) with
      | none => (.error b.src.err, b)
      | some (c, cs, err, src) => (.ok c, { b with buf := cs, err, src })

/-- `Discard` with some fuel, of at least one byte. -/
def discardLoop : ℕ → Bufio ε → ℕ → Exec ε Unit × Bufio ε
  | 0, b, _ => (.error .loop, b)
  | fuel + 1, b, remain =>
    let b := if b.buf = [] then b.fill else b
    let b' := { b with buf := b.buf.drop remain }
    if remain ≤ b.buf.length then (.ok (), b')
    else
      match b.err with
      | some e => (.error (.error e), { b' with err := none })
      | none => discardLoop fuel b' (remain - b.buf.length)

def discard (b : Bufio ε) (n : ℕ) : Exec ε Unit × Bufio ε := if n = 0 then (.ok (), b) else discardLoop n b n

/-! ### The bytes they take -/

/-- An error is pending only at the end of the stream; the buffer has room for more than a byte. -/
structure Settled (b : Bufio ε) : Prop where
  ended : b.err ≠ none → b.src.unread = []
  room : 1 < b.size

lemma settled_newReader (src : Source ε) : (newReader src).Settled :=
  ⟨absurd rfl, Nat.succ_lt_succ (Nat.zero_lt_succ _)⟩

variable {b : Bufio ε}

lemma Settled.fill (h : b.Settled) : b.fill.Settled := by
  unfold Bufio.fill
  cases hr : b.src.recv (b.size - b.buf.length - 1) with
  | none => exact ⟨fun _ => Source.recv_eq_none.1 hr, h.room⟩
  | some r =>
    obtain ⟨c, cs, err, src⟩ := r
    obtain ⟨hs, -, -, herr⟩ := Source.recv_eq_some hr
    refine ⟨fun he => ?_, h.room⟩
    cases err with
    | some e => exact herr (by simp)
    | none =>
      have : b.src.unread = [] := h.ended he
      rw [this] at hs
      cases hs

lemma unread_fill (b : Bufio ε) : b.fill.unread = b.unread := by
  unfold Bufio.fill
  cases hr : b.src.recv (b.size - b.buf.length - 1) with
  | none => rfl
  | some r =>
    simp only [unread, (Source.recv_eq_some hr).1, append_assoc]

lemma fill_grows (b : Bufio ε) : b.buf.length < b.fill.buf.length ∨ b.fill.buf = b.buf ∧ b.fill.err ≠ none := by
  unfold Bufio.fill
  cases hr : b.src.recv (b.size - b.buf.length - 1) with
  | none => exact .inr ⟨rfl, by simp⟩
  | some r => exact .inl (by simp)

lemma size_fill (b : Bufio ε) : b.fill.size = b.size := by
  unfold Bufio.fill
  split <;> rfl

lemma src_fill_lt (h : b.src.unread ≠ []) : b.fill.src.unread.length < b.src.unread.length := by
  unfold Bufio.fill
  cases hr : b.src.recv (b.size - b.buf.length - 1) with
  | none => exact absurd (Source.recv_eq_none.1 hr) h
  | some r =>
    rw [(Source.recv_eq_some hr).1, length_append, length_cons]
    dsimp only
    omega

lemma Settled.take (h : b.Settled) (buf : List Byte) : ({ b with buf } : Bufio ε).Settled :=
  ⟨h.ended, h.room⟩

lemma Settled.clear (h : b.Settled) : ({ b with err := none } : Bufio ε).Settled :=
  ⟨absurd rfl, h.room⟩

theorem read_spec (h : b.Settled) (n : ℕ) :
    (b.read n).2.2.Settled ∧ b.unread = (b.read n).1 ++ (b.read n).2.2.unread ∧ (b.read n).1.length ≤ n := by
  cases n with
  | zero =>
    simp only [read]
    split
    · exact ⟨h.clear, rfl, Nat.le_refl 0⟩
    · exact ⟨h, rfl, Nat.le_refl 0⟩
  | succ n =>
    simp only [read]
    split
    next c cs hbuf =>
      refine ⟨h.take _, ?_, by simp⟩
      simp only [unread, hbuf, cons_append, ← append_assoc, take_append_drop]
    next hbuf =>
      split
      · exact ⟨h.clear, rfl, Nat.zero_le _⟩
      next he =>
        split
        · split
          · exact ⟨h, rfl, Nat.zero_le _⟩
          next c cs err src hr =>
            obtain ⟨hs, hlen, -, herr⟩ := Source.recv_eq_some hr
            exact ⟨⟨absurd he, h.room⟩, by simp [unread, hbuf, hs], Nat.succ_le_succ hlen⟩
        · split
          · exact ⟨h, rfl, Nat.zero_le _⟩
          next c cs err src hr =>
            obtain ⟨hs, -, -, herr⟩ := Source.recv_eq_some hr
            refine ⟨⟨herr, h.room⟩, ?_, by simp⟩
            simp only [unread, hbuf, hs, nil_append, cons_append, ← append_assoc, take_append_drop]

theorem readByte_spec (h : b.Settled) : (b.readByte).2.Settled ∧ match b.readByte.1 with
      | .ok c => b.unread = c :: b.readByte.2.unread
      | .error _ => b.unread = [] := by
  unfold readByte
  split
  next c cs hbuf => exact ⟨h.take _, by simp [unread, hbuf]⟩
  next hbuf =>
    split
    next e he => exact ⟨h.clear, by simp [unread, hbuf, h.ended (by simp [he])]⟩
    · split
      next hr => exact ⟨h, by simp [unread, hbuf, Source.recv_eq_none.1 hr]⟩
      next c cs err src hr =>
        obtain ⟨hs, -, -, herr⟩ := Source.recv_eq_some hr
        exact ⟨⟨herr, h.room⟩, by simp [unread, hbuf, hs]⟩

/-- What `Discard` does: `remain` bytes are skipped, or there are not as many. -/
lemma discardLoop_spec (fuel : ℕ) : ∀ (remain : ℕ) {b : Bufio ε}, b.Settled → 0 < remain → remain ≤ fuel →
    (discardLoop fuel b remain).2.Settled ∧ ((discardLoop fuel b remain).1 = .ok () ∧ remain ≤ b.unread.length ∧
          (discardLoop fuel b remain).2.unread = b.unread.drop remain ∨
        (∃ e, (discardLoop fuel b remain).1 = .error (.error e)) ∧ b.unread.length < remain) := by
  induction fuel with
  | zero =>
    intro remain b _ h0 hle
    omega
  | succ fuel ih =>
    intro remain b h h0 hle
    -- the buffer from which a turn skips, with the bytes of the one before
    obtain ⟨c, hc, hcs, hun, hne⟩ : ∃ c, c = (if b.buf = [] then b.fill else b) ∧ c.Settled ∧
        c.unread = b.unread ∧ (c.buf ≠ [] ∨ c.err ≠ none) := by
      refine ⟨_, rfl, ?_⟩
      split
      · refine ⟨h.fill, unread_fill b, ?_⟩
        rcases fill_grows b with hg | ⟨-, he⟩
        · exact .inl fun h' => by rw [h'] at hg; simp at hg
        · exact .inr he
      next hb => exact ⟨h, rfl, .inl hb⟩
    rw [discardLoop, ← hc, ← hun]
    split
    next hfit =>
      refine ⟨hcs.take _, .inl ⟨rfl, by rw [unread, length_append]; omega, ?_⟩⟩
      rw [unread, unread, drop_append_of_le_length hfit]
    · split
      next e he =>
        refine ⟨⟨absurd rfl, hcs.room⟩, .inr ⟨⟨e, rfl⟩, ?_⟩⟩
        rw [unread, hcs.ended (by simp [he]), append_nil]
        omega
      next he =>
        have hlen : 0 < c.buf.length := length_pos_iff.2 (hne.resolve_right fun h' => h' he)
        have hdrop : c.buf.drop remain = [] := drop_eq_nil_iff.2 (by omega)
        have hu : ({ c with buf := c.buf.drop remain } : Bufio ε).unread = c.src.unread := by
          simp [unread, hdrop]
        have hall : c.unread.length = c.buf.length + c.src.unread.length := length_append
        obtain ⟨hS, hrest⟩ := ih (remain - c.buf.length) (hcs.take _) (by omega) (by omega)
        rw [hu] at hrest
        refine ⟨hS, hrest.imp (fun ⟨hok, hle, hto⟩ => ⟨hok, by omega, ?_⟩) (fun ⟨he, hlt⟩ => ⟨he, by omega⟩)⟩
        rw [hto, unread, drop_append, hdrop, nil_append]

theorem discard_spec (h : b.Settled) (n : ℕ) : (b.discard n).2.Settled ∧
      ((b.discard n).1 = .ok () ∧ n ≤ b.unread.length ∧ (b.discard n).2.unread = b.unread.drop n ∨
        (∃ e, (b.discard n).1 = .error (.error e)) ∧ b.unread.length < n) := by
  unfold discard
  split
  next h0 =>
    subst h0
    exact ⟨h, .inl ⟨rfl, Nat.zero_le _, rfl⟩⟩
  · exact discardLoop_spec n n h (by omega) (Nat.le_refl n)

end Bufio

/-! ### Varints -/

/-- `binary.ReadUvarint` on bytes that are all there, with `n` more bytes at most: the value and the rest. -/
def uvarintLoop : ℕ → ℕ → ℕ → List Byte → Option (ℕ × List Byte)
  | 0, _, _, _ => none
  | _ + 1, _, _, [] => none
  | n + 1, x, s, b :: rest =>
    if b.toNat < 0x80 then
      if n = 0 ∧ 1 < b.toNat then none else some (x + b.toNat * 2 ^ s, rest)
    else uvarintLoop n (x + b.toNat % 0x80 * 2 ^ s) (s + 7) rest

/-- The value at the start of some bytes and the bytes after it, unless it is cut off or has more than 64 bits. -/
def uvarint (bytes : List Byte) : Option (ℕ × List Byte) := uvarintLoop 10 0 0 bytes

namespace Bufio

variable {ε : Type}

/-- `binary.ReadUvarint`, with `n` more bytes at most; without an error of the reader the value is too large. -/
def readUvarintLoop : ℕ → ℕ → ℕ → Bufio ε → Except (Option ε) ℕ × Bufio ε
  | 0, _, _, r => (.error none, r)
  | n + 1, x, s, r =>
    match r.readByte with
    | (.error e, r') => (.error (some e), r')
    | (.ok b, r') =>
      if b.toNat < 0x80 then
        if n = 0 ∧ 1 < b.toNat then (.error none, r') else (.ok (x + b.toNat * 2 ^ s), r')
      else readUvarintLoop n (x + b.toNat % 0x80 * 2 ^ s) (s + 7) r'

/-- `binary.ReadUvarint`. -/
def readUvarint (r : Bufio ε) : Except (Option ε) ℕ × Bufio ε := readUvarintLoop 10 0 0 r

lemma readUvarintLoop_spec (n : ℕ) : ∀ {x s : ℕ} {r : Bufio ε}, r.Settled → (readUvarintLoop n x s r).2.Settled ∧
      ((∃ v, (readUvarintLoop n x s r).1 = .ok v ∧
          uvarintLoop n x s r.unread = some (v, (readUvarintLoop n x s r).2.unread)) ∨
        (∃ e, (readUvarintLoop n x s r).1 = .error e) ∧ uvarintLoop n x s r.unread = none) := by
  induction n with
  | zero => exact fun h => ⟨h, .inr ⟨⟨none, rfl⟩, rfl⟩⟩
  | succ n ih =>
    intro x s r h
    obtain ⟨hS, hb⟩ := readByte_spec h
    rw [readUvarintLoop]
    generalize r.readByte = rb at hS hb
    obtain ⟨b | b, r'⟩ := rb
    · rw [hb]
      exact ⟨hS, .inr ⟨⟨_, rfl⟩, rfl⟩⟩
    · rw [hb, uvarintLoop]
      dsimp only
      split
      · split
        · exact ⟨hS, .inr ⟨⟨_, rfl⟩, rfl⟩⟩
        · exact ⟨hS, .inl ⟨_, rfl, rfl⟩⟩
      · exact ih hS

theorem readUvarint_spec {r : Bufio ε} (h : r.Settled) : r.readUvarint.2.Settled ∧
      ((∃ v, r.readUvarint.1 = .ok v ∧ uvarint r.unread = some (v, r.readUvarint.2.unread)) ∨
        (∃ e, r.readUvarint.1 = .error e) ∧ uvarint r.unread = none) :=
  readUvarintLoop_spec 10 h

end Bufio

end SingBox.Lib
