import SingBox.Transport.Naive
import SingBox.Transport.Upgrade

/-!
# The connection of the HTTP transport

`HTTPConn.Read` reads the response of the server when it is first called, and keeps what the reader of the response has
read beyond it.  The connection calls itself replaceable once the response has been read, also while it still has some
of those bytes; what it would deliver is then more than what is unread (`HTTPConn.delivers_unread_iff`).
-/

namespace SingBox.Transport

open SingBox.Lib List

variable {ε : Type}

/-- `HTTPConn`, the side that is read. -/
structure HTTPConn (ε : Type) where
  conn : Source ε
  responseRead : Bool := false
  responseCache : Option (List Byte) := none
  deriving DecidableEq

namespace HTTPConn

/-- The first part of `Read`: the response, and what has been read beyond it. -/
def readFirst (c : HTTPConn ε) : Except (Halt (UpgradeError ε)) Unit × HTTPConn ε :=
  if c.responseRead then (.ok (), c)
  else
    match readResponse (Bufio.newReader c.conn) with
    | (.error .panic, r) => (.error .panic, { c with conn := r.src })
    | (.error .loop, r) => (.error .loop, { c with conn := r.src })
    | (.error (.error e), r) => (.error (.error (.response e)), { c with conn := r.src })
    | (.ok response, r) =>
      if response.statusCode ≠ 200 then
        (.error (.error (.unexpectedStatus response.status)), { c with conn := r.src })
      else if 0 < r.buf.length then
        match (Buffer.newSize r.buf.length).readFullFrom r r.buf.length with
        | (.error .panic, r) => (.error .panic, { c with conn := r.src, responseCache := some [] })
        | (.error .loop, r) => (.error .loop, { c with conn := r.src, responseCache := some [] })
        | (.error (.error e), r) => (.error (.error (.reader e)), { c with conn := r.src, responseCache := some [] })
        | (.ok buffer, r) => (.ok (), { conn := r.src, responseRead := true, responseCache := some buffer.bytes })
      else (.ok (), { c with conn := r.src, responseRead := true })

/-- The second part of `Read`: from what is kept, and then from the connection. -/
def readRest (c : HTTPConn ε) (n : ℕ) : List Byte × Option (Halt (UpgradeError ε)) × HTTPConn ε :=
  let cache := c.responseCache.getD []
  if cache.take n = [] then
    match c.conn.read n with
    | (bytes, err, conn) =>
      (bytes, err.map fun e => .error (.reader e),
        { c with conn, responseCache := if cache = [] then none else c.responseCache })
  else (cache.take n, none, { c with responseCache := some (cache.drop n) })

def read : Reader (HTTPConn ε) (Halt (UpgradeError ε)) := fun c n =>
  match c.readFirst with
  | (.error h, c) => ([], some h, c)
  | (.ok _, c) => c.readRest n

def readerReplaceable (c : HTTPConn ε) : Bool := c.responseRead

/-! ### What a replaceable connection delivers -/

/-- What a connection delivers when the response has been read. -/
def left (c : HTTPConn ε) : List Byte := c.responseCache.getD [] ++ c.conn.unread

lemma readRest_left (c : HTTPConn ε) {n : ℕ} (hn : 0 < n) :
    (c.readRest n).2.2.responseRead = c.responseRead ∧ c.left = (c.readRest n).1 ++ (c.readRest n).2.2.left ∧
      (c.left ≠ [] → (c.readRest n).1 ≠ []) := by
  unfold readRest left
  generalize hcache : c.responseCache.getD [] = cache
  dsimp only
  split
  next htake =>
    obtain hnil : cache = [] := (take_eq_nil_iff.1 htake).resolve_left (by omega)
    have hread := Source.read_spec c.conn n
    subst hnil
    exact ⟨rfl, hread.unread, hread.some_bytes hn⟩
  next htake =>
    refine ⟨rfl, ?_, fun _ => htake⟩
    rw [← append_assoc, Option.getD_some, take_append_drop]

theorem delivers_left {c : HTTPConn ε} (h : c.readerReplaceable = true) : Delivers read c c.left := by
  refine delivers_of_left (fun c => c.readerReplaceable = true) _ (fun c n hc hn => ?_) h
  have hresponse : c.responseRead = true := hc
  rw [show c.read n = c.readRest n by simp [read, readFirst, hresponse]]
  obtain ⟨hread, hrest⟩ := readRest_left c hn
  exact ⟨hread.trans hc, hrest⟩

/-- **When a replaceable connection hides nothing**: nothing is kept. -/
theorem delivers_unread_iff {c : HTTPConn ε} (h : c.readerReplaceable = true) :
    Delivers read c c.conn.unread ↔ c.responseCache.getD [] = [] := by
  constructor
  · intro hd
    have hlen := congrArg length (hd.unique (delivers_left h))
    rw [left, length_append] at hlen
    exact length_eq_zero_iff.1 (by omega)
  · intro hc
    have heq : c.left = c.conn.unread := by rw [left, hc, nil_append]
    exact heq ▸ delivers_left h

end HTTPConn

/-! ### Readers declared replaceable -/

/-- **The readers that are declared replaceable and hide nothing.**  After any calls of `Read` on a connection that
arrives in any pieces, a reader that is declared replaceable delivers what is unread of the connection underneath
exactly if no padding is to be skipped before the end, or if nothing is kept of what came with the response. -/
theorem replaceable_iff (wrapError : Halt ε → Halt ε) (conn : Source ε) (buffers : List ℕ) :
    (∀ c, c = (readMany (naiveConnRead wrapError) { conn } buffers).2 → c.readerReplaceable = true →
      (Delivers (naiveConnRead wrapError) c c.conn.unread ↔
        c.paddingRemaining = 0 ∨ c.conn.unread.length ≤ c.readRemaining)) ∧
    (∀ c, c = (readMany (naiveH2ConnRead wrapError) { conn } buffers).2 → c.readerReplaceable = true →
      (Delivers (naiveH2ConnRead wrapError) c c.conn.unread ↔
        c.paddingRemaining = 0 ∨ c.conn.unread.length ≤ c.readRemaining)) ∧
    (∀ c, c = (readMany HTTPConn.read { conn } buffers).2 → c.readerReplaceable = true →
      (Delivers HTTPConn.read c c.conn.unread ↔ c.responseCache.getD [] = [])) := by
  refine ⟨fun c _ h => ?_, fun c _ h => ?_, fun c _ => HTTPConn.delivers_unread_iff⟩
  · exact (delivers_mapErr wrapError).trans (PaddingConn.delivers_unread_iff h)
  · exact (delivers_mapErr wrapError).trans (PaddingConn.delivers_unread_iff h)

/-- Eight frames with one byte of data each, the last with `padding` bytes of padding, and then a byte. -/
def sampleFrames (padding : List Byte) : Source Unit :=
  { pieces := [(0, (List.replicate 7 [1, 0, 0x41, 0]).flatten ++ [1, BitVec.ofNat 8 padding.length, 0x41] ++ padding),
      (0x42, [])]
    err := () }

/-- A response and then two bytes, in a read of their own or not. -/
def sampleAnswer (apart : Bool) : Source Unit :=
  let head := (ascii "HTTP/1.1 200 OK\r\n\r\n").tail
  { pieces := if apart then [(0x48, head), (0x58, [0x59])] else [(0x48, head ++ [0x58, 0x59])], err := () }

theorem replaceable_without_padding :
    Delivers (naiveConnRead id) { conn := ⟨[(0x42, [])], (), false⟩, readPadding := 8 } [0x42] ∧
      Delivers (naiveH2ConnRead id) { conn := ⟨[(0x42, [])], (), false⟩, readPadding := 8 } [0x42] ∧
      Delivers HTTPConn.read { conn := ⟨[(0x59, [])], (), false⟩, responseRead := true } [0x59] := by
  obtain ⟨hnaive, hh2, -⟩ := replaceable_iff id (sampleFrames []) (replicate 8 1)
  obtain ⟨-, -, hhttp⟩ := replaceable_iff id (sampleAnswer true) [1]
  exact ⟨(hnaive _ (by decide +kernel) rfl).2 (.inl rfl), (hh2 _ (by decide +kernel) rfl).2 (.inl rfl),
    (hhttp _ (by decide +kernel) rfl).2 rfl⟩

/-- Padding that is still to be skipped, and a byte that came with the response. -/
theorem replaceable_hides_bytes :
    (∃ c, c = (readMany (naiveConnRead id) { conn := sampleFrames [0] } (replicate 8 1)).2 ∧
      c.readerReplaceable = true ∧ ¬Delivers (naiveConnRead id) c c.conn.unread) ∧
    (∃ c, c = (readMany (naiveH2ConnRead id) { conn := sampleFrames [0] } (replicate 8 1)).2 ∧
      c.readerReplaceable = true ∧ ¬Delivers (naiveH2ConnRead id) c c.conn.unread) ∧
    ∃ c, c = (readMany HTTPConn.read { conn := sampleAnswer false } [1]).2 ∧
      c.readerReplaceable = true ∧ ¬Delivers HTTPConn.read c c.conn.unread := by
  have hpad : ¬Delivers PaddingConn.readWithPadding
      { conn := (⟨[(0, []), (0x42, [])], (), false⟩ : Source Unit), readPadding := 8, paddingRemaining := 1 } _ :=
    (PaddingConn.delivers_unread_iff rfl).not.2 (by decide)
  have hcache : ¬Delivers HTTPConn.read
      { conn := (⟨[], (), false⟩ : Source Unit), responseRead := true, responseCache := some [0x59] } _ :=
    (HTTPConn.delivers_unread_iff rfl).not.2 (by decide)
  exact ⟨⟨_, by decide +kernel, rfl, (delivers_mapErr id).not.2 hpad⟩,
    ⟨_, by decide +kernel, rfl, (delivers_mapErr id).not.2 hpad⟩, _, by decide +kernel, rfl, hcache⟩

end SingBox.Transport
