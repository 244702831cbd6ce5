import SingBox.Lib.HttpResponse

/-!
# Upgraded connections

The clients of the WebSocket and of the HTTP upgrade transport read the response of a handshake with a buffered reader.
What that reader has read beyond the response has to be carried over: `cacheBuffered` takes a buffer of that size and
fills it with as many bytes as there are in it, which is none.  So the bytes read ahead are lost.
-/

namespace SingBox.Transport

open SingBox.Lib List

variable {ε : Type}

/-! ### Buffers and cached connections of the sing library -/

/-- `buf.Buffer`. -/
structure Buffer where
  capacity : ℕ
  bytes : List Byte := []

namespace Buffer

def newSize (n : ℕ) : Buffer := { capacity := n }

def len (b : Buffer) : ℕ := b.bytes.length

def readFullFrom (b : Buffer) (reader : Bufio ε) (k : ℕ) : Exec ε Buffer × Bufio ε :=
  match readFull Bufio.read reader k with
  | (.ok bytes, r) => (.ok { b with bytes := b.bytes ++ bytes }, r)
  | (.error h, r) => (.error h, r)

end Buffer

/-- `bufio.CachedConn`, or with nothing in its buffer the connection alone. -/
structure CachedConn (ε : Type) where
  buffer : List Byte
  conn : Source ε
  deriving DecidableEq

namespace CachedConn

def read : Reader (CachedConn ε) ε := fun c n =>
  if c.buffer = [] then
    match c.conn.read n with
    | (bytes, err, conn) => (bytes, err, { c with conn })
  else (c.buffer.take n, none, { c with buffer := c.buffer.drop n })

lemma delivers (c : CachedConn ε) : Delivers read c (c.buffer ++ c.conn.unread) := by
  refine delivers_of_left (fun _ => True) (fun c : CachedConn ε => c.buffer ++ c.conn.unread)
    (fun c n _ hn => ?_) trivial
  by_cases h : c.buffer = []
  · have hread := Source.read_spec c.conn n
    simp only [read]
    simp only [h]
    exact ⟨trivial, hread.unread, hread.some_bytes hn⟩
  · simp only [read, if_neg h]
    refine ⟨trivial, by rw [← append_assoc, take_append_drop], fun _ htake => ?_⟩
    rcases take_eq_nil_iff.1 htake with h0 | h0
    · omega
    · exact h h0

end CachedConn

/-! ### The clients -/

inductive UpgradeError (ε : Type) where
  | response (e : ResponseError ε)
  | unexpectedStatus (status : GoString)
  | reader (e : ε)
  deriving DecidableEq

/-- What both clients do with the reader of the response, if it has read ahead. -/
def cacheBuffered (reader : Bufio ε) : Exec (UpgradeError ε) (CachedConn ε) :=
  let buffer := Buffer.newSize reader.buf.length
  match buffer.readFullFrom reader buffer.len with
  | (.ok buffer, r) => .ok { buffer := buffer.bytes, conn := r.src }
  | (.error .panic, _) => .error .panic
  | (.error .loop, _) => .error .loop
  | (.error (.error e), _) => .error (.error (.reader e))

/-- The response with which the server agrees to the upgrade. -/
def isUpgrade (response : Response) : Bool :=
  response.statusCode = 101 && equalFold (response.header.get (ascii "Connection")) (ascii "upgrade") &&
    equalFold (response.header.get (ascii "Upgrade")) (ascii "websocket")

/-- `Client.DialContext` of the HTTP upgrade transport, after it has written the request. -/
def dialContext (conn : Source ε) : Exec (UpgradeError ε) (CachedConn ε) :=
  match readResponse (Bufio.newReader conn) with
  | (.error .panic, _) => .error .panic
  | (.error .loop, _) => .error .loop
  | (.error (.error e), _) => .error (.error (.response e))
  | (.ok response, r) =>
    if !isUpgrade response then .error (.error (.unexpectedStatus response.status))
    else if 0 < r.buf.length then cacheBuffered r
    else .ok { buffer := [], conn := r.src }

/-- `ws.Dialer`: if the server answers with a response that it accepts, its upgrade returns, with a reader if that has
read ahead and else without. -/
structure WsDialer (ε : Type) where
  accepts : List Byte → Prop
  upgrade : Source ε → Except ε (Option (Bufio ε) × Source ε)
  upgrade_ok : ∀ {conn : Source ε} {response d : List Byte}, accepts response → conn.unread = response ++ d →
    (∃ rest, upgrade conn = .ok (none, rest) ∧ rest.unread = d) ∨
      ∃ reader, upgrade conn = .ok (some reader, reader.src) ∧ reader.buf ≠ [] ∧ reader.unread = d

/-- `Client.upgrade` of the WebSocket transport: the connection that the frames are read from. -/
def upgrade (dialer : WsDialer ε) (conn : Source ε) : Exec (UpgradeError ε) (CachedConn ε) :=
  match dialer.upgrade conn with
  | .error e => .error (.error (.reader e))
  | .ok (none, rest) => .ok { buffer := [], conn := rest }
  | .ok (some reader, _) => cacheBuffered reader

/-! ### What the connections deliver -/

/-- What has been read ahead is not carried over. -/
lemma cacheBuffered_eq (reader : Bufio ε) : cacheBuffered reader = .ok { buffer := [], conn := reader.src } := rfl

lemma delivers_iff_buf_eq_nil (reader : Bufio ε) :
    Delivers CachedConn.read { buffer := [], conn := reader.src } reader.unread ↔ reader.buf = [] := by
  have hsrc : Delivers CachedConn.read { buffer := [], conn := reader.src } reader.src.unread :=
    CachedConn.delivers { buffer := [], conn := reader.src }
  constructor
  · intro h
    have := congrArg length (h.unique hsrc)
    rw [Bufio.unread, length_append] at this
    exact length_eq_zero_iff.1 (by omega)
  · intro h
    rwa [Bufio.unread, h]

/-- The response of a server that agrees to the upgrade. -/
def accepts (response : List Byte) : Bool :=
  match headLines response with
  | some (lines, []) => (parseResponse lines).any isUpgrade
  | _ => false

lemma accepts_eq_true {response : List Byte} (h : accepts response = true) :
    ∃ lines r, headLines response = some (lines, []) ∧ parseResponse lines = some r ∧ isUpgrade r = true := by
  unfold accepts at h
  split at h
  next lines hlines =>
    rcases hr : parseResponse lines with _ | r
    · rw [hr] at h
      cases h
    · rw [hr] at h
      exact ⟨lines, r, hlines, hr, h⟩
  · cases h

/-- What has been read of the connection beyond the response. -/
def readAhead (conn : Source ε) : List Byte := (readResponse (Bufio.newReader conn)).2.buf

variable {conn : Source ε}

lemma dialContext_eq {r : Bufio ε} {response : Response}
    (h : readResponse (Bufio.newReader conn) = (.ok response, r)) (hup : isUpgrade response = true) :
    dialContext conn = .ok { buffer := [], conn := r.src } := by
  unfold dialContext
  rw [h]
  dsimp only
  rw [hup]
  split
  · contradiction
  · split
    · exact cacheBuffered_eq r
    · rfl

theorem dialContext_spec {response d : List Byte} (hacc : accepts response = true)
    (hconn : conn.unread = response ++ d) :
    ∃ c, dialContext conn = .ok c ∧ (Delivers CachedConn.read c d ↔ readAhead conn = []) ∧
      (response.length < 4096 → (readAhead conn = [] ↔ conn.EndsAt response.length)) := by
  obtain ⟨lines, r, hlines, hr, hup⟩ := accepts_eq_true hacc
  have hhead : headLines conn.unread = some (lines, d) := by rw [hconn]; exact headLines_append hlines d
  have hlen : conn.unread.length = response.length + d.length := by rw [hconn, length_append]
  have hstart : ∀ {P : Source ε → Prop}, P conn → Left P 4096 (Bufio.newReader conn) conn.unread := fun hP =>
    ⟨Bufio.settled_newReader conn, rfl, rfl, hP⟩
  obtain ⟨b, hb, hleft⟩ := readResponse_spec (P := fun _ => True) (fun _ _ _ _ _ _ => trivial) (hstart trivial) hhead hr
  refine ⟨_, dialContext_eq hb hup, ?_, fun hfits => ?_⟩
  · rw [← hleft.unread_eq, delivers_iff_buf_eq_nil, readAhead, hb]
  · obtain ⟨b', hb', hleft'⟩ := readResponse_spec (arriving_kept (by omega))
      (hstart (.inl ⟨length_of_headLines hhead, [], rfl⟩)) hhead hr
    rw [readAhead, hb', buf_eq_nil_iff hleft', hlen, Nat.add_sub_cancel]

theorem upgrade_spec (dialer : WsDialer ε) {response d : List Byte} (hacc : dialer.accepts response)
    (hconn : conn.unread = response ++ d) : ∃ c, upgrade dialer conn = .ok c ∧
      (Delivers CachedConn.read c d ↔ ∃ rest, dialer.upgrade conn = .ok (none, rest)) := by
  unfold upgrade
  rcases dialer.upgrade_ok hacc hconn with ⟨rest, hup, hrest⟩ | ⟨reader, hup, hbuf, hrest⟩
  · rw [hup]
    refine ⟨_, rfl, fun _ => ⟨rest, rfl⟩, fun _ => ?_⟩
    have h := CachedConn.delivers { buffer := [], conn := rest }
    rwa [hrest] at h
  · rw [hup]
    refine ⟨_, cacheBuffered_eq reader, ?_⟩
    rw [← hrest, delivers_iff_buf_eq_nil]
    exact ⟨fun h => absurd h hbuf, fun ⟨rest, h⟩ => by cases h⟩

/-- **The upgraded connections deliver what follows the response exactly if none of it has been read ahead.**  For a
response that fits into the buffer of the reader, that is if it comes in reads of its own. -/
theorem upgrade_delivers_iff (dialer : WsDialer ε) (conn : Source ε) (response d : List Byte)
    (hconn : conn.unread = response ++ d) : (dialer.accepts response → ∃ c, upgrade dialer conn = .ok c ∧
      (Delivers CachedConn.read c d ↔ ∃ rest, dialer.upgrade conn = .ok (none, rest))) ∧
    (accepts response = true → ∃ c, dialContext conn = .ok c ∧ (Delivers CachedConn.read c d ↔ readAhead conn = []) ∧
      (response.length < 4096 → (readAhead conn = [] ↔ conn.EndsAt response.length))) :=
  ⟨fun h => upgrade_spec dialer h hconn, fun h => dialContext_spec h hconn⟩

/-- A dialer that reads the response as `http.ReadResponse` does. -/
def plainDialer : WsDialer ε where
  accepts response := accepts response = true
  upgrade conn :=
    match readResponse (Bufio.newReader conn) with
    | (.ok _, r) => .ok (if r.buf = [] then none else some r, r.src)
    | (.error _, _) => .error conn.err
  upgrade_ok := by
    intro conn response d hacc hconn
    obtain ⟨lines, r, hlines, hr, -⟩ := accepts_eq_true hacc
    have hnew : Left (fun _ => True) 4096 (Bufio.newReader conn) conn.unread :=
      ⟨Bufio.settled_newReader conn, rfl, rfl, trivial⟩
    obtain ⟨b, hb, hleft⟩ := readResponse_spec (fun _ _ _ _ _ _ => trivial) hnew (hconn ▸ headLines_append hlines d) hr
    rw [hb]
    by_cases h : b.buf = []
    · exact .inl ⟨b.src, by simp [h], by rw [← List.nil_append b.src.unread, ← h]; exact hleft.unread_eq⟩
    · exact .inr ⟨b, by simp [h], h, hleft.unread_eq⟩

/-- A response of a server that agrees. -/
def sampleResponse : List Byte :=
  ascii "HTTP/1.1 101 OK\r\nConnection: Upgrade\r\nUpgrade: websocket\r\n\r\n"

/-- The response in a read of its own, and then a byte. -/
def sampleApart : Source Unit := { pieces := [(0x48, sampleResponse.tail), (0x58, [])], err := () }

/-- The response and a byte in one read. -/
def sampleTogether : Source Unit := { pieces := [(0x48, sampleResponse.tail ++ [0x58])], err := () }

theorem upgrade_delivers_apart : (∃ c, upgrade plainDialer sampleApart = .ok c ∧ Delivers CachedConn.read c [0x58]) ∧
      ∃ c, dialContext sampleApart = .ok c ∧ Delivers CachedConn.read c [0x58] := by
  obtain ⟨hws, hhttp⟩ := upgrade_delivers_iff plainDialer sampleApart sampleResponse [0x58] (by decide +kernel)
  have hacc : accepts sampleResponse = true := by decide +kernel
  obtain ⟨c, hc, hiff⟩ := hws hacc
  obtain ⟨c', hc', hiff', -⟩ := hhttp hacc
  exact ⟨⟨c, hc, hiff.2 ⟨⟨[(0x58, [])], (), false⟩, by decide +kernel⟩⟩, c', hc', hiff'.2 (by decide +kernel)⟩

/-- A byte that arrives with the response is lost. -/
theorem upgrade_loses_byte : sampleTogether.unread = sampleResponse ++ [0x58] ∧ accepts sampleResponse = true ∧
      (∃ c, upgrade plainDialer sampleTogether = .ok c ∧ ¬Delivers CachedConn.read c [0x58]) ∧
      ∃ c, dialContext sampleTogether = .ok c ∧ ¬Delivers CachedConn.read c [0x58] := by
  have hno : ¬Delivers CachedConn.read { buffer := [], conn := ⟨[], (), false⟩ } [0x58] := fun h =>
    absurd (h.unique (CachedConn.delivers _)) (by decide)
  exact ⟨by decide +kernel, by decide +kernel, ⟨_, by decide +kernel, hno⟩, _, by decide +kernel, hno⟩

end SingBox.Transport
