import SingBox.Lib.Bytes

/-!
# DNS messages on a stream

`WriteMessage` and `ReadMessage`: on a stream a message stands after its length in two bytes.  The DNS library and the
buffer pool are `Library`, as they are documented.

The length is that of the message as given, and what is packed is a compressed copy.  So the frame is right exactly if
compression saves nothing (`Library.SavesNothing`): otherwise the length of an uncompressed message is too large, and a
compressed message does not fit the buffer, from which then is sent what it held before.
-/

namespace SingBox.Dns.Framing

open SingBox.Lib List

/-! ### The library -/

/-- A DNS message; `content` are the other fields of its header and its sections. -/
structure Msg (γ : Type) where
  id : BitVec 16
  compress : Bool
  content : γ
  deriving DecidableEq

/-- The DNS library and the buffer pool. -/
structure Library (γ : Type) where
  /-- What is packed after the id. -/
  packBody : (compress : Bool) → γ → Option GoString
  unpack : GoString → Option (BitVec 16 × γ)
  /-- `Msg.Len`. -/
  len : (compress : Bool) → γ → ℕ
  /-- `Msg.PackBuffer` uses a buffer of this size. -/
  inPlace : (size : ℕ) → γ → Bool
  /-- What a buffer of this size holds when it is taken from the pool. -/
  held : (size : ℕ) → GoString
  unpack_pack : ∀ {compress content body} (id), packBody compress content = some body →
    unpack (putBeUint16 id ++ body) = some (id, content)
  header : ∀ {compress content body}, packBody compress content = some body → 10 ≤ body.length
  len_pack : ∀ {compress content body}, packBody compress content = some body → len compress content = 2 + body.length
  len_compressed_le : ∀ content, len true content ≤ len false content
  le_of_inPlace : ∀ {size content}, inPlace size content = true → len false content ≤ size
  inPlace_of_lt : ∀ {size content}, len false content < size → inPlace size content = true
  length_held : ∀ size, (held size).length = size

variable {γ : Type}

/-- `Msg.PackBuffer`: the packed message, and the buffer after it. -/
def Library.packBuffer (lib : Library γ) (message : Msg γ) (buf : GoString) : Option (GoString × GoString) := do
  let body ← lib.packBody message.compress message.content
  let msg := putBeUint16 message.id ++ body
  return (msg, if lib.inPlace buf.length message.content then msg ++ buf.drop msg.length else buf)

/-! ### Writing and reading -/

/-- `WriteMessage`: what is written, or nothing if the message cannot be packed. -/
def writeMessage (lib : Library γ) (messageId : BitVec 16) (message : Msg γ) : Option GoString := do
  let requestLen := lib.len message.compress message.content
  let buffer := lib.held (3 + requestLen)
  let exMessage := { message with id := messageId, compress := true }
  let (rawMessage, freeBytes) ← lib.packBuffer exMessage (buffer.drop 2)
  return (putBeUint16 (BitVec.ofNat 16 requestLen) ++ freeBytes).take (2 + rawMessage.length)

inductive ReadError where
  | eof
  | unexpectedEOF
  | shortRead
  | unpack
  deriving DecidableEq

/-- `ReadMessage` on a stream, with what it leaves. -/
def readMessage (lib : Library γ) : GoString → Except ReadError (Msg γ) × GoString
  | [] => (.error .eof, [])
  | [_] => (.error .unexpectedEOF, [])
  | hi :: lo :: rest =>
    let responseLen := (hi ++ lo).toNat
    if responseLen < 10 then (.error .shortRead, rest)
    else if rest = [] then (.error .eof, [])
    else if rest.length < responseLen then (.error .unexpectedEOF, [])
    else
      match lib.unpack (rest.take responseLen) with
      | none => (.error .unpack, rest.drop responseLen)
      | some (id, content) => (.ok { id, compress := false, content }, rest.drop responseLen)

/-- The bytes are one frame of the message with this id. -/
structure Framed (lib : Library γ) (id : BitVec 16) (message : Msg γ) (bytes : GoString) : Prop where
  length : ∃ v : BitVec 16, beUint16 bytes = .ok v ∧ bytes.length = 2 + v.toNat
  read : readMessage lib bytes = (.ok { message with id, compress := false }, [])

/-- Compression saves nothing: a compressed message fits the buffer of its length and a byte, and an uncompressed one
has the length of the compressed one in its last 16 bits. -/
def Library.SavesNothing (lib : Library γ) (message : Msg γ) : Prop :=
  if message.compress then lib.inPlace (lib.len true message.content + 1) message.content = true
  else lib.len false message.content % 2 ^ 16 = lib.len true message.content

instance (lib : Library γ) (message : Msg γ) : Decidable (lib.SavesNothing message) := by
  unfold Library.SavesNothing
  infer_instance

/-! ### The frame -/

section

variable {lib : Library γ} {message : Msg γ} {body : GoString}

/-- What stands after the length: the packed message, or what the buffer held. -/
def payload (lib : Library γ) (id : BitVec 16) (message : Msg γ) (body : GoString) : GoString :=
  if lib.inPlace (lib.len message.compress message.content + 1) message.content then putBeUint16 id ++ body
  else ((lib.held (3 + lib.len message.compress message.content)).drop 2).take (2 + body.length)

lemma len_compressed_le_len (lib : Library γ) (message : Msg γ) :
    lib.len true message.content ≤ lib.len message.compress message.content := by
  cases message.compress with
  | true => exact le_rfl
  | false => exact lib.len_compressed_le message.content

lemma length_payload (hpack : lib.packBody true message.content = some body) (id : BitVec 16) :
    (payload lib id message body).length = 2 + body.length := by
  have hlen := lib.len_pack hpack
  have hle := len_compressed_le_len lib message
  unfold payload
  split
  · rw [length_append, length_putBeUint16]
  · rw [length_take, length_drop, lib.length_held]
    omega

lemma writeMessage_eq (hpack : lib.packBody true message.content = some body) (id : BitVec 16) :
    writeMessage lib id message = some
      (putBeUint16 (BitVec.ofNat 16 (lib.len message.compress message.content)) ++ payload lib id message body) := by
  have hsize : ((lib.held (3 + lib.len message.compress message.content)).drop 2).length =
      lib.len message.compress message.content + 1 := by
    rw [length_drop, lib.length_held]
    omega
  have hraw : (putBeUint16 id ++ body).length = 2 + body.length := by rw [length_append, length_putBeUint16]
  simp only [writeMessage, Library.packBuffer, hpack, Option.bind_eq_bind, Option.bind_some, Option.pure_def, hsize,
    hraw, payload]
  rw [take_append, take_of_length_le (by rw [length_putBeUint16]; omega), length_putBeUint16, Nat.add_sub_cancel_left]
  split
  · rw [take_left' hraw]
  · rfl

lemma readMessage_frame {id v : BitVec 16} {content : γ} {bytes : GoString}
    (hunpack : lib.unpack bytes = some (id, content)) (hlen : bytes.length = v.toNat) (hten : 10 ≤ bytes.length)
    (rest : GoString) :
    readMessage lib (putBeUint16 v ++ bytes ++ rest) = (.ok { id, compress := false, content }, rest) := by
  have hne : bytes ++ rest ≠ [] := fun h => by simp [(append_eq_nil_iff.1 h).1] at hten
  have hlong : ¬(bytes ++ rest).length < v.toNat := by
    rw [length_append]
    omega
  rw [append_assoc, putBeUint16, cons_append, cons_append, nil_append]
  simp only [readMessage, beBytes_append]
  rw [if_neg (by omega), if_neg hne, if_neg hlong, take_left' hlen, drop_left' hlen, hunpack]

/-- The message is written in the buffer, and its length stands before it, if compression saves nothing. -/
lemma Library.SavesNothing.payload_eq (h : lib.SavesNothing message)
    (hpack : lib.packBody true message.content = some body) (hlen : 2 + body.length ≤ 65535) (id : BitVec 16) :
    payload lib id message body = putBeUint16 id ++ body ∧
      lib.len message.compress message.content % 2 ^ 16 = 2 + body.length := by
  have hpacked := lib.len_pack hpack
  unfold Library.SavesNothing at h
  unfold payload
  cases hcompress : message.compress with
  | true =>
    rw [if_pos hcompress] at h
    exact ⟨if_pos h, by rw [hpacked]; omega⟩
  | false =>
    rw [hcompress] at h
    exact ⟨if_pos (lib.inPlace_of_lt (by omega)), by rw [h, hpacked]⟩

lemma readMessage_writeMessage (h : lib.SavesNothing message)
    (hpack : lib.packBody true message.content = some body) (hlen : 2 + body.length ≤ 65535) (id : BitVec 16)
    (rest : GoString) :
    ∃ v : BitVec 16, ∃ bytes, writeMessage lib id message = some (putBeUint16 v ++ bytes) ∧ bytes.length = v.toNat ∧
      readMessage lib (putBeUint16 v ++ bytes ++ rest) = (.ok { message with id, compress := false }, rest) := by
  obtain ⟨hpayload, hmod⟩ := h.payload_eq hpack hlen id
  have hv : (putBeUint16 id ++ body).length = (BitVec.ofNat 16 (lib.len message.compress message.content)).toNat := by
    rw [length_append, length_putBeUint16, BitVec.toNat_ofNat, hmod]
  have hten := lib.header hpack
  refine ⟨BitVec.ofNat 16 (lib.len message.compress message.content), putBeUint16 id ++ body, ?_, hv, ?_⟩
  · rw [writeMessage_eq hpack, hpayload]
  · refine readMessage_frame (lib.unpack_pack id hpack) hv ?_ rest
    rw [length_append]
    omega

/-- **A message that packs to at most 65535 bytes is framed right under every id exactly if compression saves nothing of
it.** -/
theorem writeMessage_framed_iff (lib : Library γ) (message : Msg γ) {body : GoString}
    (hpack : lib.packBody true message.content = some body) (hlen : 2 + body.length ≤ 65535) :
    (∀ id, ∃ bytes, writeMessage lib id message = some bytes ∧ Framed lib id message bytes) ↔
      lib.SavesNothing message := by
  constructor
  · intro hframed
    have hbytes : ∀ id, Framed lib id message
        (putBeUint16 (BitVec.ofNat 16 (lib.len message.compress message.content)) ++ payload lib id message body) := by
      intro id
      obtain ⟨bytes, hwrite, h⟩ := hframed id
      rw [writeMessage_eq hpack] at hwrite
      cases hwrite
      exact h
    -- the length that is written is that of what follows
    have hmod : lib.len message.compress message.content % 2 ^ 16 = 2 + body.length := by
      obtain ⟨v, hv, hl⟩ := (hbytes 0).length
      rw [beUint16_put] at hv
      cases hv
      rw [length_append, length_payload hpack, length_putBeUint16, BitVec.toNat_ofNat] at hl
      omega
    unfold Library.SavesNothing
    split
    next hcompress =>
      -- what the buffer held before does not depend on the id
      by_contra hout
      have h0 := (hbytes 0).read
      have h1 := (hbytes 1).read
      simp only [payload, hcompress, if_neg hout] at h0 h1
      rw [h0] at h1
      simp at h1
    next hcompress =>
      rw [← lib.len_pack hpack] at hmod
      rwa [Bool.eq_false_iff.2 hcompress] at hmod
  · intro h id
    obtain ⟨v, bytes, hwrite, hv, hread⟩ := readMessage_writeMessage h hpack hlen id []
    refine ⟨_, hwrite, ⟨v, beUint16_put v bytes, ?_⟩, ?_⟩
    · rw [length_append, length_putBeUint16, hv]
    · rwa [append_nil] at hread

end

/-! ### A stream of messages -/

/-- The messages written one after the other, each with its id. -/
def writeMessages (lib : Library γ) : List (BitVec 16 × Msg γ) → Option GoString
  | [] => some []
  | (id, message) :: messages => do
    let bytes ← writeMessage lib id message
    let rest ← writeMessages lib messages
    return bytes ++ rest

/-- The next `n` messages of a stream, as the receiving loop reads them: it stops at an error. -/
def readMessages (lib : Library γ) : ℕ → GoString → Option (List (Msg γ) × GoString)
  | 0, stream => some ([], stream)
  | n + 1, stream => do
    let message ← (readMessage lib stream).1.toOption
    let (messages, rest) ← readMessages lib n (readMessage lib stream).2
    return (message :: messages, rest)

/-- **A stream of messages of which compression saves nothing is read back as it was written.** -/
theorem readMessages_writeMessages (lib : Library γ) (messages : List (BitVec 16 × Msg γ))
    (h : ∀ p ∈ messages, lib.SavesNothing p.2 ∧
      ∃ body, lib.packBody true p.2.content = some body ∧ 2 + body.length ≤ 65535) (rest : GoString) :
    ∃ bytes, writeMessages lib messages = some bytes ∧ readMessages lib messages.length (bytes ++ rest) =
      some (messages.map fun p => { p.2 with id := p.1, compress := false }, rest) := by
  induction messages with
  | nil => exact ⟨[], rfl, rfl⟩
  | cons p messages ih =>
    obtain ⟨id, message⟩ := p
    obtain ⟨hsaves, body, hpack, hlen⟩ := h (id, message) mem_cons_self
    obtain ⟨later, hwrites, hreads⟩ := ih fun p hp => h p (mem_cons_of_mem _ hp)
    obtain ⟨v, bytes, hwrite, -, hread⟩ := readMessage_writeMessage hsaves hpack hlen id (later ++ rest)
    refine ⟨putBeUint16 v ++ bytes ++ later, ?_, ?_⟩
    · simp only [writeMessages, hwrite, hwrites, Option.bind_eq_bind, Option.bind_some, Option.pure_def]
    · rw [append_assoc, length_cons, map_cons, readMessages, hread]
      simp only [Except.toOption, Option.bind_eq_bind, Option.bind_some, hreads, Option.pure_def]

/-! ### Questions for one name -/

/-- The questions for the address of `a.`: every one after the first is compressed to a pointer to its name. -/
def questions (compress : Bool) : ℕ → GoString
  | 0 => []
  | n + 1 => [1, 0x61, 0, 0, 1, 0, 1] ++
      (List.replicate n (if compress then [0xc0, 0x0c, 0, 1, 0, 1] else [1, 0x61, 0, 0, 1, 0, 1])).flatten

variable (compress : Bool)

lemma length_questions (n : ℕ) :
    (questions compress n).length = (if compress then 6 else 7) * (n - 1) + 7 * min n 1 := by
  cases n with
  | zero => rfl
  | succ n => cases compress <;> simp [questions] <;> omega

/-- A query with this number of questions for `a.`, after its id. -/
def queryBody (compress : Bool) (n : BitVec 16) : GoString :=
  [1, 0] ++ putBeUint16 n ++ [0, 0, 0, 0, 0, 0] ++ questions compress n.toNat

lemma length_queryBody (n : BitVec 16) : (queryBody compress n).length = 10 + (questions compress n.toNat).length := by
  simp [queryBody]
  omega

/-- The id and the number of questions, if what follows are the questions. -/
def unpackQuery (msg : GoString) : Option (BitVec 16 × BitVec 16) := do
  let id ← (beUint16 msg).toOption
  let n ← (beUint16 (msg.drop 4)).toOption
  if msg.drop 2 = queryBody true n ∨ msg.drop 2 = queryBody false n then some (id, n) else none

lemma unpackQuery_queryBody (id n : BitVec 16) :
    unpackQuery (putBeUint16 id ++ queryBody compress n) = some (id, n) := by
  have hdrop : (putBeUint16 id ++ queryBody compress n).drop 2 = queryBody compress n :=
    drop_left' (length_putBeUint16 id)
  have hn : beUint16 ((putBeUint16 id ++ queryBody compress n).drop 4) = .ok n := by
    exact beUint16_put n _
  have hbody : queryBody compress n = queryBody true n ∨ queryBody compress n = queryBody false n := by
    cases compress with
    | true => exact .inl rfl
    | false => exact .inr rfl
  rw [unpackQuery, hn, beUint16_put]
  exact if_pos hbody

/-- A library for these queries, and buffers that were used before. -/
def queryLibrary : Library (BitVec 16) where
  packBody compress n := some (queryBody compress n)
  unpack := unpackQuery
  len compress n := 12 + (questions compress n.toNat).length
  inPlace size n := decide (12 + (questions false n.toNat).length + 1 ≤ size)
  held size := List.replicate size 0xee
  unpack_pack id h := by
    cases h
    exact unpackQuery_queryBody _ id _
  header h := by
    cases h
    rw [length_queryBody]
    omega
  len_pack h := by
    cases h
    rw [length_queryBody]
    omega
  len_compressed_le n := by
    rw [length_questions, length_questions]
    simp only [if_true, Bool.false_eq_true, if_false]
    omega
  le_of_inPlace h := by
    have := of_decide_eq_true h
    omega
  inPlace_of_lt h := decide_eq_true (by omega)
  length_held size := List.length_replicate

theorem one_question_framed : queryLibrary.SavesNothing ⟨0, false, 1⟩ ∧
      ∀ id, ∃ bytes, writeMessage queryLibrary id ⟨0, false, 1⟩ = some bytes ∧
        Framed queryLibrary id ⟨0, false, 1⟩ bytes :=
  ⟨by decide, (writeMessage_framed_iff queryLibrary ⟨0, false, 1⟩ rfl (by decide)).2 rfl⟩

theorem readMessages_two : ∃ bytes, writeMessages queryLibrary [(1, ⟨0, false, 1⟩), (2, ⟨0, true, 1⟩)] = some bytes ∧
    readMessages queryLibrary 2 (bytes ++ []) = some ([⟨1, false, 1⟩, ⟨2, false, 1⟩], []) :=
  readMessages_writeMessages queryLibrary [(1, ⟨0, false, 1⟩), (2, ⟨0, true, 1⟩)]
    (by rintro p (_ | ⟨_, _ | ⟨_, ⟨⟩⟩⟩) <;> exact ⟨by decide, _, rfl, by decide⟩) []

/-- Of two questions for one name compression saves a byte.  Uncompressed, the length that is written is 26, and 25
bytes follow; compressed, the message is packed elsewhere, and what the buffer held is sent. -/
theorem two_questions_misframed :
    (∃ bytes, writeMessage queryLibrary 7 ⟨0, false, 2⟩ = some (putBeUint16 26 ++ bytes) ∧ bytes.length = 25 ∧
        readMessage queryLibrary (putBeUint16 26 ++ bytes) = (.error .unexpectedEOF, [])) ∧
      writeMessage queryLibrary 7 ⟨0, true, 2⟩ = some (putBeUint16 25 ++ replicate 25 0xee) ∧
      readMessage queryLibrary (putBeUint16 25 ++ replicate 25 0xee) = (.error .unpack, []) :=
  ⟨⟨putBeUint16 7 ++ queryBody true 2, by decide, by decide, by decide⟩, by decide, by decide⟩

end SingBox.Dns.Framing
