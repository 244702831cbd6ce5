import SingBox.Lib.Bufio
import SingBox.Lib.NetHttp

/-!
# Responses read from a buffered reader

`http.ReadResponse`: the lines of the head, up to the empty one, and what they say.  An ill-formed head is found out
when all of it has been read.

The response is taken off the front of the stream, whatever the pieces are in which it arrives (`readResponse_spec`).
What has been read of the stream by then may go beyond it; nothing more has if one of the pieces ends where the head
does, provided that the head fits into the buffer (`buf_eq_nil_iff`).
-/

namespace SingBox.Lib

open List Option

/-! ### Lines -/

/-- A line without the carriage return at its end. -/
def dropCR (line : GoString) : GoString := if line.getLast? = some 0x0d then line.dropLast else line

namespace Bufio

variable {ε : Type}

/-- `textproto.Reader.ReadLine` with some fuel; `acc` is the line so far. -/
def readLineLoop : ℕ → Bufio ε → GoString → Exec ε GoString × Bufio ε
  | 0, b, _ => (.error .loop, b)
  | fuel + 1, b, acc =>
    match cut 0x0a b.buf with
    | some (line, rest) => (.ok (dropCR (acc ++ line)), { b with buf := rest })
    | none =>
      match b.err with
      | some e =>
        if b.buf = [] then (.error (.error e), { b with err := none })
        else (.ok (acc ++ b.buf), { b with buf := [], err := none })
      | none =>
        if b.size ≤ b.buf.length then
          -- the buffer is full: its bytes are put aside, but for a carriage return at the end
          if b.buf.getLast? = some 0x0d then readLineLoop fuel { b with buf := [0x0d] } (acc ++ b.buf.dropLast)
          else readLineLoop fuel { b with buf := [] } (acc ++ b.buf)
        else readLineLoop fuel b.fill acc

/-- `textproto.Reader.ReadLine`. -/
def readLine (b : Bufio ε) : Exec ε GoString × Bufio ε := readLineLoop (2 * b.src.unread.length + 4) b []

/-- The lines up to the first empty one, with some fuel. -/
def readLinesLoop : ℕ → Bufio ε → Exec ε (List GoString) × Bufio ε
  | 0, b => (.error .loop, b)
  | fuel + 1, b =>
    match b.readLine with
    | (.error h, b') => (.error h, b')
    | (.ok line, b') =>
      if line = [] then (.ok [], b')
      else
        match readLinesLoop fuel b' with
        | (.error h, b'') => (.error h, b'')
        | (.ok lines, b'') => (.ok (line :: lines), b'')

/-- The lines of a head: the first one, and those up to the empty one. -/
def readHead (b : Bufio ε) : Exec ε (List GoString) × Bufio ε :=
  match b.readLine with
  | (.error h, b') => (.error h, b')
  | (.ok line, b') =>
    match readLinesLoop (b'.unread.length + 1) b' with
    | (.error h, b'') => (.error h, b'')
    | (.ok lines, b'') => (.ok (line :: lines), b'')

end Bufio

/-- The lines up to the first empty one and the bytes after it, for bytes that are all there. -/
def headLinesLoop : ℕ → List Byte → Option (List GoString × List Byte)
  | 0, _ => none
  | fuel + 1, s =>
    match cut 0x0a s with
    | none => none
    | some (line, rest) =>
      if dropCR line = [] then some ([], rest)
      else (headLinesLoop fuel rest).map fun p => (dropCR line :: p.1, p.2)

/-- **The head of a response and the bytes after it.** -/
def headLines (s : List Byte) : Option (List GoString × List Byte) :=
  match cut 0x0a s with
  | none => none
  | some (line, rest) => (headLinesLoop (rest.length + 1) rest).map fun p => (dropCR line :: p.1, p.2)

/-! ### What the head says -/

/-- `strings.EqualFold(s, t)`, for a `t` of small ASCII letters: those, capitals, the Kelvin sign and the long s. -/
def foldLoop : ℕ → GoString → GoString
  | 0, s => s
  | _ + 1, [] => []
  | n + 1, 0xe2 :: 0x84 :: 0xaa :: s => 0x6b :: foldLoop n s
  | n + 1, 0xc5 :: 0xbf :: s => 0x73 :: foldLoop n s
  | n + 1, b :: s => (if 0x41 ≤ b ∧ b ≤ 0x5a then b + 0x20 else b) :: foldLoop n s

def equalFold (s t : GoString) : Bool := foldLoop s.length s = t

/-- `textproto.trim`: without the spaces and tabs around it. -/
def trimBlank (s : GoString) : GoString :=
  let isBlank (b : Byte) : Bool := b = 0x20 || b = 0x09
  ((s.dropWhile isBlank).reverse.dropWhile isBlank).reverse

/-- A line of a header that goes on with the one before it. -/
def isContinued (line : GoString) : Bool := line.head? = some 0x20 || line.head? = some 0x09

/-- The lines of a header with those that go on joined to the ones before them, from the last to the first. -/
def joinContinued (lines : List GoString) : List GoString :=
  lines.foldl (fun joined line =>
    match joined with
    | [] => [trimBlank line]
    | last :: rest =>
      if isContinued line then (last ++ 0x20 :: trimBlank line) :: rest else trimBlank line :: joined) []

/-- `validHeaderValueByte`: no control characters but the tab. -/
def validHeaderValueByte (b : Byte) : Bool := b = 0x09 || 0x20 ≤ b && b ≠ 0x7f

def parseHeaderLine (line : GoString) : Option (GoString × GoString) :=
  match cut 0x3a line with
  | none => none
  | some (key, value) =>
    if key ≠ [] && key.all isTokenByte && value.all validHeaderValueByte then
      some (canonicalHeaderKey key, value.dropWhile fun b => b = 0x20 || b = 0x09)
    else none

/-- `textproto.Reader.ReadMIMEHeader`, of the lines of a header. -/
def parseHeader (lines : List GoString) : Option Header :=
  if (lines.head?.map isContinued).getD false then none
  else ((joinContinued lines).reverse.mapM parseHeaderLine).map fun fields =>
    fun key => (fields.filter (·.1 = key)).map Prod.snd

/-- `http.ParseHTTPVersion`. -/
def parseHTTPVersion (s : GoString) : Option (ℕ × ℕ) :=
  match s with
  | [0x48, 0x54, 0x54, 0x50, 0x2f, major, 0x2e, minor] =>
    match digit? major, digit? minor with
    | some major, some minor => some (major, minor)
    | _, _ => none
  | _ => none

/-- `http.Response`, as far as it is the head. -/
structure Response where
  status : GoString
  statusCode : ℤ
  header : Header

/-- What `readTransfer` accepts of the header of a response with a status: one encoding, which is `chunked`, and one
length; a length is only looked at where there is a body. -/
def validTransfer (protocol : ℕ × ℕ) (statusCode : ℤ) (header : Header) : Bool :=
  let encodings := header (ascii "Transfer-Encoding")
  let chunked := encodings ≠ [] && protocol ≠ (1, 0)
  let lengths := if chunked then [] else (header (ascii "Content-Length")).map trimSpace
  let noBody := statusCode / 100 = 1 || statusCode = 204 || statusCode = 304
  (!chunked || encodings.length = 1 && equalFold (encodings.headD []) (ascii "chunked")) &&
    (lengths.all fun l => l = lengths.headD []) &&
    (noBody || lengths.head?.all fun l => (parseUint 63 l).isOk)

/-- The response that the lines of a head give. -/
def parseResponse : List GoString → Option Response
  | [] => none
  | line :: lines =>
    match cut 0x20 line with
    | none => none
    | some (protocol, status) =>
      let status := status.dropWhile (· = 0x20)
      let code := ((cut 0x20 status).map Prod.fst).getD status
      match parseHTTPVersion protocol, atoi code, parseHeader lines with
      | some version, .ok statusCode, some header =>
        if code.length = 3 ∧ 0 ≤ statusCode ∧ validTransfer version statusCode header then
          some { status, statusCode, header }
        else none
      | _, _, _ => none

/-- Why there is no response: the reader fails, or the response is malformed. -/
inductive ResponseError (ε : Type) where
  | reader (e : ε)
  | malformed
  deriving DecidableEq

/-- `http.ReadResponse`. -/
def readResponse {ε : Type} (b : Bufio ε) : Exec (ResponseError ε) Response × Bufio ε :=
  match b.readHead with
  | (.error .panic, b') => (.error .panic, b')
  | (.error .loop, b') => (.error .loop, b')
  | (.error (.error e), b') => (.error (.error (.reader e)), b')
  | (.ok lines, b') =>
    match parseResponse lines with
    | none => (.error (.error .malformed), b')
    | some response => (.ok response, b')

/-! ### The bytes they take

The lemmas also say what becomes of the stream itself.  It is filled from only when bytes of the head are missing, that
is when more than the `after` bytes behind the head have not been read; `P` is any property that such a filling keeps.
-/

section Take

variable {ε : Type} {P : Source ε → Prop} {size after total : ℕ}

/-- A filling that the reading of a head needs keeps `P`. -/
def KeptByFill (P : Source ε → Prop) (size after total : ℕ) : Prop :=
  ∀ b : Bufio ε, b.size = size → b.buf.length < size → after < b.src.unread.length → b.unread.length ≤ total →
    P b.src → P b.fill.src

/-- What is left after the head has been read up to some point. -/
structure Left (P : Source ε → Prop) (size : ℕ) (b : Bufio ε) (rest : List Byte) : Prop where
  settled : b.Settled
  size_eq : b.size = size
  unread_eq : b.unread = rest
  kept : P b.src

namespace Bufio

lemma readLineLoop_spec (hP : KeptByFill P size after total) (fuel : ℕ) :
    ∀ (acc : List Byte) {b : Bufio ε} {s line rest : List Byte}, Left P size b s → cut 0x0a s = some (line, rest) →
      after ≤ rest.length → s.length ≤ total → 2 * b.src.unread.length + (if size ≤ b.buf.length then 1 else 0) < fuel →
      ∃ b', readLineLoop fuel b acc = (.ok (dropCR (acc ++ line)), b') ∧ Left P size b' rest := by
  induction fuel with
  | zero => intro acc b s line rest _ _ _ _ h; omega
  | succ fuel ih =>
    rintro acc b _ line rest ⟨hS, rfl, rfl, hPb⟩ hcut hafter htotal hfuel
    rw [readLineLoop]
    cases hbuf : cut 0x0a b.buf with
    | some p =>
      obtain ⟨l, r⟩ := p
      obtain ⟨hb, hl⟩ := cut_eq_some hbuf
      have hsame : cut 0x0a b.unread = some (l, r ++ b.src.unread) := by
        rw [unread, hb, append_assoc, cons_append, cut_append hl]
      rw [hcut] at hsame
      obtain ⟨rfl, rfl⟩ := Prod.mk.inj (some.inj hsame)
      exact ⟨_, rfl, hS.take _, rfl, rfl, hPb⟩
    | none =>
      -- the line goes on in the stream
      obtain ⟨⟨l, rest'⟩, hsrc, heq⟩ : ∃ p, cut 0x0a b.src.unread = some p ∧ (b.buf ++ p.1, p.2) = (line, rest) := by
        rw [unread, cut_append_left (cut_eq_none.1 hbuf)] at hcut
        exact map_eq_some_iff.1 hcut
      obtain ⟨rfl, rfl⟩ : b.buf ++ l = line ∧ rest' = rest := Prod.mk.inj heq
      have hlt : rest'.length < b.src.unread.length := by
        rw [(cut_eq_some hsrc).1, length_append, length_cons]
        omega
      have hne : b.src.unread ≠ [] := ne_nil_of_length_pos (by omega)
      have hroom := hS.room
      dsimp only
      split
      next e he => exact absurd (hS.ended (by simp [he])) hne
      · split
        next hfull =>
          rw [if_pos hfull] at hfuel
          rw [unread, length_append] at htotal
          split
          next hcr =>
            have hbuf' : b.buf = b.buf.dropLast ++ [0x0d] := by
              obtain ⟨ys, hys⟩ := getLast?_eq_some_iff.1 hcr
              rw [hys, dropLast_concat]
            have hcut' : cut 0x0a (0x0d :: b.src.unread) = some (0x0d :: l, rest') := by
              rw [← singleton_append, cut_append_left (by decide), hsrc]
              rfl
            obtain ⟨b', hb', hleft⟩ := ih (acc ++ b.buf.dropLast) (b := { b with buf := [0x0d] })
              ⟨hS.take _, rfl, rfl, hPb⟩ hcut' hafter
              (by simp only [unread, length_append, length_singleton]; omega)
              (by rw [length_singleton, if_neg (by omega)]; dsimp only; omega)
            refine ⟨b', hb'.trans ?_, hleft⟩
            rw [append_assoc, ← singleton_append, ← append_assoc b.buf.dropLast, ← hbuf']
          · obtain ⟨b', hb', hleft⟩ := ih (acc ++ b.buf) (b := { b with buf := [] })
              ⟨hS.take _, rfl, rfl, hPb⟩ hsrc hafter (by simp only [unread, nil_append]; omega)
              (by rw [length_nil, if_neg (by omega)]; dsimp only; omega)
            exact ⟨b', hb'.trans (by rw [append_assoc]), hleft⟩
        · have hless := src_fill_lt hne
          exact ih acc ⟨hS.fill, size_fill b, unread_fill b, hP b rfl (by omega) (by omega) htotal hPb⟩ hcut hafter
            htotal (by split <;> omega)

lemma readLine_spec (hP : KeptByFill P size after total) {b : Bufio ε} {s line rest : List Byte}
    (hb : Left P size b s) (hcut : cut 0x0a s = some (line, rest)) (hafter : after ≤ rest.length)
    (htotal : s.length ≤ total) : ∃ b', b.readLine = (.ok (dropCR line), b') ∧ Left P size b' rest :=
  readLineLoop_spec hP _ [] hb hcut hafter htotal (by split <;> omega)

end Bufio

lemma length_of_cut {s line rest : List Byte} (h : cut 0x0a s = some (line, rest)) : rest.length < s.length := by
  rw [(cut_eq_some h).1, length_append, length_cons]
  omega

lemma length_of_headLinesLoop (fuel : ℕ) : ∀ {s : List Byte} {lines : List GoString} {rest : List Byte},
    headLinesLoop fuel s = some (lines, rest) → rest.length < s.length := by
  induction fuel with
  | zero => intro s lines rest h; cases h
  | succ fuel ih =>
    intro s lines rest h
    rw [headLinesLoop] at h
    split at h
    · cases h
    next line rest' hcut =>
      have hlt := length_of_cut hcut
      split at h
      · cases h
        exact hlt
      · obtain ⟨⟨ls, r⟩, hr, heq⟩ := map_eq_some_iff.1 h
        cases heq
        exact (ih hr).trans hlt

namespace Bufio

lemma readLinesLoop_spec (fuel : ℕ) :
    ∀ {b : Bufio ε} {s rest : List Byte} {lines : List GoString}, KeptByFill P size rest.length total →
      Left P size b s → headLinesLoop fuel s = some (lines, rest) → s.length ≤ total →
      ∃ b', readLinesLoop fuel b = (.ok lines, b') ∧ Left P size b' rest := by
  induction fuel with
  | zero => intro b s rest lines _ _ h; cases h
  | succ fuel ih =>
    intro b s rest lines hP hb h htotal
    rw [headLinesLoop] at h
    split at h
    · cases h
    next line rest' hcut =>
      have hlt := length_of_cut hcut
      split at h
      next hempty =>
        cases h
        obtain ⟨b', hline, hb'⟩ := readLine_spec hP hb hcut (Nat.le_refl _) htotal
        refine ⟨b', ?_, hb'⟩
        rw [readLinesLoop, hline]
        exact if_pos hempty
      next hempty =>
        obtain ⟨⟨ls, r⟩, hr, heq⟩ := map_eq_some_iff.1 h
        cases heq
        obtain ⟨b', hline, hb'⟩ := readLine_spec hP hb hcut (length_of_headLinesLoop fuel hr).le htotal
        obtain ⟨b'', hlines, hb''⟩ := ih hP hb' hr (by omega)
        refine ⟨b'', ?_, hb''⟩
        rw [readLinesLoop, hline]
        dsimp only
        rw [if_neg hempty, hlines]

/-- **The head of a response is taken off the front of the stream.** -/
theorem readHead_spec {b : Bufio ε} {s rest : List Byte} {lines : List GoString}
    (hP : KeptByFill P size rest.length s.length) (hb : Left P size b s) (h : headLines s = some (lines, rest)) :
    ∃ b', b.readHead = (.ok lines, b') ∧ Left P size b' rest := by
  unfold headLines at h
  split at h
  · cases h
  next line rest' hcut =>
    obtain ⟨⟨ls, r⟩, hr, heq⟩ := map_eq_some_iff.1 h
    cases heq
    obtain ⟨b', hline, hb'⟩ := readLine_spec hP hb hcut (length_of_headLinesLoop _ hr).le (Nat.le_refl _)
    obtain ⟨b'', hlines, hb''⟩ := readLinesLoop_spec _ hP hb' hr (length_of_cut hcut).le
    refine ⟨b'', ?_, hb''⟩
    rw [readHead, hline]
    dsimp only
    rw [hb'.unread_eq, hlines]

end Bufio

lemma length_of_headLines {s rest : List Byte} {lines : List GoString} (h : headLines s = some (lines, rest)) :
    rest.length < s.length := by
  unfold headLines at h
  split at h
  · cases h
  next line rest' hcut =>
    obtain ⟨⟨ls, r⟩, hr, heq⟩ := map_eq_some_iff.1 h
    cases heq
    exact (length_of_headLinesLoop _ hr).trans (length_of_cut hcut)

/-- **The response is taken off the front of the stream.** -/
theorem readResponse_spec {b : Bufio ε} {s rest : List Byte} {lines : List GoString} {response : Response}
    (hP : KeptByFill P size rest.length s.length) (hb : Left P size b s) (h : headLines s = some (lines, rest))
    (hresponse : parseResponse lines = some response) :
    ∃ b', readResponse b = (.ok response, b') ∧ Left P size b' rest := by
  obtain ⟨b', hhead, hb'⟩ := Bufio.readHead_spec hP hb h
  refine ⟨b', ?_, hb'⟩
  rw [readResponse, hhead]
  dsimp only
  rw [hresponse]

end Take

/-! ### Bytes after the head -/

lemma cut_append_right {sep : Byte} {s a b : GoString} (h : cut sep s = some (a, b)) (t : GoString) :
    cut sep (s ++ t) = some (a, b ++ t) := by
  obtain ⟨rfl, hmem⟩ := cut_eq_some h
  rw [append_assoc, cons_append, cut_append hmem]

lemma headLinesLoop_append (fuel : ℕ) : ∀ {fuel' : ℕ} {s rest : List Byte} {lines : List GoString},
    headLinesLoop fuel s = some (lines, rest) → fuel ≤ fuel' → ∀ t,
      headLinesLoop fuel' (s ++ t) = some (lines, rest ++ t) := by
  induction fuel with
  | zero => intro fuel' s rest lines h; cases h
  | succ fuel ih =>
    intro fuel' s rest lines h hle t
    obtain ⟨fuel', rfl⟩ : ∃ n, fuel' = n + 1 := ⟨fuel' - 1, by omega⟩
    rw [headLinesLoop] at h ⊢
    split at h
    · cases h
    next line rest' hcut =>
      rw [cut_append_right hcut]
      dsimp only
      split at h
      next hempty =>
        cases h
        rw [if_pos hempty]
      next hempty =>
        obtain ⟨⟨ls, r⟩, hr, heq⟩ := map_eq_some_iff.1 h
        cases heq
        rw [if_neg hempty, ih hr (by omega)]
        rfl

/-- What follows a head does not change it. -/
lemma headLines_append {s rest : List Byte} {lines : List GoString} (h : headLines s = some (lines, rest))
    (t : List Byte) : headLines (s ++ t) = some (lines, rest ++ t) := by
  unfold headLines at h ⊢
  split at h
  · cases h
  next line rest' hcut =>
    obtain ⟨⟨ls, r⟩, hr, heq⟩ := map_eq_some_iff.1 h
    cases heq
    rw [cut_append_right hcut]
    dsimp only
    rw [headLinesLoop_append _ hr (by rw [length_append]; omega)]
    rfl

/-! ### What is read ahead -/

section Ahead

variable {ε : Type}

/-- How far a stream has been read while its head, all but its last `after` bytes, is read: by whole pieces, until all
of the head is there; and then nothing more is there if a piece ends with it. -/
def Arriving (src : Source ε) (after : ℕ) (s : Source ε) : Prop :=
  after < s.unread.length ∧ (∃ done, src.pieces = done ++ s.pieces) ∨
    s.unread.length ≤ after ∧ (s.unread.length = after ↔ src.EndsAt (src.unread.length - after))

/-- The head fits into the buffer, so a piece that does not goes beyond the head. -/
lemma arriving_kept {src : Source ε} {size after : ℕ} (hfits : src.unread.length < size + after) :
    KeptByFill (Arriving src after) size after src.unread.length := by
  rintro ⟨m, buf, err, ⟨pieces, e, eager⟩⟩ rfl hroom hafter htotal (⟨-, done, hdone⟩ | ⟨hle, -⟩)
  swap
  · omega
  rw [Bufio.unread, length_append] at htotal
  simp only [Source.length_unread] at hfits hafter htotal
  have htot : Source.count src.pieces = Source.count done + Source.count pieces := by
    rw [hdone, Source.count_append]
  rcases pieces with _ | ⟨⟨c, cs⟩, rest⟩
  · exact absurd hafter (Nat.not_lt_zero _)
  rw [Source.count_cons] at hafter htotal htot
  simp only [Bufio.fill, Source.recv]
  dsimp only at hafter htotal htot
  cases hdrop : cs.drop (m - buf.length - 1) with
  | nil =>
    -- a whole piece arrives
    simp only [Arriving, Source.length_unread]
    have hdone' : src.pieces = (done ++ [(c, cs)]) ++ rest := by rw [hdone, append_assoc]; rfl
    by_cases hmore : after < Source.count rest
    · exact .inl ⟨hmore, _, hdone'⟩
    · refine .inr ⟨by omega, fun heq => ⟨_, _, hdone', ?_⟩, fun hend => ?_⟩
      · rw [Source.count_append, Source.count_cons]
        change Source.count done + (cs.length + 1 + 0) = _
        omega
      · by_contra hne
        exact Source.not_endsAt hdone (by omega) (by dsimp only; omega) hend
  | cons d ds =>
    -- as much of a piece as there is room for: more than the head
    have hlen : cs.length = m - buf.length - 1 + (ds.length + 1) := by
      have := congrArg length hdrop
      rw [length_drop, length_cons] at this
      omega
    simp only [Arriving, Source.length_unread, Source.count_cons]
    exact .inr ⟨by omega, fun heq => by omega,
      fun hend => absurd hend (Source.not_endsAt hdone (by omega) (by dsimp only; omega))⟩

/-- **Nothing is read ahead exactly if a piece ends with the head**, when the head fits into the buffer. -/
theorem buf_eq_nil_iff {src : Source ε} {b : Bufio ε} {rest : List Byte} {size : ℕ}
    (hb : Left (Arriving src rest.length) size b rest) : b.buf = [] ↔ src.EndsAt (src.unread.length - rest.length) := by
  have hlen : b.buf.length + b.src.unread.length = rest.length := by
    rw [← hb.unread_eq, Bufio.unread, length_append]
  rcases hb.kept with ⟨hlt, -⟩ | ⟨-, hiff⟩
  · omega
  · rw [← hiff, ← length_eq_zero_iff]
    omega

end Ahead

end SingBox.Lib
