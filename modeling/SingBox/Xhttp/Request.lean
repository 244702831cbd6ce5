import SingBox.Lib.Base64
import SingBox.Xhttp.Meta

/-!
# The requests of XHTTP and what they carry

`newRequest`, `applyMeta`, `applyXPadding` and `applyUplinkData` (`transport/v2rayxhttp/client.go`, `meta.go`,
`xpadding.go`).  Every one of them changes a request by *writes*: a path segment, a query value, a header or a
cookie.  What a write put into a request is carried by it as long as no later write goes to the same name;
where the names are separate, a request determines its session id and its sequence number.

The values drawn from random sources are arguments.  `sHTTP.URLSetPath` and `hpack.HuffmanEncodeLength` are
not part of this repository: they are arguments too, and the former is taken to set nothing but the path.
-/

namespace SingBox.Xhttp

open SingBox.Lib

/-- The functions of other modules. -/
structure Deps where
  urlSetPath : GoString → Except GoString GoString
  huffmanEncodeLength : GoString → ℕ

structure URL where
  scheme : GoString
  host : GoString
  path : GoString
  rawQuery : GoString

inductive RequestBody where
  | nil
  | reader
  | bytes (data : List Byte)

structure Request where
  method : GoString
  url : URL
  header : Header
  host : GoString
  body : RequestBody
  contentLength : ℕ

structure Client where
  serverAddr : GoString
  scheme : GoString
  host : GoString
  path : GoString
  headers : Header
  paddingRange : IntRange
  config : MetaConfig

inductive RequestError where
  | parsePath (cause : GoString)
  deriving DecidableEq, Repr

/-! ### Session ids -/

/-- What `newSessionID` draws: the length, the index of each byte, or the bytes of an UUID. -/
structure SessionDraw where
  length : ℕ
  index : ℕ → ℕ
  uuid : ℕ → Byte

/-- `rand.Int` below a positive bound. -/
def sessionRandomInt (n : ℤ) (draw : ℕ) : ℤ := draw % n

def newUUIDSessionID (b : ℕ → Byte) : GoString :=
  encodeHex ((List.range' 0 4).map b) ++ 0x2d :: encodeHex ((List.range' 4 2).map b) ++
    0x2d :: encodeHex ((List.range' 6 2).map b) ++ 0x2d :: encodeHex ((List.range' 8 2).map b) ++
    0x2d :: encodeHex ((List.range' 10 6).map b)

def newSessionID (m : MetaConfig) (d : SessionDraw) : GoString :=
  if m.sessionTable = [] then newUUIDSessionID d.uuid
  else
    let length :=
      if m.sessionLength.min < m.sessionLength.max then
        m.sessionLength.min + sessionRandomInt (m.sessionLength.max - m.sessionLength.min + 1) d.length
      else m.sessionLength.min
    (List.range length.toNat).map fun i =>
      m.sessionTable.getD (sessionRandomInt m.sessionTable.length (d.index i)).toNat 0

/-! ### Paths and queries -/

def barePathForStreamOne (path : GoString) (m : MetaConfig) : GoString :=
  if path = [] then [0x2f]
  else if m.sessionPlacement ≠ .path ∧ m.seqPlacement ≠ .path then path
  else if path.getLast? ≠ some 0x2f then path ++ [0x2f]
  else path

def appendPathSegment (path seg : GoString) : GoString :=
  if path.getLast? = some 0x2f then path ++ seg else path ++ 0x2f :: seg

def setQuery (rawQuery key value : GoString) : GoString :=
  if rawQuery = [] then queryPair (key, value)
  else
    let q := parseQuery rawQuery
    if Values.get q key = [] then rawQuery ++ 0x26 :: queryPair (key, value)
    else Values.encode (Values.set q key value)

/-- The switch of `applyMeta` over a placement; the path is a variable beside the request. -/
def putMeta (placement : Placement) (key value : GoString) : Request × GoString → Request × GoString
  | (r, path) =>
    match placement with
    | .path => (r, appendPathSegment path value)
    | .query => ({ r with url.rawQuery := setQuery r.url.rawQuery key value }, path)
    | .header => ({ r with header := Header.set r.header key value }, path)
    | .cookie => ({ r with header := Header.addCookie r.header key value }, path)
    | _ => (r, path)

def Request.setPath (r : Request) (path : GoString) : Request := { r with url.path := path }

def applyMeta (m : MetaConfig) (r : Request) (basePath sessionID seqStr : GoString) : Request :=
  let p :=
    if sessionID = [] then (r, barePathForStreamOne basePath m)
    else putMeta m.sessionPlacement m.sessionKey sessionID (r, basePath)
  let p := if seqStr = [] then p else putMeta m.seqPlacement m.seqKey seqStr p
  p.1.setPath p.2

/-! ### Padding -/

structure PaddingDraw where
  length : ℕ
  token : ℕ → Byte

def base62Alphabet : GoString := ascii "0123456789ABCDEFGHIJKLMNOPQRSTUVWXYZabcdefghijklmnopqrstuvwxyz"

/-- The loop of `generateTokenishPaddingBase62` towards the wanted length. -/
def tokenishLoop (deps : Deps) (target : ℤ) : ℕ → GoString → GoString
  | 0, buf => buf
  | n + 1, buf =>
    let encoded := (deps.huffmanEncodeLength buf : ℤ)
    if encoded < target - 2 then
      tokenishLoop deps target n (buf ++ [if buf.length % 2 = 0 then 0x58 else 0x5a])
    else if int64 (target + 2) < encoded then
      if 1 < buf.length then tokenishLoop deps target n buf.dropLast else buf
    else buf

def generateTokenishPaddingBase62 (deps : Deps) (target : ℤ) (token : ℕ → Byte) : GoString :=
  if target ≤ 0 then []
  else
    let initialLen := max 1 ((int64 (target * 10)).tdiv 8)
    tokenishLoop deps target 150
      ((List.range initialLen.toNat).map fun i => base62Alphabet.getD ((token i).toNat % base62Alphabet.length) 0)

/-- `getStaticZeroPadding` and `getStaticXPadding`: the text without the buffer it is cut from. -/
def getStaticPadding (b : Byte) (n : ℤ) : GoString := List.replicate n.toNat b

def generatePadding (deps : Deps) (c : Client) (d : PaddingDraw) : GoString :=
  let n := c.paddingRange.rand d.length
  if n ≤ 0 then []
  else if c.config.xPaddingMethod = .tokenish then generateTokenishPaddingBase62 deps n d.token
  else getStaticPadding 0x58 n

/-- The URL with the padding as its query that a header carries. -/
def paddedURL (c : Client) (r : Request) (key pad : GoString) : GoString :=
  c.scheme ++ ascii "://" ++ c.host ++ r.url.path ++ ascii "?" ++ key ++ ascii "=" ++ pad

def applyXPadding (deps : Deps) (c : Client) (d : PaddingDraw) (r : Request) : Request :=
  let m := c.config
  if ¬ m.xPaddingObfsMode then
    let n := c.paddingRange.rand d.length
    if n ≤ 0 then r
    else
      let value := paddedURL c r (ascii "x_padding") (getStaticPadding 0x30 n)
      { r with header := Header.set r.header (ascii "Referer") value }
  else
    let pad := generatePadding deps c d
    if pad = [] then r
    else match m.xPaddingPlacement with
      | .cookie => { r with header := Header.addCookie r.header m.xPaddingKey pad }
      | .header => { r with header := Header.set r.header m.xPaddingHeader pad }
      | .query => { r with url.rawQuery := setQuery r.url.rawQuery m.xPaddingKey pad }
      | .queryInHeader =>
        { r with header := Header.set r.header m.xPaddingHeader (paddedURL c r m.xPaddingKey pad) }
      | _ => r

/-! ### Payloads -/

/-- The loop of `chunkEncoded`: every turn takes a byte at least, so the length of the text is fuel enough. -/
def chunkLoop (size : IntRange) (draw : ℕ → ℕ) : ℕ → ℕ → GoString → List GoString
  | 0, _, _ => []
  | fuel + 1, i, encoded =>
    if encoded = [] then []
    else
      let n := size.rand (draw i)
      let n := if n ≤ 0 ∨ (encoded.length : ℤ) < n then encoded.length else n.toNat
      encoded.take n :: chunkLoop size draw fuel (i + 1) (encoded.drop n)

def chunkEncoded (payload : List Byte) (size : IntRange) (draw : ℕ → ℕ) : List GoString :=
  chunkLoop size draw (base64RawURL payload).length 0 (base64RawURL payload)

def applyUplinkData (m : MetaConfig) (payload : List Byte) (draw : ℕ → ℕ) (r : Request) : Request :=
  match m.uplinkDataPlacement with
  | .header =>
    (chunkEncoded payload m.uplinkChunkSize draw).zipIdx.foldl (fun r p =>
      { r with header := Header.set r.header (m.uplinkDataKey ++ ascii "-" ++ formatUint p.2) p.1 }) r
  | .cookie =>
    (chunkEncoded payload m.uplinkChunkSize draw).zipIdx.foldl (fun r p =>
      { r with header := Header.addCookie r.header (m.uplinkDataKey ++ ascii "_" ++ formatUint p.2) p.1 }) r
  | _ =>
    { r with
      body := .bytes payload
      header := Header.set r.header (ascii "Content-Type") (ascii "application/octet-stream")
      contentLength := payload.length }

/-! ### Requests -/

def baseURL (deps : Deps) (c : Client) : Except RequestError URL :=
  match deps.urlSetPath c.path with
  | .error cause => .error (.parsePath cause)
  | .ok path =>
    .ok ⟨c.scheme, c.serverAddr, if path.head? = some 0x2f then path else 0x2f :: path, []⟩

def newRequest (deps : Deps) (c : Client) (d : PaddingDraw) (method sessionID seqStr : GoString) (body : RequestBody) :
    Except RequestError Request :=
  match baseURL deps c with
  | .error e => .error e
  | .ok u =>
    let r : Request := ⟨method, u, c.headers, c.host, .nil, 0⟩
    let r := applyXPadding deps c d (applyMeta c.config r u.path sessionID seqStr)
    .ok { r with body := body }

structure Upload where
  session : SessionDraw
  seq : BitVec 64
  padding : PaddingDraw
  payload : List Byte
  chunk : ℕ → ℕ

def Upload.sessionID (c : Client) (u : Upload) : GoString := newSessionID c.config u.session

def Upload.seqStr (u : Upload) : GoString := formatUint u.seq.toNat

/-- The request of an upload (`post` in `conn.go`, up to the round trip). -/
def uploadRequest (deps : Deps) (c : Client) (u : Upload) : Except RequestError Request :=
  match newRequest deps c u.padding c.config.uplinkHTTPMethod (u.sessionID c) u.seqStr .nil with
  | .error e => .error e
  | .ok r => .ok (applyUplinkData c.config u.payload u.chunk r)

end SingBox.Xhttp
