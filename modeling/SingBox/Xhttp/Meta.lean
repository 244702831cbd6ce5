import SingBox.Lib.NetHttp
import SingBox.Xhttp.Range

/-!
# The metadata options of XHTTP

`normalizeMeta` (`transport/v2rayxhttp/meta.go`) decides where a request carries its session id, its
sequence number, its padding and its payload, and from which alphabet session ids are drawn.
`strings.ToUpper` is an argument: the method it is applied to is never looked into, apart from a comparison
with `GET`.  The warning that is logged when `GET` is replaced is left out.
-/

namespace SingBox.Xhttp

open SingBox.Lib List Except

inductive Placement where
  | path | query | header | cookie | body | auto | queryInHeader
  deriving DecidableEq, Repr

def Placement.text : Placement → GoString
  | path => ascii "path"
  | query => ascii "query"
  | header => ascii "header"
  | cookie => ascii "cookie"
  | body => ascii "body"
  | auto => ascii "auto"
  | queryInHeader => ascii "queryInHeader"

inductive Mode where
  | auto | packetUp | streamUp | streamOne
  deriving DecidableEq, Repr

inductive PaddingMethod where
  | repeatX | tokenish
  deriving DecidableEq, Repr

def PaddingMethod.text : PaddingMethod → GoString
  | repeatX => ascii "repeat-x"
  | tokenish => ascii "tokenish"

inductive MetaError where
  | range (e : ConfigError)
  | new (text : GoString)
  deriving DecidableEq, Repr

structure MetaOptions where
  sessionPlacement : GoString := []
  sessionKey : GoString := []
  seqPlacement : GoString := []
  seqKey : GoString := []
  sessionTable : GoString := []
  sessionLength : GoString := []
  uplinkDataPlacement : GoString := []
  uplinkDataKey : GoString := []
  uplinkChunkSize : GoString := []
  uplinkHTTPMethod : GoString := []
  xPaddingObfsMode : Bool := false
  xPaddingKey : GoString := []
  xPaddingHeader : GoString := []
  xPaddingPlacement : GoString := []
  xPaddingMethod : GoString := []
  scMaxEachPostBytes : GoString := []
  scMinPostsIntervalMs : GoString := []

structure MetaConfig where
  sessionPlacement : Placement
  sessionKey : GoString
  seqPlacement : Placement
  seqKey : GoString
  sessionTable : GoString
  sessionLength : IntRange
  uplinkDataPlacement : Placement
  uplinkDataKey : GoString
  uplinkChunkSize : IntRange
  uplinkHTTPMethod : GoString
  xPaddingObfsMode : Bool
  xPaddingKey : GoString
  xPaddingHeader : GoString
  xPaddingPlacement : Placement
  xPaddingMethod : PaddingMethod
  scMaxEachPostBytes : IntRange
  scMinPostsIntervalMs : IntRange
  deriving DecidableEq

/-! ### Session ids -/

def predefinedSessionTables : List (GoString × GoString) :=
  [("ALPHABET", "ABCDEFGHIJKLMNOPQRSTUVWXYZ"),
   ("Alphabet", "ABCDEFGHIJKLMNOPQRSTUVWXYZabcdefghijklmnopqrstuvwxyz"),
   ("BASE36", "0123456789ABCDEFGHIJKLMNOPQRSTUVWXYZ"),
   ("Base62", "0123456789ABCDEFGHIJKLMNOPQRSTUVWXYZabcdefghijklmnopqrstuvwxyz"),
   ("HEX", "0123456789ABCDEF"),
   ("alphabet", "abcdefghijklmnopqrstuvwxyz"),
   ("base36", "0123456789abcdefghijklmnopqrstuvwxyz"),
   ("hex", "0123456789abcdef"),
   ("number", "0123456789")].map fun p => (ascii p.1, ascii p.2)

def minSessionIDSpace : ℤ := 2 ^ 31

def sessionIDSpaceLoop (size : ℤ) : ℕ → ℤ → Bool
  | 0, _ => false
  | n + 1, space =>
    let space := int64 (space * size)
    if minSessionIDSpace ≤ space then true else sessionIDSpaceLoop size n space

def sessionIDSpaceSufficient (size length : ℤ) : Bool :=
  if size ≤ 1 then false else sessionIDSpaceLoop size length.toNat 1

/-- The loop of `resolveSessionID` over the bytes of the table: they must be ASCII, each is kept once. -/
def uniqueTable : GoString → GoString → Except MetaError GoString
  | unique, [] => .ok unique
  | unique, b :: s =>
    if 0x7f < b then .error (.new (ascii "v2ray-xhttp: session_table must be ASCII"))
    else uniqueTable (if unique.contains b then unique else unique ++ [b]) s

/-- A range that was read, with its error among those of the metadata. -/
def MetaError.ofRange {α : Type} : Except ConfigError α → Except MetaError α
  | .ok a => .ok a
  | .error e => .error (.range e)

def formatInt (n : ℤ) : GoString := (if n < 0 then ascii "-" else []) ++ formatUint n.natAbs

def resolveSessionID (table length : GoString) : Except MetaError (GoString × IntRange) := do
  let table := trimSpace table
  let length := trimSpace length
  if table = [] ∧ length = [] then
    return ([], ⟨0, 0⟩)
  if table = [] ∨ length = [] then
    throw (.new (ascii "v2ray-xhttp: session_table and session_length must be set together"))
  let table ← uniqueTable [] ((predefinedSessionTables.lookup table).getD table)
  let r ← MetaError.ofRange (parseRange length "session_length")
  if r.min ≤ 0 then
    throw (.new (ascii "v2ray-xhttp: session_length floor must be above 0"))
  if ¬ sessionIDSpaceSufficient table.length r.min then
    throw (.new (ascii "v2ray-xhttp: session_table/session_length yield fewer than " ++ formatInt minSessionIDSpace ++
      ascii " possible ids (alphabet " ++ formatUint table.length ++ ascii " chars ^ min length " ++
      formatInt r.min ++ ascii "); widen either to avoid session collisions"))
  return (table, r)

/-- `strconv.QuoteRune` of a rune that a table of path segments may not contain, from its encoding. -/
def quoteForbidden (rune : GoString) : GoString :=
  let hex (n : ℕ) : Byte := if n < 10 then BitVec.ofNat 8 (48 + n) else BitVec.ofNat 8 (87 + n)
  let escape (code : ℕ) : GoString :=
    ascii "\\u" ++ [hex (code / 4096), hex (code / 256 % 16), hex (code / 16 % 16), hex (code % 16)]
  let inner : GoString :=
    match rune with
    | [b] =>
      if b = 0x09 then ascii "\\t" else if b = 0x0a then ascii "\\n" else if b = 0x0b then ascii "\\v"
      else if b = 0x0c then ascii "\\f" else if b = 0x0d then ascii "\\r" else [b]
    | [a, b] => escape (a.toNat % 32 * 64 + b.toNat % 64)
    | [a, b, c] => escape (a.toNat % 16 * 4096 + b.toNat % 64 * 64 + c.toNat % 64)
    | _ => rune
  ascii "'" ++ inner ++ ascii "'"

/-- The runes that `normalizeMeta` refuses in a table of path segments. -/
def forbiddenInPath : List GoString := [[0x2f], [0x3f], [0x23], [0x25]] ++ spaceRunes

def findForbidden : GoString → Option GoString
  | [] => none
  | b :: s =>
    match forbiddenInPath.find? fun r => r.isPrefixOf (b :: s) with
    | some r => some r
    | none => findForbidden s

/-- The check of the table when the session id is a path segment. -/
def checkSessionTable (placement : Placement) (table : GoString) : Except MetaError Unit :=
  if placement = .path then
    match findForbidden table with
    | some rune => .error (.new (ascii
        "v2ray-xhttp: session_table contains an invalid character for session_placement=path: " ++
        quoteForbidden rune))
    | none => .ok ()
  else .ok ()

/-! ### Keys and sizes -/

def orDefault (v dflt : GoString) : GoString := if trimSpace v = [] then dflt else v

def validatePlacement (field : String) (value : GoString) (allowed : List Placement) : Except MetaError Placement :=
  match allowed.find? fun a => a.text = value with
  | some a => .ok a
  | none => .error (.new (ascii "v2ray-xhttp: unsupported " ++ ascii field ++ ascii ": " ++ value))

def resolveKey (configured : GoString) (placement : Placement) (headerDefault otherDefault : GoString) : GoString :=
  if configured ≠ [] then configured
  else match placement with
    | .header => headerDefault
    | .query | .cookie => otherDefault
    | _ => []

def resolveUplinkDataKey (configured : GoString) (placement : Placement) : GoString :=
  if configured ≠ [] then configured
  else match placement with
    | .header | .auto => ascii "X-Data"
    | .cookie => ascii "x_data"
    | _ => []

def clampChunkFloor (r : IntRange) : IntRange :=
  let r := if r.min < 64 then { r with min := 64 } else r
  if r.max < r.min then { r with max := r.min } else r

def resolveUplinkChunkSize (raw : GoString) (placement : Placement) (scMaxEachPost : IntRange) :
    Except MetaError IntRange :=
  if trimSpace raw ≠ [] then do
    let r ← MetaError.ofRange (parseRange raw "uplink_chunk_size")
    return clampChunkFloor r
  else match placement with
    | .cookie => .ok ⟨2048, 3072⟩
    | .header => .ok ⟨3000, 4000⟩
    | _ => .ok scMaxEachPost

/-- The payload fits into headers and cookies only in the mode that sends it in pieces. -/
def checkUplinkData (placement : Placement) (mode : Mode) : Except MetaError Unit :=
  if (placement = .header ∨ placement = .cookie) ∧ mode ≠ .packetUp then
    .error (.new (ascii "v2ray-xhttp: uplink_data_placement can be " ++ placement.text ++
      ascii " only in packet-up mode"))
  else .ok ()

def resolvePaddingMethod (raw : GoString) : Except MetaError PaddingMethod :=
  let value := orDefault raw PaddingMethod.repeatX.text
  match [PaddingMethod.repeatX, PaddingMethod.tokenish].find? fun p => p.text = value with
  | some p => .ok p
  | none => .error (.new (ascii "v2ray-xhttp: unknown x_padding_method: " ++ value))

/-- The placements of a session id or a sequence number. -/
def idPlacements : List Placement := [.path, .query, .header, .cookie]

def normalizeMeta (toUpper : GoString → GoString) (opts : MetaOptions) (mode : Mode) : Except MetaError MetaConfig := do
  let sessionPlacement ←
    validatePlacement "session_placement" (orDefault opts.sessionPlacement Placement.path.text) idPlacements
  let sessionKey := resolveKey opts.sessionKey sessionPlacement (ascii "X-Session") (ascii "x_session")
  let seqPlacement ← validatePlacement "seq_placement" (orDefault opts.seqPlacement Placement.path.text) idPlacements
  let seqKey := resolveKey opts.seqKey seqPlacement (ascii "X-Seq") (ascii "x_seq")
  checkSessionTable sessionPlacement opts.sessionTable
  let sessionID ← resolveSessionID opts.sessionTable opts.sessionLength
  let uplinkDataPlacement ← validatePlacement "uplink_data_placement"
    (orDefault opts.uplinkDataPlacement Placement.auto.text) [.body, .auto, .header, .cookie]
  checkUplinkData uplinkDataPlacement mode
  let uplinkDataKey := resolveUplinkDataKey opts.uplinkDataKey uplinkDataPlacement
  let method := toUpper (orDefault opts.uplinkHTTPMethod (ascii "POST"))
  let uplinkHTTPMethod := if method = ascii "GET" ∧ mode ≠ .packetUp then ascii "POST" else method
  let scMaxEachPostBytes ←
    MetaError.ofRange (parseRangeOr opts.scMaxEachPostBytes "sc_max_each_post_bytes" ⟨1000000, 1000000⟩)
  let scMinPostsIntervalMs ←
    MetaError.ofRange (parseRangeOr opts.scMinPostsIntervalMs "sc_min_posts_interval_ms" ⟨30, 30⟩)
  let uplinkChunkSize ← resolveUplinkChunkSize opts.uplinkChunkSize uplinkDataPlacement scMaxEachPostBytes
  let xPaddingPlacement ← validatePlacement "x_padding_placement"
    (orDefault opts.xPaddingPlacement Placement.queryInHeader.text) [.cookie, .header, .query, .queryInHeader]
  let xPaddingMethod ← resolvePaddingMethod opts.xPaddingMethod
  return {
    sessionPlacement, sessionKey, seqPlacement, seqKey
    sessionTable := sessionID.1
    sessionLength := sessionID.2
    uplinkDataPlacement, uplinkDataKey, uplinkChunkSize, uplinkHTTPMethod,
    xPaddingObfsMode := opts.xPaddingObfsMode
    xPaddingKey := orDefault opts.xPaddingKey (ascii "x_padding")
    xPaddingHeader := orDefault opts.xPaddingHeader (ascii "X-Padding")
    xPaddingPlacement, xPaddingMethod, scMaxEachPostBytes, scMinPostsIntervalMs }

/-! ### What an accepted configuration satisfies -/

lemma validatePlacement_mem {field : String} {value : GoString} {allowed : List Placement} {p : Placement}
    (h : validatePlacement field value allowed = .ok p) : p ∈ allowed := by
  unfold validatePlacement at h
  split at h
  · cases h
    exact mem_of_find?_eq_some ‹_›
  · cases h

variable {b : Byte}

lemma mem_of_stripOne {runes : List GoString} {s t : GoString} (h : stripOne runes s = some t)
    (hb : b ∈ t) : b ∈ s := by
  obtain ⟨r, -, hr⟩ := exists_of_findSome?_eq_some h
  split at hr
  · cases hr
    exact mem_of_mem_drop hb
  · cases hr

lemma mem_of_stripMany {runes : List GoString} : ∀ {n : ℕ} {s : GoString}, b ∈ stripMany runes n s → b ∈ s
  | 0, _, hb => hb
  | n + 1, s, hb => by
    rw [stripMany] at hb
    split at hb
    · exact mem_of_stripOne ‹_› (mem_of_stripMany hb)
    · exact hb

lemma mem_of_trimSpace {s : GoString} (hb : b ∈ trimSpace s) : b ∈ s := by
  have h := mem_of_stripMany (mem_reverse.1 hb)
  exact mem_of_stripMany (mem_reverse.1 h)

lemma mem_of_uniqueTable : ∀ {s unique table : GoString}, uniqueTable unique s = .ok table →
    b ∈ table → b ∈ unique ∨ b ∈ s
  | [], unique, table, h, hb => by
    cases h
    exact .inl hb
  | c :: s, unique, table, h, hb => by
    rw [uniqueTable] at h
    split at h
    · cases h
    · rcases mem_of_uniqueTable h hb with hu | hs
      · split at hu
        · exact .inl hu
        · rcases mem_append.1 hu with hu | hc
          · exact .inl hu
          · exact .inr (mem_cons.2 (.inl (mem_singleton.1 hc)))
      · exact .inr (mem_cons_of_mem _ hs)

lemma findForbidden_slash : ∀ {s : GoString}, findForbidden s = none → 0x2f ∉ s
  | [], _ => not_mem_nil
  | b :: s, h => by
    rw [findForbidden] at h
    split at h
    · cases h
    next hf =>
      rw [mem_cons, not_or]
      refine ⟨?_, findForbidden_slash h⟩
      rintro rfl
      have := find?_eq_none.1 hf [0x2f] (by decide)
      simp at this

lemma checkSessionTable_path {placement : Placement} {table : GoString} {u : Unit} (hp : placement = .path)
    (h : checkSessionTable placement table = .ok u) : 0x2f ∉ table := by
  rw [checkSessionTable, if_pos hp] at h
  split at h
  · cases h
  · exact findForbidden_slash ‹_›

lemma predefined_no_slash : ∀ p ∈ predefinedSessionTables, 0x2f ∉ p.2 := by decide +kernel

/-- A session table is empty, or the length of an id is positive; a table whose text has no slash
has none either. -/
lemma resolveSessionID_ok {raw length table : GoString} {r : IntRange}
    (h : resolveSessionID raw length = .ok (table, r)) :
    (table ≠ [] → 0 < r.min ∧ r.WF) ∧ (0x2f ∉ raw → 0x2f ∉ table) := by
  unfold resolveSessionID at h
  dsimp only at h
  split at h
  · cases h
    simp
  split at h
  · cases h
  obtain ⟨t, ht, h⟩ := bind_ok h
  obtain ⟨r', hr, h⟩ := bind_ok h
  split at h
  · cases h
  split at h
  · cases h
  cases h
  refine ⟨fun _ => ⟨by omega, ?_⟩, fun hraw hmem => ?_⟩
  · cases hp : parseRange (trimSpace length) "session_length" with
    | error e => rw [hp] at hr; cases hr
    | ok v =>
      rw [hp] at hr
      cases hr
      exact parseRange_wf hp
  · rcases mem_of_uniqueTable ht hmem with hn | hs
    · cases hn
    · cases hl : predefinedSessionTables.lookup (trimSpace raw) with
      | none =>
        rw [hl] at hs
        exact hraw (mem_of_trimSpace hs)
      | some p =>
        rw [hl] at hs
        obtain ⟨k, hk⟩ : ∃ k, (k, p) ∈ predefinedSessionTables := by
          rw [lookup_eq_some_iff] at hl
          obtain ⟨l₁, l₂, hl, -⟩ := hl
          exact ⟨trimSpace raw, by rw [hl]; simp⟩
        exact predefined_no_slash _ hk hs

/-- The facts about an accepted configuration that the construction of requests relies on. -/
structure MetaConfig.WF (m : MetaConfig) : Prop where
  session : m.sessionPlacement ∈ idPlacements
  seq : m.seqPlacement ∈ idPlacements
  length : m.sessionTable ≠ [] → 0 < m.sessionLength.min ∧ m.sessionLength.WF
  path : m.sessionPlacement = .path → 0x2f ∉ m.sessionTable

lemma normalizeMeta_wf {toUpper : GoString → GoString} {opts : MetaOptions} {mode : Mode} {m : MetaConfig}
    (h : normalizeMeta toUpper opts mode = .ok m) : m.WF := by
  obtain ⟨sessionPlacement, hsession, h⟩ := bind_ok h
  obtain ⟨seqPlacement, hseq, h⟩ := bind_ok h
  obtain ⟨_, hpath, h⟩ := bind_ok h
  obtain ⟨⟨table, length⟩, htable, h⟩ := bind_ok h
  obtain ⟨_, -, h⟩ := bind_ok h
  obtain ⟨_, -, h⟩ := bind_ok h
  obtain ⟨_, -, h⟩ := bind_ok h
  obtain ⟨_, -, h⟩ := bind_ok h
  obtain ⟨_, -, h⟩ := bind_ok h
  obtain ⟨_, -, h⟩ := bind_ok h
  obtain ⟨_, -, h⟩ := bind_ok h
  cases h
  have hid := resolveSessionID_ok htable
  refine ⟨validatePlacement_mem hsession, validatePlacement_mem hseq, hid.1, fun hp => hid.2 ?_⟩
  exact checkSessionTable_path hp hpath

end SingBox.Xhttp
