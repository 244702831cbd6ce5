import SingBox.Xhttp.Carrier

/-!
# A payload in headers or cookies is not lost

`chunkEncoded` cuts the encoding of a payload into pieces of random sizes, and `applyUplinkData` writes them to numbered
headers or cookies (`transport/v2rayxhttp/meta.go`).  A size that is not positive or exceeds what is left takes all that
is left, so that every turn of the loop takes something and only the last piece may be outside the range.
-/

namespace SingBox.Xhttp

open SingBox.Lib List Function Option

/-- The number of characters a turn takes. -/
def chunkTake (size : IntRange) (draw : ℕ → ℕ) (i : ℕ) (encoded : GoString) : ℕ :=
  if size.rand (draw i) ≤ 0 ∨ (encoded.length : ℤ) < size.rand (draw i) then encoded.length
  else (size.rand (draw i)).toNat

/-- The loop of `chunkEncoded` ends with these chunks after some turns; `i` counts the draws. -/
inductive ChunkRun (size : IntRange) (draw : ℕ → ℕ) : ℕ → GoString → List GoString → Prop
  | done {i : ℕ} : ChunkRun size draw i [] []
  | turn {i : ℕ} {encoded : GoString} {chunks : List GoString} : encoded ≠ [] →
      ChunkRun size draw (i + 1) (encoded.drop (chunkTake size draw i encoded)) chunks →
      ChunkRun size draw i encoded (encoded.take (chunkTake size draw i encoded) :: chunks)

section Chunks

variable {size : IntRange} {draw : ℕ → ℕ} {i : ℕ} {encoded : GoString} {chunks : List GoString}

lemma chunkTake_pos (size : IntRange) (draw : ℕ → ℕ) (i : ℕ) (h : encoded ≠ []) :
    0 < chunkTake size draw i encoded := by
  have := length_pos_of_ne_nil h
  unfold chunkTake
  split <;> omega

lemma chunkRun_chunkLoop {fuel : ℕ} (h : encoded.length ≤ fuel) :
    ChunkRun size draw i encoded (chunkLoop size draw fuel i encoded) := by
  induction fuel generalizing i encoded with
  | zero =>
    rw [length_eq_zero_iff.1 (Nat.le_zero.1 h)]
    exact .done
  | succ fuel ih =>
    by_cases hnil : encoded = []
    · subst hnil
      exact .done
    · have hpos := chunkTake_pos size draw i hnil
      rw [chunkLoop, if_neg hnil]
      exact .turn hnil (ih (by rw [length_drop]; omega))

namespace ChunkRun

lemma flatten (h : ChunkRun size draw i encoded chunks) : chunks.flatten = encoded := by
  induction h with
  | done => rfl
  | turn _ _ ih => rw [flatten_cons, ih, take_append_drop]

lemma ne_nil (h : ChunkRun size draw i encoded chunks) : ∀ c ∈ chunks, c ≠ [] := by
  induction h with
  | done => simp
  | @turn i encoded _ hne _ ih =>
    refine forall_mem_cons.2 ⟨?_, ih⟩
    have := chunkTake_pos size draw i hne
    have := length_pos_of_ne_nil hne
    refine ne_nil_of_length_pos ?_
    rw [length_take]
    omega

lemma inside (h : ChunkRun size draw i encoded chunks) (hwf : size.WF) :
    ∀ c ∈ chunks.dropLast, size.min ≤ c.length ∧ (c.length : ℤ) ≤ size.max := by
  induction h with
  | done => simp
  | @turn i encoded chunks hne hrest ih =>
    cases chunks with
    | nil => simp
    | cons c chunks =>
      refine forall_mem_cons.2 ⟨?_, ih⟩
      have hlo := hwf.min_le_rand (draw i)
      have hhi := hwf.rand_le (draw i)
      -- otherwise all would have been taken
      have hleft : encoded.drop (chunkTake size draw i encoded) ≠ [] := by
        intro hnil
        rw [hnil] at hrest
        cases hrest
        contradiction
      have hlen := length_pos_of_ne_nil hleft
      rw [length_drop] at hlen
      rw [length_take]
      unfold chunkTake at hlen ⊢
      split at hlen
      · omega
      · rw [if_neg ‹_›]
        omega

end ChunkRun

end Chunks

/-! ### The range -/

lemma clampChunkFloor_eq (r : IntRange) : clampChunkFloor r = ⟨max 64 r.min, max r.max (max 64 r.min)⟩ := by
  obtain ⟨lo, hi⟩ := r
  by_cases hlo : lo < 64
  · by_cases hhi : hi < 64
    · simp [clampChunkFloor, hlo, hhi, hlo.le, hhi.le]
    · simp [clampChunkFloor, hlo, hlo.le, not_lt.1 hhi]
  · by_cases hhi : hi < lo
    · simp [clampChunkFloor, hlo, hhi, hhi.le, not_lt.1 hlo]
    · simp [clampChunkFloor, hlo, not_lt.1 hhi, not_lt.1 hlo]

lemma resolveUplinkChunkSize_wf {raw : GoString} {placement : Placement} {sc size : IntRange} (hsc : sc.WF)
    (h : resolveUplinkChunkSize raw placement sc = .ok size) : size.WF := by
  unfold resolveUplinkChunkSize at h
  split at h
  · obtain ⟨r, hr, h⟩ := Except.bind_ok h
    cases h
    have hwf : r.WF := by
      cases hp : parseRange raw "uplink_chunk_size" with
      | error e =>
        rw [hp] at hr
        cases hr
      | ok v =>
        rw [hp] at hr
        cases hr
        exact parseRange_wf hp
    obtain ⟨hlo, hle, hhi⟩ := hwf
    rw [clampChunkFloor_eq]
    exact ⟨by dsimp only; omega, by dsimp only; omega, by dsimp only; omega⟩
  · split at h <;> cases h
    · exact ⟨by decide, by decide, by decide⟩
    · exact ⟨by decide, by decide, by decide⟩
    · exact hsc

/-! ### Numbered headers -/

lemma formatUint_inj {n k : ℕ} (h : formatUint n = formatUint k) : n = k := by
  have hn : parseUint (n + k) (formatUint n) = .ok n :=
    parseUint_format (lt_of_le_of_lt (Nat.le_add_right n k) Nat.lt_two_pow_self)
  have hk : parseUint (n + k) (formatUint k) = .ok k :=
    parseUint_format (lt_of_le_of_lt (Nat.le_add_left k n) Nat.lt_two_pow_self)
  rw [h, hk] at hn
  exact (Except.ok.inj hn).symm

def dataHeader (m : MetaConfig) (i : ℕ) : GoString := m.uplinkDataKey ++ ascii "-" ++ formatUint i

def dataCookie (m : MetaConfig) (i : ℕ) : GoString := m.uplinkDataKey ++ ascii "_" ++ formatUint i

variable {m : MetaConfig}

lemma dataHeader_inj {i j : ℕ}
    (h : canonicalHeaderKey (dataHeader m i) = canonicalHeaderKey (dataHeader m j)) : i = j :=
  formatUint_inj (canonicalHeaderKey_number (fun _ => mem_formatUint) (fun _ => mem_formatUint) h)

/-- The headers after the chunks from number `k` on were written. -/
def setChunks (m : MetaConfig) (chunks : List GoString) (k : ℕ) (h : Header) : Header :=
  (chunks.zipIdx k).foldl (fun h p => Header.set h (dataHeader m p.2) p.1) h

lemma get_setChunks (m : MetaConfig) (chunks : List GoString) (k : ℕ) (h : Header) (i : ℕ) :
    Header.get (setChunks m chunks k h) (dataHeader m i) =
      if i < k then Header.get h (dataHeader m i) else (chunks[i - k]?).getD (Header.get h (dataHeader m i)) := by
  induction chunks generalizing k h with
  | nil => simp [setChunks]
  | cons c chunks ih =>
    have hcons : setChunks m (c :: chunks) k h = setChunks m chunks (k + 1) (Header.set h (dataHeader m k) c) := rfl
    have hset : ∀ {i}, i ≠ k → Header.get (Header.set h (dataHeader m k) c) (dataHeader m i) =
        Header.get h (dataHeader m i) := by
      intro i hi
      rw [Header.get, Header.set, update_of_ne fun heq => hi (dataHeader_inj heq), ← Header.get]
    rw [hcons, ih]
    rcases lt_trichotomy i k with hi | rfl | hi
    · rw [if_pos (by omega), if_pos hi, hset (by omega)]
    · rw [if_pos (by omega), Header.get, Header.set]
      simp
    · obtain ⟨n, rfl⟩ : ∃ n, i = k + 1 + n := ⟨i - k - 1, by omega⟩
      rw [if_neg (by omega), if_neg (by omega), hset (by omega), show k + 1 + n - (k + 1) = n by omega,
        show k + 1 + n - k = n + 1 by omega, getElem?_cons_succ]

lemma applyUplinkData_header (hm : m.uplinkDataPlacement = .header) (payload : List Byte)
    (draw : ℕ → ℕ) (r : Request) : (applyUplinkData m payload draw r).header =
      setChunks m (chunkEncoded payload m.uplinkChunkSize draw) 0 r.header := by
  rw [applyUplinkData, hm, setChunks]
  generalize (chunkEncoded payload m.uplinkChunkSize draw).zipIdx = l
  induction l generalizing r with
  | nil => rfl
  | cons p l ih =>
    rw [foldl_cons, ih]
    rfl

/-- The headers `0, 1, 2, …` are the chunks, and the next ones are as they were. -/
lemma get_applyUplinkData (hm : m.uplinkDataPlacement = .header) (payload : List Byte)
    (draw : ℕ → ℕ) (r : Request) (i : ℕ) : Header.get (applyUplinkData m payload draw r).header (dataHeader m i) =
      ((chunkEncoded payload m.uplinkChunkSize draw)[i]?).getD (Header.get r.header (dataHeader m i)) := by
  rw [applyUplinkData_header hm, get_setChunks, if_neg (Nat.not_lt_zero i), Nat.sub_zero]

/-! ### Numbered cookies -/

/-- The cookies of the chunks from number `k` on. -/
def chunkCookies (m : MetaConfig) (chunks : List GoString) (k : ℕ) : List (GoString × GoString) :=
  (chunks.zipIdx k).map fun p => (dataCookie m p.2, p.1)

def addCookies (cs : List (GoString × GoString)) (h : Header) : Header :=
  cs.foldl (fun h c => Header.addCookie h c.1 c.2) h

lemma applyUplinkData_cookie (hm : m.uplinkDataPlacement = .cookie) (payload : List Byte)
    (draw : ℕ → ℕ) (r : Request) : (applyUplinkData m payload draw r).header =
      addCookies (chunkCookies m (chunkEncoded payload m.uplinkChunkSize draw) 0) r.header := by
  rw [applyUplinkData, hm, chunkCookies]
  generalize (chunkEncoded payload m.uplinkChunkSize draw).zipIdx = l
  induction l generalizing r with
  | nil => rfl
  | cons p l ih =>
    rw [foldl_cons, foldl_cons, ih]
    rfl

/-- A cookie whose value is written as it is. -/
def writtenText (c : GoString × GoString) : GoString := sanitizeCookieName c.1 ++ 0x3d :: c.2

lemma addCookies_eq {cs : List (GoString × GoString)} (hne : cs ≠ [])
    (hvalue : ∀ c ∈ cs, sanitizeCookieValue c.2 = c.2) (h : Header) :
    addCookies cs h cookieKey = [cookiesBefore h ++ (ascii "; ").intercalate (cs.map writtenText)] := by
  induction cs generalizing h with
  | nil => exact absurd rfl hne
  | cons c cs ih =>
    obtain ⟨hc, hcs⟩ := forall_mem_cons.1 hvalue
    have htext : cookieText c.1 c.2 = writtenText c := by rw [cookieText, hc, writtenText]
    have hadd : Header.addCookie h c.1 c.2 cookieKey = [cookiesBefore h ++ writtenText c] := by
      rw [addCookie_eq, htext, Header.set, canonicalHeaderKey_cookie, update_self]
    have hfold : addCookies (c :: cs) h = addCookies cs (Header.addCookie h c.1 c.2) := rfl
    rw [hfold]
    cases cs with
    | nil => simpa [addCookies] using hadd
    | cons c' cs =>
      have hbefore : cookiesBefore (Header.addCookie h c.1 c.2) = cookiesBefore h ++ writtenText c ++ ascii "; " := by
        have hget : Header.get (Header.addCookie h c.1 c.2) cookieKey = cookiesBefore h ++ writtenText c := by
          rw [Header.get, canonicalHeaderKey_cookie, hadd]
          rfl
        rw [cookiesBefore, if_pos (by rw [hget]; simp [writtenText]), hget]
      rw [ih (cons_ne_nil _ _) hcs, hbefore, map_cons, map_cons, map_cons, intercalate_cons_cons]
      simp

/-! ### What the chunks consist of -/

section Text

variable {size : IntRange} {draw : ℕ → ℕ} {payload : List Byte}

lemma chunkEncoded_run (payload : List Byte) (size : IntRange) (draw : ℕ → ℕ) :
    ChunkRun size draw 0 (base64RawURL payload) (chunkEncoded payload size draw) :=
  chunkRun_chunkLoop le_rfl

lemma mem_chunk {P : Byte → Prop} (hP : ∀ n < 64, P (base64Char n)) :
    ∀ c ∈ chunkEncoded payload size draw, ∀ b ∈ c, P b := by
  intro c hc b hb
  refine mem_base64RawURL hP (s := payload) ?_
  rw [← (chunkEncoded_run payload size draw).flatten]
  exact mem_flatten_of_mem hc hb

lemma base64Char_valid : ∀ n < 64, validCookieValueByte (base64Char n) = true ∧ base64Char n ≠ 0x20 ∧
    base64Char n ≠ 0x2c := by decide +kernel

lemma sanitizeCookieValue_chunk : ∀ c ∈ chunkEncoded payload size draw, sanitizeCookieValue c = c := by
  intro c hc
  have hall := mem_chunk (P := fun b => validCookieValueByte b = true ∧ b ≠ 0x20 ∧ b ≠ 0x2c) base64Char_valid c hc
  have hfilter : c.filter validCookieValueByte = c := filter_eq_self.2 fun b hb => (hall b hb).1
  have hblank : (c.contains 0x20 || c.contains 0x2c) = false := by
    rw [Bool.or_eq_false_iff]
    exact ⟨by simpa using fun h => (hall _ h).2.1 rfl, by simpa using fun h => (hall _ h).2.2 rfl⟩
  rw [sanitizeCookieValue, hfilter]
  simp only [hblank, Bool.false_eq_true, if_false]

lemma plainCookie_chunk {m : MetaConfig} (hkey : ∀ b ∈ m.uplinkDataKey, isTokenByte b = true) :
    ∀ c ∈ chunkCookies m (chunkEncoded payload size draw) 0, PlainCookie c := by
  intro c hc
  obtain ⟨⟨chunk, i⟩, hmem, rfl⟩ := mem_map.1 hc
  have hchunk : chunk ∈ chunkEncoded payload size draw := fst_mem_of_mem_zipIdx hmem
  have hdigit : ∀ b : Byte, 0x30 ≤ b ∧ b ≤ 0x39 → isTokenByte b = true := by decide
  refine ⟨by simp [dataCookie, ascii], fun b hb => ?_, (chunkEncoded_run _ _ _).ne_nil chunk hchunk, fun b hb => ?_⟩
  · rw [dataCookie, mem_append, mem_append] at hb
    rcases hb with (hb | hb) | hb
    · exact hkey b hb
    · exact (by decide : ∀ b ∈ ascii "_", isTokenByte b = true) b hb
    · exact hdigit b (mem_formatUint hb)
  · have := mem_chunk (P := fun b => validCookieValueByte b = true ∧ b ≠ 0x20 ∧ b ≠ 0x2c) base64Char_valid chunk
      hchunk b hb
    exact ⟨this.1, this.2.1⟩

/-- The cookies of the chunks are read behind those of the line they were added to. -/
lemma readCookies_applyUplinkData (payload : List Byte) (draw : ℕ → ℕ) {m : MetaConfig}
    (hm : m.uplinkDataPlacement = .cookie) (hkey : ∀ b ∈ m.uplinkDataKey, isTokenByte b = true) (r : Request)
    (hne : chunkEncoded payload m.uplinkChunkSize draw ≠ []) :
    readCookies (applyUplinkData m payload draw r).header = cookieParts (Header.get r.header cookieKey) ++
      chunkCookies m (chunkEncoded payload m.uplinkChunkSize draw) 0 := by
  have hplain : ∀ c ∈ chunkCookies m (chunkEncoded payload m.uplinkChunkSize draw) 0, PlainCookie c :=
    plainCookie_chunk hkey
  have hvalue : ∀ c ∈ chunkCookies m (chunkEncoded payload m.uplinkChunkSize draw) 0,
      sanitizeCookieValue c.2 = c.2 := by
    intro c hc
    obtain ⟨p, hp, rfl⟩ := mem_map.1 hc
    exact sanitizeCookieValue_chunk p.1 (fst_mem_of_mem_zipIdx hp)
  have hcs : chunkCookies m (chunkEncoded payload m.uplinkChunkSize draw) 0 ≠ [] := by simpa [chunkCookies] using hne
  rw [applyUplinkData_cookie hm, readCookies_eq]
  generalize chunkCookies m (chunkEncoded payload m.uplinkChunkSize draw) 0 = cs at hplain hvalue hcs
  have htext : cs.map writtenText = cs.map plainText := by
    refine map_congr_left fun c hc => ?_
    have hname : sanitizeCookieName c.1 = c.1 := by
      refine (map_congr_left fun b hb => ?_).trans (map_id _)
      have hspace := ((hplain c hc).name_not_space b hb).1
      simp only [isASCIISpace, decide_eq_false_iff_not, not_or] at hspace
      exact if_neg fun hor => hor.elim hspace.2.2.1 hspace.2.2.2
    rw [writtenText, hname, plainText]
  rw [addCookies_eq hcs hvalue, htext, ← joinCookies, flatMap_singleton, cookiesBefore]
  split
  · have hsep : ascii "; " = [0x3b, 0x20] := by decide
    rw [hsep, append_assoc, cons_append, singleton_append, cookieParts_append,
      cookieParts_cons rfl, cookieParts_join hplain]
  next hget =>
    rw [not_not.1 hget, nil_append, cookieParts_join hplain]
    rfl

end Text

lemma cookieParts_get_subset (h : Header) : ∀ c ∈ cookieParts (Header.get h cookieKey), c ∈ readCookies h := by
  intro c hc
  rw [Header.get, canonicalHeaderKey_cookie] at hc
  rw [readCookies_eq]
  cases hl : h cookieKey with
  | nil =>
    rw [hl] at hc
    cases hc
  | cons line lines =>
    rw [hl] at hc
    exact mem_flatMap.2 ⟨line, mem_cons_self, hc⟩

/-- The value of a cookie, empty when there is none. -/
def cookieValue (cookies : List (GoString × GoString)) (name : GoString) : GoString :=
  ((cookies.find? (·.1 = name)).map Prod.snd).getD []

lemma cookieValue_chunkCookies (m : MetaConfig) (chunks : List GoString) (k i : ℕ) :
    cookieValue (chunkCookies m chunks k) (dataCookie m i) = if i < k then [] else (chunks[i - k]?).getD [] := by
  induction chunks generalizing k with
  | nil => simp [chunkCookies, cookieValue]
  | cons c chunks ih =>
    have hcons : chunkCookies m (c :: chunks) k = (dataCookie m k, c) :: chunkCookies m chunks (k + 1) := rfl
    rw [hcons, cookieValue, find?_cons]
    by_cases hi : k = i
    · subst hi
      simp
    · have hname : dataCookie m k ≠ dataCookie m i := fun heq =>
        hi (formatUint_inj (append_cancel_left heq))
      simp only [decide_eq_false hname]
      rw [← cookieValue, ih]
      rcases lt_or_gt_of_ne hi with hlt | hgt
      · obtain ⟨n, rfl⟩ : ∃ n, i = k + 1 + n := ⟨i - k - 1, by omega⟩
        rw [if_neg (by omega), if_neg (by omega), show k + 1 + n - (k + 1) = n by omega,
          show k + 1 + n - k = n + 1 by omega, getElem?_cons_succ]
      · rw [if_pos (by omega), if_pos hgt]

/-- A numbered cookie of which the request had none is the chunk with the number. -/
lemma cookieValue_applyUplinkData (payload : List Byte) (draw : ℕ → ℕ)
    (hm : m.uplinkDataPlacement = .cookie) (hkey : ∀ b ∈ m.uplinkDataKey, isTokenByte b = true) {r : Request} {i : ℕ}
    (hfree : ∀ c ∈ readCookies r.header, c.1 ≠ dataCookie m i) :
    cookieValue (readCookies (applyUplinkData m payload draw r).header) (dataCookie m i) =
      ((chunkEncoded payload m.uplinkChunkSize draw)[i]?).getD [] := by
  by_cases hne : chunkEncoded payload m.uplinkChunkSize draw = []
  · have hnone : (readCookies r.header).find? (·.1 = dataCookie m i) = none :=
      find?_eq_none.2 fun c hc => by simpa using hfree c hc
    rw [applyUplinkData_cookie hm, hne]
    change cookieValue (readCookies r.header) _ = _
    rw [cookieValue, hnone]
    rfl
  · have hnone : (cookieParts (Header.get r.header cookieKey)).find? (·.1 = dataCookie m i) = none :=
      find?_eq_none.2 fun c hc => by simpa using hfree c (cookieParts_get_subset r.header c hc)
    rw [readCookies_applyUplinkData payload draw hm hkey r hne, cookieValue, find?_append, hnone, none_or,
      ← cookieValue, cookieValue_chunkCookies, if_neg (Nat.not_lt_zero i), Nat.sub_zero]

lemma flatMap_range {chunks : List GoString} {f : ℕ → GoString} (h : ∀ i < chunks.length, f i = (chunks[i]?).getD []) :
    (range chunks.length).flatMap f = chunks.flatten := by
  rw [flatMap_def]
  congr 1
  refine ext_getElem (by simp) fun i h1 h2 => ?_
  simp [h i h2, h2]

/-- What the first `n` numbered cookies of a request decode to. -/
def decodeCookies (m : MetaConfig) (n : ℕ) (r : Request) : Option (List Byte) :=
  decodeRawURL ((List.range n).flatMap fun i => cookieValue (readCookies r.header) (dataCookie m i))

/-- **Uplink chunking is lossless.**  For every range that is accepted, every payload and every draw: the loop ends; no
chunk is empty, together they decode to the payload, and all but the last one have a length in the range.  The numbered
headers, read one after the other, decode to the payload.  The cookies are written behind those the request had, and
read back in this order where the key is a token; looked up by their names they decode to the payload unless the request
had a cookie of such a name. -/
theorem uplink_chunks_lossless {raw raw' : GoString} {placement : Placement} {sc size : IntRange}
    (hsc : parseRangeOr raw' "sc_max_each_post_bytes" ⟨1000000, 1000000⟩ = .ok sc)
    (hsize : resolveUplinkChunkSize raw placement sc = .ok size) (payload : List Byte) (draw : ℕ → ℕ) :
    ∃ chunks, chunkEncoded payload size draw = chunks ∧ ChunkRun size draw 0 (base64RawURL payload) chunks ∧
      (∀ c ∈ chunks, c ≠ []) ∧ decodeRawURL chunks.flatten = some payload ∧
      (∀ c ∈ chunks.dropLast, size.min ≤ c.length ∧ (c.length : ℤ) ≤ size.max) ∧
      ∀ (m : MetaConfig) (r : Request), m.uplinkChunkSize = size →
        (m.uplinkDataPlacement = .header →
          decodeRawURL ((range chunks.length).flatMap fun i =>
            Header.get (applyUplinkData m payload draw r).header (dataHeader m i)) = some payload ∧
          ∀ i ≥ chunks.length, Header.get (applyUplinkData m payload draw r).header (dataHeader m i) =
            Header.get r.header (dataHeader m i)) ∧
        (m.uplinkDataPlacement = .cookie →
          (chunks ≠ [] → (applyUplinkData m payload draw r).header cookieKey =
            [cookiesBefore r.header ++ (ascii "; ").intercalate ((chunkCookies m chunks 0).map writtenText)]) ∧
          ((∀ b ∈ m.uplinkDataKey, isTokenByte b = true) →
            (chunks ≠ [] → readCookies (applyUplinkData m payload draw r).header =
              cookieParts (Header.get r.header cookieKey) ++ chunkCookies m chunks 0) ∧
            ((∀ c ∈ readCookies r.header, ∀ i < chunks.length, c.1 ≠ dataCookie m i) →
              decodeCookies m chunks.length (applyUplinkData m payload draw r) = some payload) ∧
            ∀ i ≥ chunks.length, (∀ c ∈ readCookies r.header, c.1 ≠ dataCookie m i) →
              cookieValue (readCookies (applyUplinkData m payload draw r).header) (dataCookie m i) = [])) := by
  have hwf : size.WF := resolveUplinkChunkSize_wf (parseRangeOr_wf ⟨by decide, by decide, by decide⟩ hsc) hsize
  have hrun := chunkEncoded_run payload size draw
  have hdecode : decodeRawURL (chunkEncoded payload size draw).flatten = some payload := by
    rw [hrun.flatten, decodeRawURL_encode]
  refine ⟨_, rfl, hrun, hrun.ne_nil, hdecode, hrun.inside hwf, fun m r hm => ?_⟩
  subst hm
  refine ⟨fun hplace => ⟨?_, fun i hi => ?_⟩, fun hplace => ⟨fun hne => ?_, fun hkey => ⟨?_, fun hfree => ?_, ?_⟩⟩⟩
  · rw [flatMap_range fun i hi => ?_, hdecode]
    rw [get_applyUplinkData hplace]
    simp [hi]
  · rw [get_applyUplinkData hplace, getElem?_eq_none hi, getD_none]
  · rw [applyUplinkData_cookie hplace, addCookies_eq]
    · simpa [chunkCookies] using hne
    · intro c hc
      obtain ⟨p, hp, rfl⟩ := mem_map.1 hc
      exact sanitizeCookieValue_chunk p.1 (fst_mem_of_mem_zipIdx hp)
  · exact readCookies_applyUplinkData payload draw hplace hkey r
  · rw [decodeCookies, flatMap_range fun i hi => ?_, hdecode]
    exact cookieValue_applyUplinkData payload draw hplace hkey fun c hc => hfree c hc i hi
  · intro i hi hfree
    rw [cookieValue_applyUplinkData payload draw hplace hkey hfree, getElem?_eq_none hi, getD_none]

/-! ### Keys and cookies -/

/-- The session id and the payload in cookies. -/
def cookieConfiguration : MetaConfig where
  sessionPlacement := .cookie
  sessionKey := ascii "x_session"
  seqPlacement := .path
  seqKey := []
  sessionTable := []
  sessionLength := ⟨0, 0⟩
  uplinkDataPlacement := .cookie
  uplinkDataKey := ascii "x_data"
  uplinkChunkSize := ⟨64, 64⟩
  uplinkHTTPMethod := ascii "POST"
  xPaddingObfsMode := false
  xPaddingKey := ascii "x_padding"
  xPaddingHeader := ascii "X-Padding"
  xPaddingPlacement := .queryInHeader
  xPaddingMethod := .repeatX
  scMaxEachPostBytes := ⟨1000000, 1000000⟩
  scMinPostsIntervalMs := ⟨30, 30⟩

/-- A request with its session id and its sequence number, before its payload. -/
def metaRequest (m : MetaConfig) : Request :=
  let url : URL := ⟨ascii "http", ascii "192.0.2.1:80", ascii "/x", []⟩
  applyMeta m ⟨ascii "POST", url, fun _ => [], ascii "example.org", .nil, 0⟩ url.path (ascii "id") (ascii "0")

/-- The cookie of the session id stays beside the three of the payload. -/
theorem uplink_chunks_lossless_cookie :
    readCookies (metaRequest cookieConfiguration).header = [(ascii "x_session", ascii "id")] ∧
      (chunkEncoded (replicate 100 7) ⟨64, 64⟩ fun _ => 0).length = 3 ∧ decodeCookies cookieConfiguration 3
        (applyUplinkData cookieConfiguration (replicate 100 7) (fun _ => 0) (metaRequest cookieConfiguration)) =
      some (replicate 100 7) := by
  have hsc : parseRangeOr [] "sc_max_each_post_bytes" ⟨1000000, 1000000⟩ = .ok ⟨1000000, 1000000⟩ := rfl
  have hsize : resolveUplinkChunkSize (ascii "64") .cookie ⟨1000000, 1000000⟩ = .ok ⟨64, 64⟩ := by decide
  have hread : readCookies (metaRequest cookieConfiguration).header = [(ascii "x_session", ascii "id")] := by
    decide +kernel
  have hlength : (chunkEncoded (replicate 100 7) ⟨64, 64⟩ fun _ => 0).length = 3 := by decide +kernel
  obtain ⟨chunks, rfl, -, -, -, -, h⟩ := uplink_chunks_lossless hsc hsize (replicate 100 7) fun _ => 0
  have hcookie := ((h cookieConfiguration (metaRequest cookieConfiguration) rfl).2 rfl).2 (by decide)
  refine ⟨hread, hlength, hlength ▸ hcookie.2.1 fun c hc i _ heq => ?_⟩
  rw [hread, mem_singleton] at hc
  subst hc
  -- the names differ in their third byte
  exact absurd (congrArg (fun s => s[2]?) heq) (by simp [dataCookie, cookieConfiguration, ascii])

/-- What the numbered cookies of an upload of four bytes decode to. -/
def decodeUpload (opts : MetaOptions) : Except MetaError (Option (List Byte)) :=
  (normalizeMeta id opts .packetUp).map fun m =>
    decodeCookies m (chunkEncoded [1, 2, 3, 4] m.uplinkChunkSize fun _ => 0).length
      (applyUplinkData m [1, 2, 3, 4] (fun _ => 0) (metaRequest m))

def blankOptions : MetaOptions := { uplinkDataPlacement := ascii "cookie", uplinkDataKey := ascii "x data" }

/-- The session id in a cookie with the name of the first chunk. -/
def takenOptions : MetaOptions :=
  { uplinkDataPlacement := ascii "cookie", sessionPlacement := ascii "cookie", sessionKey := ascii "x_data_0" }

/-- **Accepted keys whose cookies are lost.**  A cookie whose name has a blank is skipped by the reader; a session id in
a cookie of the name is read in the place of the chunk. -/
theorem uplink_cookies_lost :
    decodeUpload blankOptions = .ok (some []) ∧ decodeUpload takenOptions = .ok (decodeRawURL (ascii "id")) ∧
      decodeRawURL (ascii "id") ≠ some [1, 2, 3, 4] := by
  decide +kernel

end SingBox.Xhttp
