import SingBox.Awg.Translation

/-!
# Magic headers across the layers

A header is written in the options as text, in a configuration as a JSON number or string (`option/wireguard_awg.go`),
and by the device as text of its own (`device/magic-header.go`).
-/

namespace SingBox.Awg

open SingBox.Lib List

def MagicHeader.genSpec (h : MagicHeader) : GoString :=
  if h.start = h.stop then formatUint h.start.toNat
  else formatUint h.start.toNat ++ 0x2d :: formatUint h.stop.toNat

/-- The JSON library on strings and 32-bit numbers: it reads a decimal number, and printable text that it wrote. -/
structure Json where
  marshal : GoString → Except String GoString
  unmarshalString : GoString → Except String GoString
  unmarshalUint32 : GoString → Except String (BitVec 32)
  reads_number : ∀ v : BitVec 32, unmarshalUint32 (formatUint v.toNat) = .ok v
  reads_text : ∀ s, (∀ b ∈ s, isGraphic b) →
    ∃ data, marshal s = .ok data ∧ data.head? = some 0x22 ∧ unmarshalString data = .ok s

variable {json : Json} {text : GoString} {m : MagicHeader}

def unmarshalJSON (json : Json) (data : GoString) : Except String GoString :=
  if data.head? = some 0x22 then do
    let spec ← json.unmarshalString data
    normalizeMagicHeader spec
  else
    match json.unmarshalUint32 data with
    | .ok value => normalizeMagicHeader (formatUint value.toNat)
    | .error _ => .error "invalid magic header: expected uint32 or \"min-max\" string"

def marshalJSON (json : Json) (h : GoString) : Except String GoString := do
  let normalized ← normalizeMagicHeader h
  if normalized = [] then return ascii "0"
  if !normalized.contains 0x2d then return normalized
  json.marshal normalized

/-! ### The text of a range -/

lemma magicText_genSpec (hz : m.stop.toNat ≠ 0) : magicText m.start.toNat m.stop.toNat = .ok m.genSpec := by
  rw [magicText, if_neg (Nat.not_lt.2 m.le), if_neg hz, MagicHeader.genSpec]
  simp only [BitVec.toNat_inj]
  split <;> rfl

lemma genSpec_byte {b : Byte} (hb : b ∈ m.genSpec) : 0x2d ≤ b ∧ b ≤ 0x39 := by
  have hdigit : ∀ {n : ℕ}, b ∈ formatUint n → 0x2d ≤ b ∧ b ≤ 0x39 := fun h =>
    ⟨BitVec.le_trans (by decide) (mem_formatUint h).1, (mem_formatUint h).2⟩
  unfold MagicHeader.genSpec at hb
  split at hb
  · exact hdigit hb
  · rcases mem_append.1 hb with h | _ | ⟨_, h⟩
    · exact hdigit h
    · decide
    · exact hdigit h

lemma isGraphic_of_mem {b : Byte} (h : 0x2d ≤ b ∧ b ≤ 0x39) : isGraphic b = true :=
  decide_eq_true ⟨BitVec.le_trans (by decide) h.1, BitVec.le_trans h.2 (by decide)⟩

lemma genSpec_ne_nil : m.genSpec ≠ [] := by
  unfold MagicHeader.genSpec
  split
  · exact formatUint_ne_nil _
  · simp

lemma parsePart_format (v : BitVec 32) : parsePart (formatUint v.toNat) = .ok v.toNat := by
  have hg : ∀ b ∈ formatUint v.toNat, isGraphic b := fun b hb =>
    isGraphic_of_mem ⟨BitVec.le_trans (by decide) (mem_formatUint hb).1, (mem_formatUint hb).2⟩
  rw [parsePart, trimSpace_graphic hg, parseUint_format v.isLt]

lemma normalizeMagicHeader_genSpec : normalizeMagicHeader m.genSpec = magicText m.start.toNat m.stop.toNat := by
  have hline : hasLineBreak m.genSpec = false := any_eq_false.2 fun b hb h => by
    have := (genSpec_byte hb).1
    revert this
    rcases Bool.or_eq_true_iff.1 h with h | h <;> rw [of_decide_eq_true h] <;> decide
  rw [normalizeMagicHeader, hline, trimSpace_graphic fun b hb => isGraphic_of_mem (genSpec_byte hb),
    if_neg genSpec_ne_nil, MagicHeader.genSpec]
  by_cases heq : m.start = m.stop
  · rw [if_pos heq, cut_eq_none.2 (formatUint_no_dash _), parsePart_format, ← heq]
    rfl
  · rw [if_neg heq, cut_append (formatUint_no_dash _)]
    dsimp only
    rw [if_neg (formatUint_no_dash _), parsePart_format, parsePart_format]
    rfl

/-- A normalised text survives JSON: the empty one as the number zero, and the others as they are. -/
lemma unmarshal_marshal (h : text = [] ∨ m.stop.toNat ≠ 0 ∧ text = m.genSpec) :
    ∃ data, marshalJSON json text = .ok data ∧ unmarshalJSON json data = .ok text := by
  have hhead : ∀ {v : BitVec 32}, (formatUint v.toNat).head? ≠ some 0x22 := fun h =>
    absurd (mem_formatUint (mem_of_head? h)).1 (by decide)
  rcases h with rfl | ⟨hz, rfl⟩
  · refine ⟨formatUint (0 : BitVec 32).toNat, rfl, ?_⟩
    rw [unmarshalJSON, json.reads_number]
    rfl
  · have hn := normalizeMagicHeader_genSpec.trans (magicText_genSpec hz)
    by_cases heq : m.start = m.stop
    · have hg : m.genSpec = formatUint m.start.toNat := if_pos heq
      refine ⟨m.genSpec, ?_, ?_⟩
      · rw [marshalJSON, hn]
        show ite _ _ _ = _
        rw [if_neg genSpec_ne_nil]
        exact if_pos (by simpa [hg] using formatUint_no_dash _)
      · rw [hg] at hn ⊢
        rw [unmarshalJSON, if_neg hhead, json.reads_number]
        exact hn
    · have hdash : 0x2d ∈ m.genSpec := by simp [MagicHeader.genSpec, heq]
      obtain ⟨data, hdata, hquote, hread⟩ := json.reads_text _ fun b hb => isGraphic_of_mem (genSpec_byte hb)
      refine ⟨data, ?_, ?_⟩
      · rw [marshalJSON, hn]
        show ite _ _ _ = _
        rw [if_neg genSpec_ne_nil]
        exact (if_neg (by simpa using hdash)).trans hdata
      · rw [unmarshalJSON, if_pos hquote, hread]
        exact hn

/-- **Magic headers agree across the layers.**  An accepted option with a normalised text that is not empty: the text
is normal, the device reads it as the range that the option has, and writes it so, and it survives JSON.  The text is
empty exactly for a blank option and for a range that ends in 0, and survives JSON too. -/
theorem magic_header_agree (json : Json) {spec n : GoString} (h : normalizeMagicHeader spec = .ok n) :
    (n = [] ↔ trimSpace spec = [] ∨ ∃ lo, rangeBounds trimSpace (trimSpace spec) = some (lo, 0)) ∧
      (∃ data, marshalJSON json n = .ok data ∧ unmarshalJSON json data = .ok n) ∧
      (n ≠ [] → normalizeMagicHeader n = .ok n ∧ ∃ m, newMagicHeader n = .ok m ∧ m.genSpec = n ∧
        rangeBounds trimSpace (trimSpace spec) = some (m.start.toNat, m.stop.toNat)) := by
  rcases normalizeMagicHeader_cases h with ⟨rfl, hb⟩ | ⟨lo, hi, hb, ht⟩
  · exact ⟨by simp [hb], unmarshal_marshal (m := ⟨0, 0, by decide⟩) (.inl rfl), absurd rfl⟩
  · obtain ⟨hlo, hhi⟩ := rangeBounds_lt hb
    by_cases hne : n = []
    · subst hne
      cases magicText_zero ht
      exact ⟨by simp [hb], unmarshal_marshal (m := ⟨0, 0, by decide⟩) (.inl rfl), absurd rfl⟩
    · obtain ⟨hz, m, hm, rfl, rfl⟩ := newMagicHeader_magicText hlo hhi ht hne
      have hg := magicText_genSpec hz
      cases ht.symm.trans hg
      have hblank : trimSpace spec ≠ [] := fun he => by
        rw [he] at hb
        cases hb
      exact ⟨by simp [hne, hblank, hb, hz], unmarshal_marshal (.inr ⟨hz, rfl⟩),
        fun _ => ⟨normalizeMagicHeader_genSpec.trans hg, m, hm, rfl, hb⟩⟩

/-- A JSON library that writes text between quotes. -/
def quoting : Json where
  marshal s := .ok (0x22 :: s ++ [0x22])
  unmarshalString data := .ok data.tail.dropLast
  unmarshalUint32 data := (parseUint 32 data).toOption.elim (.error "number") fun n => .ok (BitVec.ofNat 32 n)
  reads_number v := by simp [parseUint_format v.isLt, Except.toOption]
  reads_text s _ := ⟨_, rfl, rfl, by simp⟩

theorem magic_header_agree_padded : normalizeMagicHeader (ascii " 007 - 9") = .ok (ascii "7-9") ∧
      ∃ m, newMagicHeader (ascii "7-9") = .ok m ∧ m.genSpec = ascii "7-9" ∧
        rangeBounds trimSpace (trimSpace (ascii " 007 - 9")) = some (m.start.toNat, m.stop.toNat) :=
  have h : normalizeMagicHeader (ascii " 007 - 9") = .ok (ascii "7-9") := by decide +kernel
  ⟨h, ((magic_header_agree quoting h).2.2 (by decide)).2⟩

end SingBox.Awg
