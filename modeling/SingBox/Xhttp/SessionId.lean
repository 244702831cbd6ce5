import Mathlib.Data.Finset.Card
import SingBox.Xhttp.Request

/-!
# The space of session ids

`resolveSessionID` (`transport/v2rayxhttp/meta.go`) accepts an alphabet and a length only if there are at least `2 ^ 31`
ids.  `sessionIDSpaceSufficient` multiplies until that bound is reached: the first product is the size of the alphabet
and every later one has two factors below `2 ^ 31`, so that none overflows and the answer is that of the exact power.
-/

namespace SingBox.Xhttp

open SingBox.Lib List Except

/-! ### The power -/

/-- The products the loop of `sessionIDSpaceSufficient` computes, before they are stored in an `int64`. -/
def sessionIDProducts (size : ℤ) : ℕ → ℤ → List ℤ
  | 0, _ => []
  | n + 1, space =>
    (space * size) :: if minSessionIDSpace ≤ int64 (space * size) then []
      else sessionIDProducts size n (int64 (space * size))

section Power

variable {size space : ℤ}

/-- A product is not too large when it is the first one or the size is below the bound. -/
lemma mul_size_lt (h0 : 1 ≤ space) (hspace : space < 2 ^ 31) (h2 : 2 ≤ size) (hsize : size < 2 ^ 63)
    (hsmall : space = 1 ∨ size < 2 ^ 31) : space * size < 2 ^ 63 := by
  rcases hsmall with rfl | hsmall
  · simpa using hsize
  · have h : space * size ≤ 2 ^ 31 * 2 ^ 31 := mul_le_mul hspace.le hsmall.le (by omega) (by omega)
    omega

lemma size_le_mul (h0 : 1 ≤ space) (h2 : 2 ≤ size) : size ≤ space * size :=
  le_mul_of_one_le_left (by omega) h0

lemma sessionIDSpaceLoop_iff {n : ℕ} (h0 : 1 ≤ space) (hspace : space < 2 ^ 31) (h2 : 2 ≤ size)
    (hsize : size < 2 ^ 63) (hsmall : space = 1 ∨ size < 2 ^ 31) :
    sessionIDSpaceLoop size n space = true ↔ 2 ^ 31 ≤ space * size ^ n := by
  induction n generalizing space with
  | zero => simpa [sessionIDSpaceLoop] using hspace
  | succ n ih =>
    have hlt := mul_size_lt h0 hspace h2 hsize hsmall
    have hle := size_le_mul h0 h2
    have hpow : space * size ^ (n + 1) = space * size * size ^ n := by ring
    rw [sessionIDSpaceLoop, int64_of_mem (by omega) hlt, minSessionIDSpace, hpow]
    by_cases hdone : 2 ^ 31 ≤ space * size
    · have hone : 1 ≤ size ^ n := one_le_pow₀ (by omega)
      rw [if_pos hdone]
      exact iff_of_true rfl (hdone.trans (le_mul_of_one_le_right (by omega) hone))
    · rw [if_neg hdone]
      exact ih (by omega) (by omega) (.inr (by omega))

lemma sessionIDProducts_lt {n : ℕ} (h0 : 1 ≤ space) (hspace : space < 2 ^ 31) (h2 : 2 ≤ size)
    (hsize : size < 2 ^ 63) (hsmall : space = 1 ∨ size < 2 ^ 31) :
    ∀ p ∈ sessionIDProducts size n space, 0 < p ∧ p < 2 ^ 63 := by
  induction n generalizing space with
  | zero => simp [sessionIDProducts]
  | succ n ih =>
    have hlt := mul_size_lt h0 hspace h2 hsize hsmall
    have hle := size_le_mul h0 h2
    rw [sessionIDProducts, int64_of_mem (by omega) hlt, minSessionIDSpace]
    refine forall_mem_cons.2 ⟨⟨by omega, hlt⟩, ?_⟩
    split
    · simp
    · exact ih (by omega) (by omega) (.inr (by omega))

lemma sessionIDSpaceSufficient_iff {length : ℤ} (hsize : size < 2 ^ 63) :
    sessionIDSpaceSufficient size length = true ↔ 2 ≤ size ∧ 2 ^ 31 ≤ size ^ length.toNat := by
  rw [sessionIDSpaceSufficient]
  split
  · simp only [Bool.false_eq_true, false_iff]
    omega
  · rw [sessionIDSpaceLoop_iff le_rfl (by norm_num) (by omega) hsize (.inl rfl), one_mul]
    exact ⟨fun h => ⟨by omega, h⟩, fun h => h.2⟩

end Power

/-! ### The table -/

/-- The characters a table stands for: those of the predefined table of that name, or its own. -/
def namedTable (table : GoString) : GoString :=
  (predefinedSessionTables.lookup (trimSpace table)).getD (trimSpace table)

lemma uniqueTable_spec {unique s table : GoString} (h : uniqueTable unique s = .ok table) (hnodup : unique.Nodup) :
    table.Nodup ∧ (∀ b, b ∈ table ↔ b ∈ unique ∨ b ∈ s) ∧ ∀ b ∈ s, b ≤ 0x7f := by
  induction s generalizing unique with
  | nil =>
    cases h
    simpa using hnodup
  | cons c s ih =>
    rw [uniqueTable] at h
    split at h
    · cases h
    next hc =>
      by_cases hmem : c ∈ unique
      · rw [if_pos (by simpa using hmem)] at h
        obtain ⟨hn, hiff, hascii⟩ := ih h hnodup
        refine ⟨hn, fun b => ?_, forall_mem_cons.2 ⟨BitVec.not_lt.1 hc, hascii⟩⟩
        rw [hiff, mem_cons]
        constructor
        · exact fun hb => hb.imp_right .inr
        · rintro (hb | rfl | hb)
          · exact .inl hb
          · exact .inl hmem
          · exact .inr hb
      · rw [if_neg (by simpa using hmem)] at h
        obtain ⟨hn, hiff, hascii⟩ := ih h (nodup_append.2 ⟨hnodup, nodup_singleton c, by
          intro a ha b hb
          rw [mem_singleton.1 hb]
          exact fun hac => hmem (hac ▸ ha)⟩)
        refine ⟨hn, fun b => ?_, forall_mem_cons.2 ⟨BitVec.not_lt.1 hc, hascii⟩⟩
        rw [hiff, mem_append, mem_singleton, mem_cons, or_assoc]

lemma uniqueTable_total (unique : GoString) {s : GoString} (h : ∀ b ∈ s, b ≤ 0x7f) :
    ∃ table, uniqueTable unique s = .ok table := by
  induction s generalizing unique with
  | nil => exact ⟨unique, rfl⟩
  | cons c s ih =>
    obtain ⟨hc, hs⟩ := forall_mem_cons.1 h
    rw [uniqueTable, if_neg (BitVec.not_lt.2 hc)]
    exact ih _ hs

lemma length_uniqueTable {s table : GoString} (h : uniqueTable [] s = .ok table) : table.length = s.toFinset.card := by
  obtain ⟨hnodup, hiff, -⟩ := uniqueTable_spec h nodup_nil
  have hset : table.toFinset = s.toFinset := by
    ext b
    simpa using hiff b
  rw [← toFinset_card_of_nodup hnodup, hset]

lemma length_lt_of_nodup {table : GoString} (h : table.Nodup) : (table.length : ℤ) < 2 ^ 63 := by
  have hsub : table.map BitVec.toNat ⊆ range (2 ^ 8) := by
    intro n hn
    obtain ⟨b, -, rfl⟩ := mem_map.1 hn
    exact mem_range.2 b.isLt
  have hlen := ((h.map fun _ _ => BitVec.eq_of_toNat_eq).subperm hsub).length_le
  rw [length_map, length_range] at hlen
  omega

/-! ### Resolving -/

lemma resolveSessionID_spec {table length u : GoString} {r : IntRange}
    (h : resolveSessionID table length = .ok (u, r)) (hu : u ≠ []) :
    uniqueTable [] (namedTable table) = .ok u ∧ parseRange (trimSpace length) "session_length" = .ok r ∧ 0 < r.min ∧
      sessionIDSpaceSufficient u.length r.min = true := by
  unfold resolveSessionID at h
  dsimp only at h
  split at h
  · cases h
    exact absurd rfl hu
  split at h
  · cases h
  obtain ⟨t, ht, h⟩ := bind_ok h
  obtain ⟨r', hr, h⟩ := bind_ok h
  split at h
  · cases h
  split at h
  · cases h
  rename_i hmin hspace
  cases h
  cases hp : parseRange (trimSpace length) "session_length" with
  | error e =>
    rw [hp] at hr
    cases hr
  | ok v =>
    rw [hp] at hr
    cases hr
    exact ⟨ht, rfl, by omega, by simpa using hspace⟩

lemma resolveSessionID_eq {table length u : GoString} {r : IntRange} (htable : trimSpace table ≠ [])
    (hlength : trimSpace length ≠ []) (hunique : uniqueTable [] (namedTable table) = .ok u)
    (hr : parseRange (trimSpace length) "session_length" = .ok r) (hmin : 0 < r.min)
    (hspace : sessionIDSpaceSufficient u.length r.min = true) : resolveSessionID table length = .ok (u, r) := by
  rw [namedTable] at hunique
  simp only [resolveSessionID, htable, hlength, hunique, hr, hspace, not_le.2 hmin, bind, Except.bind, pure,
    Except.pure, MetaError.ofRange, if_false, or_self, and_self, not_true_eq_false]

/-! ### Session ids -/

lemma length_newSessionID {m : MetaConfig} (htable : m.sessionTable ≠ []) (hwf : m.sessionLength.WF)
    (hmin : 0 < m.sessionLength.min) (d : SessionDraw) :
    m.sessionLength.min ≤ (newSessionID m d).length ∧ ((newSessionID m d).length : ℤ) ≤ m.sessionLength.max := by
  have hle := hwf.le
  rw [newSessionID, if_neg htable]
  simp only [length_map, length_range]
  split
  · have h0 := Int.emod_nonneg (d.length : ℤ) (show m.sessionLength.max - m.sessionLength.min + 1 ≠ 0 by omega)
    have h1 := Int.emod_lt_of_pos (d.length : ℤ) (show 0 < m.sessionLength.max - m.sessionLength.min + 1 by omega)
    unfold sessionRandomInt
    omega
  · omega

lemma newSessionID_subset {m : MetaConfig} (htable : m.sessionTable ≠ []) (d : SessionDraw) :
    ∀ b ∈ newSessionID m d, b ∈ m.sessionTable := by
  intro b hb
  rw [newSessionID, if_neg htable] at hb
  obtain ⟨i, -, rfl⟩ := mem_map.1 hb
  have hpos : 0 < m.sessionTable.length := length_pos_of_ne_nil htable
  have hlt : (sessionRandomInt m.sessionTable.length (d.index i)).toNat < m.sessionTable.length := by
    have := Int.emod_lt_of_pos (d.index i : ℤ) (show (0 : ℤ) < m.sessionTable.length by omega)
    unfold sessionRandomInt
    omega
  rw [getD_eq_getElem?_getD, getElem?_eq_getElem hlt]
  exact getElem_mem hlt

/-- **The space of session ids.**  A table that is accepted has distinct ASCII characters and yields at least `2 ^ 31`
ids of the least length, and every id is drawn from it with a length in the range; an ASCII table that yields as many is
accepted; and no product overflows. -/
theorem session_id_space : (∀ table length u r, resolveSessionID table length = .ok (u, r) → u ≠ [] →
      u.Nodup ∧ (∀ b ∈ u, b ≤ 0x7f) ∧ (2 ^ 31 : ℤ) ≤ (u.length : ℤ) ^ r.min.toNat ∧
      ∀ (m : MetaConfig) (d : SessionDraw), m.sessionTable = u → m.sessionLength = r →
        (∀ b ∈ newSessionID m d, b ∈ u) ∧ r.min ≤ (newSessionID m d).length ∧ ((newSessionID m d).length : ℤ) ≤ r.max) ∧
    (∀ table length r, (∀ b ∈ namedTable table, b ≤ 0x7f) →
      parseRange (trimSpace length) "session_length" = .ok r → 0 < r.min →
      (2 ^ 31 : ℤ) ≤ ((namedTable table).toFinset.card : ℤ) ^ r.min.toNat →
      ∃ u, resolveSessionID table length = .ok (u, r)) ∧
    (∀ size length : ℤ, 1 < size → size < 2 ^ 63 →
      ∀ p ∈ sessionIDProducts size length.toNat 1, -(2 ^ 63) ≤ p ∧ p < 2 ^ 63) := by
  refine ⟨fun table length u r h hu => ?_, fun table length r hascii hr hmin hspace => ?_,
    fun size length h2 hsize p hp => ?_⟩
  · obtain ⟨hunique, hr, hmin, hspace⟩ := resolveSessionID_spec h hu
    obtain ⟨hnodup, hiff, hascii⟩ := uniqueTable_spec hunique nodup_nil
    refine ⟨hnodup, fun b hb => hascii b (by simpa using (hiff b).1 hb), ?_, fun m d hm hm' => ?_⟩
    · exact ((sessionIDSpaceSufficient_iff (length_lt_of_nodup hnodup)).1 hspace).2
    · subst hm hm'
      exact ⟨newSessionID_subset hu d, length_newSessionID hu (parseRange_wf hr) hmin d⟩
  · obtain ⟨u, hunique⟩ := uniqueTable_total [] hascii
    obtain ⟨hnodup, hiff, -⟩ := uniqueTable_spec hunique nodup_nil
    rw [← length_uniqueTable hunique] at hspace
    have hsize : (2 : ℤ) ≤ u.length := by
      by_contra hlt
      have hpow : (u.length : ℤ) ^ r.min.toNat ≤ 1 := pow_le_one₀ (by omega) (by omega)
      omega
    have htable : trimSpace table ≠ [] := by
      intro hnil
      rw [namedTable, hnil] at hunique
      cases hunique
      simp at hsize
    have hlength : trimSpace length ≠ [] := by
      intro hnil
      rw [hnil] at hr
      cases hr
    exact ⟨u, resolveSessionID_eq htable hlength hunique hr hmin
      ((sessionIDSpaceSufficient_iff (length_lt_of_nodup hnodup)).2 ⟨hsize, hspace⟩)⟩
  · have := sessionIDProducts_lt le_rfl (by norm_num) (by omega) hsize (.inl rfl) p hp
    omega

/-- Eight hexadecimal digits are enough. -/
theorem session_id_space_hex : ∃ u, resolveSessionID (ascii "hex") (ascii "8-12") = .ok (u, ⟨8, 12⟩) :=
  session_id_space.2.1 (ascii "hex") (ascii "8-12") ⟨8, 12⟩ (by decide) rfl (by decide) (by decide)

end SingBox.Xhttp
