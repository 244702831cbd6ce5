import SingBox.Awg.Options

/-!
# The translation of AmneziaWG options is faithful

The options are read by two layers with parsers of their own: `awgIpcLines` checks and normalises them,
and `handleDeviceLine` parses the lines it wrote.
-/

namespace SingBox.Awg

open SingBox.Lib List Option Except

/-! ### Reading the lines back -/

lemma optionLines_keys (o : AmneziaWGOptions) (i1 i2 : GoString) :
    (optionLines o i1 i2).map Prod.fst = awgKeys.filter fun k => (optionText o i1 i2 k).isSome := by
  unfold optionLines
  induction awgKeys with
  | nil => rfl
  | cons k ks ih =>
    rw [flatMap_cons, map_append, ih, lineOf]
    cases h : optionText o i1 i2 k with
    | none | some v => simp [h]

lemma mem_optionLines {o : AmneziaWGOptions} {i1 i2 v : GoString} {k : DeviceKey} :
    (k, v) ∈ optionLines o i1 i2 ↔ k ∈ awgKeys ∧ optionText o i1 i2 k = some v := by
  simp only [optionLines, mem_flatMap, lineOf, mem_toList, map_eq_some_iff]
  constructor
  · rintro ⟨k, hk, v, hv, ⟨⟩⟩
    exact ⟨hk, hv⟩
  · rintro ⟨hk, hv⟩
    exact ⟨k, hk, v, hv, rfl⟩

lemma lineText_hasLineBreak {p : DeviceKey × GoString} (h : hasLineBreak p.2 = false) :
    hasLineBreak (lineText p) = false := by
  have hname := (name_ok p.1).1
  unfold hasLineBreak at h hname ⊢
  rw [lineText, any_append, any_cons, h, hname]
  rfl

lemma not_mem_of_hasLineBreak {s : GoString} (h : hasLineBreak s = false) : 0x0a ∉ s :=
  fun hm => any_eq_false.1 h _ hm rfl

lemma split_lines : ∀ {ls : List (DeviceKey × GoString)} {a : GoString}, 0x0a ∉ a →
    (∀ p ∈ ls, hasLineBreak p.2 = false) → split 0x0a (a ++ render ls) = a :: ls.map lineText
  | [], a, ha, _ => by
    have hcut : cut 0x0a (a ++ render []) = none := by
      rw [render, flatMap_nil, append_nil, cut_eq_none]
      exact ha
    rw [split_eq_cut, hcut, render, flatMap_nil, append_nil]
    rfl
  | p :: ls, a, ha, hls => by
    have hcut : cut 0x0a (a ++ render (p :: ls)) = some (a, lineText p ++ render ls) := cut_append ha
    have hp := not_mem_of_hasLineBreak (lineText_hasLineBreak (hls p (by simp)))
    rw [split_eq_cut, hcut]
    exact congrArg (a :: ·) (split_lines hp fun q hq => hls q (mem_cons_of_mem _ hq))

lemma split_render {ls : List (DeviceKey × GoString)} (h : ∀ p ∈ ls, hasLineBreak p.2 = false) :
    split 0x0a (render ls) = [] :: ls.map lineText := split_lines (a := []) (by simp) h

lemma cut_lineText (p : DeviceKey × GoString) : cut 0x3d (lineText p) = some (ascii p.1.name, p.2) :=
  cut_append (name_ok p.1).2.1

section

variable {κ : Type}

/-- A device line of a text, on the device and the staged framing. -/
def applyLine (a : Answers) (p : Device κ × IpcSetDevice) (line : GoString) :
    Except IpcError (Device κ × IpcSetDevice) :=
  match cut 0x3d line with
  | none => .error ⟨.protocol, "failed to parse line"⟩
  | some (key, value) => handleDeviceLine a p.1 p.2 key value

def applyLines (a : Answers) (p : Device κ × IpcSetDevice) (lines : List GoString) :
    Except IpcError (Device κ × IpcSetDevice) := lines.foldlM (applyLine a) p

lemma applyLine_lineText (a : Answers) (p : Device κ × IpcSetDevice) (l : DeviceKey × GoString) :
    applyLine a p (lineText l) = handleKey a p.1 p.2 l.2 l.1 := by
  rw [applyLine, cut_lineText]
  dsimp only
  rw [handleDeviceLine, (name_ok l.1).2.2]

/-! ### What a line sets -/

inductive Setting where
  | number (n : ℤ)
  | header (h : Option MagicHeader)
  | packet (c : Option ObfChain)
  | flag (b : Bool)
  | key (k : Option HeaderCipherKey)
  | range (r : UintRange)
  | other

/-- The value a key has on a device with a staged framing. -/
def setting (p : Device κ × IpcSetDevice) : DeviceKey → Setting
  | .jc => .number p.1.junk.count
  | .jmin => .number p.1.junk.min
  | .jmax => .number p.1.junk.max
  | .s t => .number (p.2.paddings t)
  | .h t => .header (p.2.headers t)
  | .i k => .packet (p.1.ipackets k)
  | .randomTrailers => .flag p.1.randomTrailers
  | .disableCookies => .flag p.1.disableCookies
  | .headerProtectionKey => .key p.2.headerProtectionKey
  | .contentPaddingAddition => .range p.1.contentPaddingAddition
  | .rekeyAfterTime => .range p.1.rekeyAfterTimeSec
  | _ => .other

/-- The value a line gives its key. -/
def parseSetting (value : GoString) : DeviceKey → Option Setting
  | .jc | .jmin | .jmax | .s _ => (atoi value).toOption.map .number
  | .h _ => (newMagicHeader value).toOption.map fun h => .header (some h)
  | .i _ => (newObfChain value).toOption.map fun c => .packet (some c)
  | .randomTrailers | .disableCookies => (parseBool value).toOption.map .flag
  | .headerProtectionKey => (loadExactHex value).map fun k => .key (some k)
  | .contentPaddingAddition | .rekeyAfterTime => (UintRange.fromString value).toOption.map .range
  | _ => some .other

lemma orInvalid_ok {ε α : Type} {text : String} {x : Except ε α} {v : α}
    (h : orInvalid text x = .ok v) : x.toOption = some v := by
  cases x with
  | ok w => cases h; rfl
  | error e => cases h

variable {value : GoString} {k : DeviceKey}

lemma parseJunk_ok {n : ℤ} (h : parseJunk k value = .ok n) : (atoi value).toOption = some n := by
  unfold parseJunk at h
  split at h
  · cases h
  next hn =>
    split at h
    · cases h
    · cases h
      rw [hn]
      rfl

lemma parsePadding_ok {n : ℤ} (h : parsePadding k value = .ok n) : (atoi value).toOption = some n := by
  unfold parsePadding at h
  split at h
  · cases h
  next hn =>
    split at h
    · cases h
    · cases h
      rw [hn]
      rfl

/-- **A device line sets the value of its key and no other.** -/
theorem handleKey_setting {a : Answers} {p p' : Device κ × IpcSetDevice} (h : handleKey a p.1 p.2 value k = .ok p') :
    parseSetting value k = some (setting p' k) ∧ ∀ k', k' ≠ k → setting p' k' = setting p k' := by
  cases k with
  | privateKey | replacePeers =>
    simp only [handleKey] at h
    split at h <;> cases h
    exact ⟨rfl, fun _ _ => rfl⟩
  | listenPort | fwmark =>
    obtain ⟨_, -, h⟩ := bind_ok h
    split at h <;> cases h
    exact ⟨rfl, fun _ _ => rfl⟩
  | headerProtectionKey =>
    simp only [handleKey] at h
    split at h <;> cases h
    rename_i k hk
    refine ⟨by rw [parseSetting, hk]; rfl, fun k' hk' => ?_⟩
    cases k' <;> first | rfl | exact absurd rfl hk'
  | jc | jmin | jmax =>
    obtain ⟨n, hn, h⟩ := bind_ok h
    cases h
    refine ⟨by rw [parseSetting, parseJunk_ok hn]; rfl, fun k' hk' => ?_⟩
    cases k' <;> first | rfl | exact absurd rfl hk'
  | s t =>
    obtain ⟨n, hn, h⟩ := bind_ok h
    cases h
    refine ⟨by rw [parseSetting, parsePadding_ok hn]; simp [setting], fun k' hk' => ?_⟩
    cases k' with
    | s u => exact congrArg Setting.number (if_neg fun hu : u = t => hk' (congrArg _ hu))
    | _ => rfl
  | h t =>
    obtain ⟨m, hm, h⟩ := bind_ok h
    cases h
    refine ⟨by rw [parseSetting, orInvalid_ok hm]; simp [setting], fun k' hk' => ?_⟩
    cases k' with
    | h u => exact congrArg Setting.header (if_neg fun hu : u = t => hk' (congrArg _ hu))
    | _ => rfl
  | i j =>
    obtain ⟨c, hc, h⟩ := bind_ok h
    cases h
    refine ⟨by rw [parseSetting, orInvalid_ok hc]; simp [setting], fun k' hk' => ?_⟩
    cases k' with
    | i u => exact congrArg Setting.packet (if_neg fun hu : u = j => hk' (congrArg _ hu))
    | _ => rfl
  | _ =>
    obtain ⟨v, hv, h⟩ := bind_ok h
    cases h
    refine ⟨by rw [parseSetting, orInvalid_ok hv]; rfl, fun k' hk' => ?_⟩
    cases k' <;> first | rfl | exact absurd rfl hk'

/-- Lines with different keys: each sets its key, and a key without a line keeps its value. -/
lemma applyLines_setting {a : Answers} {p' : Device κ × IpcSetDevice} :
    ∀ {ls : List (DeviceKey × GoString)} {p : Device κ × IpcSetDevice}, (ls.map Prod.fst).Nodup →
      applyLines a p (ls.map lineText) = .ok p' →
      p'.1.wire = p.1.wire ∧ (∀ l ∈ ls, parseSetting l.2 l.1 = some (setting p' l.1)) ∧
        ∀ k ∉ ls.map Prod.fst, setting p' k = setting p k
  | [], p, _, h => by
    cases h
    simp
  | l :: ls, p, hnd, h => by
    rw [map_cons, nodup_cons] at hnd
    rw [map_cons, applyLines, foldlM_cons, applyLine_lineText] at h
    obtain ⟨q, hq, h⟩ := bind_ok h
    obtain ⟨hset, hother⟩ := handleKey_setting hq
    obtain ⟨hwire, hls, hrest⟩ := applyLines_setting hnd.2 h
    refine ⟨hwire.trans (handleKey_wire hq), ?_, fun k hk => ?_⟩
    · rintro m (_ | ⟨_, hm⟩)
      · rw [hrest l.1 hnd.1, hset]
      · exact hls m hm
    · simp only [map_cons, mem_cons, not_or] at hk
      rw [hrest k hk.2, hother k hk.1]

/-- **Each option's line sets its key**; without a line the key keeps its value. -/
theorem optionLines_setting {a : Answers} {o : AmneziaWGOptions} {i1 i2 : GoString} {p p' : Device κ × IpcSetDevice}
    (h : applyLines a p ((optionLines o i1 i2).map lineText) = .ok p') (k : DeviceKey) (hk : k ∈ awgKeys) :
    match optionText o i1 i2 k with
    | none => setting p' k = setting p k
    | some v => parseSetting v k = some (setting p' k) := by
  have hkeys := optionLines_keys o i1 i2
  obtain ⟨-, hls, hrest⟩ := applyLines_setting (by rw [hkeys]; exact awgKeys_nodup.filter _) h
  cases hv : optionText o i1 i2 k with
  | none => exact hrest k (by rw [hkeys]; simp [hv])
  | some v => exact hls (k, v) (mem_optionLines.2 ⟨hk, hv⟩)

end

/-! ### What the options denote -/

/-- The bounds of a range written as one number or as two with a dash between them, each after `f`. -/
def rangeBounds (f : GoString → GoString) (text : GoString) : Option (ℕ × ℕ) :=
  let (low, high) := (cut 0x2d text).getD (text, text)
  match parseUint 32 (f low), parseUint 32 (f high) with
  | .ok lo, .ok hi => some (lo, hi)
  | _, _ => none

/-- The range a header option denotes: white space does not matter, and the range `0` is no range. -/
def magicRange (spec : GoString) : Option (ℕ × ℕ) :=
  (rangeBounds trimSpace (trimSpace spec)).filter fun r => r.2 ≠ 0

lemma formatUint_no_dash (n : ℕ) : 0x2d ∉ formatUint n := fun h =>
  absurd (mem_formatUint h).1 (by decide)

lemma parsePart_ok {part : GoString} {n : ℕ} (h : parsePart part = .ok n) : parseUint 32 (trimSpace part) = .ok n := by
  unfold parsePart at h
  split at h
  · cases h
    assumption
  · cases h

lemma parseUint32_format {n : ℕ} (h : n < 2 ^ 32) : parseUint32 (formatUint n) = .ok (BitVec.ofNat 32 n) := by
  rw [parseUint32, parseUint_format h]

lemma toNat_ofNat_of_lt {n : ℕ} (h : n < 2 ^ 32) : (BitVec.ofNat 32 n).toNat = n := by
  rw [BitVec.toNat_ofNat, Nat.mod_eq_of_lt h]

variable {text : GoString}

lemma newMagicHeader_magicText {lo hi : ℕ} (hlo : lo < 2 ^ 32) (hhi : hi < 2 ^ 32)
    (h : magicText lo hi = .ok text) (hne : text ≠ []) :
    hi ≠ 0 ∧ ∃ m, newMagicHeader text = .ok m ∧ m.start.toNat = lo ∧ m.stop.toNat = hi := by
  unfold magicText at h
  split at h
  · cases h
  split at h
  · cases h
    exact absurd rfl hne
  rename_i hz
  refine ⟨hz, ?_⟩
  split at h
  next heq =>
    cases h
    subst heq
    have hcut : cut 0x2d (formatUint lo) = none := cut_eq_none.2 (formatUint_no_dash lo)
    have hsplit : split 0x2d (formatUint lo) = [formatUint lo] := by rw [split_eq_cut, hcut]
    rw [newMagicHeader, parseSpan, hsplit]
    dsimp only
    rw [parseUint32_format hlo]
    exact ⟨_, rfl, toNat_ofNat_of_lt hlo, toNat_ofNat_of_lt hlo⟩
  · cases h
    have hcut : cut 0x2d (formatUint lo ++ 0x2d :: formatUint hi) = some (formatUint lo, formatUint hi) :=
      cut_append (formatUint_no_dash lo)
    have hcut' : cut 0x2d (formatUint hi) = none := cut_eq_none.2 (formatUint_no_dash hi)
    have hsplit : split 0x2d (formatUint lo ++ 0x2d :: formatUint hi) = [formatUint lo, formatUint hi] := by
      rw [split_eq_cut, hcut]
      dsimp only
      rw [split_eq_cut, hcut']
    have hle' : BitVec.ofNat 32 lo ≤ BitVec.ofNat 32 hi := by
      rw [BitVec.le_def, toNat_ofNat_of_lt hlo, toNat_ofNat_of_lt hhi]
      omega
    rw [newMagicHeader, parseSpan, hsplit]
    dsimp only
    rw [parseUint32_format hlo, parseUint32_format hhi]
    refine ⟨⟨_, _, hle'⟩, ?_, toNat_ofNat_of_lt hlo, toNat_ofNat_of_lt hhi⟩
    show Except.map _ (dite _ _ _) = _
    rw [dif_pos hle']
    rfl

lemma magicText_zero {lo hi : ℕ} (h : magicText lo hi = .ok []) : hi = 0 := by
  unfold magicText at h
  split at h
  · cases h
  split at h
  · assumption
  split at h
  · exact absurd (ok.inj h) (formatUint_ne_nil _)
  · simp at h

/-- What a normalised header text comes from: no text at all, or the two bounds. -/
lemma normalizeMagicHeader_cases {spec : GoString} (h : normalizeMagicHeader spec = .ok text) :
    (text = [] ∧ trimSpace spec = []) ∨
      ∃ lo hi, rangeBounds trimSpace (trimSpace spec) = some (lo, hi) ∧ magicText lo hi = .ok text := by
  unfold normalizeMagicHeader at h
  split at h
  · cases h
  split at h
  next hempty =>
    cases h
    exact .inl ⟨rfl, hempty⟩
  right
  split at h
  next hcut =>
    obtain ⟨lo, hlo, h⟩ := bind_ok h
    refine ⟨lo, lo, ?_, h⟩
    rw [rangeBounds, hcut]
    simp only [getD_none, parsePart_ok hlo]
  next part0 part1 hcut =>
    split at h
    · cases h
    obtain ⟨lo, hlo, h⟩ := bind_ok h
    obtain ⟨hi, hhi, h⟩ := bind_ok h
    refine ⟨lo, hi, ?_, h⟩
    rw [rangeBounds, hcut]
    simp only [getD_some, parsePart_ok hlo, parsePart_ok hhi]

lemma rangeBounds_lt {f : GoString → GoString} {lo hi : ℕ}
    (h : rangeBounds f text = some (lo, hi)) : lo < 2 ^ 32 ∧ hi < 2 ^ 32 := by
  unfold rangeBounds at h
  dsimp only at h
  split at h
  next hlo hhi =>
    cases h
    exact ⟨parseUint_lt hlo, parseUint_lt hhi⟩
  · cases h

/-- **The two header parsers agree.**  A normalised text is empty exactly when the option denotes no
range, and otherwise the device reads it as the range of the option. -/
theorem normalizeMagicHeader_reads {spec : GoString} (h : normalizeMagicHeader spec = .ok text) :
    (text = [] → magicRange spec = none) ∧ ∀ m, text ≠ [] → newMagicHeader text = .ok m →
        magicRange spec = some (m.start.toNat, m.stop.toNat) := by
  rcases normalizeMagicHeader_cases h with ⟨rfl, hb⟩ | ⟨lo, hi, hb, ht⟩
  · refine ⟨fun _ => by rw [magicRange, hb]; rfl, fun _ => absurd rfl⟩
  · rw [magicRange, hb]
    refine ⟨fun he => ?_, fun m hne hm => ?_⟩
    · rw [he] at ht
      simp [magicText_zero ht]
    · obtain ⟨hlo, hhi⟩ := rangeBounds_lt hb
      obtain ⟨hz, m', hm', hstart, hstop⟩ := newMagicHeader_magicText hlo hhi ht hne
      rw [hm] at hm'
      cases hm'
      simp [hz, hstart, hstop]

lemma parseUint32_ok {part : GoString} {v : BitVec 32} (h : parseUint32 part = .ok v) :
    parseUint 32 part = .ok v.toNat := by
  unfold parseUint32 at h
  split at h
  next n hn =>
    cases h
    rw [hn, toNat_ofNat_of_lt (parseUint_lt hn)]
  · cases h

lemma parseSpan_bounds {bad : String} {r : { r : BitVec 32 × BitVec 32 // r.1 ≤ r.2 }}
    (h : parseSpan bad text = .ok r) : rangeBounds id text = some (r.1.1.toNat, r.1.2.toNat) := by
  unfold parseSpan at h
  split at h
  next a hsplit =>
    obtain ⟨hcut, rfl⟩ := split_eq_one hsplit
    obtain ⟨lo, hlo, h⟩ := bind_ok h
    cases h
    simp only [rangeBounds, hcut, getD_none, id, parseUint32_ok hlo]
  next a b hsplit =>
    obtain ⟨lo, hlo, h⟩ := bind_ok h
    obtain ⟨hi, hhi, h⟩ := bind_ok h
    split at h
    · cases h
      simp only [rangeBounds, split_eq_two hsplit, getD_some, id, parseUint32_ok hlo, parseUint32_ok hhi]
    · cases h
  · cases h

lemma fromString_bounds {r : UintRange} (h : UintRange.fromString text = .ok r) :
    rangeBounds id text = some (r.lo.toNat, r.hi.toNat) := by
  unfold UintRange.fromString at h
  cases hspan : parseSpan "wrong format" text with
  | error e =>
    rw [hspan] at h
    cases h
  | ok s =>
    rw [hspan] at h
    cases h
    exact parseSpan_bounds hspan

/-- The configuration that options with the packet texts `i1` and `i2` denote. -/
structure Denotes {κ : Type} (o : AmneziaWGOptions) (i1 i2 : GoString) (dev : Device κ) : Prop where
  junk : dev.junk = ⟨o.jc.toNat, o.jmin.toNat, o.jmax.toNat⟩
  paddings : ∀ t, dev.wire.paddings t = (o.s t).toNat
  headers : ∀ t, match magicRange (o.h t) with
    | none => dev.wire.headers t = newWire.headers t
    | some (lo, hi) => ∃ m, dev.wire.headers t = some m ∧ m.start.toNat = lo ∧ m.stop.toNat = hi
  ipackets : ∀ k, if packetText o i1 i2 k = [] then dev.ipackets k = none
    else ∃ c, newObfChain (packetText o i1 i2 k) = .ok c ∧ dev.ipackets k = some c
  randomTrailers : dev.randomTrailers = o.randomTrailers.getD false
  disableCookies : dev.disableCookies = o.disableCookie.getD false
  key : if o.headerProtectionKey = [] then dev.wire.key = none
    else ∃ k, decodeHex o.headerProtectionKey = some k.bytes ∧ dev.wire.key = some k
  contentPaddingAddition : if o.contentPaddingAddition = [] then dev.contentPaddingAddition = {}
    else rangeBounds id o.contentPaddingAddition =
      some (dev.contentPaddingAddition.lo.toNat, dev.contentPaddingAddition.hi.toNat)
  rekeyAfterTime : if o.rekeyAfterTime = [] then dev.rekeyAfterTimeSec = {}
    else rangeBounds id o.rekeyAfterTime =
      some (dev.rekeyAfterTimeSec.lo.toNat, dev.rekeyAfterTimeSec.hi.toNat)

/-- The staged framing at the beginning of an operation on a device. -/
def freshSet {κ : Type} (dev : Device κ) : IpcSetDevice :=
  { paddings := dev.wire.paddings, headerProtectionKey := dev.wire.key }

section

variable {κ : Type} {a : Answers} {o : AmneziaWGOptions} {i1 i2 : GoString} {mtu : ℤ} {p : Device κ × IpcSetDevice}

/-- The lines of the options were accepted by a fresh device. -/
def Accepted (a : Answers) (o : AmneziaWGOptions) (i1 i2 : GoString) (mtu : ℤ) (p : Device κ × IpcSetDevice) : Prop :=
  applyLines a (newDevice κ mtu, freshSet (newDevice κ mtu)) ((optionLines o i1 i2).map lineText) = .ok p

variable {k : DeviceKey}

lemma Accepted.number (h : Accepted a o i1 i2 mtu p) (hk : k ∈ awgKeys) {n : ℤ}
    {value : BitVec 32} (hp : setting p k = .number n)
    (hnew : setting (newDevice κ mtu, freshSet (newDevice κ mtu)) k = .number 0)
    (htext : optionText o i1 i2 k = uintText value)
    (hparse : ∀ v, parseSetting v k = (atoi v).toOption.map .number) : n = value.toNat := by
  have hs := optionLines_setting h k hk
  rw [htext, hp, hnew] at hs
  unfold uintText at hs
  by_cases hz : value = 0
  · rw [if_neg (not_not.2 hz)] at hs
    cases hs
    rw [hz]
    rfl
  · rw [if_pos hz] at hs
    dsimp only at hs
    rw [hparse, atoi_format (by omega)] at hs
    cases hs
    rfl

lemma Accepted.flag (h : Accepted a o i1 i2 mtu p) (hk : k ∈ awgKeys) {b : Bool}
    {value : Option Bool} (hp : setting p k = .flag b)
    (hnew : setting (newDevice κ mtu, freshSet (newDevice κ mtu)) k = .flag false)
    (htext : optionText o i1 i2 k = value.map formatBool)
    (hparse : ∀ v, parseSetting v k = (parseBool v).toOption.map .flag) : b = value.getD false := by
  have hs := optionLines_setting h k hk
  rw [htext, hp, hnew] at hs
  cases value with
  | none =>
    cases hs
    rfl
  | some v =>
    simp only [hparse] at hs
    cases v <;> cases hs <;> rfl

lemma Accepted.range (h : Accepted a o i1 i2 mtu p) (hk : k ∈ awgKeys) {r : UintRange}
    {value : GoString} (hp : setting p k = .range r)
    (hnew : setting (newDevice κ mtu, freshSet (newDevice κ mtu)) k = .range {})
    (htext : optionText o i1 i2 k = strText value)
    (hparse : ∀ v, parseSetting v k = (UintRange.fromString v).toOption.map .range) :
    if value = [] then r = {} else rangeBounds id value = some (r.lo.toNat, r.hi.toNat) := by
  have hs := optionLines_setting h k hk
  rw [htext, hp, hnew] at hs
  unfold strText at hs
  by_cases he : value = []
  · rw [if_neg (not_not.2 he)] at hs
    rw [if_pos he]
    cases hs
    rfl
  · rw [if_pos he] at hs
    rw [if_neg he]
    dsimp only at hs
    rw [hparse] at hs
    cases hr : UintRange.fromString value with
    | error e =>
      rw [hr] at hs
      cases hs
    | ok r' =>
      rw [hr] at hs
      cases hs
      exact fromString_bounds hr

lemma Accepted.header (h : Accepted a o i1 i2 mtu p) (t : MessageType)
    (hok : ∃ text, normalizeMagicHeader (o.h t) = .ok text) : match magicRange (o.h t) with
    | none => p.2.headers t = none
    | some (lo, hi) => ∃ m, p.2.headers t = some m ∧ m.start.toNat = lo ∧ m.stop.toNat = hi := by
  have hs := optionLines_setting h (.h t) (by cases t <;> decide)
  obtain ⟨text, htext⟩ := hok
  obtain ⟨hempty, hread⟩ := normalizeMagicHeader_reads htext
  simp only [optionText, htext, Except.toOption, getD_some, strText] at hs
  by_cases he : text = []
  · rw [if_neg (not_not.2 he)] at hs
    rw [hempty he]
    exact Setting.header.inj hs
  · rw [if_pos he] at hs
    dsimp only [parseSetting] at hs
    cases hm : newMagicHeader text with
    | error e =>
      rw [hm] at hs
      cases hs
    | ok m =>
      rw [hm] at hs
      rw [hread m he hm]
      exact ⟨m, (Setting.header.inj (some.inj hs)).symm, rfl, rfl⟩

lemma Accepted.packet (h : Accepted a o i1 i2 mtu p) (k : Fin 5) :
    if packetText o i1 i2 k = [] then p.1.ipackets k = none
    else ∃ c, newObfChain (packetText o i1 i2 k) = .ok c ∧ p.1.ipackets k = some c := by
  have hs := optionLines_setting h (.i k) (by revert k; decide)
  simp only [optionText, strText] at hs
  by_cases he : packetText o i1 i2 k = []
  · rw [if_neg (not_not.2 he)] at hs
    rw [if_pos he]
    exact Setting.packet.inj hs
  · rw [if_pos he] at hs
    rw [if_neg he]
    dsimp only [parseSetting] at hs
    cases hc : newObfChain (packetText o i1 i2 k) with
    | error e =>
      rw [hc] at hs
      cases hs
    | ok c =>
      rw [hc] at hs
      exact ⟨c, rfl, (Setting.packet.inj (some.inj hs)).symm⟩

lemma loadExactHex_eq_some {src : GoString} {k : HeaderCipherKey} (h : loadExactHex src = some k) :
    decodeHex src = some k.bytes := by
  unfold loadExactHex at h
  split at h
  · cases h
  next bytes hb =>
    split at h
    · cases h
      exact hb
    · cases h

lemma Accepted.key (h : Accepted a o i1 i2 mtu p) : if o.headerProtectionKey = [] then p.2.headerProtectionKey = none
    else ∃ k, decodeHex o.headerProtectionKey = some k.bytes ∧ p.2.headerProtectionKey = some k := by
  have hs := optionLines_setting h .headerProtectionKey (by decide)
  simp only [optionText, strText] at hs
  by_cases he : o.headerProtectionKey = []
  · rw [if_neg (not_not.2 he)] at hs
    rw [if_pos he]
    exact Setting.key.inj hs
  · rw [if_pos he] at hs
    rw [if_neg he]
    obtain ⟨k, hk, hs⟩ := map_eq_some_iff.1 hs
    exact ⟨k, loadExactHex_eq_some hk, (Setting.key.inj hs).symm⟩

/-- **A fresh device that accepted the lines and merged them has the configuration of the options.** -/
theorem Accepted.denotes {d : IpcSetDevice} {w : Wire} (h : Accepted a o i1 i2 mtu p)
    (hok : ∀ t, ∃ text, normalizeMagicHeader (o.h t) = .ok text)
    (hmerge : p.2.mergeWithDevice p.1.wire = .ok (d, w)) : Denotes o i1 i2 { p.1 with wire := w } := by
  obtain ⟨hwire, -⟩ := applyLines_setting (by rw [optionLines_keys]; exact awgKeys_nodup.filter _) h
  obtain ⟨-, -, rfl⟩ := IpcSetDevice.mergeWithDevice_ok hmerge
  have hjc := h.number (k := .jc) (by decide) rfl rfl rfl fun _ => rfl
  have hjmin := h.number (k := .jmin) (by decide) rfl rfl rfl fun _ => rfl
  have hjmax := h.number (k := .jmax) (by decide) rfl rfl rfl fun _ => rfl
  refine ⟨?_, fun t => ?_, fun t => ?_, h.packet, ?_, ?_, h.key, ?_, ?_⟩
  · rw [← hjc, ← hjmin, ← hjmax]
  · exact h.number (k := .s t) (by cases t <;> decide) rfl rfl rfl fun _ => rfl
  · have ht := h.header t (hok t)
    dsimp only [IpcSetDevice.inheritHeaders]
    rw [hwire]
    split at ht
    · rw [ht]
      rfl
    · obtain ⟨m, hm, hb⟩ := ht
      exact ⟨m, by rw [hm]; rfl, hb⟩
  · exact h.flag (k := .randomTrailers) (by decide) rfl rfl rfl fun _ => rfl
  · exact h.flag (k := .disableCookies) (by decide) rfl rfl rfl fun _ => rfl
  · exact h.range (k := .contentPaddingAddition) (by decide) rfl rfl rfl fun _ => rfl
  · exact h.range (k := .rekeyAfterTime) (by decide) rfl rfl rfl fun _ => rfl

end

/-! ### The translation -/

/-- **The translation is faithful.**  A successful translation is a line break before each of its lines; these are the
options that are set, each with a key of its own and the option's value, and no value breaks its line.  When a fresh
device accepts all the lines and the merge succeeds, it has the configuration that the options denote. -/
theorem awgIpcLines_faithful {gen : Generators} {o : AmneziaWGOptions} {out : GoString}
    (h : awgIpcLines gen o = .ok out) :
    ∃ i1 i2 lines, packetValues gen o = .ok (i1, i2) ∧ split 0x0a out = [] :: lines ∧
      lines.map (cut 0x3d) = (optionLines o i1 i2).map (fun p => some (ascii p.1.name, p.2)) ∧
      ((optionLines o i1 i2).map Prod.fst).Nodup ∧
      (∀ k v, (k, v) ∈ optionLines o i1 i2 ↔ k ∈ awgKeys ∧ optionText o i1 i2 k = some v) ∧
      (∀ line ∈ lines, hasLineBreak line = false) ∧
      ∀ (κ : Type) (a : Answers) (mtu : ℤ) (p : Device κ × IpcSetDevice) (d : IpcSetDevice) (w : Wire),
        applyLines a (newDevice κ mtu, freshSet (newDevice κ mtu)) lines = .ok p →
        p.2.mergeWithDevice p.1.wire = .ok (d, w) → Denotes o i1 i2 { p.1 with wire := w } := by
  obtain ⟨i1, i2, hi, rfl, hvalues, hok⟩ := awgIpcLines_render h
  refine ⟨i1, i2, _, hi, split_render hvalues, ?_, ?_, fun k v => mem_optionLines, ?_, ?_⟩
  · rw [List.map_map]
    exact map_congr_left fun p _ => cut_lineText p
  · rw [optionLines_keys]
    exact awgKeys_nodup.filter _
  · intro line hline
    obtain ⟨p, hp, rfl⟩ := mem_map.1 hline
    exact lineText_hasLineBreak (hvalues p hp)
  · intro κ a mtu p d w hlines hmerge
    exact Accepted.denotes hlines hok hmerge

/-- Generators for options without a masquerade protocol. -/
def noGenerators : Generators where
  quic _ _ := .error ""
  stun := .error ""
  dnsHost := []
  dns _ := .error ""
  sipInvite _ := .error ""
  dialogInvite _ := .error ""
  dialogTrying _ := .error ""

/-- Options of every kind. -/
def sampleOptions : AmneziaWGOptions where
  jc := 4
  jmin := 40
  jmax := 70
  s _ := 12
  h t := if t = .initiation then ascii " 5 - 10" else []
  i k := if k.val = 2 then ascii "<r 16>" else []
  headerProtectionKey := List.replicate 64 0x31
  rekeyAfterTime := ascii "100-120"
  disableCookie := some true

theorem awgIpcLines_faithful_sample : ∃ out lines p d w,
    awgIpcLines noGenerators sampleOptions = .ok out ∧ split 0x0a out = [] :: lines ∧
    applyLines {} (newDevice ℕ 1420, freshSet (newDevice ℕ 1420)) lines = .ok p ∧
    p.2.mergeWithDevice p.1.wire = .ok (d, w) ∧ Denotes sampleOptions [] [] ({ p.1 with wire := w } : Device ℕ) := by
  have hout : awgIpcLines noGenerators sampleOptions = .ok (render (optionLines sampleOptions [] [])) := by
    decide +kernel
  obtain ⟨p, d, w, hp, hm⟩ : ∃ p d w,
      applyLines {} (newDevice ℕ 1420, freshSet (newDevice ℕ 1420))
        ((optionLines sampleOptions [] []).map lineText) = .ok p ∧
      p.2.mergeWithDevice p.1.wire = .ok (d, w) := ⟨_, _, _, rfl, rfl⟩
  obtain ⟨i1, i2, lines, hi, hsplit, -, -, -, -, hdenotes⟩ := awgIpcLines_faithful hout
  cases hi
  have hlines : (optionLines sampleOptions [] []).map lineText = lines :=
    (cons.inj ((split_render (by decide +kernel)).symm.trans hsplit)).2
  rw [hlines] at hp
  exact ⟨_, lines, p, d, w, hout, hsplit, hp, hm, hdenotes ℕ {} 1420 p d w hp hm⟩

end SingBox.Awg
