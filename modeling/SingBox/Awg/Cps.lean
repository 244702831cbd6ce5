import Mathlib.Algebra.Order.BigOperators.Group.List
import SingBox.Lib.Base64
import SingBox.Lib.Bytes
import SingBox.Awg.Obf

/-!
# Signature packets are written as they were described

`obfChain.Obfuscate` writes the packet of a chain into a buffer (`device/obf.go`, `device/obf_*.go`), and `cpsBuilder`
(`transport/wireguard/masque_awg.go`) makes the text of a chain from bytes and lengths.  A chain that was built is read
back by `newObfChain`, and writes what was added; and whatever text `newObfChain` accepts, it has ended, the packet
fits, and writing it stays inside the buffer.
-/

namespace SingBox.Awg

open SingBox.Lib List

/-! ### Writing a packet -/

def chars52 : GoString := ascii "abcdefghijklmnopqrstuvwxyzABCDEFGHIJKLMNOPQRSTUVWXYZ"

def digits10 : GoString := ascii "0123456789"

/-- Random bytes in `dst[:length]`, each replaced by `f`.  The capacity of `dst` is taken to be its length. -/
def fillWith (f : Byte → Byte) (r : ℕ → Byte) (length : ℤ) (dst : GoString) : Go GoString := do
  let part ← slice dst 0 length
  copyAt dst 0 ((fillRandom r part.length).map f)

/-- The loop of `dataSizeObf.Obfuscate`, from the last byte to the first. -/
def dataSizeLoop : ℕ → ℕ → GoString → Go GoString
  | 0, _, dst => .ok dst
  | i + 1, srcLen, dst =>
    if i < dst.length then dataSizeLoop i (srcLen / 2 ^ 8) (dst.set i (BitVec.ofNat 8 srcLen)) else .error .panic

/-- `Obfuscate` of a tag: the buffer after it.  `now` is the time and `r` are the random bytes. -/
def Obf.obfuscate (now : ℤ) (r : ℕ → Byte) (dst src : GoString) : Obf → Go GoString
  | .bytes content => copyAt dst 0 content
  | .timestamp =>
    if dst.length < 4 then .error .panic else copyAt dst 0 (toBytes 4 (now % 2 ^ 32).toNat)
  | .rand length => fillWith id r length dst
  | .randChar length => fillWith (fun b => chars52.getD (b.toNat % 52) 0) r length dst
  | .randDigits length => fillWith (fun b => digits10.getD (b.toNat % 10) 0) r length dst
  | .data => copyAt dst 0 src
  | .dataString =>
    if dst.length < (base64RawStd src).length then .error .panic else copyAt dst 0 (base64RawStd src)
  | .dataSize length => dataSizeLoop length.toNat src.length dst

/-- The loop of `obfChain.Obfuscate`; the tag `k` has its own time and random bytes. -/
def obfuscateLoop (now : ℕ → ℤ) (r : ℕ → ℕ → Byte) (src : GoString) : List Obf → ℕ → ℤ → GoString → Go GoString
  | [], _, _, dst => .ok dst
  | o :: os, k, written, dst => do
    let part ← slice dst written (written + o.obfuscatedLen src.length)
    let part ← o.obfuscate (now k) (r k) part src
    let dst ← copyAt dst written part
    obfuscateLoop now r src os (k + 1) (written + o.obfuscatedLen src.length) dst

namespace ObfChain

def obfuscate (c : ObfChain) (now : ℕ → ℤ) (r : ℕ → ℕ → Byte) (dst src : GoString) : Go GoString :=
  obfuscateLoop now r src c.obfs 0 0 dst

def obfuscatedLen (c : ObfChain) (n : ℤ) : ℤ := c.obfs.foldl (fun total o => total + o.obfuscatedLen n) 0

end ObfChain

/-! ### The builder -/

structure CpsBuilder where
  parts : List GoString := []

namespace CpsBuilder

def addBytes (c : CpsBuilder) (b : List Byte) : CpsBuilder :=
  if b.length = 0 then c else { parts := c.parts ++ [ascii "<b 0x" ++ encodeHex b ++ ascii ">"] }

def addRand (c : CpsBuilder) (n : ℤ) : CpsBuilder :=
  if n ≤ 0 then c else { parts := c.parts ++ [ascii "<r " ++ formatUint n.toNat ++ ascii ">"] }

def string (c : CpsBuilder) : GoString := c.parts.flatten

end CpsBuilder

inductive CpsCall where
  | addBytes (b : List Byte)
  | addRand (n : ℤ)
  deriving DecidableEq

namespace CpsCall

def run (c : CpsBuilder) : CpsCall → CpsBuilder
  | .addBytes b => c.addBytes b
  | .addRand n => c.addRand n

def length : CpsCall → ℤ
  | .addBytes b => b.length
  | .addRand n => max n 0

end CpsCall

def cpsOf (calls : List CpsCall) : CpsBuilder := calls.foldl CpsCall.run {}

def totalLength (calls : List CpsCall) : ℤ := (calls.map CpsCall.length).sum

/-- What a packet should hold: the bytes that were added, and random bytes where random segments were added.  Calls that
add nothing have no tag, so that `k` counts the others. -/
def written (r : ℕ → ℕ → Byte) : ℕ → List CpsCall → GoString
  | _, [] => []
  | k, .addBytes b :: calls => b ++ written r (if b = [] then k else k + 1) calls
  | k, .addRand n :: calls =>
    if n ≤ 0 then written r k calls else fillRandom (r k) n.toNat ++ written r (k + 1) calls

/-! ### What a tag writes -/

def Obf.output (now : ℤ) (r : ℕ → Byte) (src : GoString) : Obf → GoString
  | .bytes content => content
  | .timestamp => toBytes 4 (now % 2 ^ 32).toNat
  | .rand length => fillRandom r length.toNat
  | .randChar length => (fillRandom r length.toNat).map fun b => chars52.getD (b.toNat % 52) 0
  | .randDigits length => (fillRandom r length.toNat).map fun b => digits10.getD (b.toNat % 10) 0
  | .data => src
  | .dataString => base64RawStd src
  | .dataSize length => toBytes length.toNat src.length

lemma copyAt_all {dst src : GoString} (h : src.length = dst.length) : copyAt dst 0 src = .ok src := by
  have := copyAt_left (c := []) h
  simpa using this

lemma fillWith_eq {f : Byte → Byte} {r : ℕ → Byte} {length : ℤ} {dst : GoString} (h : (dst.length : ℤ) = length) :
    fillWith f r length dst = .ok ((fillRandom r length.toNat).map f) := by
  subst h
  have hslice : slice dst 0 dst.length = .ok dst := by
    have := slice_left (a := dst) (b := []) rfl
    rwa [append_nil] at this
  simp only [fillWith, hslice, bind]
  exact copyAt_all (by simp)

lemma dataSizeLoop_eq {i : ℕ} (srcLen : ℕ) {a b : GoString} (h : a.length = i) :
    dataSizeLoop i srcLen (a ++ b) = .ok (toBytes i srcLen ++ b) := by
  induction i generalizing srcLen a b with
  | zero =>
    rw [length_eq_zero_iff.1 h]
    rfl
  | succ i ih =>
    obtain ⟨a, x, rfl⟩ := eq_nil_or_concat' a |>.resolve_left (by rintro rfl; simp at h)
    have hlen : a.length = i := by simpa using h
    have hset : (a ++ [x] ++ b).set i (BitVec.ofNat 8 srcLen) = a ++ BitVec.ofNat 8 srcLen :: b := by
      rw [← hlen, append_assoc]
      simp
    rw [dataSizeLoop, if_pos (by simp; omega), hset, ih _ hlen, toBytes]
    simp

section Output

variable {now : ℤ} {r : ℕ → Byte} {src : GoString} {o : Obf}

lemma Obf.length_output (now : ℤ) (r : ℕ → Byte) (src : GoString) (h : 0 ≤ o.obfuscatedLen 0) :
    ((o.output now r src).length : ℤ) = o.obfuscatedLen src.length := by
  cases o with
  | bytes content | data => rfl
  | timestamp => rw [output, length_toBytes, obfuscatedLen]; rfl
  | rand length | randChar length | randDigits length | dataSize length => simpa [output, obfuscatedLen] using h
  | dataString =>
    rw [output, length_base64RawStd, obfuscatedLen]
    rfl

lemma Obf.obfuscate_eq (h : 0 ≤ o.obfuscatedLen 0) {dst : GoString}
    (hdst : (dst.length : ℤ) = o.obfuscatedLen src.length) : o.obfuscate now r dst src = .ok (o.output now r src) := by
  have hlen : (o.output now r src).length = dst.length := by
    have := Obf.length_output now r src h
    omega
  cases o with
  | bytes content | data => exact copyAt_all hlen
  | timestamp =>
    rw [obfuscate, if_neg (by rw [← hlen, output, length_toBytes]; omega)]
    exact copyAt_all hlen
  | rand length =>
    have h := fillWith_eq (f := id) (r := r) hdst
    rwa [map_id] at h
  | randChar length | randDigits length => exact fillWith_eq hdst
  | dataString =>
    rw [obfuscate, if_neg (by rw [← hlen, output]; omega)]
    exact copyAt_all hlen
  | dataSize length =>
    have hn : dst.length = length.toNat := by
      rw [← hlen]
      simp [output]
    have := dataSizeLoop_eq src.length (b := []) hn
    simpa [obfuscate, output] using this

end Output

/-! ### What a chain writes -/

section Chain

variable {now : ℕ → ℤ} {r : ℕ → ℕ → Byte} {src : GoString}

def outputs (now : ℕ → ℤ) (r : ℕ → ℕ → Byte) (src : GoString) : ℕ → List Obf → GoString
  | _, [] => []
  | k, o :: os => o.output (now k) (r k) src ++ outputs now r src (k + 1) os

lemma obfuscateLoop_eq (now : ℕ → ℤ) (r : ℕ → ℕ → Byte) (src : GoString) {os : List Obf}
    (hos : ∀ o ∈ os, 0 ≤ o.obfuscatedLen 0) {k : ℕ} {a b c : GoString}
    (hb : (b.length : ℤ) = (os.map (Obf.obfuscatedLen src.length)).sum) :
    obfuscateLoop now r src os k a.length (a ++ b ++ c) = .ok (a ++ outputs now r src k os ++ c) := by
  induction os generalizing k a b with
  | nil =>
    obtain rfl : b = [] := by simpa using hb
    rfl
  | cons o os ih =>
    obtain ⟨ho, hos⟩ := forall_mem_cons.1 hos
    have hout := Obf.length_output (now k) (r k) src ho
    have hrest : 0 ≤ (os.map (Obf.obfuscatedLen src.length)).sum := by
      refine sum_nonneg fun x hx => ?_
      obtain ⟨o', ho', rfl⟩ := mem_map.1 hx
      have := Obf.length_output (now k) (r k) src (hos o' ho')
      omega
    rw [map_cons, sum_cons] at hb
    -- the part of the buffer this tag fills, and what is left for the others
    obtain ⟨b₁, b₂, rfl, hb₁⟩ : ∃ b₁ b₂, b = b₁ ++ b₂ ∧ b₁.length = (o.output (now k) (r k) src).length :=
      ⟨b.take (o.output (now k) (r k) src).length, b.drop (o.output (now k) (r k) src).length, by simp,
        by rw [length_take]; omega⟩
    have hpart : (b₁.length : ℤ) = o.obfuscatedLen src.length := by omega
    have hslice : slice (a ++ (b₁ ++ b₂) ++ c) a.length (a.length + o.obfuscatedLen src.length) = .ok b₁ := by
      rw [← hpart, ← append_assoc, append_assoc _ b₂]
      exact slice_append rfl rfl
    have hcopy : copyAt (a ++ (b₁ ++ b₂) ++ c) a.length (o.output (now k) (r k) src) =
        .ok (a ++ o.output (now k) (r k) src ++ b₂ ++ c) := by
      rw [← append_assoc, append_assoc _ b₂, append_assoc _ b₂]
      exact copyAt_append rfl hb₁.symm
    have hlen : (a.length : ℤ) + o.obfuscatedLen src.length = ((a ++ o.output (now k) (r k) src).length : ℕ) := by
      rw [length_append]
      omega
    simp only [obfuscateLoop, hslice, Obf.obfuscate_eq ho hpart, hcopy, bind, Except.bind]
    rw [hlen, ih hos (by rw [length_append] at hb; push_cast at hb; omega), outputs]
    simp

lemma ObfChain.obfuscatedLen_eq (c : ObfChain) (n : ℤ) :
    c.obfuscatedLen n = (c.obfs.map (Obf.obfuscatedLen n)).sum := by
  rw [obfuscatedLen, sum_eq_foldl, foldl_map]

end Chain

/-! ### Reading a chain ends -/

structure ScanState where
  remaining : GoString
  total : ℤ := 0
  obfs : List Obf := []
  errs : List ObfError := []

/-- One round of the loop: the result, or the variables of the next round. -/
def obfRound (s : ScanState) : Except (List ObfError) (List Obf) ⊕ ScanState :=
  match cut 0x3c s.remaining with
  | none => .inl (if s.errs = [] then .ok s.obfs else .error s.errs)
  | some (_, tagAndRest) =>
    match cut 0x3e tagAndRest with
    | none => .inl (.error [.missingClose])
    | some (tag, rest) =>
      match parseTag tag with
      | .error e => .inr { s with remaining := rest, errs := s.errs ++ [e] }
      | .ok o =>
        if o.obfuscatedLen 0 < 0 ∨ o.obfuscatedLen 0 > awgMaxPacketSize - s.total then .inl (.error [.tooLong])
        else .inr { s with remaining := rest, total := s.total + o.obfuscatedLen 0, obfs := s.obfs ++ [o] }

/-- The loop ends with a result after some rounds. -/
inductive Scans : ScanState → Except (List ObfError) (List Obf) → Prop
  | stop {s : ScanState} {res} : obfRound s = .inl res → Scans s res
  | next {s s' : ScanState} {res} : obfRound s = .inr s' → Scans s' res → Scans s res

lemma obfLoop_succ (fuel : ℕ) (s : ScanState) : obfLoop (fuel + 1) s.remaining s.total s.obfs s.errs =
    match obfRound s with
    | .inl res => res
    | .inr s' => obfLoop fuel s'.remaining s'.total s'.obfs s'.errs := by
  rw [obfLoop, obfRound]
  cases cut 0x3c s.remaining with
  | none => rfl
  | some p =>
    dsimp only
    cases cut 0x3e p.2 with
    | none => rfl
    | some q =>
      dsimp only
      cases parseTag q.1 with
      | error e => rfl
      | ok o =>
        dsimp only
        split <;> rfl

lemma length_obfRound {s s' : ScanState} (h : obfRound s = .inr s') : s'.remaining.length < s.remaining.length := by
  unfold obfRound at h
  cases hcut : cut 0x3c s.remaining with
  | none =>
    rw [hcut] at h
    cases h
  | some p =>
    obtain ⟨before, tagAndRest⟩ := p
    simp only [hcut] at h
    cases hcut' : cut 0x3e tagAndRest with
    | none =>
      rw [hcut'] at h
      cases h
    | some q =>
      obtain ⟨tag, rest⟩ := q
      simp only [hcut'] at h
      have hlen : rest.length < s.remaining.length := by
        rw [(cut_eq_some hcut).1, (cut_eq_some hcut').1]
        simp only [length_append, length_cons]
        omega
      cases htag : parseTag tag with
      | error e =>
        simp only [htag, Sum.inr.injEq] at h
        rw [← h]
        exact hlen
      | ok o =>
        simp only [htag] at h
        split at h
        · cases h
        · rw [Sum.inr.injEq] at h
          rw [← h]
          exact hlen

variable {fuel : ℕ}

lemma scans_obfLoop {s : ScanState} (h : s.remaining.length ≤ fuel) :
    Scans s (obfLoop fuel s.remaining s.total s.obfs s.errs) := by
  induction fuel generalizing s with
  | zero =>
    have hnil : s.remaining = [] := length_eq_zero_iff.1 (by omega)
    exact .stop (by rw [obfRound, hnil]; rfl)
  | succ fuel ih =>
    rw [obfLoop_succ]
    cases hround : obfRound s with
    | inl res => exact .stop hround
    | inr s' =>
      have := length_obfRound hround
      exact .next hround (ih (by omega))

/-! ### What is accepted fits -/

/-- A chain whose tags have lengths that fit a packet. -/
structure Fits (obfs : List Obf) : Prop where
  nonneg : ∀ o ∈ obfs, 0 ≤ o.obfuscatedLen 0
  le : (obfs.map (Obf.obfuscatedLen 0)).sum ≤ awgMaxPacketSize

lemma obfLoop_fits {remaining : GoString} {obfs res : List Obf} {errs : List ObfError} (hfits : Fits obfs)
    (h : obfLoop fuel remaining (obfs.map (Obf.obfuscatedLen 0)).sum obfs errs = .ok res) : Fits res := by
  have hend : ∀ {obfs : List Obf} {errs : List ObfError}, Fits obfs →
      (if errs = [] then .ok obfs else .error errs : Except (List ObfError) (List Obf)) = .ok res → Fits res := by
    intro obfs errs hfits h
    split at h
    · cases h
      exact hfits
    · cases h
  induction fuel generalizing remaining obfs errs with
  | zero => exact hend hfits h
  | succ fuel ih =>
    rw [obfLoop] at h
    split at h
    · exact hend hfits h
    · split at h
      · cases h
      · split at h
        · exact ih hfits h
        next o _ =>
          split at h
          · cases h
          next hlen =>
            push Not at hlen
            have hsum : ((obfs ++ [o]).map (Obf.obfuscatedLen 0)).sum =
                (obfs.map (Obf.obfuscatedLen 0)).sum + o.obfuscatedLen 0 := by simp
            rw [← hsum] at h
            refine ih ⟨?_, by rw [hsum]; omega⟩ h
            intro o' ho'
            rcases mem_append.1 ho' with ho' | ho'
            · exact hfits.nonneg o' ho'
            · rw [mem_singleton.1 ho']
              exact hlen.1

lemma newObfChain_fits {spec : GoString} {chain : ObfChain} (h : newObfChain spec = .ok chain) : Fits chain.obfs := by
  unfold newObfChain at h
  cases hloop : obfLoop spec.length spec 0 [] [] with
  | error e => simp [hloop, Except.map] at h
  | ok obfs =>
    simp only [hloop, Except.map, Except.ok.injEq] at h
    rw [← h]
    have hnil : Fits [] := ⟨by simp, by simp; decide⟩
    exact obfLoop_fits hnil hloop

/-! ### What was built is read back -/

namespace CpsCall

/-- The text of a call, empty for a call that adds nothing. -/
def text : CpsCall → GoString
  | .addBytes b => if b = [] then [] else ascii "<b 0x" ++ encodeHex b ++ ascii ">"
  | .addRand n => if n ≤ 0 then [] else ascii "<r " ++ formatUint n.toNat ++ ascii ">"

def obf? : CpsCall → Option Obf
  | .addBytes b => if b = [] then none else some (.bytes b)
  | .addRand n => if n ≤ 0 then none else some (.rand n)

end CpsCall

variable (calls : List CpsCall)

attribute [local simp] CpsCall.text

lemma cpsOf_string : (cpsOf calls).string = calls.flatMap CpsCall.text := by
  have hrun : ∀ (c : CpsBuilder), (calls.foldl CpsCall.run c).string = c.string ++ calls.flatMap CpsCall.text := by
    induction calls with
    | nil => simp
    | cons call calls ih =>
      intro c
      have hcall : (CpsCall.run c call).string = c.string ++ call.text := by
        cases call with
        | addBytes b =>
          by_cases hb : b = []
          · simp [CpsCall.run, CpsBuilder.addBytes, hb]
          · simp [CpsCall.run, CpsBuilder.addBytes, CpsBuilder.string, hb]
        | addRand n =>
          by_cases hn : n ≤ 0
          · simp [CpsCall.run, CpsBuilder.addRand, hn]
          · simp [CpsCall.run, CpsBuilder.addRand, CpsBuilder.string, hn]
      rw [foldl_cons, ih, hcall, flatMap_cons, append_assoc]
  exact hrun {}

lemma isGraphic_encodeHex {s : List Byte} : ∀ b ∈ encodeHex s, isGraphic b :=
  fun _ => mem_encodeHex (P := fun b => isGraphic b) (by decide)

lemma isGraphic_formatUint {n : ℕ} : ∀ b ∈ formatUint n, isGraphic b := by
  have hdigit : ∀ b : Byte, 0x30 ≤ b ∧ b ≤ 0x39 → isGraphic b := by decide
  exact fun b h => hdigit b (mem_formatUint h)

lemma parseTag_bytes {b : List Byte} (hb : b ≠ []) (hlen : (b.length : ℤ) ≤ awgMaxPacketSize) :
    parseTag (ascii "b 0x" ++ encodeHex b) = .ok (.bytes b) := by
  have hfields : fields (ascii "b 0x" ++ encodeHex b) = [ascii "b", ascii "0x" ++ encodeHex b] := by
    refine fields_two (a := ascii "b") (by decide) (fun c hc => ?_) (by decide) (by simp)
    rcases mem_append.1 hc with hc | hc
    · exact (by decide : ∀ c ∈ ascii "0x", isGraphic c) c hc
    · exact isGraphic_encodeHex c hc
  have htrim : trimHexMark (ascii "0x" ++ encodeHex b) = encodeHex b := by
    rfl
  have hpos : b.length ≠ 0 := by simpa using hb
  have hbuild : newBytesObf (ascii "0x" ++ encodeHex b) = .ok (.bytes b) := by
    simp only [newBytesObf, htrim, length_encodeHex, decodeHex_encodeHex]
    rw [if_neg (by omega), if_neg (by omega), if_neg (by omega)]
  simp [parseTag, hfields, obfBuilder, hbuild]

lemma parseTag_rand {n : ℕ} (hlen : (n : ℤ) ≤ awgMaxPacketSize) :
    parseTag (ascii "r " ++ formatUint n) = .ok (.rand n) := by
  have hfields : fields (ascii "r " ++ formatUint n) = [ascii "r", formatUint n] :=
    fields_two (a := ascii "r") (by decide) isGraphic_formatUint (by decide) (formatUint_ne_nil n)
  have hmax : awgMaxPacketSize = 65507 := rfl
  have hparse : parseCPSLength (formatUint n) = .ok (n : ℤ) := by
    simp only [parseCPSLength, atoi_format (n := n) (by omega)]
    rw [if_neg (by omega)]
  have hkey : ascii "r" ≠ ascii "b" ∧ ascii "r" ≠ ascii "t" := by decide
  simp [parseTag, hfields, obfBuilder, hkey, hparse, Except.map]

lemma obfLoop_tag {tag rest : GoString} {total : ℤ} {obfs : List Obf} {errs : List ObfError} {o : Obf}
    (htag : parseTag tag = .ok o) (hclose : 0x3e ∉ tag) (h0 : 0 ≤ o.obfuscatedLen 0)
    (hfit : total + o.obfuscatedLen 0 ≤ awgMaxPacketSize) :
    obfLoop (fuel + 1) (0x3c :: tag ++ 0x3e :: rest) total obfs errs =
      obfLoop fuel rest (total + o.obfuscatedLen 0) (obfs ++ [o]) errs := by
  have hopen : cut 0x3c (0x3c :: tag ++ 0x3e :: rest) = some ([], tag ++ 0x3e :: rest) :=
    cut_append (a := []) (by simp)
  rw [obfLoop, hopen]
  simp only [cut_append hclose, htag]
  rw [if_neg (by omega)]

lemma not_close_of_graphic {tag a b : GoString} (ha : 0x3e ∉ a) (hb : 0x3e ∉ b) (h : tag = a ++ b) : 0x3e ∉ tag := by
  rw [h, mem_append]
  exact fun hc => hc.elim ha hb

lemma totalLength_nonneg : 0 ≤ totalLength calls := by
  refine sum_nonneg fun x hx => ?_
  obtain ⟨call, -, rfl⟩ := mem_map.1 hx
  cases call with
  | addBytes b => exact Int.natCast_nonneg _
  | addRand n => exact le_max_right _ _

lemma totalLength_cons (call : CpsCall) (calls : List CpsCall) :
    totalLength (call :: calls) = call.length + totalLength calls := by
  simp [totalLength]

lemma obfLoop_calls (total : ℤ) (obfs : List Obf)
    (hfuel : (calls.flatMap CpsCall.text).length ≤ fuel) (htotal : total + totalLength calls ≤ awgMaxPacketSize)
    (h0 : 0 ≤ total) :
    obfLoop fuel (calls.flatMap CpsCall.text) total obfs [] = .ok (obfs ++ calls.filterMap CpsCall.obf?) := by
  induction calls generalizing fuel total obfs with
  | nil => cases fuel <;> simp [obfLoop, cut]
  | cons call calls ih =>
    have hrest := totalLength_nonneg calls
    have hcall : 0 ≤ call.length := by simpa [totalLength] using totalLength_nonneg [call]
    rw [totalLength_cons] at htotal
    -- a call with a tag
    have htagged : ∀ (tag : GoString) (o : Obf), call.text = 0x3c :: tag ++ [0x3e] → call.obf? = some o →
        parseTag tag = .ok o → 0x3e ∉ tag → o.obfuscatedLen 0 = call.length →
        obfLoop fuel ((call :: calls).flatMap CpsCall.text) total obfs [] =
          .ok (obfs ++ (call :: calls).filterMap CpsCall.obf?) := by
      intro tag o htext hobf htag hclose hlen
      rw [flatMap_cons, htext] at hfuel ⊢
      simp only [length_append, length_cons] at hfuel
      obtain ⟨fuel, rfl⟩ : ∃ n, fuel = n + 1 := ⟨fuel - 1, by omega⟩
      rw [append_assoc, singleton_append, obfLoop_tag htag hclose (by omega) (by omega),
        ih _ _ (by omega) (by omega) (by omega), filterMap_cons_some hobf, append_assoc,
        singleton_append]
    have hskip : call.text = [] → call.obf? = none →
        obfLoop fuel ((call :: calls).flatMap CpsCall.text) total obfs [] =
          .ok (obfs ++ (call :: calls).filterMap CpsCall.obf?) := by
      intro htext hobf
      rw [flatMap_cons, htext, nil_append] at hfuel ⊢
      rw [ih _ _ hfuel (by omega) h0, filterMap_cons_none hobf]
    cases call with
    | addBytes b =>
      by_cases hb : b = []
      · exact hskip (by simp [hb]) (by simp [CpsCall.obf?, hb])
      · simp only [CpsCall.length] at htotal
        refine htagged (ascii "b 0x" ++ encodeHex b) (.bytes b) ?_ (by simp [CpsCall.obf?, hb])
          (parseTag_bytes hb (by omega)) ?_ rfl
        · rw [CpsCall.text, if_neg hb]
          rfl
        · have hhex : ∀ n < 16, lowerHex n ≠ 0x3e := by decide
          exact not_close_of_graphic (by decide) (fun h => mem_encodeHex (P := (· ≠ 0x3e)) hhex h rfl) rfl
    | addRand n =>
      by_cases hn : n ≤ 0
      · exact hskip (by simp [hn]) (by simp [CpsCall.obf?, hn])
      · have hlen : (CpsCall.addRand n).length = n := max_eq_left (by omega)
        refine htagged (ascii "r " ++ formatUint n.toNat) (.rand n) ?_ (by simp [CpsCall.obf?, hn]) ?_ ?_ hlen.symm
        · rw [CpsCall.text, if_neg hn]
          rfl
        · have := parseTag_rand (n := n.toNat) (by omega)
          rwa [Int.toNat_of_nonneg (by omega)] at this
        · exact not_close_of_graphic (by decide) (fun h => absurd (mem_formatUint h).2 (by decide)) rfl

lemma written_eq_outputs (now : ℕ → ℤ) (r : ℕ → ℕ → Byte) (src : GoString) (k : ℕ) (calls : List CpsCall) :
    written r k calls = outputs now r src k (calls.filterMap CpsCall.obf?) := by
  induction calls generalizing k with
  | nil => rfl
  | cons call calls ih =>
    cases call with
    | addBytes b =>
      by_cases hb : b = []
      · rw [filterMap_cons_none (by simp [CpsCall.obf?, hb]), written, hb, nil_append, if_pos rfl, ih]
      · rw [filterMap_cons_some (b := .bytes b) (by simp [CpsCall.obf?, hb]), written, if_neg hb, ih]
        rfl
    | addRand n =>
      by_cases hn : n ≤ 0
      · rw [filterMap_cons_none (by simp [CpsCall.obf?, hn]), written, if_pos hn, ih]
      · rw [filterMap_cons_some (b := .rand n) (by simp [CpsCall.obf?, hn]), written, if_neg hn, ih]
        rfl

lemma sum_obfuscatedLen (n : ℤ) (calls : List CpsCall) :
    ((calls.filterMap CpsCall.obf?).map (Obf.obfuscatedLen n)).sum = totalLength calls := by
  induction calls with
  | nil => rfl
  | cons call calls ih =>
    rw [totalLength_cons]
    cases call with
    | addBytes b =>
      by_cases hb : b = []
      · rw [filterMap_cons_none (by simp [CpsCall.obf?, hb]), ih, hb]
        simp [CpsCall.length]
      · rw [filterMap_cons_some (b := .bytes b) (by simp [CpsCall.obf?, hb]), map_cons, sum_cons, ih]
        rfl
    | addRand m =>
      by_cases hm : m ≤ 0
      · rw [filterMap_cons_none (by simp [CpsCall.obf?, hm]), ih, CpsCall.length, max_eq_right hm, zero_add]
      · rw [filterMap_cons_some (b := .rand m) (by simp [CpsCall.obf?, hm]), map_cons, sum_cons, ih,
          CpsCall.length, max_eq_left (by omega)]
        rfl

/-- **The builder and the device agree.**  The text of any calls that fit a packet is accepted, has the length of what
was added, and writes it.  Reading any text ends; and a chain that is accepted fits a packet and is written into a
buffer of its length without an access out of range. -/
theorem cps_agrees :
    (∀ calls, totalLength calls ≤ awgMaxPacketSize → ∃ chain, newObfChain (cpsOf calls).string = .ok chain ∧
      chain.obfuscatedLen 0 = totalLength calls ∧ ∀ now r src dst, totalLength calls ≤ dst.length →
        chain.obfuscate now r dst src = .ok (written r 0 calls ++ dst.drop (totalLength calls).toNat)) ∧
    (∀ spec, (∃ res, Scans { remaining := spec } res ∧ newObfChain spec = res.map (ObfChain.mk spec)) ∧
      ∀ chain, newObfChain spec = .ok chain → chain.obfuscatedLen 0 ≤ awgMaxPacketSize ∧
        ∀ now r dst, (dst.length : ℤ) = chain.obfuscatedLen 0 → ∃ out, chain.obfuscate now r dst [] = .ok out) := by
  constructor
  · intro calls hcalls
    set chain : ObfChain := ⟨(cpsOf calls).string, calls.filterMap CpsCall.obf?⟩ with hchain
    have hread : newObfChain (cpsOf calls).string = .ok chain := by
      have hloop := obfLoop_calls calls 0 [] le_rfl (by omega) le_rfl
      rw [← cpsOf_string] at hloop
      rw [newObfChain, hloop]
      rfl
    have hfits := newObfChain_fits hread
    refine ⟨chain, hread, by rw [ObfChain.obfuscatedLen_eq, sum_obfuscatedLen], ?_⟩
    intro now r src dst hdst
    have h0 := totalLength_nonneg calls
    have h := obfuscateLoop_eq now r src hfits.nonneg (k := 0) (a := [])
      (b := dst.take (totalLength calls).toNat) (c := dst.drop (totalLength calls).toNat)
      (by rw [sum_obfuscatedLen, length_take]; omega)
    rw [nil_append, take_append_drop, ← written_eq_outputs] at h
    exact h
  · intro spec
    refine ⟨⟨_, scans_obfLoop le_rfl, rfl⟩, fun chain hchain => ?_⟩
    have hfits := newObfChain_fits hchain
    refine ⟨by rw [ObfChain.obfuscatedLen_eq]; exact hfits.le, fun now r dst hdst => ?_⟩
    rw [ObfChain.obfuscatedLen_eq] at hdst
    have h := obfuscateLoop_eq now r [] hfits.nonneg (k := 0) (a := []) (c := []) hdst
    rw [append_nil] at h
    exact ⟨_, h⟩

/-- A packet with a random identifier between fixed bytes. -/
theorem cps_agrees_dns :
    ∃ chain, newObfChain (cpsOf [.addBytes [], .addRand 2, .addBytes [1, 0], .addRand 0]).string = .ok chain ∧
      chain.obfuscatedLen 0 = 4 := by
  obtain ⟨chain, hread, hlen, -⟩ := cps_agrees.1 [.addBytes [], .addRand 2, .addBytes [1, 0], .addRand 0] (by decide)
  exact ⟨chain, hread, hlen⟩

end SingBox.Awg
