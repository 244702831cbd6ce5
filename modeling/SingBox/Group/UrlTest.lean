import Mathlib.Data.BitVec

/-!
# The choice of a URL-test group

`URLTestGroup.Select` (`protocol/group/urltest.go`): one pass over the outbounds with the smallest delay so far, which
starts at the current selection.  A zero delay stands for "none yet", and a delay and the tolerance are added in 16
bits.
-/

namespace SingBox.Group

open List Option

/-- A group, with what `Select` reads of its outbounds: `Network()`, and the tag under which their delay is stored,
`RealTag`. -/
structure URLTestGroup (α : Type) where
  outbounds : List α
  network : α → List String
  realTag : α → String
  history : String → Option (BitVec 16)
  tolerance : BitVec 16
  selectedOutboundTCP : Option α
  selectedOutboundUDP : Option α

namespace URLTestGroup

variable {α : Type} {g : URLTestGroup α} {net : String} {o c : α} {d e : BitVec 16}

/-- `LoadURLTestHistory(RealTag(…))`. -/
def delay (g : URLTestGroup α) (detour : α) : Option (BitVec 16) := g.history (g.realTag detour)

def selected (g : URLTestGroup α) (net : String) : Option α :=
  if net = "tcp" then g.selectedOutboundTCP else if net = "udp" then g.selectedOutboundUDP else none

/-- A round of the loop, on `minDelay` and `minOutbound`. -/
def compare (g : URLTestGroup α) (net : String) (best : BitVec 16 × Option α) (detour : α) : BitVec 16 × Option α :=
  if net ∉ g.network detour then best
  else match g.delay detour with
    | none => best
    | some delay => if best.1 = 0 ∨ best.1 > delay + g.tolerance then (delay, some detour) else best

/-- What the loop starts with: the current selection, if it is measured. -/
def start (g : URLTestGroup α) (net : String) : BitVec 16 × Option α :=
  match g.selected net with
  | none => (0, none)
  | some c => match g.delay c with
    | none => (0, none)
    | some delay => (delay, some c)

def select (g : URLTestGroup α) (net : String) : Option α × Bool :=
  match (g.outbounds.foldl (g.compare net) (g.start net)).2 with
  | some o => (some o, true)
  | none => (g.outbounds.find? (net ∈ g.network ·), false)

/-! ### What it is for -/

def Supports (g : URLTestGroup α) (net : String) (o : α) : Prop := o ∈ g.outbounds ∧ net ∈ g.network o

/-- What `Select` chooses from. -/
def Candidate (g : URLTestGroup α) (net : String) (o : α) : Prop := g.Supports net o ∨ g.selected net = some o

/-- A delay within the tolerance of each measured member. -/
def Near (g : URLTestGroup α) (net : String) (d : BitVec 16) : Prop :=
  ∀ o e, g.Supports net o → g.delay o = some e → d.toNat ≤ e.toNat + g.tolerance.toNat

/-- A minimum with hysteresis. -/
structure Respects (g : URLTestGroup α) (net : String) : Prop where
  member : (∃ o, g.Supports net o) → ∃ o, (g.select net).1 = some o ∧ g.Supports net o
  near : (∃ o, g.Candidate net o ∧ g.delay o ≠ none) →
    ∃ o d, (g.select net).1 = some o ∧ g.delay o = some d ∧ g.Near net d
  stays : ∀ c d, g.selected net = some c → g.delay c = some d → g.Near net d → (g.select net).1 = some c

/-- A selection that the tolerance keeps, and that is no member for this network, though there is one. -/
def Stale (g : URLTestGroup α) (net : String) : Prop :=
  ∃ c d, g.selected net = some c ∧ g.delay c = some d ∧ g.Near net d ∧ ¬ g.Supports net c ∧ ∃ o, g.Supports net o

/-! ### Which sums are added -/

/-- The delays that the loop compares, in its order. -/
def measured (g : URLTestGroup α) (net : String) (outbounds : List α) : List (BitVec 16) :=
  outbounds.filterMap fun o => if net ∈ g.network o then g.delay o else none

/-- What there is to compare with at first. -/
def kept (g : URLTestGroup α) (net : String) : Option (BitVec 16) := (g.selected net).bind g.delay

/-- Every comparison comes out as one of integers, for the delays still to come and the one kept so far, if there is
one: this is told from "none yet", and a sum that wraps around is not below it.  The first delay is added to nothing if
none is kept. -/
def Told (tolerance : BitVec 16) : Option (BitVec 16) → List (BitVec 16) → Prop
  | _, [] => True
  | none, e :: delays => Told tolerance (some e) delays
  | some d, e :: delays => d ≠ 0 ∧ (e.toNat + tolerance.toNat < 2 ^ 16 ∨ d ≤ e + tolerance) ∧
      Told tolerance (some (if e.toNat + tolerance.toNat < d.toNat then e else d)) delays

/-- The delay of the best outbound so far. -/
def keptOf (best : BitVec 16 × Option α) : Option (BitVec 16) := best.2.map fun _ => best.1

variable {best : BitVec 16 × Option α}

/-- A round of the loop, of which the comparison comes out right. -/
lemma compare_cases {l : List α} (hnone : best.2 = none → best.1 = 0)
    (ht : Told g.tolerance (keptOf best) (g.measured net (o :: l))) :
    Told g.tolerance (keptOf (g.compare net best o)) (g.measured net l) ∧
    (g.compare net best o = best ∧ (net ∈ g.network o → ∀ e, g.delay o = some e →
      best.2 ≠ none ∧ best.1.toNat ≤ e.toNat + g.tolerance.toNat) ∨
    ∃ e, net ∈ g.network o ∧ g.delay o = some e ∧ g.compare net best o = (e, some o) ∧
      (best.2 = none ∨ e.toNat + g.tolerance.toNat < best.1.toNat)) := by
  by_cases hnet : net ∈ g.network o
  · cases he : g.delay o with
    | none =>
      have hc : g.compare net best o = best := by simp [compare, hnet, he]
      rw [hc]
      exact ⟨by simpa [measured, hnet, he] using ht, .inl ⟨rfl, by simp⟩⟩
    | some e =>
      have hc : g.compare net best o =
          if best.1 = 0 ∨ best.1 > e + g.tolerance then (e, some o) else best := by simp [compare, hnet, he]
      have ht : Told g.tolerance (keptOf best) (e :: g.measured net l) := by simpa [measured, hnet, he] using ht
      obtain ⟨m, _ | b⟩ := best
      · rw [hc, if_pos (.inl (hnone rfl))]
        exact ⟨ht, .inr ⟨e, hnet, rfl, rfl, .inl rfl⟩⟩
      · obtain ⟨h0, hsum, ht⟩ : m ≠ 0 ∧ (e.toNat + g.tolerance.toNat < 2 ^ 16 ∨ m ≤ e + g.tolerance) ∧ _ := ht
        -- the sum of 16 bits decides as the integers do
        have hiff : m > e + g.tolerance ↔ e.toNat + g.tolerance.toNat < m.toNat := by
          have hm := m.isLt
          rw [gt_iff_lt, BitVec.lt_def, BitVec.toNat_add]
          rw [BitVec.le_def, BitVec.toNat_add] at hsum
          omega
        rw [hc]
        by_cases hlt : e.toNat + g.tolerance.toNat < m.toNat
        · rw [if_pos (.inr (hiff.2 hlt))]
          rw [if_pos hlt] at ht
          exact ⟨ht, .inr ⟨e, hnet, rfl, rfl, .inr hlt⟩⟩
        · rw [if_neg (not_or.2 ⟨h0, mt hiff.1 hlt⟩)]
          rw [if_neg hlt] at ht
          refine ⟨ht, .inl ⟨rfl, fun _ e' he' => ?_⟩⟩
          cases he'
          exact ⟨by simp, not_lt.1 hlt⟩
  · have hc : g.compare net best o = best := if_pos hnet
    rw [hc]
    exact ⟨by simpa [measured, hnet] using ht, .inl ⟨rfl, fun h => absurd h hnet⟩⟩

/-- What the loop has chosen from the outbounds of the group. -/
def Chosen (g : URLTestGroup α) (net : String) : BitVec 16 × Option α → Prop
  | (m, none) => m = 0 ∧ ∀ o, g.Candidate net o → g.delay o = none
  | (m, some o) => g.delay o = some m ∧ g.Candidate net o ∧ g.Near net m

lemma supports_append {l : List α} {x : α} : { g with outbounds := l ++ [o] }.Supports net x ↔
    { g with outbounds := l }.Supports net x ∨ x = o ∧ net ∈ g.network o := by
  simp only [Supports, mem_append]
  grind

lemma Chosen.eq_zero (h : g.Chosen net best) (hb : best.2 = none) : best.1 = 0 := by
  obtain ⟨m, _ | b⟩ := best
  · exact h.1
  · cases hb

lemma Chosen.compare {l rest : List α} (h : { g with outbounds := l }.Chosen net best)
    (ht : Told g.tolerance (keptOf best) (g.measured net (o :: rest))) :
    { g with outbounds := l ++ [o] }.Chosen net (g.compare net best o) := by
  obtain ⟨-, ⟨hc, hkeep⟩ | ⟨e, hnet, he, hc, htake⟩⟩ := compare_cases h.eq_zero ht <;> rw [hc] <;>
    obtain ⟨m, b⟩ := best
  · cases b with
    | none =>
      obtain ⟨hm, hnone⟩ := h
      refine ⟨hm, fun x hx => ?_⟩
      rw [Candidate, supports_append] at hx
      rcases hx with (hx | ⟨rfl, hnet⟩) | hx
      · exact hnone x (.inl hx)
      · exact eq_none_iff_forall_not_mem.2 fun e he => (hkeep hnet e he).1 rfl
      · exact hnone x (.inr hx)
    | some o' =>
      obtain ⟨hd, hcand, hnear⟩ := h
      refine ⟨hd, hcand.imp_left (supports_append.2 <| .inl ·), fun x e hx he => ?_⟩
      rcases supports_append.1 hx with hx | ⟨rfl, hnet⟩
      · exact hnear x e hx he
      · exact (hkeep hnet e he).2
  · refine ⟨he, .inl (supports_append.2 (.inr ⟨rfl, hnet⟩)), fun x e' hx he' => ?_⟩
    rcases supports_append.1 hx with hx | ⟨rfl, -⟩
    · cases b with
      | none => exact absurd ((h.2 x (.inl hx)).symm.trans he') (by simp)
      | some o' =>
        -- the old delay was near to the outbounds before, and the new one is smaller
        obtain ⟨-, -, hnear⟩ := h
        exact (Nat.le_of_add_right_le (htake.resolve_left (by simp)).le).trans (hnear x e' hx he')
    · cases he.symm.trans he'
      exact Nat.le_add_right ..

lemma chosen_start : { g with outbounds := [] }.Chosen net (g.start net) ∧ keptOf (g.start net) = g.kept net := by
  have hnil {o : α} : { g with outbounds := [] }.Candidate net o ↔ g.selected net = some o :=
    or_iff_right fun ho => not_mem_nil ho.1
  unfold start kept
  cases hc : g.selected net with
  | none => exact ⟨⟨rfl, fun o ho => absurd (hc.symm.trans (hnil.1 ho)) (by simp)⟩, rfl⟩
  | some c =>
    dsimp only [Option.bind_some]
    cases he : g.delay c with
    | none =>
      refine ⟨⟨rfl, fun o ho => ?_⟩, rfl⟩
      cases hc.symm.trans (hnil.1 ho)
      exact he
    | some e => exact ⟨⟨he, .inr hc, fun o e ho => absurd ho.1 not_mem_nil⟩, rfl⟩

/-- The whole loop, from what it has chosen among the outbounds before. -/
lemma Chosen.foldl {l rest : List α} (h : { g with outbounds := l }.Chosen net best)
    (ht : Told g.tolerance (keptOf best) (g.measured net rest)) :
    { g with outbounds := l ++ rest }.Chosen net (rest.foldl (g.compare net) best) := by
  induction rest generalizing l best with
  | nil => simpa using h
  | cons o rest ih => simpa using ih (h.compare ht) (compare_cases h.eq_zero ht).1

/-- A selection near to the members is never left. -/
lemma foldl_stays {l : List α} (hl : ∀ o ∈ l, o ∈ g.outbounds) (hnear : g.Near net d)
    (ht : Told g.tolerance (some d) (g.measured net l)) : l.foldl (g.compare net) (d, some c) = (d, some c) := by
  induction l with
  | nil => rfl
  | cons o l ih =>
    have hsome : (d, some c).2 = none → (d, some c).1 = 0 := by simp
    obtain ⟨ht', ⟨hc, -⟩ | ⟨e, hnet, he, -, htake⟩⟩ := compare_cases hsome ht
    · rw [foldl_cons, hc]
      rw [hc] at ht'
      exact ih (fun o ho => hl o (mem_cons_of_mem _ ho)) ht'
    · have hle := hnear o e ⟨hl o mem_cons_self, hnet⟩ he
      exact absurd (htake.resolve_left (by simp)) (not_lt.2 hle)

/-- **The selection respects the tolerance**, if its comparisons come out as those of integers, exactly if the current
selection is not a stale one. -/
theorem select_respects_iff (g : URLTestGroup α) (net : String)
    (ht : Told g.tolerance (g.kept net) (g.measured net g.outbounds)) : g.Respects net ↔ ¬ g.Stale net := by
  obtain ⟨hstart, hkept⟩ : { g with outbounds := [] }.Chosen net (g.start net) ∧ _ := g.chosen_start
  have hstays (c d) (hc : g.selected net = some c) (hd : g.delay c = some d) (hnear : g.Near net d) :
      (g.select net).1 = some c := by
    rw [kept, hc, Option.bind_some, hd] at ht
    rw [select, show g.start net = (d, some c) by simp [start, hc, hd], foldl_stays (fun _ ho => ho) hnear ht]
  have hchosen : g.Chosen net (g.outbounds.foldl (g.compare net) (g.start net)) := hstart.foldl (hkept ▸ ht)
  constructor
  · rintro h ⟨c, d, hc, hd, hnear, hno, hex⟩
    obtain ⟨o, ho, hsup⟩ := h.member hex
    cases (hstays c d hc hd hnear).symm.trans ho
    exact hno hsup
  · intro hstale
    rcases hbest : g.outbounds.foldl (g.compare net) (g.start net) with ⟨m, _ | o⟩ <;> rw [hbest] at hchosen
    · obtain ⟨-, hnone⟩ := hchosen
      refine ⟨fun ⟨o, ho⟩ => ?_, fun ⟨o, ho, hd⟩ => absurd (hnone o ho) hd, hstays⟩
      have hs : (g.select net).1 = g.outbounds.find? (net ∈ g.network ·) := by rw [select, hbest]
      have hsome : (g.outbounds.find? (net ∈ g.network ·)).isSome := find?_isSome.2 ⟨o, ho.1, decide_eq_true ho.2⟩
      obtain ⟨o', ho'⟩ := isSome_iff_exists.1 hsome
      exact ⟨o', hs.trans ho', mem_of_find?_eq_some ho', by simpa using find?_some ho'⟩
    · obtain ⟨hd, hcand, hnear⟩ := hchosen
      have hs : (g.select net).1 = some o := by rw [select, hbest]
      refine ⟨fun hex => ⟨o, hs, hcand.elim id fun hc => ?_⟩, fun _ => ⟨o, m, hs, hd, hnear⟩, hstays⟩
      by_contra hno
      exact hstale ⟨o, m, hc, hd, hnear, hno, hex⟩

def twoOutbounds (tolerance d e : BitVec 16) (selected : Option Bool) : URLTestGroup Bool where
  outbounds := [true, false]
  network _ := ["tcp"]
  realTag o := if o then "first" else "second"
  history tag := some (if tag = "first" then d else e)
  tolerance := tolerance
  selectedOutboundTCP := selected
  selectedOutboundUDP := none

/-- With nothing selected, a delay of 65500 ms is added to no tolerance. -/
theorem unselected_respects : (twoOutbounds 50 65500 100 none).Respects "tcp" := by
  refine (select_respects_iff (twoOutbounds 50 65500 100 none) "tcp" ⟨by decide, .inl (by decide), trivial⟩).2 ?_
  rintro ⟨c, d, hc, -⟩
  cases hc

/-- Two outbounds of 100 ms, with a tolerance of 65500 ms, of which the first is selected: it is left. -/
theorem tied_leaves : ¬ (twoOutbounds 65500 100 100 (some true)).Respects "tcp" := by
  intro h
  have hstay := h.stays true 100 rfl rfl fun o e _ he => by
    cases o <;> cases he <;> decide
  exact absurd hstay (by decide)

end URLTestGroup

end SingBox.Group
