import SingBox.Lib.GoString

/-!
# Calls that may panic or never return

`Exec ε α` is a call that returns a result, returns an error, panics or never returns; `Ends` says that it returns.

A loop is run with fuel (`iterate`).  If every turn lowers a measure or starts in a state from which the loop never
gets away (`Settles`), then the measure is fuel enough: a loop that has not ended by then never ends
(`Settles.iterate_eq`), and it ends exactly if none of the states it comes to panics or is such a state
(`Settles.ends_iff`).
-/

namespace SingBox.Lib

open List

/-- How a call ends without a result. -/
inductive Halt (ε : Type) where
  /-- An index or a slice out of range, or a random draw from an empty range. -/
  | panic
  | loop
  | error (e : ε)
  deriving DecidableEq, Repr

abbrev Exec (ε α : Type) := Except (Halt ε) α

variable {ε ε' α β σ : Type}

def Ends : Exec ε α → Prop
  | .error .panic | .error .loop => False
  | .error (.error _) | .ok _ => True

instance : (x : Exec ε α) → Decidable (Ends x)
  | .error .panic | .error .loop => isFalse id
  | .error (.error _) | .ok _ => isTrue trivial

@[simp] lemma ends_ok (a : α) : Ends (.ok a : Exec ε α) := trivial

@[simp] lemma ok_bind (a : α) (f : α → Exec ε β) : ((.ok a : Exec ε α) >>= f) = f a := rfl

variable {x : Exec ε α}

lemma ends_bind {f : α → Exec ε β} : Ends (x >>= f) ↔ Ends x ∧ ∀ a, x = .ok a → Ends (f a) := by
  cases x with
  | error h =>
    cases h with
    | panic | loop => exact ⟨fun h => h.elim, fun h => h.1.elim⟩
    | error e => exact ⟨fun _ => ⟨trivial, fun a h => by cases h⟩, fun _ => trivial⟩
  | ok a => exact ⟨fun h => ⟨trivial, fun a' h' => by cases h'; exact h⟩, fun h => h.2 a rfl⟩

/-- The call returns, and its result, if it is no error, satisfies `Q`. -/
def Returns (x : Exec ε α) (Q : α → Prop) : Prop := Ends x ∧ ∀ a, x = .ok a → Q a

lemma Returns.ends {Q : α → Prop} (h : Returns x Q) : Ends x := h.1

@[simp] lemma returns_error (e : ε) (Q : α → Prop) : Returns (.error (.error e)) Q :=
  ⟨trivial, fun a h => by cases h⟩

lemma returns_ok {a : α} {Q : α → Prop} (h : Q a) : Returns (.ok a : Exec ε α) Q :=
  ⟨trivial, fun a' h' => by cases h'; exact h⟩

lemma returns_none (Q : α → Prop) : Returns (.ok none : Exec ε (Option α)) fun r => ∀ a, r = some a → Q a :=
  returns_ok fun _ h => by cases h

lemma Returns.bind {f : α → Exec ε β} {P : α → Prop} {Q : β → Prop} (hx : Returns x P)
    (hf : ∀ a, P a → Returns (f a) Q) : Returns (x >>= f) Q := by
  refine ⟨ends_bind.2 ⟨hx.1, fun a ha => (hf a (hx.2 a ha)).1⟩, fun b hb => ?_⟩
  obtain ⟨a, ha, hb⟩ := Except.bind_ok hb
  exact (hf a (hx.2 a ha)).2 b hb

/-- A returned error as a value. -/
def attempt : Exec ε α → Exec ε' (Except ε α)
  | .ok a => .ok (.ok a)
  | .error (.error e) => .ok (.error e)
  | .error .panic => .error .panic
  | .error .loop => .error .loop

@[simp] lemma ends_attempt : Ends (attempt x : Exec ε' _) ↔ Ends x := by
  rcases x with (_ | _ | _) | _ <;> rfl

/-! ### Slices -/

/-- `b[i]`. -/
def index (b : List β) (i : ℕ) : Exec ε β :=
  match b[i]? with
  | some x => .ok x
  | none => .error .panic

/-- `b[lo:hi]`. -/
def sliceOf (b : List β) (lo hi : ℕ) : Exec ε (List β) :=
  if lo ≤ hi ∧ hi ≤ b.length then .ok ((b.take hi).drop lo) else .error .panic

/-- `b[lo:]`. -/
def sliceFrom (b : List β) (lo : ℕ) : Exec ε (List β) :=
  if lo ≤ b.length then .ok (b.drop lo) else .error .panic

/-- `b[lo : lo+n]`, with its length. -/
def sliceLen (b : List β) (lo n : ℕ) : Exec ε { s : List β // s.length = n } :=
  if h : lo + n ≤ b.length then .ok ⟨(b.drop lo).take n, by simp; omega⟩ else .error .panic

/-- `uint16(b[i])<<8 | uint16(b[i+1])`. -/
def uint16At (b : GoString) (i : ℕ) : Exec ε (BitVec 16) := do
  let hi ← index b i
  let lo ← index b (i + 1)
  return hi ++ lo

def uint16s : ℕ → GoString → Exec ε (List (BitVec 16))
  | 0, _ => .ok []
  | n + 1, b => do
    let v ← uint16At b 0
    let vs ← uint16s n (b.drop 2)
    return v :: vs

variable {b : List β} {i : ℕ}

lemma index_eq_ok {x : β} : (index b i : Exec ε β) = .ok x ↔ b[i]? = some x := by
  rw [index]
  split
  next h => simp [h]
  next h => simp [h]

lemma ends_index : Ends (index b i : Exec ε β) ↔ i < b.length := by
  rw [index]
  split
  next x h => exact ⟨fun _ => (List.getElem?_eq_some_iff.1 h).1, fun _ => trivial⟩
  next h => exact ⟨fun h => h.elim, fun hlt => absurd (List.getElem?_eq_none_iff.1 h) (by omega)⟩

variable {lo hi : ℕ}

lemma ends_sliceOf : Ends (sliceOf b lo hi : Exec ε _) ↔ lo ≤ hi ∧ hi ≤ b.length := by
  rw [sliceOf]
  split
  next h => exact ⟨fun _ => h, fun _ => trivial⟩
  next h => exact ⟨fun h => h.elim, fun h' => absurd h' h⟩

lemma sliceOf_eq_ok {b s : List β} :
    (sliceOf b lo hi : Exec ε _) = .ok s ↔ (lo ≤ hi ∧ hi ≤ b.length) ∧ (b.take hi).drop lo = s := by
  rw [sliceOf]
  split
  next h => simp [h]
  next h => simp [h]

lemma ends_sliceFrom {lo : ℕ} : Ends (sliceFrom b lo : Exec ε _) ↔ lo ≤ b.length := by
  rw [sliceFrom]
  split
  next h => exact ⟨fun _ => h, fun _ => trivial⟩
  next h => exact ⟨fun h => h.elim, fun h' => absurd h' h⟩

lemma sliceFrom_eq_ok {b s : List β} {lo : ℕ} :
    (sliceFrom b lo : Exec ε _) = .ok s ↔ lo ≤ b.length ∧ b.drop lo = s := by
  rw [sliceFrom]
  split
  next h => simp [h]
  next h => simp [h]

lemma ends_sliceLen {lo n : ℕ} : Ends (sliceLen b lo n : Exec ε _) ↔ lo + n ≤ b.length := by
  rw [sliceLen]
  split
  next h => exact ⟨fun _ => h, fun _ => trivial⟩
  next h => exact ⟨fun h => h.elim, fun h' => absurd h' h⟩

lemma ends_uint16At {b : GoString} : Ends (uint16At b i : Exec ε _) ↔ i + 1 < b.length := by
  rw [uint16At, ends_bind, ends_index]
  constructor
  · rintro ⟨hi, h⟩
    have hx : b[i]? = some b[i] := by simp
    exact ends_index.1 (ends_bind.1 (h _ (index_eq_ok.2 hx))).1
  · intro h
    exact ⟨by omega, fun x _ => ends_bind.2 ⟨ends_index.2 h, fun y _ => trivial⟩⟩

lemma uint16At_of_lt {b : GoString} (h : i + 1 < b.length) : ∃ v, (uint16At b i : Exec ε _) = .ok v := by
  have h0 : b[i]? = some b[i] := by simp
  have h1 : b[i + 1]? = some b[i + 1] := by simp
  exact ⟨b[i] ++ b[i + 1], by rw [uint16At, index_eq_ok.2 h0, index_eq_ok.2 h1]; rfl⟩

lemma ends_uint16s {n : ℕ} : ∀ {b : GoString}, Ends (uint16s n b : Exec ε _) ↔ 2 * n ≤ b.length := by
  induction n with
  | zero =>
    intro b
    exact ⟨fun _ => by omega, fun _ => trivial⟩
  | succ n ih =>
    intro b
    rw [uint16s, ends_bind, ends_uint16At]
    constructor
    · rintro ⟨h, hrest⟩
      obtain ⟨v, hv⟩ := uint16At_of_lt h
      have hn := ih.1 (ends_bind.1 (hrest v hv)).1
      rw [length_drop] at hn
      omega
    · intro h
      refine ⟨by omega, fun v _ => ends_bind.2 ⟨ih.2 ?_, fun _ _ => trivial⟩⟩
      rw [length_drop]
      omega

lemma returns_index (h : i < b.length) : Returns (index b i : Exec ε β) fun _ => True :=
  ⟨ends_index.2 h, fun _ _ => trivial⟩

lemma returns_uint16At {b : GoString} (h : i + 1 < b.length) : Returns (uint16At b i : Exec ε _) fun _ => True :=
  ⟨ends_uint16At.2 h, fun _ _ => trivial⟩

lemma returns_uint16s {b : GoString} {n : ℕ} (h : 2 * n ≤ b.length) : Returns (uint16s n b : Exec ε _) fun _ => True :=
  ⟨ends_uint16s.2 h, fun _ _ => trivial⟩

lemma returns_sliceFrom {lo : ℕ} (h : lo ≤ b.length) :
    Returns (sliceFrom b lo : Exec ε _) fun s => s.length = b.length - lo := by
  refine ⟨ends_sliceFrom.2 h, fun s hs => ?_⟩
  obtain ⟨-, rfl⟩ := sliceFrom_eq_ok.1 hs
  exact length_drop

lemma returns_sliceOf (h : lo ≤ hi) (h' : hi ≤ b.length) :
    Returns (sliceOf b lo hi : Exec ε _) fun s => s.length = hi - lo := by
  refine ⟨ends_sliceOf.2 ⟨h, h'⟩, fun s hs => ?_⟩
  obtain ⟨-, rfl⟩ := sliceOf_eq_ok.1 hs
  rw [length_drop, length_take]
  omega

lemma length_splice {b mid : List β} (h : lo ≤ hi) (h' : hi ≤ b.length) (hmid : mid.length = hi - lo) :
    (b.take lo ++ mid ++ b.drop hi).length = b.length := by
  rw [length_append, length_append, length_take, length_drop]
  omega

/-- `rand.Intn(n)`, for a draw. -/
def intn (draw n : ℕ) : Exec ε ℕ := if n = 0 then .error .panic else .ok (draw % n)

/-! ### Loops -/

/-- `n` turns of a loop, the body of which goes on with a new state or leaves the loop. -/
def iterate (body : σ → Exec ε (σ ⊕ α)) : ℕ → σ → Exec ε α
  | 0, _ => .error .loop
  | n + 1, s =>
    match body s with
    | .error h => .error h
    | .ok (.inl s') => iterate body n s'
    | .ok (.inr a) => .ok a

/-- The states that a loop comes to. -/
def Reaches (body : σ → Exec ε (σ ⊕ α)) : σ → σ → Prop :=
  Relation.ReflTransGen fun s s' => body s = .ok (.inl s')

/-- Under the invariant `I`, every turn lowers the measure or starts in a state from which the loop never gets away. -/
structure Settles (body : σ → Exec ε (σ ⊕ α)) (I : σ → Prop) (measure : σ → ℕ) (Stuck : σ → Prop) : Prop where
  inv : ∀ {s s'}, I s → body s = .ok (.inl s') → I s'
  lower : ∀ {s s'}, I s → body s = .ok (.inl s') → measure s' < measure s ∨ Stuck s
  stuck : ∀ {s}, I s → Stuck s → ∃ s', body s = .ok (.inl s') ∧ Stuck s'

section Loop

variable {body : σ → Exec ε (σ ⊕ α)} {I Stuck : σ → Prop} {measure : σ → ℕ}

lemma iterate_next {s s' : σ} (h : body s = .ok (.inl s')) (n : ℕ) : iterate body (n + 1) s = iterate body n s' := by
  rw [iterate, h]

lemma Settles.reaches (h : Settles body I measure Stuck) {s t : σ} (hs : I s) (ht : Reaches body s t) : I t := by
  induction ht with
  | refl => exact hs
  | tail _ hbody ih => exact h.inv ih hbody

/-- A loop that is stuck never ends. -/
lemma Settles.iterate_stuck (h : Settles body I measure Stuck) (n : ℕ) :
    ∀ {s : σ}, I s → Stuck s → iterate body n s = .error .loop := by
  induction n with
  | zero =>
    intro s _ _
    rfl
  | succ n ih =>
    intro s hI hs
    obtain ⟨s', hbody, hs'⟩ := h.stuck hI hs
    rw [iterate_next hbody]
    exact ih (h.inv hI hbody) hs'

/-- **The measure is fuel enough.** -/
theorem Settles.iterate_eq (h : Settles body I measure Stuck) (n : ℕ) :
    ∀ {m : ℕ} {s : σ}, I s → measure s < n → measure s < m → iterate body n s = iterate body m s := by
  induction n with
  | zero =>
    intro m s _ hn
    omega
  | succ n ih =>
    intro m s hI hn hm
    obtain ⟨m, rfl⟩ : ∃ k, m = k + 1 := ⟨m - 1, by omega⟩
    cases hbody : body s with
    | error e => simp only [iterate, hbody]
    | ok r =>
      cases r with
      | inr a => simp only [iterate, hbody]
      | inl s' =>
        rcases h.lower hI hbody with hlt | hs
        · rw [iterate_next hbody, iterate_next hbody]
          exact ih (h.inv hI hbody) (by omega) (by omega)
        · rw [h.iterate_stuck _ hI hs, h.iterate_stuck _ hI hs]

/-- **When a loop ends**: no state it comes to panics or is stuck. -/
theorem Settles.ends_iff (h : Settles body I measure Stuck) (n : ℕ) : ∀ {s : σ}, I s → measure s < n →
      (Ends (iterate body n s) ↔ ∀ t, Reaches body s t → Ends (body t) ∧ ¬Stuck t) := by
  induction n with
  | zero =>
    intro s _ hn
    omega
  | succ n ih =>
    intro s hI hn
    by_cases hs : Stuck s
    · rw [h.iterate_stuck _ hI hs]
      exact ⟨fun h => h.elim, fun h => absurd hs (h s .refl).2⟩
    cases hbody : body s with
    | error e =>
      simp only [iterate, hbody]
      constructor
      · intro he t ht
        rcases Relation.ReflTransGen.cases_head ht with rfl | ⟨s', hs', _⟩
        · rw [hbody]
          exact ⟨by rcases e with _ | _ | _ <;> trivial, hs⟩
        · rw [hbody] at hs'
          cases hs'
      · intro hall
        have he := (hall s .refl).1
        rw [hbody] at he
        rcases e with _ | _ | _ <;> trivial
    | ok r =>
      cases r with
      | inr a =>
        simp only [iterate, hbody]
        refine ⟨fun _ t ht => ?_, fun _ => trivial⟩
        rcases Relation.ReflTransGen.cases_head ht with rfl | ⟨s', hs', _⟩
        · rw [hbody]
          exact ⟨trivial, hs⟩
        · rw [hbody] at hs'
          cases hs'
      | inl s' =>
        have hlt : measure s' < measure s := (h.lower hI hbody).resolve_right hs
        rw [iterate_next hbody, ih (h.inv hI hbody) (by omega)]
        constructor
        · intro hall t ht
          rcases Relation.ReflTransGen.cases_head ht with rfl | ⟨s'', hs'', ht⟩
          · rw [hbody]
            exact ⟨trivial, hs⟩
          · cases hbody.symm.trans hs''
            exact hall t ht
        · intro hall t ht
          exact hall t (.head hbody ht)

/-- What every turn keeps holds when the loop is left. -/
lemma iterate_post {Q : α → Prop} (hI : ∀ {s s'}, I s → body s = .ok (.inl s') → I s')
    (hQ : ∀ {s a}, I s → body s = .ok (.inr a) → Q a) (n : ℕ) :
    ∀ {s : σ} {a : α}, I s → iterate body n s = .ok a → Q a := by
  induction n with
  | zero =>
    intro s a _ h
    cases h
  | succ n ih =>
    intro s a hs h
    rw [iterate] at h
    split at h
    · cases h
    next s' hbody => exact ih (hI hs hbody) h
    next a' hbody =>
      cases h
      exact hQ hs hbody

end Loop

end SingBox.Lib
