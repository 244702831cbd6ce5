import SingBox.Lib.Exec

/-!
# Programs that draw random numbers

A program that draws is run on the list of what it gets, each a number or the error of the source of randomness.  When
the list is too short it has not returned yet (`Halt.loop`).

`Gives p Q` says that a program does nothing but return a result with `Q`, or the error of a draw, or wait for more
draws.  `Takes p k Q` says of a program that makes `k` draws that it returns when it has got them.
-/

namespace SingBox.Lib

open List

abbrev Draws (ε : Type) := List (Except ε ℕ)

abbrev Drawing (ε α : Type) := StateT (Draws ε) (Exec ε) α

variable {ε α β : Type} {p : Drawing ε α} {f : α → Drawing ε β} {ds rest : Draws ε} {a : α}

lemma drawing_bind_ok (h : p ds = .ok (a, rest)) : (p >>= f) ds = f a rest := by
  have hbind : (p >>= f) ds = (p ds) >>= fun x => f x.1 x.2 := rfl
  rw [hbind, h, ok_bind]

/-- The program does not panic, has no errors of its own, and its results have `Q`. -/
def Gives (p : Drawing ε α) (Q : α → Prop) : Prop :=
  ∀ ds, match p ds with
    | .ok (a, rest) => rest <:+ ds ∧ Q a
    | .error .panic => False
    | .error .loop => True
    | .error (.error e) => .error e ∈ ds

variable {P : α → Prop}

lemma Gives.bind {Q : β → Prop} (hp : Gives p P) (hf : ∀ a, P a → Gives (f a) Q) : Gives (p >>= f) Q := by
  intro ds
  have hbind : (p >>= f) ds = (p ds) >>= fun x => f x.1 x.2 := rfl
  rw [hbind]
  have h := hp ds
  rcases hpd : p ds with (_ | _ | e) | ⟨a, rest⟩
  · simp only [hpd] at h
  · trivial
  · simp only [hpd] at h
    exact h
  · simp only [hpd] at h
    obtain ⟨hrest, ha⟩ := h
    have h := hf a ha rest
    rw [ok_bind]
    rcases hfd : f a rest with (_ | _ | e) | ⟨b, rest'⟩ <;> simp only [hfd] at h ⊢
    · exact hrest.subset h
    · exact ⟨h.1.trans hrest, h.2⟩

variable {Q : α → Prop}

lemma Gives.of_ok (h : Gives p Q) (ha : p ds = .ok (a, rest)) : Q a := by
  have := h ds
  simp only [ha] at this
  exact this.2

lemma Gives.suffix (h : Gives p Q) (ha : p ds = .ok (a, rest)) : rest <:+ ds := by
  have := h ds
  simp only [ha] at this
  exact this.1

/-- The program makes `k` draws and returns a result with `Q`. -/
def Takes (p : Drawing ε α) (k : ℕ) (Q : α → Prop) : Prop :=
  ∀ ds, match p ds with
    | .ok (a, rest) => k ≤ ds.length ∧ rest = ds.drop k ∧ Q a
    | .error .panic => False
    | .error .loop => ds.length < k
    | .error (.error e) => .error e ∈ ds

lemma takes_pure (h : Q a) : Takes (pure a : Drawing ε α) 0 Q :=
  fun _ => ⟨Nat.zero_le _, rfl, h⟩

lemma takes_lift {x : Exec ε α} (hx : x = .ok a) (ha : Q a) : Takes (liftM x : Drawing ε α) 0 Q := by
  subst hx
  exact fun ds => ⟨Nat.zero_le _, rfl, ha⟩

lemma Takes.imp {k : ℕ} (h : Takes p k P) (hPQ : ∀ a, P a → Q a) : Takes p k Q := by
  intro ds
  have := h ds
  rcases hp : p ds with (_ | _ | _) | ⟨a, rest⟩ <;> simp only [hp] at this <;> try exact this
  exact ⟨this.1, this.2.1, hPQ a this.2.2⟩

lemma Takes.bind {k m n : ℕ} {Q : β → Prop} (hp : Takes p k P)
    (hn : k + m = n) (hf : ∀ a, P a → Takes (f a) m Q) : Takes (p >>= f) n Q := by
  subst hn
  intro ds
  have hbind : (p >>= f) ds = (p ds) >>= fun x => f x.1 x.2 := rfl
  rw [hbind]
  have h := hp ds
  rcases hpd : p ds with (_ | _ | e) | ⟨a, rest⟩
  · simp only [hpd] at h
  · simp only [hpd] at h
    change ds.length < k + m
    omega
  · simp only [hpd] at h
    exact h
  · simp only [hpd] at h
    obtain ⟨hk, rfl, ha⟩ := h
    have h := hf a ha (ds.drop k)
    rw [ok_bind]
    rcases hfd : f a (ds.drop k) with (_ | _ | e) | ⟨b, rest⟩
    · simp only [hfd] at h
    · simp only [hfd, length_drop] at h
      omega
    · simp only [hfd] at h
      exact mem_of_mem_drop h
    · simp only [hfd, length_drop, drop_drop] at h
      exact ⟨by omega, h.2.1, h.2.2⟩

lemma Takes.gives {k : ℕ} (h : Takes p k Q) : Gives p Q := by
  intro ds
  have := h ds
  rcases hp : p ds with (_ | _ | e) | ⟨a, rest⟩ <;> simp only [hp] at this ⊢
  · exact this
  · exact ⟨this.2.1 ▸ drop_suffix k ds, this.2.2⟩

/-- A program returns when there are enough draws, and none of them is an error. -/
lemma Takes.returns {k : ℕ} (h : Takes p k Q) (hk : k ≤ ds.length)
    (hds : ∀ e, .error e ∉ ds) : ∃ a, p ds = .ok (a, ds.drop k) ∧ Q a := by
  have := h ds
  rcases hp : p ds with (_ | _ | e) | ⟨a, rest⟩ <;> simp only [hp] at this
  · omega
  · exact absurd this (hds e)
  · exact ⟨a, by rw [this.2.1], this.2.2⟩

end SingBox.Lib
