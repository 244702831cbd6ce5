import Mathlib.Data.Multiset.UnionInter

/-!
# Resources in generations

Resources are made, and are then tracked by the current generation until they are taken out of it and closed.  While it
is tracked a resource can be lent.  The whole generation can be retired, by replacing it or by shutting everything:
whoever does so closes what it tracks, in steps of their own.  A resource that has been lent and is no longer tracked
when it is returned is closed, perhaps again.

Resources are numbered as they are made.  Apart from those that are tracked there are the ones that are not tracked yet
(`arriving`) and those that somebody is about to close (`closing`), and the generations that somebody is about to close
(`retiring`).  What the current generation tracks is open, and nothing is lost: every resource is closed or somebody has
it to close (`Inv.kept`).
-/

namespace SingBox.Lib

open Multiset Function

structure Generations where
  /-- What each generation tracks, or tracked when it was retired. -/
  tracked : ℕ → List ℕ
  current : ℕ
  shut : Bool
  made : ℕ
  closed : List ℕ
  closing : Multiset ℕ
  arriving : Multiset ℕ
  retiring : Multiset ℕ
  lent : List ℕ

namespace Generations

inductive Step (g : Generations) : Generations → Prop where
  | make : Step g { g with made := g.made + 1, arriving := g.made ::ₘ g.arriving }
  | track {d : ℕ} {a : Multiset ℕ} (h : g.arriving = d ::ₘ a) (hs : g.shut = false) :
    Step g { g with
      arriving := a, tracked := Function.update g.tracked g.current (d :: g.tracked g.current) }
  | drop {d : ℕ} {a : Multiset ℕ} (h : g.arriving = d ::ₘ a) :
    Step g { g with arriving := a, closing := d ::ₘ g.closing }
  | lend {d : ℕ} (hd : d ∈ g.tracked g.current) : Step g { g with lent := d :: g.lent }
  /-- A resource that is not tracked any more is returned. -/
  | giveUp {d : ℕ} (h : d ∈ g.lent) (hd : g.shut = false → d ∉ g.tracked g.current) :
    Step g { g with closing := d ::ₘ g.closing }
  | untrack {d : ℕ} (hd : d ∈ g.tracked g.current) :
    Step g { g with
      tracked := Function.update g.tracked g.current ((g.tracked g.current).filter (· ≠ d))
      closing := d ::ₘ g.closing }
  | close {d : ℕ} {c : Multiset ℕ} (h : g.closing = d ::ₘ c) : Step g { g with closing := c, closed := d :: g.closed }
  | replace : Step g { g with current := g.current + 1, retiring := g.current ::ₘ g.retiring }
  | shutdown : Step g { g with shut := true, retiring := g.current ::ₘ g.retiring }
  | retire {n : ℕ} {r : Multiset ℕ} (h : g.retiring = n ::ₘ r) :
    Step g { g with retiring := r, closing := ↑(g.tracked n) + g.closing }

/-- A resource that is open: it has been made, and its generation has not been retired. -/
def Live (g : Generations) (d : ℕ) : Prop := d ∈ g.arriving ∨ g.shut = false ∧ d ∈ g.tracked g.current

structure Inv (g : Generations) : Prop where
  future : ∀ n, g.current < n → g.tracked n = []
  lt : ∀ n, ∀ d ∈ g.tracked n, d < g.made
  one : ∀ d n n', d ∈ g.tracked n → d ∈ g.tracked n' → n = n'
  nodup : g.arriving.Nodup
  arriving : ∀ d ∈ g.arriving, d < g.made ∧ ∀ n, d ∉ g.tracked n
  lent : ∀ d ∈ g.lent, d < g.made ∧ d ∉ g.arriving
  closed : ∀ d ∈ g.closed, d < g.made ∧ ¬g.Live d
  closing : ∀ d ∈ g.closing, d < g.made ∧ ¬g.Live d
  retired : ∀ n ∈ g.retiring, n ≤ g.current ∧ (g.shut = false → n < g.current)
  kept : ∀ d < g.made, d ∈ g.closed ∨ d ∈ g.closing ∨ d ∈ g.arriving ∨
    ∃ n, d ∈ g.tracked n ∧ (n = g.current ∧ g.shut = false ∨ n ∈ g.retiring)

variable {g : Generations}

/-- **Everything is closed** once everything is shut and nobody has anything to close. -/
theorem Inv.all_closed (h : g.Inv) (hs : g.shut = true) (hc : g.closing = 0) (ha : g.arriving = 0)
    (hr : g.retiring = 0) : ∀ d < g.made, d ∈ g.closed := by
  intro d hd
  rcases h.kept d hd with h | h | h | ⟨n, -, ⟨-, h⟩ | h⟩
  · exact h
  · simp [hc] at h
  · simp [ha] at h
  · simp [hs] at h
  · simp [hr] at h

variable {d : ℕ}

lemma not_live_make (h : d < g.made ∧ ¬g.Live d) :
    d < g.made + 1 ∧ ¬Live { g with made := g.made + 1, arriving := g.made ::ₘ g.arriving } d :=
  ⟨Nat.lt_succ_of_lt h.1, mt (Or.imp_left fun hd => (mem_cons.1 hd).resolve_left h.1.ne) h.2⟩

lemma Inv.make (h : g.Inv) : ({ g with made := g.made + 1, arriving := g.made ::ₘ g.arriving } : Generations).Inv where
  __ := h
  lt n d hd := Nat.lt_succ_of_lt (h.lt n d hd)
  nodup := nodup_cons.2 ⟨fun hm => absurd (h.arriving _ hm).1 (lt_irrefl _), h.nodup⟩
  arriving d hd := by
    rcases mem_cons.1 hd with rfl | hd
    · exact ⟨Nat.lt_succ_self _, fun n hn => absurd (h.lt n _ hn) (lt_irrefl _)⟩
    · exact ⟨Nat.lt_succ_of_lt (h.arriving d hd).1, (h.arriving d hd).2⟩
  lent d hd := by
    obtain ⟨hlt, hd⟩ := h.lent d hd
    exact ⟨Nat.lt_succ_of_lt hlt, by simp [hd, hlt.ne]⟩
  closed d hd := not_live_make (h.closed d hd)
  closing d hd := not_live_make (h.closing d hd)
  kept d hd := by
    rcases Nat.lt_succ_iff_lt_or_eq.1 hd with hd | rfl
    · exact (h.kept d hd).imp_right (.imp_right (.imp_left mem_cons_of_mem))
    · exact .inr (.inr (.inl (mem_cons_self _ _)))

lemma Inv.track (hg : g.Inv) {a : Multiset ℕ} (h : g.arriving = d ::ₘ a) (hs : g.shut = false) : ({ g with
        arriving := a, tracked := update g.tracked g.current (d :: g.tracked g.current) } :
      Generations).Inv := by
  have hda : d ∈ g.arriving := h ▸ mem_cons_self d a
  have ha : ∀ {x}, x ∈ a → x ∈ g.arriving := h ▸ mem_cons_of_mem
  have hnd := nodup_cons.1 (h ▸ hg.nodup)
  have mem {x n} : x ∈ update g.tracked g.current (d :: g.tracked g.current) n ↔
      x = d ∧ n = g.current ∨ x ∈ g.tracked n := by
    by_cases hn : n = g.current <;> simp [hn]
  have hlive {x} : Live { g with
      arriving := a, tracked := update g.tracked g.current (d :: g.tracked g.current) } x → g.Live x := by
    rintro (hx | ⟨-, hx⟩)
    · exact .inl (ha hx)
    · rcases mem.1 hx with ⟨rfl, -⟩ | hx
      · exact .inl hda
      · exact .inr ⟨hs, hx⟩
  exact {
    __ := hg
    future := fun n hn => by simpa [hn.ne'] using hg.future n hn
    lt := fun n x hx => by
      rcases mem.1 hx with ⟨rfl, -⟩ | hx
      · exact (hg.arriving x hda).1
      · exact hg.lt n x hx
    one := fun x n n' hn hn' => by
      rcases mem.1 hn with ⟨rfl, rfl⟩ | hn <;> rcases mem.1 hn' with ⟨he, hn'⟩ | hn'
      · exact hn'.symm
      · exact absurd hn' ((hg.arriving x hda).2 n')
      · exact absurd hn ((hg.arriving x (he ▸ hda)).2 n)
      · exact hg.one x n n' hn hn'
    nodup := hnd.2
    arriving := fun x hx => by
      refine ⟨(hg.arriving x (ha hx)).1, fun n hn => ?_⟩
      rcases mem.1 hn with ⟨rfl, -⟩ | hn
      · exact hnd.1 hx
      · exact (hg.arriving x (ha hx)).2 n hn
    lent := fun x hx => (hg.lent x hx).imp_right (mt ha)
    closed := fun x hx => (hg.closed x hx).imp_right (mt hlive)
    closing := fun x hx => (hg.closing x hx).imp_right (mt hlive)
    kept := fun x hx => by
      rcases hg.kept x hx with hx | hx | hx | ⟨n, hx, hn⟩
      · exact .inl hx
      · exact .inr (.inl hx)
      · rcases mem_cons.1 (h ▸ hx) with rfl | hx
        · exact .inr (.inr (.inr ⟨g.current, mem.2 (.inl ⟨rfl, rfl⟩), .inl ⟨rfl, hs⟩⟩))
        · exact .inr (.inr (.inl hx))
      · exact .inr (.inr (.inr ⟨n, mem.2 (.inr hx), hn⟩)) }

lemma Inv.drop (hg : g.Inv) {a : Multiset ℕ} (h : g.arriving = d ::ₘ a) :
    ({ g with arriving := a, closing := d ::ₘ g.closing } : Generations).Inv := by
  have hda := hg.arriving d (h ▸ mem_cons_self d a)
  have ha : ∀ {x}, x ∈ a → x ∈ g.arriving := h ▸ mem_cons_of_mem
  have hnd := nodup_cons.1 (h ▸ hg.nodup)
  exact {
    __ := hg
    nodup := hnd.2
    arriving := fun x hx => hg.arriving x (ha hx)
    lent := fun x hx => (hg.lent x hx).imp_right (mt ha)
    closed := fun x hx => (hg.closed x hx).imp_right (mt (Or.imp_left ha))
    closing := fun x hx => by
      rcases mem_cons.1 hx with rfl | hx
      · exact ⟨hda.1, fun hl => hl.elim hnd.1 fun hl => hda.2 _ hl.2⟩
      · exact (hg.closing x hx).imp_right (mt (Or.imp_left ha))
    kept := fun x hx => by
      rcases hg.kept x hx with hx | hx | hx | hx
      · exact .inl hx
      · exact .inr (.inl (mem_cons_of_mem hx))
      · rcases mem_cons.1 (h ▸ hx) with rfl | hx
        · exact .inr (.inl (mem_cons_self _ _))
        · exact .inr (.inr (.inl hx))
      · exact .inr (.inr (.inr hx)) }

lemma Inv.lend (hg : g.Inv) (hd : d ∈ g.tracked g.current) : ({ g with lent := d :: g.lent } : Generations).Inv where
  __ := hg
  lent x hx := by
    rcases List.mem_cons.1 hx with rfl | hx
    · exact ⟨hg.lt _ x hd, fun ha => (hg.arriving x ha).2 _ hd⟩
    · exact hg.lent x hx

lemma Inv.giveUp (hg : g.Inv) (h : d ∈ g.lent) (hd : g.shut = false → d ∉ g.tracked g.current) :
    ({ g with closing := d ::ₘ g.closing } : Generations).Inv where
  __ := hg
  closing x hx := by
    rcases mem_cons.1 hx with rfl | hx
    · obtain ⟨hlt, ha⟩ := hg.lent x h
      refine ⟨hlt, ?_⟩
      rintro (hl | ⟨hs, hl⟩)
      · exact ha hl
      · exact hd hs hl
    · exact hg.closing x hx
  kept x hx := (hg.kept x hx).imp_right (.imp_left mem_cons_of_mem)

lemma Inv.untrack (hg : g.Inv) (hd : d ∈ g.tracked g.current) : ({ g with
        tracked := update g.tracked g.current ((g.tracked g.current).filter (· ≠ d))
        closing := d ::ₘ g.closing } : Generations).Inv := by
  have mem {x n} : x ∈ update g.tracked g.current ((g.tracked g.current).filter (· ≠ d)) n ↔
      x ∈ g.tracked n ∧ (n = g.current → x ≠ d) := by
    by_cases hn : n = g.current <;> simp [hn]
  have hlive {x} : Live { g with
      tracked := update g.tracked g.current ((g.tracked g.current).filter (· ≠ d))
      closing := d ::ₘ g.closing } x → g.Live x := fun hl => hl.imp_right fun hl => ⟨hl.1, (mem.1 hl.2).1⟩
  exact {
    __ := hg
    future := fun n hn => by simpa [hn.ne'] using hg.future n hn
    lt := fun n x hx => hg.lt n x (mem.1 hx).1
    one := fun x n n' hn hn' => hg.one x n n' (mem.1 hn).1 (mem.1 hn').1
    arriving := fun x hx => (hg.arriving x hx).imp_right fun h n hn => h n (mem.1 hn).1
    closed := fun x hx => (hg.closed x hx).imp_right (mt hlive)
    closing := fun x hx => by
      rcases mem_cons.1 hx with rfl | hx
      · refine ⟨hg.lt _ x hd, ?_⟩
        rintro (hl | ⟨-, hl⟩)
        · exact (hg.arriving x hl).2 _ hd
        · exact (mem.1 hl).2 rfl rfl
      · exact (hg.closing x hx).imp_right (mt hlive)
    kept := fun x hx => by
      by_cases hxd : x = d
      · exact .inr (.inl (hxd ▸ mem_cons_self _ _))
      · refine (hg.kept x hx).imp_right (.imp mem_cons_of_mem (.imp_right ?_))
        rintro ⟨n, hx, hn⟩
        exact ⟨n, mem.2 ⟨hx, fun _ => hxd⟩, hn⟩ }

lemma Inv.close (hg : g.Inv) {c : Multiset ℕ} (h : g.closing = d ::ₘ c) :
    ({ g with closing := c, closed := d :: g.closed } : Generations).Inv where
  __ := hg
  closed x hx := by
    rcases List.mem_cons.1 hx with rfl | hx
    · exact hg.closing x (h ▸ mem_cons_self x c)
    · exact hg.closed x hx
  closing x hx := hg.closing x (h ▸ mem_cons_of_mem hx)
  kept x hx := by
    rcases hg.kept x hx with hx | hx | hx
    · exact .inl (List.mem_cons_of_mem _ hx)
    · rcases mem_cons.1 (h ▸ hx) with rfl | hx
      · exact .inl List.mem_cons_self
      · exact .inr (.inl hx)
    · exact .inr (.inr hx)

lemma Inv.replace (hg : g.Inv) :
    ({ g with current := g.current + 1, retiring := g.current ::ₘ g.retiring } : Generations).Inv := by
  have hnew : g.tracked (g.current + 1) = [] := hg.future _ (Nat.lt_succ_self _)
  have hlive {x} : Live { g with current := g.current + 1, retiring := g.current ::ₘ g.retiring } x → g.Live x := by
    rintro (hl | ⟨-, hl⟩)
    · exact .inl hl
    · simp [hnew] at hl
  exact {
    __ := hg
    future := fun n hn => hg.future n (Nat.lt_of_succ_lt hn)
    closed := fun x hx => (hg.closed x hx).imp_right (mt hlive)
    closing := fun x hx => (hg.closing x hx).imp_right (mt hlive)
    retired := fun n hn => by
      have hle : n ≤ g.current := by
        rcases mem_cons.1 hn with rfl | hn
        · exact le_rfl
        · exact (hg.retired n hn).1
      exact ⟨Nat.le_succ_of_le hle, fun _ => Nat.lt_succ_of_le hle⟩
    kept := fun x hx => by
      refine (hg.kept x hx).imp_right (.imp_right (.imp_right ?_))
      rintro ⟨n, hx, ⟨rfl, -⟩ | hn⟩
      · exact ⟨_, hx, .inr (mem_cons_self _ _)⟩
      · exact ⟨n, hx, .inr (mem_cons_of_mem hn)⟩ }

lemma Inv.shutdown (hg : g.Inv) :
    ({ g with shut := true, retiring := g.current ::ₘ g.retiring } : Generations).Inv := by
  have hlive {x} : Live { g with shut := true, retiring := g.current ::ₘ g.retiring } x → g.Live x := by
    rintro (hl | ⟨hs, -⟩)
    · exact .inl hl
    · cases hs
  exact {
    __ := hg
    closed := fun x hx => (hg.closed x hx).imp_right (mt hlive)
    closing := fun x hx => (hg.closing x hx).imp_right (mt hlive)
    retired := fun n hn => by
      refine ⟨?_, by simp⟩
      rcases mem_cons.1 hn with rfl | hn
      · exact le_rfl
      · exact (hg.retired n hn).1
    kept := fun x hx => by
      refine (hg.kept x hx).imp_right (.imp_right (.imp_right ?_))
      rintro ⟨n, hx, ⟨rfl, -⟩ | hn⟩
      · exact ⟨_, hx, .inr (mem_cons_self _ _)⟩
      · exact ⟨n, hx, .inr (mem_cons_of_mem hn)⟩ }

lemma Inv.retire (hg : g.Inv) {n : ℕ} {r : Multiset ℕ} (h : g.retiring = n ::ₘ r) :
    ({ g with retiring := r, closing := ↑(g.tracked n) + g.closing } : Generations).Inv := by
  have hn := hg.retired n (h ▸ mem_cons_self n r)
  exact {
    __ := hg
    closing := fun x hx => by
      rcases mem_add.1 hx with hx | hx
      · refine ⟨hg.lt n x hx, ?_⟩
        rintro (hl | ⟨hs, hl⟩)
        · exact (hg.arriving x hl).2 n hx
        · exact absurd (hg.one x n _ hx hl) (hn.2 hs).ne
      · exact hg.closing x hx
    retired := fun m hm => hg.retired m (h ▸ mem_cons_of_mem hm)
    kept := fun x hx => by
      rcases hg.kept x hx with hx | hx | hx | ⟨m, hxm, hm | hm⟩
      · exact .inl hx
      · exact .inr (.inl (mem_add.2 (.inr hx)))
      · exact .inr (.inr (.inl hx))
      · exact .inr (.inr (.inr ⟨m, hxm, .inl hm⟩))
      · rcases mem_cons.1 (h ▸ hm) with rfl | hm
        · exact .inr (.inl (mem_add.2 (.inl (mem_coe.2 hxm))))
        · exact .inr (.inr (.inr ⟨m, hxm, .inr hm⟩)) }

theorem Inv.step {g' : Generations} (hg : g.Inv) (h : Step g g') : g'.Inv := by
  cases h with
  | make => exact hg.make
  | track h hs => exact hg.track h hs
  | drop h => exact hg.drop h
  | lend hd => exact hg.lend hd
  | giveUp h hd => exact hg.giveUp h hd
  | untrack hd => exact hg.untrack hd
  | close h => exact hg.close h
  | replace => exact hg.replace
  | shutdown => exact hg.shutdown
  | retire h => exact hg.retire h

end Generations

end SingBox.Lib
