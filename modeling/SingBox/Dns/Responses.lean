import SingBox.Dns.Walk

/-!
# The responses of the queries

Queries only complete (`Walk.Le`), and the response of a query with a tag is in the map of the tagged responses once
`settleDNSFutures` has looked at the query after it has completed (`Tagged`).
-/

namespace SingBox.Dns

open Option

variable {τ μ ο ε : Type} {env : Env τ μ ο} {w w' : Walk τ μ ο ε}

/-! ### Lists -/

lemma getElem?_set_cases {α : Type} {l : List α} {x y : α} {i j : ℕ} (h : (l.set i x)[j]? = some y) :
    (j = i ∧ y = x) ∨ (j ≠ i ∧ l[j]? = some y) := by
  rw [List.getElem?_set] at h
  split at h
  next hij =>
    split at h
    · cases h
      exact .inl ⟨hij.symm, rfl⟩
    · cases h
  next hij => exact .inr ⟨Ne.symm hij, h⟩

variable {i : ℕ}

lemma getElem?_append_singleton {α : Type} {l : List α} {x y : α} (h : (l ++ [x])[i]? = some y) :
    l[i]? = some y ∨ (i = l.length ∧ y = x) := by
  rcases Nat.lt_trichotomy i l.length with hi | hi | hi
  · left
    rwa [List.getElem?_append_left hi] at h
  · right
    subst hi
    simp only [List.getElem?_concat_length, some.injEq] at h
    exact ⟨rfl, h.symm⟩
  · rw [List.getElem?_eq_none (by simp; omega)] at h
    cases h

/-! ### Queries only complete -/

/-- The queries of `w` are in `w'`, with their tags and the outcomes they have. -/
def Walk.Le (w w' : Walk τ μ ο ε) : Prop :=
  ∀ (i : ℕ) (f : Future τ μ ε) (o : Except ε μ), w.futures[i]? = some f → f.outcome = some o →
    ∃ f', w'.futures[i]? = some f' ∧ f'.tag = f.tag ∧ f'.outcome = some o

lemma Walk.Le.of_eq (h : w'.futures = w.futures) : w.Le w' := by
  intro i f o hf ho
  exact ⟨f, h ▸ hf, rfl, ho⟩

lemma Walk.Le.refl (w : Walk τ μ ο ε) : w.Le w := .of_eq rfl

lemma Walk.Le.append {fs : List (Future τ μ ε)} (h : w'.futures = w.futures ++ fs) : w.Le w' := by
  intro i f o hf ho
  have hi := (List.getElem?_eq_some_iff.1 hf).1
  exact ⟨f, by rw [h, List.getElem?_append_left hi, hf], rfl, ho⟩

lemma Walk.Le.set {f g : Future τ μ ε} (hf : w.futures[i]? = some f) (h : w'.futures = w.futures.set i g)
    (htag : g.tag = f.tag) (hg : ∀ o, f.outcome = some o → g.outcome = some o) : w.Le w' := by
  intro j f' o hf' ho
  have hi := (List.getElem?_eq_some_iff.1 hf).1
  by_cases hij : i = j
  · subst hij
    rw [hf] at hf'
    cases hf'
    exact ⟨g, by rw [h, List.getElem?_set_self hi], htag, hg o ho⟩
  · exact ⟨f', by rw [h, List.getElem?_set_ne hij, hf'], rfl, ho⟩

/-- Futures with nothing changed but whether they are cancelled. -/
structure Relabelled (w w' : Walk τ μ ο ε) (g : ℕ → Future τ μ ε → Future τ μ ε) : Prop where
  futures : w'.futures = w.futures.mapIdx g
  tag : ∀ i f, (g i f).tag = f.tag
  rule : ∀ i f, (g i f).rule = f.rule
  outcome : ∀ i f, (g i f).outcome = f.outcome
  settled : ∀ i f, (g i f).settled = f.settled

lemma Relabelled.le {g : ℕ → Future τ μ ε → Future τ μ ε} (h : Relabelled w w' g) : w.Le w' := by
  intro i f o hf ho
  exact ⟨g i f, by rw [h.futures, List.getElem?_mapIdx, hf, map_some], h.tag i f, (h.outcome i f).trans ho⟩

lemma cancelAll_relabelled (w : Walk τ μ ο ε) : Relabelled w w.cancelAll fun _ f => { f with cancelled := true } := by
  refine ⟨?_, fun _ _ => rfl, fun _ _ => rfl, fun _ _ => rfl, fun _ _ => rfl⟩
  refine List.ext_getElem? fun i => ?_
  simp [Walk.cancelAll]

lemma cancelOthers_relabelled (w : Walk τ μ ο ε) (keep : Option ℕ) :
    Relabelled w (w.cancelOthers keep) fun i f => if keep = some i then f else { f with cancelled := true } := by
  refine ⟨rfl, ?_, ?_, ?_, ?_⟩ <;> intro i f <;> split <;> rfl

lemma Walk.Le.resolved (h : w.Le w') (hr : w.resolved i = true) : w'.resolved i = true := by
  simp only [Walk.resolved, any_eq_true, Future.resolved, isSome_iff_exists] at hr ⊢
  obtain ⟨f, hf, o, ho⟩ := hr
  obtain ⟨f', hf', -, ho'⟩ := h i f o hf ho
  exact ⟨f', hf', o, ho'⟩

lemma Walk.resolved_view (hr : w.resolved i = true) :
    ∃ f o, w.futures[i]? = some f ∧ f.outcome = some o ∧ w.view i = responseOf o := by
  simp only [Walk.resolved, any_eq_true, Future.resolved, isSome_iff_exists] at hr
  obtain ⟨f, hf, o, ho⟩ := hr
  exact ⟨f, o, hf, ho, by simp [Walk.view, Future.view, hf, ho]⟩

/-! ### The map of the tagged responses -/

/-- The futures of tags, and the map of their responses: a response is in the map once its future is settled. -/
structure Tagged (env : Env τ μ ο) (w : Walk τ μ ο ε) : Prop where
  named : ∀ tag i, w.namedFutures tag = some i → ∃ f, w.futures[i]? = some f ∧ f.tag = some tag
  future : ∀ (i : ℕ) (f : Future τ μ ε) (tag : τ), w.futures[i]? = some f → f.tag = some tag →
    w.namedFutures tag = some i ∧ f.rule < w.ruleIndex ∧
      ∃ rule, env.rules[f.rule]? = some rule ∧ rule.evaluateTag = some tag
  settled : ∀ (i : ℕ) (f : Future τ μ ε) (tag : τ), w.futures[i]? = some f → f.tag = some tag → f.settled = true →
    f.resolved = true ∧ w.namedResponses tag = f.view
  unsettled : ∀ (i : ℕ) (f : Future τ μ ε) (tag : τ), w.futures[i]? = some f → f.tag = some tag →
    f.settled = false → w.namedResponses tag = none
  unnamed : ∀ tag, w.namedFutures tag = none → w.namedResponses tag = none

lemma Tagged.of_eq (h : Tagged env w) (hf : w'.futures = w.futures) (hn : w'.namedFutures = w.namedFutures)
    (hr : w'.namedResponses = w.namedResponses) (hi : w.ruleIndex ≤ w'.ruleIndex) : Tagged env w' := by
  refine ⟨?_, ?_, ?_, ?_, ?_⟩
  · rw [hn, hf]
    exact h.named
  · intro i f tag hi' htag
    rw [hf] at hi'
    obtain ⟨h1, h2, h3⟩ := h.future i f tag hi' htag
    exact ⟨hn ▸ h1, by omega, h3⟩
  · rw [hr, hf]
    exact h.settled
  · rw [hr, hf]
    exact h.unsettled
  · rw [hn, hr]
    exact h.unnamed

lemma Tagged.relabel {g : ℕ → Future τ μ ε → Future τ μ ε} (h : Tagged env w) (hg : Relabelled w w' g)
    (hn : w'.namedFutures = w.namedFutures) (hr : w'.namedResponses = w.namedResponses)
    (hi : w'.ruleIndex = w.ruleIndex) : Tagged env w' := by
  -- a future of `w'` is one of `w`, relabelled
  have hget (i : ℕ) (f' : Future τ μ ε) (hf' : w'.futures[i]? = some f') :
      ∃ f, w.futures[i]? = some f ∧ f' = g i f := by
    rw [hg.futures, List.getElem?_mapIdx, map_eq_some_iff] at hf'
    obtain ⟨f, hf, rfl⟩ := hf'
    exact ⟨f, hf, rfl⟩
  refine ⟨?_, ?_, ?_, ?_, ?_⟩
  · intro tag i htag
    rw [hn] at htag
    obtain ⟨f, hf, hft⟩ := h.named tag i htag
    exact ⟨g i f, by rw [hg.futures, List.getElem?_mapIdx, hf, map_some], (hg.tag i f).trans hft⟩
  · intro i f' tag hf' htag
    obtain ⟨f, hf, rfl⟩ := hget i f' hf'
    rw [hn, hi, hg.rule]
    exact h.future i f tag hf ((hg.tag i f).symm.trans htag)
  · intro i f' tag hf' htag hs
    obtain ⟨f, hf, rfl⟩ := hget i f' hf'
    have := h.settled i f tag hf ((hg.tag i f).symm.trans htag) ((hg.settled i f).symm.trans hs)
    simpa [Future.resolved, Future.view, hg.outcome, hr] using this
  · intro i f' tag hf' htag hs
    obtain ⟨f, hf, rfl⟩ := hget i f' hf'
    rw [hr]
    exact h.unsettled i f tag hf ((hg.tag i f).symm.trans htag) ((hg.settled i f).symm.trans hs)
  · rw [hn, hr]
    exact h.unnamed

lemma Tagged.named_set (h : Tagged env w) {f g : Future τ μ ε} (hf : w.futures[i]? = some f)
    (hg : g.tag = f.tag) (tag : τ) (j : ℕ) (htag : w.namedFutures tag = some j) :
    ∃ f', (w.futures.set i g)[j]? = some f' ∧ f'.tag = some tag := by
  have hi := (List.getElem?_eq_some_iff.1 hf).1
  obtain ⟨f₀, hf₀, ht⟩ := h.named tag j htag
  by_cases hij : i = j
  · subst hij
    rw [hf] at hf₀
    cases hf₀
    exact ⟨g, List.getElem?_set_self hi, hg.trans ht⟩
  · exact ⟨f₀, by rw [List.getElem?_set_ne hij, hf₀], ht⟩

variable {f : Future τ μ ε}

lemma Tagged.complete (h : Tagged env w) (hf : w.futures[i]? = some f)
    (hres : f.resolved = false) (o : Except ε μ) : Tagged env (w.complete i f o) := by
  -- the future that completes is not settled yet
  have hget (j : ℕ) (f' : Future τ μ ε) (hf' : (w.complete i f o).futures[j]? = some f') :
      ∃ f₀, w.futures[j]? = some f₀ ∧ f'.tag = f₀.tag ∧ f'.rule = f₀.rule ∧ f'.settled = f₀.settled ∧
        (f₀.resolved = true → f' = f₀) := by
    rcases getElem?_set_cases hf' with ⟨rfl, rfl⟩ | ⟨-, hf₀⟩
    · exact ⟨f, hf, rfl, rfl, rfl, by simp [hres]⟩
    · exact ⟨f', hf₀, rfl, rfl, rfl, fun _ => rfl⟩
  refine ⟨h.named_set hf rfl, ?_, ?_, ?_, h.unnamed⟩
  · intro j f' tag hf' htag
    obtain ⟨f₀, hf₀, ht, hr, -, -⟩ := hget j f' hf'
    rw [hr]
    exact h.future j f₀ tag hf₀ (ht ▸ htag)
  · intro j f' tag hf' htag hs
    obtain ⟨f₀, hf₀, ht, -, hset, hsame⟩ := hget j f' hf'
    have h₀ := h.settled j f₀ tag hf₀ (ht ▸ htag) (hset ▸ hs)
    rw [hsame h₀.1]
    exact h₀
  · intro j f' tag hf' htag hs
    obtain ⟨f₀, hf₀, ht, -, hset, -⟩ := hget j f' hf'
    exact h.unsettled j f₀ tag hf₀ (ht ▸ htag) (hset ▸ hs)

variable [DecidableEq τ]

lemma Walk.settle_le (hf : w.futures[i]? = some f) : w.Le (w.settle i f) := by
  unfold Walk.settle
  split
  · exact .refl w
  · split
    · exact .set hf rfl rfl fun o ho => ho
    · exact .set hf rfl rfl fun o ho => ho

lemma Tagged.settle (h : Tagged env w) (hf : w.futures[i]? = some f) : Tagged env (w.settle i f) := by
  unfold Walk.settle
  split
  · exact h
  next hnew =>
    simp only [Bool.or_eq_true, Bool.not_eq_true', not_or, Bool.not_eq_false] at hnew
    have hfuture (j : ℕ) (f' : Future τ μ ε) (tag : τ)
        (hf' : (w.futures.set i { f with settled := true })[j]? = some f') (htag : f'.tag = some tag) :
        w.namedFutures tag = some j ∧ f'.rule < w.ruleIndex ∧
          ∃ rule, env.rules[f'.rule]? = some rule ∧ rule.evaluateTag = some tag := by
      rcases getElem?_set_cases hf' with ⟨rfl, rfl⟩ | ⟨-, hf₀⟩
      · exact h.future j f tag hf htag
      · exact h.future j f' tag hf₀ htag
    split
    next hnone =>
      refine ⟨h.named_set hf rfl, hfuture, ?_, ?_, h.unnamed⟩
      · intro j f' tag hf' htag hs
        rcases getElem?_set_cases hf' with ⟨rfl, rfl⟩ | ⟨-, hf₀⟩
        · rw [hnone] at htag
          cases htag
        · exact h.settled j f' tag hf₀ htag hs
      · intro j f' tag hf' htag hs
        rcases getElem?_set_cases hf' with ⟨rfl, rfl⟩ | ⟨-, hf₀⟩
        · cases hs
        · exact h.unsettled j f' tag hf₀ htag hs
    next tag hsome =>
      -- no other future has this tag
      have hother (j : ℕ) (f' : Future τ μ ε) (tag' : τ) (hne : j ≠ i) (hf₀ : w.futures[j]? = some f')
          (htag : f'.tag = some tag') : tag' ≠ tag := by
        rintro rfl
        have h1 := (h.future i f tag' hf hsome).1
        have h2 := (h.future j f' tag' hf₀ htag).1
        rw [h1, some.injEq] at h2
        exact hne h2.symm
      refine ⟨h.named_set hf rfl, hfuture, ?_, ?_, ?_⟩
      · intro j f' tag' hf' htag hs
        rcases getElem?_set_cases hf' with ⟨rfl, rfl⟩ | ⟨hne, hf₀⟩
        · rw [hsome, some.injEq] at htag
          subst htag
          exact ⟨hnew.2, by simp [update, Future.view]⟩
        · have hne' := hother j f' tag' hne hf₀ htag
          simpa [update, hne'] using h.settled j f' tag' hf₀ htag hs
      · intro j f' tag' hf' htag hs
        rcases getElem?_set_cases hf' with ⟨rfl, rfl⟩ | ⟨hne, hf₀⟩
        · cases hs
        · have hne' := hother j f' tag' hne hf₀ htag
          simpa [update, hne'] using h.unsettled j f' tag' hf₀ htag hs
      · intro tag' hnone
        by_cases heq : tag' = tag
        · subst heq
          rw [(h.future i f tag' hf hsome).1] at hnone
          cases hnone
        · simpa [update, heq] using h.unnamed tag' hnone

lemma Tagged.launch (h : Tagged env w) (hf : w'.futures = w.futures ++ [f]) (hs : f.settled = false)
    (hn : ∀ tag, w'.namedFutures tag = if f.tag = some tag then some w.futures.length else w.namedFutures tag)
    (hr : w'.namedResponses = w.namedResponses) (hi : w.ruleIndex ≤ w'.ruleIndex)
    (hnew : ∀ tag, f.tag = some tag → w.namedFutures tag = none ∧ f.rule < w'.ruleIndex ∧
      ∃ rule, env.rules[f.rule]? = some rule ∧ rule.evaluateTag = some tag) : Tagged env w' := by
  have hold (j : ℕ) (f' : Future τ μ ε) (tag : τ) (hf' : w.futures[j]? = some f') (htag : f'.tag = some tag) :
      f.tag ≠ some tag := by
    intro heq
    have := (h.future j f' tag hf' htag).1
    rw [(hnew tag heq).1] at this
    cases this
  refine ⟨?_, ?_, ?_, ?_, ?_⟩
  · intro tag j htag
    rw [hn] at htag
    split at htag
    next heq =>
      cases htag
      exact ⟨f, by simp [hf], heq⟩
    · obtain ⟨f₀, hf₀, ht⟩ := h.named tag j htag
      have hlt := (List.getElem?_eq_some_iff.1 hf₀).1
      exact ⟨f₀, by rw [hf, List.getElem?_append_left hlt, hf₀], ht⟩
  · intro j f' tag hf' htag
    rw [hf] at hf'
    rcases getElem?_append_singleton hf' with hf' | ⟨rfl, rfl⟩
    · obtain ⟨h1, h2, h3⟩ := h.future j f' tag hf' htag
      exact ⟨by rw [hn, if_neg (hold j f' tag hf' htag), h1], by omega, h3⟩
    · obtain ⟨-, h2, h3⟩ := hnew tag htag
      exact ⟨by rw [hn, if_pos htag], h2, h3⟩
  · intro j f' tag hf' htag hs'
    rw [hf] at hf'
    rcases getElem?_append_singleton hf' with hf' | ⟨rfl, rfl⟩
    · rw [hr]
      exact h.settled j f' tag hf' htag hs'
    · rw [hs] at hs'
      cases hs'
  · intro j f' tag hf' htag hs'
    rw [hf] at hf'
    rw [hr]
    rcases getElem?_append_singleton hf' with hf' | ⟨rfl, rfl⟩
    · exact h.unsettled j f' tag hf' htag hs'
    · exact h.unnamed tag (hnew tag htag).1
  · intro tag hnone
    rw [hn] at hnone
    split at hnone
    · cases hnone
    · rw [hr]
      exact h.unnamed tag hnone

end SingBox.Dns
