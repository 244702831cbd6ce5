import SingBox.Adapter.StartOrder

/-!
# The reason of a failed start

The search of `startOutbounds` for the reason follows the dependencies that are not started in the manager's own map of
outbounds (`adapter/outbound/manager.go`), while the list that is started has the endpoints too.
-/

namespace SingBox.Adapter

open SingBox.Lib Relation List

/-- The chain is one of dependencies that comes back to itself; the missing tag is not in the list. -/
def Reason.Right (es : List Element) : Reason → Prop
  | circular oTree problemTag => (oTree ++ [problemTag]).IsChain (DependsOn es) ∧ problemTag ∈ oTree
  | missing problemTag _ => problemTag ∉ es.map Element.tag

/-- `Manager.Start`: the outbounds and the endpoints are started, and the map has the outbounds. -/
def startAll (outbounds endpoints : List Element) : Option (StartState × Outcome) :=
  startOutbounds (outbounds.map fun e => (e.tag, e)) (outbounds ++ endpoints)

def FirstNot {α : Type} (ok : α → Prop) (l : List α) (a : α) : Prop :=
  ∃ l₁ l₂, l = l₁ ++ a :: l₂ ∧ (∀ b ∈ l₁, ok b) ∧ ¬ ok a

/-- The start of `a` waits for `b`: the first of its dependencies that cannot start. -/
def WaitsFor (es : List Element) (a b : String) : Prop :=
  ∃ e ∈ es, e.tag = a ∧ FirstNot (CanStart es) e.dependencies b

/-- From the first element that cannot start, along what each waits for, there is no endpoint but itself. -/
def NoEndpointAhead (outbounds endpoints : List Element) : Prop :=
  ∀ e, FirstNot (fun e => CanStart (outbounds ++ endpoints) e.tag) (outbounds ++ endpoints) e →
    ∀ t, TransGen (WaitsFor (outbounds ++ endpoints)) e.tag t → t = e.tag ∨ t ∉ endpoints.map Element.tag

variable {outbounds endpoints es : List Element} {started : List String} {e : Element} {oTree : List String}

lemma firstNot_iff_find? {α : Type} {ok : α → Prop} {p : α → Bool} (hp : ∀ a, p a = true ↔ ¬ ok a) {l : List α}
    {a : α} : FirstNot ok l a ↔ l.find? p = some a := by
  have hp' (a : α) : (!p a) = true ↔ ok a := by simp [← not_iff_not, ← hp]
  rw [find?_eq_some_iff_append]
  simp only [hp, hp']
  exact ⟨fun ⟨l₁, l₂, h, hall, hnot⟩ => ⟨hnot, l₁, l₂, h, hall⟩, fun ⟨hnot, l₁, l₂, h, hall⟩ => ⟨l₁, l₂, h, hall, hnot⟩⟩

/-- The search at an element, with the path to it. -/
structure Search (es : List Element) (oTree : List String) (e : Element) : Prop where
  mem : e ∈ es
  stuck : ¬ CanStart es e.tag
  last : oTree.getLast? = some e.tag
  chain : oTree.IsChain (DependsOn es)
  /-- What the elements before it wait for is on the path. -/
  closed : ∀ t ∈ oTree, t ≠ e.tag → ∀ b, WaitsFor es t b → b ∈ oTree

section Search

variable (hnodup : (es.map Element.tag).Nodup) (hstarted : ∀ t, t ∈ started ↔ CanStart es t)

include hnodup hstarted

lemma waitsFor_iff (he : e ∈ es) {b : String} : WaitsFor es e.tag b ↔ e.dependencies.find? (· ∉ started) = some b := by
  refine Iff.trans ⟨?_, fun h => ⟨e, he, rfl, h⟩⟩ (firstNot_iff_find? (by simp [hstarted]))
  rintro ⟨e', he', htag, h⟩
  exact inj_on_of_nodup_map hnodup he' he htag ▸ h

/-- An element that cannot start waits for exactly one tag. -/
lemma exists_waitsFor (he : e ∈ es) (hstuck : ¬ CanStart es e.tag) :
    ∃ b, e.dependencies.find? (· ∉ started) = some b ∧ ∀ c, WaitsFor es e.tag c ↔ c = b := by
  have hsome : (e.dependencies.find? (· ∉ started)).isSome := by
    refine find?_isSome.2 ?_
    by_contra hall
    refine hstuck (.intro he fun d hd => (hstarted d).1 ?_)
    by_contra hnot
    exact hall ⟨d, hd, by simpa using hnot⟩
  obtain ⟨b, hb⟩ := Option.isSome_iff_exists.1 hsome
  exact ⟨b, hb, fun c => by rw [waitsFor_iff hnodup hstarted he, hb, Option.some.injEq, eq_comm]⟩

end Search

lemma lookup_outbounds (outbounds : List Element) (t : String) :
    (outbounds.map fun e => (e.tag, e)).lookup t = none ∧ t ∉ outbounds.map Element.tag ∨
    ∃ e ∈ outbounds, (outbounds.map fun e => (e.tag, e)).lookup t = some e ∧ e.tag = t := by
  cases h : (outbounds.map fun e => (e.tag, e)).lookup t with
  | none =>
    have hne := lookup_eq_none_iff.1 h
    refine .inl ⟨rfl, fun ht => ?_⟩
    obtain ⟨e, he, rfl⟩ := mem_map.1 ht
    simpa using hne _ (mem_map_of_mem he)
  | some e =>
    obtain ⟨l₁, l₂, hl, -⟩ := lookup_eq_some_iff.1 h
    have hmem : (t, e) ∈ outbounds.map fun e => (e.tag, e) := by simp [hl]
    obtain ⟨e', he', heq⟩ := mem_map.1 hmem
    cases heq
    exact .inr ⟨e, he', rfl, rfl⟩

/-- What is reported is right exactly if no endpoint is ahead. -/
lemma lint_reason (hnodup : ((outbounds ++ endpoints).map Element.tag).Nodup)
    (hstarted : ∀ t, t ∈ started ↔ CanStart (outbounds ++ endpoints) t) {fuel : ℕ} {r : Reason}
    (h : Search (outbounds ++ endpoints) oTree e)
    (hl : Starter.lint (outbounds.map fun e => (e.tag, e)) started fuel oTree e = some r) :
    r.Right (outbounds ++ endpoints) ↔
      ∀ t, TransGen (WaitsFor (outbounds ++ endpoints)) e.tag t → t ∈ oTree ∨ t ∉ endpoints.map Element.tag := by
  induction fuel generalizing oTree e with
  | zero => cases hl
  | succ fuel ih =>
    obtain ⟨b, hfind, hnext⟩ := exists_waitsFor hnodup hstarted h.mem h.stuck
    have hahead (t : String) : TransGen (WaitsFor (outbounds ++ endpoints)) e.tag t ↔
        b = t ∨ TransGen (WaitsFor (outbounds ++ endpoints)) b t := by
      rw [TransGen.head'_iff]
      simp only [hnext, exists_eq_left]
      rw [reflTransGen_iff_eq_or_transGen, eq_comm]
    have hchain : (oTree ++ [b]).IsChain (DependsOn (outbounds ++ endpoints)) := by
      refine h.chain.append (.singleton b) fun x hx y hy => ?_
      cases h.last.symm.trans hx
      cases hy
      exact ⟨e, h.mem, rfl, mem_of_find?_eq_some hfind⟩
    simp only [Starter.lint, hfind, Option.getD_some] at hl
    split at hl
    next hb =>
      cases hl
      refine iff_of_true ⟨hchain, hb⟩ fun t ht => .inl ?_
      induction ht with
      | single hw => exact (hnext _).1 hw ▸ hb
      | @tail x y _ hw ih =>
        by_cases heq : x = e.tag
        · exact (hnext _).1 (heq ▸ hw) ▸ hb
        · exact h.closed x ih heq y hw
    next hb =>
      rcases lookup_outbounds outbounds b with ⟨hnone, hout⟩ | ⟨e', he', hsome, rfl⟩
      · rw [hnone] at hl
        cases hl
        constructor
        · intro hright t ht
          rcases (hahead t).1 ht with rfl | ht
          · exact .inr fun hin => hright (by simp_all)
          · obtain ⟨c, ⟨e', he', rfl, -⟩, -⟩ := TransGen.head'_iff.1 ht
            exact absurd (mem_map_of_mem he') hright
        · intro hno hmem
          rcases mem_append.1 (map_append ▸ hmem) with hmem | hmem
          · exact hout hmem
          · exact (hno b ((hahead b).2 (.inl rfl))).elim hb (· hmem)
      · rw [hsome] at hl
        have hend : e'.tag ∉ endpoints.map Element.tag := by
          rw [map_append] at hnodup
          exact disjoint_of_nodup_append hnodup (mem_map_of_mem he')
        have hsearch : Search (outbounds ++ endpoints) (oTree ++ [e'.tag]) e' := by
          refine ⟨mem_append_left _ he', ?_, by simp, hchain, fun t ht hne b hw => ?_⟩
          · rw [← hstarted]
            simpa using find?_some hfind
          · have ht : t ∈ oTree := by simpa [hne] using ht
            by_cases heq : t = e.tag
            · rw [heq, hnext] at hw
              simp [hw]
            · exact mem_append_left _ (h.closed t ht heq b hw)
        refine (ih hsearch hl).trans (forall_congr' fun t => ?_)
        rw [hahead, mem_append, mem_singleton]
        constructor
        · rintro hno (rfl | ht)
          · exact .inr hend
          · rcases hno ht with (ht | rfl) | ht
            · exact .inl ht
            · exact .inr hend
            · exact .inr ht
        · exact fun hno ht => (hno (.inr ht)).imp_left .inl

/-- **Startup errors name the real cause** exactly if no endpoint is ahead, when all start methods succeed. -/
theorem startup_error_iff {outbounds endpoints : List Element}
    (hnodup : ((outbounds ++ endpoints).map Element.tag).Nodup)
    (hstart : ∀ e ∈ outbounds ++ endpoints, e.startError = none) {s : StartState} {outcome : Outcome}
    (h : startAll outbounds endpoints = some (s, outcome)) (hout : outcome ≠ .done) :
    ∃ r, outcome = .stuck r ∧ (r.Right (outbounds ++ endpoints) ↔ NoEndpointAhead outbounds endpoints) := by
  obtain ⟨s', outcome', hrun, -, hwhy⟩ := start_spec hnodup hstart (outbounds.map fun e => (e.tag, e))
  cases hrun.symm.trans h
  obtain ⟨r, hr, hstarted, e, hfind, hlint⟩ := hwhy hout
  have hfirst {e' : Element} : FirstNot (fun e => CanStart (outbounds ++ endpoints) e.tag) (outbounds ++ endpoints) e' ↔
      e' = e := by
    rw [firstNot_iff_find? (p := (·.tag ∉ s.started)) (by simp [hstarted]), hfind, Option.some.injEq, eq_comm]
  refine ⟨r, hr, (lint_reason hnodup hstarted
    ⟨mem_of_find?_eq_some hfind, (hstarted _).not.1 (by simpa using find?_some hfind), rfl, .singleton _,
      fun t ht => absurd (mem_singleton.1 ht)⟩ hlint).trans ?_⟩
  simp [NoEndpointAhead, hfirst]

/-- A selector of an endpoint that waits for a missing tag is told that the endpoint is missing. -/
theorem endpoint_reported_missing :
    (startAll [{ tag := "a", dependencies := ["ep"] }] [{ tag := "ep", dependencies := ["b"] }]).map (·.2) =
      some (.stuck (.missing "ep" "a")) ∧
    ¬ (Reason.missing "ep" "a").Right
      ([{ tag := "a", dependencies := ["ep"] }] ++ [{ tag := "ep", dependencies := ["b"] }]) :=
  ⟨by decide, by simp [Reason.Right]⟩

/-- A selector of an endpoint that starts and of two outbounds in a cycle. -/
theorem cycle_reported : ∃ r, Outcome.stuck (.circular ["a", "b", "c"] "b") = .stuck r ∧
      (r.Right ([{ tag := "a", dependencies := ["ep", "b"] }, { tag := "b", dependencies := ["c"] },
          { tag := "c", dependencies := ["b"] }] ++ [{ tag := "ep" }]) ↔
        NoEndpointAhead [{ tag := "a", dependencies := ["ep", "b"] }, { tag := "b", dependencies := ["c"] },
          { tag := "c", dependencies := ["b"] }] [{ tag := "ep" }]) :=
  startup_error_iff (by decide) (by decide) rfl (by simp)

end SingBox.Adapter
