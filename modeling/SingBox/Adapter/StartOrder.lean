import SingBox.Lib.Schedule

/-!
# The order in which outbounds and DNS servers start

`startOutbounds` (`adapter/outbound/manager.go`) and `startTransports` (`dns/transport_manager.go`): passes over the
list start what has all its dependencies started, until a pass starts nothing; then a search along the dependencies
that are not started finds the reason.

The two functions are the same but for their texts and for the start methods they know, which are the fields of
`Starter`.  The loops have fuel; the main theorem says that it suffices.
-/

namespace SingBox.Adapter

open SingBox.Lib Relation List

/-! ### Elements -/

/-- How an element starts: `adapter.Lifecycle`, a plain `Start`, or not at all. -/
inductive StartMethod where
  | lifecycle
  | plain
  | absent
  deriving DecidableEq

/-- An outbound, an endpoint or a DNS server. -/
structure Element where
  tag : String
  type : String := ""
  dependencies : List String := []
  method : StartMethod := .lifecycle
  /-- The error its start method returns, if it does. -/
  startError : Option String := none
  deriving DecidableEq

/-- What tells the managers apart. -/
structure Starter where
  /-- What an element is called in a log line, before its type. -/
  path : String
  /-- What an element is called in the message about a cycle or a missing dependency. -/
  noun : String
  /-- Whether a plain `Start` is called. -/
  plainStart : Bool

def outboundStarter : Starter := ⟨"outbound/", "outbound", true⟩

/-- `outboundByTag` or `transportByTag`. -/
abbrev ByTag := List (String × Element)

/-- Why no element could be started any more. -/
inductive Reason where
  | circular (oTree : List String) (problemTag : String)
  | missing (problemTag tag : String)
  deriving DecidableEq

/-- How a start ends: without an error, with that of a start method, with the reason why nothing could start, or in a
panic. -/
inductive Outcome where
  | done
  | failed (name err : String)
  | stuck (reason : Reason)
  | panic
  deriving DecidableEq

/-! ### A pass -/

/-- The state of the loop: the tags in the map `started`, in the order in which they were put there, each with whether
a start method was called for it; and whether the current pass has started something. -/
structure StartState where
  log : List (String × Bool) := []
  canContinue : Bool := false

namespace StartState

def started (s : StartState) : List String := s.log.map Prod.fst

end StartState

namespace Starter

variable (m : Starter)

def calls (e : Element) : Bool := e.method = .lifecycle || m.plainStart && e.method = .plain

def name (e : Element) : String := m.path ++ e.type ++ "[" ++ e.tag ++ "]"

def startPass : List Element → StartState → StartState × Outcome
  | [], s => (s, .done)
  | e :: es, s =>
    if e.tag ∈ s.started then startPass es s
    else if e.dependencies.any (· ∉ s.started) then startPass es s
    else
      let s := { log := s.log ++ [(e.tag, m.calls e)], canContinue := true }
      match e.startError with
      | some err => if m.calls e then (s, .failed (m.name e) err) else startPass es s
      | none => startPass es s

/-! ### The reason of a failure -/

/-- `lintOutbound` and `lintTransport`: from an element to its first dependency that is not started. -/
def lint (byTag : ByTag) (started : List String) : ℕ → List String → Element → Option Reason
  | 0, _, _ => none
  | fuel + 1, oTree, oCurrent =>
    let problemTag := (oCurrent.dependencies.find? (· ∉ started)).getD ""
    if problemTag ∈ oTree then some (.circular oTree problemTag)
    else match byTag.lookup problemTag with
      | none => some (.missing problemTag oCurrent.tag)
      | some problem => lint byTag started fuel (oTree ++ [problemTag]) problem

def text : Outcome → Option String
  | .failed name err => some ("start " ++ name ++ ": " ++ err)
  | .stuck (.circular oTree problemTag) =>
    some ("circular " ++ m.noun ++ " dependency: " ++ " -> ".intercalate oTree ++ " -> " ++ problemTag)
  | .stuck (.missing problemTag tag) =>
    some ("dependency[" ++ problemTag ++ "] not found for " ++ m.noun ++ "[" ++ tag ++ "]")
  | _ => none

/-- What follows a pass without an error: the end, another pass (`none`), or the search for the reason. -/
def afterPass (byTag : ByTag) (es : List Element) (s : StartState) : Option (Option Outcome) :=
  if s.log.length = es.length then some (some .done)
  else if s.canContinue then some none
  else match es.find? (·.tag ∉ s.started) with
    | none => some (some .panic)
    | some current => (lint byTag s.started (byTag.length + 1) [current.tag] current).map (some <| .stuck ·)

/-- The passes; `none` when the fuel does not suffice. -/
def startLoop (byTag : ByTag) (es : List Element) : ℕ → StartState → Option (StartState × Outcome)
  | 0, _ => none
  | fuel + 1, s =>
    match m.startPass es { s with canContinue := false } with
    | (s, .done) =>
      match afterPass byTag es s with
      | none => none
      | some (some outcome) => some (s, outcome)
      | some none => startLoop byTag es fuel s
    | (s, outcome) => some (s, outcome)

def start (byTag : ByTag) (es : List Element) : Option (StartState × Outcome) :=
  m.startLoop byTag es (es.length + 1) {}

end Starter

/-- `startOutbounds`, with the outbounds and endpoints. -/
def startOutbounds (outboundByTag : ByTag) (outbounds : List Element) : Option (StartState × Outcome) :=
  outboundStarter.start outboundByTag outbounds

/-- Every step of the search adds a key of the map to the path, so that there are at most as many as keys. -/
lemma Starter.lint_isSome (byTag : ByTag) (started : List String) (fuel : ℕ) (oTree : List String)
    (e : Element) (h : ((byTag.map Prod.fst).filter (· ∉ oTree)).length < fuel) :
    (Starter.lint byTag started fuel oTree e).isSome := by
  induction fuel generalizing oTree e with
  | zero => omega
  | succ fuel ih =>
    rw [lint]
    generalize (e.dependencies.find? (· ∉ started)).getD "" = problemTag
    split
    · rfl
    next hnew =>
      split
      · rfl
      next problem hlookup =>
        have hkey : problemTag ∈ byTag.map Prod.fst := by
          obtain ⟨l₁, l₂, hsplit, -⟩ := lookup_eq_some_iff.1 hlookup
          simp [hsplit]
        refine ih _ problem (lt_of_lt_of_le ?_ (Nat.le_of_lt_succ h))
        -- the new tag is a key that no longer counts
        have hsub : (byTag.map Prod.fst).filter (· ∉ oTree ++ [problemTag]) =
            ((byTag.map Prod.fst).filter (· ∉ oTree)).filter (· ≠ problemTag) := by
          rw [filter_filter]
          refine filter_congr fun t _ => ?_
          simp [and_comm]
        rw [hsub]
        refine length_filter_lt_length_iff_exists.2 ⟨problemTag, ?_, by simp⟩
        simp [hkey, hnew]

/-! ### What a pass does -/

def DependsOn (es : List Element) (a b : String) : Prop := ∃ e ∈ es, e.tag = a ∧ b ∈ e.dependencies

/-- An element that is not started and waits for another. -/
def Waits (started : List String) (e : Element) : Prop := e.tag ∉ started ∧ ∃ d ∈ e.dependencies, d ∉ started

/-- All that it depends on, however indirectly, is in the list, and there is no cycle among it. -/
inductive CanStart (es : List Element) : String → Prop
  | intro {e : Element} : e ∈ es → (∀ d ∈ e.dependencies, CanStart es d) → CanStart es e.tag

section Pass

variable {m : Starter} {es : List Element}

lemma canStart_of_schedule {log : List String} (hs : Schedule (DependsOn es) log)
    (ht : ∀ t ∈ log, t ∈ es.map Element.tag) : ∀ t ∈ log, CanStart es t := by
  induction hs with
  | nil => simp
  | snoc hs hnew hdeps ih =>
    have hold := ih fun t h => ht t (mem_append_left _ h)
    intro t ht'
    rcases mem_append.1 ht' with h | h
    · exact hold t h
    · obtain ⟨e, he, rfl⟩ := mem_map.1 (ht t ht')
      cases mem_singleton.1 h
      exact .intro he fun d hd => hold d (hdeps d ⟨e, he, rfl, hd⟩)

lemma CanStart.started {log : List String} {t : String} (h : CanStart es t)
    (hall : ∀ e ∈ es, e.tag ∈ log ∨ Waits log e) : t ∈ log := by
  induction h with
  | intro he _ ih =>
    rcases hall _ he with h | ⟨-, d, hd, hnot⟩
    · exact h
    · exact absurd (ih d hd) hnot

/-- What a pass over some of the elements leaves. -/
structure PassOf (es part : List Element) (s s' : StartState) : Prop where
  schedule : Schedule (DependsOn es) s'.started
  tags : ∀ t ∈ s'.started, t ∈ es.map Element.tag
  grows : s.log.length ≤ s'.log.length
  /-- The flag is raised exactly when the log has grown. -/
  flag : s'.canContinue = true ↔ s.canContinue = true ∨ s.log.length < s'.log.length
  /-- If nothing was started, every element was started before or waits. -/
  stuck : s'.log.length = s.log.length → s' = s ∧ ∀ e ∈ part, e.tag ∈ s.started ∨ Waits s.started e

lemma startPass_passOf (hnodup : (es.map Element.tag).Nodup) (hstart : ∀ e ∈ es, e.startError = none)
    {part : List Element} (hpart : ∀ e ∈ part, e ∈ es) {s : StartState}
    (hs : Schedule (DependsOn es) s.started) (ht : ∀ t ∈ s.started, t ∈ es.map Element.tag) :
    (m.startPass part s).2 = .done ∧ PassOf es part s (m.startPass part s).1 := by
  induction part generalizing s with
  | nil => exact ⟨rfl, hs, ht, le_rfl, by simp [Starter.startPass], fun _ => ⟨rfl, by simp⟩⟩
  | cons e part ih =>
    have he : e ∈ es := hpart e mem_cons_self
    have hrest : ∀ e' ∈ part, e' ∈ es := fun e' h => hpart e' (mem_cons_of_mem _ h)
    -- an element that is passed over changes nothing
    have skip : (e.tag ∈ s.started ∨ Waits s.started e) → m.startPass (e :: part) s = m.startPass part s →
        (m.startPass (e :: part) s).2 = .done ∧ PassOf es (e :: part) s (m.startPass (e :: part) s).1 := by
      intro hskip heq
      obtain ⟨hdone, hpass⟩ := ih hrest hs ht
      rw [heq]
      refine ⟨hdone, { hpass with stuck := fun hlen => ?_ }⟩
      obtain ⟨hsame, hall⟩ := hpass.stuck hlen
      exact ⟨hsame, forall_mem_cons.2 ⟨hskip, hall⟩⟩
    by_cases hold : e.tag ∈ s.started
    · exact skip (.inl hold) (by rw [Starter.startPass, if_pos hold])
    · by_cases hwait : e.dependencies.any (· ∉ s.started) = true
      · refine skip (.inr ⟨hold, ?_⟩) (by rw [Starter.startPass, if_neg hold, if_pos hwait])
        simpa using hwait
      · have hready : ∀ d ∈ e.dependencies, d ∈ s.started := by simpa using hwait
        have hsnoc : Schedule (DependsOn es) (s.started ++ [e.tag]) := by
          refine hs.snoc hold fun b hb => ?_
          obtain ⟨e', he', htag, hb⟩ := hb
          rw [inj_on_of_nodup_map hnodup he' he htag] at hb
          exact hready b hb
        have hlog : (s.log ++ [(e.tag, m.calls e)]).map Prod.fst = s.started ++ [e.tag] := by
          simp [StartState.started]
        obtain ⟨hdone, hpass⟩ := ih (s := ⟨s.log ++ [(e.tag, m.calls e)], true⟩) hrest
          (by rw [StartState.started, hlog]; exact hsnoc)
          (by
            intro t h
            rw [StartState.started, hlog, mem_append, mem_singleton] at h
            rcases h with h | rfl
            · exact ht t h
            · exact mem_map_of_mem he)
        have heq : m.startPass (e :: part) s = m.startPass part ⟨s.log ++ [(e.tag, m.calls e)], true⟩ := by
          rw [Starter.startPass, if_neg hold, if_neg hwait, hstart e he]
        have hgrew : s.log.length < (m.startPass part ⟨s.log ++ [(e.tag, m.calls e)], true⟩).1.log.length := by
          have := hpass.grows
          simp only [length_append, length_singleton] at this
          omega
        rw [heq]
        refine ⟨hdone, hpass.schedule, hpass.tags, hgrew.le, ?_, fun hlen => absurd hlen hgrew.ne'⟩
        simp [hpass.flag, hgrew]

end Pass

/-! ### What the loop does -/

/-- Every dependency is in the list, and none depends on itself through others. -/
def Startable (es : List Element) : Prop :=
  (∀ e ∈ es, ∀ d ∈ e.dependencies, d ∈ es.map Element.tag) ∧ ∀ t, ¬TransGen (DependsOn es) t t

/-- **What a start does**: each element is started at most once, after the elements it depends on; it ends without an
error exactly when the dependencies allow it, and then all are started. -/
structure StartsByDependency (es : List Element) (s : StartState) (outcome : Outcome) : Prop where
  once : s.started.Nodup
  after : ∀ l₁ t l₂, s.started = l₁ ++ t :: l₂ → ∀ d, DependsOn es t d → d ∈ l₁
  done_iff : outcome = .done ↔ Startable es
  complete : outcome = .done → ∀ e ∈ es, e.tag ∈ s.started

/-- What the search for the reason gives in this state. -/
def Explains (byTag : ByTag) (es : List Element) (s : StartState) (r : Reason) : Prop :=
  ∃ e, es.find? (·.tag ∉ s.started) = some e ∧ Starter.lint byTag s.started (byTag.length + 1) [e.tag] e = some r

section Loop

variable {m : Starter} {es : List Element} {s : StartState}

lemma startable_of_schedule (hs : Schedule (DependsOn es) s.started) (hall : ∀ e ∈ es, e.tag ∈ s.started)
    (ht : ∀ t ∈ s.started, t ∈ es.map Element.tag) : Startable es := by
  have hdep : ∀ e ∈ es, ∀ d ∈ e.dependencies, d ∈ s.started := by
    intro e he d hd
    exact hs.mem_of_transGen (hall e he) (.single ⟨e, he, rfl, hd⟩)
  refine ⟨fun e he d hd => ht d (hdep e he d hd), fun t hcycle => ?_⟩
  obtain ⟨b, ⟨e, he, rfl, -⟩, -⟩ := TransGen.head'_iff.1 hcycle
  exact hs.not_cycle (hall e he) hcycle

lemma not_startable_of_waits (hall : ∀ e ∈ es, e.tag ∈ s.started ∨ Waits s.started e) {e : Element} (he : e ∈ es)
    (hnot : e.tag ∉ s.started) : ¬Startable es := by
  rintro ⟨hmem, hacyclic⟩
  -- the elements that wait: each depends on one of them
  have hfin : {t | t ∈ es.map Element.tag ∧ t ∉ s.started}.Finite :=
    (es.map Element.tag).finite_toSet.subset fun t h => h.1
  refine absurd (exists_cycle hfin ⟨e.tag, mem_map_of_mem he, hnot⟩ ?_) (by simpa using hacyclic)
  rintro t ⟨ht, hnot⟩
  obtain ⟨e', he', rfl⟩ := mem_map.1 ht
  rcases hall e' he' with h | ⟨-, d, hd, hdnot⟩
  · exact absurd h hnot
  · exact ⟨d, ⟨hmem e' he' d hd, hdnot⟩, e', he', rfl, hd⟩

lemma length_started_le (hs : Schedule (DependsOn es) s.started) (ht : ∀ t ∈ s.started, t ∈ es.map Element.tag) :
    s.log.length ≤ es.length := by
  have h := (hs.nodup.subperm ht).length_le
  simpa [StartState.started] using h

lemma afterPass_stuck (hnodup : (es.map Element.tag).Nodup) (byTag : ByTag)
    (hlen : s.log.length ≠ es.length) (hflag : s.canContinue = false) (hs : Schedule (DependsOn es) s.started)
    (ht : ∀ t ∈ s.started, t ∈ es.map Element.tag) : ∃ e ∈ es, e.tag ∉ s.started ∧ ∃ r,
      Starter.afterPass byTag es s = some (some (.stuck r)) ∧ Explains byTag es s r := by
  have hle := length_started_le hs ht
  cases hfind : es.find? (·.tag ∉ s.started) with
  | none =>
    have hsub : es.map Element.tag ⊆ s.started := by
      intro t h
      obtain ⟨e, he, rfl⟩ := mem_map.1 h
      simpa using find?_eq_none.1 hfind e he
    have := (hnodup.subperm hsub).length_le
    simp only [length_map, StartState.started] at this
    omega
  | some e =>
    have hlint := Starter.lint_isSome byTag s.started (byTag.length + 1) [e.tag] e
      (Nat.lt_succ_of_le (le_trans (length_filter_le _ _) (by simp)))
    obtain ⟨r, hr⟩ := Option.isSome_iff_exists.1 hlint
    refine ⟨e, mem_of_find?_eq_some hfind, by simpa using find?_some hfind, r, ?_, e, hfind, hr⟩
    rw [Starter.afterPass, if_neg hlen, if_neg (by simp [hflag])]
    simp only [hfind, hr, Option.map_some]

/-- The loop ends within as many passes as elements are left, and one more. -/
lemma startLoop_spec (hnodup : (es.map Element.tag).Nodup) (hstart : ∀ e ∈ es, e.startError = none) (byTag : ByTag)
    {fuel : ℕ} (hs : Schedule (DependsOn es) s.started) (ht : ∀ t ∈ s.started, t ∈ es.map Element.tag)
    (hfuel : es.length - s.log.length < fuel) :
    ∃ s' outcome, m.startLoop byTag es fuel s = some (s', outcome) ∧ StartsByDependency es s' outcome ∧
      (outcome ≠ .done → ∃ r, outcome = .stuck r ∧ (∀ t, t ∈ s'.started ↔ CanStart es t) ∧
        Explains byTag es s' r) := by
  induction fuel generalizing s with
  | zero => omega
  | succ fuel ih =>
    obtain ⟨hdone, hpass⟩ := startPass_passOf (s := { s with canContinue := false }) hnodup hstart (fun _ h => h) hs ht
    generalize hout : m.startPass es { s with canContinue := false } = out at hdone hpass
    obtain ⟨s', outcome⟩ := out
    dsimp only at hdone hpass
    subst hdone
    have hle := length_started_le hpass.schedule hpass.tags
    rw [Starter.startLoop, hout]
    by_cases hlen : s'.log.length = es.length
    · have hperm := (hpass.schedule.nodup.subperm hpass.tags).perm_of_length_le (by simp [StartState.started, hlen])
      have hall : ∀ e ∈ es, e.tag ∈ s'.started := fun e he => hperm.mem_iff.2 (mem_map_of_mem he)
      refine ⟨s', .done, by simp [Starter.afterPass, hlen], ⟨hpass.schedule.nodup,
        fun _ _ _ hsplit _ => hpass.schedule.before hsplit, ?_, fun _ => hall⟩, by simp⟩
      exact iff_of_true rfl (startable_of_schedule hpass.schedule hall hpass.tags)
    · by_cases hgrew : s.log.length < s'.log.length
      · have hflag : s'.canContinue = true := hpass.flag.2 (.inr hgrew)
        have hagain : Starter.afterPass byTag es s' = some none := by
          rw [Starter.afterPass, if_neg hlen, if_pos hflag]
        simp only [hagain]
        exact ih hpass.schedule hpass.tags (by omega)
      · have hflag : s'.canContinue = false := by
          by_contra hcan
          rcases hpass.flag.1 (by simpa using hcan) with h | h
          · simp at h
          · exact hgrew h
        have hgrows := hpass.grows
        obtain ⟨hsame, hwait⟩ := hpass.stuck (le_antisymm (by simpa using hgrew) hgrows)
        rw [← hsame] at hwait
        obtain ⟨e, he, hnot, r, hr, hwhy⟩ := afterPass_stuck hnodup byTag hlen hflag
          hpass.schedule hpass.tags
        refine ⟨s', .stuck r, by simp only [hr], ⟨hpass.schedule.nodup,
          fun _ _ _ hsplit _ => hpass.schedule.before hsplit,
          iff_of_false (by simp) (not_startable_of_waits hwait he hnot), by simp⟩, fun _ => ⟨r, rfl, ?_, hwhy⟩⟩
        exact fun t => ⟨canStart_of_schedule hpass.schedule hpass.tags t, fun h => h.started hwait⟩

lemma start_spec (hnodup : (es.map Element.tag).Nodup) (hstart : ∀ e ∈ es, e.startError = none) (byTag : ByTag) :
    ∃ s outcome, m.start byTag es = some (s, outcome) ∧ StartsByDependency es s outcome ∧
      (outcome ≠ .done → ∃ r, outcome = .stuck r ∧ (∀ t, t ∈ s.started ↔ CanStart es t) ∧ Explains byTag es s r) :=
  startLoop_spec hnodup hstart byTag .nil (by simp [StartState.started]) (Nat.lt_succ_self _)

end Loop

/-! ### Both managers -/

example : (startOutbounds [("b", { tag := "b", dependencies := ["b"] })] [{ tag := "a", dependencies := ["b"] },
    { tag := "b", dependencies := ["b"] }]).map (outboundStarter.text ·.2) =
      some (some "circular outbound dependency: a -> b -> b") := by decide +kernel

end SingBox.Adapter
