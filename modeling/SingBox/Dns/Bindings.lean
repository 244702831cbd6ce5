import SingBox.Dns.Responses
import SingBox.Dns.Steps
import SingBox.Dns.Tags

/-!
# Rules and the responses they wait for

A rule with `match_response` is matched when every query it is bound to has completed.  The responses of tagged
queries are copied into a map first (`settleDNSFutures`), and a query that completes after that, and before the rule's
check whether it has completed, is missing from the map: the rule is then matched as if the query had failed
(`completed_query_missed`).  At every point the goroutine relies on some queries it has looked at (`State.watches`);
what it matches rules with is right if none of these succeeds while it does (`Prompt`).
-/

namespace SingBox.Dns

open SingBox.Lib List

variable {τ μ ο ε : Type} [DecidableEq τ] {env : Env τ μ ο} {w w' : Walk τ μ ο ε}

/-! ### What is known at each point -/

/-- Every query of a tag of the rule has completed, or is in the list. -/
def Walk.TagsIn (w : Walk τ μ ο ε) (rule : DNSRule τ μ ο) (pending : List ℕ) : Prop :=
  ∀ tag ∈ rule.matchResponseTags, ∀ i, w.namedFutures tag = some i → w.resolved i = true ∨ i ∈ pending

/-- What is known of an armed rule: it is bound to the queries of its tags, and those that have not completed are
among its futures. -/
structure ArmedOk (env : Env τ μ ο) (w : Walk τ μ ο ε) (a : ArmedRule τ μ ο) : Prop where
  rule : env.rules[a.ruleIndex]? = some a.rule
  before : a.ruleIndex ≤ w.ruleIndex
  bound : ∀ tag ∈ a.rule.matchResponseTags, a.bound tag = w.namedFutures tag
  binds : a.bindsAnonymous = a.rule.matchResponseAnonymous
  tags : w.TagsIn a.rule a.futures
  anonymous : a.rule.matchResponseAnonymous = true → ∀ i, a.anonymousFuture = some i →
    w.resolved i = true ∨ i ∈ a.futures

def PcOk (env : Env τ μ ο) (w : Walk τ μ ο ε) : PC τ μ ο ε → Prop
  | .settle _ (.walk rule) => env.rules[w.ruleIndex]? = some rule
  | .bindTags rule tags pending => env.rules[w.ruleIndex]? = some rule ∧
      ∀ tag ∈ rule.matchResponseTags, tag ∈ tags ∨ ∀ i, w.namedFutures tag = some i → w.resolved i = true ∨ i ∈ pending
  | .bindAnonymous rule pending => env.rules[w.ruleIndex]? = some rule ∧ w.TagsIn rule pending
  | .awaitTags rule tags => env.rules[w.ruleIndex]? = some rule ∧
      ∀ tag ∈ rule.matchResponseTags, tag ∈ tags ∨ ∀ i, w.namedFutures tag = some i → w.resolved i = true
  | .awaitAnonymous rule => env.rules[w.ruleIndex]? = some rule ∧ w.TagsIn rule []
  | .judge rule => env.rules[w.ruleIndex]? = some rule ∧ w.TagsIn rule [] ∧
      (rule.matchResponseAnonymous = true → ∀ i, w.anonymousFuture = some i → w.resolved i = true)
  | .ready index futures _ => ∀ a, w.armedRules[index]? = some a → ∀ i ∈ a.futures, i ∈ futures ∨ w.resolved i = true
  | .judgeArmed a _ _ => ArmedOk env w a ∧ ∀ i ∈ a.futures, w.resolved i = true
  | _ => True

/-- What the goroutine knows of the queries the rules are bound to. -/
structure State.Bound (env : Env τ μ ο) (s : State τ μ ο ε) : Prop where
  tagged : Tagged env s.walk
  armed : ∀ a ∈ s.walk.armedRules, ArmedOk env s.walk a
  pc : PcOk env s.walk s.pc

lemma Walk.TagsIn.mono {rule : DNSRule τ μ ο} {pending : List ℕ} (h : w.TagsIn rule pending) (hle : w.Le w')
    (hn : ∀ tag ∈ rule.matchResponseTags, w'.namedFutures tag = w.namedFutures tag) : w'.TagsIn rule pending := by
  intro tag htag i hi
  rw [hn tag htag] at hi
  exact (h tag htag i hi).imp hle.resolved id

lemma ArmedOk.mono {a : ArmedRule τ μ ο} (h : ArmedOk env w a) (hle : w.Le w')
    (hn : ∀ tag ∈ a.rule.matchResponseTags, w'.namedFutures tag = w.namedFutures tag)
    (hi : w.ruleIndex ≤ w'.ruleIndex) : ArmedOk env w' a where
  rule := h.rule
  before := Nat.le_trans h.before hi
  bound tag htag := (h.bound tag htag).trans (hn tag htag).symm
  binds := h.binds
  tags := h.tags.mono hle hn
  anonymous ha i hf := (h.anonymous ha i hf).imp hle.resolved id

/-- What is known stays known while queries complete and are settled. -/
lemma PcOk.mono {pc : PC τ μ ο ε} (h : PcOk env w pc) (hle : w.Le w') (hn : w'.namedFutures = w.namedFutures)
    (hi : w'.ruleIndex = w.ruleIndex) (ha : w'.armedRules = w.armedRules)
    (hf : w'.anonymousFuture = w.anonymousFuture) : PcOk env w' pc := by
  have hn' (rule : DNSRule τ μ ο) : ∀ tag ∈ rule.matchResponseTags, w'.namedFutures tag = w.namedFutures tag :=
    fun tag _ => by rw [hn]
  cases pc with
  | settle next caller =>
    cases caller with
    | walk rule => simpa only [PcOk, hi] using h
    | resume suspension => trivial
  | bindTags rule tags pending =>
    refine ⟨hi ▸ h.1, fun tag htag => (h.2 tag htag).imp id fun h' i hi' => ?_⟩
    rw [hn] at hi'
    exact (h' i hi').imp hle.resolved id
  | bindAnonymous rule pending | awaitAnonymous rule => exact ⟨hi ▸ h.1, h.2.mono hle (hn' rule)⟩
  | awaitTags rule tags =>
    refine ⟨hi ▸ h.1, fun tag htag => (h.2 tag htag).imp id fun h' i hi' => ?_⟩
    rw [hn] at hi'
    exact hle.resolved (h' i hi')
  | judge rule =>
    refine ⟨hi ▸ h.1, h.2.1.mono hle (hn' rule), fun hr i hi' => ?_⟩
    rw [hf] at hi'
    exact hle.resolved (h.2.2 hr i hi')
  | ready index futures caller =>
    intro a ha' i hi'
    rw [ha] at ha'
    exact (h a ha' i hi').imp id hle.resolved
  | judgeArmed a index caller =>
    exact ⟨h.1.mono hle (hn' a.rule) (Nat.le_of_eq hi.symm), fun i hi' => hle.resolved (h.2 i hi')⟩
  | walk | respondWait rule | respond rule | sweep index caller | respondArmed armed | resume suspension
  | waiting suspension | finish pending | waitFuture f origin | exchanging transport origin
  | returned result origin speculative => trivial

/-! ### Steps keep what is known -/

section Steps

variable {s : State τ μ ο ε}

lemma State.Bound.goto (h : s.Bound env) {pc : PC τ μ ο ε} (hpc : PcOk env s.walk pc) : (s.goto pc).Bound env :=
  ⟨h.tagged, h.armed, hpc⟩

variable {s' : State τ μ ο ε}

lemma State.Bound.move (h : s.Bound env) (hf : s'.walk.futures = s.walk.futures)
    (hn : s'.walk.namedFutures = s.walk.namedFutures) (hr : s'.walk.namedResponses = s.walk.namedResponses)
    (hi : s.walk.ruleIndex ≤ s'.walk.ruleIndex) (ha : ∀ a ∈ s'.walk.armedRules, a ∈ s.walk.armedRules)
    (hpc : PcOk env s'.walk s'.pc) : s'.Bound env :=
  ⟨h.tagged.of_eq hf hn hr hi, fun a ha' => (h.armed a (ha a ha')).mono (.of_eq hf) (fun _ _ => by rw [hn]) hi, hpc⟩

lemma State.Bound.finish (h : s.Bound env) (result : WalkResult τ μ ε) (origin : Origin) (speculative : Bool) :
    (s.finish result origin speculative).Bound env :=
  ⟨h.tagged.relabel (cancelAll_relabelled _) rfl rfl rfl,
    fun a ha => (h.armed a ha).mono (cancelAll_relabelled _).le (fun _ _ => rfl) (Nat.le_refl _), trivial⟩

variable {rule : DNSRule τ μ ο}

lemma State.Bound.acted (hw : WellTagged env.rules)
    (hr : env.rules[s.walk.ruleIndex]? = some rule) (h : s.Bound env) (ha : Acted s rule s') : s'.Bound env := by
  cases ha with
  | next options anonymous kept => exact h.move rfl rfl rfl (Nat.le_succ _) (fun _ ha => ha) trivial
  | drain | pendingFuture f free | pendingExchange server options free other => exact h.goto trivial
  | evaluate server options speculative action free =>
    -- no query has the tag yet, and no armed rule is bound to it
    have hnew (tag : τ) (htag : rule.evaluateTag = some tag) : s.walk.namedFutures tag = none := by
      cases hn : s.walk.namedFutures tag with
      | none => rfl
      | some i =>
        obtain ⟨f, hf, hft⟩ := h.tagged.named tag i hn
        obtain ⟨-, hlt, rule', hr', htag'⟩ := h.tagged.future i f tag hf hft
        have := hw.unique _ _ _ _ tag hr' hr htag' htag
        omega
    have hle : s.walk.Le (s.launchEvaluate server rule.evaluateTag options speculative).next.walk :=
      .append (launchEvaluate_futures ..)
    refine ⟨h.tagged.launch (launchEvaluate_futures ..) rfl (launchEvaluate_namedFutures s server _ options _)
      (by cases rule.evaluateTag <;> rfl) ?_ ?_, ?_, trivial⟩
    · simp [State.next]
    · intro tag htag
      exact ⟨hnew tag htag, by simp [State.next], rule, hr, htag⟩
    · intro a ha
      have ha' : a ∈ s.walk.armedRules := by simpa [State.next] using ha
      have hok := h.armed a ha'
      refine hok.mono hle ?_ (by simp [State.next])
      intro tag htag
      refine (launchEvaluate_namedFutures s server _ options _ tag).trans (if_neg fun heq => ?_)
      exact hw.not_bound hok.rule hr hok.before heq htag
  | speculate server options speculative action first =>
    have hle : s.walk.Le ((s.launchTerminal server options).suspend .drain).walk := .append rfl
    exact ⟨h.tagged.launch rfl rfl (fun _ => (if_neg (by simp)).symm) rfl (Nat.le_refl _) (by simp),
      fun a ha => (h.armed a ha).mono hle (fun _ _ => rfl) (Nat.le_refl _), trivial⟩
  | respond pc hpc free =>
    refine h.goto ?_
    rcases hpc with rfl | rfl <;> trivial
  | finish result free => exact h.finish ..

lemma State.Bound.actedArmed {a : ArmedRule τ μ ο} {index : ℕ} {caller : Caller τ μ ο}
    (h : s.Bound env) (ha : ActedArmed env s a index caller s') : s'.Bound env := by
  cases ha with
  | commit server options | respond | sweep unusable =>
    cases caller with
    | walk rule | resume suspension =>
      exact h.move rfl rfl rfl (Nat.le_refl _) (by simp [State.commit, State.suspend, State.goto]) trivial
  | finish result => exact h.finish ..

omit [DecidableEq τ] in
lemma addPending_sub (pending : List ℕ) (f : Option ℕ) : ∀ i ∈ pending, i ∈ w.addPending pending f := by
  intro i hi
  unfold Walk.addPending
  split
  · exact hi
  · split
    · exact hi
    · exact mem_append_left _ hi

omit [DecidableEq τ] in
lemma addPending_new (pending : List ℕ) {f : Option ℕ} {i : ℕ} (hf : f = some i) :
    w.resolved i = true ∨ i ∈ w.addPending pending f := by
  subst hf
  simp only [Walk.addPending]
  split
  next hr => exact .inl hr
  · exact .inr (by simp)

lemma State.Bound.arm (h : s.Bound env) {pending : List ℕ}
    (hr : env.rules[s.walk.ruleIndex]? = some rule) (ht : s.walk.TagsIn rule pending) :
    (s.arm rule pending).Bound env := by
  unfold State.arm
  simp only
  generalize (if rule.matchResponseAnonymous then s.walk.anonymousFuture else none) = anonymous
  -- the rule is armed with the futures read so far, and the anonymous one
  have harmed : ∀ w' : Walk τ μ ο ε, w'.futures = s.walk.futures → w'.namedFutures = s.walk.namedFutures →
      s.walk.ruleIndex ≤ w'.ruleIndex → ArmedOk env w'
        { ruleIndex := s.walk.ruleIndex
          rule := rule
          futures := s.walk.addPending pending anonymous
          anonymousFuture := anonymous
          bindsAnonymous := rule.matchResponseAnonymous
          options := s.walk.effectiveOptions
          bound := s.walk.namedFutures } := by
    intro w' hf hn hi
    have hle : s.walk.Le w' := .of_eq hf
    refine ⟨hr, hi, fun tag _ => by rw [hn], rfl, ?_, ?_⟩
    · intro tag htag i hi'
      rw [hn] at hi'
      exact (ht tag htag i hi').imp hle.resolved (addPending_sub pending _ i)
    · intro _ i hi'
      exact (addPending_new pending hi').imp hle.resolved id
  split
  · refine ⟨h.tagged.of_eq rfl rfl rfl (Nat.le_refl _), ?_, trivial⟩
    intro a ha
    rcases mem_append.1 ha with ha | ha
    · exact (h.armed a ha).mono (.of_eq rfl) (fun _ _ => rfl) (Nat.le_refl _)
    · rw [mem_singleton] at ha
      subst ha
      exact harmed _ rfl rfl (Nat.le_refl _)
  · refine ⟨h.tagged.of_eq rfl rfl rfl (Nat.le_succ _), ?_, trivial⟩
    intro a ha
    rcases mem_append.1 ha with ha | ha
    · exact (h.armed a ha).mono (.of_eq rfl) (fun _ _ => rfl) (Nat.le_succ _)
    · rw [mem_singleton] at ha
      subst ha
      exact harmed _ rfl rfl (Nat.le_succ _)

lemma State.Bound.update (h : s.Bound env) (ht : Tagged env s'.walk) (hle : s.walk.Le s'.walk)
    (hn : s'.walk.namedFutures = s.walk.namedFutures) (hi : s'.walk.ruleIndex = s.walk.ruleIndex)
    (ha : s'.walk.armedRules = s.walk.armedRules) (hf : s'.walk.anonymousFuture = s.walk.anonymousFuture)
    (hpc : PcOk env s.walk s'.pc) : s'.Bound env :=
  ⟨ht, fun a ha' => (h.armed a (ha ▸ ha')).mono hle (fun _ _ => by rw [hn]) (Nat.le_of_eq hi.symm),
    hpc.mono hle hn hi ha hf⟩

lemma State.Bound.finishPending (h : s.Bound env) (pending : Pending τ ο) : (s.finishPending pending).Bound env := by
  cases pending with
  | exchange transport options origin =>
    have hg := cancelOthers_relabelled s.walk none
    exact h.update (h.tagged.relabel hg rfl rfl rfl) hg.le rfl rfl rfl rfl trivial
  | future f origin =>
    have hg := cancelOthers_relabelled s.walk (some f)
    exact h.update (h.tagged.relabel hg rfl rfl rfl) hg.le rfl rfl rfl rfl trivial

lemma State.Bound.step (hw : WellTagged env.rules) (h : s.Bound env) {e : WalkEvent μ ε}
    (hs : env.step s e = some s') : s'.Bound env := by
  have hok := h.pc
  have hrec (j : Judgement τ μ ο) : (s.record j).Bound env := ⟨h.tagged, h.armed, h.pc⟩
  cases env.step_stepped hs with
  | bind hpc hr hb => exact h.goto hr
  | unbound hpc hr hb =>
    simp only [DNSRule.hasBindings, Bool.or_eq_false_iff, Bool.not_eq_false', List.isEmpty_iff] at hb
    refine h.goto ⟨hr, ?_, by simp [hb.2]⟩
    simp [Walk.TagsIn, hb.1]
  | @settle i caller f hpc hf =>
    rw [hpc] at hok
    obtain ⟨h1, h2, h3, h4, -, -⟩ := s.walk.settle_other i f
    refine h.update (h.tagged.settle hf) (Walk.settle_le hf) h2 h1 h3 h4 ?_
    cases caller <;> exact hok
  | race hpc hend hrace | awaitAll hpc hend hrace =>
    rw [hpc] at hok
    exact h.goto ⟨hok, fun tag => .inl⟩
  | @bindTag rule tag tags pending hpc =>
    rw [hpc] at hok
    refine h.goto ⟨hok.1, ?_⟩
    intro tag' htag'
    rcases hok.2 tag' htag' with hmem | hknown
    · rcases mem_cons.1 hmem with rfl | hmem
      · exact .inr fun i => addPending_new pending
      · exact .inl hmem
    · exact .inr fun i hi => (hknown i hi).imp id (addPending_sub pending _ i)
  | boundTags hpc =>
    rw [hpc] at hok
    exact h.goto ⟨hok.1, fun tag htag => (hok.2 tag htag).resolve_left (by simp)⟩
  | arm hpc =>
    rw [hpc] at hok
    exact h.arm hok.1 hok.2
  | awaitedTag hpc resolved =>
    rw [hpc] at hok
    refine h.goto ⟨hok.1, ?_⟩
    intro tag' htag'
    rcases hok.2 tag' htag' with hmem | hknown
    · rcases mem_cons.1 hmem with rfl | hmem
      · exact .inr resolved
      · exact .inl hmem
    · exact .inr hknown
  | awaitedTags hpc =>
    rw [hpc] at hok
    exact h.goto ⟨hok.1, fun tag htag i hi => .inl ((hok.2 tag htag).resolve_left (by simp) i hi)⟩
  | awaitedAnonymous hpc resolved =>
    rw [hpc] at hok
    exact h.goto ⟨hok.1, hok.2, resolved⟩
  | judge hpc acted =>
    rw [hpc] at hok
    exact State.Bound.acted (s := s.record _) hw hok.1 (hrec _) acted
  | respond hpc result | respondArmed hpc result | answered hpc result | giveUp hpc | reply outcome hpc =>
    exact h.finish ..
  | sweep hpc harmed =>
    refine h.goto ?_
    intro a ha i hi
    rw [harmed] at ha
    cases ha
    exact .inl hi
  | sweptWalk hpc => exact h.move rfl rfl rfl (Nat.le_succ _) (fun _ ha => ha) trivial
  | ready hpc resolved =>
    rw [hpc] at hok
    refine h.goto ?_
    intro a ha i hi
    rcases hok a ha i hi with hmem | hr
    · rcases mem_cons.1 hmem with rfl | hmem
      · exact .inr resolved
      · exact .inl hmem
    · exact .inr hr
  | @take index caller armed hpc harmed =>
    rw [hpc] at hok
    have harmed' := h.armed armed (mem_of_getElem? harmed)
    refine h.move rfl rfl rfl (Nat.le_refl _) (fun _ => mem_of_mem_eraseIdx) ?_
    refine ⟨harmed'.mono (.of_eq rfl) (fun _ _ => rfl) (Nat.le_refl _), ?_⟩
    intro i hi
    exact (hok armed harmed i hi).resolve_left (by simp)
  | judgeArmed hpc acted => exact (hrec _).actedArmed acted
  | wake hpc | unmatched hpc missed | settled hpc hend | drain | routeDefault | await | respondWait | unready | swept
  | resumePending | resume | wait | direct => exact h.move rfl rfl rfl (Nat.le_refl _) (fun _ ha => ha) trivial
  | finish hpc => exact h.finishPending _
  | complete outcome hf running =>
    refine h.update (h.tagged.complete hf running outcome) (.set hf rfl rfl ?_) rfl rfl rfl rfl h.pc
    intro o ho
    simp [Future.resolved, ho] at running
  | cancelContext => exact ⟨h.tagged, h.armed, h.pc⟩

lemma State.init_bound (options : ο) : (State.init options : State τ μ ο ε).Bound env := by
  refine ⟨⟨?_, ?_, ?_, ?_, ?_⟩, ?_, trivial⟩ <;> simp [State.init]

end Steps

/-! ### Judgements -/

section Judgements

variable {s s' : State τ μ ο ε}

def Env.judgementAt (env : Env τ μ ο) (s : State τ μ ο ε) : WalkEvent μ ε → Option (Judgement τ μ ο)
  | .tick =>
    match s.pc with
    | .judge rule => some (env.judgement s rule)
    | .judgeArmed armed _ _ => some (env.armedJudgement s armed)
    | _ => none
  | _ => none

variable {rule : DNSRule τ μ ο}

lemma Acted.frame (h : Acted s rule s') : s.walk.Le s'.walk ∧ s'.judged = s.judged := by
  cases h with
  | next options anonymous kept | drain | pendingFuture f free | pendingExchange server options free other
  | respond pc hpc free => exact ⟨.of_eq rfl, rfl⟩
  | evaluate server options speculative action free => exact ⟨.append (launchEvaluate_futures ..), by simp [State.next]⟩
  | speculate server options speculative action first => exact ⟨.append rfl, rfl⟩
  | finish result free => exact ⟨(cancelAll_relabelled _).le, rfl⟩

omit [DecidableEq τ] in
lemma ActedArmed.frame {a : ArmedRule τ μ ο} {index : ℕ} {caller : Caller τ μ ο}
    (h : ActedArmed env s a index caller s') : s.walk.Le s'.walk ∧ s'.judged = s.judged := by
  cases h with
  | commit server options | respond | sweep unusable =>
    cases caller with
    | walk rule | resume suspension => exact ⟨.of_eq rfl, rfl⟩
  | finish result => exact ⟨(cancelAll_relabelled _).le, rfl⟩

/-- A step leaves the queries that have completed as they are, and matches at most one rule. -/
lemma step_frame {e : WalkEvent μ ε} (hs : env.step s e = some s') :
    s.walk.Le s'.walk ∧ s'.judged = s.judged ++ (env.judgementAt s e).toList := by
  have hquiet (hj : env.judgementAt s e = none) (h : s.walk.Le s'.walk ∧ s'.judged = s.judged) :
      s.walk.Le s'.walk ∧ s'.judged = s.judged ++ (env.judgementAt s e).toList := by
    simpa [hj] using h
  cases env.step_stepped hs
  case judge rule hpc acted => simpa [Env.judgementAt, hpc, State.record] using acted.frame
  case judgeArmed hpc acted => simpa [Env.judgementAt, hpc, State.record] using acted.frame
  case unmatched hpc missed => simpa [Env.judgementAt, hpc] using ⟨.of_eq rfl, rfl⟩
  case settle hpc hf => exact hquiet (by simp [Env.judgementAt, hpc]) ⟨Walk.settle_le hf, rfl⟩
  case arm hpc =>
    refine hquiet (by simp [Env.judgementAt, hpc]) ?_
    unfold State.arm
    simp only
    split <;> split <;> exact ⟨.of_eq rfl, rfl⟩
  case resume hpc =>
    refine hquiet ?_ ⟨.of_eq rfl, rfl⟩
    rcases hpc with ⟨f, hpc⟩ | hpc <;> simp [Env.judgementAt, hpc]
  case finish pending hpc =>
    refine hquiet (by simp [Env.judgementAt, hpc]) ?_
    cases pending <;> exact ⟨(cancelOthers_relabelled ..).le, rfl⟩
  case complete outcome hf running =>
    refine hquiet rfl ⟨.set hf rfl rfl fun o ho => ?_, rfl⟩
    simp [Future.resolved, ho] at running
  case await hpc launched =>
    refine hquiet ?_ ⟨.of_eq rfl, rfl⟩
    rcases hpc with ⟨rule, tags, hpc⟩ | ⟨rule, hpc⟩ | ⟨rule, hpc⟩ <;> simp [Env.judgementAt, hpc]
  -- the goroutine returns, and cancels what is running
  case respond | respondArmed | answered | giveUp | reply =>
    exact hquiet (by simp [Env.judgementAt, *]) ⟨(cancelAll_relabelled _).le, rfl⟩
  -- it goes to another point
  all_goals exact hquiet (by simp [Env.judgementAt, *]) ⟨.of_eq rfl, rfl⟩

/-- A response that a rule is shown is that of the query: absent if there is no query or it has failed. -/
def Walk.Shows (w : Walk τ μ ο ε) (ofTag : Option τ → Prop) (shown : Option μ) : Option ℕ → Prop
  | none => shown = none
  | some i => ∃ f o, w.futures[i]? = some f ∧ ofTag f.tag ∧ f.outcome = some o ∧ shown = responseOf o

/-- **A rule was matched as it should be**: the queries it is bound to had completed, and it was shown their
responses. -/
structure Judgement.Complete (w : Walk τ μ ο ε) (j : Judgement τ μ ο) : Prop where
  tags : ∀ tag ∈ j.rule.matchResponseTags, w.Shows (· = some tag) (j.named tag) (j.bound tag)
  anonymous : j.rule.matchResponseAnonymous = true → w.Shows (fun _ => True) j.response j.anonymous

def State.Complete (s : State τ μ ο ε) : Prop := ∀ j ∈ s.judged, j.Complete s.walk

/-- The rule is bound to a query by one of its tags. -/
def Walk.binds (w : Walk τ μ ο ε) (rule : DNSRule τ μ ο) (i : ℕ) : Bool :=
  rule.matchResponseTags.any fun tag => w.namedFutures tag == some i

def Walk.armedBinds (w : Walk τ μ ο ε) (armed : List (ArmedRule τ μ ο)) (i : ℕ) : Bool :=
  armed.any fun a => w.binds a.rule i

/-- The goroutine has looked at the query in `settleDNSFutures`, and may match a rule that is bound to it by a tag
before it looks again. -/
def State.watches (s : State τ μ ο ε) (i : ℕ) : Bool :=
  match s.pc with
  | .settle next (.walk rule) =>
    decide (i < next) && (s.walk.binds rule i || rule.action.race && s.walk.armedBinds s.walk.armedRules i)
  | .settle next (.resume _) => decide (i < next) && s.walk.armedBinds s.walk.armedRules i
  -- a race rule with a query that is still running is armed, and nothing is matched now
  | .bindTags rule _ pending | .bindAnonymous rule pending =>
    pending.isEmpty && (s.walk.binds rule i || s.walk.armedBinds s.walk.armedRules i)
  | .awaitTags rule _ | .awaitAnonymous rule | .judge rule => s.walk.binds rule i
  | .sweep index _ | .ready index _ _ => s.walk.armedBinds (s.walk.armedRules.drop index) i
  | .judgeArmed armed index _ => s.walk.binds armed.rule i || s.walk.armedBinds (s.walk.armedRules.drop index) i
  | _ => false

/-- The query that an event completes with a response. -/
def WalkEvent.succeeds : WalkEvent μ ε → Option ℕ
  | .complete i (.ok _) => some i
  | _ => none

/-- No query succeeds after the goroutine has looked at it and before it matches a rule that is bound to it. -/
def Prompt (s : State τ μ ο ε) (e : WalkEvent μ ε) : Prop := (e.succeeds.any s.watches) = false

instance (s : State τ μ ο ε) (e : WalkEvent μ ε) : Decidable (Prompt s e) :=
  inferInstanceAs (Decidable (_ = false))

/-! ### What is looked at in time -/

/-- A query has succeeded, and its response is not in the map. -/
def Walk.Unseen (w : Walk τ μ ο ε) (i : ℕ) : Prop :=
  ∃ f m, w.futures[i]? = some f ∧ f.outcome = some (.ok m) ∧ f.settled = false

section Watches

variable {i : ℕ}

/-- After a turn of `settleDNSFutures` the query it looked at is not unseen. -/
lemma Walk.Unseen.of_settle {next : ℕ} {f : Future τ μ ε} (hf : w.futures[next]? = some f)
    (h : (w.settle next f).Unseen i) : w.Unseen i ∧ i ≠ next := by
  obtain ⟨g, m, hg, hm, hs⟩ := h
  by_cases hskip : (f.settled || !f.resolved) = true
  · rw [Walk.settle, if_pos hskip] at hg
    refine ⟨⟨g, m, hg, hm, hs⟩, ?_⟩
    rintro rfl
    rw [hf, Option.some.injEq] at hg
    subst hg
    simp [hs, Future.resolved, hm] at hskip
  · have hset : (w.settle next f).futures = w.futures.set next { f with settled := true } := by
      rw [Walk.settle, if_neg hskip]
      cases f.tag <;> rfl
    rw [hset] at hg
    rcases getElem?_set_cases hg with ⟨-, rfl⟩ | ⟨hne, hg⟩
    · cases hs
    · exact ⟨⟨g, m, hg, hm, hs⟩, hne⟩

omit [DecidableEq τ] in
/-- A query that has completed is among those that were launched. -/
lemma Walk.Unseen.lt {next : ℕ} (h : w.Unseen i) (hend : w.futures[next]? = none) : i < next := by
  obtain ⟨f, m, hf, -⟩ := h
  have hlt := (List.getElem?_eq_some_iff.1 hf).1
  rw [List.getElem?_eq_none_iff] at hend
  omega

omit [DecidableEq τ] in
lemma Walk.Unseen.of_complete {j : ℕ} {f : Future τ μ ε} {outcome : Except ε μ}
    (h : (w.complete j f outcome).Unseen i) : w.Unseen i ∨ (WalkEvent.complete j outcome).succeeds = some i := by
  obtain ⟨g, m, hg, hm, hs⟩ := h
  rcases getElem?_set_cases hg with ⟨rfl, rfl⟩ | ⟨-, hg⟩
  · cases hm
    exact .inr rfl
  · exact .inl ⟨g, m, hg, hm, hs⟩

lemma Walk.armedBinds_of_subset {armed armed' : List (ArmedRule τ μ ο)} (h : armed ⊆ armed')
    (hb : w.armedBinds armed i = true) : w.armedBinds armed' i = true := by
  simp only [Walk.armedBinds, any_eq_true] at hb ⊢
  obtain ⟨a, ha, hb⟩ := hb
  exact ⟨a, h ha, hb⟩

variable {rule : DNSRule τ μ ο}

lemma Acted.watches (h : Acted s rule s') : s'.watches i = false := by
  cases h with
  | respond pc hpc free => rcases hpc with rfl | rfl <;> rfl
  | next | drain | evaluate | speculate | pendingFuture | pendingExchange | finish =>
    simp [State.watches, State.next, State.suspend, State.goto, State.finish]

lemma ActedArmed.watches {a : ArmedRule τ μ ο} {index : ℕ} {caller : Caller τ μ ο}
    (h : ActedArmed env s a index caller s') (hw : s'.watches i = true) : s' = s.goto (.sweep index caller) := by
  cases h with
  | sweep unusable => rfl
  | respond | finish => simp [State.watches, State.goto, State.finish] at hw
  | commit => cases caller <;> simp [State.watches, State.commit, State.suspend, State.goto] at hw

/-- **What the goroutine relies on**, it has relied on before the step, or the query is not unseen. -/
lemma step_watches {e : WalkEvent μ ε} (hs : env.step s e = some s') (hw : s'.watches i = true)
    (hu : s'.walk.Unseen i) : s.watches i = true ∧ (s.walk.Unseen i ∨ e.succeeds = some i) := by
  cases env.step_stepped hs with
  | unbound hpc hr hb =>
    simp only [DNSRule.hasBindings, Bool.or_eq_false_iff, Bool.not_eq_false', List.isEmpty_iff] at hb
    simp [State.watches, State.goto, Walk.binds, hb.1] at hw
  | @settle next caller f hpc hf =>
    obtain ⟨hu, hne⟩ := hu.of_settle hf
    obtain ⟨-, hn, ha, -⟩ := s.walk.settle_other next f
    refine ⟨?_, .inl hu⟩
    cases caller with
    | walk rule | resume suspension =>
      simp only [State.watches, Walk.binds, Walk.armedBinds, hn, ha, hpc, Bool.and_eq_true, decide_eq_true_eq] at hw ⊢
      exact ⟨by omega, hw.2⟩
  | race hpc hend hrace =>
    refine ⟨?_, .inl hu⟩
    simpa [State.watches, State.goto, hpc, hrace, hu.lt hend] using hw
  | awaitAll hpc hend hrace =>
    refine ⟨?_, .inl hu⟩
    simp only [State.watches, State.goto] at hw
    simp [State.watches, hpc, hw, hu.lt hend]
  | settled hpc hend =>
    refine ⟨?_, .inl hu⟩
    simpa [State.watches, State.goto, hpc, hu.lt hend] using hw
  | @bindTag rule tag tags pending hpc =>
    refine ⟨?_, .inl hu⟩
    simp only [State.watches, State.goto, hpc, Bool.and_eq_true, List.isEmpty_iff] at hw ⊢
    refine ⟨eq_nil_iff_forall_not_mem.2 fun j hj => ?_, hw.2⟩
    simpa [hw.1] using addPending_sub (w := s.walk) pending (s.walk.namedFutures tag) j hj
  | boundTags hpc => exact ⟨by simpa [State.watches, State.goto, hpc] using hw, .inl hu⟩
  | @arm rule pending hpc =>
    unfold State.arm at hw hu
    simp only at hw hu
    generalize (if rule.matchResponseAnonymous then s.walk.anonymousFuture else none) = anonymous at hw hu
    by_cases hempty : (s.walk.addPending pending anonymous).isEmpty = true
    · rw [if_pos hempty] at hw hu
      refine ⟨?_, .inl hu⟩
      have hpending : pending = [] := by
        refine eq_nil_iff_forall_not_mem.2 fun j hj => ?_
        simpa [List.isEmpty_iff.1 hempty] using addPending_sub (w := s.walk) pending anonymous j hj
      simpa [State.watches, State.goto, hpc, hpending, Walk.armedBinds, Walk.binds, or_comm] using hw
    · rw [if_neg hempty] at hw
      simp [State.watches, State.next] at hw
  | awaitedTag hpc resolved | awaitedTags hpc | awaitedAnonymous hpc resolved =>
    exact ⟨by simpa [State.watches, State.goto, hpc] using hw, .inl hu⟩
  | judge hpc acted => simp [acted.watches] at hw
  | sweep hpc harmed | ready hpc resolved => exact ⟨by simpa [State.watches, State.goto, hpc] using hw, .inl hu⟩
  | @unready index f futures caller hpc running =>
    refine ⟨?_, .inl hu⟩
    simp only [State.watches, State.goto, hpc] at hw ⊢
    exact Walk.armedBinds_of_subset (drop_subset_drop_left _ (Nat.le_succ index)) hw
  | @take index caller armed hpc harmed =>
    refine ⟨?_, .inl hu⟩
    simp only [State.watches, State.goto, hpc, Bool.or_eq_true] at hw ⊢
    rcases hw with hw | hw
    · simp only [Walk.armedBinds, any_eq_true]
      exact ⟨armed, mem_iff_getElem?.2 ⟨0, by simpa using harmed⟩, hw⟩
    · refine Walk.armedBinds_of_subset (fun a ha => ?_) hw
      have hlt := (List.getElem?_eq_some_iff.1 harmed).1
      rw [eraseIdx_eq_take_drop_succ, drop_append_of_le_length (by simp; omega), mem_append] at ha
      rcases ha with ha | ha
      · simp at ha
      · exact drop_subset_drop_left _ (Nat.le_succ index) ha
  | @judgeArmed armed index caller _ hpc acted =>
    have heq := acted.watches hw
    subst heq
    refine ⟨?_, .inl hu⟩
    simp only [State.watches, State.goto, State.record] at hw
    simp [State.watches, hpc, hw]
  | unmatched hpc missed =>
    refine ⟨?_, .inl hu⟩
    simp only [State.watches, State.goto, State.record] at hw
    simp [State.watches, hpc, hw]
  | complete outcome hf running => exact ⟨hw, hu.of_complete⟩
  | cancelContext => exact ⟨hw, .inl hu⟩
  | @finish pending hpc => cases pending <;> simp [State.watches, State.finishPending, State.goto] at hw
  | drain | routeDefault | bind | await | respondWait | respond | sweptWalk | swept | respondArmed | resumePending
  | resume | wait | wake | answered | giveUp | reply | direct =>
    simp [State.watches, State.suspend, State.goto, State.finish, State.next] at hw

/-- What the goroutine relies on it has seen. -/
def State.Seen (s : State τ μ ο ε) : Prop := ∀ i, s.watches i = true → ¬s.walk.Unseen i

lemma State.Seen.step (h : s.Seen) {e : WalkEvent μ ε} (hs : env.step s e = some s') (hp : Prompt s e) : s'.Seen := by
  intro i hw hu
  obtain ⟨hw, hu | he⟩ := step_watches hs hw hu
  · exact h i hw hu
  · simp [Prompt, he, hw] at hp

end Watches

section Shows

omit [DecidableEq τ]

lemma Walk.Shows.mono {ofTag : Option τ → Prop} {shown : Option μ} {i : Option ℕ} (h : w.Shows ofTag shown i)
    (hle : w.Le w') : w'.Shows ofTag shown i := by
  cases i with
  | none => exact h
  | some i =>
    obtain ⟨f, o, hf, htag, ho, hshown⟩ := h
    obtain ⟨f', hf', htag', ho'⟩ := hle i f o hf ho
    exact ⟨f', o, hf', htag' ▸ htag, ho', hshown⟩

lemma Walk.shows_view (hle : w.Le w') {f : Option ℕ} (h : ∀ i, f = some i → w.resolved i = true) :
    w'.Shows (fun _ => True) (f.bind w.view) f := by
  cases f with
  | none => rfl
  | some i =>
    obtain ⟨f, o, hf, ho, hview⟩ := Walk.resolved_view (h i rfl)
    obtain ⟨f', hf', -, ho'⟩ := hle i f o hf ho
    exact ⟨f', o, hf', trivial, ho', hview⟩

end Shows

lemma Judgement.Complete.mono {j : Judgement τ μ ο} (h : j.Complete w) (hle : w.Le w') : j.Complete w' :=
  ⟨fun tag htag => (h.tags tag htag).mono hle, fun ha => (h.anonymous ha).mono hle⟩

/-- The map has the responses of tags whose queries have completed and are not unseen. -/
lemma Tagged.shows (h : Tagged env w) (hin : w.TagsIn rule []) (hle : w.Le w')
    (hseen : ∀ i, w.binds rule i = true → ¬w.Unseen i) {tag : τ} (htag : tag ∈ rule.matchResponseTags) :
    w'.Shows (· = some tag) (w.namedResponses tag) (w.namedFutures tag) := by
  cases hn : w.namedFutures tag with
  | none => exact h.unnamed tag hn
  | some i =>
    obtain ⟨f, hf, hft⟩ := h.named tag i hn
    have hres := (hin tag htag i hn).resolve_right (by simp)
    obtain ⟨f₀, o, hf₀, ho, -⟩ := Walk.resolved_view hres
    rw [hf, Option.some.injEq] at hf₀
    subst hf₀
    obtain ⟨f', hf', htag', ho'⟩ := hle i f o hf ho
    refine ⟨f', o, hf', htag'.trans hft, ho', ?_⟩
    cases hs : f.settled with
    | true =>
      rw [(h.settled i f tag hf hft hs).2, Future.view, ho]
      rfl
    | false =>
      -- a query that has failed has no response either way
      rw [h.unsettled i f tag hf hft hs]
      cases o with
      | error e => rfl
      | ok m =>
        refine absurd ⟨f, m, hf, ho, hs⟩ (hseen i ?_)
        simpa [Walk.binds] using ⟨tag, htag, hn⟩

lemma judgement_complete (h : s.Bound env) (hseen : s.Seen) (hpc : s.pc = .judge rule)
    (hle : s.walk.Le w') : (env.judgement s rule).Complete w' := by
  have hok := h.pc
  rw [hpc] at hok
  refine ⟨fun tag htag => h.tagged.shows hok.2.1 hle (fun i hi => hseen i ?_) htag,
    fun ha => Walk.shows_view hle (hok.2.2 ha)⟩
  simpa [State.watches, hpc] using hi

lemma armedJudgement_complete (h : s.Bound env) (hseen : s.Seen) {a : ArmedRule τ μ ο} {index : ℕ}
    {caller : Caller τ μ ο} (hpc : s.pc = .judgeArmed a index caller) (hle : s.walk.Le w') :
    (env.armedJudgement s a).Complete w' := by
  have hok := h.pc
  rw [hpc] at hok
  obtain ⟨harmed, hres⟩ := hok
  have hin : s.walk.TagsIn a.rule [] := fun tag htag i hi => .inl ((harmed.tags tag htag i hi).elim id (hres i))
  refine ⟨?_, ?_⟩
  · intro tag htag
    change w'.Shows _ _ (a.bound tag)
    rw [harmed.bound tag htag]
    refine h.tagged.shows hin hle (fun i hi => hseen i ?_) htag
    simp [State.watches, hpc, hi]
  · intro ha
    have hbinds : a.bindsAnonymous = true := harmed.binds.trans ha
    change w'.Shows _ (s.walk.armedResponse a) a.anonymousFuture
    rw [Walk.armedResponse, if_pos hbinds]
    exact Walk.shows_view hle fun i hi => (harmed.anonymous ha i hi).elim id (hres i)

lemma judgementAt_complete (h : s.Bound env) (hseen : s.Seen) (e : WalkEvent μ ε) (hle : s.walk.Le w') :
    ∀ j ∈ env.judgementAt s e, j.Complete w' := by
  cases e with
  | tick =>
    simp only [Env.judgementAt]
    split
    next hpc => simpa using judgement_complete h hseen hpc hle
    next hpc => simpa using armedJudgement_complete h hseen hpc hle
    · simp
  | giveUp | complete i outcome | reply outcome | cancelContext | direct => simp [Env.judgementAt]

lemma State.Complete.step (h : s.Bound env) (hseen : s.Seen) (hc : s.Complete) {e : WalkEvent μ ε}
    (hs : env.step s e = some s') : s'.Complete := by
  obtain ⟨hle, hj⟩ := step_frame hs
  intro j hj'
  rw [hj] at hj'
  rcases mem_append.1 hj' with hold | hj'
  · exact (hc j hold).mono hle
  · exact judgementAt_complete h hseen e hle j (by simpa using hj')

/-- **Rules that match responses.**  For rules that are accepted, and whatever order the queries complete in, every
rule is matched after the queries it is bound to have completed and with their responses, in every run in which no query
succeeds between the look of `settleDNSFutures` at it and the check of a rule that is bound to it. -/
theorem rules_see_their_responses (sets : Sets τ) (warnings : List (RuleWarning τ))
    (haccepted : validateLegacyDNSModeDisabledRules sets env.rules = .ok warnings) (options : ο)
    (events : List (WalkEvent μ ε)) (hprompt : StepAll env.step Prompt (State.init options) events) :
    VisitAll env.step State.Complete (State.init options) events := by
  have hw := wellTagged_of_accepted haccepted
  refine (visitAll_of_stepAll (I := fun s => s.Bound env ∧ s.Seen ∧ s.Complete) (fun s e t hs hp h => ?_) events
    ⟨State.init_bound options, ?_, ?_⟩ hprompt).imp fun s h => h.2.2
  · exact ⟨h.1.step hw hs, h.2.1.step hs hp, h.2.2.step h.1 h.2.1 hs⟩
  · simp [State.Seen, State.watches, State.init]
  · simp [State.Complete, State.init]

/-! ### A query that completes too late -/

/-- A rule evaluates a query with a tag, and the next one responds with its response. -/
def respondRules : List (DNSRule Bool ℕ Unit) :=
  [.default {} ⟨.evaluate true (some true) false {}, false⟩, .default { matchResponse := .tag true } ⟨.respond, false⟩]

/-- The second rule matches a response that is there. -/
def respondEnv : Env Bool ℕ Unit where
  rules := respondRules
  matchRule i _ named := i == 0 || (named true).isSome
  loaded _ := true
  isFakeIP _ := false
  allowFakeIP := false
  disableCache := id
  defaultTransport := false
  refusedResponse := 0

/-- The query completes after `settleDNSFutures` has passed it, and before the rule asks whether it has. -/
def lateRun : List (WalkEvent ℕ Unit) :=
  [.tick, .tick, .tick, .tick, .tick, .complete 0 (.ok 7), .tick, .tick, .tick, .tick]

/-- The query completes before that. -/
def promptRun : List (WalkEvent ℕ Unit) :=
  [.tick, .tick, .tick, .complete 0 (.ok 7), .tick, .tick, .tick, .tick, .tick, .tick]

/-- The rule that responds is matched after its query has answered 7, is shown no response, and does not match. -/
theorem completed_query_missed : validateLegacyDNSModeDisabledRules (fun _ => none) respondRules = .ok [] ∧
    (runOf respondEnv.step (State.init ()) lateRun).any (fun s =>
      s.judged.any (fun j => j.ruleIndex == 1 && j.bound true == some 0 && j.named true == none && !j.matched) &&
        (s.walk.futures[0]?.bind Future.outcome).any fun o => responseOf o == some 7) = true ∧
    ¬VisitAll respondEnv.step State.Complete (State.init ()) lateRun := by
  refine ⟨rfl, by decide, ?_⟩
  intro hv
  obtain ⟨s, hs, hmissed⟩ : ∃ s, runOf respondEnv.step (State.init ()) lateRun = some s ∧ s.judged.any (fun j =>
      j.rule.matchResponseTags == [true] && j.bound true == some 0 && j.named true == none &&
        (s.walk.futures[0]?.bind Future.view).isSome) = true := by
    exact ⟨_, rfl, by decide⟩
  have hcomplete := hv.last hs
  simp only [any_eq_true, Bool.and_eq_true, beq_iff_eq] at hmissed
  obtain ⟨j, hj, ⟨⟨htags, hbound⟩, hnamed⟩, hview⟩ := hmissed
  have hshows := (hcomplete j hj).tags true (by simp [htags])
  rw [hbound, hnamed] at hshows
  obtain ⟨f, o, hf, -, ho, hr⟩ := hshows
  simp [hf, Future.view, ho, ← hr] at hview

/-- A query that completes in time is seen. -/
theorem prompt_query_seen : VisitAll respondEnv.step State.Complete (State.init ()) promptRun ∧
    (runOf respondEnv.step (State.init ()) promptRun).any (fun s =>
      s.judged.any fun j => j.ruleIndex == 1 && j.named true == some 7) = true :=
  ⟨rules_see_their_responses (fun _ => none) [] rfl () promptRun (by decide), by decide⟩

end Judgements

end SingBox.Dns
