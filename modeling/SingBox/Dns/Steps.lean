import SingBox.Dns.Walk

/-!
# What the steps of the walk do

The states that the action of a rule leads to (`Acted`, `ActedArmed`), and those that a step leads to (`Stepped`), with
what the step has read.  The invariants of the walk are proved over these.
-/

namespace SingBox.Dns

variable {τ μ ο ε : Type} [DecidableEq τ]

/-! ### What an action does -/

/-- The states the action of the current rule can lead to. -/
inductive Acted (s : State τ μ ο ε) (rule : DNSRule τ μ ο) : State τ μ ο ε → Prop where
  | next (options : ο) (anonymous : Option ℕ) (kept : anonymous = none ∨ anonymous = s.walk.anonymousFuture) :
    Acted s rule { s with walk := { s.walk with effectiveOptions := options, anonymousFuture := anonymous } }.next
  | drain : Acted s rule (s.suspend .drain)
  | evaluate (server : τ) (options : ο) (speculative : Bool)
    (action : ∃ tag options, rule.action.action = .evaluate server tag speculative options)
    (free : speculative = true ∨ s.walk.armedRules = []) :
    Acted s rule (s.launchEvaluate server rule.evaluateTag options speculative).next
  | speculate (server : τ) (options : ο) (speculative : Bool)
    (action : ∃ options, rule.action.action = .route server speculative options)
    (first : s.walk.terminalFuture = none) :
    Acted s rule ((s.launchTerminal server options).suspend .drain)
  | pendingFuture (f : ℕ) (free : s.walk.armedRules = []) :
    Acted s rule (s.suspend (.pending (.future f (.rule s.walk.ruleIndex))))
  | pendingExchange (server : τ) (options : ο) (free : s.walk.armedRules = [])
    (other : s.walk.terminalFuture ≠ none → s.walk.terminalIndex ≠ s.walk.ruleIndex) :
    Acted s rule (s.suspend (.pending (.exchange server options (.rule s.walk.ruleIndex))))
  | respond (pc : PC τ μ ο ε) (hpc : pc = .respond rule ∨ pc = .respondWait rule) (free : s.walk.armedRules = []) :
    Acted s rule (s.goto pc)
  | finish (result : WalkResult τ μ ε) (free : s.walk.armedRules = []) :
    Acted s rule (s.finish result (.rule s.walk.ruleIndex) false)

variable (s : State τ μ ο ε)

lemma Acted.skip (rule : DNSRule τ μ ο) : Acted s rule s.next :=
  .next s.walk.effectiveOptions s.walk.anonymousFuture (.inr rfl)

variable {options : RouteOptions ο} {rule : DNSRule τ μ ο} {speculative : Bool}

variable (env : Env τ μ ο)

lemma Env.evaluate_acted {server : τ} {tag : Option τ}
    (h : rule.action.action = .evaluate server tag speculative options) :
    Acted s rule (env.evaluate s server tag speculative options) := by
  have htag : rule.evaluateTag = tag := by simp [DNSRule.evaluateTag, h]
  unfold Env.evaluate
  split
  · split
    · exact .next s.walk.effectiveOptions none (.inl rfl)
    · exact .skip s rule
  · split
    · exact .drain
    next hfree =>
      rw [← htag]
      refine .evaluate server _ speculative ⟨_, _, h⟩ ?_
      simp only [Bool.and_eq_true, Bool.not_eq_true', not_and, Bool.not_eq_false, List.isEmpty_iff] at hfree
      cases speculative with
      | true => exact .inl rfl
      | false => exact .inr (hfree rfl)

lemma Env.route_acted {server : τ} (h : rule.action.action = .route server speculative options) :
    Acted s rule (env.route s server speculative options) := by
  unfold Env.route
  simp only
  split
  · exact .skip s rule
  · exact .skip s rule
  next queryOptions _ =>
    split
    · split
      next hfirst =>
        simp only [Bool.and_eq_true, Option.isNone_iff_eq_none] at hfirst
        exact .speculate server queryOptions speculative ⟨options, h⟩ hfirst.2
      · exact .drain
    next hfree =>
      have hfree : s.walk.armedRules = [] := by simpa using hfree
      split
      · split
        · exact .pendingFuture _ hfree
        next hne =>
          exact .pendingExchange server queryOptions hfree fun _ => hne
      next hnone =>
        exact .pendingExchange server queryOptions hfree (absurd hnone)

/-- **What the action of the current rule does.** -/
theorem Env.act_acted (rule : DNSRule τ μ ο) : Acted s rule (env.act s rule) := by
  have hfree (h : ¬(!s.walk.armedRules.isEmpty) = true) : s.walk.armedRules = [] := by simpa using h
  unfold Env.act
  split
  · exact .next _ s.walk.anonymousFuture (.inr rfl)
  next haction => exact env.evaluate_acted s haction
  · split
    · exact .drain
    next h =>
      split
      · exact .finish _ (hfree h)
      · split
        · exact .respond _ (.inl rfl) (hfree h)
        · exact .respond _ (.inr rfl) (hfree h)
  next haction => exact env.route_acted s haction
  · split
    · exact .drain
    next h =>
      split
      · exact .finish _ (hfree h)
      · exact .finish _ (hfree h)
      · exact .skip s rule
  · split
    · exact .drain
    next h => exact .finish _ (hfree h)

/-- The rule has an action a race can commit to: it answers, or it routes to a server that can be used. -/
def Env.usable (env : Env τ μ ο) (rule : DNSRule τ μ ο) : Bool :=
  match rule.action.action with
  | .respond => true
  | .route server _ _ => env.loaded server && (!env.isFakeIP server || env.allowFakeIP)
  | .reject .default => true
  | .reject .drop => true
  | .predefined _ => true
  | _ => false

omit [DecidableEq τ] in
lemma Env.usable_route {server : τ} (h : rule.action.action = .route server speculative options) (queryOptions : ο)
    (hroute : (env.resolveDNSRoute server options queryOptions).1 ≠ .resolved) : env.usable rule = false := by
  simp only [Env.usable]
  unfold Env.resolveDNSRoute at hroute
  split at hroute
  · simp_all
  · split at hroute
    · simp_all
    · exact absurd rfl hroute

/-- The states the action of an armed rule can lead to. -/
inductive ActedArmed (env : Env τ μ ο) (s : State τ μ ο ε) (armed : ArmedRule τ μ ο) (index : ℕ)
    (caller : Caller τ μ ο) : State τ μ ο ε → Prop where
  | respond : ActedArmed env s armed index caller (s.goto (.respondArmed armed))
  | commit (server : τ) (options : ο) :
    ActedArmed env s armed index caller (s.commit (.exchange server options (.rule armed.ruleIndex)) caller)
  | finish (result : WalkResult τ μ ε) :
    ActedArmed env s armed index caller (s.finish result (.rule armed.ruleIndex) false)
  | sweep (unusable : env.usable armed.rule = false) :
    ActedArmed env s armed index caller (s.goto (.sweep index caller))

omit [DecidableEq τ] in
/-- **What the action of an armed rule does.** -/
theorem Env.actArmed_acted (armed : ArmedRule τ μ ο) (index : ℕ)
    (caller : Caller τ μ ο) : ActedArmed env s armed index caller (env.actArmed s armed index caller) := by
  cases haction : armed.rule.action.action with
  | respond =>
    simp only [Env.actArmed, haction]
    exact .respond
  | route server speculative options =>
    simp only [Env.actArmed, haction]
    cases hroute : env.resolveDNSRoute server options armed.options with | mk status queryOptions =>
    cases status with
    | resolved => exact .commit server queryOptions
    | missing | skipped => exact .sweep (env.usable_route haction armed.options (by simp [hroute]))
  | reject method =>
    cases method with
    | default | drop =>
      simp only [Env.actArmed, haction]
      exact .finish _
    | reply =>
      simp only [Env.actArmed, haction]
      exact .sweep (by simp [Env.usable, haction])
  | predefined response =>
    simp only [Env.actArmed, haction]
    exact .finish _
  | evaluate server tag speculative options | routeOptions options =>
    simp only [Env.actArmed, haction]
    exact .sweep (by simp [Env.usable, haction])

/-! ### What a step does -/

/-- The loop that resumes the walk has to wait. -/
def Walk.Blocks (w : Walk τ μ ο ε) : Suspension τ ο → Prop
  | .await f => w.resolved f = false
  | .drain => w.armedRules ≠ []
  | .pending _ => False

/-- The states a step can lead to. -/
inductive Stepped (env : Env τ μ ο) (s : State τ μ ο ε) : WalkEvent μ ε → State τ μ ο ε → Prop where
  | drain (hpc : s.pc = .walk) : Stepped env s .tick (s.suspend .drain)
  | routeDefault (hpc : s.pc = .walk) (free : s.walk.armedRules = []) : Stepped env s .tick
      (s.suspend (.pending (.exchange env.defaultTransport s.walk.effectiveOptions .defaultServer)))
  | bind {rule : DNSRule τ μ ο} (hpc : s.pc = .walk) (hr : env.rules[s.walk.ruleIndex]? = some rule)
    (hb : rule.hasBindings = true) : Stepped env s .tick (s.goto (.settle 0 (.walk rule)))
  | unbound {rule : DNSRule τ μ ο} (hpc : s.pc = .walk) (hr : env.rules[s.walk.ruleIndex]? = some rule)
    (hb : rule.hasBindings = false) : Stepped env s .tick (s.goto (.judge rule))
  | settle {i : ℕ} {caller : Caller τ μ ο} {f : Future τ μ ε} (hpc : s.pc = .settle i caller)
    (hf : s.walk.futures[i]? = some f) :
    Stepped env s .tick { s with walk := s.walk.settle i f, pc := .settle (i + 1) caller }
  | race {i : ℕ} {rule : DNSRule τ μ ο} (hpc : s.pc = .settle i (.walk rule)) (hend : s.walk.futures[i]? = none)
    (hrace : rule.action.race = true) : Stepped env s .tick (s.goto (.bindTags rule rule.matchResponseTags []))
  | awaitAll {i : ℕ} {rule : DNSRule τ μ ο} (hpc : s.pc = .settle i (.walk rule)) (hend : s.walk.futures[i]? = none)
    (hrace : rule.action.race = false) : Stepped env s .tick (s.goto (.awaitTags rule rule.matchResponseTags))
  | settled {i : ℕ} {suspension : Suspension τ ο} (hpc : s.pc = .settle i (.resume suspension))
    (hend : s.walk.futures[i]? = none) : Stepped env s .tick (s.goto (.sweep 0 (.resume suspension)))
  | bindTag {rule : DNSRule τ μ ο} {tag : τ} {tags : List τ} {pending : List ℕ}
    (hpc : s.pc = .bindTags rule (tag :: tags) pending) :
    Stepped env s .tick (s.goto (.bindTags rule tags (s.walk.addPending pending (s.walk.namedFutures tag))))
  | boundTags {rule : DNSRule τ μ ο} {pending : List ℕ} (hpc : s.pc = .bindTags rule [] pending) :
    Stepped env s .tick (s.goto (.bindAnonymous rule pending))
  | arm {rule : DNSRule τ μ ο} {pending : List ℕ} (hpc : s.pc = .bindAnonymous rule pending) :
    Stepped env s .tick (s.arm rule pending)
  | awaitedTag {rule : DNSRule τ μ ο} {tag : τ} {tags : List τ} (hpc : s.pc = .awaitTags rule (tag :: tags))
    (resolved : ∀ i, s.walk.namedFutures tag = some i → s.walk.resolved i = true) :
    Stepped env s .tick (s.goto (.awaitTags rule tags))
  | awaitedTags {rule : DNSRule τ μ ο} (hpc : s.pc = .awaitTags rule []) :
    Stepped env s .tick (s.goto (.awaitAnonymous rule))
  | awaitedAnonymous {rule : DNSRule τ μ ο} (hpc : s.pc = .awaitAnonymous rule)
    (resolved : rule.matchResponseAnonymous = true → ∀ i, s.walk.anonymousFuture = some i → s.walk.resolved i = true) :
    Stepped env s .tick (s.goto (.judge rule))
  | await (f : ℕ) (hpc : (∃ rule tags, s.pc = .awaitTags rule tags) ∨ (∃ rule, s.pc = .awaitAnonymous rule) ∨
      ∃ rule, s.pc = .respondWait rule)
    (launched : (∃ tag, s.walk.namedFutures tag = some f) ∨ s.walk.anonymousFuture = some f) :
    Stepped env s .tick (s.suspend (.await f))
  | judge {rule : DNSRule τ μ ο} {s' : State τ μ ο ε} (hpc : s.pc = .judge rule)
    (acted : Acted (s.record (env.judgement s rule)) rule s') : Stepped env s .tick s'
  | respondWait {rule : DNSRule τ μ ο} (hpc : s.pc = .respondWait rule) : Stepped env s .tick (s.goto (.respond rule))
  | respond {rule : DNSRule τ μ ο} (hpc : s.pc = .respond rule) (result : WalkResult τ μ ε) :
    Stepped env s .tick (s.finish result (.rule s.walk.ruleIndex) false)
  | sweep {index : ℕ} {caller : Caller τ μ ο} {armed : ArmedRule τ μ ο} (hpc : s.pc = .sweep index caller)
    (harmed : s.walk.armedRules[index]? = some armed) :
    Stepped env s .tick (s.goto (.ready index armed.futures caller))
  | sweptWalk {index : ℕ} {rule : DNSRule τ μ ο} (hpc : s.pc = .sweep index (.walk rule)) : Stepped env s .tick s.next
  | swept {index : ℕ} {suspension : Suspension τ ο} (hpc : s.pc = .sweep index (.resume suspension))
    (hnone : s.walk.armedRules[index]? = none) : Stepped env s .tick (s.goto (.resume suspension))
  | ready {index f : ℕ} {futures : List ℕ} {caller : Caller τ μ ο} (hpc : s.pc = .ready index (f :: futures) caller)
    (resolved : s.walk.resolved f = true) : Stepped env s .tick (s.goto (.ready index futures caller))
  | unready {index f : ℕ} {futures : List ℕ} {caller : Caller τ μ ο} (hpc : s.pc = .ready index (f :: futures) caller)
    (running : s.walk.resolved f = false) : Stepped env s .tick (s.goto (.sweep (index + 1) caller))
  | take {index : ℕ} {caller : Caller τ μ ο} {armed : ArmedRule τ μ ο} (hpc : s.pc = .ready index [] caller)
    (harmed : s.walk.armedRules[index]? = some armed) :
    Stepped env s .tick ({ s with walk := { s.walk with armedRules := s.walk.armedRules.eraseIdx index } }.goto
      (.judgeArmed armed index caller))
  | judgeArmed {armed : ArmedRule τ μ ο} {index : ℕ} {caller : Caller τ μ ο} {s' : State τ μ ο ε}
    (hpc : s.pc = .judgeArmed armed index caller)
    (acted : ActedArmed env (s.record (env.armedJudgement s armed)) armed index caller s') : Stepped env s .tick s'
  | unmatched {armed : ArmedRule τ μ ο} {index : ℕ} {caller : Caller τ μ ο}
    (hpc : s.pc = .judgeArmed armed index caller) (missed : (env.armedJudgement s armed).matched = false) :
    Stepped env s .tick ((s.record (env.armedJudgement s armed)).goto (.sweep index caller))
  | respondArmed {armed : ArmedRule τ μ ο} (hpc : s.pc = .respondArmed armed) (result : WalkResult τ μ ε) :
    Stepped env s .tick (s.finish result (.rule armed.ruleIndex) false)
  | resumePending {pending : Pending τ ο} (hpc : s.pc = .resume (.pending pending)) :
    Stepped env s .tick (s.goto (.finish pending))
  | resume (hpc : (∃ f, s.pc = .resume (.await f)) ∨ s.pc = .resume .drain) : Stepped env s .tick (s.goto .walk)
  | wait {suspension : Suspension τ ο} (hpc : s.pc = .resume suspension) (blocks : s.walk.Blocks suspension) :
    Stepped env s .tick (s.goto (.waiting suspension))
  | wake {suspension : Suspension τ ο} (hpc : s.pc = .waiting suspension) :
    Stepped env s .tick ({ s with walk := { s.walk with wake := false } }.goto (.settle 0 (.resume suspension)))
  | finish {pending : Pending τ ο} (hpc : s.pc = .finish pending) : Stepped env s .tick (s.finishPending pending)
  | answered {f : ℕ} {origin : Origin} (hpc : s.pc = .waitFuture f origin) (result : WalkResult τ μ ε) :
    Stepped env s .tick (s.finish result origin true)
  | giveUp (hpc : (∃ suspension, s.pc = .waiting suspension) ∨ ∃ f origin, s.pc = .waitFuture f origin) :
    Stepped env s .giveUp (s.finish { err := some .context } .nobody false)
  | complete {i : ℕ} {f : Future τ μ ε} (outcome : Except ε μ) (hf : s.walk.futures[i]? = some f)
    (running : f.resolved = false) :
    Stepped env s (.complete i outcome) { s with walk := s.walk.complete i f outcome }
  | reply {transport : τ} {origin : Origin} (outcome : Except ε μ) (hpc : s.pc = .exchanging transport origin) :
    Stepped env s (.reply outcome) (s.finish (outcomeResult (some transport) outcome) origin false)
  | cancelContext : Stepped env s .cancelContext { s with contextDone := true }
  | direct {transport : τ} {options : ο} {origin : Origin}
    (hpc : s.pc = .settle 0 (.resume (.pending (.exchange transport options origin)))) :
    Stepped env s .direct (s.goto (.finish (.exchange transport options origin)))

lemma Env.walkHead_stepped (hpc : s.pc = .walk) : Stepped env s .tick (env.walkHead s) := by
  unfold Env.walkHead
  split
  · split
    · exact .drain hpc
    next hfree => exact .routeDefault hpc (by simpa using hfree)
  next hr =>
    split
    next hb => exact .bind hpc hr hb
    next hb => exact .unbound hpc hr (Bool.eq_false_iff.2 hb)

lemma Env.settled_stepped {i : ℕ} {caller : Caller τ μ ο} (hpc : s.pc = .settle i caller)
    (hend : s.walk.futures[i]? = none) : Stepped env s .tick (s.settled caller) := by
  unfold State.settled
  split
  · split
    next hrace => exact .race hpc hend hrace
    next hrace => exact .awaitAll hpc hend (Bool.eq_false_iff.2 hrace)
  · exact .settled hpc hend

lemma Env.resumed_stepped {suspension : Suspension τ ο} (hpc : s.pc = .resume suspension) :
    Stepped env s .tick (s.resumed suspension) := by
  cases suspension with
  | pending pending => exact .resumePending hpc
  | await f =>
    unfold State.resumed
    dsimp only
    split
    · exact .resume (.inl ⟨f, hpc⟩)
    next hf => exact .wait hpc (Bool.eq_false_iff.2 hf)
  | drain =>
    unfold State.resumed
    dsimp only
    split
    · exact .resume (.inr hpc)
    next harmed =>
      exact .wait hpc fun h => harmed (by rw [h]; rfl)

lemma Env.tick_stepped {s s' : State τ μ ο ε} (hs : env.tick s = some s') : Stepped env s .tick s' := by
  unfold Env.tick at hs
  split at hs <;> rename_i hpc
  · cases hs
    exact env.walkHead_stepped s hpc
  · split at hs <;> cases hs
    next hend => exact env.settled_stepped s hpc hend
    next hf => exact .settle hpc hf
  · cases hs
    exact .boundTags hpc
  · cases hs
    exact .bindTag hpc
  · cases hs
    exact .arm hpc
  · cases hs
    exact .awaitedTags hpc
  · split at hs
    next hf =>
      split at hs <;> cases hs
      next hres =>
        refine .awaitedTag hpc fun i hi => ?_
        rw [hf] at hi
        cases hi
        exact hres
      · exact .await _ (.inl ⟨_, _, hpc⟩) (.inl ⟨_, hf⟩)
    next hnone =>
      cases hs
      refine .awaitedTag hpc fun i hi => ?_
      rw [hnone] at hi
      cases hi
  · split at hs
    next hf =>
      split at hs <;> cases hs
      next hres =>
        refine .awaitedAnonymous hpc fun hr i hi => ?_
        rw [if_pos hr, hi] at hf
        cases hf
        exact hres
      · exact .await _ (.inr (.inl ⟨_, hpc⟩)) (.inr (Option.ite_none_right_eq_some.1 hf).2)
    next hnone =>
      cases hs
      refine .awaitedAnonymous hpc fun hr i hi => ?_
      rw [if_pos hr, hi] at hnone
      cases hnone
  · cases hs
    refine .judge hpc ?_
    unfold Env.judge
    dsimp only
    split
    · exact env.act_acted _ _
    · exact .skip _ _
  · split at hs
    next hf =>
      split at hs <;> cases hs
      · exact .respondWait hpc
      · exact .await _ (.inr (.inr ⟨_, hpc⟩)) (.inr hf)
    · cases hs
      exact .respondWait hpc
  · cases hs
    exact .respond hpc _
  next caller =>
    split at hs <;> cases hs
    next hnone =>
      cases caller with
      | walk rule => exact .sweptWalk hpc
      | resume suspension => exact .swept hpc hnone
    next harmed => exact .sweep hpc harmed
  · split at hs <;> cases hs
    next hres => exact .ready hpc hres
    next hres => exact .unready hpc (Bool.eq_false_iff.2 hres)
  · split at hs <;> cases hs
    rename_i harmed
    exact .take hpc harmed
  · cases hs
    unfold Env.judgeArmed
    dsimp only
    split
    · exact .judgeArmed hpc (env.actArmed_acted _ _ _ _)
    next hmissed => exact .unmatched hpc (Bool.eq_false_iff.2 hmissed)
  · cases hs
    exact .respondArmed hpc _
  · cases hs
    exact env.resumed_stepped s hpc
  · split at hs <;> cases hs
    exact .wake hpc
  · cases hs
    exact .finish hpc
  · split at hs <;> cases hs
    exact .answered hpc _
  · cases hs
  · cases hs

/-- **What a step does.** -/
theorem Env.step_stepped {s s' : State τ μ ο ε} {e : WalkEvent μ ε} (hs : env.step s e = some s') :
    Stepped env s e s' := by
  cases e with
  | tick => exact env.tick_stepped hs
  | giveUp =>
    simp only [Env.step] at hs
    split at hs
    · cases hs
    · split at hs <;> rename_i hpc <;> cases hs
      · exact .giveUp (.inl ⟨_, hpc⟩)
      · exact .giveUp (.inr ⟨_, _, hpc⟩)
  | complete i outcome =>
    simp only [Env.step] at hs
    split at hs
    · cases hs
    next hf =>
      split at hs <;> cases hs
      rename_i hres
      exact .complete outcome hf (by simpa using hres)
  | reply outcome =>
    simp only [Env.step] at hs
    split at hs <;> rename_i hpc <;> cases hs
    exact .reply outcome hpc
  | cancelContext =>
    cases hs
    exact .cancelContext
  | direct =>
    simp only [Env.step] at hs
    split at hs <;> rename_i hpc <;> cases hs
    exact .direct hpc

end SingBox.Dns
