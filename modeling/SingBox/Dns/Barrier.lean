import SingBox.Dns.Steps

/-!
# The race barrier

A race rule that waits for a query is armed, and the walk goes on past it.  What the rules after it do is held back.
-/

namespace SingBox.Dns

open SingBox.Lib List

variable {τ μ ο ε : Type} [DecidableEq τ] {env : Env τ μ ο} {w w' : Walk τ μ ο ε}

/-! ### The barrier -/

/-- What has to wait for the armed rules: the default server, and every rule that is not itself armed. -/
def Env.held (env : Env τ μ ο) : Origin → Bool
  | .rule i => env.rules[i]?.all fun rule => !(rule.action.race && rule.hasBindings)
  | .defaultServer => true
  | .nobody => false

/-- An armed rule has matched, and has an action to commit to. -/
def Judgement.commits (env : Env τ μ ο) (j : Judgement τ μ ο) : Bool := j.armed && j.matched && env.usable j.rule

/-- **The barrier**, over what has happened so far. -/
structure State.Barrier (env : Env τ μ ο) (s : State τ μ ο ε) : Prop where
  sent : ∀ q ∈ s.queries, q.speculative = false → env.held q.origin = true → q.armed = []
  returned : ∀ result origin speculative, s.pc = .returned result origin speculative → env.held origin = true →
    s.walk.armedRules = []
  /-- No armed rule that matched is passed over, in particular not for the query of a speculative route. -/
  uncontested : ∀ result origin speculative, s.pc = .returned result origin speculative →
    speculative = true ∨ env.held origin = true → ∀ j ∈ s.judged, j.commits env = false
  once : (s.queries.map Query.origin).Nodup
  cancelled : ∀ result origin speculative, s.pc = .returned result origin speculative →
    ∀ f ∈ s.walk.futures, f.cancelled = true ∨ f.resolved = true

/-! ### What is known at each point -/

/-- The query of a rule or the default server was not sent yet. -/
def Walk.Unsent (w : Walk τ μ ο ε) (origin : Origin) : Prop :=
  origin = .defaultServer ∨ origin = .rule w.ruleIndex ∧ (w.terminalFuture ≠ none → w.terminalIndex ≠ w.ruleIndex)

/-- What is known of a query that is still to be sent. -/
def PendingOk (env : Env τ μ ο) (w : Walk τ μ ο ε) : Pending τ ο → Prop
  | .exchange _ _ origin => env.held origin = false ∨ w.armedRules = [] ∧ w.Unsent origin
  | .future _ _ => w.armedRules = []

def SuspensionOk (env : Env τ μ ο) (w : Walk τ μ ο ε) : Suspension τ ο → Prop
  | .pending pending => w.armedRules = [] ∧ PendingOk env w pending
  | _ => True

def CallerOk (env : Env τ μ ο) (w : Walk τ μ ο ε) : Caller τ μ ο → Prop
  | .walk _ => True
  | .resume suspension => SuspensionOk env w suspension

def Guard (env : Env τ μ ο) (w : Walk τ μ ο ε) : PC τ μ ο ε → Prop
  | .walk => True
  | .settle _ (.walk rule) => env.rules[w.ruleIndex]? = some rule ∧ rule.hasBindings = true
  | .settle _ (.resume suspension) => SuspensionOk env w suspension
  | .bindTags rule _ _ => env.held (.rule w.ruleIndex) = false ∧ env.rules[w.ruleIndex]? = some rule
  | .bindAnonymous rule _ => env.held (.rule w.ruleIndex) = false ∧ env.rules[w.ruleIndex]? = some rule
  | .awaitTags rule _ => env.held (.rule w.ruleIndex) = true ∧ env.rules[w.ruleIndex]? = some rule
  | .awaitAnonymous rule => env.held (.rule w.ruleIndex) = true ∧ env.rules[w.ruleIndex]? = some rule
  | .judge rule => env.held (.rule w.ruleIndex) = true ∧ env.rules[w.ruleIndex]? = some rule
  | .respondWait _ => w.armedRules = []
  | .respond _ => w.armedRules = []
  | .sweep _ caller => CallerOk env w caller
  | .ready _ _ caller => CallerOk env w caller
  | .judgeArmed armed _ caller => env.held (.rule armed.ruleIndex) = false ∧ CallerOk env w caller
  | .respondArmed armed => env.held (.rule armed.ruleIndex) = false
  | .resume suspension => SuspensionOk env w suspension
  | .waiting suspension => SuspensionOk env w suspension
  | .finish pending => PendingOk env w pending
  | .waitFuture _ _ => w.armedRules = []
  | .exchanging _ origin => env.held origin = true → w.armedRules = []
  | .returned _ origin _ => (env.held origin = true → w.armedRules = []) ∧ ∀ f ∈ w.futures, f.cancelled = true

/-- The goroutine is to send the query of a race rule. -/
def Suspension.Committed (env : Env τ μ ο) : Suspension τ ο → Prop
  | .pending (.exchange _ _ origin) => env.held origin = false
  | _ => False

def Caller.Committed (env : Env τ μ ο) : Caller τ μ ο → Prop
  | .walk _ => False
  | .resume suspension => suspension.Committed env

/-- The goroutine has committed to a race rule. -/
def PC.Committed (env : Env τ μ ο) : PC τ μ ο ε → Prop
  | .settle _ caller => caller.Committed env
  | .sweep _ caller => caller.Committed env
  | .ready _ _ caller => caller.Committed env
  | .judgeArmed _ _ caller => caller.Committed env
  | .respondArmed _ => True
  | .resume suspension => suspension.Committed env
  | .finish pending => Suspension.Committed env (.pending pending)
  | .exchanging _ origin => env.held origin = false
  | .returned _ origin speculative => env.held origin = false ∧ speculative = false
  | _ => False

def PC.ended : PC τ μ ο ε → Bool
  | .exchanging _ _ => true
  | .returned _ _ _ => true
  | _ => false

/-- The query of a rule that the walk has passed, or is at with the query of its route sent ahead. -/
def Past (env : Env τ μ ο) (w : Walk τ μ ο ε) (origin : Origin) : Prop :=
  ∃ i rule, origin = .rule i ∧ env.rules[i]? = some rule ∧ env.held (.rule i) = true ∧
    (i < w.ruleIndex ∨ i = w.ruleIndex ∧ w.terminalFuture ≠ none ∧ w.terminalIndex = i ∧
      ∃ server speculative options, rule.action.action = .route server speculative options)

structure State.Guarded (env : Env τ μ ο) (s : State τ μ ο ε) : Prop where
  armed : ∀ a ∈ s.walk.armedRules, env.held (.rule a.ruleIndex) = false
  pc : Guard env s.walk s.pc
  committed : ∀ j ∈ s.judged, j.commits env = true → s.pc.Committed env
  sent : ∀ q ∈ s.queries, q.speculative = false → env.held q.origin = true → q.armed = []
  once : (s.queries.map Query.origin).Nodup
  past : s.pc.ended = true ∨ ∀ q ∈ s.queries, Past env s.walk q.origin

lemma State.Guarded.barrier {s : State τ μ ο ε} (h : s.Guarded env) : s.Barrier env := by
  refine ⟨h.sent, ?_, ?_, h.once, ?_⟩
  · intro result origin speculative hpc
    have hg := h.pc
    rw [hpc] at hg
    exact hg.1
  · intro result origin speculative hpc hheld j hj
    by_contra hc
    have hcommitted := h.committed j hj (by simpa using hc)
    rw [hpc] at hcommitted
    obtain ⟨h1, h2⟩ := hcommitted
    simp [h1, h2] at hheld
  · intro result origin speculative hpc f hf
    have hg := h.pc
    rw [hpc] at hg
    exact .inl (hg.2 f hf)

section Steps

variable {s s' : State τ μ ο ε} {origin : Origin}

lemma Past.mono (h : Past env w origin) (hi : w.ruleIndex ≤ w'.ruleIndex)
    (hf : w'.terminalFuture = w.terminalFuture) (ht : w'.terminalIndex = w.terminalIndex) : Past env w' origin := by
  obtain ⟨i, rule, ho, hr, hheld, hpast⟩ := h
  refine ⟨i, rule, ho, hr, hheld, ?_⟩
  rcases hpast with hlt | ⟨heq, hrest⟩
  · exact .inl (Nat.lt_of_lt_of_le hlt hi)
  · rcases Nat.eq_or_lt_of_le hi with hi | hi
    · exact .inr ⟨heq.trans hi, by rw [hf, ht]; exact hrest⟩
    · exact .inl (heq ▸ hi)

/-- The walk goes on, and no rule is armed. -/
structure Walk.Onward (w w' : Walk τ μ ο ε) : Prop where
  armed : ∀ a ∈ w'.armedRules, a ∈ w.armedRules
  index : w.ruleIndex ≤ w'.ruleIndex
  future : w'.terminalFuture = w.terminalFuture
  terminal : w'.terminalIndex = w.terminalIndex

omit [DecidableEq τ] in
lemma Walk.Onward.same (fs : List (Future τ μ ε)) (wake : Bool) : w.Onward { w with futures := fs, wake } :=
  ⟨fun _ ha => ha, Nat.le_refl _, rfl, rfl⟩

lemma State.Guarded.change (h : s.Guarded env) (hw : s.walk.Onward s'.walk) (hq : s'.queries = s.queries)
    (hpc : Guard env s'.walk s'.pc) (hc : ∀ j ∈ s'.judged, j.commits env = true → s'.pc.Committed env)
    (he : s.pc.ended = true → s'.pc.ended = true) : s'.Guarded env where
  armed a ha := h.armed a (hw.armed a ha)
  pc := hpc
  committed := hc
  sent := hq ▸ h.sent
  once := hq ▸ h.once
  past := hq ▸ h.past.imp he fun hp q hq' => (hp q hq').mono hw.index hw.future hw.terminal

lemma State.Guarded.move (h : s.Guarded env) (hw : s.walk.Onward s'.walk) (hj : s'.judged = s.judged)
    (hq : s'.queries = s.queries) (hpc : Guard env s'.walk s'.pc) (hc : s.pc.Committed env → s'.pc.Committed env)
    (he : s.pc.ended = true → s'.pc.ended = true) : s'.Guarded env :=
  h.change hw hq hpc (fun j hj' hcommits => hc (h.committed j (hj ▸ hj') hcommits)) he

lemma State.Guarded.goto (h : s.Guarded env) {pc : PC τ μ ο ε} (hpc : Guard env s.walk pc)
    (hc : s.pc.Committed env → pc.Committed env) (he : s.pc.ended = true → pc.ended = true) : (s.goto pc).Guarded env :=
  h.move (.same ..) rfl rfl hpc hc he

lemma State.Guarded.jump (h : s.Guarded env) {pc pc' : PC τ μ ο ε} (hpc : s.pc = pc) (hg : Guard env s.walk pc')
    (hc : pc.Committed env → pc'.Committed env) (he : pc.ended = false) : (s.goto pc').Guarded env :=
  h.goto hg (hpc ▸ hc) (by simp [hpc, he])

lemma State.Guarded.next (h : s.Guarded env) (hc : ¬s.pc.Committed env) (he : s.pc.ended = false) :
    s.next.Guarded env :=
  h.move ⟨fun _ ha => ha, Nat.le_succ _, rfl, rfl⟩ rfl rfl trivial (fun hcommitted => absurd hcommitted hc)
    (by simp [he])

omit [DecidableEq τ] in
lemma cancelAll_cancelled : ∀ f ∈ w.cancelAll.futures, f.cancelled = true := by
  intro f hf
  obtain ⟨f, -, rfl⟩ := mem_map.1 hf
  rfl

lemma State.Guarded.finish (h : s.Guarded env) (result : WalkResult τ μ ε) {speculative : Bool}
    (hfree : env.held origin = true → s.walk.armedRules = [])
    (hc : s.pc.Committed env → env.held origin = false ∧ speculative = false) :
    (s.finish result origin speculative).Guarded env :=
  h.move (.same ..) rfl rfl ⟨hfree, cancelAll_cancelled⟩ hc fun _ => rfl

lemma State.Guarded.record (h : s.Guarded env) {j : Judgement τ μ ο} (hj : j.commits env = false) :
    (s.record j).Guarded env where
  __ := h
  committed j' hj' hcommits := by
    rcases mem_append.1 hj' with hj' | hj'
    · exact h.committed j' hj' hcommits
    · rw [mem_singleton] at hj'
      subst hj'
      rw [hj] at hcommits
      cases hcommits

lemma State.Guarded.send (h : s.Guarded env) {q : Query τ ο} (ha : s'.walk.armedRules = s.walk.armedRules)
    (hj : s'.judged = s.judged) (hq : s'.queries = s.queries ++ [q]) (hpc : Guard env s'.walk s'.pc)
    (hc : s.pc.Committed env → s'.pc.Committed env)
    (hsent : q.speculative = false → env.held q.origin = true → q.armed = [])
    (hfresh : ∀ q' ∈ s.queries, q'.origin ≠ q.origin)
    (hpast : s'.pc.ended = true ∨ (∀ q' ∈ s.queries, Past env s'.walk q'.origin) ∧ Past env s'.walk q.origin) :
    s'.Guarded env where
  armed := by rw [ha]; exact h.armed
  pc := hpc
  committed j hj' hcommits := hc (h.committed j (hj ▸ hj') hcommits)
  sent := by
    rw [hq]
    intro q' hq'
    rcases mem_append.1 hq' with hq' | hq'
    · exact h.sent q' hq'
    · rw [mem_singleton] at hq'
      subst hq'
      exact hsent
  once := by
    rw [hq, map_append, nodup_append]
    refine ⟨h.once, by simp, ?_⟩
    intro origin horigin origin' horigin'
    simp only [map_cons, map_nil, mem_singleton] at horigin'
    obtain ⟨q', hq', rfl⟩ := mem_map.1 horigin
    exact horigin' ▸ hfresh q' hq'
  past := by
    refine hpast.imp id fun hp q' hq' => ?_
    rw [hq] at hq'
    rcases mem_append.1 hq' with hq' | hq'
    · exact hp.1 q' hq'
    · rw [mem_singleton] at hq'
      subst hq'
      exact hp.2

lemma Past.held (h : Past env w origin) : env.held origin = true := by
  obtain ⟨i, rule, rfl, -, hheld, -⟩ := h
  exact hheld

lemma Past.not_unsent (h : Past env w origin) : ¬w.Unsent origin := by
  obtain ⟨i, rule, rfl, -, -, hpast⟩ := h
  rintro (hunsent | ⟨hi, hterminal⟩)
  · cases hunsent
  · cases hi
    rcases hpast with hlt | ⟨-, hsome, hindex, -⟩
    · omega
    · exact hterminal hsome hindex

variable {rule : DNSRule τ μ ο}

lemma State.Guarded.acted (h : s.Guarded env)
    (hr : env.rules[s.walk.ruleIndex]? = some rule) (hheld : env.held (.rule s.walk.ruleIndex) = true)
    (hc : ¬s.pc.Committed env) (he : s.pc.ended = false) (ha : Acted s rule s') : s'.Guarded env := by
  have hpast := h.past.resolve_left (by simp [he])
  have hc' {P : Prop} (hcommitted : s.pc.Committed env) : P := absurd hcommitted hc
  have he' {P : Prop} (hended : s.pc.ended = true) : P := by simp [he] at hended
  cases ha with
  | next options anonymous kept => exact h.move ⟨fun _ ha => ha, Nat.le_succ _, rfl, rfl⟩ rfl rfl trivial hc' he'
  | drain => exact h.goto trivial hc' he'
  | evaluate server options speculative action free =>
    obtain ⟨tag, options', haction⟩ := action
    refine h.send (by cases rule.evaluateTag <;> rfl) (by cases rule.evaluateTag <;> rfl)
      (by cases rule.evaluateTag <;> rfl) trivial hc' ?_ ?_ (.inr ⟨?_, ?_⟩)
    · intro hspeculative
      have hfree := free.resolve_left (by simpa using hspeculative)
      simp [State.armedIndices, hfree]
    · -- a query of this rule would be one that was sent ahead, for a route
      intro q hq heq
      obtain ⟨i, rule', horigin, hr', -, hlt | ⟨hi, -, -, server', speculative', options'', hroute⟩⟩ := hpast q hq
      · rw [horigin, Origin.rule.injEq] at heq
        omega
      · rw [hi, hr, Option.some.injEq] at hr'
        subst hr'
        rw [haction] at hroute
        cases hroute
    · intro q hq
      exact (hpast q hq).mono (by simp [State.next]) (by simp [State.next]) (by simp [State.next])
    · exact ⟨s.walk.ruleIndex, rule, rfl, hr, hheld, .inl (by simp [State.next])⟩
  | speculate server options speculative action first =>
    obtain ⟨options', haction⟩ := action
    -- nothing was sent ahead before
    have hlt (q : Query τ ο) (hq : q ∈ s.queries) : ∃ i rule', q.origin = .rule i ∧ env.rules[i]? = some rule' ∧
        env.held (.rule i) = true ∧ i < s.walk.ruleIndex := by
      obtain ⟨i, rule', horigin, hr', hheld', hlt | ⟨-, hsome, -⟩⟩ := hpast q hq
      · exact ⟨i, rule', horigin, hr', hheld', hlt⟩
      · exact absurd first hsome
    refine h.send rfl rfl rfl trivial hc' (by simp) ?_ (.inr ⟨?_, ?_⟩)
    · intro q hq heq
      obtain ⟨i, -, horigin, -, -, hi⟩ := hlt q hq
      rw [horigin, Origin.rule.injEq] at heq
      omega
    · intro q hq
      obtain ⟨i, rule', horigin, hr', hheld', hi⟩ := hlt q hq
      exact ⟨i, rule', horigin, hr', hheld', .inl hi⟩
    · have hsome : ((s.launchTerminal server options).suspend .drain).walk.terminalFuture ≠ none := by
        simp [State.launchTerminal, State.suspend, State.goto]
      exact ⟨s.walk.ruleIndex, rule, rfl, hr, hheld, .inr ⟨rfl, hsome, rfl, server, speculative, options', haction⟩⟩
  | pendingFuture f free => exact h.goto ⟨free, free⟩ hc' he'
  | pendingExchange server options free other => exact h.goto ⟨free, .inr ⟨free, .inr ⟨rfl, other⟩⟩⟩ hc' he'
  | respond pc hpc free =>
    refine h.goto ?_ hc' he'
    rcases hpc with rfl | rfl <;> exact free
  | finish result free => exact h.finish result (fun _ => free) hc'

variable {caller : Caller τ μ ο}

attribute [local simp] PC.ended

lemma State.Guarded.actedArmed (h : s.Guarded env) {a : ArmedRule τ μ ο} {index : ℕ} {j : Judgement τ μ ο}
    (hpc : s.pc = .judgeArmed a index caller) (ha : ActedArmed env (s.record j) a index caller s')
    (hj : env.usable a.rule = false → j.commits env = false) : s'.Guarded env := by
  have hg := h.pc
  rw [hpc] at hg
  obtain ⟨hrace, hcaller⟩ := hg
  have hcommit {s' : State τ μ ο ε} (hw : s.walk.Onward s'.walk) (hq : s'.queries = s.queries)
      (hg : Guard env s'.walk s'.pc) (hc : s'.pc.Committed env) : s'.Guarded env :=
    h.change hw hq hg (fun _ _ _ => hc) (by simp [hpc])
  cases ha with
  | respond => exact hcommit (.same ..) rfl hrace trivial
  | commit server options =>
    cases caller with
    | walk rule =>
      exact hcommit ⟨by simp [State.commit, State.suspend, State.goto], Nat.le_refl _, rfl, rfl⟩ rfl ⟨rfl, .inl hrace⟩
        hrace
    | resume suspension => exact hcommit (.same ..) rfl (.inl hrace) hrace
  | finish result => exact hcommit (.same ..) rfl ⟨by simp [hrace], cancelAll_cancelled⟩ ⟨hrace, rfl⟩
  | sweep unusable => exact (h.record (hj unusable)).jump hpc hcaller id rfl

lemma Env.held_rule {i : ℕ} (h : env.rules[i]? = some rule) :
    env.held (.rule i) = !(rule.action.race && rule.hasBindings) := by
  simp [Env.held, h]

lemma State.Guarded.arm (h : s.Guarded env) {pending : List ℕ}
    (hpc : s.pc = .bindAnonymous rule pending) : (s.arm rule pending).Guarded env := by
  have hg := h.pc
  rw [hpc] at hg
  have hpast := h.past.resolve_left (by simp [hpc])
  have hnone (j : Judgement τ μ ο) (hj : j ∈ s.judged) : j.commits env = false := by
    by_contra hc
    have hcommitted := h.committed j hj (by simpa using hc)
    rw [hpc] at hcommitted
    exact hcommitted
  have harmed (a : ArmedRule τ μ ο) (ha : a.ruleIndex = s.walk.ruleIndex) :
      ∀ a' ∈ s.walk.armedRules ++ [a], env.held (.rule a'.ruleIndex) = false := by
    intro a' ha'
    rcases mem_append.1 ha' with ha' | ha'
    · exact h.armed a' ha'
    · rw [mem_singleton] at ha'
      subst ha'
      rw [ha]
      exact hg.1
  unfold State.arm
  simp only
  generalize (if rule.matchResponseAnonymous then s.walk.anonymousFuture else none) = anonymous
  split
  · exact ⟨harmed _ rfl, trivial, fun j hj hc => by simp [hnone j hj] at hc, h.sent, h.once,
      .inr fun q hq => (hpast q hq).mono (Nat.le_refl _) rfl rfl⟩
  · exact ⟨harmed _ rfl, trivial, fun j hj hc => by simp [hnone j hj] at hc, h.sent, h.once,
      .inr fun q hq => (hpast q hq).mono (Nat.le_succ _) rfl rfl⟩

lemma State.Guarded.finishPending (h : s.Guarded env) {pending : Pending τ ο} (hpc : s.pc = .finish pending) :
    (s.finishPending pending).Guarded env := by
  have hg := h.pc
  rw [hpc] at hg
  have hpast := h.past.resolve_left (by simp [hpc])
  cases pending with
  | exchange transport options origin =>
    have hfree : env.held origin = true → s.walk.armedRules = [] := by
      intro hheld
      rcases hg with hrace | ⟨hfree, -⟩
      · rw [hheld] at hrace
        cases hrace
      · exact hfree
    refine h.send rfl rfl rfl hfree ?_ ?_ ?_ (.inl rfl)
    · intro hc
      rw [hpc] at hc
      exact hc
    · intro _ hheld
      simpa [State.armedIndices, Walk.cancelOthers] using hfree hheld
    · rintro q hq rfl
      rcases hg with hrace | ⟨-, hunsent⟩
      · rw [(hpast q hq).held] at hrace
        cases hrace
      · exact (hpast q hq).not_unsent hunsent
  | future f origin =>
    refine h.move (.same ..) rfl rfl hg ?_ (by simp [hpc])
    intro hc
    rw [hpc] at hc
    exact hc

lemma Guard.of_eq {pc : PC τ μ ο ε} (h : Guard env w pc) (hi : w'.ruleIndex = w.ruleIndex)
    (ha : w'.armedRules = w.armedRules) (hf : w'.terminalFuture = w.terminalFuture)
    (ht : w'.terminalIndex = w.terminalIndex)
    (hfs : pc.ended = true → ∀ f ∈ w'.futures, ∃ f' ∈ w.futures, f.cancelled = f'.cancelled) : Guard env w' pc := by
  have hp (pending : Pending τ ο) (hp : PendingOk env w pending) : PendingOk env w' pending := by
    cases pending <;> simpa only [PendingOk, Walk.Unsent, hi, ha, hf, ht] using hp
  have hs (suspension : Suspension τ ο) (hs : SuspensionOk env w suspension) : SuspensionOk env w' suspension := by
    cases suspension with
    | pending pending => exact ⟨ha.trans hs.1, hp pending hs.2⟩
    | await f | drain => trivial
  have hc (caller : Caller τ μ ο) (hc : CallerOk env w caller) : CallerOk env w' caller := by
    cases caller with
    | walk rule => trivial
    | resume suspension => exact hs suspension hc
  cases pc with
  | settle i caller =>
    cases caller with
    | walk rule => simpa only [Guard, hi] using h
    | resume suspension => exact hs suspension h
  | sweep index caller | ready index futures caller => exact hc caller h
  | judgeArmed armed index caller => exact ⟨h.1, hc caller h.2⟩
  | resume suspension | waiting suspension => exact hs suspension h
  | finish pending => exact hp pending h
  | returned result origin speculative =>
    refine ⟨fun hheld => ha.trans (h.1 hheld), ?_⟩
    intro f hmem
    obtain ⟨f', hmem', heq⟩ := hfs rfl f hmem
    exact heq.trans (h.2 f' hmem')
  | respondArmed armed | walk => exact h
  | bindTags rule tags pending | bindAnonymous rule pending | awaitTags rule tags | awaitAnonymous rule
  | judge rule => simpa only [Guard, hi] using h
  | respondWait rule | respond rule | waitFuture f origin => exact ha.trans h
  | exchanging transport origin => exact fun hheld => ha.trans (h hheld)

lemma State.Guarded.take (h : s.Guarded env) {index : ℕ} {armed : ArmedRule τ μ ο}
    (hpc : s.pc = .ready index [] caller) (harmed : s.walk.armedRules[index]? = some armed) :
    ({ s with walk := { s.walk with armedRules := s.walk.armedRules.eraseIdx index } }.goto
      (.judgeArmed armed index caller)).Guarded env := by
  have hg := h.pc
  rw [hpc] at hg
  have hmem := mem_of_getElem? harmed
  refine h.move ⟨fun _ => mem_of_mem_eraseIdx, Nat.le_refl _, rfl, rfl⟩ rfl rfl ⟨h.armed armed hmem, ?_⟩
    (by rw [hpc]; exact id) (by rw [hpc]; simp)
  -- with a query pending no rule is armed
  cases caller with
  | walk rule => trivial
  | resume suspension =>
    cases suspension with
    | pending pending =>
      rw [hg.1] at hmem
      cases hmem
    | await f | drain => trivial

lemma State.Guarded.step (h : s.Guarded env) {e : WalkEvent μ ε} (hs : env.step s e = some s') : s'.Guarded env := by
  have hg := h.pc
  cases env.step_stepped hs with
  | routeDefault hpc free => exact h.jump hpc ⟨free, .inr ⟨free, .inl rfl⟩⟩ False.elim rfl
  | bind hpc hr hb => exact h.jump hpc ⟨hr, hb⟩ id rfl
  | unbound hpc hr hb => exact h.jump hpc ⟨by simp [Env.held_rule hr, hb], hr⟩ id rfl
  | @settle i caller f hpc hf =>
    rw [hpc] at hg
    obtain ⟨h1, -, h3, -, h5, h6⟩ := s.walk.settle_other i f
    have hg' : Guard env s.walk (.settle (i + 1) caller) := by cases caller <;> exact hg
    exact h.move ⟨fun a ha => by rwa [← h3], Nat.le_of_eq h1.symm, h5, h6⟩ rfl rfl
      (hg'.of_eq h1 h3 h5 h6 (by simp)) (by rw [hpc]; exact id) (by rw [hpc]; simp)
  | race hpc hend hrace | awaitAll hpc hend hrace =>
    rw [hpc] at hg
    exact h.jump hpc ⟨by simp [Env.held_rule hg.1, hrace, hg.2], hg.1⟩ id rfl
  | settled hpc | bindTag hpc | boundTags hpc | awaitedTag hpc | awaitedTags hpc | awaitedAnonymous hpc
  | respondWait hpc | sweep hpc | ready hpc | unready hpc | swept hpc => exact h.jump hpc (hpc ▸ hg :) id rfl
  | arm hpc => exact h.arm hpc
  | await f hpc launched =>
    rcases hpc with ⟨rule, tags, hpc⟩ | ⟨rule, hpc⟩ | ⟨rule, hpc⟩ <;> exact h.jump hpc trivial id rfl
  | judge hpc acted =>
    rw [hpc] at hg
    exact (h.record rfl).acted hg.2 hg.1 (hpc ▸ id) (hpc ▸ rfl) acted
  | respond hpc result | answered hpc result =>
    rw [hpc] at hg
    exact h.finish _ (fun _ => hg) (by rw [hpc]; exact False.elim)
  | sweptWalk hpc => exact h.next (by rw [hpc]; exact id) (by rw [hpc]; rfl)
  | take hpc harmed => exact h.take hpc harmed
  | judgeArmed hpc acted =>
    exact h.actedArmed hpc acted fun unusable => by simp [Judgement.commits, Env.armedJudgement, unusable]
  | unmatched hpc missed =>
    rw [hpc] at hg
    exact (h.record (by simp [Judgement.commits, missed])).jump hpc hg.2 id rfl
  | respondArmed hpc result =>
    rw [hpc] at hg
    exact h.finish _ (by simp [show env.held _ = false from hg]) (fun _ => ⟨hg, rfl⟩)
  | resume hpc => rcases hpc with ⟨f, hpc⟩ | hpc <;> exact h.jump hpc trivial id rfl
  | @wait suspension hpc blocks =>
    cases suspension with
    | await f | drain => exact h.jump hpc trivial id rfl
    | pending pending => exact blocks.elim
  | wake hpc | drain hpc =>
    rw [hpc] at hg
    exact h.move (.same ..) rfl rfl (Guard.of_eq hg rfl rfl rfl rfl fun he => by cases he)
      (by rw [hpc]; exact False.elim) (by rw [hpc]; simp)
  | finish hpc => exact h.finishPending hpc
  | giveUp hpc =>
    rcases hpc with ⟨suspension, hpc⟩ | ⟨f, origin, hpc⟩ <;>
      exact h.finish _ (by simp [Env.held]) (by rw [hpc]; exact False.elim)
  | @complete i f outcome hf running =>
    refine h.move (.same ..) rfl rfl (h.pc.of_eq rfl rfl rfl rfl ?_) id id
    intro _ f' hf'
    rcases mem_or_eq_of_mem_set hf' with hf' | rfl
    · exact ⟨f', hf', rfl⟩
    · exact ⟨f, mem_of_getElem? hf, rfl⟩
  | reply outcome hpc =>
    rw [hpc] at hg
    exact h.finish _ hg (by rw [hpc]; exact fun hc => ⟨hc, rfl⟩)
  | cancelContext => exact ⟨h.armed, h.pc, h.committed, h.sent, h.once, h.past⟩
  | direct hpc | resumePending hpc =>
    rw [hpc] at hg
    exact h.jump hpc hg.2 id rfl

lemma State.init_guarded (options : ο) : (State.init options : State τ μ ο ε).Guarded env := by
  refine ⟨?_, trivial, ?_, ?_, ?_, .inr ?_⟩ <;> simp [State.init]

end Steps

/-- **The race barrier.**  For any rules and any order the queries complete in: while a race rule is armed, no result of
the default server or of a rule that is not a race rule is returned, and no query that is not speculative is sent for
one; the response of a speculative route is returned only if no race rule matched with a usable action; no rule sends
two queries; and at the end every query was cancelled or has completed. -/
theorem race_barrier (options : ο) (events : List (WalkEvent μ ε)) :
    VisitAll env.step (State.Barrier env) (State.init options) events :=
  (visitAll_of_inv (fun _ _ _ hs h => State.Guarded.step h hs) events (State.init_guarded options)).imp
    fun _ h => h.barrier

end SingBox.Dns
