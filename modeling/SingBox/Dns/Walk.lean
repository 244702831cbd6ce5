import SingBox.Dns.Rules
import SingBox.Lib.Run

/-!
# The walk through the DNS rules

`exchangeWithRules` outside legacy mode: the walk through the rules (`walkDNSRules`), which launches queries and may
be suspended, the sweep over the armed race rules (`sweepArmedDNSRules`), and the loop that resumes the walk
(`resumeExchangeWithRules`).

The walk runs on one goroutine; the queries it has launched complete on others.  The goroutine is given by a program
counter (`PC`), and a step reads the completion of at most one query; between two steps any queries may complete.

A rule is matched by an arbitrary function of the responses it is shown.  The fields `rule` of a future and `bound` of
an armed rule, and the lists `judged` and `queries` of the state, only record what happened.
-/

namespace SingBox.Dns

variable {τ μ ο ε : Type} [DecidableEq τ]

/-! ### State -/

/-- `dnsEvaluatedFuture`: a query that was launched.  The outcome is there when `done` is closed. -/
structure Future (τ μ ε : Type) where
  tag : Option τ
  transport : τ
  terminal : Bool := false
  /-- The rule that launched it. -/
  rule : ℕ
  outcome : Option (Except ε μ) := none
  settled : Bool := false
  cancelled : Bool := false

def Future.resolved (f : Future τ μ ε) : Bool := f.outcome.isSome

def responseOf : Except ε μ → Option μ
  | .ok m => some m
  | .error _ => none

def Future.view (f : Future τ μ ε) : Option μ := f.outcome.bind responseOf

/-- `dnsArmedRule`. -/
structure ArmedRule (τ μ ο : Type) where
  ruleIndex : ℕ
  rule : DNSRule τ μ ο
  /-- The queries that were pending when the rule was armed. -/
  futures : List ℕ
  anonymousFuture : Option ℕ
  bindsAnonymous : Bool
  options : ο
  /-- The query of each tag when the rule was armed. -/
  bound : τ → Option ℕ

/-- `dnsRuleWalkState`; a future is given by its position in `futures`. -/
structure Walk (τ μ ο ε : Type) where
  ruleIndex : ℕ := 0
  effectiveOptions : ο
  anonymousFuture : Option ℕ := none
  namedFutures : τ → Option ℕ := fun _ => none
  namedResponses : τ → Option μ := fun _ => none
  namedTransports : τ → Option τ := fun _ => none
  futures : List (Future τ μ ε) := []
  armedRules : List (ArmedRule τ μ ο) := []
  terminalFuture : Option ℕ := none
  terminalIndex : ℕ := 0
  /-- A token in the channel. -/
  wake : Bool := false

/-- Whose result or query it is. -/
inductive Origin where
  | rule (index : ℕ)
  | defaultServer
  | nobody
  deriving DecidableEq

/-- `dnsPendingExchange`: a query still to be sent, or one that was sent ahead. -/
inductive Pending (τ ο : Type) where
  | exchange (transport : τ) (options : ο) (origin : Origin)
  | future (future : ℕ) (origin : Origin)

/-- `dnsWalkSuspension`. -/
inductive Suspension (τ ο : Type) where
  | await (future : ℕ)
  | drain
  | pending (pending : Pending τ ο)

inductive WalkError (ε : Type) where
  | context
  | missingResponse
  | drop
  | query (e : ε)

/-- `exchangeWithRulesResult`. -/
structure WalkResult (τ μ ε : Type) where
  response : Option μ := none
  transport : Option τ := none
  rejected : Option RejectMethod := none
  err : Option (WalkError ε) := none

/-- Where a call returns to: the walk, at its current rule, or the loop that resumes it. -/
inductive Caller (τ μ ο : Type) where
  | walk (rule : DNSRule τ μ ο)
  | resume (suspension : Suspension τ ο)

/-- The point the goroutine is at. -/
inductive PC (τ μ ο ε : Type) where
  | walk
  | settle (next : ℕ) (caller : Caller τ μ ο)
  | bindTags (rule : DNSRule τ μ ο) (tags : List τ) (pending : List ℕ)
  | bindAnonymous (rule : DNSRule τ μ ο) (pending : List ℕ)
  | awaitTags (rule : DNSRule τ μ ο) (tags : List τ)
  | awaitAnonymous (rule : DNSRule τ μ ο)
  | judge (rule : DNSRule τ μ ο)
  | respondWait (rule : DNSRule τ μ ο)
  | respond (rule : DNSRule τ μ ο)
  | sweep (index : ℕ) (caller : Caller τ μ ο)
  | ready (index : ℕ) (futures : List ℕ) (caller : Caller τ μ ο)
  | judgeArmed (armed : ArmedRule τ μ ο) (index : ℕ) (caller : Caller τ μ ο)
  | respondArmed (armed : ArmedRule τ μ ο)
  | resume (suspension : Suspension τ ο)
  | waiting (suspension : Suspension τ ο)
  | finish (pending : Pending τ ο)
  | waitFuture (future : ℕ) (origin : Origin)
  | exchanging (transport : τ) (origin : Origin)
  | returned (result : WalkResult τ μ ε) (origin : Origin) (speculative : Bool)

/-- A rule that was matched: what it was shown, and the queries it is bound to. -/
structure Judgement (τ μ ο : Type) where
  ruleIndex : ℕ
  rule : DNSRule τ μ ο
  armed : Bool
  response : Option μ
  named : τ → Option μ
  anonymous : Option ℕ
  bound : τ → Option ℕ
  matched : Bool

structure Query (τ ο : Type) where
  origin : Origin
  transport : τ
  options : ο
  speculative : Bool
  armed : List ℕ

structure State (τ μ ο ε : Type) where
  walk : Walk τ μ ο ε
  pc : PC τ μ ο ε := .walk
  contextDone : Bool := false
  judged : List (Judgement τ μ ο) := []
  queries : List (Query τ ο) := []

/-- The router and the query: the rules, how a rule matches the responses it is shown, the servers. -/
structure Env (τ μ ο : Type) where
  rules : List (DNSRule τ μ ο)
  matchRule : ℕ → Option μ → (τ → Option μ) → Bool
  loaded : τ → Bool
  isFakeIP : τ → Bool
  allowFakeIP : Bool
  disableCache : ο → ο
  defaultTransport : τ
  refusedResponse : μ

/-! ### Reading queries -/

def Walk.resolved (w : Walk τ μ ο ε) (f : ℕ) : Bool := w.futures[f]?.any Future.resolved

def Walk.view (w : Walk τ μ ο ε) (f : ℕ) : Option μ := w.futures[f]?.bind Future.view

def Walk.transportOf (w : Walk τ μ ο ε) (f : ℕ) : Option τ := w.futures[f]?.map Future.transport

def Walk.anonymousResponse (w : Walk τ μ ο ε) : Option μ := w.anonymousFuture.bind w.view

def DNSRule.hasBindings (rule : DNSRule τ μ ο) : Bool := !rule.matchResponseTags.isEmpty || rule.matchResponseAnonymous

/-! ### Changes of the state -/

def update {α β : Type} [DecidableEq α] (f : α → β) (a : α) (b : β) : α → β := fun a' => if a' = a then b else f a'

/-- A turn of the loop of `settleDNSFutures`. -/
def Walk.settle (w : Walk τ μ ο ε) (i : ℕ) (f : Future τ μ ε) : Walk τ μ ο ε :=
  if f.settled || !f.resolved then w
  else
    let w := { w with futures := w.futures.set i { f with settled := true } }
    match f.tag with
    | none => w
    | some tag =>
      { w with
        namedResponses := update w.namedResponses tag f.view
        namedTransports := update w.namedTransports tag (some f.transport) }

section Settle

variable (w : Walk τ μ ο ε) (i : ℕ) (f : Future τ μ ε)

lemma Walk.settle_other : (w.settle i f).ruleIndex = w.ruleIndex ∧ (w.settle i f).namedFutures = w.namedFutures ∧
      (w.settle i f).armedRules = w.armedRules ∧ (w.settle i f).anonymousFuture = w.anonymousFuture ∧
      (w.settle i f).terminalFuture = w.terminalFuture ∧ (w.settle i f).terminalIndex = w.terminalIndex := by
  unfold Walk.settle
  split
  · simp
  · cases f.tag <;> simp

end Settle

def Walk.cancelAll (w : Walk τ μ ο ε) : Walk τ μ ο ε :=
  { w with futures := w.futures.map fun f => { f with cancelled := true } }

/-- `finishPendingExchange` cancels the other queries. -/
def Walk.cancelOthers (w : Walk τ μ ο ε) (keep : Option ℕ) : Walk τ μ ο ε :=
  { w with futures := w.futures.mapIdx fun i f => if keep = some i then f else { f with cancelled := true } }

namespace State

variable (s : State τ μ ο ε)

def goto (pc : PC τ μ ο ε) : State τ μ ο ε := { s with pc := pc }

def next : State τ μ ο ε := { s with walk := { s.walk with ruleIndex := s.walk.ruleIndex + 1 }, pc := .walk }

/-- The walk returns a suspension to the loop that resumes it. -/
def suspend (suspension : Suspension τ ο) : State τ μ ο ε := s.goto (.settle 0 (.resume suspension))

/-- `exchangeWithRules` returns, and cancels what it launched. -/
def finish (result : WalkResult τ μ ε) (origin : Origin) (speculative : Bool) : State τ μ ο ε :=
  { s with walk := s.walk.cancelAll, pc := .returned result origin speculative }

def record (j : Judgement τ μ ο) : State τ μ ο ε := { s with judged := s.judged ++ [j] }

def armedIndices : List ℕ := s.walk.armedRules.map ArmedRule.ruleIndex

def send (origin : Origin) (transport : τ) (options : ο) (speculative : Bool) : State τ μ ο ε :=
  { s with queries := s.queries ++ [⟨origin, transport, options, speculative, s.armedIndices⟩] }

/-- `launchDNSEvaluate` for the current rule. -/
def launch (tag : Option τ) (transport : τ) (terminal : Bool) (options : ο) (speculative : Bool) : State τ μ ο ε :=
  let s := s.send (.rule s.walk.ruleIndex) transport options speculative
  { s with walk := { s.walk with
      futures := s.walk.futures ++ [{ tag := tag, transport := transport, terminal := terminal
                                      rule := s.walk.ruleIndex }] } }

end State

/-! ### Actions -/

inductive RouteStatus where
  | missing
  | skipped
  | resolved

def Env.resolveDNSRoute (env : Env τ μ ο) (server : τ) (options : RouteOptions ο) (queryOptions : ο) :
    RouteStatus × ο :=
  if !env.loaded server then (.missing, queryOptions)
  else if env.isFakeIP server && !env.allowFakeIP then (.skipped, queryOptions)
  else
    let queryOptions := options.apply queryOptions
    (.resolved, if env.isFakeIP server then env.disableCache queryOptions else queryOptions)

def missingResponse : WalkResult τ μ ε := { err := some .missingResponse }

/-- The result of responding with a response, if there is one. -/
def respondWith (response : Option μ) (transport : Option τ) : WalkResult τ μ ε :=
  match response with
  | none => missingResponse
  | some response => { response := some response, transport := transport }

def State.launchEvaluate (s : State τ μ ο ε) (server : τ) (tag : Option τ) (options : ο) (speculative : Bool) :
    State τ μ ο ε :=
  let future := s.walk.futures.length
  let s := s.launch tag server false options speculative
  match tag with
  | none => { s with walk := { s.walk with anonymousFuture := some future } }
  | some tag => { s with walk := { s.walk with namedFutures := update s.walk.namedFutures tag (some future) } }

def State.launchTerminal (s : State τ μ ο ε) (server : τ) (options : ο) : State τ μ ο ε :=
  let future := s.walk.futures.length
  let i := s.walk.ruleIndex
  let s := s.launch none server true options true
  { s with walk := { s.walk with terminalFuture := some future, terminalIndex := i } }

section Launch

variable (s : State τ μ ο ε) (server : τ) (tag : Option τ) (options : ο) (speculative : Bool)

@[simp]
lemma launchEvaluate_futures : (s.launchEvaluate server tag options speculative).walk.futures =
    s.walk.futures ++ [{ tag := tag, transport := server, rule := s.walk.ruleIndex }] := by
  cases tag <;> rfl

lemma launchEvaluate_namedFutures (tag' : τ) :
    (s.launchEvaluate server tag options speculative).walk.namedFutures tag' =
      if tag = some tag' then some s.walk.futures.length else s.walk.namedFutures tag' := by
  cases tag with
  | none => rfl
  | some tag => simp [State.launchEvaluate, State.launch, State.send, update, eq_comm]

@[simp]
lemma launchEvaluate_frame : (s.launchEvaluate server tag options speculative).walk.ruleIndex = s.walk.ruleIndex ∧
    (s.launchEvaluate server tag options speculative).walk.armedRules = s.walk.armedRules ∧
    (s.launchEvaluate server tag options speculative).walk.terminalFuture = s.walk.terminalFuture ∧
    (s.launchEvaluate server tag options speculative).walk.terminalIndex = s.walk.terminalIndex ∧
    (s.launchEvaluate server tag options speculative).judged = s.judged := by
  cases tag <;> exact ⟨rfl, rfl, rfl, rfl, rfl⟩

end Launch

def Env.evaluate (env : Env τ μ ο) (s : State τ μ ο ε) (server : τ) (tag : Option τ) (speculative : Bool)
    (options : RouteOptions ο) : State τ μ ο ε :=
  if !env.loaded server then
    (if tag.isNone then { s with walk := { s.walk with anonymousFuture := none } } else s).next
  else if !speculative && !s.walk.armedRules.isEmpty then s.suspend .drain
  else (s.launchEvaluate server tag (options.apply s.walk.effectiveOptions) speculative).next

def Env.route (env : Env τ μ ο) (s : State τ μ ο ε) (server : τ) (speculative : Bool) (options : RouteOptions ο) :
    State τ μ ο ε :=
  let i := s.walk.ruleIndex
  match env.resolveDNSRoute server options s.walk.effectiveOptions with
  | (.missing, _) => s.next
  | (.skipped, _) => s.next
  | (.resolved, queryOptions) =>
    if !s.walk.armedRules.isEmpty then
      (if speculative && s.walk.terminalFuture.isNone then s.launchTerminal server queryOptions else s).suspend .drain
    else match s.walk.terminalFuture with
      | some future =>
        if s.walk.terminalIndex = i then s.suspend (.pending (.future future (.rule i)))
        else s.suspend (.pending (.exchange server queryOptions (.rule i)))
      | none => s.suspend (.pending (.exchange server queryOptions (.rule i)))

def Env.act (env : Env τ μ ο) (s : State τ μ ο ε) (rule : DNSRule τ μ ο) : State τ μ ο ε :=
  let origin := Origin.rule s.walk.ruleIndex
  match rule.action.action with
  | .routeOptions options =>
    { s with walk := { s.walk with effectiveOptions := options.apply s.walk.effectiveOptions } }.next
  | .evaluate server tag speculative options => env.evaluate s server tag speculative options
  | .respond =>
    if !s.walk.armedRules.isEmpty then s.suspend .drain
    else match rule.matchResponseTag with
      | some tag => s.finish (respondWith (s.walk.namedResponses tag) (s.walk.namedTransports tag)) origin false
      | none => if rule.hasBindings then s.goto (.respond rule) else s.goto (.respondWait rule)
  | .route server speculative options => env.route s server speculative options
  | .reject method =>
    if !s.walk.armedRules.isEmpty then s.suspend .drain
    else match method with
      | .default => s.finish { response := some env.refusedResponse, rejected := some .default } origin false
      | .drop => s.finish { rejected := some .drop, err := some .drop } origin false
      | .reply => s.next
  | .predefined response =>
    if !s.walk.armedRules.isEmpty then s.suspend .drain
    else s.finish { response := some response } origin false

def State.commit (s : State τ μ ο ε) (pending : Pending τ ο) : Caller τ μ ο → State τ μ ο ε
  | .walk _ => { s with walk := { s.walk with armedRules := [] } }.suspend (.pending pending)
  | .resume _ => s.goto (.finish pending)

def Env.actArmed (env : Env τ μ ο) (s : State τ μ ο ε) (armed : ArmedRule τ μ ο) (index : ℕ)
    (caller : Caller τ μ ο) : State τ μ ο ε :=
  let origin := Origin.rule armed.ruleIndex
  match armed.rule.action.action with
  | .respond => s.goto (.respondArmed armed)
  | .route server _ options =>
    match env.resolveDNSRoute server options armed.options with
    | (.resolved, queryOptions) => s.commit (.exchange server queryOptions origin) caller
    | _ => s.goto (.sweep index caller)
  | .reject .default => s.finish { response := some env.refusedResponse, rejected := some .default } origin false
  | .reject .drop => s.finish { rejected := some .drop, err := some .drop } origin false
  | .predefined response => s.finish { response := some response } origin false
  | _ => s.goto (.sweep index caller)

/-! ### Steps of the goroutine -/

def Env.walkHead (env : Env τ μ ο) (s : State τ μ ο ε) : State τ μ ο ε :=
  match env.rules[s.walk.ruleIndex]? with
  | none =>
    if !s.walk.armedRules.isEmpty then s.suspend .drain
    else s.suspend (.pending (.exchange env.defaultTransport s.walk.effectiveOptions .defaultServer))
  | some rule => if rule.hasBindings then s.goto (.settle 0 (.walk rule)) else s.goto (.judge rule)

def State.settled (s : State τ μ ο ε) : Caller τ μ ο → State τ μ ο ε
  | .walk rule =>
    if rule.action.race then s.goto (.bindTags rule rule.matchResponseTags [])
    else s.goto (.awaitTags rule rule.matchResponseTags)
  | .resume suspension => s.goto (.sweep 0 (.resume suspension))

/-- The pending futures of a race rule, with one more read. -/
def Walk.addPending (w : Walk τ μ ο ε) (pending : List ℕ) : Option ℕ → List ℕ
  | none => pending
  | some f => if w.resolved f then pending else pending ++ [f]

def State.arm (s : State τ μ ο ε) (rule : DNSRule τ μ ο) (pending : List ℕ) : State τ μ ο ε :=
  let anonymousFuture := if rule.matchResponseAnonymous then s.walk.anonymousFuture else none
  let pending := s.walk.addPending pending anonymousFuture
  let armed : ArmedRule τ μ ο :=
    { ruleIndex := s.walk.ruleIndex
      rule := rule
      futures := pending
      anonymousFuture := anonymousFuture
      bindsAnonymous := rule.matchResponseAnonymous
      options := s.walk.effectiveOptions
      bound := s.walk.namedFutures }
  let s := { s with walk := { s.walk with armedRules := s.walk.armedRules ++ [armed] } }
  if pending.isEmpty then s.goto (.sweep 0 (.walk rule)) else s.next

def Env.judgement (env : Env τ μ ο) (s : State τ μ ο ε) (rule : DNSRule τ μ ο) : Judgement τ μ ο where
  ruleIndex := s.walk.ruleIndex
  rule := rule
  armed := false
  response := s.walk.anonymousResponse
  named := s.walk.namedResponses
  anonymous := s.walk.anonymousFuture
  bound := s.walk.namedFutures
  matched := env.matchRule s.walk.ruleIndex s.walk.anonymousResponse s.walk.namedResponses

def Env.judge (env : Env τ μ ο) (s : State τ μ ο ε) (rule : DNSRule τ μ ο) : State τ μ ο ε :=
  let j := env.judgement s rule
  if j.matched then env.act (s.record j) rule else (s.record j).next

/-- The response an armed rule is shown as the anonymous one. -/
def Walk.armedResponse (w : Walk τ μ ο ε) (armed : ArmedRule τ μ ο) : Option μ :=
  if armed.bindsAnonymous then armed.anonymousFuture.bind w.view else w.anonymousResponse

def Env.armedJudgement (env : Env τ μ ο) (s : State τ μ ο ε) (armed : ArmedRule τ μ ο) : Judgement τ μ ο where
  ruleIndex := armed.ruleIndex
  rule := armed.rule
  armed := true
  response := s.walk.armedResponse armed
  named := s.walk.namedResponses
  anonymous := armed.anonymousFuture
  bound := armed.bound
  matched := env.matchRule armed.ruleIndex (s.walk.armedResponse armed) s.walk.namedResponses

def Env.judgeArmed (env : Env τ μ ο) (s : State τ μ ο ε) (armed : ArmedRule τ μ ο) (index : ℕ)
    (caller : Caller τ μ ο) : State τ μ ο ε :=
  let j := env.armedJudgement s armed
  if j.matched then env.actArmed (s.record j) armed index caller else (s.record j).goto (.sweep index caller)

def Walk.respondArmed (w : Walk τ μ ο ε) (armed : ArmedRule τ μ ο) : WalkResult τ μ ε :=
  match armed.rule.matchResponseTag with
  | some tag => respondWith (w.namedResponses tag) (w.namedTransports tag)
  | none =>
    match armed.anonymousFuture with
    | some f => respondWith (w.view f) (w.transportOf f)
    | none => respondWith w.anonymousResponse (w.anonymousFuture.bind w.transportOf)

/-- The sweep ends without a commitment. -/
def State.swept (s : State τ μ ο ε) : Caller τ μ ο → State τ μ ο ε
  | .walk _ => s.next
  | .resume suspension => s.goto (.resume suspension)

/-- After the sweep in the loop of `resumeExchangeWithRules`. -/
def State.resumed (s : State τ μ ο ε) (suspension : Suspension τ ο) : State τ μ ο ε :=
  match suspension with
  | .pending pending => s.goto (.finish pending)
  | .await f => if s.walk.resolved f then s.goto .walk else s.goto (.waiting suspension)
  | .drain => if s.walk.armedRules.isEmpty then s.goto .walk else s.goto (.waiting suspension)

def State.finishPending (s : State τ μ ο ε) : Pending τ ο → State τ μ ο ε
  | .exchange transport options origin =>
    ({ s with walk := s.walk.cancelOthers none }.send origin transport options false).goto
      (.exchanging transport origin)
  | .future f origin => { s with walk := s.walk.cancelOthers (some f) }.goto (.waitFuture f origin)

def outcomeResult (transport : Option τ) : Except ε μ → WalkResult τ μ ε
  | .ok m => { response := some m, transport := transport }
  | .error e => { transport := transport, err := some (.query e) }

/-- One step of the goroutine; `none` if it waits. -/
def Env.tick (env : Env τ μ ο) (s : State τ μ ο ε) : Option (State τ μ ο ε) :=
  match s.pc with
  | .walk => some (env.walkHead s)
  | .settle i caller =>
    match s.walk.futures[i]? with
    | none => some (s.settled caller)
    | some f => some { s with walk := s.walk.settle i f, pc := .settle (i + 1) caller }
  | .bindTags rule [] pending => some (s.goto (.bindAnonymous rule pending))
  | .bindTags rule (tag :: tags) pending =>
    some (s.goto (.bindTags rule tags (s.walk.addPending pending (s.walk.namedFutures tag))))
  | .bindAnonymous rule pending => some (s.arm rule pending)
  | .awaitTags rule [] => some (s.goto (.awaitAnonymous rule))
  | .awaitTags rule (tag :: tags) =>
    match s.walk.namedFutures tag with
    | some f => if s.walk.resolved f then some (s.goto (.awaitTags rule tags)) else some (s.suspend (.await f))
    | none => some (s.goto (.awaitTags rule tags))
  | .awaitAnonymous rule =>
    match (if rule.matchResponseAnonymous then s.walk.anonymousFuture else none) with
    | some f => if s.walk.resolved f then some (s.goto (.judge rule)) else some (s.suspend (.await f))
    | none => some (s.goto (.judge rule))
  | .judge rule => some (env.judge s rule)
  | .respondWait rule =>
    match s.walk.anonymousFuture with
    | some f => if s.walk.resolved f then some (s.goto (.respond rule)) else some (s.suspend (.await f))
    | none => some (s.goto (.respond rule))
  | .respond _ =>
    some (s.finish (respondWith s.walk.anonymousResponse (s.walk.anonymousFuture.bind s.walk.transportOf))
      (.rule s.walk.ruleIndex) false)
  | .sweep index caller =>
    match s.walk.armedRules[index]? with
    | none => some (s.swept caller)
    | some armed => some (s.goto (.ready index armed.futures caller))
  | .ready index (f :: futures) caller =>
    if s.walk.resolved f then some (s.goto (.ready index futures caller))
    else some (s.goto (.sweep (index + 1) caller))
  | .ready index [] caller =>
    match s.walk.armedRules[index]? with
    | none => none
    | some armed =>
      some ({ s with walk := { s.walk with armedRules := s.walk.armedRules.eraseIdx index } }.goto
        (.judgeArmed armed index caller))
  | .judgeArmed armed index caller => some (env.judgeArmed s armed index caller)
  | .respondArmed armed => some (s.finish (s.walk.respondArmed armed) (.rule armed.ruleIndex) false)
  | .resume suspension => some (s.resumed suspension)
  | .waiting suspension =>
    if s.walk.wake then
      some ({ s with walk := { s.walk with wake := false } }.goto (.settle 0 (.resume suspension)))
    else none
  | .finish pending => some (s.finishPending pending)
  | .waitFuture f origin =>
    match s.walk.futures[f]?.bind Future.outcome with
    | some outcome => some (s.finish (outcomeResult (s.walk.transportOf f) outcome) origin true)
    | none => none
  | .exchanging _ _ => none
  | .returned _ _ _ => none

inductive WalkEvent (μ ε : Type) where
  | tick
  /-- It waits in a `select`, and takes the branch of the context. -/
  | giveUp
  /-- A query completes: its callback runs. -/
  | complete (future : ℕ) (outcome : Except ε μ)
  /-- The query that is sent at the end returns. -/
  | reply (outcome : Except ε μ)
  | cancelContext
  /-- `exchangeWithRulesAsync` sends the query its walk ends with at once, without a sweep. -/
  | direct

def Walk.complete (w : Walk τ μ ο ε) (i : ℕ) (f : Future τ μ ε) (outcome : Except ε μ) : Walk τ μ ο ε :=
  { w with futures := w.futures.set i { f with outcome := some outcome }, wake := true }

def Env.step (env : Env τ μ ο) (s : State τ μ ο ε) : WalkEvent μ ε → Option (State τ μ ο ε)
  | .tick => env.tick s
  | .giveUp =>
    if !s.contextDone then none
    else match s.pc with
      | .waiting _ => some (s.finish { err := some .context } .nobody false)
      | .waitFuture _ _ => some (s.finish { err := some .context } .nobody false)
      | _ => none
  | .complete i outcome =>
    match s.walk.futures[i]? with
    | none => none
    | some f => if f.resolved then none else some { s with walk := s.walk.complete i f outcome }
  | .reply outcome =>
    match s.pc with
    | .exchanging transport origin => some (s.finish (outcomeResult (some transport) outcome) origin false)
    | _ => none
  | .cancelContext => some { s with contextDone := true }
  | .direct =>
    match s.pc with
    | .settle 0 (.resume (.pending (.exchange transport options origin))) =>
      some (s.goto (.finish (.exchange transport options origin)))
    | _ => none

def State.init (options : ο) : State τ μ ο ε := { walk := { effectiveOptions := options } }

end SingBox.Dns
