import Swarm.Domain.Spend
import Swarm.Gateway.Rules

namespace Swarm

def CompletionResponse.spend (response : CompletionResponse) : Spend :=
  (response.tokensIn, response.tokensOut, response.costUsd)

def Usage.spend (usage : Usage) : Spend := (usage.tokensIn, usage.tokensOut, usage.costUsd)

/-- The turn of one provider within a completion: its place among the candidates, the
attempt at it, and the candidates after it. -/
structure Turn where
  provider : Provider
  index : Nat
  attempt : Nat
  rest : List Provider

/-- Where a call of `Gateway::complete` stands: each point is its next await, or what
it has come to. Other calls go on between two points. -/
inductive CompletePoint where
  | asked
  | admitting (turn : Turn)
  | calling (turn : Turn)
  | sleeping (turn : Turn)
  | hit (response : CompletionResponse)
  | served (response : CompletionResponse)
  | refused (err : SwarmError)

namespace CompletePoint

def answer : CompletePoint → Option (Except SwarmError CompletionResponse)
  | hit response => some (.ok { response with cached := true })
  | served response => some (.ok response)
  | refused err => some (.error err)
  | _ => none

/-- The response a provider was paid for. -/
def paid : CompletePoint → Option CompletionResponse
  | served response => some response
  | _ => none

def spend (point : CompletePoint) : Spend := point.paid.elim 0 CompletionResponse.spend

end CompletePoint

namespace Gateway
variable {κ : Type}

def count (g : Gateway κ) (change : Usage → Usage) : Gateway κ := { g with usage := change g.usage }

/-- The loop over the candidates, up to the first whose breaker lets a call through. -/
def nextTurn (now : Nat) : List Provider → Nat → Option SwarmError → Gateway κ → Gateway κ × CompletePoint
  | [], _, lastError, g =>
    (g, .refused (lastError.getD (.provider "gateway" "no provider was able to serve the request")))
  | provider :: rest, index, _, g =>
    match g.circuitIsOpen provider.name now with
    | (true, g) =>
      nextTurn now rest (index + 1) (some (.circuitOpen provider.name))
        (g.count (fun usage => { usage with circuitRejections := usage.circuitRejections + 1 }))
    | (false, g) =>
      (if 0 < index then g.count (fun usage => { usage with fallbacks := usage.fallbacks + 1 }) else g,
        .admitting ⟨provider, index, 1, rest⟩)

theorem nextTurn_spend (now : Nat) (providers : List Provider) (index : Nat) (lastError : Option SwarmError)
    (g : Gateway κ) : (nextTurn now providers index lastError g).1.usage.spend = g.usage.spend ∧
      (nextTurn now providers index lastError g).2.paid = none := by
  induction providers generalizing index lastError g with
  | nil => exact ⟨rfl, rfl⟩
  | cons provider rest ih =>
    have usage := g.circuitIsOpen_usage provider.name now
    unfold nextTurn
    generalize g.circuitIsOpen provider.name now = look at usage ⊢
    obtain ⟨isOpen, g'⟩ := look
    cases isOpen with
    | true =>
      obtain ⟨same, unpaid⟩ := ih (index + 1) (some (.circuitOpen provider.name))
        (g'.count (fun usage => { usage with circuitRejections := usage.circuitRejections + 1 }))
      refine ⟨same.trans ?_, unpaid⟩
      rw [← usage]
      rfl
    | false =>
      refine ⟨?_, rfl⟩
      rw [← usage]
      simp only
      split <;> rfl

variable [DecidableEq κ]

/-- What `complete` does before it turns to a provider. -/
def check (request : CompletionRequest) (key : κ) (now : Nat) (g : Gateway κ) : Gateway κ × CompletePoint :=
  if g.providers.isEmpty then (g, .refused (.config "gateway has no providers"))
  else
    match g.lookup request key with
    | some hit => (g.count (fun usage => { usage with cacheHits := usage.cacheHits + 1 }), .hit hit)
    | none =>
      match g.refusal with
      | some err => (g, .refused err)
      | none =>
        let candidates := g.providers.filter (fun provider => provider.supportsModel request.model)
        if candidates.isEmpty then (g, .refused (.config s!"no provider serves model `{request.model}`"))
        else nextTurn now candidates 0 none g

/-- One await of `complete`: the time at which it is over, and what a provider answers
if it was one that was called. -/
def poll (request : CompletionRequest) (key : κ) (now : Nat) (reply : Except SwarmError CompletionResponse)
    (g : Gateway κ) : CompletePoint → Gateway κ × CompletePoint
  | .asked => g.check request key now
  | .admitting turn => (g.count (fun usage => { usage with requests := usage.requests + 1 }), .calling turn)
  | .calling turn =>
    match reply with
    | .ok response => (g.recordSuccess turn.provider.name response key, .served response)
    | .error err =>
      let g := g.recordFailure turn.provider.name now
      if g.config.maxAttempts ≤ turn.attempt ∨ err.isRetryable = false then
        nextTurn now turn.rest (turn.index + 1) (some err) g
      else (g, .sleeping { turn with attempt := turn.attempt + 1 })
  | .sleeping turn => (g, .admitting turn)
  | .hit response => (g, .hit response)
  | .served response => (g, .served response)
  | .refused err => (g, .refused err)

theorem check_spend (request : CompletionRequest) (key : κ) (now : Nat) (g : Gateway κ) :
    (g.check request key now).1.usage.spend = g.usage.spend ∧ (g.check request key now).2.paid = none := by
  unfold check
  split
  · exact ⟨rfl, rfl⟩
  · split
    · exact ⟨rfl, rfl⟩
    · split
      · exact ⟨rfl, rfl⟩
      · simp only
        split
        · exact ⟨rfl, rfl⟩
        · exact nextTurn_spend _ _ _ _ _

/-- What the gateway bills is what a call has been served with. -/
theorem poll_spend (request : CompletionRequest) (key : κ) (now : Nat) (reply : Except SwarmError CompletionResponse)
    (g : Gateway κ) (point : CompletePoint) :
    (g.poll request key now reply point).1.usage.spend + point.spend =
      g.usage.spend + (g.poll request key now reply point).2.spend := by
  have unpaid : ∀ after : Gateway κ × CompletePoint, after.1.usage.spend = g.usage.spend ∧ after.2.paid = none →
      after.1.usage.spend + 0 = g.usage.spend + after.2.spend := by
    rintro after ⟨same, none⟩
    rw [same, CompletePoint.spend, none]
    rfl
  cases point with
  | asked => exact unpaid _ (g.check_spend request key now)
  | admitting turn => rfl
  | calling turn =>
    cases reply with
    | ok response =>
      obtain ⟨breakers, run, _⟩ := g.recordSuccess_eq turn.provider.name response key
      simp only [poll, run]
      generalize paying : ({ g with breakers := breakers, usage := _ } : Gateway κ) = g'
      obtain ⟨cache, order, kept⟩ := g'.store_eq response key
      rw [kept, ← paying]
      exact add_zero _
    | error err =>
      obtain ⟨breakers, run, _⟩ := g.recordFailure_eq turn.provider.name now
      have failed : (g.recordFailure turn.provider.name now).usage.spend = g.usage.spend := by
        rw [run]
        rfl
      refine unpaid _ ?_
      unfold poll
      simp only
      split
      · obtain ⟨same, none⟩ := nextTurn_spend now turn.rest (turn.index + 1) (some err)
          (g.recordFailure turn.provider.name now)
        exact ⟨same.trans failed, none⟩
      · exact ⟨failed, rfl⟩
  | sleeping turn => rfl
  | hit response => rfl
  | served response => rfl
  | refused err => rfl

/-- The awaits of a call between which nothing else happens. -/
def polls (request : CompletionRequest) (key : κ) (inputs : List (Nat × Except SwarmError CompletionResponse))
    (start : Gateway κ × CompletePoint) : Gateway κ × CompletePoint :=
  inputs.foldl (fun state input => state.1.poll request key input.1 input.2 state.2) start

theorem polls_append (request : CompletionRequest) (key : κ)
    (first second : List (Nat × Except SwarmError CompletionResponse)) (start : Gateway κ × CompletePoint) :
    polls request key (first ++ second) start = polls request key second (polls request key first start) :=
  List.foldl_append

end Gateway

namespace Session
variable {κ : Type} {world : Nat → Reply} {request : CompletionRequest}

/-- A failed call leaves the limits as they are. -/
theorem failed_config (world : Nat → Reply) (request : CompletionRequest) (provider : Provider) (s : Session κ) :
    ((callOnce world provider request s).2.recordFailure provider.name).gateway.config = s.gateway.config := by
  obtain ⟨breakers, run, _⟩ := (callOnce world provider request s).2.gateway.recordFailure_eq provider.name
    (callOnce world provider request s).2.now
  unfold recordFailure
  rw [run]
  rfl

variable [DecidableEq κ] {key : κ}

/-- Where a call stands after the turn of a provider. -/
def afterTurn (key : κ) (provider : Provider) (index : Nat) (rest : List Provider) :
    Except SwarmError CompletionResponse × Session κ → Gateway κ × CompletePoint
  | (.ok response, s) => (s.gateway.recordSuccess provider.name response key, .served response)
  | (.error err, s) => Gateway.nextTurn s.now rest (index + 1) (some err) s.gateway

/-- A call to a provider is an await for a permit and one for the answer. -/
def callInputs (world : Nat → Reply) (request : CompletionRequest) (provider : Provider) (s : Session κ) :
    List (Nat × Except SwarmError CompletionResponse) :=
  [(0, (world s.calls.length).answer), ((callOnce world provider request s).2.now, (world s.calls.length).answer)]

theorem call_ok {turn : Turn} {s : Session κ} {response : CompletionResponse}
    (answer : (world s.calls.length).answer = .ok response) :
    Gateway.polls request key (callInputs world request turn.provider s) (s.gateway, .admitting turn) =
      ((callOnce world turn.provider request s).2.gateway.recordSuccess turn.provider.name response key,
        .served response) := by
  unfold callInputs
  rw [answer]
  rfl

theorem call_last {turn : Turn} {s : Session κ} {err : SwarmError}
    (answer : (world s.calls.length).answer = .error err)
    (stops : s.gateway.config.maxAttempts ≤ turn.attempt ∨ err.isRetryable = false) :
    Gateway.polls request key (callInputs world request turn.provider s) (s.gateway, .admitting turn) =
      Gateway.nextTurn (callOnce world turn.provider request s).2.now turn.rest (turn.index + 1) (some err)
        ((callOnce world turn.provider request s).2.recordFailure turn.provider.name).gateway := by
  unfold callInputs
  rw [answer]
  refine if_pos ?_
  rw [← failed_config world request turn.provider s] at stops
  exact stops

theorem call_again {turn : Turn} {s : Session κ} {err : SwarmError}
    (answer : (world s.calls.length).answer = .error err) (more : turn.attempt < s.gateway.config.maxAttempts)
    (retry : err.isRetryable = true) :
    Gateway.polls request key (callInputs world request turn.provider s ++ [(0, .error err)])
        (s.gateway, .admitting turn) =
      (((callOnce world turn.provider request s).2.recordFailure turn.provider.name).gateway,
        .admitting { turn with attempt := turn.attempt + 1 }) := by
  have sleeps : Gateway.polls request key (callInputs world request turn.provider s) (s.gateway, .admitting turn) =
      (((callOnce world turn.provider request s).2.recordFailure turn.provider.name).gateway,
        .sleeping { turn with attempt := turn.attempt + 1 }) := by
    unfold callInputs
    rw [answer]
    refine if_neg ?_
    change ¬ (((callOnce world turn.provider request s).2.recordFailure
      turn.provider.name).gateway.config.maxAttempts ≤
      turn.attempt ∨ err.isRetryable = false)
    rw [failed_config, retry]
    rintro (spent | never)
    · omega
    · cases never
  rw [Gateway.polls_append, sleeps]
  rfl

/-- The attempts at one provider, one await after another. -/
theorem attempts_polls (world : Nat → Reply) (request : CompletionRequest) (key : κ) {turn : Turn} {left : Nat}
    {s : Session κ} (limit : left = s.gateway.config.maxAttempts - turn.attempt) : ∃ inputs,
      Gateway.polls request key inputs (s.gateway, .admitting turn) =
        afterTurn key turn.provider turn.index turn.rest
          (attempts world turn.provider request left turn.attempt s) := by
  induction left generalizing turn s with
  | zero =>
    refine ⟨callInputs world request turn.provider s, ?_⟩
    cases answer : (world s.calls.length).answer with
    | ok response => rw [attempts_ok answer, call_ok answer, afterTurn]
    | error err =>
      rw [attempts_error answer, if_neg (fun retry => Nat.lt_irrefl 0 retry.1), call_last answer (Or.inl (by omega)),
        afterTurn]
      rfl
  | succ left ih =>
    cases answer : (world s.calls.length).answer with
    | ok response =>
      refine ⟨callInputs world request turn.provider s, ?_⟩
      rw [attempts_ok answer, call_ok answer, afterTurn]
    | error err =>
      rw [attempts_error answer]
      split
      · rename_i retry
        have config := failed_config world request turn.provider s
        generalize failed : (callOnce world turn.provider request s).2.recordFailure turn.provider.name =
          s' at config ⊢
        have fewer : left = s'.gateway.config.maxAttempts - (turn.attempt + 1) := by
          rw [config]
          omega
        obtain ⟨inputs, run⟩ := @ih { turn with attempt := turn.attempt + 1 }
          (s'.wait (s'.gateway.config.backoff turn.attempt)) fewer
        refine ⟨callInputs world request turn.provider s ++ [(0, .error err)] ++ inputs, ?_⟩
        rw [Gateway.polls_append, call_again answer (by omega) retry.2, failed]
        exact run
      · rename_i last
        refine ⟨callInputs world request turn.provider s, ?_⟩
        rw [call_last answer (Or.inr (by simpa using last)), afterTurn]
        rfl

/-- The turns of the providers, one await after another. -/
theorem tryProviders_polls (world : Nat → Reply) (request : CompletionRequest) (key : κ) (providers : List Provider)
    (index : Nat) (lastError : Option SwarmError) (s : Session κ) :
    ∃ inputs, (Gateway.polls request key inputs (Gateway.nextTurn s.now providers index lastError s.gateway)).1 =
        (tryProviders world request key providers index lastError s).2.gateway ∧
      (Gateway.polls request key inputs (Gateway.nextTurn s.now providers index lastError s.gateway)).2.answer =
        some (tryProviders world request key providers index lastError s).1 := by
  induction providers generalizing index lastError s with
  | nil => exact ⟨[], rfl, rfl⟩
  | cons provider rest ih =>
    unfold Gateway.nextTurn tryProviders tryProvider circuitIsOpen
    generalize s.gateway.circuitIsOpen provider.name s.now = look
    obtain ⟨isOpen, gateway⟩ := look
    cases isOpen with
    | true =>
      exact ih (index + 1) (some (.circuitOpen provider.name)) (({ s with gateway := gateway } : Session κ).count
        (fun usage => { usage with circuitRejections := usage.circuitRejections + 1 }))
    | false =>
      simp only
      generalize turned : (if 0 < index then ({ s with gateway := gateway } : Session κ).count
        (fun usage => { usage with fallbacks := usage.fallbacks + 1 }) else { s with gateway := gateway }) = s'
      have same : (if 0 < index then gateway.count (fun usage => { usage with fallbacks := usage.fallbacks + 1 })
          else gateway) = s'.gateway := by
        rw [← turned]
        split <;> rfl
      rw [same]
      obtain ⟨inputs, run⟩ := @attempts_polls κ _ world request key ⟨provider, index, 1, rest⟩ _ s' rfl
      unfold callWithRetries
      simp only at run
      generalize attempts world provider request (s'.gateway.config.maxAttempts - 1) 1 s' = result at run ⊢
      obtain ⟨answer, s''⟩ := result
      cases answer with
      | ok response => exact ⟨inputs, by rw [run]; rfl, by rw [run]; rfl⟩
      | error err =>
        obtain ⟨more, gateway', answer'⟩ := ih (index + 1) (some err) s''
        refine ⟨inputs ++ more, ?_, ?_⟩
        · rw [Gateway.polls_append, run]
          exact gateway'
        · rw [Gateway.polls_append, run]
          exact answer'

/-- The two ways to begin a completion take the same branch. -/
theorem check_complete (world : Nat → Reply) (request : CompletionRequest) (digest : List UInt8 → κ) (s : Session κ) :
    (∃ err, s.gateway.check request (digest request.cacheBytes) s.now = (s.gateway, .refused err) ∧
      complete world digest request s = (.error err, s)) ∨
    (∃ hit, s.gateway.check request (digest request.cacheBytes) s.now =
        (s.gateway.count (fun usage => { usage with cacheHits := usage.cacheHits + 1 }), .hit hit) ∧
      complete world digest request s = (.ok { hit with cached := true },
        s.count (fun usage => { usage with cacheHits := usage.cacheHits + 1 }))) ∨
    ∃ providers, s.gateway.check request (digest request.cacheBytes) s.now =
        Gateway.nextTurn s.now providers 0 none s.gateway ∧
      complete world digest request s =
        tryProviders world request (digest request.cacheBytes) providers 0 none s := by
  unfold complete Gateway.check
  by_cases empty : s.gateway.providers.isEmpty = true
  · rw [if_pos empty, if_pos empty]
    exact Or.inl ⟨_, rfl, rfl⟩
  rw [if_neg empty, if_neg empty]
  cases kept : s.gateway.lookup request (digest request.cacheBytes) with
  | some hit =>
    simp only [kept]
    exact Or.inr (Or.inl ⟨hit, rfl, rfl⟩)
  | none =>
    cases refused : s.gateway.refusal with
    | some err =>
      simp only [kept]
      exact Or.inl ⟨err, rfl, rfl⟩
    | none =>
      simp only [kept]
      split
      · exact Or.inl ⟨_, rfl, rfl⟩
      · exact Or.inr (Or.inr ⟨_, rfl, rfl⟩)

/-- A call between whose awaits nothing else happens is `complete`. -/
theorem complete_polls (world : Nat → Reply) (request : CompletionRequest) (digest : List UInt8 → κ) (s : Session κ) :
    ∃ inputs,
    (Gateway.polls request (digest request.cacheBytes) inputs (s.gateway, .asked)).1 =
        (complete world digest request s).2.gateway ∧
      (Gateway.polls request (digest request.cacheBytes) inputs (s.gateway, .asked)).2.answer =
        some (complete world digest request s).1 := by
  have checked : Gateway.polls request (digest request.cacheBytes) [(s.now, (world s.calls.length).answer)]
      (s.gateway, .asked) = s.gateway.check request (digest request.cacheBytes) s.now := rfl
  rcases check_complete world request digest s with
    ⟨err, check, run⟩ | ⟨hit, check, run⟩ | ⟨providers, check, run⟩
  · exact ⟨_, by rw [checked, check, run], by rw [checked, check, run]; rfl⟩
  · exact ⟨_, by rw [checked, check, run]; rfl, by rw [checked, check, run]; rfl⟩
  · obtain ⟨inputs, gateway, answer⟩ :=
      tryProviders_polls world request (digest request.cacheBytes) providers 0 none s
    refine ⟨[(s.now, (world s.calls.length).answer)] ++ inputs, ?_, ?_⟩ <;>
      rw [Gateway.polls_append, checked, check, run]
    · exact gateway
    · exact answer

end Session

end Swarm
