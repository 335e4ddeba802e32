import Swarm.Gateway.Rules

namespace Swarm

abbrev Answer := Except SwarmError CompletionResponse

/-- The failures that are worth another try. -/
def mayRetry : Answer → Bool
  | .ok _ => false
  | .error err => err.isRetryable

/-- How many of the answers from the n-th on lead to another call, of at most `limit` calls. -/
def repeats (script : Nat → Answer) (limit n : Nat) : Nat :=
  ((List.range (limit - 1)).find? (fun i => !mayRetry (script (n + i)))).getD (limit - 1)

/-- What the calls to one provider from the n-th call on are answered. -/
def answersOf (script : Nat → Answer) (limit : Nat) (provider : String) (n : Nat) : List (String × Answer) :=
  (List.range (repeats script limit n + 1)).map (fun i => (provider, script (n + i)))

/-- The reference for a completion: the calls with their answers, and the answer to the request. Each
provider comes with whether its breaker is open. -/
def failover (script : Nat → Answer) (limit : Nat) :
    List (Provider × Bool) → Nat → SwarmError → List (String × Answer) × Answer
  | [], _, lastError => ([], .error lastError)
  | (provider, true) :: rest, n, _ => failover script limit rest n (.circuitOpen provider.name)
  | (provider, false) :: rest, n, _ =>
    let own := answersOf script limit provider.name n
    match script (n + repeats script limit n) with
    | .ok response => (own, .ok response)
    | .error err =>
      let later := failover script limit rest (n + own.length) err
      (own ++ later.1, later.2)

theorem repeats_stop {script : Nat → Answer} {limit n : Nat} (stops : mayRetry (script n) = false ∨ limit ≤ 1) :
    repeats script limit n = 0 := by
  unfold repeats
  rcases Nat.lt_or_ge 1 limit with more | last
  · have stop : mayRetry (script n) = false := stops.resolve_right (Nat.not_le_of_lt more)
    obtain ⟨left, rfl⟩ : ∃ left, limit = left + 2 := ⟨limit - 2, by omega⟩
    rw [show left + 2 - 1 = left + 1 from rfl, List.range_succ_eq_map, List.find?_cons_of_pos (by simp [stop])]
    rfl
  · rw [show limit - 1 = 0 by omega]
    rfl

theorem repeats_again {script : Nat → Answer} {left n : Nat} (again : mayRetry (script n) = true) :
    repeats script (left + 2) n = repeats script (left + 1) (n + 1) + 1 := by
  have shifted : ∀ range : List Nat, (range.map Nat.succ).find? (fun i => !mayRetry (script (n + i))) =
      (range.find? (fun i => !mayRetry (script (n + 1 + i)))).map Nat.succ := by
    intro range
    rw [List.find?_map]
    congr 2
    funext i
    simp only [Function.comp_apply, Nat.succ_eq_add_one, Nat.add_assoc, Nat.add_comm 1 i]
  unfold repeats
  rw [show left + 2 - 1 = left + 1 from rfl, show left + 1 - 1 = left from rfl, List.range_succ_eq_map,
    List.find?_cons_of_neg (by simp [again]), shifted]
  cases (List.range left).find? (fun i => !mayRetry (script (n + 1 + i))) <;> rfl

theorem answersOf_again {script : Nat → Answer} {left n : Nat} (provider : String)
    (again : mayRetry (script n) = true) :
    answersOf script (left + 2) provider n =
      (provider, script n) :: answersOf script (left + 1) provider (n + 1) := by
  unfold answersOf
  rw [repeats_again again, List.range_succ_eq_map, List.map_cons, List.map_map]
  congr 2
  funext i
  simp only [Function.comp_apply, Nat.succ_eq_add_one, Nat.add_assoc, Nat.add_comm 1 i]

theorem answersOf_stop {script : Nat → Answer} {limit n : Nat} (provider : String)
    (stops : mayRetry (script n) = false ∨ limit ≤ 1) :
    answersOf script limit provider n = [(provider, script n)] := by
  unfold answersOf
  rw [repeats_stop stops]
  rfl

def isFailure : Answer → Bool
  | .ok _ => false
  | .error _ => true

/-- A figure of the response that is paid for, if there is one. -/
def billed {α : Type} [Zero α] (figure : CompletionResponse → α) : Option CompletionResponse → α
  | none => 0
  | some response => figure response

namespace Session
variable {κ : Type} {world : Nat → Reply} {request : CompletionRequest}

/-- Calls with the given answers went out, and `paid` was paid for. -/
structure Served (request : CompletionRequest) (s s' : Session κ) (answers : List (String × Answer))
    (paid : Option CompletionResponse) : Prop where
  calls : ∃ calls, s'.calls = s.calls ++ calls ∧ (∀ call ∈ calls, call.request = request) ∧
    calls.map (fun call => (call.provider, call.outcome)) =
      answers.map (fun answer => (answer.1, CallOutcome.ofAnswer answer.2))
  config : s'.gateway.config = s.gateway.config
  requests : s'.gateway.usage.requests = s.gateway.usage.requests + answers.length
  failures : s'.gateway.usage.failures = s.gateway.usage.failures + answers.countP (fun answer => isFailure answer.2)
  tokensIn : s'.gateway.usage.tokensIn = s.gateway.usage.tokensIn + billed CompletionResponse.tokensIn paid
  tokensOut : s'.gateway.usage.tokensOut = s.gateway.usage.tokensOut + billed CompletionResponse.tokensOut paid
  costUsd : s'.gateway.usage.costUsd = s.gateway.usage.costUsd + billed CompletionResponse.costUsd paid

/-- No call went out and nothing was counted or paid for. -/
theorem Served.quiet {s s' : Session κ} (calls : s'.calls = s.calls) (config : s'.gateway.config = s.gateway.config)
    (requests : s'.gateway.usage.requests = s.gateway.usage.requests)
    (failures : s'.gateway.usage.failures = s.gateway.usage.failures)
    (tokensIn : s'.gateway.usage.tokensIn = s.gateway.usage.tokensIn)
    (tokensOut : s'.gateway.usage.tokensOut = s.gateway.usage.tokensOut)
    (costUsd : s'.gateway.usage.costUsd = s.gateway.usage.costUsd) : Served request s s' [] none :=
  ⟨⟨[], by rw [calls, List.append_nil], by simp, rfl⟩, config, requests, failures, tokensIn, tokensOut,
    by rw [costUsd, billed, Rat.add_zero]⟩

theorem Served.refl (s : Session κ) : Served request s s [] none := .quiet rfl rfl rfl rfl rfl rfl rfl

theorem Served.trans {s s' s'' : Session κ} {first second : List (String × Answer)} {paid : Option CompletionResponse}
    (earlier : Served request s s' first none) (later : Served request s' s'' second paid) :
    Served request s s'' (first ++ second) paid := by
  obtain ⟨before, appended, asked, outcomes⟩ := earlier.calls
  obtain ⟨after, appended', asked', outcomes'⟩ := later.calls
  refine ⟨⟨before ++ after, ?_, ?_, ?_⟩, later.config.trans earlier.config, ?_, ?_, ?_, ?_, ?_⟩
  · rw [appended', appended, List.append_assoc]
  · intro call member
    exact (List.mem_append.mp member).elim (asked call) (asked' call)
  · rw [List.map_append, List.map_append, outcomes, outcomes']
  · rw [later.requests, earlier.requests, List.length_append, Nat.add_assoc]
  · rw [later.failures, earlier.failures, List.countP_append, Nat.add_assoc]
  · rw [later.tokensIn, earlier.tokensIn]
    rfl
  · rw [later.tokensOut, earlier.tokensOut]
    rfl
  · rw [later.costUsd, earlier.costUsd, billed, Rat.add_zero]

theorem Served.length {s s' : Session κ} {answers : List (String × Answer)} {paid : Option CompletionResponse}
    (served : Served request s s' answers paid) : s'.calls.length = s.calls.length + answers.length := by
  obtain ⟨calls, appended, _, outcomes⟩ := served.calls
  have same := congrArg List.length outcomes
  rw [List.length_map, List.length_map] at same
  rw [appended, List.length_append, same]

/-- A call that is answered with a response. -/
theorem callOnce_served (provider : Provider) {s : Session κ} {response : CompletionResponse}
    (answer : (world s.calls.length).answer = .ok response) :
    Served request s (callOnce world provider request s).2 [(provider.name, .ok response)] none := by
  refine ⟨⟨_, callOnce_calls world request provider s, ?_, ?_⟩, rfl, rfl, rfl, rfl, rfl, (Rat.add_zero _).symm⟩
  · intro call member
    rw [List.mem_singleton.mp member]
  · rw [answer]
    rfl

/-- A call that fails. -/
theorem callOnce_failed (provider : Provider) {s : Session κ} {err : SwarmError}
    (answer : (world s.calls.length).answer = .error err) :
    Served request s ((callOnce world provider request s).2.recordFailure provider.name)
      [(provider.name, .error err)] none := by
  obtain ⟨breakers, recorded, -, -⟩ :=
    (callOnce world provider request s).2.gateway.recordFailure_eq provider.name
      (callOnce world provider request s).2.now
  refine ⟨⟨_, callOnce_calls world request provider s, ?_, ?_⟩, ?_, ?_, ?_, ?_, ?_, ?_⟩
  · intro call member
    rw [List.mem_singleton.mp member]
  · rw [answer]
    rfl
  all_goals rw [recordFailure, recorded]
  all_goals first | rfl | exact (Rat.add_zero _).symm

/-- The calls to one provider are those of the reference. -/
theorem attempts_served (world : Nat → Reply) (request : CompletionRequest) (provider : Provider) (left attempt : Nat)
    (s : Session κ) :
    (attempts world provider request left attempt s).1 =
      (world (s.calls.length + repeats (fun n => (world n).answer) (left + 1) s.calls.length)).answer ∧
    Served request s (attempts world provider request left attempt s).2
      (answersOf (fun n => (world n).answer) (left + 1) provider.name s.calls.length) none := by
  induction left generalizing attempt s with
  | zero =>
    rw [repeats_stop (Or.inr (Nat.le_refl _)), answersOf_stop _ (Or.inr (Nat.le_refl _))]
    cases answer : (world s.calls.length).answer with
    | ok response =>
      rw [attempts_ok answer]
      exact ⟨rfl, by simpa only [answer] using callOnce_served provider answer⟩
    | error err =>
      rw [attempts_error answer, if_neg (fun retry => Nat.lt_irrefl 0 retry.1)]
      exact ⟨rfl, by simpa only [answer] using callOnce_failed provider answer⟩
  | succ left ih =>
    cases answer : (world s.calls.length).answer with
    | ok response =>
      have stops : mayRetry (world s.calls.length).answer = false := by rw [answer]; rfl
      rw [attempts_ok answer, repeats_stop (Or.inl stops), answersOf_stop _ (Or.inl stops)]
      exact ⟨answer.symm, by simpa only [answer] using callOnce_served provider answer⟩
    | error err =>
      rw [attempts_error answer]
      cases retry : err.isRetryable with
      | false =>
        have stops : mayRetry (world s.calls.length).answer = false := by rw [answer]; exact retry
        rw [if_neg (fun again => Bool.false_ne_true again.2), repeats_stop (Or.inl stops),
          answersOf_stop _ (Or.inl stops)]
        exact ⟨answer.symm, by simpa only [answer] using callOnce_failed provider answer⟩
      | true =>
        have again : mayRetry (world s.calls.length).answer = true := by rw [answer]; exact retry
        rw [if_pos ⟨Nat.succ_pos left, rfl⟩, repeats_again again, answersOf_again _ again]
        have failed : Served request s ((callOnce world provider request s).2.recordFailure provider.name)
            [(provider.name, .error err)] none := callOnce_failed provider answer
        generalize (callOnce world provider request s).2.recordFailure provider.name = s' at failed ⊢
        have waited : Served request s (s'.wait (s'.gateway.config.backoff attempt))
          [(provider.name, .error err)] none :=
          failed.trans (.quiet rfl rfl rfl rfl rfl rfl rfl)
        obtain ⟨same, served⟩ := ih (attempt + 1) (s'.wait (s'.gateway.config.backoff attempt))
        have length : (s'.wait (s'.gateway.config.backoff attempt)).calls.length = s.calls.length + 1 := waited.length
        rw [length] at same served
        refine ⟨?_, ?_⟩
        · rw [show left + 1 - 1 = left from rfl, same]
          congr 2
          omega
        · rw [answer]
          exact waited.trans served

theorem circuitIsOpen_served (request : CompletionRequest) (s : Session κ) (provider : String) :
    Served request s (s.circuitIsOpen provider).2 [] none := by
  have usage := s.gateway.circuitIsOpen_usage provider s.now
  refine .quiet rfl (s.gateway.circuitIsOpen_config provider s.now) ?_ ?_ ?_ ?_ ?_
  · exact congrArg Usage.requests usage
  · exact congrArg Usage.failures usage
  · exact congrArg Usage.tokensIn usage
  · exact congrArg Usage.tokensOut usage
  · exact congrArg Usage.costUsd usage

variable [DecidableEq κ] {key : κ}

/-- A response is paid for when its provider's turn ends. -/
theorem recordSuccess_served (s : Session κ) (provider : String) (response : CompletionResponse) (key : κ) :
    Served request s { s with gateway := s.gateway.recordSuccess provider response key } [] (some response) := by
  obtain ⟨breakers, recorded, -, -⟩ := s.gateway.recordSuccess_eq provider response key
  obtain ⟨cache, order, stored⟩ := Gateway.store_eq ({ s.gateway with
    breakers := breakers
    usage := { s.gateway.usage with
      tokensIn := s.gateway.usage.tokensIn + response.tokensIn
      tokensOut := s.gateway.usage.tokensOut + response.tokensOut
      costUsd := s.gateway.usage.costUsd + response.costUsd } } : Gateway κ) response key
  rw [recorded, stored]
  exact ⟨⟨[], (List.append_nil _).symm, by simp, rfl⟩, rfl, rfl, rfl, rfl, rfl, rfl⟩

/-- Which breakers are open when the turn of their provider comes. -/
def breakersAt (world : Nat → Reply) (request : CompletionRequest) (key : κ) :
    List Provider → Nat → Session κ → List (Provider × Bool)
  | [], _, _ => []
  | provider :: rest, index, s =>
    (provider, (s.circuitIsOpen provider.name).1) ::
      breakersAt world request key rest (index + 1) (tryProvider world request key index provider s).2

theorem tryProvider_open (world : Nat → Reply) (request : CompletionRequest) (key : κ) (index : Nat)
    {provider : Provider} {s : Session κ}
    (blocked : (s.circuitIsOpen provider.name).1 = true) :
    (tryProvider world request key index provider s).1 = .error (.circuitOpen provider.name) ∧
    Served request s (tryProvider world request key index provider s).2 [] none := by
  have looked := circuitIsOpen_served request s provider.name
  unfold tryProvider
  generalize s.circuitIsOpen provider.name = look at blocked looked ⊢
  obtain ⟨isOpen, s'⟩ := look
  cases blocked
  exact ⟨rfl, looked.trans (.quiet rfl rfl rfl rfl rfl rfl rfl)⟩

/-- The turn of a provider whose breaker is closed. -/
theorem tryProvider_served (world : Nat → Reply) (request : CompletionRequest) (key : κ) (index : Nat)
    {provider : Provider} {s : Session κ}
    (lets : (s.circuitIsOpen provider.name).1 = false) {limit : Nat}
    (limited : limit = max 1 s.gateway.config.maxAttempts) :
    (tryProvider world request key index provider s).1 =
      (world (s.calls.length + repeats (fun n => (world n).answer) limit s.calls.length)).answer ∧
    Served request s (tryProvider world request key index provider s).2
      (answersOf (fun n => (world n).answer) limit provider.name s.calls.length)
      (tryProvider world request key index provider s).1.toOption := by
  have looked := circuitIsOpen_served request s provider.name
  unfold tryProvider
  generalize s.circuitIsOpen provider.name = look at lets looked ⊢
  obtain ⟨isOpen, s₁⟩ := look
  cases lets
  have started : Served request s
      (if 0 < index then s₁.count (fun usage => { usage with fallbacks := usage.fallbacks + 1 }) else s₁)
        [] none := by
    split
    · exact looked.trans (.quiet rfl rfl rfl rfl rfl rfl rfl)
    · exact looked
  simp only
  generalize (if 0 < index then s₁.count (fun usage => { usage with fallbacks := usage.fallbacks + 1 }) else s₁) = s₂
    at started ⊢
  have called := attempts_served world request provider (s₂.gateway.config.maxAttempts - 1) 1 s₂
  rw [started.config, started.length, show s.gateway.config.maxAttempts - 1 + 1 = limit by omega] at called
  rw [callWithRetries, started.config]
  generalize attempts world provider request (s.gateway.config.maxAttempts - 1) 1 s₂ = result at called ⊢
  obtain ⟨answer, s₃⟩ := result
  obtain ⟨same, served⟩ := called
  have ended := started.trans served
  cases answer with
  | ok response =>
    refine ⟨same, ?_⟩
    have recorded := ended.trans (recordSuccess_served s₃ provider.name response key)
    rwa [List.append_nil] at recorded
  | error err => exact ⟨same, ended⟩

/-- The loop over the providers does what the reference does. -/
theorem tryProviders_served (world : Nat → Reply) (request : CompletionRequest) (key : κ) {limit : Nat}
    (providers : List Provider) (index : Nat) (lastError : Option SwarmError) (s : Session κ)
    (limited : limit = max 1 s.gateway.config.maxAttempts) :
    let reference := failover (fun n => (world n).answer) limit (breakersAt world request key providers index s)
      s.calls.length (lastError.getD (.provider "gateway" "no provider was able to serve the request"))
    (tryProviders world request key providers index lastError s).1 = reference.2 ∧
      Served request s (tryProviders world request key providers index lastError s).2 reference.1
        reference.2.toOption := by
  induction providers generalizing index lastError s with
  | nil => exact ⟨rfl, .refl s⟩
  | cons provider rest ih =>
    cases looked : (s.circuitIsOpen provider.name).1 with
    | true =>
      obtain ⟨skips, skipped⟩ := tryProvider_open world request key index looked
      rw [breakersAt, looked, tryProviders]
      generalize tryProvider world request key index provider s = result at skips skipped ⊢
      obtain ⟨answer, s'⟩ := result
      cases skips
      obtain ⟨same, served⟩ := ih (index + 1) (some (.circuitOpen provider.name)) s' (by rw [limited, skipped.config])
      rw [skipped.length] at same served
      exact ⟨same, skipped.trans served⟩
    | false =>
      obtain ⟨answered, called⟩ := tryProvider_served world request key index looked limited
      rw [breakersAt, looked, tryProviders]
      simp only [failover]
      rw [← answered]
      generalize tryProvider world request key index provider s = result at answered called ⊢
      obtain ⟨answer, s'⟩ := result
      cases answer with
      | ok response => exact ⟨rfl, called⟩
      | error err =>
        obtain ⟨same, served⟩ := ih (index + 1) (some err) s' (by rw [limited, called.config])
        rw [called.length] at same served
        exact ⟨same, called.trans served⟩

/-- The error of a request for a model that no provider serves. -/
def unserved (s : Session κ) (model : String) : SwarmError :=
  .config (if s.gateway.providers.isEmpty then "gateway has no providers" else s!"no provider serves model `{model}`")

/-- A request that is not in the cache and within budget is served as the reference serves it, over the providers
of its model: with the same calls, the same answer and what that answer costs. -/
theorem complete_failover (world : Nat → Reply) (digest : List UInt8 → κ)
    (request : CompletionRequest) (s : Session κ)
    (uncached : s.gateway.lookup request (digest request.cacheBytes) = none)
    (within : ∀ budget, s.gateway.config.budgetUsd = some budget → s.gateway.usage.costUsd < budget) :
    let candidates := s.gateway.providers.filter (fun provider => provider.supportsModel request.model)
    let reference := failover (fun n => (world n).answer) (max 1 s.gateway.config.maxAttempts)
      (breakersAt world request (digest request.cacheBytes) candidates 0 s) s.calls.length (s.unserved request.model)
    (complete world digest request s).1 = reference.2 ∧
      Served request s (complete world digest request s).2 reference.1 reference.2.toOption := by
  have goes : s.gateway.refusal = none := by
    unfold Gateway.refusal
    cases limited : s.gateway.config.budgetUsd with
    | none => rfl
    | some budget => exact if_neg (Rat.not_le.mpr (within budget limited))
  unfold complete unserved
  by_cases empty : s.gateway.providers.isEmpty = true
  · rw [if_pos empty, if_pos empty, List.isEmpty_iff.mp empty]
    exact ⟨rfl, .refl s⟩
  rw [if_neg empty, if_neg empty]
  simp only [uncached, goes]
  generalize s.gateway.providers.filter (fun provider => provider.supportsModel request.model) = candidates
  cases candidates with
  | nil => exact ⟨rfl, .refl s⟩
  | cons provider rest =>
    have served := tryProviders_served world request (digest request.cacheBytes) (provider :: rest) 0 none s rfl
    cases looked : (s.circuitIsOpen provider.name).1 <;>
    · rw [breakersAt, looked] at served ⊢
      exact served

end Session

/-- A world in which the first three calls time out. -/
def flaky : Nat → Reply := fun n => ⟨0, 0, if n < 3 then .error (.timeout 30) else .ok mockResponse, .ok []⟩

/-- The second provider serves what the first one failed to three times. -/
theorem complete_failover_flaky : ∃ after : Session UInt64,
    Session.complete flaky stableHash ask (.start {} [⟨"first", fun _ => true⟩, mockProvider]) =
      (.ok mockResponse, after) ∧
    after.calls.map Call.provider = ["first", "first", "first", "mock"] ∧ after.gateway.usage.requests = 4 ∧
    after.gateway.usage.failures = 3 ∧ after.gateway.usage.costUsd = mockResponse.costUsd := by
  have served :=
    Session.complete_failover flaky stableHash ask (.start {} [⟨"first", fun _ => true⟩, mockProvider]) rfl
    (fun _ limited => by cases limited)
  generalize Session.complete flaky stableHash ask (.start {} [⟨"first", fun _ => true⟩, mockProvider]) =
    result at served ⊢
  obtain ⟨answer, after⟩ := result
  obtain ⟨same, served⟩ := served
  obtain ⟨calls, appended, -, outcomes⟩ := served.calls
  have providers : calls.map Call.provider = ["first", "first", "first", "mock"] := by
    have firsts := congrArg (List.map Prod.fst) outcomes
    rwa [List.map_map] at firsts
  refine ⟨after, Prod.ext same rfl, ?_, served.requests, served.failures, ?_⟩
  · rw [appended]
    exact providers
  · exact served.costUsd.trans (Rat.zero_add _)

end Swarm
