import Swarm.Gateway.Model

namespace Swarm

/-- What holds of an answer and the state it comes with. -/
def Yields {ε α σ : Type} (result : Except ε α × σ) (good : α → σ → Prop) (bad : σ → Prop) : Prop :=
  match result with
  | (.ok a, s) => good a s
  | (.error _, s) => bad s

theorem Yields.mono {ε α σ : Type} {result : Except ε α × σ} {good good' : α → σ → Prop} {bad bad' : σ → Prop}
    (settles : Yields result good bad) (goods : ∀ a s, good a s → good' a s) (bads : ∀ s, bad s → bad' s) :
    Yields result good' bad' := by
  obtain ⟨answer, s⟩ := result
  cases answer with
  | ok a => exact goods a s settles
  | error e => exact bads s settles

theorem Yields.state {ε α σ : Type} {result : Except ε α × σ} {holds : σ → Prop}
    (settles : Yields result (fun _ => holds) holds) : holds result.2 := by
  obtain ⟨answer, s⟩ := result
  cases answer <;> exact settles

namespace Gateway
variable {κ : Type}

/-- A new gateway has kept nothing, spent nothing and opened no breaker. -/
structure Fresh (g : Gateway κ) (limits : GatewayConfig) (known : List Provider) : Prop where
  config : g.config = limits
  providers : g.providers = known
  cache : g.cache = .empty
  cacheOrder : g.cacheOrder = []
  usage : g.usage = {}
  breakers : ∀ name, g.breakers.get? name = if name ∈ known.map Provider.name then some .new else none

theorem fresh_withProviders (config : GatewayConfig) (providers : List Provider) :
    (withProviders config providers : Gateway κ).Fresh config providers := by
  induction providers using List.reverseRecOn with
  | nil => exact ⟨rfl, rfl, rfl, rfl, rfl, fun _ => rfl⟩
  | append_singleton providers provider ih =>
    have step : (withProviders config (providers ++ [provider]) : Gateway κ) =
        (withProviders config providers).andProvider provider := by
      simp only [withProviders, List.foldl_append, List.foldl_cons, List.foldl_nil]
    rw [step]
    refine ⟨ih.config, congrArg (fun known => known ++ [provider]) ih.providers, ih.cache,
      ih.cacheOrder, ih.usage, ?_⟩
    intro name
    simp only [andProvider, Dict.get?_insert, ih.breakers, List.map_append, List.map_cons, List.map_nil,
      List.mem_append,
      List.mem_singleton]
    by_cases same : name = provider.name <;> simp [same]

/-- What looking at a breaker can come to. -/
theorem circuitIsOpen_cases (g : Gateway κ) (provider : String) (now : Nat) :
    (∃ breaker since, g.breakers.get? provider = some breaker ∧ breaker.openedAt = some since ∧
      now - since < fromMillis g.config.circuitResetMs ∧ g.circuitIsOpen provider now = (true, g)) ∨
    (∃ breaker since, g.breakers.get? provider = some breaker ∧ breaker.openedAt = some since ∧
      fromMillis g.config.circuitResetMs ≤ now - since ∧
      g.circuitIsOpen provider now = (false, { g with breakers := g.breakers.insert provider ⟨0, none⟩ })) ∨
    ((∀ breaker, g.breakers.get? provider = some breaker → breaker.openedAt = none) ∧
      g.circuitIsOpen provider now = (false, g)) := by
  unfold circuitIsOpen
  cases found : g.breakers.get? provider with
  | none => exact Or.inr (Or.inr ⟨fun _ same => (by cases same), rfl⟩)
  | some breaker =>
    cases opened : breaker.openedAt with
    | none =>
      refine Or.inr (Or.inr ⟨?_, by simp only [opened]⟩)
      intro _ same
      cases same
      exact opened
    | some since =>
      simp only [opened]
      by_cases fresh : now - since < fromMillis g.config.circuitResetMs
      · exact Or.inl ⟨breaker, since, rfl, opened, fresh, if_pos fresh⟩
      · exact Or.inr (Or.inl ⟨breaker, since, rfl, opened, Nat.le_of_not_lt fresh, if_neg fresh⟩)

@[simp] theorem circuitIsOpen_config (g : Gateway κ) (provider : String) (now : Nat) :
    (g.circuitIsOpen provider now).2.config = g.config := by
  rcases g.circuitIsOpen_cases provider now with ⟨_, _, _, _, _, run⟩ | ⟨_, _, _, _, _, run⟩ | ⟨_, run⟩ <;> rw [run]

@[simp] theorem circuitIsOpen_usage (g : Gateway κ) (provider : String) (now : Nat) :
    (g.circuitIsOpen provider now).2.usage = g.usage := by
  rcases g.circuitIsOpen_cases provider now with ⟨_, _, _, _, _, run⟩ | ⟨_, _, _, _, _, run⟩ | ⟨_, run⟩ <;> rw [run]

@[simp] theorem circuitIsOpen_cache (g : Gateway κ) (provider : String) (now : Nat) :
    (g.circuitIsOpen provider now).2.cache = g.cache ∧ (g.circuitIsOpen provider now).2.cacheOrder =
      g.cacheOrder := by
  rcases g.circuitIsOpen_cases provider now with ⟨_, _, _, _, _, run⟩ | ⟨_, _, _, _, _, run⟩ | ⟨_, run⟩ <;>
    rw [run] <;> exact ⟨rfl, rfl⟩

/-- A failure touches the count of failures and the breaker of its provider. -/
theorem recordFailure_eq (g : Gateway κ) (provider : String) (now : Nat) : ∃ breakers,
    g.recordFailure provider now =
      { g with usage := { g.usage with failures := g.usage.failures + 1 }, breakers := breakers } ∧
    (∀ other, other ≠ provider → breakers.get? other = g.breakers.get? other) ∧
    breakers.get? provider = (g.breakers.get? provider).map (fun breaker => ⟨breaker.consecutiveFailures + 1,
      if g.config.circuitFailureThreshold ≤ breaker.consecutiveFailures + 1 ∧ breaker.openedAt = none then some now
      else breaker.openedAt⟩) := by
  unfold recordFailure
  cases found : g.breakers.get? provider with
  | none => exact ⟨g.breakers, by simp only [found], fun _ _ => rfl, by rw [found]; rfl⟩
  | some breaker =>
    refine ⟨_, by simp only [found]; rfl, fun other different => Dict.get?_insert_of_ne different, ?_⟩
    rw [Dict.get?_insert_self]
    simp

variable [DecidableEq κ]

/-- A success closes the breaker, is paid for and is kept. -/
theorem recordSuccess_eq (g : Gateway κ) (provider : String) (response : CompletionResponse) (key : κ) : ∃ breakers,
    g.recordSuccess provider response key =
      ({ g with
        breakers := breakers
        usage := { g.usage with
          tokensIn := g.usage.tokensIn + response.tokensIn
          tokensOut := g.usage.tokensOut + response.tokensOut
          costUsd := g.usage.costUsd + response.costUsd } } : Gateway κ).store response key ∧
    (∀ other, other ≠ provider → breakers.get? other = g.breakers.get? other) ∧
    breakers.get? provider = (g.breakers.get? provider).map (fun _ => ⟨0, none⟩) := by
  unfold recordSuccess
  cases found : g.breakers.get? provider with
  | none => exact ⟨g.breakers, rfl, fun _ _ => rfl, by rw [found]; rfl⟩
  | some breaker =>
    exact ⟨_, rfl, fun other different => Dict.get?_insert_of_ne different, Dict.get?_insert_self⟩

/-- Keeping a response changes the cache alone. -/
theorem store_eq (g : Gateway κ) (response : CompletionResponse) (key : κ) :
    ∃ cache order, g.store response key = { g with cache := cache, cacheOrder := order } := by
  unfold store
  split
  · exact ⟨_, _, rfl⟩
  · exact ⟨g.cache, g.cacheOrder, rfl⟩

end Gateway

namespace Session
variable {κ : Type} {world : Nat → Reply} {request : CompletionRequest}

theorem callOnce_calls (world : Nat → Reply) (request : CompletionRequest) (provider : Provider) (s : Session κ) :
    (callOnce world provider request s).2.calls =
    s.calls ++ [⟨provider.name, request, s.now + (world s.calls.length).lag,
      s.now + (world s.calls.length).lag + (world s.calls.length).took, s.gateway.usage.costUsd,
      .ofAnswer (world s.calls.length).answer⟩] := rfl

theorem attempts_ok {provider : Provider} {left attempt : Nat} {s : Session κ} {response : CompletionResponse}
    (answer : (world s.calls.length).answer = .ok response) :
    attempts world provider request left attempt s = (.ok response, (callOnce world provider request s).2) := by
  have split : callOnce world provider request s =
      ((world s.calls.length).answer, (callOnce world provider request s).2) := rfl
  generalize (callOnce world provider request s).2 = after at split ⊢
  rw [attempts.eq_def]
  simp only [split, answer]

theorem attempts_error {provider : Provider} {left attempt : Nat} {s : Session κ} {err : SwarmError}
    (answer : (world s.calls.length).answer = .error err) :
    attempts world provider request left attempt s =
      if 0 < left ∧ err.isRetryable = true then
        attempts world provider request (left - 1) (attempt + 1)
          (((callOnce world provider request s).2.recordFailure provider.name).wait
            (((callOnce world provider request s).2.recordFailure provider.name).gateway.config.backoff attempt))
      else (.error err, (callOnce world provider request s).2.recordFailure provider.name) := by
  have split : callOnce world provider request s =
      ((world s.calls.length).answer, (callOnce world provider request s).2) := rfl
  generalize (callOnce world provider request s).2 = after at split ⊢
  rw [attempts.eq_def]
  cases left with
  | zero => simp [split, answer]
  | succ left => simp [split, answer]

/-- A rule for the attempts at one provider: `ready` holds before each call, `bad` after each failure. -/
theorem attempts_rule {provider : Provider} {ready : Session κ → Prop} {good : CompletionResponse → Session κ → Prop}
    {bad : Session κ → Prop} {left attempt : Nat}
    (succeeds : ∀ s response, ready s → (world s.calls.length).answer = .ok response →
      good response (callOnce world provider request s).2)
    (fails : ∀ s err, ready s → (world s.calls.length).answer = .error err →
      bad ((callOnce world provider request s).2.recordFailure provider.name))
    (again : 0 < left → ∀ s attempt, bad s → ready (s.wait (s.gateway.config.backoff attempt))) {s : Session κ}
    (start : ready s) : Yields (attempts world provider request left attempt s) good bad := by
  induction left generalizing attempt s with
  | zero =>
    cases answer : (world s.calls.length).answer with
    | ok response =>
      rw [attempts_ok answer]
      exact succeeds s response start answer
    | error err =>
      rw [attempts_error answer, if_neg (fun retry => Nat.lt_irrefl 0 retry.1)]
      exact fails s err start answer
  | succ left ih =>
    cases answer : (world s.calls.length).answer with
    | ok response =>
      rw [attempts_ok answer]
      exact succeeds s response start answer
    | error err =>
      have failed := fails s err start answer
      rw [attempts_error answer]
      split
      · exact ih (fun _ => again (Nat.succ_pos left)) (again (Nat.succ_pos left) _ attempt failed)
      · exact failed

variable [DecidableEq κ] {key : κ}

/-- A rule for the turn of one provider. -/
theorem tryProvider_rule {provider : Provider} {index : Nat} {s : Session κ} {ready : Session κ → Prop}
    {good done : CompletionResponse → Session κ → Prop} {bad : Session κ → Prop}
    (skips : ∀ s', s.circuitIsOpen provider.name = (true, s') →
      bad (s'.count (fun usage => { usage with circuitRejections := usage.circuitRejections + 1 })))
    (admits : ∀ s', s.circuitIsOpen provider.name = (false, s') → ready s')
    (falls : ∀ s, ready s → ready (s.count (fun usage => { usage with fallbacks := usage.fallbacks + 1 })))
    (succeeds : ∀ s response, ready s → (world s.calls.length).answer = .ok response →
      good response (callOnce world provider request s).2)
    (fails : ∀ s err, ready s → (world s.calls.length).answer = .error err →
      bad ((callOnce world provider request s).2.recordFailure provider.name))
    (again : 1 < s.gateway.config.maxAttempts → ∀ s attempt, bad s →
      ready (s.wait (s.gateway.config.backoff attempt)))
    (records : ∀ s response, good response s →
      done response { s with gateway := s.gateway.recordSuccess provider.name response key }) :
    Yields (tryProvider world request key index provider s) done bad := by
  unfold tryProvider
  have config : (s.circuitIsOpen provider.name).2.gateway.config = s.gateway.config :=
    s.gateway.circuitIsOpen_config provider.name s.now
  generalize looked : s.circuitIsOpen provider.name = look at config ⊢
  obtain ⟨isOpen, s'⟩ := look
  cases isOpen with
  | true => exact skips s' looked
  | false =>
    have start := admits s' looked
    have attempted : ∀ s₁ : Session κ, ready s₁ → s₁.gateway.config = s'.gateway.config →
        Yields (callWithRetries world provider request s₁) good bad := by
      intro s₁ started same
      refine attempts_rule succeeds fails ?_ started
      rw [same, config]
      exact fun more => again (by omega)
    have tried : Yields (callWithRetries world provider request (if 0 < index then
        s'.count (fun usage => { usage with fallbacks := usage.fallbacks + 1 }) else s')) good bad := by
      by_cases later : 0 < index
      · rw [if_pos later]
        exact attempted _ (falls s' start) rfl
      · rw [if_neg later]
        exact attempted s' start rfl
    simp only
    generalize callWithRetries world provider request _ = result at tried ⊢
    obtain ⟨answer, s''⟩ := result
    cases answer with
    | ok response => exact records s'' response tried
    | error err => exact tried

/-- A rule for the loop over the providers. -/
theorem tryProviders_rule {providers : List Provider} {inv : Session κ → Prop}
    {good : CompletionResponse → Session κ → Prop} (turn : ∀ index provider s, provider ∈ providers → inv s →
      Yields (tryProvider world request key index provider s) good inv) {index : Nat} {lastError : Option SwarmError}
    {s : Session κ} (start : inv s) :
    Yields (tryProviders world request key providers index lastError s) good inv := by
  induction providers generalizing index lastError s with
  | nil => exact start
  | cons provider rest ih =>
    have first := turn index provider s List.mem_cons_self start
    unfold tryProviders
    generalize tryProvider world request key index provider s = result at first ⊢
    obtain ⟨answer, s'⟩ := result
    cases answer with
    | ok response => exact first
    | error err => exact ih (fun index other s member => turn index other s (List.mem_cons_of_mem _ member)) first

variable {digest : List UInt8 → κ}

/-- The ways through `complete`: it changes nothing, it serves a kept response, or it turns to the providers. -/
theorem complete_cases (request : CompletionRequest) (s : Session κ) :
    (∃ err, complete world digest request s = (.error err, s)) ∨
    (∃ hit, s.gateway.lookup request (digest request.cacheBytes) = some hit ∧
      complete world digest request s = (.ok { hit with cached := true },
        s.count (fun usage => { usage with cacheHits := usage.cacheHits + 1 }))) ∨
    (s.gateway.lookup request (digest request.cacheBytes) = none ∧ s.gateway.refusal = none ∧
      complete world digest request s = tryProviders world request (digest request.cacheBytes)
        (s.gateway.providers.filter (fun provider => provider.supportsModel request.model)) 0 none s) := by
  unfold complete
  by_cases empty : s.gateway.providers.isEmpty = true
  · exact Or.inl ⟨_, if_pos empty⟩
  rw [if_neg empty]
  cases found : s.gateway.lookup request (digest request.cacheBytes) with
  | some hit =>
    simp only [found]
    exact Or.inr (Or.inl ⟨hit, rfl, rfl⟩)
  | none =>
    cases refused : s.gateway.refusal with
    | some err =>
      simp only [found]
      exact Or.inl ⟨err, rfl⟩
    | none =>
      simp only [found]
      split
      · exact Or.inl ⟨_, rfl⟩
      · exact Or.inr (Or.inr ⟨trivial, trivial, rfl⟩)

/-- What `serve` keeps holds after any sequence of requests. -/
theorem serveAll_keeps {inv : Session κ → Prop} (keeps : ∀ s arrival, inv s → inv (serve world digest s arrival))
    {s : Session κ} (start : inv s) (arrivals : List Arrival) : inv (serveAll world digest s arrivals) := by
  induction arrivals generalizing s with
  | nil => exact start
  | cons arrival rest ih => exact ih (keeps s arrival start)

end Session

/-- A provider that serves every model, and a world in which it always answers. -/
def mockProvider : Provider := ⟨"mock", fun _ => true⟩

def mockResponse : CompletionResponse := ⟨"because", "mock", "small", 3, 4, 1 / 100, 1, false, "stop"⟩

def steady : Nat → Reply := fun _ => ⟨0, 0, .ok mockResponse, .ok []⟩

def ask : CompletionRequest := .new "small" [⟨.user, "why?"⟩]

end Swarm
