import Swarm.Gateway.Outages

namespace Swarm
namespace Session
variable {κ : Type} [DecidableEq κ] {limits : GatewayConfig}

/-- The failure at which those in a row reach the threshold is followed by the reset time in every run exactly
where requests are not retried, pause long enough or find the budget spent; for the failures after it as well
only a breaker that opens at once will do, or no reset time. -/
theorem breaker_blocks_iff (positive : 1 ≤ limits.circuitFailureThreshold) (digest : List UInt8 → κ) :
    ((∀ providers world arrivals, ∀ provider ∈ providers,
        Respects limits (fun failures => failures = limits.circuitFailureThreshold) provider.name
          ((start limits providers).serveAll world digest arrivals).calls) ↔
      limits.maxAttempts ≤ 1 ∨ limits.circuitResetMs ≤ limits.retryBackoffMs ∨ limits.Exhausted) ∧
    ((∀ providers world arrivals, ∀ provider ∈ providers,
        Respects limits (fun failures => limits.circuitFailureThreshold ≤ failures) provider.name
          ((start limits providers).serveAll world digest arrivals).calls) ↔
      (limits.circuitFailureThreshold = 1 ∧ limits.maxAttempts ≤ 1) ∨ limits.circuitResetMs = 0 ∨
        limits.Exhausted) := by
  have mock : mockProvider ∈ [mockProvider] := List.mem_singleton_self mockProvider
  constructor
  · constructor
    · intro respects
      by_contra wrong
      obtain ⟨retries, close, spends⟩ : ¬ limits.maxAttempts ≤ 1 ∧ ¬ limits.circuitResetMs ≤ limits.retryBackoffMs ∧
          ¬ limits.Exhausted :=
            ⟨fun h => wrong (Or.inl h), fun h => wrong (Or.inr (Or.inl h)), fun h => wrong (Or.inr (Or.inr h))⟩
      obtain ⟨world, arrivals, ignored⟩ :=
        retry_early (fun failures => failures = limits.circuitFailureThreshold) spends
        positive (Nat.lt_of_not_le retries) close rfl digest
      exact ignored (respects [mockProvider] world arrivals mockProvider mock)
    · intro condition providers world arrivals provider member
      have seen : Seen limits (fun failures => failures = limits.circuitFailureThreshold) :=
        fun failures reached => ⟨by omega, Or.inl reached⟩
      rcases condition with single | far | exhausted
      · exact serveAll_respects seen (fun more => absurd single (Nat.not_le_of_lt more)) providers provider
          member world arrivals
      · exact serveAll_respects seen (fun _ => far) providers provider member world arrivals
      · exact exhausted_respects exhausted providers provider.name world digest arrivals
  · constructor
    · intro respects
      by_contra wrong
      have waits : limits.circuitResetMs ≠ 0 := fun zero => wrong (Or.inr (Or.inl zero))
      have spends : ¬ limits.Exhausted := fun exhausted => wrong (Or.inr (Or.inr exhausted))
      have several : ∃ world arrivals, ¬ Respects limits (fun failures => limits.circuitFailureThreshold ≤ failures)
          mockProvider.name ((start limits [mockProvider]).serveAll world digest arrivals).calls := by
        by_cases single : limits.circuitFailureThreshold = 1
        · have retries : 2 ≤ limits.maxAttempts := Nat.lt_of_not_le (fun once => wrong (Or.inl ⟨single, once⟩))
          by_cases far : limits.circuitResetMs ≤ limits.retryBackoffMs
          · exact again_early _ spends single retries far waits (by rw [single]; decide) digest
          · exact retry_early _ spends positive retries far le_rfl digest
        · exact probe_early _ spends (by omega) waits (Nat.le_succ _) digest
      obtain ⟨world, arrivals, ignored⟩ := several
      exact ignored (respects [mockProvider] world arrivals mockProvider mock)
    · intro condition providers world arrivals provider member
      rcases condition with ⟨one, single⟩ | immediate | exhausted
      · exact serveAll_respects (fun failures reached => ⟨positive.trans reached, Or.inr (Or.inl ⟨one, single⟩)⟩)
          (fun more => absurd single (Nat.not_le_of_lt more)) providers provider member world arrivals
      · exact serveAll_respects (fun failures reached => ⟨positive.trans reached, Or.inr (Or.inr immediate)⟩)
          (fun _ => by rw [immediate]; exact UInt64.zero_le) providers provider member world arrivals
      · exact exhausted_respects exhausted providers provider.name world digest arrivals

variable {world : Nat → Reply} {digest : List UInt8 → κ} {request : CompletionRequest} {key : κ} {s s' : Session κ}

/-- A request comes to a provider: it is neither answered from the cache nor refused, and the ones before failed. -/
def Turns (world : Nat → Reply) (digest : List UInt8 → κ) (request : CompletionRequest) (s : Session κ)
    (provider : Provider) (s' : Session κ) : Prop :=
  s.gateway.lookup request (digest request.cacheBytes) = none ∧ s.gateway.refusal = none ∧
  ∃ before after err,
    s.gateway.providers.filter (fun provider => provider.supportsModel request.model) = before ++ provider :: after ∧
    tryProviders world request (digest request.cacheBytes) before 0 none s = (.error err, s')

/-- The breaker has been open for the reset time. -/
def Due (limits : GatewayConfig) (name : String) (s : Session κ) : Prop :=
  ∃ failures since, s.gateway.breakers.get? name = some ⟨failures, some since⟩ ∧
    since + fromMillis limits.circuitResetMs ≤ s.now

theorem tryProviders_append {before : List Provider} (rest : List Provider) {index : Nat}
    {lastError : Option SwarmError} {err : SwarmError}
    (failed : tryProviders world request key before index lastError s = (.error err, s')) :
    ∃ index' lastError', tryProviders world request key (before ++ rest) index lastError s =
      tryProviders world request key rest index' lastError' s' := by
  induction before generalizing index lastError s with
  | nil =>
    unfold tryProviders at failed
    cases failed
    exact ⟨index, lastError, rfl⟩
  | cons provider before ih =>
    simp only [List.cons_append, tryProviders] at failed ⊢
    generalize tryProvider world request key index provider s = result at failed ⊢
    obtain ⟨answer, s₁⟩ := result
    cases answer with
    | ok response => cases failed
    | error err' => exact ih failed

/-- A breaker that is due lets one call through. -/
theorem tryProvider_probe (world : Nat → Reply) (request : CompletionRequest) (key : κ)
    {provider : Provider} (index : Nat) (config : s.gateway.config = limits)
    (single : limits.maxAttempts = 1) (due : Due limits provider.name s) :
    ∃ probe, (tryProvider world request key index provider s).2.calls = s.calls ++ [probe] ∧
      probe.provider = provider.name := by
  obtain ⟨failures, since, found, late⟩ := due
  have late : ¬ s.now - since < fromMillis s.gateway.config.circuitResetMs := by
    rw [config]
    omega
  have look : s.circuitIsOpen provider.name = (false, { s with gateway := { s.gateway with
      breakers := s.gateway.breakers.insert provider.name ⟨0, none⟩ } }) := by
    unfold circuitIsOpen Gateway.circuitIsOpen
    simp only [found, if_neg late]
  have once : ∀ s₁ : Session κ, s₁.gateway.config = limits → ∃ probe,
      (callWithRetries world provider request s₁).2.calls = s₁.calls ++ [probe] ∧ probe.provider = provider.name := by
    intro s₁ same
    unfold callWithRetries
    rw [same, single]
    cases answer : (world s₁.calls.length).answer with
    | ok response =>
      rw [attempts_ok answer]
      exact ⟨_, callOnce_calls world request provider s₁, rfl⟩
    | error err =>
      rw [attempts_error answer, if_neg (fun retry => Nat.lt_irrefl 0 retry.1)]
      exact ⟨_, callOnce_calls world request provider s₁, rfl⟩
  unfold tryProvider
  rw [look]
  simp only
  generalize entered : (if 0 < index then _ else _ : Session κ) = s₁
  have config' : s₁.gateway.config = limits := by
    rw [← entered]
    split <;> exact config
  have calls' : s₁.calls = s.calls := by
    rw [← entered]
    split <;> rfl
  obtain ⟨probe, grown, same⟩ := once s₁ config'
  rw [calls'] at grown
  generalize callWithRetries world provider request s₁ = result at grown ⊢
  obtain ⟨answer, s₂⟩ := result
  cases answer <;> exact ⟨probe, grown, same⟩

theorem tryProviders_grows (providers : List Provider) (index : Nat) (lastError : Option SwarmError) (s : Session κ) :
    s.calls <+: (tryProviders world request key providers index lastError s).2.calls := by
  have turns : Yields (tryProviders world request key providers index lastError s)
      (fun _ s' => s.calls <+: s'.calls) (fun s' => s.calls <+: s'.calls) := by
    refine tryProviders_rule ?_ (List.prefix_refl _)
    intro index provider s₁ _ ready
    refine (tryProvider_cache provider index s₁).mono ?_ ?_
    · rintro response s₂ ⟨_, _, _, more, last, calls, _⟩
      exact ready.trans ⟨more ++ [last], by rw [calls, List.append_assoc]⟩
    · intro s₂ fruitless
      obtain ⟨more, calls, _⟩ := fruitless.calls
      exact ready.trans ⟨more, calls.symm⟩
  exact turns.state

theorem serve_grows (arrival : Arrival) (s : Session κ) :
    s.calls <+: (Session.serve world digest s arrival).calls := by
  unfold Session.serve
  rcases complete_cases arrival.request (s.wait arrival.gap) with ⟨err, run⟩ | ⟨hit, _, run⟩ | ⟨_, _, run⟩
  · rw [run]
    exact List.prefix_refl _
  · rw [run]
    exact List.prefix_refl _
  · rw [run]
    exact tryProviders_grows _ 0 none (s.wait arrival.gap)

theorem serveAll_grows (arrivals : List Arrival) (s : Session κ) :
    s.calls <+: (serveAll world digest s arrivals).calls := by
  let inv : Session κ → Prop := fun s' => s.calls <+: s'.calls
  have keeps : ∀ s₁ arrival, inv s₁ → inv (Session.serve world digest s₁ arrival) := by
    intro s₁ arrival ready
    exact ready.trans (serve_grows arrival s₁)
  exact serveAll_keeps keeps (List.prefix_refl _) arrivals

/-- A request that comes to a provider whose breaker is due makes one call to it, and after that more may follow. -/
theorem Turns.probe {s : Session κ} {provider : Provider} (turns : Turns world digest request s provider s')
    (config : s'.gateway.config = limits) (single : limits.maxAttempts = 1) (due : Due limits provider.name s') :
    ∃ probe, s'.calls ++ [probe] <+: (complete world digest request s).2.calls ∧ probe.provider = provider.name := by
  obtain ⟨missed, goes, before, after, err, candidates, failed⟩ := turns
  have known : s.gateway.providers.isEmpty = false := by
    cases none : s.gateway.providers with
    | nil => simp [none] at candidates
    | cons _ _ => rfl
  have several : (before ++ provider :: after).isEmpty = false := by simp
  unfold complete
  simp only [known, missed, goes, candidates, several, Bool.false_eq_true, if_false]
  obtain ⟨index, lastError, onward⟩ := tryProviders_append (provider :: after) failed
  obtain ⟨probe, calls, same⟩ := tryProvider_probe world request (digest request.cacheBytes) index config single due
  refine ⟨probe, ?_, same⟩
  rw [onward, tryProviders, ← calls]
  generalize tryProvider world request (digest request.cacheBytes) index provider s' = result
  obtain ⟨answer, s₁⟩ := result
  cases answer with
  | ok response => exact List.prefix_refl _
  | error err' => exact tryProviders_grows after (index + 1) (some err') s₁

theorem serveAll_front (s : Session κ) (front rest : List Arrival) :
    serveAll world digest s (front ++ rest) = serveAll world digest (serveAll world digest s front) rest :=
  List.foldl_append

/-- The configuration and the providers stay. -/
structure Fixed (s s' : Session κ) : Prop where
  config : s'.gateway.config = s.gateway.config
  providers : s'.gateway.providers = s.gateway.providers

omit [DecidableEq κ] in
theorem Fixed.wait {s s₁ : Session κ} (fixed : Fixed s s₁) (duration : Nat) : Fixed s (s₁.wait duration) :=
  ⟨fixed.config, fixed.providers⟩

theorem Fixed.turn {s s₁ : Session κ} (fixed : Fixed s s₁) (provider : Provider) (index : Nat) :
    Yields (tryProvider world request key index provider s₁) (fun _ => Fixed s) (Fixed s) := by
  have looked : ∀ {isOpen : Bool} {s' : Session κ}, s₁.circuitIsOpen provider.name = (isOpen, s') → Fixed s s' := by
    intro isOpen s' look
    unfold circuitIsOpen at look
    rcases s₁.gateway.circuitIsOpen_cases provider.name s₁.now with ⟨_, _, _, _, _, run⟩ | ⟨_, _, _, _, _, run⟩
      | ⟨_, run⟩ <;>
      rw [run] at look <;> cases look <;> exact ⟨fixed.config, fixed.providers⟩
  have answered : ∀ (s' : Session κ) response, Fixed s s' → (world s'.calls.length).answer = .ok response →
      Fixed s (callOnce world provider request s').2 := fun s' _ fixed _ => ⟨fixed.config, fixed.providers⟩
  refine tryProvider_rule ?_ ?_ ?_ answered ?_ ?_ ?_
  · intro s' look
    exact ⟨(looked look).config, (looked look).providers⟩
  · exact fun s' look => looked look
  · exact fun s' fixed => ⟨fixed.config, fixed.providers⟩
  · intro s' err fixed _
    let g := (callOnce world provider request s').2.gateway
    obtain ⟨breakers, recorded, _⟩ := g.recordFailure_eq provider.name (callOnce world provider request s').2.now
    refine ⟨?_, ?_⟩
    · change (g.recordFailure provider.name _).config = _
      rw [recorded]
      exact fixed.config
    · change (g.recordFailure provider.name _).providers = _
      rw [recorded]
      exact fixed.providers
  · exact fun _ s' attempt fixed => fixed.wait _
  · intro s' response fixed
    obtain ⟨breakers, recorded, _⟩ := s'.gateway.recordSuccess_eq provider.name response key
    obtain ⟨cache, order, stored⟩ := Gateway.store_eq _ response key
    rw [recorded, stored]
    exact ⟨fixed.config, fixed.providers⟩

theorem tryProviders_fixed (world : Nat → Reply) (request : CompletionRequest) (key : κ) (providers : List Provider)
    (index : Nat) (lastError : Option SwarmError) (s : Session κ) :
    Fixed s (tryProviders world request key providers index lastError s).2 := by
  have turns : Yields (tryProviders world request key providers index lastError s) (fun _ => Fixed s) (Fixed s) :=
    tryProviders_rule (fun index provider s₁ _ fixed => fixed.turn provider index) ⟨rfl, rfl⟩
  exact turns.state

theorem serveAll_fixed (world : Nat → Reply) (digest : List UInt8 → κ) (s : Session κ) (arrivals : List Arrival) :
    Fixed s (serveAll world digest s arrivals) := by
  have keeps : ∀ s₁ arrival, Fixed s s₁ → Fixed s (Session.serve world digest s₁ arrival) := by
    rintro s₁ arrival ⟨config, known⟩
    unfold Session.serve
    rcases complete_cases arrival.request (s₁.wait arrival.gap) with ⟨err, run⟩ | ⟨hit, _, run⟩ | ⟨_, _, run⟩
    · rw [run]
      exact ⟨config, known⟩
    · rw [run]
      exact ⟨config, known⟩
    · rw [run]
      obtain ⟨config', known'⟩ := tryProviders_fixed world arrival.request (digest arrival.request.cacheBytes)
        ((s₁.wait arrival.gap).gateway.providers.filter
          (fun provider => provider.supportsModel arrival.request.model)) 0 none
        (s₁.wait arrival.gap)
      exact ⟨config'.trans config, known'.trans known⟩
  exact serveAll_keeps keeps ⟨rfl, rfl⟩ arrivals

/-- The provider whose turn it is is registered, under the same configuration. -/
theorem Turns.fixed {s : Session κ} {provider : Provider} (turns : Turns world digest request s provider s') :
    s'.gateway.config = s.gateway.config ∧ provider ∈ s.gateway.providers := by
  obtain ⟨_, _, before, after, err, candidates, failed⟩ := turns
  have fixed := tryProviders_fixed world request (digest request.cacheBytes) before 0 none s
  rw [failed] at fixed
  refine ⟨fixed.config, List.mem_of_mem_filter (p := fun provider => provider.supportsModel request.model) ?_⟩
  rw [candidates]
  exact List.mem_append_right before List.mem_cons_self

/-- Whatever comes, a request that comes to a provider whose breaker is due makes one call to it,
and if that fails the provider is left alone for another reset time. -/
def ProbesOnce (limits : GatewayConfig) (digest : List UInt8 → κ) : Prop :=
  ∀ providers world front arrival rest provider s',
    Turns world digest arrival.request
      (((start limits providers).serveAll world digest front).wait arrival.gap) provider s' →
    Due limits provider.name s' →
    ∃ probe more,
      ((start limits providers).serveAll world digest (front ++ arrival :: rest)).calls = s'.calls ++ probe :: more ∧
      probe.provider = provider.name ∧
      (probe.failed = true → ∀ call ∈ more, call.provider = provider.name →
        probe.returnedAt + fromMillis limits.circuitResetMs ≤ call.startedAt)

/-- A breaker that bears several failures does not open at a failed probe. -/
theorem probe_forgotten (spends : ¬ limits.Exhausted) (several : 1 < limits.circuitFailureThreshold)
    (waits : limits.circuitResetMs ≠ 0) (digest : List UInt8 → κ) : ¬ ProbesOnce limits digest := by
  intro probes
  obtain ⟨s, reached⟩ : ∃ s : Session κ, s = (start limits [mockProvider]).serveAll broken digest
      (List.replicate limits.circuitFailureThreshold ⟨0, ask⟩) := ⟨_, rfl⟩
  obtain ⟨down, now, _, breaker, probe', later, down', calls', returned, started⟩ :=
    probe_failed spends several digest s reached
  have waited := down.wait (fromMillis limits.circuitResetMs)
  have turns : Turns broken digest ask (s.wait (fromMillis limits.circuitResetMs)) mockProvider
      (s.wait (fromMillis limits.circuitResetMs)) := by
    refine ⟨waited.lookup ask _, waited.refusal spends, [], [], _, ?_, rfl⟩
    rw [waited.providers]
    rfl
  have due : Due limits mockProvider.name (s.wait (fromMillis limits.circuitResetMs)) := by
    refine ⟨_, 0, waited.breaker, ?_⟩
    rw [wait_now]
    omega
  have rule := probes [mockProvider] broken (List.replicate limits.circuitFailureThreshold ⟨0, ask⟩)
    ⟨fromMillis limits.circuitResetMs, ask⟩ [⟨0, ask⟩] mockProvider (s.wait (fromMillis limits.circuitResetMs))
  rw [serveAll_front, ← reached] at rule
  obtain ⟨probe, more, calls, _, alone⟩ := rule turns due
  have whole : (serveAll broken digest s [⟨fromMillis limits.circuitResetMs, ask⟩, ⟨0, ask⟩]).calls =
      s.calls ++ [probe', later] := calls'.trans (List.append_assoc _ _ _)
  rw [wait_calls] at calls
  obtain ⟨same, others⟩ := List.cons.inj (List.append_cancel_left (whole.symm.trans calls))
  have failures : ∀ call ∈ s.calls ++ [probe'] ++ [later], call.provider = mockProvider.name ∧
      call.failed = true := by
    rw [← calls']
    exact down'.failures
  have early := alone (by rw [← same]; exact (failures probe' (by simp)).2) later (by rw [← others]; simp)
    (failures later (by simp)).1
  rw [← same, returned, started] at early
  have positive := fromMillis_pos waits
  omega

/-- With one attempt for each request, the rule holds in every run exactly where one failure opens the breaker,
there is no reset time or no budget. -/
theorem probe_iff (single : limits.maxAttempts = 1) (positive : 1 ≤ limits.circuitFailureThreshold)
    (digest : List UInt8 → κ) :
    ProbesOnce limits digest ↔ limits.circuitFailureThreshold = 1 ∨ limits.circuitResetMs = 0 ∨ limits.Exhausted := by
  constructor
  · intro probes
    by_contra wrong
    have several : 1 < limits.circuitFailureThreshold := by
      have other : limits.circuitFailureThreshold ≠ 1 := fun one => wrong (Or.inl one)
      omega
    have waits : limits.circuitResetMs ≠ 0 := fun zero => wrong (Or.inr (Or.inl zero))
    have spends : ¬ limits.Exhausted := fun exhausted => wrong (Or.inr (Or.inr exhausted))
    exact probe_forgotten spends several waits digest probes
  · intro condition providers world front arrival rest provider s' turns due
    have fresh := Gateway.fresh_withProviders (κ := κ) limits providers
    have fixed := serveAll_fixed world digest (start limits providers) front
    have config : s'.gateway.config = limits := turns.fixed.1.trans (fixed.config.trans fresh.config)
    have registered : provider ∈ providers := by
      rw [← fresh.providers]
      exact fixed.providers ▸ turns.fixed.2
    obtain ⟨probe, within, same⟩ := turns.probe config single due
    have onward : s'.calls ++ [probe] <+:
        ((start limits providers).serveAll world digest (front ++ arrival :: rest)).calls := by
      rw [serveAll, List.foldl_append]
      exact within.trans (serveAll_grows rest _)
    obtain ⟨more, calls⟩ := onward
    rw [List.append_assoc] at calls
    refine ⟨probe, more, calls.symm, same, ?_⟩
    intro failed call member called
    obtain ⟨between, after, split⟩ := List.append_of_mem member
    have trips : Trips (fun failures => 1 ≤ failures) provider.name (s'.calls ++ [probe] ++ between) probe := by
      refine ⟨s'.calls, List.prefix_append _ _, same, ?_⟩
      rw [streak_failed same failed]
      exact Nat.le_add_left 1 _
    have inside : s'.calls ++ [probe] ++ between ++ [call] <+:
        ((start limits providers).serveAll world digest (front ++ arrival :: rest)).calls := by
      rw [← calls, split]
      exact ⟨after, by simp⟩
    have respected : Respects limits (fun failures => 1 ≤ failures) provider.name
        ((start limits providers).serveAll world digest (front ++ arrival :: rest)).calls := by
      have once : 1 < limits.maxAttempts → limits.circuitResetMs ≤ limits.retryBackoffMs :=
        fun more => absurd single (Nat.ne_of_gt more)
      rcases condition with one | immediate | exhausted
      · exact serveAll_respects
          (fun failures reached => ⟨reached, Or.inr (Or.inl ⟨one, le_of_eq single⟩)⟩) once providers
          provider registered world _
      · exact serveAll_respects (fun failures reached => ⟨reached, Or.inr (Or.inr immediate)⟩) once providers
          provider registered world _
      · exact exhausted_respects exhausted providers provider.name world digest _
    exact respected _ call inside called probe trips

end Session

def twoStrikes : GatewayConfig := { circuitFailureThreshold := 2 }

/-- One request whose attempts all time out, at a breaker that bears two failures. -/
def worn : Session UInt64 :=
  (Session.start twoStrikes [mockProvider]).serveAll (script (fun _ => .timeout 0)) stableHash
  [⟨0, ask⟩]

/-- The second failure opens the breaker, and the third attempt follows a tenth of a second later. -/
theorem worn_retried : ¬ Respects twoStrikes (fun failures => failures = 2) mockProvider.name worn.calls := by
  intro respects
  have calls : worn.calls = [⟨mockProvider.name, ask, 0, 0, 0, .failed (.timeout 0)⟩,
      ⟨mockProvider.name, ask, 50000000, 50000000, 0, .failed (.timeout 0)⟩] ++
      [⟨mockProvider.name, ask, 150000000, 150000000, 0, .failed (.timeout 0)⟩] := rfl
  rw [calls] at respects
  have trips : Trips (fun failures => failures = 2) mockProvider.name
      [⟨mockProvider.name, ask, 0, 0, 0, .failed (.timeout 0)⟩,
      ⟨mockProvider.name, ask, 50000000, 50000000, 0, .failed (.timeout 0)⟩]
      ⟨mockProvider.name, ask, 50000000, 50000000, 0, .failed (.timeout 0)⟩ :=
    ⟨[_], List.prefix_refl _, rfl, rfl⟩
  have early := respects _ _ (List.prefix_refl _) rfl _ trips
  exact absurd early (by decide)

def oneAttempt : GatewayConfig := { maxAttempts := 1 }

theorem breaker_blocks_single : Respects oneAttempt (fun failures => failures = 5) mockProvider.name
    ((Session.start oneAttempt [mockProvider]).serveAll (script (fun _ => .timeout 0)) stableHash [⟨0, ask⟩,
      ⟨0, ask⟩]).calls := by
  have positive : 1 ≤ oneAttempt.circuitFailureThreshold := by decide
  exact (Session.breaker_blocks_iff positive stableHash).1.mpr (Or.inl le_rfl) [mockProvider] _ _ mockProvider
    (List.mem_singleton_self mockProvider)

/-- With the default configuration and one attempt for each request a failed probe is forgotten. -/
theorem probe_unheeded : ¬ Session.ProbesOnce oneAttempt stableHash := by
  have spends : ¬ oneAttempt.Exhausted := by
    rintro ⟨budget, limited, _⟩
    cases limited
  exact Session.probe_forgotten spends (by decide) (by decide) stableHash

theorem probes_sensitive :
    Session.ProbesOnce { maxAttempts := 1, circuitFailureThreshold := 1 } stableHash :=
  (Session.probe_iff rfl le_rfl stableHash).mpr (Or.inl rfl)

end Swarm
