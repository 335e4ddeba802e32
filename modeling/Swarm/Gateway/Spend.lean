import Swarm.Gateway.Cache

namespace Swarm

namespace Gateway
variable {κ : Type} {g : Gateway κ}

/-- The breaker of the provider is open and its time is not up. -/
def Blocks (g : Gateway κ) (provider : String) (now : Nat) : Prop :=
  ∃ breaker since, g.breakers.get? provider = some breaker ∧ breaker.openedAt = some since ∧
    now - since < fromMillis g.config.circuitResetMs

theorem circuitIsOpen_iff {provider : String} {now : Nat} :
    (g.circuitIsOpen provider now).1 = true ↔ g.Blocks provider now := by
  rcases g.circuitIsOpen_cases provider now with ⟨breaker, since, found, opened, fresh, run⟩ |
    ⟨breaker, since, found, opened, elapsed, run⟩ | ⟨closed, run⟩
  · rw [run]
    exact iff_of_true rfl ⟨breaker, since, found, opened, fresh⟩
  · rw [run]
    refine iff_of_false Bool.false_ne_true ?_
    rintro ⟨_, _, found', opened', fresh⟩
    rw [found] at found'
    cases found'
    rw [opened] at opened'
    cases opened'
    exact Nat.not_lt_of_le elapsed fresh
  · rw [run]
    refine iff_of_false Bool.false_ne_true ?_
    rintro ⟨_, _, found, opened, _⟩
    rw [closed _ found] at opened
    cases opened

/-- Looking at one breaker does not change which ones block. -/
theorem circuitIsOpen_blocks {provider other : String} {now : Nat} :
    (g.circuitIsOpen provider now).2.Blocks other now ↔ g.Blocks other now := by
  rcases g.circuitIsOpen_cases provider now with ⟨_, _, _, _, _, run⟩
    | ⟨breaker, since, found, opened, elapsed, run⟩ | ⟨_, run⟩
  · rw [run]
  · rw [run]
    unfold Blocks
    simp only [Dict.get?_insert]
    by_cases same : other = provider
    · subst same
      simp only [if_true]
      refine iff_of_false ?_ ?_
      · rintro ⟨_, _, found, opened, _⟩
        cases found
        cases opened
      · rintro ⟨_, _, found', opened', fresh⟩
        rw [found] at found'
        cases found'
        rw [opened] at opened'
        cases opened'
        exact Nat.not_lt_of_le elapsed fresh
    · simp only [if_neg same]
  · rw [run]

end Gateway

namespace Session
variable {κ : Type} {world : Nat → Reply} {request : CompletionRequest}

/-- Budget and usage cover the calls that were made. -/
structure Covered (budget : Rat) (s : Session κ) : Prop where
  spent : ∀ call ∈ s.calls, call.spent < budget
  requests : s.gateway.usage.requests = s.calls.length
  failures : s.gateway.usage.failures ≤ s.gateway.usage.requests

theorem Covered.congr {budget : Rat} {s s' : Session κ} (covered : Covered budget s) (calls : s'.calls = s.calls)
    (requests : s'.gateway.usage.requests = s.gateway.usage.requests)
    (failures : s'.gateway.usage.failures = s.gateway.usage.failures) : Covered budget s' := by
  refine ⟨?_, ?_, ?_⟩
  · rw [calls]
    exact covered.spent
  · rw [calls, requests]
    exact covered.requests
  · rw [failures, requests]
    exact covered.failures

/-- Every provider that serves the model is behind an open breaker. -/
def AllBlocked (s : Session κ) (arrival : Arrival) : Prop :=
  ∀ provider ∈ s.gateway.providers, provider.supportsModel arrival.request.model = true →
    s.gateway.Blocks provider.name (s.now + arrival.gap)

theorem streamFrom_skip {provider : Provider} {rest : List Provider} {s : Session κ}
    (skips : (s.circuitIsOpen provider.name).1 = true ∨ provider.supportsModel request.model = false) :
    streamFrom world request (provider :: rest) s =
      streamFrom world request rest (s.circuitIsOpen provider.name).2 := by
  rw [streamFrom]
  generalize s.circuitIsOpen provider.name = look at skips ⊢
  obtain ⟨isOpen, s'⟩ := look
  refine if_pos ?_
  rcases skips with blocked | unserved
  · rw [show isOpen = true from blocked, Bool.true_or]
  · rw [unserved, Bool.not_false, Bool.or_true]

/-- The session after a stream was asked for. -/
def streamed (world : Nat → Reply) (request : CompletionRequest) (provider : String) (s : Session κ) : Session κ :=
  s.call provider request (world s.calls.length) (.ofStream (world s.calls.length).stream)

theorem streamFrom_call (world : Nat → Reply) {provider : Provider} (rest : List Provider) {s : Session κ}
    (lets : (s.circuitIsOpen provider.name).1 = false) (serves : provider.supportsModel request.model = true) :
    (∃ tokens, streamFrom world request (provider :: rest) s =
        (.ok tokens, streamed world request provider.name (s.circuitIsOpen provider.name).2)) ∨
      streamFrom world request (provider :: rest) s = streamFrom world request rest
        ((streamed world request provider.name (s.circuitIsOpen provider.name).2).recordFailure provider.name) := by
  rw [streamFrom]
  have called : ¬ ((s.circuitIsOpen provider.name).1 || !provider.supportsModel request.model) = true := by
    rw [lets, serves]
    exact Bool.false_ne_true
  simp only [called]
  cases opened : (world (s.circuitIsOpen provider.name).2.calls.length).stream with
  | ok tokens => exact Or.inl ⟨tokens, by simp [streamed, opened]⟩
  | error err => exact Or.inr (by simp [streamed, opened])

theorem circuitIsOpen_keeps (s : Session κ) (provider : String) :
    (s.circuitIsOpen provider).2.calls = s.calls ∧ (s.circuitIsOpen provider).2.now = s.now ∧
      (s.circuitIsOpen provider).2.gateway.config = s.gateway.config ∧
      (s.circuitIsOpen provider).2.gateway.usage = s.gateway.usage :=
  ⟨rfl, rfl, s.gateway.circuitIsOpen_config provider s.now, s.gateway.circuitIsOpen_usage provider s.now⟩

theorem recordFailure_keeps (s : Session κ) (provider : String) :
    (s.recordFailure provider).calls = s.calls ∧ (s.recordFailure provider).gateway.config = s.gateway.config ∧
      (s.recordFailure provider).gateway.usage =
        { s.gateway.usage with failures := s.gateway.usage.failures + 1 } := by
  obtain ⟨breakers, run, _⟩ := s.gateway.recordFailure_eq provider s.now
  unfold recordFailure
  rw [run]
  exact ⟨rfl, rfl, rfl⟩

/-- A stream counts no request, whatever it calls. -/
theorem streamFrom_keeps (world : Nat → Reply) (request : CompletionRequest) (providers : List Provider)
    (s : Session κ) :
    (streamFrom world request providers s).2.gateway.usage.requests = s.gateway.usage.requests ∧
      (streamFrom world request providers s).2.gateway.config = s.gateway.config ∧
      s.calls.length ≤ (streamFrom world request providers s).2.calls.length := by
  induction providers generalizing s with
  | nil => exact ⟨rfl, rfl, le_rfl⟩
  | cons provider rest ih =>
    obtain ⟨calls, _, config, usage⟩ := s.circuitIsOpen_keeps provider.name
    by_cases skips : (s.circuitIsOpen provider.name).1 = true ∨ provider.supportsModel request.model = false
    · rw [streamFrom_skip skips]
      obtain ⟨requests, config', longer⟩ := ih (s.circuitIsOpen provider.name).2
      exact ⟨by rw [requests, usage], config'.trans config, longer⟩
    · simp only [not_or, Bool.not_eq_true, Bool.not_eq_false] at skips
      have one : (streamed world request provider.name (s.circuitIsOpen provider.name).2).calls.length =
          s.calls.length + 1 := by
        rw [← calls]
        exact List.length_append
      rcases streamFrom_call world rest skips.1 skips.2 with ⟨tokens, run⟩ | run
      · rw [run]
        refine ⟨congrArg Usage.requests usage, config, ?_⟩
        rw [one]
        exact Nat.le_succ _
      · rw [run]
        obtain ⟨same, config', failed⟩ :=
          recordFailure_keeps (streamed world request provider.name (s.circuitIsOpen provider.name).2) provider.name
        obtain ⟨requests, config'', longer⟩ := ih _
        refine ⟨requests.trans ?_, (config''.trans config').trans config, ?_⟩
        · rw [failed]
          change (s.circuitIsOpen provider.name).2.gateway.usage.requests = s.gateway.usage.requests
          rw [usage]
        · rw [same, one] at longer
          exact (Nat.le_succ _).trans longer

/-- Behind open breakers nothing is called, and otherwise something is. -/
theorem streamFrom_calls (world : Nat → Reply) (request : CompletionRequest) (providers : List Provider)
    (s : Session κ) :
    ((∀ provider ∈ providers, provider.supportsModel request.model = true → s.gateway.Blocks provider.name s.now) →
      (streamFrom world request providers s).2.calls = s.calls ∧
        (streamFrom world request providers s).2.gateway.usage = s.gateway.usage) ∧
    ((∃ provider ∈ providers, provider.supportsModel request.model = true ∧ ¬ s.gateway.Blocks provider.name s.now) →
      s.calls.length < (streamFrom world request providers s).2.calls.length) := by
  induction providers generalizing s with
  | nil =>
    refine ⟨fun _ => ⟨rfl, rfl⟩, ?_⟩
    rintro ⟨_, member, _⟩
    cases member
  | cons provider rest ih =>
    obtain ⟨calls, now, _, usage⟩ := s.circuitIsOpen_keeps provider.name
    have blocks : ∀ other, (s.circuitIsOpen provider.name).2.gateway.Blocks other s.now ↔
      s.gateway.Blocks other s.now :=
      fun other => Gateway.circuitIsOpen_blocks
    by_cases skips : (s.circuitIsOpen provider.name).1 = true ∨ provider.supportsModel request.model = false
    · rw [streamFrom_skip skips]
      obtain ⟨quiet, loud⟩ := ih (s.circuitIsOpen provider.name).2
      rw [now, calls] at quiet loud
      simp only [blocks, usage] at quiet loud
      refine ⟨fun all => quiet (fun other member => all other (List.mem_cons_of_mem _ member)), ?_⟩
      rintro ⟨other, member, serves, free⟩
      refine loud ⟨other, (List.mem_cons.mp member).resolve_left ?_, serves, free⟩
      rintro rfl
      rcases skips with blocked | unserved
      · exact free (Gateway.circuitIsOpen_iff.mp blocked)
      · rw [serves] at unserved
        cases unserved
    · simp only [not_or, Bool.not_eq_true, Bool.not_eq_false] at skips
      have free : ¬ s.gateway.Blocks provider.name s.now := by
        intro blocked
        have looked : (s.circuitIsOpen provider.name).1 = true := Gateway.circuitIsOpen_iff.mpr blocked
        rw [skips.1] at looked
        cases looked
      refine ⟨fun all => absurd (all provider List.mem_cons_self skips.2) free, fun _ => ?_⟩
      have one : (streamed world request provider.name (s.circuitIsOpen provider.name).2).calls.length =
          s.calls.length + 1 := by
        rw [← calls]
        exact List.length_append
      rcases streamFrom_call world rest skips.1 skips.2 with ⟨tokens, run⟩ | run
      · rw [run, one]
        exact Nat.lt_succ_self _
      · rw [run]
        obtain ⟨same, _⟩ :=
          recordFailure_keeps (streamed world request provider.name (s.circuitIsOpen provider.name).2) provider.name
        have longer := (streamFrom_keeps world request rest ((streamed world request provider.name
          (s.circuitIsOpen provider.name).2).recordFailure provider.name)).2.2
        rw [same, one] at longer
        exact longer

theorem refusal_none {budget : Rat} {g : Gateway κ} (limited : g.config.budgetUsd = some budget)
    (goes : g.refusal = none) :
    g.usage.costUsd < budget := by
  unfold Gateway.refusal at goes
  rw [limited] at goes
  by_contra spent
  have exhausted : budget ≤ g.usage.costUsd := Rat.not_lt.mp spent
  simp only [if_pos exhausted] at goes
  cases goes

variable [DecidableEq κ] {key : κ} {digest : List UInt8 → κ} {budget : Rat}

/-- Covered, and within the budget. -/
def Within (budget : Rat) (s : Session κ) : Prop := Covered budget s ∧ s.gateway.usage.costUsd < budget

omit [DecidableEq κ] in
/-- A call within the budget is covered, and leaves one failure to spare. -/
theorem Within.callOnce {s : Session κ} (within : Within budget s) (provider : Provider) :
    Within budget (callOnce world provider request s).2 ∧
      (callOnce world provider request s).2.gateway.usage.failures <
        (callOnce world provider request s).2.gateway.usage.requests := by
  obtain ⟨covered, below⟩ := within
  refine ⟨⟨⟨?_, ?_, ?_⟩, below⟩, Nat.lt_succ_of_le covered.failures⟩
  · intro call member
    rw [callOnce_calls] at member
    rcases List.mem_append.mp member with old | new
    · exact covered.spent call old
    · rw [List.mem_singleton.mp new]
      exact below
  · rw [callOnce_calls, List.length_append, ← covered.requests]
    rfl
  · exact Nat.le_succ_of_le covered.failures

omit [DecidableEq κ] in
theorem Within.recordFailure {s : Session κ} (within : Within budget s)
    (spare : s.gateway.usage.failures < s.gateway.usage.requests) (provider : String) :
    Within budget (s.recordFailure provider) := by
  obtain ⟨calls, _, usage⟩ := recordFailure_keeps s provider
  refine ⟨⟨?_, ?_, ?_⟩, ?_⟩
  · rw [calls]
    exact within.1.spent
  · rw [calls, usage]
    exact within.1.requests
  · rw [usage]
    exact spare
  · rw [usage]
    exact within.2

omit [DecidableEq κ] in
theorem Within.circuitIsOpen {s s' : Session κ} (within : Within budget s) {provider : String} {isOpen : Bool}
    (looked : s.circuitIsOpen provider = (isOpen, s')) : Within budget s' := by
  obtain ⟨calls, _, _, usage⟩ := s.circuitIsOpen_keeps provider
  rw [looked] at calls usage
  refine ⟨within.1.congr calls (by rw [usage]) (by rw [usage]), ?_⟩
  rw [usage]
  exact within.2

omit [DecidableEq κ] in
theorem Within.wait {s : Session κ} (within : Within budget s) (duration : Nat) : Within budget (s.wait duration) :=
  ⟨within.1.congr rfl rfl rfl, within.2⟩

theorem Covered.recordSuccess {s : Session κ} (covered : Covered budget s) (provider : String)
    (response : CompletionResponse) :
    Covered budget { s with gateway := s.gateway.recordSuccess provider response key } := by
  obtain ⟨breakers, run, _⟩ := s.gateway.recordSuccess_eq provider response key
  rw [run]
  obtain ⟨cache, order, kept⟩ := Gateway.store_eq _ response key
  rw [kept]
  exact covered.congr rfl rfl rfl

/-- A turn within the budget stays covered, and spends nothing unless it is answered. -/
theorem tryProvider_covered (provider : Provider) (index : Nat) {s : Session κ} (within : Within budget s) :
    Yields (tryProvider world request key index provider s) (fun _ => Covered budget) (Within budget) := by
  have answered : ∀ (s' : Session κ) (response : CompletionResponse), Within budget s' →
      (world s'.calls.length).answer = .ok response → Covered budget (callOnce world provider request s').2 :=
    fun s' _ started _ => (started.callOnce provider).1.1
  refine tryProvider_rule ?_ ?_ ?_ answered ?_ ?_ ?_
  · intro s' looked
    have kept := within.circuitIsOpen looked
    exact ⟨kept.1.congr rfl rfl rfl, kept.2⟩
  · exact fun s' looked => within.circuitIsOpen looked
  · exact fun s' started => ⟨started.1.congr rfl rfl rfl, started.2⟩
  · intro s' err started _
    obtain ⟨called, spare⟩ := started.callOnce provider
    exact called.recordFailure spare provider.name
  · exact fun _ s' attempt started => started.wait _
  · exact fun s' response covered => covered.recordSuccess provider.name response

theorem complete_covered {s : Session κ} (limited : s.gateway.config.budgetUsd = some budget)
    (covered : Covered budget s) (request : CompletionRequest) :
    Covered budget (complete world digest request s).2 := by
  rcases complete_cases request s with ⟨err, run⟩ | ⟨hit, _, run⟩ | ⟨_, goes, run⟩
  · rw [run]
    exact covered
  · rw [run]
    exact covered.congr rfl rfl rfl
  · rw [run]
    have turns : Yields (tryProviders world request (digest request.cacheBytes)
        (s.gateway.providers.filter (fun provider => provider.supportsModel request.model)) 0 none s)
        (fun _ => Covered budget) (Within budget) :=
      tryProviders_rule (fun index provider _ _ started => tryProvider_covered provider index started)
        ⟨covered, refusal_none limited goes⟩
    have kept : Yields (tryProviders world request (digest request.cacheBytes)
        (s.gateway.providers.filter (fun provider => provider.supportsModel request.model)) 0 none s)
        (fun _ => Covered budget) (Covered budget) := turns.mono (fun _ _ covered => covered) (fun _ both => both.1)
    exact kept.state

theorem attend_config (s : Session κ) (visit : Visit) :
    (attend world digest s visit).gateway.config = s.gateway.config := by
  cases visit with
  | complete arrival => exact complete_config arrival.request (s.wait arrival.gap)
  | stream arrival => exact (streamFrom_keeps world arrival.request s.gateway.providers (s.wait arrival.gap)).2.1

theorem attendAll_config (world : Nat → Reply) (digest : List UInt8 → κ) (config : GatewayConfig)
    (providers : List Provider) (visits : List Visit) :
    ((start config providers : Session κ).attendAll world digest visits).gateway.config = config := by
  induction visits using List.reverseRecOn with
  | nil => exact (Gateway.fresh_withProviders config providers).config
  | append_singleton front visit ih =>
    rw [attendAll, List.foldl_append]
    exact (attend_config _ visit).trans ih

theorem Covered.stream {s : Session κ} (covered : Covered budget s) {arrival : Arrival}
    (blocked : AllBlocked s arrival) :
    Covered budget (attend world digest s (.stream arrival)) := by
  obtain ⟨calls, usage⟩ := (streamFrom_calls world arrival.request s.gateway.providers (s.wait arrival.gap)).1 blocked
  exact covered.congr calls (congrArg Usage.requests usage) (congrArg Usage.failures usage)

/-- After a stream that called a provider more calls were made than requests counted. -/
theorem stream_uncovered {s : Session κ} (covered : Covered budget s) {arrival : Arrival}
    (again : Covered budget (attend world digest s (.stream arrival))) : AllBlocked s arrival := by
  intro provider member serves
  by_contra free
  have longer := (streamFrom_calls world arrival.request s.gateway.providers (s.wait arrival.gap)).2
    ⟨provider, member, serves, free⟩
  have requests := (streamFrom_keeps world arrival.request s.gateway.providers (s.wait arrival.gap)).1
  have counted : (stream world arrival.request (s.wait arrival.gap)).2.calls.length = s.calls.length :=
    again.requests.symm.trans (requests.trans covered.requests)
  exact Nat.lt_irrefl _ (Nat.lt_of_lt_of_eq longer counted)

/-- Every state of a run is covered exactly when none of its streams finds a provider to call. -/
theorem budget_covers {config : GatewayConfig} (limited : config.budgetUsd = some budget) (providers : List Provider)
    (world : Nat → Reply) (digest : List UInt8 → κ) (visits : List Visit) :
    (∀ front, front <+: visits → Covered budget ((start config providers).attendAll world digest front)) ↔
      ∀ front arrival, front ++ [.stream arrival] <+: visits →
        AllBlocked ((start config providers).attendAll world digest front) arrival := by
  have last : ∀ front visit, (start config providers).attendAll world digest (front ++ [visit]) =
      attend world digest ((start config providers).attendAll world digest front) visit := by
    intro front visit
    simp only [attendAll, List.foldl_append, List.foldl_cons, List.foldl_nil]
  constructor
  · intro covers front arrival within
    have before := covers front ((List.prefix_append front _).trans within)
    have after := covers _ within
    rw [last] at after
    exact stream_uncovered before after
  · intro blocked front
    induction front using List.reverseRecOn with
    | nil =>
      intro _
      have fresh := Gateway.fresh_withProviders (κ := κ) config providers
      refine ⟨fun call member => (by cases member), ?_, ?_⟩
      · exact congrArg Usage.requests fresh.usage
      · change (Gateway.withProviders config providers : Gateway κ).usage.failures ≤ _
        rw [fresh.usage]
        exact Nat.zero_le _
    | append_singleton front visit ih =>
      intro within
      have covered := ih ((List.prefix_append front _).trans within)
      rw [last]
      cases visit with
      | complete arrival =>
        rw [← attendAll_config world digest config providers front] at limited
        generalize (start config providers).attendAll world digest front = s at covered limited ⊢
        have waited : Covered budget (s.wait arrival.gap) := covered.congr rfl rfl rfl
        have limit : (s.wait arrival.gap).gateway.config.budgetUsd = some budget := limited
        exact complete_covered limit waited arrival.request
      | stream arrival => exact covered.stream (blocked front arrival within)

end Session

/-- One stream at a gateway whose budget is spent from the start. -/
def unbilled : Session UInt64 := (Session.start { budgetUsd := some 0 } [mockProvider]).attendAll
  (fun _ => ⟨0, 0, .ok mockResponse, .error (.timeout 30)⟩) stableHash [.stream ⟨0, ask⟩]

/-- The stream reaches the provider: the budget does not stop it, no request is counted, and its failure is. -/
theorem stream_unbilled : unbilled.gateway.config.budgetUsd = some 0 ∧ unbilled.calls.map Call.spent = [0] ∧
    unbilled.gateway.usage.requests = 0 ∧ unbilled.gateway.usage.failures = 1 := ⟨rfl, rfl, rfl, rfl⟩

def oneDollar : GatewayConfig := { budgetUsd := some 1 }

theorem budget_covers_complete : Session.Covered 1
    ((Session.start oneDollar [mockProvider]).attendAll steady stableHash [.complete ⟨0, ask⟩]) := by
  have limited : oneDollar.budgetUsd = some 1 := rfl
  refine (Session.budget_covers limited [mockProvider] steady stableHash [.complete ⟨0, ask⟩]).mpr ?_ _
    (List.prefix_refl _)
  intro front arrival within
  have streams : Visit.stream arrival ∈ [Visit.complete ⟨0, ask⟩] := within.subset (by simp)
  cases List.mem_singleton.mp streams

end Swarm
