import Swarm.Gateway.Breakers

namespace Swarm

/-- A world in which every call fails at once, each with its own error. -/
def script (errors : Nat → SwarmError) : Nat → Reply := fun n => ⟨0, 0, .error (errors n), .error (errors n)⟩

theorem streak_all {name : String} {calls : List Call}
    (failures : ∀ call ∈ calls, call.provider = name ∧ call.failed = true) : streak name calls = calls.length := by
  induction calls using List.reverseRecOn with
  | nil => rfl
  | append_singleton calls call ih =>
    have last := failures call (List.mem_append_right calls (List.mem_singleton_self call))
    rw [streak_failed last.1 last.2, ih (fun other member => failures other (List.mem_append_left _ member)),
      List.length_append, List.length_singleton]

namespace Session
variable {κ : Type} {limits : GatewayConfig} {s : Session κ} {breaker : Breaker} {errors : Nat → SwarmError}

/-- Nothing but failures of the one provider so far. -/
structure Down (limits : GatewayConfig) (breaker : Breaker) (s : Session κ) : Prop where
  config : s.gateway.config = limits
  providers : s.gateway.providers = [mockProvider]
  cache : s.gateway.cache = .empty
  unspent : s.gateway.usage.costUsd = 0
  breaker : s.gateway.breakers.get? mockProvider.name = some breaker
  failures : ∀ call ∈ s.calls, call.provider = mockProvider.name ∧ call.failed = true

theorem down_start (limits : GatewayConfig) : Down limits .new (start limits [mockProvider] : Session κ) := by
  have fresh := Gateway.fresh_withProviders (κ := κ) limits [mockProvider]
  refine ⟨fresh.config, fresh.providers, fresh.cache, ?_, ?_, fun call member => (by cases member)⟩
  · exact congrArg Usage.costUsd fresh.usage
  · exact fresh.breakers mockProvider.name

theorem Down.wait (down : Down limits breaker s) (duration : Nat) : Down limits breaker (s.wait duration) :=
  ⟨down.config, down.providers, down.cache, down.unspent, down.breaker, down.failures⟩

/-- The call that the script makes fail. -/
def brief (errors : Nat → SwarmError) (s : Session κ) : Call :=
  ⟨mockProvider.name, ask, s.now, s.now, 0, .failed (errors s.calls.length)⟩

/-- The breaker after one more failure. -/
def struck (limits : GatewayConfig) (breaker : Breaker) (now : Nat) : Breaker :=
  ⟨breaker.consecutiveFailures + 1,
    if limits.circuitFailureThreshold ≤ breaker.consecutiveFailures + 1 ∧ breaker.openedAt = none then some now
    else breaker.openedAt⟩

/-- One failing call. -/
def failOnce (errors : Nat → SwarmError) (s : Session κ) : Session κ :=
  (callOnce (script errors) mockProvider ask s).2.recordFailure mockProvider.name

theorem failOnce_now (errors : Nat → SwarmError) (s : Session κ) : (failOnce errors s).now = s.now := rfl

theorem Down.failOnce_calls (down : Down limits breaker s) :
    (failOnce errors s).calls = s.calls ++ [brief errors s] := by
  have calls : (failOnce errors s).calls = (callOnce (script errors) mockProvider ask s).2.calls := rfl
  rw [calls, callOnce_calls, down.unspent]
  rfl

theorem Down.failOnce (down : Down limits breaker s) (errors : Nat → SwarmError) :
    Down limits (struck limits breaker s.now) (failOnce errors s) := by
  have calls : (Session.failOnce errors s).calls = s.calls ++ [brief errors s] := down.failOnce_calls
  let g := (callOnce (script errors) mockProvider ask s).2.gateway
  have gateway : (Session.failOnce errors s).gateway = g.recordFailure mockProvider.name s.now := rfl
  obtain ⟨breakers, recorded, _, opens⟩ := g.recordFailure_eq mockProvider.name s.now
  have config : g.config = limits := down.config
  have found : g.breakers.get? mockProvider.name = some breaker := down.breaker
  rw [found, config, Option.map_some] at opens
  rw [recorded] at gateway
  refine ⟨?_, ?_, ?_, ?_, ?_, ?_⟩
  · rw [gateway]
    exact config
  · rw [gateway]
    exact down.providers
  · rw [gateway]
    exact down.cache
  · rw [gateway]
    exact down.unspent
  · rw [gateway]
    exact opens
  · rw [calls]
    intro call member
    rcases List.mem_append.mp member with old | new
    · exact down.failures call old
    · rw [List.mem_singleton.mp new]
      exact ⟨rfl, rfl⟩

/-- A breaker that lets the next call through, and what it is then. -/
inductive Lets (limits : GatewayConfig) (now : Nat) : Breaker → Breaker → Prop
  | closed (failures : Nat) : Lets limits now ⟨failures, none⟩ ⟨failures, none⟩
  | expired (failures since : Nat) :
      fromMillis limits.circuitResetMs ≤ now - since → Lets limits now ⟨failures, some since⟩ ⟨0, none⟩

theorem Down.looked {breaker' : Breaker} (down : Down limits breaker s) (lets : Lets limits s.now breaker breaker') :
    ∃ s', s.circuitIsOpen mockProvider.name = (false, s') ∧ Down limits breaker' s' ∧ s'.now = s.now ∧
      s'.calls = s.calls := by
  have found := down.breaker
  unfold circuitIsOpen Gateway.circuitIsOpen
  cases lets with
  | closed failures => exact ⟨s, by simp only [found], down, rfl, rfl⟩
  | expired failures since late =>
    rw [← down.config] at late
    have shut : (s.gateway.breakers.insert mockProvider.name ⟨0, none⟩).get? mockProvider.name =
      some (⟨0, none⟩ : Breaker) :=
      Dict.get?_insert_self
    refine ⟨{ s with
      gateway := { s.gateway with breakers := s.gateway.breakers.insert mockProvider.name ⟨0, none⟩ } }, ?_,
      ⟨down.config, down.providers, down.cache, down.unspent, shut, down.failures⟩, rfl, rfl⟩
    simp only [found, if_neg (Nat.not_lt.mpr late)]

variable [DecidableEq κ] {digest : List UInt8 → κ} {breaker' : Breaker}

omit [DecidableEq κ] in
theorem Down.refusal (down : Down limits breaker s) (spends : ¬ limits.Exhausted) : s.gateway.refusal = none := by
  unfold Gateway.refusal
  rw [down.config, down.unspent]
  cases limited : limits.budgetUsd with
  | none => rfl
  | some budget => exact if_neg (fun spent => spends ⟨budget, limited, spent⟩)

theorem Down.lookup (down : Down limits breaker s) (request : CompletionRequest) (key : κ) :
    s.gateway.lookup request key = none := by
  unfold Gateway.lookup
  rw [down.cache]
  split <;> rfl

/-- A request turns to the one provider. -/
theorem Down.serve (down : Down limits breaker s) (spends : ¬ limits.Exhausted) (world : Nat → Reply) (gap : Nat) :
    serve world digest s ⟨gap, ask⟩ =
      (tryProvider world ask (digest ask.cacheBytes) 0 mockProvider (s.wait gap)).2 := by
  have lookup := (down.wait gap).lookup ask (digest ask.cacheBytes)
  have refusal := (down.wait gap).refusal spends
  have known : (s.wait gap).gateway.providers = [mockProvider] := down.providers
  unfold Session.serve complete
  simp only [lookup, refusal, known]
  have all : [mockProvider].filter (fun provider => provider.supportsModel ask.model) = [mockProvider] := rfl
  rw [all]
  unfold tryProviders
  generalize tryProvider world ask (digest ask.cacheBytes) 0 mockProvider (s.wait gap) = result
  obtain ⟨answer, s'⟩ := result
  cases answer <;> rfl

theorem Down.turn (down : Down limits breaker s) (errors : Nat → SwarmError) (key : κ)
    (lets : Lets limits s.now breaker breaker') :
    ∃ s', Down limits breaker' s' ∧ s'.now = s.now ∧ s'.calls = s.calls ∧
      ∀ s'' err, callWithRetries (script errors) mockProvider ask s' = (.error err, s'') →
        tryProvider (script errors) ask key 0 mockProvider s = (.error err, s'') := by
  obtain ⟨s', look, down', now, calls⟩ := down.looked lets
  refine ⟨s', down', now, calls, ?_⟩
  intro s'' err run
  unfold tryProvider
  simp only [look, Nat.lt_irrefl, if_false, run]

omit [DecidableEq κ] in
theorem attempts_final {s : Session κ} (fatal : (errors s.calls.length).isRetryable = false) (left attempt : Nat) :
    attempts (script errors) mockProvider ask left attempt s =
      (.error (errors s.calls.length), Session.failOnce errors s) := by
  rw [attempts_error rfl, if_neg]
  · rfl
  · rintro ⟨_, retries⟩
    exact Bool.false_ne_true (fatal.symm.trans retries)

/-- A request whose one call fails. -/
theorem Down.serve_once (down : Down limits breaker s) (spends : ¬ limits.Exhausted) (errors : Nat → SwarmError)
    (digest : List UInt8 → κ) (gap : Nat)
    (lets : Lets limits (s.now + gap) breaker breaker')
    (final : limits.maxAttempts ≤ 1 ∨ (errors s.calls.length).isRetryable = false) :
    Down limits (struck limits breaker' (s.now + gap)) (Session.serve (script errors) digest s ⟨gap, ask⟩) ∧
      (Session.serve (script errors) digest s ⟨gap, ask⟩).now = s.now + gap ∧
      ∃ err, (Session.serve (script errors) digest s ⟨gap, ask⟩).calls =
        s.calls ++ [⟨mockProvider.name, ask, s.now + gap, s.now + gap, 0, .failed err⟩] := by
  obtain ⟨s', down', now, calls, run⟩ := (down.wait gap).turn errors (digest ask.cacheBytes) lets
  have failed : callWithRetries (script errors) mockProvider ask s' =
      (.error (errors s'.calls.length), Session.failOnce errors s') := by
    unfold callWithRetries
    rw [attempts_error rfl, if_neg]
    · rfl
    · rintro ⟨more, retries⟩
      rcases final with single | fatal
      · rw [down'.config] at more
        omega
      · rw [calls] at retries
        exact Bool.false_ne_true (fatal.symm.trans retries)
  rw [down.serve spends, run _ _ failed]
  have after := down'.failOnce errors
  rw [now] at after
  refine ⟨after, (failOnce_now errors s').trans now, errors s'.calls.length, ?_⟩
  change (Session.failOnce errors s').calls = _
  rw [down'.failOnce_calls]
  unfold brief
  rw [now, calls]
  rfl

/-- A request whose first call fails and is retried. -/
theorem Down.serve_twice (down : Down limits breaker s) (spends : ¬ limits.Exhausted) (errors : Nat → SwarmError)
    (digest : List UInt8 → κ) (gap : Nat)
    (lets : Lets limits (s.now + gap) breaker breaker') (more : 2 ≤ limits.maxAttempts)
    (retryable : (errors s.calls.length).isRetryable = true)
    (fatal : (errors (s.calls.length + 1)).isRetryable = false) :
    Down limits (struck limits (struck limits breaker' (s.now + gap)) (s.now + gap + limits.backoff 1))
        (Session.serve (script errors) digest s ⟨gap, ask⟩) ∧
      (Session.serve (script errors) digest s ⟨gap, ask⟩).now = s.now + gap + limits.backoff 1 ∧
      ∃ err err', (Session.serve (script errors) digest s ⟨gap, ask⟩).calls =
        s.calls ++ [⟨mockProvider.name, ask, s.now + gap, s.now + gap, 0, .failed err⟩] ++
          [⟨mockProvider.name, ask, s.now + gap + limits.backoff 1, s.now + gap + limits.backoff 1, 0,
            .failed err'⟩] := by
  obtain ⟨s', down', now, calls, run⟩ := (down.wait gap).turn errors (digest ask.cacheBytes) lets
  have first := down'.failOnce errors
  have grown : (Session.failOnce errors s').calls = s'.calls ++ [brief errors s'] := down'.failOnce_calls
  have paused : ∀ pause, ((Session.failOnce errors s').wait pause).calls = s'.calls ++ [brief errors s'] :=
    fun _ => grown
  have failed : callWithRetries (script errors) mockProvider ask s' =
      (.error (errors ((Session.failOnce errors s').wait (limits.backoff 1)).calls.length),
        Session.failOnce errors ((Session.failOnce errors s').wait (limits.backoff 1))) := by
    have retried : 0 < s'.gateway.config.maxAttempts - 1 ∧ (errors s'.calls.length).isRetryable = true := by
      rw [down'.config, calls]
      exact ⟨by omega, retryable⟩
    have same : (Session.failOnce errors s').gateway.config = limits := first.config
    unfold callWithRetries
    rw [attempts_error rfl, if_pos retried]
    unfold Session.failOnce at same paused ⊢
    rw [same]
    generalize limits.backoff 1 = pause
    refine attempts_final ?_ _ _
    rw [paused, calls, List.length_append, List.length_singleton]
    exact fatal
  rw [down.serve spends, run _ _ failed]
  generalize limits.backoff 1 = pause
  have later : ((Session.failOnce errors s').wait pause).now = s.now + gap + pause :=
    congrArg (fun time => time + pause) now
  have second := (first.wait pause).failOnce errors
  rw [later, now] at second
  refine ⟨second, (failOnce_now errors _).trans later, errors s'.calls.length,
    errors ((Session.failOnce errors s').wait pause).calls.length, ?_⟩
  have order : (Session.failOnce errors ((Session.failOnce errors s').wait pause)).calls =
      (Session.failOnce errors s').calls ++ [brief errors ((Session.failOnce errors s').wait pause)] :=
    (first.wait pause).failOnce_calls
  change (Session.failOnce errors ((Session.failOnce errors s').wait pause)).calls = _
  rw [order]
  unfold brief
  rw [later, grown]
  unfold brief
  rw [now, calls]
  rfl

theorem serveAll_append (world : Nat → Reply) (digest : List UInt8 → κ) (s : Session κ) (front : List Arrival)
    (arrival : Arrival) :
    serveAll world digest s (front ++ [arrival]) =
      Session.serve world digest (serveAll world digest s front) arrival := by
  simp only [serveAll, List.foldl_append, List.foldl_cons, List.foldl_nil]

/-- As many failing requests at once as the breaker bears, or fewer. -/
theorem outage (spends : ¬ limits.Exhausted) (positive : 1 ≤ limits.circuitFailureThreshold)
    (errors : Nat → SwarmError) (digest : List UInt8 → κ) {failures : Nat}
    (few : failures ≤ limits.circuitFailureThreshold)
    (fatal : ∀ n, n < failures → (errors n).isRetryable = false) (s : Session κ)
    (reached : s = (start limits [mockProvider]).serveAll (script errors) digest (List.replicate failures ⟨0, ask⟩)) :
    Down limits ⟨failures, if limits.circuitFailureThreshold ≤ failures then some 0 else none⟩ s ∧ s.now = 0 ∧
      s.calls.length = failures := by
  induction failures generalizing s with
  | zero =>
    rw [if_neg (by omega), reached]
    exact ⟨down_start limits, rfl, rfl⟩
  | succ failures ih =>
    obtain ⟨down, now, length⟩ := ih (by omega) (fun n less => fatal n (by omega)) _ rfl
    rw [List.replicate_succ', serveAll_append] at reached
    rw [if_neg (by omega)] at down
    generalize (start limits [mockProvider]).serveAll (script errors) digest (List.replicate failures ⟨0, ask⟩) = s'
      at down now length reached
    have final : limits.maxAttempts ≤ 1 ∨ (errors s'.calls.length).isRetryable = false :=
      Or.inr (by rw [length]; exact fatal failures (Nat.lt_succ_self _))
    obtain ⟨after, later, err, calls⟩ := down.serve_once spends errors digest 0 (.closed failures) final
    rw [now] at after
    rw [reached]
    refine ⟨?_, later.trans (by rw [now]), ?_⟩
    · unfold struck at after
      simp only [and_true, Nat.add_zero] at after
      exact after
    · refine (congrArg List.length calls).trans ?_
      rw [List.length_append, length]
      rfl

variable {counts : Nat → Prop}

omit [DecidableEq κ] in
/-- Where only the one provider was called and always failed, a failure that counts and the next call. -/
theorem Down.early {front : List Call} {trip later : Call} (down : Down limits breaker s)
    (calls : s.calls = front ++ [trip] ++ [later]) (counted : counts (front.length + 1))
    (early : later.startedAt < trip.returnedAt + fromMillis limits.circuitResetMs) :
    ¬ Respects limits counts mockProvider.name s.calls := by
  have failures := down.failures
  rw [calls] at failures ⊢
  intro respects
  have before : ∀ call ∈ front ++ [trip], call.provider = mockProvider.name ∧ call.failed = true :=
    fun call member => failures call (List.mem_append_left _ member)
  have same := (failures later (List.mem_append_right _ (List.mem_singleton_self later))).1
  have trips : Trips counts mockProvider.name (front ++ [trip]) trip := by
    refine ⟨front, List.prefix_refl _, (before trip (List.mem_append_right _ (List.mem_singleton_self trip))).1, ?_⟩
    rw [streak_all before, List.length_append]
    exact counted
  exact Nat.not_le_of_lt early (respects (front ++ [trip]) later (List.prefix_refl _) same trip trips)

/-- A gateway without a budget left calls nobody. -/
theorem exhausted_calls (exhausted : limits.Exhausted) (providers : List Provider) (world : Nat → Reply)
    (digest : List UInt8 → κ) (arrivals : List Arrival) :
    ((start limits providers).serveAll world digest arrivals).calls = [] := by
  obtain ⟨budget, limited, spent⟩ := exhausted
  let inv : Session κ → Prop := fun s => s.gateway.config = limits ∧ s.gateway.usage.costUsd = 0 ∧ s.calls = []
  have keeps : ∀ s arrival, inv s → inv (Session.serve world digest s arrival) := by
    rintro s arrival ⟨config, unspent, calls⟩
    unfold Session.serve
    rcases complete_cases arrival.request (s.wait arrival.gap) with ⟨err, run⟩ | ⟨hit, _, run⟩ | ⟨_, goes, _⟩
    · rw [run]
      exact ⟨config, unspent, calls⟩
    · rw [run]
      exact ⟨config, unspent, calls⟩
    · have config : (s.wait arrival.gap).gateway.config = limits := config
      have unspent : (s.wait arrival.gap).gateway.usage.costUsd = 0 := unspent
      unfold Gateway.refusal at goes
      rw [config, unspent, limited] at goes
      simp only [if_pos spent] at goes
      cases goes
  have fresh := Gateway.fresh_withProviders (κ := κ) limits providers
  have first : inv (start limits providers) := ⟨fresh.config, congrArg Usage.costUsd fresh.usage, rfl⟩
  exact (serveAll_keeps keeps first arrivals).2.2

theorem exhausted_respects (exhausted : limits.Exhausted) (providers : List Provider) (name : String)
    (world : Nat → Reply) (digest : List UInt8 → κ) (arrivals : List Arrival) :
    Respects limits counts name ((start limits providers).serveAll world digest arrivals).calls := by
  rw [exhausted_calls exhausted]
  intro front later within
  have short := within.length_le
  simp at short

/-- A breaker with retries behind it: the last failure it bears is followed by another call after the pause. -/
theorem retry_early (counts : Nat → Prop) (spends : ¬ limits.Exhausted)
    (positive : 1 ≤ limits.circuitFailureThreshold) (retries : 2 ≤ limits.maxAttempts)
    (close : ¬ limits.circuitResetMs ≤ limits.retryBackoffMs) (counted : counts limits.circuitFailureThreshold)
    (digest : List UInt8 → κ) :
    ∃ world arrivals, ¬ Respects limits counts mockProvider.name
      ((start limits [mockProvider]).serveAll world digest arrivals).calls := by
  let errors : Nat → SwarmError := fun n => if n + 1 = limits.circuitFailureThreshold then .timeout 0 else .config ""
  have fatal : ∀ n, n + 1 ≠ limits.circuitFailureThreshold → (errors n).isRetryable = false := by
    intro n other
    change (if n + 1 = limits.circuitFailureThreshold then SwarmError.timeout 0 else .config "").isRetryable = false
    rw [if_neg other]
    rfl
  obtain ⟨down, now, length⟩ := outage spends positive errors digest (Nat.sub_le _ 1)
    (fun n less => fatal n (by omega)) _ rfl
  refine ⟨script errors, List.replicate (limits.circuitFailureThreshold - 1) ⟨0, ask⟩ ++ [⟨0, ask⟩], ?_⟩
  rw [serveAll_append]
  generalize (start limits [mockProvider]).serveAll (script errors) digest
    (List.replicate (limits.circuitFailureThreshold - 1) ⟨0, ask⟩) = s at down now length ⊢
  rw [if_neg (by omega)] at down
  have retryable : (errors s.calls.length).isRetryable = true := by
    rw [length]
    change (if _ = _ then SwarmError.timeout 0 else .config "").isRetryable = true
    rw [if_pos (by omega)]
    rfl
  obtain ⟨after, _, err, err', calls⟩ := down.serve_twice spends errors digest 0 (.closed _) retries retryable
    (by rw [length]; exact fatal _ (by omega))
  refine after.early calls (by rw [length, Nat.sub_add_cancel positive]; exact counted) ?_
  have short : fromMillis limits.retryBackoffMs < fromMillis limits.circuitResetMs :=
    Nat.mul_lt_mul_of_pos_right (Nat.lt_of_not_le close) (by decide)
  change s.now + 0 + limits.backoff 1 < s.now + 0 + fromMillis limits.circuitResetMs
  rw [limits.backoff_one]
  omega

/-- Every call fails for good. -/
def broken : Nat → Reply := script (fun _ => .config "")

/-- The breaker is forgetful: after the reset time it counts from nothing, and the failed probe does not open it. -/
theorem probe_failed (spends : ¬ limits.Exhausted) (several : 1 < limits.circuitFailureThreshold)
    (digest : List UInt8 → κ) (s : Session κ)
    (reached : s = (start limits [mockProvider]).serveAll broken digest
      (List.replicate limits.circuitFailureThreshold ⟨0, ask⟩)) :
    Down limits ⟨limits.circuitFailureThreshold, some 0⟩ s ∧ s.now = 0 ∧
      s.calls.length = limits.circuitFailureThreshold ∧
    ∃ breaker probe later,
      Down limits breaker (serveAll broken digest s [⟨fromMillis limits.circuitResetMs, ask⟩, ⟨0, ask⟩]) ∧
      (serveAll broken digest s [⟨fromMillis limits.circuitResetMs, ask⟩, ⟨0, ask⟩]).calls = s.calls ++
        [probe] ++ [later] ∧
      probe.returnedAt = fromMillis limits.circuitResetMs ∧ later.startedAt = fromMillis limits.circuitResetMs := by
  obtain ⟨down, now, length⟩ := outage spends (Nat.le_of_lt several) _ digest le_rfl (fun _ _ => rfl) s reached
  rw [if_pos le_rfl] at down
  refine ⟨down, now, length, ?_⟩
  have late : fromMillis limits.circuitResetMs ≤ s.now + fromMillis limits.circuitResetMs - 0 := by
    rw [now]
    omega
  obtain ⟨down', now', err, calls'⟩ := down.serve_once spends (fun _ => .config "") digest
    (fromMillis limits.circuitResetMs) (.expired _ 0 late) (Or.inr rfl)
  have forgets : struck limits ⟨0, none⟩ (s.now + fromMillis limits.circuitResetMs) = ⟨1, none⟩ := by
    unfold struck
    rw [if_neg (fun both => Nat.not_le_of_lt several both.1)]
  rw [forgets] at down'
  obtain ⟨down'', _, err', calls''⟩ := down'.serve_once spends (fun _ => .config "") digest 0
    (.closed 1) (Or.inr rfl)
  refine ⟨_, _, _, down'', calls''.trans (congrArg (fun calls => calls ++ _) calls'), ?_, ?_⟩
  · change s.now + _ = _
    rw [now, Nat.zero_add]
  · change _ + 0 = _
    rw [now', now, Nat.zero_add, Nat.add_zero]

theorem probe_early (counts : Nat → Prop) (spends : ¬ limits.Exhausted) (several : 1 < limits.circuitFailureThreshold)
    (waits : limits.circuitResetMs ≠ 0) (counted : counts (limits.circuitFailureThreshold + 1))
    (digest : List UInt8 → κ) :
    ∃ world arrivals, ¬ Respects limits counts mockProvider.name
      ((start limits [mockProvider]).serveAll world digest arrivals).calls := by
  obtain ⟨_, _, length, breaker, probe, later, down, calls, returned, started⟩ :=
    probe_failed spends several digest _ rfl
  refine ⟨broken, List.replicate limits.circuitFailureThreshold ⟨0, ask⟩ ++
    [⟨fromMillis limits.circuitResetMs, ask⟩, ⟨0, ask⟩], ?_⟩
  unfold serveAll at *
  rw [List.foldl_append]
  refine down.early calls (by rw [length]; exact counted) ?_
  rw [returned, started]
  exact Nat.lt_add_of_pos_right (fromMillis_pos waits)

/-- A breaker that opens at the first failure does not see the second one. -/
theorem again_early (counts : Nat → Prop) (spends : ¬ limits.Exhausted) (single : limits.circuitFailureThreshold = 1)
    (retries : 2 ≤ limits.maxAttempts) (far : limits.circuitResetMs ≤ limits.retryBackoffMs)
    (waits : limits.circuitResetMs ≠ 0) (counted : counts 2) (digest : List UInt8 → κ) :
    ∃ world arrivals, ¬ Respects limits counts mockProvider.name
      ((start limits [mockProvider]).serveAll world digest arrivals).calls := by
  let errors : Nat → SwarmError := fun n => if n = 0 then .timeout 0 else .config ""
  obtain ⟨down, now, err, err', calls⟩ := (down_start limits).serve_twice spends errors digest 0
    (.closed 0) retries rfl rfl
  have open' : struck limits (struck limits ⟨0, none⟩ 0) (limits.backoff 1) = ⟨2, some 0⟩ := by
    simp [struck, single]
  have zero : (start limits [mockProvider] : Session κ).now + 0 + limits.backoff 1 = limits.backoff 1 :=
    Nat.zero_add _
  rw [zero] at down now calls
  change Down limits (struck limits (struck limits ⟨0, none⟩ 0) (limits.backoff 1)) _ at down
  rw [open'] at down
  refine ⟨script errors, [⟨0, ask⟩] ++ [⟨0, ask⟩], ?_⟩
  rw [serveAll_append]
  change ¬ Respects limits counts mockProvider.name (Session.serve (script errors) digest
    (Session.serve (script errors) digest (start limits [mockProvider]) ⟨0, ask⟩) ⟨0, ask⟩).calls
  generalize Session.serve (script errors) digest (start limits [mockProvider]) ⟨0, ask⟩ = s at down now calls ⊢
  have paused : fromMillis limits.circuitResetMs ≤ limits.backoff 1 := by
    rw [limits.backoff_one]
    exact fromMillis_mono far
  have late : fromMillis limits.circuitResetMs ≤ s.now + 0 - 0 := by omega
  have fatal : (errors s.calls.length).isRetryable = false := by
    rw [calls]
    rfl
  obtain ⟨after, _, last, calls'⟩ := down.serve_once spends errors digest 0 (.expired 2 0 late) (Or.inr fatal)
  rw [calls] at calls'
  refine after.early calls' counted ?_
  have positive := fromMillis_pos waits
  change s.now + 0 < limits.backoff 1 + fromMillis limits.circuitResetMs
  omega

end Session
end Swarm
