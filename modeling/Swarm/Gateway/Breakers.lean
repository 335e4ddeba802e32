import Swarm.Gateway.Cache

namespace Swarm

def Call.failed (call : Call) : Bool :=
  match call.outcome with
  | .failed _ => true
  | _ => false

/-- How many of the last calls to a provider failed one after another. -/
def streak (name : String) (calls : List Call) : Nat :=
  ((calls.filter (fun call => call.provider = name)).reverse.takeWhile Call.failed).length

/-- A call at which the failures in a row reach a number that counts. -/
def Trips (counts : Nat → Prop) (name : String) (calls : List Call) (trip : Call) : Prop :=
  ∃ front, front ++ [trip] <+: calls ∧ trip.provider = name ∧ counts (streak name (front ++ [trip]))

/-- After each such failure the provider is left alone for the reset time. -/
def Respects (limits : GatewayConfig) (counts : Nat → Prop) (name : String) (calls : List Call) : Prop :=
  ∀ front later, front ++ [later] <+: calls → later.provider = name →
    ∀ trip, Trips counts name front trip → trip.returnedAt + fromMillis limits.circuitResetMs ≤ later.startedAt

/-- A budget that is spent from the start. -/
def GatewayConfig.Exhausted (limits : GatewayConfig) : Prop := ∃ budget, limits.budgetUsd = some budget ∧ budget ≤ 0

theorem fromMillis_mono {shorter longer : UInt64} (within : shorter ≤ longer) :
    fromMillis shorter ≤ fromMillis longer := by
  unfold fromMillis
  exact Nat.mul_le_mul_right 1000000 (UInt64.le_iff_toNat_le.mp within)

theorem fromMillis_pos {millis : UInt64} (nonzero : millis ≠ 0) : 0 < fromMillis millis := by
  have positive : millis.toNat ≠ 0 := fun zero => nonzero (UInt64.toNat_inj.mp zero)
  unfold fromMillis
  omega

theorem GatewayConfig.backoff_one (limits : GatewayConfig) : limits.backoff 1 = fromMillis limits.retryBackoffMs := by
  have bound := limits.retryBackoffMs.toNat_lt
  have small : min (limits.retryBackoffMs.toNat * 2 ^ min (1 - 1) 10) (2 ^ 64 - 1) = limits.retryBackoffMs.toNat := by
    simp
    omega
  unfold backoff saturatingMul
  rw [small, UInt64.ofNat_toNat]

/-- The pauses grow. -/
theorem GatewayConfig.retryBackoff_le (limits : GatewayConfig) (attempt : Nat) :
    fromMillis limits.retryBackoffMs ≤ limits.backoff attempt := by
  have bound := limits.retryBackoffMs.toNat_lt
  have longer : limits.retryBackoffMs.toNat ≤ limits.retryBackoffMs.toNat * 2 ^ min (attempt - 1) 10 :=
    Nat.le_mul_of_pos_right _ Nat.one_le_two_pow
  have fits : min (limits.retryBackoffMs.toNat * 2 ^ min (attempt - 1) 10) (2 ^ 64 - 1) < UInt64.size := by
    have size : UInt64.size = 2 ^ 64 := rfl
    omega
  unfold backoff fromMillis saturatingMul
  rw [UInt64.toNat_ofNat_of_lt' fits]
  exact Nat.mul_le_mul_right _ (by omega)

section
variable {name : String} {calls : List Call} {call : Call}

theorem streak_other (other : call.provider ≠ name) : streak name (calls ++ [call]) = streak name calls := by
  unfold streak
  simp [List.filter_append, other]

theorem streak_failed (same : call.provider = name) (failed : call.failed = true) :
    streak name (calls ++ [call]) = streak name calls + 1 := by
  unfold streak
  simp [List.filter_append, same, failed]

theorem streak_responded (same : call.provider = name) (responded : call.failed = false) :
    streak name (calls ++ [call]) = 0 := by
  unfold streak
  simp [List.filter_append, same, responded]

variable {counts : Nat → Prop} {trip : Call}

theorem trips_append : Trips counts name (calls ++ [call]) trip ↔
    Trips counts name calls trip ∨ (trip = call ∧ call.provider = name ∧ counts (streak name (calls ++ [call]))) := by
  constructor
  · rintro ⟨front, within, same, counted⟩
    rcases List.prefix_concat_iff.mp within with whole | earlier
    · obtain ⟨rfl, last⟩ := List.append_inj' whole rfl
      cases last
      exact Or.inr ⟨rfl, same, counted⟩
    · exact Or.inl ⟨front, earlier, same, counted⟩
  · rintro (⟨front, within, same, counted⟩ | ⟨rfl, same, counted⟩)
    · exact ⟨front, within.trans (List.prefix_append _ _), same, counted⟩
    · exact ⟨calls, List.prefix_refl _, same, counted⟩

theorem Trips.mem (trips : Trips counts name calls trip) : trip ∈ calls := by
  obtain ⟨front, within, _⟩ := trips
  exact within.subset (List.mem_append_right front (List.mem_singleton_self trip))

theorem Respects.append {limits : GatewayConfig} (respects : Respects limits counts name calls)
    (last : call.provider = name → ∀ trip, Trips counts name calls trip →
      trip.returnedAt + fromMillis limits.circuitResetMs ≤ call.startedAt) :
    Respects limits counts name (calls ++ [call]) := by
  intro front later within same trip trips
  rcases List.prefix_concat_iff.mp within with whole | earlier
  · obtain ⟨rfl, equal⟩ := List.append_inj' whole rfl
    cases equal
    exact last same trip trips
  · exact respects front later earlier same trip trips

end

theorem Gateway.recordSuccess_breakers {κ : Type} [DecidableEq κ] (g : Gateway κ) (provider : String)
    (response : CompletionResponse) (key : κ) : (g.recordSuccess provider response key).config = g.config ∧
      (∀ other, other ≠ provider → (g.recordSuccess provider response key).breakers.get? other =
        g.breakers.get? other) ∧
      (g.recordSuccess provider response key).breakers.get? provider =
        (g.breakers.get? provider).map (fun _ => ⟨0, none⟩) := by
  obtain ⟨breakers, recorded, others, closes⟩ := g.recordSuccess_eq provider response key
  obtain ⟨cache, order, stored⟩ := Gateway.store_eq _ response key
  rw [recorded, stored]
  exact ⟨rfl, others, closes⟩

namespace Session
variable {κ : Type} {limits : GatewayConfig} {counts : Nat → Prop} {name : String} {s : Session κ}

/-- The reset time after the failure is over. -/
def Expired (limits : GatewayConfig) (s : Session κ) (trip : Call) : Prop :=
  trip.returnedAt + fromMillis limits.circuitResetMs ≤ s.now

/-- The breaker of a provider remembers its failures: while they are fewer than the
threshold it counts them, and from a failure that counts it is open until the reset time is over. -/
structure Guarded (limits : GatewayConfig) (counts : Nat → Prop) (name : String) (s : Session κ) : Prop where
  config : s.gateway.config = limits
  past : ∀ call ∈ s.calls, call.returnedAt ≤ s.now
  breaker : ∃ breaker, s.gateway.breakers.get? name = some breaker ∧
    (streak name s.calls < limits.circuitFailureThreshold → breaker = ⟨streak name s.calls, none⟩) ∧
    ∀ trip, Trips counts name s.calls trip →
      Expired limits s trip ∨ ∃ since, breaker.openedAt = some since ∧ trip.returnedAt ≤ since
  respects : Respects limits counts name s.calls

/-- The provider may be called: no failure that counts is recent. Where it is called once at a time,
its breaker is closed. -/
structure Admitted (limits : GatewayConfig) (counts : Nat → Prop) (name : String) (s : Session κ) : Prop
    extends Guarded limits counts name s where
  expired : ∀ trip, Trips counts name s.calls trip → Expired limits s trip
  closed : limits.maxAttempts ≤ 1 → ∀ breaker, s.gateway.breakers.get? name = some breaker → breaker.openedAt = none

/-- Failures that count are seen by the breaker. -/
def Seen (limits : GatewayConfig) (counts : Nat → Prop) : Prop :=
  ∀ failures, counts failures → 1 ≤ failures ∧
    (failures = limits.circuitFailureThreshold ∨ (limits.circuitFailureThreshold = 1 ∧ limits.maxAttempts ≤ 1) ∨
      limits.circuitResetMs = 0)

theorem Guarded.congr {s' : Session κ} (guarded : Guarded limits counts name s)
    (config : s'.gateway.config = s.gateway.config)
    (breakers : s'.gateway.breakers.get? name = s.gateway.breakers.get? name) (calls : s'.calls = s.calls)
    (later : s.now ≤ s'.now) : Guarded limits counts name s' := by
  obtain ⟨same, past, ⟨breaker, found, counted, held⟩, respects⟩ := guarded
  refine ⟨config.trans same, ?_, ⟨breaker, breakers.trans found, ?_, ?_⟩, ?_⟩
  · rw [calls]
    exact fun call member => (past call member).trans later
  · rw [calls]
    exact counted
  · rw [calls]
    exact fun trip trips => (held trip trips).imp_left (fun expired => Nat.le_trans expired later)
  · rw [calls]
    exact respects

theorem Guarded.wait (guarded : Guarded limits counts name s) (duration : Nat) :
    Guarded limits counts name (s.wait duration) := guarded.congr rfl rfl rfl (Nat.le_add_right _ _)

theorem Guarded.count (guarded : Guarded limits counts name s) (change : Usage → Usage) :
    Guarded limits counts name (s.count change) := guarded.congr rfl rfl rfl le_rfl

theorem Admitted.count (admitted : Admitted limits counts name s) (change : Usage → Usage) :
    Admitted limits counts name (s.count change) :=
  ⟨admitted.toGuarded.count change, admitted.expired, admitted.closed⟩

/-- Looking at a breaker keeps what it knows; where it lets a call through, none of its failures is recent. -/
theorem Guarded.looked (guarded : Guarded limits counts name s) {provider : String} {isOpen : Bool} {s' : Session κ}
    (look : s.circuitIsOpen provider = (isOpen, s')) :
    Guarded limits counts name s' ∧ (isOpen = false → provider = name → Admitted limits counts name s') := by
  unfold circuitIsOpen at look
  rcases s.gateway.circuitIsOpen_cases provider s.now with ⟨_, _, _, _, _, run⟩ |
    ⟨breaker, since, found, opened, late, run⟩ | ⟨closed, run⟩
  · rw [run] at look
    cases look
    exact ⟨guarded, fun shut => (by cases shut)⟩
  · rw [run] at look
    cases look
    by_cases same : provider = name
    · subst same
      obtain ⟨config, past, ⟨breaker', found', counted, held⟩, respects⟩ := guarded
      have equal : breaker' = breaker := Option.some.inj (found'.symm.trans found)
      subst equal
      rw [config] at late
      have expired : ∀ trip, Trips counts provider s.calls trip → Expired limits s trip := by
        intro trip trips
        rcases held trip trips with elapsed | ⟨since', opened', before⟩
        · exact elapsed
        · have past := past trip trips.mem
          have equal : since' = since := Option.some.inj (opened'.symm.trans opened)
          unfold Expired
          omega
      have shut : (s.gateway.breakers.insert provider ⟨0, none⟩).get? provider = some (⟨0, none⟩ : Breaker) :=
        Dict.get?_insert_self
      have known : Guarded limits counts provider
          { s with gateway := { s.gateway with breakers := s.gateway.breakers.insert provider ⟨0, none⟩ } } := by
        refine ⟨config, past, ⟨⟨0, none⟩, shut, ?_, fun trip trips => Or.inl (expired trip trips)⟩, respects⟩
        intro fewer
        rw [counted fewer] at opened
        cases opened
      refine ⟨known, fun _ _ => ⟨known, expired, ?_⟩⟩
      intro _ breaker now
      rw [← Option.some.inj (shut.symm.trans now)]
    · exact ⟨guarded.congr rfl (Dict.get?_insert_of_ne (Ne.symm same)) rfl le_rfl, fun _ equal => absurd equal same⟩
  · rw [run] at look
    cases look
    refine ⟨guarded, fun _ same => ⟨guarded, ?_, ?_⟩⟩
    · subst same
      intro trip trips
      obtain ⟨breaker, found, _, held⟩ := guarded.breaker
      rcases held trip trips with elapsed | ⟨since, opened, _⟩
      · exact elapsed
      · rw [closed breaker found] at opened
        cases opened
    · subst same
      exact fun _ => closed

variable {world : Nat → Reply} {request : CompletionRequest} {provider : Provider}

theorem Guarded.past_call (guarded : Guarded limits counts name s) :
    ∀ call ∈ (callOnce world provider request s).2.calls,
      call.returnedAt ≤ (callOnce world provider request s).2.now := by
  intro call member
  rw [callOnce_calls] at member
  rcases List.mem_append.mp member with old | new
  · exact (guarded.past call old).trans (Nat.le_add_right_of_le (Nat.le_add_right _ _))
  · rw [List.mem_singleton.mp new]
    exact le_rfl

/-- A call to another provider does not concern this one. -/
theorem Guarded.call_other (guarded : Guarded limits counts name s) (other : provider.name ≠ name) :
    Guarded limits counts name (callOnce world provider request s).2 := by
  have past : ∀ call ∈ (callOnce world provider request s).2.calls, _ := guarded.past_call
  obtain ⟨config, _, ⟨breaker, found, counted, held⟩, respects⟩ := guarded
  refine ⟨config, past, ⟨breaker, found, ?_, ?_⟩, ?_⟩
  · rw [callOnce_calls, streak_other other]
    exact counted
  · rw [callOnce_calls]
    intro trip trips
    rcases trips_append.mp trips with old | ⟨_, same, _⟩
    · exact (held trip old).imp_left
        (fun elapsed => Nat.le_trans elapsed (Nat.le_add_right_of_le (Nat.le_add_right _ _)))
    · exact absurd same other
  · rw [callOnce_calls]
    exact respects.append (fun same => absurd same other)

theorem Guarded.failure_other (guarded : Guarded limits counts name s) {provider : String} (other : provider ≠ name) :
    Guarded limits counts name (s.recordFailure provider) := by
  obtain ⟨breakers, recorded, others, _⟩ := s.gateway.recordFailure_eq provider s.now
  have gateway : (s.recordFailure provider).gateway = s.gateway.recordFailure provider s.now := rfl
  refine guarded.congr ?_ ?_ rfl le_rfl
  · rw [gateway, recorded]
  · rw [gateway, recorded]
    exact others name (Ne.symm other)

/-- A call that is let through comes after the reset time of each failure that counts. -/
theorem Admitted.respects_call (admitted : Admitted limits counts name s) :
    Respects limits counts name (callOnce world provider request s).2.calls := by
  rw [callOnce_calls]
  exact admitted.respects.append
    (fun _ trip trips => Nat.le_trans (admitted.expired trip trips) (Nat.le_add_right _ _))

/-- A failure that counts opens the breaker. -/
theorem Admitted.fails (admitted : Admitted limits counts provider.name s) (seen : Seen limits counts)
    {err : SwarmError} (answer : (world s.calls.length).answer = .error err) :
    Guarded limits counts provider.name ((callOnce world provider request s).2.recordFailure provider.name) := by
  obtain ⟨breaker, found, counted, _⟩ := admitted.breaker
  have past : ∀ call ∈ (callOnce world provider request s).2.calls, _ := admitted.past_call
  have respects : Respects _ _ _ (callOnce world provider request s).2.calls := admitted.respects_call
  have calls := callOnce_calls world request provider s
  have now : (callOnce world provider request s).2.now =
    s.now + (world s.calls.length).lag + (world s.calls.length).took := rfl
  have gateway : (callOnce world provider request s).2.gateway =
    (s.count (fun usage => { usage with requests := usage.requests + 1 })).gateway := rfl
  generalize (callOnce world provider request s).2 = s' at past respects calls now gateway ⊢
  obtain ⟨breakers, recorded, _, opens⟩ := s'.gateway.recordFailure_eq provider.name s'.now
  have config : s'.gateway.config = limits := by rw [gateway]; exact admitted.config
  have found' : s'.gateway.breakers.get? provider.name = some breaker := by rw [gateway]; exact found
  rw [found', config, Option.map_some] at opens
  have failed : CallOutcome.ofAnswer (world s.calls.length).answer = .failed err := by rw [answer]; rfl
  have grown : streak provider.name s'.calls = streak provider.name s.calls + 1 := by
    rw [calls]
    refine streak_failed rfl ?_
    unfold Call.failed
    rw [failed]
  have after : (s'.recordFailure provider.name).gateway = s'.gateway.recordFailure provider.name s'.now := rfl
  have kept : (s'.recordFailure provider.name).gateway.breakers = breakers := by rw [after, recorded]
  rw [← kept] at opens
  refine ⟨?_, past, ⟨_, opens, ?_, ?_⟩, respects⟩
  · rw [after, recorded]
    exact config
  · intro fewer
    have fewer : streak provider.name s.calls + 1 < limits.circuitFailureThreshold := by rw [← grown]; exact fewer
    have equal := counted (Nat.lt_of_succ_lt fewer)
    have few : ¬ limits.circuitFailureThreshold ≤ streak provider.name s.calls + 1 := Nat.not_le_of_lt fewer
    change _ = (⟨streak provider.name s'.calls, none⟩ : Breaker)
    rw [equal, grown, if_neg (fun both => few both.1)]
  · intro trip trips
    change Trips counts provider.name s'.calls trip at trips
    rw [calls] at trips
    rcases trips_append.mp trips with old | ⟨rfl, _, counts⟩
    · have elapsed : Expired limits s trip := admitted.expired trip old
      refine Or.inl (Nat.le_trans elapsed ?_)
      change s.now ≤ s'.now
      omega
    rw [← calls, grown] at counts
    obtain ⟨_, exactly | ⟨one, single⟩ | immediate⟩ := seen _ counts
    · have equal := counted (by omega)
      refine Or.inr ⟨s'.now, ?_, le_of_eq now.symm⟩
      rw [equal]
      exact if_pos ⟨le_of_eq exactly.symm, rfl⟩
    · have closed := admitted.closed single breaker found
      refine Or.inr ⟨s'.now, ?_, le_of_eq now.symm⟩
      exact if_pos ⟨by omega, closed⟩
    · refine Or.inl ?_
      have none : fromMillis 0 = 0 := by decide
      unfold Expired
      rw [immediate, none]
      exact le_of_eq now.symm

/-- The provider has just answered. -/
structure Healthy (limits : GatewayConfig) (counts : Nat → Prop) (name : String) (s : Session κ) : Prop where
  config : s.gateway.config = limits
  past : ∀ call ∈ s.calls, call.returnedAt ≤ s.now
  breaker : ∃ breaker, s.gateway.breakers.get? name = some breaker
  cleared : streak name s.calls = 0
  expired : ∀ trip, Trips counts name s.calls trip → Expired limits s trip
  respects : Respects limits counts name s.calls

theorem Admitted.healthy (admitted : Admitted limits counts provider.name s) (seen : Seen limits counts)
    {response : CompletionResponse} (answer : (world s.calls.length).answer = .ok response) :
    Healthy limits counts provider.name (callOnce world provider request s).2 := by
  obtain ⟨breaker, found, _⟩ := admitted.breaker
  have cleared : streak provider.name (callOnce world provider request s).2.calls = 0 := by
    rw [callOnce_calls]
    refine streak_responded rfl ?_
    unfold Call.failed
    rw [answer]
    rfl
  refine ⟨admitted.config, admitted.past_call, ⟨breaker, found⟩, cleared, ?_, admitted.respects_call⟩
  intro trip trips
  rw [callOnce_calls] at trips cleared
  rcases trips_append.mp trips with old | ⟨_, _, counts⟩
  · exact Nat.le_trans (admitted.expired trip old) (Nat.le_add_right_of_le (Nat.le_add_right _ _))
  · rw [cleared] at counts
    exact absurd (seen 0 counts).1 (Nat.not_succ_le_zero 0)

theorem wait_calls (s : Session κ) (duration : Nat) : (s.wait duration).calls = s.calls := rfl

theorem wait_now (s : Session κ) (duration : Nat) : (s.wait duration).now = s.now + duration := rfl

/-- A pause of the reset time lets the next call through. -/
theorem Guarded.rested (guarded : Guarded limits counts name s) (retries : 1 < limits.maxAttempts) {duration : Nat}
    (long : fromMillis limits.circuitResetMs ≤ duration) : Admitted limits counts name (s.wait duration) := by
  refine ⟨guarded.wait duration, ?_, fun single => absurd single (Nat.not_le_of_lt retries)⟩
  intro trip trips
  exact Nat.add_le_add (guarded.past trip trips.mem) long

theorem Guarded.again (guarded : Guarded limits counts name s)
    (spaced : limits.circuitResetMs ≤ limits.retryBackoffMs) (retries : 1 < limits.maxAttempts) (attempt : Nat) :
    Admitted limits counts name (s.wait (s.gateway.config.backoff attempt)) := by
  refine guarded.rested retries ?_
  rw [guarded.config]
  exact (fromMillis_mono spaced).trans (limits.retryBackoff_le attempt)

variable [DecidableEq κ] {key : κ}

theorem Guarded.success_other (guarded : Guarded limits counts name s) {provider : String} (other : provider ≠ name)
    (response : CompletionResponse) :
    Guarded limits counts name { s with gateway := s.gateway.recordSuccess provider response key } := by
  obtain ⟨config, others, _⟩ := s.gateway.recordSuccess_breakers provider response key
  exact guarded.congr config (others name (Ne.symm other)) rfl le_rfl

/-- An answer closes the breaker, and the failures in a row are cleared. -/
theorem Healthy.success (healthy : Healthy limits counts name s) (response : CompletionResponse) :
    Guarded limits counts name { s with gateway := s.gateway.recordSuccess name response key } := by
  obtain ⟨config, _, closes⟩ := s.gateway.recordSuccess_breakers name response key
  obtain ⟨breaker, found⟩ := healthy.breaker
  rw [found, Option.map_some] at closes
  refine ⟨config.trans healthy.config, healthy.past, ⟨_, closes, ?_, ?_⟩, healthy.respects⟩
  · intro _
    change _ = (⟨streak name s.calls, none⟩ : Breaker)
    rw [healthy.cleared]
  · exact fun trip trips => Or.inl (healthy.expired trip trips)

variable (seen : Seen limits counts)
  (spaced : 1 < limits.maxAttempts → limits.circuitResetMs ≤ limits.retryBackoffMs)
include seen spaced

/-- The turn of any provider. -/
theorem tryProvider_guarded (guarded : Guarded limits counts name s) (provider : Provider) (index : Nat) :
    Yields (tryProvider world request key index provider s) (fun _ => Guarded limits counts name)
      (Guarded limits counts name) := by
  by_cases same : provider.name = name
  · subst same
    have answered : ∀ (s' : Session κ) response, Admitted limits counts provider.name s' →
        (world s'.calls.length).answer = .ok response →
        Healthy limits counts provider.name (callOnce world provider request s').2 :=
      fun s' response admitted answer => admitted.healthy seen answer
    refine tryProvider_rule ?_ ?_ ?_ answered ?_ ?_ ?_
    · exact fun s' look => (guarded.looked look).1.count _
    · exact fun s' look => (guarded.looked look).2 rfl rfl
    · exact fun s' admitted => admitted.count _
    · exact fun s' err admitted answer => admitted.fails seen answer
    · intro retries s' attempt failed
      rw [guarded.config] at retries
      exact failed.again (spaced retries) retries attempt
    · exact fun s' response healthy => healthy.success response
  · have answered : ∀ (s' : Session κ) response, Guarded limits counts name s' →
      (world s'.calls.length).answer = .ok response →
        Guarded limits counts name (callOnce world provider request s').2 :=
          fun s' response ready _ => ready.call_other same
    refine tryProvider_rule ?_ ?_ ?_ answered ?_ ?_ ?_
    · exact fun s' look => (guarded.looked look).1.count _
    · exact fun s' look => (guarded.looked look).1
    · exact fun s' ready => ready.count _
    · exact fun s' err ready _ => (ready.call_other same).failure_other same
    · exact fun _ s' attempt failed => failed.wait _
    · exact fun s' response ready => ready.success_other same response

variable {digest : List UInt8 → κ}

theorem serve_guarded (guarded : Guarded limits counts name s) (arrival : Arrival) :
    Guarded limits counts name (serve world digest s arrival) := by
  have waited := guarded.wait arrival.gap
  unfold serve
  rcases complete_cases arrival.request (s.wait arrival.gap) with ⟨err, run⟩ | ⟨hit, _, run⟩ | ⟨_, _, run⟩
  · rw [run]
    exact waited
  · rw [run]
    exact waited.count (fun usage => { usage with cacheHits := usage.cacheHits + 1 })
  · rw [run]
    have turns : Yields (tryProviders world arrival.request (digest arrival.request.cacheBytes)
        ((s.wait arrival.gap).gateway.providers.filter
          (fun provider => provider.supportsModel arrival.request.model)) 0 none
        (s.wait arrival.gap)) (fun _ => Guarded limits counts name) (Guarded limits counts name) := by
      refine tryProviders_rule ?_ waited
      exact fun index provider s' _ ready => tryProvider_guarded seen spaced ready provider index
    exact turns.state

/-- After any requests the failures that count are respected. -/
theorem serveAll_respects (providers : List Provider) (provider : Provider) (member : provider ∈ providers)
    (world : Nat → Reply) (arrivals : List Arrival) :
    Respects limits counts provider.name
      ((start limits providers : Session κ).serveAll world digest arrivals).calls := by
  have guarded : Guarded limits counts provider.name
      ((start limits providers : Session κ).serveAll world digest arrivals) := by
    have keeps : ∀ (s : Session κ) arrival, Guarded limits counts provider.name s →
        Guarded limits counts provider.name (serve world digest s arrival) :=
      fun s arrival ready => serve_guarded seen spaced ready arrival
    refine serveAll_keeps keeps ?_ arrivals
    have fresh := Gateway.fresh_withProviders (κ := κ) limits providers
    have untouched := fresh.breakers provider.name
    rw [if_pos (List.mem_map_of_mem member)] at untouched
    refine ⟨fresh.config, fun call member => (by cases member), ⟨.new, untouched, fun _ => rfl, ?_⟩, ?_⟩
    · intro trip trips
      cases trips.mem
    · intro front later within
      have short := within.length_le
      simp [start] at short
  exact guarded.respects

end Session
end Swarm
