import Mathlib.Tactic.Linarith
import Swarm.Gateway.Polling
import Swarm.Gateway.Questions
import Swarm.Gateway.Spend
import Swarm.Lib.Vec

namespace Swarm

namespace CompletePoint

/-- Past the checks that come before the first provider, and without an answer. -/
def isAdmitted : CompletePoint → Bool
  | admitting _ | calling _ | sleeping _ => true
  | _ => false

/-- The response found in the cache. -/
def found : CompletePoint → Option CompletionResponse
  | hit response => some response
  | _ => none

/-- On the way to a provider, or turned away. -/
def isTurning : CompletePoint → Bool
  | admitting _ | sleeping _ | refused _ => true
  | _ => false

/-- A provider has been called once more than has failed. -/
def isCalled : CompletePoint → Bool
  | calling _ | served _ => true
  | _ => false

theorem of_turning {point : CompletePoint} (turning : point.isTurning = true) :
    point.paid = none ∧ point.found = none ∧ point.isCalled = false ∧ ∀ response, point ≠ .served response := by
  cases point with
  | admitting | sleeping | refused => exact ⟨rfl, rfl, rfl, fun _ absurd => by cases absurd⟩
  | _ => cases turning

end CompletePoint

namespace Gateway
variable {κ : Type}

/-- The way to the next provider: breakers are looked at, and what that came to is counted. -/
structure Turned (g g' : Gateway κ) : Prop where
  config : g'.config = g.config
  cache : g'.cache = g.cache
  spend : g'.usage.spend = g.usage.spend
  requests : g'.usage.requests = g.usage.requests
  failures : g'.usage.failures = g.usage.failures
  cacheHits : g'.usage.cacheHits = g.usage.cacheHits

theorem Turned.refl (g : Gateway κ) : Turned g g := ⟨rfl, rfl, rfl, rfl, rfl, rfl⟩

theorem Turned.trans {g g' g'' : Gateway κ} (first : Turned g g') (second : Turned g' g'') : Turned g g'' :=
  ⟨second.config.trans first.config, second.cache.trans first.cache, second.spend.trans first.spend,
    second.requests.trans first.requests, second.failures.trans first.failures,
      second.cacheHits.trans first.cacheHits⟩

theorem turned_circuitIsOpen (g : Gateway κ) (provider : String) (now : Nat) :
    Turned g (g.circuitIsOpen provider now).2 :=
  ⟨g.circuitIsOpen_config provider now, (g.circuitIsOpen_cache provider now).1, by rw [g.circuitIsOpen_usage],
    by rw [g.circuitIsOpen_usage], by rw [g.circuitIsOpen_usage], by rw [g.circuitIsOpen_usage]⟩

theorem nextTurn_turned (now : Nat) (providers : List Provider) (index : Nat) (lastError : Option SwarmError)
    (g : Gateway κ) : Turned g (nextTurn now providers index lastError g).1 ∧
      (nextTurn now providers index lastError g).2.isTurning = true := by
  induction providers generalizing index lastError g with
  | nil => exact ⟨.refl g, rfl⟩
  | cons provider rest ih =>
    have looked := g.turned_circuitIsOpen provider.name now
    unfold nextTurn
    generalize g.circuitIsOpen provider.name now = look at looked ⊢
    obtain ⟨isOpen, g'⟩ := look
    cases isOpen with
    | true =>
      have counted : Turned g'
        (g'.count (fun usage => { usage with circuitRejections := usage.circuitRejections + 1 })) :=
        ⟨rfl, rfl, rfl, rfl, rfl, rfl⟩
      obtain ⟨more, turning⟩ := ih (index + 1) (some (.circuitOpen provider.name)) _
      exact ⟨(looked.trans counted).trans more, turning⟩
    | false =>
      refine ⟨?_, rfl⟩
      simp only
      split
      · exact looked.trans ⟨rfl, rfl, rfl, rfl, rfl, rfl⟩
      · exact looked

variable [DecidableEq κ]

/-- What one await of a call comes to. -/
inductive Polled (request : CompletionRequest) (key : κ) (now : Nat) (reply : Except SwarmError CompletionResponse)
    (g : Gateway κ) (point : CompletePoint) : Gateway κ → CompletePoint → Prop
  | rests : point.answer.isSome = true → Polled request key now reply g point g point
  | refused {err : SwarmError} : point = .asked → Polled request key now reply g point g (.refused err)
  | hit {response : CompletionResponse} : point = .asked → g.lookup request key = some response →
      Polled request key now reply g point (g.count (fun usage => { usage with cacheHits := usage.cacheHits + 1 }))
        (.hit response)
  | asked {g' : Gateway κ} {point' : CompletePoint} : point = .asked → g.refusal = none → Turned g g' →
      point'.isTurning = true → Polled request key now reply g point g' point'
  | called {turn : Turn} : point = .admitting turn → Polled request key now reply g point
      (g.count (fun usage => { usage with requests := usage.requests + 1 })) (.calling turn)
  | served {turn : Turn} {response : CompletionResponse} : point = .calling turn → reply = .ok response →
      Polled request key now reply g point (g.recordSuccess turn.provider.name response key) (.served response)
  | failed {turn : Turn} {err : SwarmError} {g' : Gateway κ} {point' : CompletePoint} : point = .calling turn →
      reply = .error err → Turned (g.recordFailure turn.provider.name now) g' → point'.isTurning = true →
      Polled request key now reply g point g' point'
  | woke {turn : Turn} : point = .sleeping turn → Polled request key now reply g point g (.admitting turn)

theorem poll_polled (request : CompletionRequest) (key : κ) (now : Nat) (reply : Except SwarmError CompletionResponse)
    (g : Gateway κ) (point : CompletePoint) : Polled request key now reply g point
      (g.poll request key now reply point).1 (g.poll request key now reply point).2 := by
  cases point with
  | asked =>
    simp only [poll, check]
    split
    · exact .refused rfl
    · split
      · rename_i kept
        exact .hit rfl kept
      · split
        · exact .refused rfl
        · rename_i goes
          split
          · exact .refused rfl
          · obtain ⟨turned, turning⟩ := nextTurn_turned now
              (g.providers.filter (fun provider => provider.supportsModel request.model)) 0 none g
            exact .asked rfl goes turned turning
  | admitting turn => exact .called rfl
  | calling turn =>
    cases reply with
    | ok response => exact .served rfl rfl
    | error err =>
      simp only [poll]
      split
      · obtain ⟨turned, turning⟩ := nextTurn_turned now turn.rest (turn.index + 1) (some err)
          (g.recordFailure turn.provider.name now)
        exact .failed rfl rfl turned turning
      · exact .failed rfl rfl (.refl _) rfl
  | sleeping turn => exact .woke rfl
  | hit response => exact .rests rfl
  | served response => exact .rests rfl
  | refused err => exact .rests rfl

variable {request : CompletionRequest} {key : κ} {now : Nat} {reply : Except SwarmError CompletionResponse}
  {g g' : Gateway κ} {point point' : CompletePoint}

omit [DecidableEq κ] in
theorem recordFailure_config (g : Gateway κ) (provider : String) (now : Nat) :
    (g.recordFailure provider now).config = g.config ∧ (g.recordFailure provider now).cache = g.cache ∧
      (g.recordFailure provider now).usage.cacheHits = g.usage.cacheHits ∧
      (g.recordFailure provider now).usage.requests = g.usage.requests ∧
      (g.recordFailure provider now).usage.failures = g.usage.failures + 1 := by
  obtain ⟨breakers, run, _⟩ := g.recordFailure_eq provider now
  rw [run]
  exact ⟨rfl, rfl, rfl, rfl, rfl⟩

theorem recordSuccess_config (g : Gateway κ) (provider : String) (response : CompletionResponse) (key : κ) :
    (g.recordSuccess provider response key).config = g.config ∧
      (g.recordSuccess provider response key).usage.cacheHits = g.usage.cacheHits ∧
      (g.recordSuccess provider response key).usage.requests = g.usage.requests ∧
      (g.recordSuccess provider response key).usage.failures = g.usage.failures ∧
      ∀ other kept, (g.recordSuccess provider response key).cache.get? other = some kept →
        other = key ∧ kept = response ∨ g.cache.get? other = some kept := by
  obtain ⟨breakers, run, _⟩ := g.recordSuccess_eq provider response key
  rw [run]
  unfold store
  simp only
  split
  · refine ⟨rfl, rfl, rfl, rfl, ?_⟩
    intro other kept found
    have inserted := Session.evict_get? found
    rw [Dict.get?_insert] at inserted
    split at inserted
    · rename_i same
      cases inserted
      exact Or.inl ⟨same, rfl⟩
    · exact Or.inr inserted
  · exact ⟨rfl, rfl, rfl, rfl, fun _ _ found => Or.inr found⟩

theorem Polled.config (polled : Polled request key now reply g point g' point') : g'.config = g.config := by
  cases polled with
  | rests | refused | hit | called | woke => rfl
  | asked _ _ turned => exact turned.config
  | served => exact (g.recordSuccess_config _ _ key).1
  | failed _ _ turned => exact turned.config.trans (g.recordFailure_config _ now).1

/-- Every hit is counted. -/
theorem Polled.hits (polled : Polled request key now reply g point g' point') :
    g'.usage.cacheHits + point.found.toList.length = g.usage.cacheHits + point'.found.toList.length := by
  cases polled with
  | rests | refused here | called here | woke here => first | rfl | rw [here]; rfl
  | hit here => rw [here]; rfl
  | asked here _ turned turning => rw [turned.cacheHits, here, (CompletePoint.of_turning turning).2.1]; rfl
  | served here => rw [(g.recordSuccess_config _ _ key).2.1, here]; rfl
  | failed here _ turned turning =>
    rw [turned.cacheHits, (g.recordFailure_config _ now).2.2.1, here, (CompletePoint.of_turning turning).2.1]
    rfl

/-- Every call to a provider is counted, and every one that fails. -/
theorem Polled.requests (polled : Polled request key now reply g point g' point') :
    g'.usage.requests + (g.usage.failures + point.isCalled.toNat) =
      g.usage.requests + (g'.usage.failures + point'.isCalled.toNat) := by
  cases polled with
  | rests => rfl
  | refused here => rw [here]; rfl
  | hit here => rw [here]; rfl
  | woke here => rw [here]; rfl
  | called here =>
    rw [here]
    simp only [count, CompletePoint.isCalled, Bool.toNat_false, Bool.toNat_true]
    omega
  | asked here _ turned turning =>
    rw [turned.requests, turned.failures, here, (CompletePoint.of_turning turning).2.2.1]
    rfl
  | served here =>
    obtain ⟨_, _, requests, failures, _⟩ := g.recordSuccess_config _ _ key
    rw [requests, failures, here]
    rfl
  | failed here _ turned turning =>
    obtain ⟨_, _, _, requests, failures⟩ := g.recordFailure_config _ now
    rw [turned.requests, turned.failures, requests, failures, here, (CompletePoint.of_turning turning).2.2.1]
    rfl

/-- What is kept was kept before, or is what the call has just been served. -/
theorem Polled.cache (polled : Polled request key now reply g point g' point') {other : κ} {kept : CompletionResponse}
    (found : g'.cache.get? other = some kept) :
    g.cache.get? other = some kept ∨ other = key ∧ point' = .served kept := by
  cases polled with
  | rests | refused | hit | called | woke => exact Or.inl found
  | asked _ _ turned => exact Or.inl (by rw [← turned.cache]; exact found)
  | served =>
    rcases (g.recordSuccess_config _ _ key).2.2.2.2 other kept found with ⟨same, rfl⟩ | before
    · exact Or.inr ⟨same, rfl⟩
    · exact Or.inl before
  | failed _ _ turned => exact Or.inl (by rw [← (g.recordFailure_config _ now).2.1, ← turned.cache]; exact found)

theorem Polled.served_stays (polled : Polled request key now reply g point g' point') {response : CompletionResponse}
    (here : point = .served response) : point' = .served response := by
  cases polled with
  | rests => exact here
  | refused absurd | hit absurd | asked absurd | called absurd | served absurd | failed absurd | woke absurd =>
    rw [here] at absurd
    cases absurd

theorem Polled.found (polled : Polled request key now reply g point g' point') {response : CompletionResponse}
    (finds : point'.found = some response) : point.found = some response ∨ g.lookup request key = some response := by
  cases polled with
  | rests => exact Or.inl finds
  | hit _ kept =>
    cases finds
    exact Or.inr kept
  | refused | called | served | woke => cases finds
  | asked _ _ _ turning | failed _ _ _ turning =>
    rw [(CompletePoint.of_turning turning).2.1] at finds
    cases finds

end Gateway

namespace Gateway
variable {κ : Type} [DecidableEq κ] {request : CompletionRequest} {key : κ} {now : Nat}
  {reply : Except SwarmError CompletionResponse} {g g' : Gateway κ} {point point' : CompletePoint}

/-- A call is admitted when there is budget left, and ends when it is paid for. -/
theorem Polled.budget (polled : Polled request key now reply g point g' point') :
    point'.paid = point.paid ∧ (point'.isAdmitted = true → point.isAdmitted = true ∨ g.refusal = none) ∨
    ∃ response, reply = .ok response ∧ point.paid = none ∧ point'.paid = some response ∧ point.isAdmitted = true ∧
      point'.isAdmitted = false := by
  cases polled with
  | rests => exact Or.inl ⟨rfl, Or.inl⟩
  | refused here | hit here => exact Or.inl ⟨by rw [here]; rfl, fun absurd => by cases absurd⟩
  | asked here goes _ turning =>
      exact Or.inl ⟨by rw [here, (CompletePoint.of_turning turning).1]; rfl, fun _ => Or.inr goes⟩
  | called here | woke here => exact Or.inl ⟨by rw [here]; rfl, fun _ => Or.inl (by rw [here]; rfl)⟩
  | @served turn response here replied =>
    subst here
    exact Or.inr ⟨response, replied, rfl, rfl, rfl, rfl⟩
  | failed here _ _ turning =>
    exact Or.inl ⟨by rw [here, (CompletePoint.of_turning turning).1]; rfl, fun _ => Or.inl (by rw [here]; rfl)⟩

end Gateway

/-- One caller of the gateway, and how far its call has come. -/
structure Caller (κ : Type) where
  request : CompletionRequest
  key : κ
  point : CompletePoint

/-- A gateway with all the calls that were ever made of it. A call that is not heard of again was given up. -/
structure Crowd (κ : Type) where
  gateway : Gateway κ
  callers : List (Caller κ)

namespace Crowd
variable {κ : Type} [DecidableEq κ]

def new (limits : GatewayConfig) (providers : List Provider) : Crowd κ := ⟨.withProviders limits providers, []⟩

def arrive (digest : List UInt8 → κ) (c : Crowd κ) (request : CompletionRequest) : Crowd κ :=
  { c with callers := c.callers ++ [⟨request, digest request.cacheBytes, .asked⟩] }

/-- One call goes on by one await. -/
def poll (c : Crowd κ) (index now : Nat) (reply : Except SwarmError CompletionResponse) : Crowd κ :=
  match c.callers[index]? with
  | none => c
  | some caller =>
    let (gateway, point) := c.gateway.poll caller.request caller.key now reply caller.point
    ⟨gateway, c.callers.set index { caller with point := point }⟩

/-- The interleavings of calls in which every answer of a provider and every state is of the given kind. -/
inductive Reach (digest : List UInt8 → κ) (limits : GatewayConfig) (providers : List Provider)
    (answers : CompletionResponse → Prop) (kind : Crowd κ → Prop) : Crowd κ → Prop
  | start : Reach digest limits providers answers kind (new limits providers)
  | arrive {c : Crowd κ} {request : CompletionRequest} : Reach digest limits providers answers kind c →
      kind (c.arrive digest request) → Reach digest limits providers answers kind (c.arrive digest request)
  | poll {c : Crowd κ} {index now : Nat} {reply : Except SwarmError CompletionResponse} :
      Reach digest limits providers answers kind c → (∀ response, reply = .ok response → answers response) →
      kind (c.poll index now reply) → Reach digest limits providers answers kind (c.poll index now reply)

/-- What one await of one call makes of the gateway and of the call. -/
theorem poll_cases (c : Crowd κ) (index now : Nat) (reply : Except SwarmError CompletionResponse) :
    c.poll index now reply = c ∨ ∃ (caller : Caller κ) (gateway : Gateway κ) (point : CompletePoint),
      c.callers[index]? = some caller ∧
      Gateway.Polled caller.request caller.key now reply c.gateway caller.point gateway point ∧
      (caller.point.spend + gateway.usage.spend = c.gateway.usage.spend + point.spend) ∧
      c.poll index now reply = ⟨gateway, c.callers.set index { caller with point := point }⟩ := by
  unfold poll
  cases here : c.callers[index]? with
  | none => exact Or.inl rfl
  | some caller =>
    have billed := c.gateway.poll_spend caller.request caller.key now reply caller.point
    rw [add_comm] at billed
    exact Or.inr ⟨caller, _, _, rfl, c.gateway.poll_polled caller.request caller.key now reply caller.point, billed,
      rfl⟩

/-- What the usage says is what the calls have come to. -/
structure Exact (c : Crowd κ) : Prop where
  spend : c.gateway.usage.spend = (c.callers.map (fun caller => caller.point.spend)).sum
  hits : c.gateway.usage.cacheHits = (c.callers.map (fun caller => caller.point.found.toList.length)).sum
  requests : c.gateway.usage.requests =
    c.gateway.usage.failures + (c.callers.map (fun caller => caller.point.isCalled.toNat)).sum

variable {digest : List UInt8 → κ} {limits : GatewayConfig} {providers : List Provider}
  {answers : CompletionResponse → Prop} {kind : Crowd κ → Prop} {c : Crowd κ}

/-- In any interleaving the usage is exact: what was spent is what callers were served with, a cache hit is
a caller that got one, and a request that did not fail is a caller that waits for it or was served. -/
theorem Reach.usage_exact (reach : Reach digest limits providers answers kind c) : c.Exact := by
  induction reach with
  | start =>
    have usage : (new limits providers : Crowd κ).gateway.usage = {} :=
      (Gateway.fresh_withProviders (κ := κ) limits providers).usage
    refine ⟨?_, ?_, ?_⟩ <;> rw [usage] <;> rfl
  | arrive _ _ ih =>
    obtain ⟨spend, hits, requests⟩ := ih
    refine ⟨?_, ?_, ?_⟩ <;> simp only [Crowd.arrive, List.map_append, List.sum_append, List.map_cons,
      List.map_nil, List.sum_cons,
      List.sum_nil, add_zero]
    · exact spend.trans (add_zero _).symm
    · exact hits
    · exact requests
  | @poll c index now reply _ _ _ ih =>
    rcases c.poll_cases index now reply with same | ⟨caller, gateway, point, here, polled, billed, same⟩
    · rw [same]
      exact ih
    · rw [same]
      obtain ⟨spend, hits, requests⟩ := ih
      have spends := Vec.sum_set here { caller with point := point } (fun caller => caller.point.spend)
      have finds := Vec.sum_set here { caller with point := point } (fun caller => caller.point.found.toList.length)
      have calls := Vec.sum_set here { caller with point := point } (fun caller => caller.point.isCalled.toNat)
      have hit := polled.hits
      have called := polled.requests
      refine ⟨?_, ?_, ?_⟩
      · refine add_left_cancel (a := caller.point.spend) ?_
        rw [billed, spend, add_comm caller.point.spend]
        exact spends.symm
      · simp only at finds ⊢
        omega
      · simp only at calls ⊢
        omega

/-- A caller with this key was served this response. -/
def Serves (c : Crowd κ) (key : κ) (response : CompletionResponse) : Prop :=
  ∃ caller ∈ c.callers, caller.key = key ∧ caller.point = .served response

/-- What the cache keeps and what it has answered was served to a caller with the same key. -/
structure Sourced (digest : List UInt8 → κ) (c : Crowd κ) : Prop where
  cache : ∀ key response, c.gateway.cache.get? key = some response → c.Serves key response
  hits : ∀ caller ∈ c.callers, ∀ response, caller.point.found = some response →
    c.Serves caller.key response ∧ caller.request.bypassCache = false ∧ c.gateway.config.cacheEnabled = true
  keys : ∀ caller ∈ c.callers, caller.key = digest caller.request.cacheBytes

omit [DecidableEq κ] in
/-- A caller that was served stays so. -/
theorem Serves.set {gateway : Gateway κ} {index : Nat} {caller : Caller κ} (here : c.callers[index]? = some caller)
    {point : CompletePoint} (stays : ∀ response, caller.point = .served response → point = .served response) {key : κ}
    {response : CompletionResponse} (serves : c.Serves key response) :
    Crowd.Serves ⟨gateway, c.callers.set index { caller with point := point }⟩ key response := by
  obtain ⟨server, member, same, served⟩ := serves
  obtain ⟨place, there⟩ := List.mem_iff_getElem?.mp member
  by_cases one : index = place
  · subst one
    rw [here] at there
    cases there
    refine ⟨{ caller with point := point }, ?_, same, stays response served⟩
    exact List.mem_of_getElem? (List.getElem?_set_self (List.getElem?_eq_some_iff.mp here).1)
  · refine ⟨server, ?_, same, served⟩
    exact List.mem_of_getElem? ((List.getElem?_set_ne one).trans there)

/-- A hit is what a provider has answered another caller with the same key, never for a call that
bypasses the cache. -/
theorem Reach.hits_sourced (reach : Reach digest limits providers answers kind c) : c.Sourced digest := by
  induction reach with
  | start =>
    refine ⟨?_, fun _ absurd => (by cases absurd), fun _ absurd => (by cases absurd)⟩
    intro key response found
    have empty := (Gateway.fresh_withProviders (κ := κ) limits providers).cache
    unfold new at found
    rw [empty] at found
    cases found
  | @arrive c request _ _ ih =>
    have more : ∀ {key : κ} {response : CompletionResponse}, c.Serves key response →
        (c.arrive digest request).Serves key response := by
      rintro key response ⟨caller, member, serves⟩
      exact ⟨caller, List.mem_append_left _ member, serves⟩
    refine ⟨fun key response found => more (ih.cache key response found), ?_, ?_⟩
    · intro caller member response finds
      rcases List.mem_append.mp member with old | new
      · obtain ⟨serves, rest⟩ := ih.hits caller old response finds
        exact ⟨more serves, rest⟩
      · rw [List.mem_singleton.mp new] at finds
        cases finds
    · intro caller member
      rcases List.mem_append.mp member with old | new
      · exact ih.keys caller old
      · rw [List.mem_singleton.mp new]
  | @poll c index now reply _ _ _ ih =>
    rcases c.poll_cases index now reply with same | ⟨caller, gateway, point, here, polled, _, same⟩
    · rw [same]
      exact ih
    · rw [same]
      have member := List.mem_of_getElem? here
      have more : ∀ {key : κ} {response : CompletionResponse}, c.Serves key response →
          Crowd.Serves ⟨gateway, c.callers.set index { caller with point := point }⟩ key response :=
        Serves.set here (fun _ served => polled.served_stays served)
      have config := polled.config
      refine ⟨?_, ?_, ?_⟩
      · intro key response found
        rcases polled.cache found with before | ⟨rfl, served⟩
        · exact more (ih.cache key response before)
        · refine ⟨{ caller with point := point }, ?_, rfl, served⟩
          exact List.mem_of_getElem? (List.getElem?_set_self (List.getElem?_eq_some_iff.mp here).1)
      · intro other inside response finds
        rcases List.mem_or_eq_of_mem_set inside with old | rfl
        · obtain ⟨serves, bypass, enabled⟩ := ih.hits other old response finds
          exact ⟨more serves, bypass, by rw [config]; exact enabled⟩
        · rcases polled.found finds with before | looked
          · obtain ⟨serves, bypass, enabled⟩ := ih.hits caller member response before
            exact ⟨more serves, bypass, by rw [config]; exact enabled⟩
          · unfold Gateway.lookup at looked
            split at looked
            · rename_i may
              simp only [Bool.and_eq_true, Bool.not_eq_true'] at may
              exact ⟨more (ih.cache caller.key response looked), may.2, by rw [config]; exact may.1⟩
            · cases looked
      · intro other inside
        rcases List.mem_or_eq_of_mem_set inside with old | rfl
        · exact ih.keys other old
        · exact ih.keys caller member

/-- How many calls are past the check of the budget and have no answer yet. -/
def admitted (c : Crowd κ) : Nat := (c.callers.map (fun caller => caller.point.isAdmitted.toNat)).sum

/-- What is spent and what the admitted calls can cost stay below the budget and what a full crowd can cost. -/
def Covered (budget price : Rat) (crowd : Nat) (c : Crowd κ) : Prop :=
  c.gateway.usage.costUsd = 0 ∧ c.admitted = 0 ∨ c.gateway.usage.costUsd + c.admitted * price < budget + crowd * price

omit [DecidableEq κ] in
theorem admitted_set {gateway : Gateway κ} {index : Nat} {caller : Caller κ} (here : c.callers[index]? = some caller)
    (point : CompletePoint) : (Crowd.admitted ⟨gateway, c.callers.set index { caller with point := point }⟩) +
      caller.point.isAdmitted.toNat = c.admitted + point.isAdmitted.toNat :=
  Vec.sum_set here { caller with point := point } (fun caller => caller.point.isAdmitted.toNat)

variable {budget price : Rat} {crowd : Nat}

/-- One await of one call keeps what is spent covered. -/
theorem Covered.polled (covered : c.Covered budget price crowd) (nonneg : 0 ≤ price)
    (limited : c.gateway.config.budgetUsd = some budget) {index now : Nat}
    {reply : Except SwarmError CompletionResponse} {caller : Caller κ} {gateway : Gateway κ} {point : CompletePoint}
    (here : c.callers[index]? = some caller)
    (polled : Gateway.Polled caller.request caller.key now reply c.gateway caller.point gateway point)
    (billed : caller.point.spend + gateway.usage.spend = c.gateway.usage.spend + point.spend)
    (cheap : ∀ response, reply = .ok response → response.costUsd ≤ price) {after : Crowd κ}
    (same : after = ⟨gateway, c.callers.set index { caller with point := point }⟩) (few : after.admitted ≤ crowd) :
    after.Covered budget price crowd := by
  have counts : after.admitted + caller.point.isAdmitted.toNat = c.admitted + point.isAdmitted.toNat := by
    rw [same]
    exact admitted_set here point
  have costs : caller.point.spend.2.2 + after.gateway.usage.costUsd = c.gateway.usage.costUsd + point.spend.2.2 := by
    rw [same]
    exact congrArg (fun spend : Spend => spend.2.2) billed
  rcases polled.budget with ⟨paid, admits⟩ | ⟨response, replied, unpaid, paid, was, ends⟩
  · have quiet : after.gateway.usage.costUsd = c.gateway.usage.costUsd := by
      have spend : point.spend = caller.point.spend := by rw [CompletePoint.spend, paid, CompletePoint.spend]
      rw [spend, add_comm] at costs
      exact add_right_cancel costs
    by_cases enters : point.isAdmitted = true ∧ caller.point.isAdmitted = false
    · rcases admits enters.1 with inside | goes
      · rw [enters.2] at inside
        cases inside
      · have below := Session.refusal_none limited goes
        have most : (after.admitted : Rat) * price ≤ crowd * price :=
          mul_le_mul_of_nonneg_right (by exact_mod_cast few) nonneg
        right
        rw [quiet]
        exact add_lt_add_of_lt_of_le below most
    · have fewer : after.admitted ≤ c.admitted := by
        cases was : caller.point.isAdmitted with
        | true => cases is : point.isAdmitted <;>
            simp only [was, is, Bool.toNat_true, Bool.toNat_false] at counts <;> omega
        | false =>
          cases is : point.isAdmitted with
          | true => exact absurd ⟨is, was⟩ enters
          | false =>
            simp only [was, is, Bool.toNat_false] at counts
            omega
      rcases covered with ⟨none, idle⟩ | below
      · exact Or.inl ⟨quiet.trans none, Nat.le_zero.mp (idle ▸ fewer)⟩
      · right
        have less : (after.admitted : Rat) * price ≤ c.admitted * price :=
          mul_le_mul_of_nonneg_right (by exact_mod_cast fewer) nonneg
        rw [quiet]
        linarith
  · rw [was, ends] at counts
    simp only [Bool.toNat_true, Bool.toNat_false, Nat.add_zero] at counts
    have pays : after.gateway.usage.costUsd = c.gateway.usage.costUsd + response.costUsd := by
      rw [CompletePoint.spend, CompletePoint.spend, unpaid, paid] at costs
      exact (zero_add _).symm.trans costs
    rcases covered with ⟨_, idle⟩ | below
    · omega
    · right
      have one : (c.admitted : Rat) = after.admitted + 1 := by exact_mod_cast counts.symm
      have most := cheap response replied
      rw [one] at below
      rw [pays]
      linarith

theorem Reach.config (reach : Reach digest limits providers answers kind c) : c.gateway.config = limits := by
  induction reach with
  | start => exact (Gateway.fresh_withProviders (κ := κ) limits providers).config
  | arrive _ _ ih => exact ih
  | @poll c index now reply _ _ _ ih =>
    rcases c.poll_cases index now reply with same | ⟨caller, gateway, point, _, polled, _, same⟩
    · rw [same]
      exact ih
    · rw [same]
      exact polled.config.trans ih

/-- However calls interleave, the budget is exceeded by no more than what the calls that are
past its check at one time can cost. -/
theorem Reach.overshoot_bounded (limited : limits.budgetUsd = some budget) (nonneg : 0 ≤ price)
    (reach : Reach digest limits providers (fun response => response.costUsd ≤ price)
      (fun c => c.admitted ≤ crowd) c) :
    c.gateway.usage.costUsd = 0 ∨ c.gateway.usage.costUsd < budget + crowd * price := by
  have covered : c.Covered budget price crowd := by
    induction reach with
    | start =>
      have usage : (new limits providers : Crowd κ).gateway.usage = {} :=
        (Gateway.fresh_withProviders (κ := κ) limits providers).usage
      exact Or.inl ⟨by rw [usage], rfl⟩
    | @arrive c request _ _ ih =>
      have same : (c.arrive digest request).admitted = c.admitted := by
        simp only [admitted, Crowd.arrive, List.map_append, List.sum_append]
        rfl
      unfold Covered at ih ⊢
      rw [same]
      exact ih
    | @poll c index now reply before cheap few ih =>
      rcases c.poll_cases index now reply with same | ⟨caller, gateway, point, here, polled, billed, same⟩
      · rw [same]
        exact ih
      · exact ih.polled nonneg (by rw [before.config]; exact limited) here polled billed cheap same few
  rcases covered with ⟨none, _⟩ | below
  · exact Or.inl none
  · right
    have more : 0 ≤ (c.admitted : Rat) * price := mul_nonneg (by exact_mod_cast Nat.zero_le _) nonneg
    linarith

/-- Two callers ask at a time, and both are past the check before either is answered. -/
def rushed : Crowd (List UInt8) :=
  [0, 1, 0, 1, 0, 1].foldl
    (fun c index => c.poll index 0 (.ok ⟨"ok", "mock", "mock-small", 3, 4, 1, 1, false, "stop"⟩))
    (((new { budgetUsd := some 1 } [mockProvider]).arrive id (.new "mock-small" [])).arrive id (.new "mock-large" []))

theorem reach_rushed : Reach id { budgetUsd := some 1 } [mockProvider] (fun response => response.costUsd ≤ 1)
    (fun c => c.admitted ≤ 2) rushed := by
  have cheap : ∀ response, (Except.ok ⟨"ok", "mock", "mock-small", 3, 4, 1, 1, false, "stop"⟩ :
      Except SwarmError CompletionResponse) = .ok response → response.costUsd ≤ 1 := by
    rintro response ⟨⟩
    exact le_rfl
  unfold rushed
  simp only [List.foldl_cons, List.foldl_nil]
  iterate 6 refine Reach.poll ?_ cheap (by decide +kernel)
  exact .arrive (.arrive .start (by decide)) (by decide)

theorem overshoot_bounded_rushed : rushed.gateway.usage.costUsd = 2 ∧
    (rushed.gateway.usage.costUsd = 0 ∨ rushed.gateway.usage.costUsd < 1 + (2 : Nat) * 1) :=
  ⟨by decide +kernel, reach_rushed.overshoot_bounded rfl rfl⟩

/-- A third caller asks what the first one asked. -/
def echoed : Crowd (List UInt8) :=
  (rushed.arrive id (.new "mock-small" [])).poll 2 0 (.error (.internal "unasked"))

theorem reach_echoed : Reach id { budgetUsd := some 1 } [mockProvider] (fun response => response.costUsd ≤ 1)
    (fun c => c.admitted ≤ 2) echoed :=
  .poll (.arrive reach_rushed (by decide +kernel)) (fun _ absurd => by cases absurd) (by decide +kernel)

theorem usage_exact_echoed : echoed.Exact ∧ echoed.gateway.usage.cacheHits = 1 ∧ echoed.gateway.usage.requests = 2 :=
  ⟨reach_echoed.usage_exact, by decide +kernel⟩

theorem hits_sourced_echoed : echoed.Sourced id ∧
    (echoed.callers.filter (fun caller => caller.point.found.isSome)).length = 1 :=
  ⟨reach_echoed.hits_sourced, by decide +kernel⟩

end Crowd

end Swarm
