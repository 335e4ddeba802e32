import Mathlib.Data.List.Perm.Subperm
import Swarm.Gateway.Rules

namespace Swarm

namespace Gateway
variable {κ : Type} {g : Gateway κ}

/-- Every kept response is accounted for in the order of insertion, which is not too long. -/
structure Bounded (g : Gateway κ) : Prop where
  length : g.cacheOrder.length ≤ g.config.cacheCapacity
  listed : ∀ key ∈ g.cache.keys, key ∈ g.cacheOrder

variable [DecidableEq κ]

omit [DecidableEq κ] in
theorem Bounded.entries (bounded : g.Bounded) : g.cache.entries.length ≤ g.config.cacheCapacity := by
  have subperm := List.subperm_of_subset g.cache.nodup bounded.listed
  have counted : g.cache.entries.length = g.cache.keys.length := (List.length_map _).symm
  rw [counted]
  exact subperm.length_le.trans bounded.length

/-- The oldest place in a full order is the next to go. -/
def Evicts (g : Gateway κ) (key : κ) : Prop :=
  g.cacheOrder.length = g.config.cacheCapacity ∧ g.cacheOrder.head? = some key

theorem evict_room {capacity : Nat} {order : List κ} {cache : Dict κ CompletionResponse}
    (room : order.length ≤ capacity) :
    evict capacity order cache = (order, cache) := by
  cases order with
  | nil => rfl
  | cons oldest rest => exact if_neg (Nat.not_lt_of_le room)

theorem evict_full {capacity : Nat} {oldest : κ} {rest : List κ} {cache : Dict κ CompletionResponse}
    (full : rest.length = capacity) : evict capacity (oldest :: rest) cache = (rest, cache.erase oldest) := by
  rw [evict, if_pos (by rw [List.length_cons]; omega), evict_room (Nat.le_of_eq full)]

/-- Keeping a response keeps the bound, and the response stays unless its key has the oldest place. -/
theorem Bounded.store (bounded : g.Bounded) (enabled : g.config.cacheEnabled = true)
    (nonzero : 1 ≤ g.config.cacheCapacity) (response : CompletionResponse) (key : κ) :
    (g.store response key).Bounded ∧
      ((g.store response key).cache.get? key = some response ↔ ¬ g.Evicts key) := by
  have listed : ∀ other ∈ (g.cache.insert key response).keys, other ∈ g.cacheOrder ∨ other = key := by
    intro other member
    obtain ⟨value, inside⟩ := Dict.mem_keys.mp member
    rcases Dict.mem_insert.mp inside with ⟨old, _⟩ | new
    · exact Or.inl (bounded.listed other (Dict.mem_keys.mpr ⟨value, old⟩))
    · exact Or.inr (congrArg Prod.fst new)
  unfold Gateway.store
  rw [if_pos enabled]
  by_cases room : g.cacheOrder.length < g.config.cacheCapacity
  · have longer : (g.cacheOrder ++ [key]).length ≤ g.config.cacheCapacity := by
      rw [List.length_append]
      exact room
    rw [evict_room longer]
    refine ⟨⟨by simp only [List.length_append, List.length_singleton]; omega, ?_⟩, ?_⟩
    · intro other member
      simpa using listed other member
    · have stays : ¬ g.Evicts key := fun evicts => Nat.ne_of_lt room evicts.1
      exact iff_of_true Dict.get?_insert_self stays
  · have full : g.cacheOrder.length = g.config.cacheCapacity := Nat.le_antisymm bounded.length (Nat.le_of_not_lt room)
    cases ordered : g.cacheOrder with
    | nil =>
      rw [ordered] at full
      simp only [List.length_nil] at full
      omega
    | cons oldest rest =>
      rw [ordered] at full listed
      have longer : (rest ++ [key]).length = g.config.cacheCapacity := by
        rw [← full]
        simp
      rw [List.cons_append, evict_full longer]
      refine ⟨⟨by simp only [List.length_append, List.length_singleton]; rw [← full, List.length_cons], ?_⟩, ?_⟩
      · intro other member
        obtain ⟨value, inside⟩ := Dict.mem_keys.mp member
        have present := Dict.get?_eq_some.mpr inside
        rw [Dict.get?_erase] at present
        split at present
        · cases present
        · rename_i different
          rcases listed other (Dict.mem_keys.mpr ⟨value, Dict.get?_eq_some.mp present⟩) with old | new
          · exact List.mem_append_left _ ((List.mem_cons.mp old).resolve_left different)
          · exact List.mem_append_right _ (List.mem_singleton.mpr new)
      · rw [Dict.get?_erase, Dict.get?_insert_self]
        have evicts : g.Evicts key ↔ key = oldest := by
          unfold Evicts
          rw [ordered, List.head?_cons, Option.some.injEq]
          exact ⟨fun both => both.2.symm, fun same => ⟨full, same.symm⟩⟩
        rw [evicts]
        split <;> simp_all

end Gateway

namespace Session
variable {κ : Type}

/-- From `s` to `s'` no response was kept and no provider has answered. -/
structure Fruitless (s s' : Session κ) : Prop where
  config : s'.gateway.config = s.gateway.config
  cache : s'.gateway.cache = s.gateway.cache
  cacheOrder : s'.gateway.cacheOrder = s.gateway.cacheOrder
  calls : ∃ more, s'.calls = s.calls ++ more ∧ ∀ call ∈ more, ∃ err, call.outcome = .failed err

theorem Fruitless.refl (s : Session κ) : Fruitless s s := ⟨rfl, rfl, rfl, [], by simp, by simp⟩

theorem Fruitless.trans {s s' s'' : Session κ} (first : Fruitless s s') (second : Fruitless s' s'') :
    Fruitless s s'' := by
  obtain ⟨more, calls, failed⟩ := first.calls
  obtain ⟨more', calls', failed'⟩ := second.calls
  refine ⟨second.config.trans first.config, second.cache.trans first.cache, second.cacheOrder.trans first.cacheOrder,
    more ++ more', by rw [calls', calls, List.append_assoc], ?_⟩
  intro call member
  exact (List.mem_append.mp member).elim (failed call) (failed' call)

theorem Fruitless.bounded {s s' : Session κ} (fruitless : Fruitless s s') (bounded : s.gateway.Bounded) :
    s'.gateway.Bounded := by
  refine ⟨?_, ?_⟩
  · rw [fruitless.cacheOrder, fruitless.config]
    exact bounded.length
  · rw [fruitless.cacheOrder, fruitless.cache]
    exact bounded.listed

theorem fruitless_count (s : Session κ) (change : Usage → Usage) : Fruitless s (s.count change) :=
  ⟨rfl, rfl, rfl, [], by simp [count], by simp⟩

theorem fruitless_wait (s : Session κ) (duration : Nat) : Fruitless s (s.wait duration) :=
  ⟨rfl, rfl, rfl, [], by simp [wait], by simp⟩

theorem fruitless_circuitIsOpen {s s' : Session κ} {provider : String} {isOpen : Bool}
    (looked : s.circuitIsOpen provider = (isOpen, s')) : Fruitless s s' := by
  have same : s' = (s.circuitIsOpen provider).2 := by rw [looked]
  subst same
  exact ⟨s.gateway.circuitIsOpen_config provider s.now, (s.gateway.circuitIsOpen_cache provider s.now).1,
    (s.gateway.circuitIsOpen_cache provider s.now).2, [], by simp [circuitIsOpen], by simp⟩

theorem fruitless_recordFailure (s : Session κ) (provider : String) : Fruitless s (s.recordFailure provider) := by
  obtain ⟨breakers, run, _⟩ := s.gateway.recordFailure_eq provider s.now
  unfold recordFailure
  rw [run]
  exact ⟨rfl, rfl, rfl, [], by simp, by simp⟩

variable {world : Nat → Reply} {request : CompletionRequest}

/-- What a call leaves: one more call that was answered. -/
def Answered (request : CompletionRequest) (response : CompletionResponse) (s s' : Session κ) : Prop :=
  s'.gateway.config = s.gateway.config ∧ s'.gateway.cache = s.gateway.cache ∧
    s'.gateway.cacheOrder = s.gateway.cacheOrder ∧
    ∃ more last, s'.calls = s.calls ++ more ++ [last] ∧ (∀ call ∈ more, ∃ err, call.outcome = .failed err) ∧
      last.request = request ∧ last.outcome = .responded response

variable [DecidableEq κ] {key : κ}

/-- What an answered request leaves: its response is kept. -/
def Stored (request : CompletionRequest) (key : κ) (response : CompletionResponse) (s s' : Session κ) : Prop :=
  s'.gateway.config = s.gateway.config ∧ s'.gateway.cache = (s.gateway.store response key).cache ∧
    s'.gateway.cacheOrder = (s.gateway.store response key).cacheOrder ∧
    ∃ more last, s'.calls = s.calls ++ more ++ [last] ∧ (∀ call ∈ more, ∃ err, call.outcome = .failed err) ∧
      last.request = request ∧ last.outcome = .responded response

/-- Where a response goes depends on the cache alone. -/
theorem store_congr {g g' : Gateway κ} (config : g'.config = g.config) (cache : g'.cache = g.cache)
    (order : g'.cacheOrder = g.cacheOrder) (response : CompletionResponse) (key : κ) :
    (g'.store response key).cache = (g.store response key).cache ∧
      (g'.store response key).cacheOrder = (g.store response key).cacheOrder := by
  unfold Gateway.store
  rw [config, cache, order]
  split <;> simp [cache, order]

theorem Fruitless.stored {s s' s'' : Session κ} {response : CompletionResponse} (ready : Fruitless s s')
    (stored : Stored request key response s' s'') : Stored request key response s s'' := by
  obtain ⟨config, cache, order, more', last, calls', failed', same⟩ := stored
  obtain ⟨more, calls, failed⟩ := ready.calls
  obtain ⟨cached, ordered⟩ := store_congr ready.config ready.cache ready.cacheOrder response key
  refine ⟨config.trans ready.config, cache.trans cached, order.trans ordered, more ++ more', last, ?_, ?_, same⟩
  · rw [calls', calls]
    simp
  · intro call member
    exact (List.mem_append.mp member).elim (failed call) (failed' call)

/-- A turn fails, or its response is kept. -/
theorem tryProvider_cache (provider : Provider) (index : Nat) (s : Session κ) :
    Yields (tryProvider world request key index provider s) (fun response s' => Stored request key response s s')
      (Fruitless s) := by
  have again : ∀ s' : Session κ, ∀ duration, Fruitless s s' → Fruitless s (s'.wait duration) :=
    fun s' duration ready => ready.trans (fruitless_wait s' duration)
  have called : ∀ (s' : Session κ) (err : SwarmError), Fruitless s s' → (world s'.calls.length).answer = .error err →
      Fruitless s (callOnce world provider request s').2 := by
    intro s' err ready answer
    refine ready.trans ⟨rfl, rfl, rfl, [_], rfl, ?_⟩
    intro call member
    rw [List.mem_singleton.mp member, answer]
    exact ⟨err, rfl⟩
  have answered : ∀ (s' : Session κ) (response : CompletionResponse), Fruitless s s' →
      (world s'.calls.length).answer = .ok response →
      Answered request response s (callOnce world provider request s').2 := by
    intro s' response ready answer
    obtain ⟨more, calls, failed⟩ := ready.calls
    have log := callOnce_calls world request provider s'
    rw [answer] at log
    exact ⟨ready.config, ready.cache, ready.cacheOrder, more, _,
      log.trans (congrArg (fun calls => calls ++ [_]) calls),
      failed, rfl, rfl⟩
  refine tryProvider_rule ?_ ?_ ?_ answered ?_ ?_ ?_
  · exact fun s' looked => (fruitless_circuitIsOpen looked).trans (fruitless_count s' _)
  · exact fun s' looked => fruitless_circuitIsOpen looked
  · exact fun s' ready => ready.trans (fruitless_count s' _)
  · exact fun s' err ready answer => (called s' err ready answer).trans (fruitless_recordFailure _ _)
  · exact fun _ s' attempt ready => again s' _ ready
  · intro s' response good
    obtain ⟨config, cache, order, calls⟩ := good
    obtain ⟨breakers, run, _⟩ := s'.gateway.recordSuccess_eq provider.name response key
    rw [run]
    let paid : Gateway κ := { s'.gateway with
      breakers := breakers
      usage := { s'.gateway.usage with
        tokensIn := s'.gateway.usage.tokensIn + response.tokensIn
        tokensOut := s'.gateway.usage.tokensOut + response.tokensOut
        costUsd := s'.gateway.usage.costUsd + response.costUsd } }
    have unpaid : paid.config = s.gateway.config ∧ paid.cache = s.gateway.cache ∧
      paid.cacheOrder = s.gateway.cacheOrder :=
      ⟨config, cache, order⟩
    have same := store_congr unpaid.1 unpaid.2.1 unpaid.2.2 response key
    obtain ⟨_, _, kept⟩ := paid.store_eq response key
    refine ⟨?_, same.1, same.2, calls⟩
    change (paid.store response key).config = s.gateway.config
    rw [kept]
    exact config

/-- A request changes nothing of the cache, or its response is kept. -/
theorem complete_cache (world : Nat → Reply) (digest : List UInt8 → κ) (request : CompletionRequest) (s : Session κ) :
    Yields (complete world digest request s)
      (fun response s' => Stored request (digest request.cacheBytes) response s s' ∨
        Fruitless s s' ∧ ∃ hit, s.gateway.lookup request (digest request.cacheBytes) = some hit ∧
          response = { hit with cached := true })
      (Fruitless s) := by
  rcases complete_cases request s with ⟨err, run⟩ | ⟨hit, found, run⟩ | ⟨_, _, run⟩
  · rw [run]
    exact Fruitless.refl s
  · rw [run]
    exact Or.inr ⟨fruitless_count s _, hit, found, rfl⟩
  · rw [run]
    have turns : Yields (tryProviders world request (digest request.cacheBytes)
        (s.gateway.providers.filter (fun provider => provider.supportsModel request.model)) 0 none s)
        (fun response s' => Stored request (digest request.cacheBytes) response s s') (Fruitless s) := by
      refine tryProviders_rule ?_ (Fruitless.refl s)
      intro index provider s' _ ready
      exact (tryProvider_cache provider index s').mono (fun _ _ stored => ready.stored stored)
        (fun _ more => ready.trans more)
    exact turns.mono (fun _ _ stored => Or.inl stored) (fun _ kept => kept)

variable {digest : List UInt8 → κ}

theorem complete_config (request : CompletionRequest) (s : Session κ) :
    (complete world digest request s).2.gateway.config = s.gateway.config := by
  have spec : Yields (complete world digest request s) (fun _ s' => s'.gateway.config = s.gateway.config)
      (fun s' => s'.gateway.config = s.gateway.config) := by
    refine (complete_cache world digest request s).mono ?_ (fun _ fruitless => fruitless.config)
    rintro _ _ (stored | fruitless)
    · exact stored.1
    · exact fruitless.1.config
  exact spec.state

/-- The cache holds what the calls since `s` were answered with, unless its key has the oldest place
of a full cache. -/
def KeepsAnswers (digest : List UInt8 → κ) (s s' : Session κ) : Prop :=
  ∀ more, s'.calls = s.calls ++ more → ∀ call ∈ more, ∀ response, call.outcome = .responded response →
    (s'.gateway.cache.get? (digest call.request.cacheBytes) = some response ↔
      ¬ s.gateway.Evicts (digest call.request.cacheBytes))

theorem Fruitless.keepsAnswers {s s' : Session κ} (fruitless : Fruitless s s') : KeepsAnswers digest s s' := by
  intro more grown call member response answered
  obtain ⟨more', calls, failed⟩ := fruitless.calls
  rw [calls] at grown
  rw [← List.append_cancel_left grown] at member
  obtain ⟨err, failure⟩ := failed call member
  rw [failure] at answered
  cases answered

theorem Stored.bounded {s s' : Session κ} {response : CompletionResponse}
    (stored : Stored request (digest request.cacheBytes) response s s') (bounded : s.gateway.Bounded)
    (enabled : s.gateway.config.cacheEnabled = true) (nonzero : 1 ≤ s.gateway.config.cacheCapacity) :
    s'.gateway.Bounded ∧ KeepsAnswers digest s s' := by
  obtain ⟨config, cache, order, more, last, calls, failed, asked, answered⟩ := stored
  obtain ⟨still, kept⟩ := bounded.store enabled nonzero response (digest request.cacheBytes)
  have same : (s.gateway.store response (digest request.cacheBytes)).config = s.gateway.config := by
    obtain ⟨_, _, stored⟩ := s.gateway.store_eq response (digest request.cacheBytes)
    rw [stored]
  refine ⟨⟨?_, ?_⟩, ?_⟩
  · rw [order, config, ← same]
    exact still.length
  · rw [order, cache]
    exact still.listed
  · intro more' grown call member response' responded
    rw [calls, List.append_assoc] at grown
    rw [← List.append_cancel_left grown] at member
    rcases List.mem_append.mp member with earlier | new
    · obtain ⟨err, failure⟩ := failed call earlier
      rw [failure] at responded
      cases responded
    · rw [List.mem_singleton.mp new, answered] at responded
      cases responded
      rw [List.mem_singleton.mp new, asked, cache]
      exact kept

/-- With a cache that is on and may hold something, one request keeps the bound and,
but for the oldest place, what it was answered with. -/
theorem serve_bounded {s : Session κ} (bounded : s.gateway.Bounded) (enabled : s.gateway.config.cacheEnabled = true)
    (nonzero : 1 ≤ s.gateway.config.cacheCapacity) (arrival : Arrival) :
    (serve world digest s arrival).gateway.Bounded ∧ KeepsAnswers digest s (serve world digest s arrival) := by
  have spec : Yields (complete world digest arrival.request (s.wait arrival.gap))
      (fun _ s' => s'.gateway.Bounded ∧ KeepsAnswers digest s s') (fun s' => s'.gateway.Bounded ∧
        KeepsAnswers digest s s') := by
    refine (complete_cache world digest arrival.request (s.wait arrival.gap)).mono ?_ ?_
    · rintro response s' (stored | ⟨fruitless, _⟩)
      · exact stored.bounded bounded enabled nonzero
      · exact ⟨fruitless.bounded bounded, fruitless.keepsAnswers⟩
    · exact fun s' fruitless => ⟨fruitless.bounded bounded, fruitless.keepsAnswers⟩
  exact spec.state

/-- After any requests the cache is within its bound, and the next request keeps
what a provider answers exactly when its key does not have the oldest place of a full cache. -/
theorem cache_keeps {config : GatewayConfig} (enabled : config.cacheEnabled = true)
    (nonzero : 1 ≤ config.cacheCapacity) (providers : List Provider) (world : Nat → Reply) (digest : List UInt8 → κ)
    (arrivals : List Arrival) (s : Session κ)
    (reached : s = (start config providers).serveAll world digest arrivals) :
    s.gateway.cache.entries.length ≤ config.cacheCapacity ∧
      ∀ arrival, KeepsAnswers digest s (serve world digest s arrival) := by
  let inv : Session κ → Prop := fun s => s.gateway.config = config ∧ s.gateway.Bounded
  have held : inv s := by
    rw [reached]
    refine serveAll_keeps ?_ ?_ arrivals
    · rintro s arrival ⟨same, bounded⟩
      rw [← same] at enabled nonzero
      exact ⟨(complete_config arrival.request (s.wait arrival.gap)).trans same,
        (serve_bounded bounded enabled nonzero arrival).1⟩
    · have fresh := Gateway.fresh_withProviders (κ := κ) config providers
      refine ⟨fresh.config, ?_, ?_⟩
      · change (Gateway.withProviders config providers : Gateway κ).cacheOrder.length ≤ _
        rw [fresh.cacheOrder]
        exact Nat.zero_le _
      · change ∀ key ∈ (Gateway.withProviders config providers : Gateway κ).cache.keys, _
        rw [fresh.cache]
        intro key member
        cases member
  obtain ⟨same, bounded⟩ := held
  rw [← same] at enabled nonzero ⊢
  exact ⟨bounded.entries, fun arrival => (serve_bounded bounded enabled nonzero arrival).2⟩

end Session

def oneResponse : GatewayConfig := { cacheCapacity := 1 }

/-- A cache for one response, after the first request. -/
def remembered : Session UInt64 := (Session.start oneResponse [mockProvider]).serveAll steady stableHash [⟨0, ask⟩]

/-- A request that bypasses the cache puts its key a second time into the order;
dropping the first one drops the response that was just kept. -/
theorem refreshed_lost : ∃ call,
    (remembered.serve steady stableHash ⟨0, { ask with bypassCache := true }⟩).calls = remembered.calls ++ [call] ∧
      call.outcome = .responded mockResponse ∧
      (remembered.serve steady stableHash ⟨0, { ask with bypassCache := true }⟩).gateway.cache.get?
        (stableHash call.request.cacheBytes) = none := by
  refine ⟨_, rfl, rfl, ?_⟩
  decide +kernel

theorem cache_keeps_other :
    (remembered.serve steady stableHash ⟨0, .new "large" []⟩).gateway.cache.get?
      (stableHash (CompletionRequest.new "large" []).cacheBytes) = some mockResponse := by
  have enabled : oneResponse.cacheEnabled = true := rfl
  have kept := (Session.cache_keeps enabled le_rfl [mockProvider] steady stableHash [⟨0, ask⟩] remembered rfl).2
    ⟨0, .new "large" []⟩
  have young : remembered.gateway.cacheOrder.head? ≠ some
      (stableHash (CompletionRequest.new "large" []).cacheBytes) := by
    decide +kernel
  exact (kept [_] rfl _ (List.mem_singleton_self _) mockResponse rfl).mpr (fun evicts => young evicts.2)

end Swarm
