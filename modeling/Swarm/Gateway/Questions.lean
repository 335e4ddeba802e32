import Swarm.Gateway.Cache
import Swarm.Gateway.Collisions

namespace Swarm
namespace Session
variable {κ : Type} [DecidableEq κ] {key : κ} {world : Nat → Reply} {request : CompletionRequest}

/-- What is kept is what a provider answered to a request with that key. -/
def Sourced (digest : List UInt8 → κ) (s : Session κ) : Prop :=
  ∀ key response, s.gateway.cache.get? key = some response →
    ∃ call ∈ s.calls, call.outcome = .responded response ∧ digest call.request.cacheBytes = key

theorem evict_get? {capacity : Nat} {order : List κ} {cache : Dict κ CompletionResponse}
    {response : CompletionResponse} (found : (Gateway.evict capacity order cache).2.get? key = some response) :
    cache.get? key = some response := by
  induction order generalizing cache with
  | nil => exact found
  | cons oldest rest ih =>
    unfold Gateway.evict at found
    split at found
    · have kept := ih found
      rw [Dict.get?_erase] at kept
      split at kept
      · cases kept
      · exact kept
    · exact found

variable {digest : List UInt8 → κ} {s s' : Session κ} {response : CompletionResponse}

theorem Sourced.fruitless (sourced : Sourced digest s) (fruitless : Fruitless s s') : Sourced digest s' := by
  intro key response found
  rw [fruitless.cache] at found
  obtain ⟨call, member, same⟩ := sourced key response found
  obtain ⟨more, calls, _⟩ := fruitless.calls
  exact ⟨call, by rw [calls]; exact List.mem_append_left _ member, same⟩

theorem Sourced.stored (sourced : Sourced digest s)
    (stored : Stored request (digest request.cacheBytes) response s s') :
    Sourced digest s' := by
  obtain ⟨_, cache, _, more, last, calls, _, asked, answered⟩ := stored
  have old : ∀ call ∈ s.calls, call ∈ s'.calls := by
    intro call member
    rw [calls]
    exact List.mem_append_left _ (List.mem_append_left _ member)
  have new : last ∈ s'.calls := by
    rw [calls]
    exact List.mem_append_right _ (List.mem_singleton_self last)
  intro key kept found
  rw [cache] at found
  unfold Gateway.store at found
  split at found
  · have inserted := evict_get? found
    rw [Dict.get?_insert] at inserted
    split at inserted
    · rename_i same
      cases inserted
      exact ⟨last, new, answered, by rw [asked, same]⟩
    · obtain ⟨call, member, same⟩ := sourced key kept inserted
      exact ⟨call, old call member, same⟩
  · obtain ⟨call, member, same⟩ := sourced key kept found
    exact ⟨call, old call member, same⟩

theorem Sourced.complete (sourced : Sourced digest s) (request : CompletionRequest) :
    Sourced digest (complete world digest request s).2 := by
  refine ((complete_cache world digest request s).mono ?_ (fun _ fruitless => sourced.fruitless fruitless)).state
  rintro response s' (stored | ⟨fruitless, _⟩)
  · exact sourced.stored stored
  · exact sourced.fruitless fruitless

theorem sourced_serveAll (config : GatewayConfig) (providers : List Provider) (arrivals : List Arrival) :
    Sourced digest ((start config providers).serveAll world digest arrivals) := by
  refine serveAll_keeps ?_ ?_ arrivals
  · intro s arrival sourced
    exact (sourced.fruitless (fruitless_wait s arrival.gap)).complete arrival.request
  · intro key response found
    have empty := (Gateway.fresh_withProviders (κ := κ) config providers).cache
    unfold start at found
    rw [empty] at found
    cases found

/-- A request that no provider is called for is answered with what a provider
answered to the same question, unless an answered request is taken for it. -/
theorem complete_same_question (injective : Function.Injective digest) (world : Nat → Reply) (config : GatewayConfig)
    (providers : List Provider) :
    (∀ a b : CompletionRequest, (¬ a.SameQuestion b → a.cacheBytes ≠ b.cacheBytes) ↔ ¬ a.Confused b) ∧
    ∀ (arrivals : List Arrival) (request : CompletionRequest) (s : Session κ),
      s = (start config providers).serveAll world digest arrivals →
      (∀ call ∈ s.calls, ∀ response, call.outcome = .responded response → ¬ call.request.Confused request) →
      ∀ response s', complete world digest request s = (.ok response, s') → s'.calls = s.calls →
        ∃ call ∈ s.calls, ∃ kept, call.outcome = .responded kept ∧ response = { kept with cached := true } ∧
          call.request.SameQuestion request := by
  constructor
  · intro a b
    constructor
    · rintro apart ⟨different, confused⟩
      exact apart different (CompletionRequest.cacheBytes_eq_iff.mpr confused)
    · intro clear different same
      exact clear ⟨different, CompletionRequest.cacheBytes_eq_iff.mp same⟩
  · rintro arrivals request s rfl clear response s' run uncalled
    have sourced : Sourced digest ((start config providers).serveAll world digest arrivals) :=
      sourced_serveAll config providers arrivals
    generalize (start config providers).serveAll world digest arrivals = s at clear run uncalled sourced ⊢
    have spec := complete_cache world digest request s
    rw [run] at spec
    rcases spec with stored | ⟨_, hit, found, same⟩
    · obtain ⟨_, _, _, more, last, calls, _⟩ := stored
      rw [uncalled, List.append_assoc] at calls
      simp at calls
    · unfold Gateway.lookup at found
      split at found
      · obtain ⟨call, member, answered, key⟩ := sourced _ _ found
        refine ⟨call, member, hit, answered, same, ?_⟩
        by_contra different
        exact clear call member hit answered ⟨different, CompletionRequest.cacheBytes_eq_iff.mp (injective key)⟩
      · cases found

end Session

def stopping : CompletionRequest := { ask with stop := ["\n\n"] }

/-- Two requests that differ in their stop sequences alone have the same key, and the
second is answered with the response to the first. -/
theorem stop_ignored : ¬ ask.SameQuestion stopping ∧ ask.cacheBytes = stopping.cacheBytes ∧
    Session.complete steady id stopping ((Session.start {} [mockProvider]).serveAll steady id [⟨0, ask⟩]) =
      (.ok { mockResponse with cached := true },
        ((Session.start {} [mockProvider]).serveAll steady id [⟨0, ask⟩]).count
          (fun usage => { usage with cacheHits := usage.cacheHits + 1 })) := by
  refine ⟨fun same => ?_, rfl, rfl⟩
  have stop := same.stop
  cases stop

theorem complete_same_question_ask : ∃ call ∈ ((Session.start {} [mockProvider]).serveAll steady id [⟨0, ask⟩]).calls,
    ∃ kept, call.outcome = .responded kept ∧ { mockResponse with cached := true } = { kept with cached := true } ∧
      call.request.SameQuestion ask := by
  refine (Session.complete_same_question Function.injective_id steady {} [mockProvider]).2
    [⟨0, ask⟩] ask _ rfl ?_ _ _ rfl rfl
  intro call member response answered confused
  rw [List.mem_singleton.mp member] at confused
  exact confused.1 ⟨rfl, rfl, rfl, rfl, rfl, rfl⟩

end Swarm
