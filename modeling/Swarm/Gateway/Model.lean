import Swarm.Gateway.Request
import Swarm.Lib.Dict

namespace Swarm

/-- Operational limits applied to every model call. The limits on concurrency do
not show in a sequence of calls. -/
structure GatewayConfig where
  cacheEnabled : Bool := true
  cacheCapacity : Nat := 4096
  maxAttempts : Nat := 3
  retryBackoffMs : UInt64 := 50
  circuitFailureThreshold : Nat := 5
  circuitResetMs : UInt64 := 5000
  budgetUsd : Option Rat := none

structure Usage where
  requests : Nat := 0
  cacheHits : Nat := 0
  failures : Nat := 0
  fallbacks : Nat := 0
  circuitRejections : Nat := 0
  tokensIn : Nat := 0
  tokensOut : Nat := 0
  costUsd : Rat := 0

/-- Per-provider failure tracking. The count is compared only while the breaker is
closed, below the threshold, so its width does not show. -/
structure Breaker where
  consecutiveFailures : Nat
  openedAt : Option Nat
  deriving DecidableEq, Repr

def Breaker.new : Breaker := ⟨0, none⟩

structure Provider where
  name : String
  supportsModel : String → Bool

structure TokenChunk where
  text : String
  last : Bool

abbrev TokenStream := List (Except SwarmError TokenChunk)

/-- A duration in nanoseconds. -/
def fromMillis (millis : UInt64) : Nat := millis.toNat * 1000000

def saturatingMul (left right : Nat) : UInt64 := UInt64.ofNat (min (left * right) (2 ^ 64 - 1))

/-- The pause after a failed attempt. -/
def GatewayConfig.backoff (config : GatewayConfig) (attempt : Nat) : Nat :=
  fromMillis (saturatingMul config.retryBackoffMs.toNat (2 ^ min (attempt - 1) 10))

/-- An amount with four decimals, as `format!("{:.4}")` rounds it. -/
def fixed4 (amount : Rat) : String :=
  let scaled := (if amount < 0 then -amount else amount) * 10000
  let floor := scaled.floor
  let rest := scaled - floor
  let units := if rest < 1 / 2 ∨ rest = 1 / 2 ∧ floor % 2 = 0 then floor.toNat else floor.toNat + 1
  let decimals := toString (10000 + units % 10000)
  (if amount < 0 then "-" else "") ++ toString (units / 10000) ++ "." ++ String.ofList (decimals.toList.drop 1)

/-- Routes model calls to providers. Keys of the cache are of any type; in the code
they are the 64-bit hashes of the requests. -/
structure Gateway (κ : Type) where
  config : GatewayConfig
  providers : List Provider
  cache : Dict κ CompletionResponse
  cacheOrder : List κ
  breakers : Dict String Breaker
  usage : Usage

namespace Gateway
variable {κ : Type}

def new (config : GatewayConfig) : Gateway κ := ⟨config, [], .empty, [], .empty, {}⟩

/-- Append a provider. Order is fallback order. -/
def andProvider (g : Gateway κ) (provider : Provider) : Gateway κ :=
  { g with breakers := g.breakers.insert provider.name .new, providers := g.providers ++ [provider] }

def withProviders (config : GatewayConfig) (providers : List Provider) : Gateway κ :=
  providers.foldl andProvider (new config)

def circuitIsOpen (g : Gateway κ) (provider : String) (now : Nat) : Bool × Gateway κ :=
  match g.breakers.get? provider with
  | none => (false, g)
  | some breaker =>
    match breaker.openedAt with
    | none => (false, g)
    | some since =>
      if now - since < fromMillis g.config.circuitResetMs then (true, g)
      else (false, { g with breakers := g.breakers.insert provider ⟨0, none⟩ })

def recordFailure (g : Gateway κ) (provider : String) (now : Nat) : Gateway κ :=
  let g := { g with usage := { g.usage with failures := g.usage.failures + 1 } }
  match g.breakers.get? provider with
  | none => g
  | some breaker =>
    let failures := breaker.consecutiveFailures + 1
    let opens : Bool := g.config.circuitFailureThreshold ≤ failures && breaker.openedAt.isNone
    { g with breakers := g.breakers.insert provider ⟨failures, if opens then some now else breaker.openedAt⟩ }

/-- The errors of the budget check, which comes before the call. -/
def refusal (g : Gateway κ) : Option SwarmError :=
  match g.config.budgetUsd with
  | none => none
  | some budget =>
    let spent := g.usage.costUsd
    if budget ≤ spent then
      some (.budgetExceeded s!"gateway has spent ${fixed4 spent} of its ${fixed4 budget} budget")
    else none

section
variable [DecidableEq κ]

/-- The loop that drops the oldest responses. -/
def evict (capacity : Nat) : List κ → Dict κ CompletionResponse → List κ × Dict κ CompletionResponse
  | [], cache => ([], cache)
  | oldest :: rest, cache =>
    if capacity < (oldest :: rest).length then evict capacity rest (cache.erase oldest) else (oldest :: rest, cache)

/-- Keep a response under its key. -/
def store (g : Gateway κ) (response : CompletionResponse) (key : κ) : Gateway κ :=
  if g.config.cacheEnabled then
    let (order, cache) := evict g.config.cacheCapacity (g.cacheOrder ++ [key]) (g.cache.insert key response)
    { g with cache := cache, cacheOrder := order }
  else g

def recordSuccess (g : Gateway κ) (provider : String) (response : CompletionResponse) (key : κ) : Gateway κ :=
  let g := match g.breakers.get? provider with
    | none => g
    | some _ => { g with breakers := g.breakers.insert provider ⟨0, none⟩ }
  let g := { g with usage := { g.usage with
    tokensIn := g.usage.tokensIn + response.tokensIn
    tokensOut := g.usage.tokensOut + response.tokensOut
    costUsd := g.usage.costUsd + response.costUsd } }
  g.store response key

/-- The response that is kept for a request, if it may be used. -/
def lookup (g : Gateway κ) (request : CompletionRequest) (key : κ) : Option CompletionResponse :=
  if g.config.cacheEnabled && !request.bypassCache then g.cache.get? key else none

end

end Gateway

/-- What the outside world does with one call to a provider: the time until the
call goes out and until it is answered, and the answer. -/
structure Reply where
  lag : Nat
  took : Nat
  answer : Except SwarmError CompletionResponse
  stream : Except SwarmError TokenStream

inductive CallOutcome where
  | responded (response : CompletionResponse)
  | opened
  | failed (err : SwarmError)

/-- One call that reached a provider, with what was recorded as spent when it went out. -/
structure Call where
  provider : String
  request : CompletionRequest
  startedAt : Nat
  returnedAt : Nat
  spent : Rat
  outcome : CallOutcome

def CallOutcome.ofAnswer : Except SwarmError CompletionResponse → CallOutcome
  | .ok response => .responded response
  | .error err => .failed err

def CallOutcome.ofStream : Except SwarmError TokenStream → CallOutcome
  | .ok _ => .opened
  | .error err => .failed err

/-- A gateway at some time, with the calls it has made so far. -/
structure Session (κ : Type) where
  gateway : Gateway κ
  now : Nat
  calls : List Call

namespace Session
variable {κ : Type}

/-- A gateway that has not been used. -/
def start (config : GatewayConfig) (providers : List Provider) : Session κ := ⟨.withProviders config providers, 0, []⟩

def wait (s : Session κ) (duration : Nat) : Session κ := { s with now := s.now + duration }

def count (s : Session κ) (change : Usage → Usage) : Session κ :=
  { s with gateway := { s.gateway with usage := change s.gateway.usage } }

def circuitIsOpen (s : Session κ) (provider : String) : Bool × Session κ :=
  let (isOpen, gateway) := s.gateway.circuitIsOpen provider s.now
  (isOpen, { s with gateway := gateway })

def recordFailure (s : Session κ) (provider : String) : Session κ :=
  { s with gateway := s.gateway.recordFailure provider s.now }

/-- A call goes out and is answered. The n-th call gets the n-th reply. -/
def call (s : Session κ) (provider : String) (request : CompletionRequest) (reply : Reply) (outcome : CallOutcome) :
    Session κ :=
  { s with
    now := s.now + reply.lag + reply.took
    calls := s.calls ++ [⟨provider, request, s.now + reply.lag, s.now + reply.lag + reply.took,
      s.gateway.usage.costUsd, outcome⟩] }

section
variable (world : Nat → Reply)

def callOnce (provider : Provider) (request : CompletionRequest) (s : Session κ) :
    Except SwarmError CompletionResponse × Session κ :=
  let reply := world s.calls.length
  let s := s.count (fun usage => { usage with requests := usage.requests + 1 })
  (reply.answer, s.call provider.name request reply (.ofAnswer reply.answer))

/-- The attempts at one provider from the given one on, with `left` more after it. -/
def attempts (provider : Provider) (request : CompletionRequest) :
    (left attempt : Nat) → Session κ → Except SwarmError CompletionResponse × Session κ
  | left, attempt, s =>
    match callOnce world provider request s with
    | (.ok response, s) => (.ok response, s)
    | (.error err, s) =>
      let s := s.recordFailure provider.name
      match left with
      | 0 => (.error err, s)
      | left + 1 =>
        if err.isRetryable then
          attempts provider request left (attempt + 1) (s.wait (s.gateway.config.backoff attempt))
        else (.error err, s)

def callWithRetries (provider : Provider) (request : CompletionRequest) (s : Session κ) :
    Except SwarmError CompletionResponse × Session κ :=
  attempts world provider request (s.gateway.config.maxAttempts - 1) 1 s

section
variable [DecidableEq κ]

/-- The turn of one provider: a round of the loop of `complete`. -/
def tryProvider (request : CompletionRequest) (key : κ) (index : Nat) (provider : Provider) (s : Session κ) :
    Except SwarmError CompletionResponse × Session κ :=
  match s.circuitIsOpen provider.name with
  | (true, s) =>
    (.error (.circuitOpen provider.name),
      s.count (fun usage => { usage with circuitRejections := usage.circuitRejections + 1 }))
  | (false, s) =>
    let s := if 0 < index then s.count (fun usage => { usage with fallbacks := usage.fallbacks + 1 }) else s
    match callWithRetries world provider request s with
    | (.ok response, s) => (.ok response, { s with gateway := s.gateway.recordSuccess provider.name response key })
    | (.error err, s) => (.error err, s)

def tryProviders (request : CompletionRequest) (key : κ) :
    List Provider → Nat → Option SwarmError → Session κ → Except SwarmError CompletionResponse × Session κ
  | [], _, lastError, s =>
    (.error (lastError.getD (.provider "gateway" "no provider was able to serve the request")), s)
  | provider :: rest, index, _, s =>
    match tryProvider world request key index provider s with
    | (.ok response, s) => (.ok response, s)
    | (.error err, s) => tryProviders request key rest (index + 1) (some err) s

variable (digest : List UInt8 → κ)

/-- Run a completion, applying every operational rule. -/
def complete (request : CompletionRequest) (s : Session κ) : Except SwarmError CompletionResponse × Session κ :=
  if s.gateway.providers.isEmpty then (.error (.config "gateway has no providers"), s)
  else
    let key := digest request.cacheBytes
    match s.gateway.lookup request key with
    | some hit =>
      (.ok { hit with cached := true }, s.count (fun usage => { usage with cacheHits := usage.cacheHits + 1 }))
    | none =>
      match s.gateway.refusal with
      | some err => (.error err, s)
      | none =>
        let candidates := s.gateway.providers.filter (fun provider => provider.supportsModel request.model)
        if candidates.isEmpty then (.error (.config s!"no provider serves model `{request.model}`"), s)
        else tryProviders world request key candidates 0 none s

end

/-- The loop of `stream`. The breaker is looked at before the model. -/
def streamFrom (request : CompletionRequest) : List Provider → Session κ → Except SwarmError TokenStream × Session κ
  | [], s => (.error (.provider "gateway" "no provider could open a stream"), s)
  | provider :: rest, s =>
    match s.circuitIsOpen provider.name with
    | (isOpen, s) =>
      if isOpen || !provider.supportsModel request.model then streamFrom request rest s
      else
        let reply := world s.calls.length
        let s := s.call provider.name request reply (.ofStream reply.stream)
        match reply.stream with
        | .ok tokens => (.ok tokens, s)
        | .error _ => streamFrom request rest (s.recordFailure provider.name)

/-- Stream a completion from the first provider whose breaker is closed. -/
def stream (request : CompletionRequest) (s : Session κ) : Except SwarmError TokenStream × Session κ :=
  streamFrom world request s.gateway.providers s

end

end Session

/-- A request and the time since the last one was answered. -/
structure Arrival where
  gap : Nat
  request : CompletionRequest

/-- A request by either of the two ways to a provider. -/
inductive Visit where
  | complete (arrival : Arrival)
  | stream (arrival : Arrival)

namespace Session
variable {κ : Type} [DecidableEq κ] (world : Nat → Reply) (digest : List UInt8 → κ)

def serve (s : Session κ) (arrival : Arrival) : Session κ :=
  (complete world digest arrival.request (s.wait arrival.gap)).2

/-- Requests are completed one after another. -/
def serveAll (s : Session κ) (arrivals : List Arrival) : Session κ := arrivals.foldl (serve world digest) s

def attend (s : Session κ) : Visit → Session κ
  | .complete arrival => s.serve world digest arrival
  | .stream arrival => (stream world arrival.request (s.wait arrival.gap)).2

def attendAll (s : Session κ) (visits : List Visit) : Session κ := visits.foldl (attend world digest) s

end Session

end Swarm
