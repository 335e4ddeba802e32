import Swarm.Domain.Task

namespace Swarm

inductive Role where
  | system | user | assistant | tool
  deriving DecidableEq, Repr

structure Message where
  role : Role
  content : String
  deriving DecidableEq, Repr

/-- A request for a completion. The temperature is the bit pattern of its `f32`. -/
structure CompletionRequest where
  model : String
  messages : List Message
  maxTokens : Option UInt32
  temperature : Option UInt32
  stop : List String
  jsonMode : Bool
  bypassCache : Bool
  idempotencyKey : String
  jobId : Option JobId
  taskId : Option TaskId
  agentId : Option AgentId
  deriving DecidableEq, Repr

structure CompletionResponse where
  text : String
  provider : String
  model : String
  tokensIn : Nat
  tokensOut : Nat
  costUsd : Rat
  latencyMs : Nat
  cached : Bool
  finishReason : String
  deriving DecidableEq

/-- `role as u8`. -/
def Role.byte : Role → UInt8
  | system => 0
  | user => 1
  | assistant => 2
  | tool => 3

/-- `to_le_bytes` of a `u32`, and of an `f32` by its bit pattern. -/
def leBytes (word : UInt32) : List UInt8 :=
  [word.toUInt8, (word >>> 8).toUInt8, (word >>> 16).toUInt8, (word >>> 24).toUInt8]

namespace CompletionRequest

def new (model : String) (messages : List Message) : CompletionRequest where
  model := model
  messages := messages
  maxTokens := none
  temperature := none
  stop := []
  jsonMode := false
  bypassCache := false
  idempotencyKey := ""
  jobId := none
  taskId := none
  agentId := none

def jsonByte (request : CompletionRequest) : UInt8 := if request.jsonMode then 1 else 0

/-- The key of the response cache. Neither the idempotency key nor the attribution goes into it. -/
def cacheKey (request : CompletionRequest) : UInt64 :=
  let hash := fnv1a fnvOffset (Utf8.encode request.model.toList)
  let hash := request.messages.foldl
    (fun hash message => fnv1a (fnv1a hash [message.role.byte]) (Utf8.encode message.content.toList)) hash
  let hash := fnv1a hash [request.jsonByte]
  let hash := match request.temperature with
    | some temperature => fnv1a hash (leBytes temperature)
    | none => hash
  match request.maxTokens with
  | some maxTokens => fnv1a hash (leBytes maxTokens)
  | none => hash

/-- The bytes that `cache_key` feeds to the hash, in order. -/
def cacheBytes (request : CompletionRequest) : List UInt8 :=
  Utf8.encode request.model.toList ++
    request.messages.flatMap (fun message => message.role.byte :: Utf8.encode message.content.toList) ++
    [request.jsonByte] ++ request.temperature.elim [] leBytes ++ request.maxTokens.elim [] leBytes

theorem fnv1a_append (hash : UInt64) (left right : List UInt8) :
    fnv1a hash (left ++ right) = fnv1a (fnv1a hash left) right := List.foldl_append

theorem fnv1a_flatMap {α : Type} (bytes : α → List UInt8) (items : List α) (hash : UInt64) :
    fnv1a hash (items.flatMap bytes) = items.foldl (fun hash item => fnv1a hash (bytes item)) hash :=
      List.foldl_flatMap

/-- The key is the hash of one byte string. -/
theorem cacheKey_eq (request : CompletionRequest) : request.cacheKey = stableHash request.cacheBytes := by
  have message : ∀ hash (message : Message),
      fnv1a (fnv1a hash [message.role.byte]) (Utf8.encode message.content.toList) =
      fnv1a hash (message.role.byte :: Utf8.encode message.content.toList) :=
    fun hash message => (fnv1a_append hash [message.role.byte] _).symm
  have setting : ∀ hash (value : Option UInt32), (match value with
      | some word => fnv1a hash (leBytes word)
      | none => hash) = fnv1a hash (value.elim [] leBytes) := by
    intro hash value
    cases value <;> rfl
  simp only [cacheKey, cacheBytes, stableHash, fnv1a_append, fnv1a_flatMap, message, setting]

/-- The two requests ask the same: they agree in every field that can change the answer. -/
structure SameQuestion (a b : CompletionRequest) : Prop where
  model : a.model = b.model
  messages : a.messages = b.messages
  jsonMode : a.jsonMode = b.jsonMode
  temperature : a.temperature = b.temperature
  maxTokens : a.maxTokens = b.maxTokens
  stop : a.stop = b.stop

end CompletionRequest

end Swarm
