import Swarm.Gateway.Request

namespace Swarm

theorem leBytes_injective {left right : UInt32} (same : leBytes left = leBytes right) : left = right := by
  simp only [leBytes, List.cons.injEq, and_true] at same
  have first : left.toNat % 2 ^ 8 = right.toNat % 2 ^ 8 := by
    simpa only [UInt32.toNat_toUInt8] using congrArg UInt8.toNat same.1
  have later : ∀ shift : UInt32, (left >>> shift).toUInt8 = (right >>> shift).toUInt8 →
      left.toNat / 2 ^ (shift.toNat % 32) % 2 ^ 8 = right.toNat / 2 ^ (shift.toNat % 32) % 2 ^ 8 := by
    intro shift equal
    simpa only [UInt32.toNat_toUInt8, UInt32.toNat_shiftRight,
      Nat.shiftRight_eq_div_pow] using congrArg UInt8.toNat equal
  have second : left.toNat / 2 ^ 8 % 2 ^ 8 = right.toNat / 2 ^ 8 % 2 ^ 8 := later 8 same.2.1
  have third : left.toNat / 2 ^ 16 % 2 ^ 8 = right.toNat / 2 ^ 16 % 2 ^ 8 := later 16 same.2.2.1
  have fourth : left.toNat / 2 ^ 24 % 2 ^ 8 = right.toNat / 2 ^ 24 % 2 ^ 8 := later 24 same.2.2.2
  have boundLeft := left.toNat_lt
  have boundRight := right.toNat_lt
  refine UInt32.toNat_inj.mp ?_
  omega

theorem length_flatMap_leBytes (words : List UInt32) : (words.flatMap leBytes).length = 4 * words.length := by
  induction words with
  | nil => rfl
  | cons word rest ih =>
    rw [List.flatMap_cons, List.length_append, ih, List.length_cons]
    simp only [leBytes, List.length_cons, List.length_nil]
    omega

/-- Words of a fixed width are read back from their bytes. -/
theorem flatMap_leBytes_injective {left right : List UInt32} (same : left.flatMap leBytes = right.flatMap leBytes) :
    left = right := by
  have lengths := congrArg List.length same
  rw [length_flatMap_leBytes, length_flatMap_leBytes] at lengths
  induction left generalizing right with
  | nil =>
    have none : right.length = 0 := by rw [List.length_nil] at lengths; omega
    exact (List.length_eq_zero_iff.mp none).symm
  | cons word rest ih =>
    cases right with
    | nil => simp at lengths
    | cons word' rest' =>
      rw [List.flatMap_cons, List.flatMap_cons] at same
      obtain ⟨first, others⟩ := List.append_inj same rfl
      have shorter : 4 * rest.length = 4 * rest'.length := by
        simp only [List.length_cons] at lengths
        omega
      rw [leBytes_injective first, ih others shorter]

namespace CompletionRequest

/-- A role byte read as a character. -/
def roleMark : Role → Char
  | .system => '\x00'
  | .user => '\x01'
  | .assistant => '\x02'
  | .tool => '\x03'

def jsonMark (request : CompletionRequest) : Char := if request.jsonMode then '\x01' else '\x00'

/-- Model and conversation as the cache key sees them: one text, with the roles in between. -/
def transcript (request : CompletionRequest) : List Char :=
  request.model.toList ++ request.messages.flatMap (fun message => roleMark message.role :: message.content.toList)

/-- The numeric settings that are present. -/
def settings (request : CompletionRequest) : List UInt32 := request.temperature.toList ++ request.maxTokens.toList

theorem encode_transcript (request : CompletionRequest) :
    Utf8.encode (request.transcript ++ [request.jsonMark]) = Utf8.encode request.model.toList ++
      request.messages.flatMap (fun message => message.role.byte :: Utf8.encode message.content.toList) ++
      [request.jsonByte] := by
  have role : ∀ (role : Role) (text : List Char), Utf8.encode (roleMark role :: text) = role.byte ::
      Utf8.encode text := by
    intro role text
    cases role <;> rfl
  have messages : ∀ messages : List Message,
      Utf8.encode (messages.flatMap (fun message => roleMark message.role :: message.content.toList)) =
        messages.flatMap (fun message => message.role.byte :: Utf8.encode message.content.toList) := by
    intro messages
    induction messages with
    | nil => rfl
    | cons message rest ih => rw [List.flatMap_cons, List.flatMap_cons, Utf8.encode_append, role, ih]
  have mark : Utf8.encode [request.jsonMark] = [request.jsonByte] := by
    unfold jsonMark jsonByte
    cases request.jsonMode <;> rfl
  rw [transcript, Utf8.encode_append, Utf8.encode_append, messages, mark]

theorem cacheBytes_eq (request : CompletionRequest) : request.cacheBytes =
    Utf8.encode (request.transcript ++ [request.jsonMark]) ++ request.settings.flatMap leBytes := by
  have setting : ∀ value : Option UInt32, value.elim [] leBytes = value.toList.flatMap leBytes := by
    intro value
    cases value <;> simp
  rw [encode_transcript, cacheBytes, settings, List.flatMap_append, setting, setting,
    List.append_assoc _ _ (List.flatMap _ _)]

theorem jsonMark_inj {a b : CompletionRequest} : a.jsonMark = b.jsonMark ↔ a.jsonMode = b.jsonMode := by
  unfold jsonMark
  cases a.jsonMode <;> cases b.jsonMode <;> decide

/-- The key does not tell apart where the model ends and each message begins, which
setting a number belongs to, or the stop sequences. -/
structure Aligned (a b : CompletionRequest) : Prop where
  transcript : a.transcript = b.transcript
  jsonMode : a.jsonMode = b.jsonMode
  settings : a.settings = b.settings

/-- Settings of the one request that read as the end of the other's text and its JSON flag. -/
def Shifted (a b : CompletionRequest) : Prop :=
  ∃ extra text, extra ≠ [] ∧ b.settings = extra ++ a.settings ∧
    extra.flatMap leBytes = Utf8.encode (text ++ [a.jsonMark]) ∧ a.transcript = b.transcript ++ b.jsonMark :: text

/-- Two questions that the cache takes for one. -/
def Confused (a b : CompletionRequest) : Prop := ¬ a.SameQuestion b ∧ (Aligned a b ∨ Shifted a b ∨ Shifted b a)

theorem Aligned.cacheBytes {a b : CompletionRequest} (aligned : Aligned a b) : a.cacheBytes = b.cacheBytes := by
  rw [cacheBytes_eq, cacheBytes_eq, aligned.transcript, jsonMark_inj.mpr aligned.jsonMode, aligned.settings]

theorem Shifted.cacheBytes {a b : CompletionRequest} (shifted : Shifted a b) : a.cacheBytes = b.cacheBytes := by
  obtain ⟨extra, text, _, settings, bytes, transcript⟩ := shifted
  have longer : a.transcript ++ [a.jsonMark] = (b.transcript ++ [b.jsonMark]) ++ (text ++ [a.jsonMark]) := by
    rw [transcript]
    simp
  rw [cacheBytes_eq, cacheBytes_eq, longer, Utf8.encode_append, ← bytes, settings, List.flatMap_append,
    List.append_assoc]

/-- Where one request has no more settings than the other, equal bytes have one of two causes. -/
theorem aligned_or_shifted {a b : CompletionRequest} (fewer : a.settings.length ≤ b.settings.length)
    (same : a.cacheBytes = b.cacheBytes) : Aligned a b ∨ Shifted a b := by
  let extra := b.settings.take (b.settings.length - a.settings.length)
  let rest := b.settings.drop (b.settings.length - a.settings.length)
  have split : b.settings = extra ++ rest := (List.take_append_drop _ _).symm
  have length : rest.length = a.settings.length := by
    rw [List.length_drop]
    omega
  rw [cacheBytes_eq, cacheBytes_eq, split, List.flatMap_append, ← List.append_assoc] at same
  obtain ⟨texts, words⟩ := List.append_inj' same (by rw [length_flatMap_leBytes, length_flatMap_leBytes, length])
  have settings : a.settings = rest := flatMap_leBytes_injective words
  -- the text of the one request goes on where the other's ends
  obtain ⟨more, continued⟩ := Utf8.prefix_of_encode_prefix ⟨_, texts.symm⟩
  have bytes : extra.flatMap leBytes = Utf8.encode more := by
    rw [← continued, Utf8.encode_append] at texts
    exact (List.append_cancel_left texts).symm
  cases more using List.reverseRecOn with
  | nil =>
    have nothing : extra = [] := flatMap_leBytes_injective (by rw [bytes]; rfl)
    rw [List.append_nil] at continued
    obtain ⟨transcript, mark⟩ := List.append_inj' continued rfl
    refine Or.inl ⟨transcript.symm, (jsonMark_inj.mp (List.singleton_inj.mp mark)).symm, ?_⟩
    rw [split, nothing, settings, List.nil_append]
  | append_singleton text last =>
    rw [← List.append_assoc] at continued
    obtain ⟨transcript, mark⟩ := List.append_inj' continued rfl
    rw [List.singleton_inj.mp mark] at bytes
    refine Or.inr ⟨extra, text, ?_, by rw [settings]; exact split, bytes, ?_⟩
    · intro nothing
      rw [nothing] at bytes
      have marked := Utf8.encode_eq_nil bytes.symm
      simp at marked
    · rw [← transcript]
      simp

/-- The bytes of two different questions are equal exactly when the two are confused. -/
theorem cacheBytes_eq_iff {a b : CompletionRequest} :
    a.cacheBytes = b.cacheBytes ↔ Aligned a b ∨ Shifted a b ∨ Shifted b a := by
  constructor
  · intro same
    rcases Nat.le_total a.settings.length b.settings.length with fewer | fewer
    · exact (aligned_or_shifted fewer same).imp_right Or.inl
    · rcases aligned_or_shifted fewer same.symm with aligned | shifted
      · exact Or.inl ⟨aligned.transcript.symm, aligned.jsonMode.symm, aligned.settings.symm⟩
      · exact Or.inr (Or.inr shifted)
  · rintro (aligned | shifted | shifted)
    · exact aligned.cacheBytes
    · exact shifted.cacheBytes
    · exact shifted.cacheBytes.symm

end CompletionRequest

end Swarm
