import Mathlib.Data.List.Basic
import Mathlib.Data.List.Infix

namespace Swarm.Utf8

def encode (text : List Char) : List UInt8 := text.flatMap String.utf8EncodeChar

/-- The character at the front of a byte stream. It takes four bytes at most. -/
def decodeChar (bytes : List UInt8) : Option Char := (bytes.take 4).toByteArray.utf8DecodeChar? 0

/-- Strict decoding, one character at a time. A character takes at least one
byte, so the number of bytes bounds the number of rounds. -/
def decodeFuel : Nat → List UInt8 → Option (List Char)
  | _, [] => some []
  | 0, _ :: _ => none
  | fuel + 1, byte :: rest =>
    match decodeChar (byte :: rest) with
    | none => none
    | some c => (decodeFuel fuel ((byte :: rest).drop c.utf8Size)).map (c :: ·)

def decode (bytes : List UInt8) : Option (List Char) := decodeFuel bytes.length bytes

@[simp] theorem encode_nil : encode [] = [] := rfl

theorem encode_cons (c : Char) (text : List Char) : encode (c :: text) = String.utf8EncodeChar c ++ encode text := rfl

theorem encode_newline_cons (text : List Char) : encode ('\n' :: text) = 10 :: encode text := rfl

theorem encode_append (left right : List Char) : encode (left ++ right) = encode left ++ encode right :=
  List.flatMap_append

theorem encodeChar_ne_nil (c : Char) : String.utf8EncodeChar c ≠ [] := by
  intro empty
  have positive := Char.utf8Size_pos c
  rw [← String.length_utf8EncodeChar, empty] at positive
  simp at positive

theorem encode_eq_nil {text : List Char} (empty : encode text = []) : text = [] := by
  cases text with
  | nil => rfl
  | cons c text =>
    rw [encode_cons] at empty
    exact absurd (List.append_eq_nil_iff.mp empty).1 (encodeChar_ne_nil c)

theorem utf8DecodeChar_iff {bytes : List UInt8} {c : Char} :
    bytes.toByteArray.utf8DecodeChar? 0 = some c ↔ String.utf8EncodeChar c <+: bytes := by
  constructor
  · intro run
    have split := ByteArray.eq_of_utf8DecodeChar?_eq_some run
    have tail : ∃ rest : List UInt8, bytes.toByteArray.extract c.utf8Size bytes.toByteArray.size =
        rest.toByteArray := by
      refine ⟨bytes.drop c.utf8Size, ?_⟩
      apply ByteArray.ext
      simp [ByteArray.data_extract, List.data_toByteArray]
    obtain ⟨rest, same⟩ := tail
    rw [same, ← List.toByteArray_append, List.toByteArray_inj] at split
    exact ⟨rest, split.symm⟩
  · rintro ⟨rest, rfl⟩
    rw [List.toByteArray_append]
    exact ByteArray.utf8DecodeChar?_utf8EncodeChar_append

/-- Decoding one character succeeds exactly on its encoding. -/
theorem decodeChar_iff {bytes : List UInt8} {c : Char} :
    decodeChar bytes = some c ↔ String.utf8EncodeChar c <+: bytes := by
  rw [decodeChar, utf8DecodeChar_iff]
  constructor
  · exact fun chars => chars.trans (List.take_prefix _ _)
  · intro chars
    have short : (String.utf8EncodeChar c).length ≤ 4 := by
      rw [String.length_utf8EncodeChar]
      exact Char.utf8Size_le_four c
    exact List.prefix_take_iff.mpr ⟨chars, short⟩

theorem decodeFuel_encode (text : List Char) : ∀ fuel, (encode text).length ≤ fuel →
    decodeFuel fuel (encode text) = some text := by
  induction text with
  | nil => intro fuel _; cases fuel <;> rfl
  | cons c text ih =>
    intro fuel bound
    rw [encode_cons] at bound ⊢
    obtain ⟨byte, more, split⟩ := List.exists_cons_of_ne_nil (encodeChar_ne_nil c)
    have size : (String.utf8EncodeChar c).length = c.utf8Size := String.length_utf8EncodeChar c
    have positive := Char.utf8Size_pos c
    cases fuel with
    | zero => rw [List.length_append, size] at bound; omega
    | succ fuel =>
      have first : decodeChar (byte :: (more ++ encode text)) = some c := by
        rw [decodeChar_iff, ← List.cons_append, ← split]
        exact List.prefix_append _ _
      have rest : (byte :: (more ++ encode text)).drop c.utf8Size = encode text := by
        rw [← List.cons_append, ← split, ← size, List.drop_left]
      rw [split, List.cons_append, decodeFuel, first]
      simp only [rest]
      rw [ih fuel (by rw [List.length_append, size] at bound; omega)]
      rfl

theorem encode_of_decodeFuel {fuel : Nat} {bytes : List UInt8} {text : List Char}
    (run : decodeFuel fuel bytes = some text) : encode text = bytes := by
  induction fuel generalizing bytes text with
  | zero =>
    cases bytes with
    | nil => cases Option.some.inj run; rfl
    | cons => simp [decodeFuel] at run
  | succ fuel ih =>
    cases bytes with
    | nil => cases Option.some.inj run; rfl
    | cons byte rest =>
      rw [decodeFuel] at run
      split at run
      · cases run
      · rename_i c first
        obtain ⟨tail, decoded, rfl⟩ := Option.map_eq_some_iff.mp run
        obtain ⟨more, split⟩ := decodeChar_iff.mp first
        have length : (String.utf8EncodeChar c).length = c.utf8Size := String.length_utf8EncodeChar c
        rw [← split, ← length, List.drop_left] at decoded
        rw [encode_cons, ih decoded, split]

theorem decode_eq_some {bytes : List UInt8} {text : List Char} :
    decode bytes = some text ↔ encode text = bytes := by
  constructor
  · exact encode_of_decodeFuel
  · rintro rfl
    exact decodeFuel_encode text _ le_rfl

@[simp] theorem decode_encode (text : List Char) : decode (encode text) = some text := decode_eq_some.mpr rfl

theorem encode_injective {left right : List Char} (same : encode left = encode right) : left = right := by
  have decoded := decode_encode left
  rw [same, decode_encode] at decoded
  exact (Option.some.inj decoded).symm

/-- No character's encoding is a prefix of another's, so a prefix relation
between encodings comes from one between the texts. -/
theorem prefix_of_encode_prefix {left right : List Char} (bytes : encode left <+: encode right) : left <+: right := by
  induction left generalizing right with
  | nil => exact List.nil_prefix
  | cons c left ih =>
    cases right with
    | nil => exact absurd (encode_eq_nil (List.prefix_nil.mp bytes)) (List.cons_ne_nil _ _)
    | cons d right =>
      have atC : decodeChar (encode (d :: right)) = some c := by
        rw [decodeChar_iff]
        exact (List.prefix_append _ _).trans bytes
      have atD : decodeChar (encode (d :: right)) = some d := by
        rw [decodeChar_iff]
        exact List.prefix_append _ _
      rw [atC] at atD
      cases Option.some.inj atD
      rw [encode_cons, encode_cons, List.prefix_append_right_inj] at bytes
      exact List.cons_prefix_cons.mpr ⟨rfl, ih bytes⟩

theorem encode_prefix {left right : List Char} (chars : left <+: right) : encode left <+: encode right := by
  obtain ⟨rest, rfl⟩ := chars
  rw [encode_append]
  exact List.prefix_append _ _

/-- `offset` lies between two characters of `text`. -/
def IsCharBoundary (text : List Char) (offset : Nat) : Prop :=
  ∃ front, front <+: text ∧ (encode front).length = offset

/-- A cut encoding is valid exactly when the cut is a character boundary. -/
theorem decode_take {text : List Char} {offset : Nat} (bound : offset ≤ (encode text).length) :
    (∃ front, decode ((encode text).take offset) = some front) ↔ IsCharBoundary text offset := by
  constructor
  · rintro ⟨front, decoded⟩
    have bytes := decode_eq_some.mp decoded
    refine ⟨front, prefix_of_encode_prefix (bytes ▸ List.take_prefix _ _), ?_⟩
    rw [bytes, List.length_take, min_eq_left bound]
  · rintro ⟨front, ⟨back, rfl⟩, rfl⟩
    refine ⟨front, ?_⟩
    rw [encode_append, List.take_left, decode_encode]

/-- A byte with its high bit set is no line feed. -/
theorem or_ne_newline {low high : UInt8} (marked : 128 ≤ high.toNat) : (10 : UInt8) ≠ low ||| high := by
  intro same
  have value := congrArg UInt8.toNat same
  have above : high.toNat ≤ low.toNat ||| high.toNat := Nat.right_le_or
  rw [UInt8.toNat_or] at value
  have ten : (10 : UInt8).toNat = 10 := rfl
  omega

theorem newline_mem_encodeChar {c : Char} : (10 : UInt8) ∈ String.utf8EncodeChar c ↔ c = '\n' := by
  constructor
  · intro member
    rcases Char.utf8Size_eq c with one | two | three | four
    · rw [String.utf8EncodeChar_eq_singleton one, List.mem_singleton] at member
      have small := UInt32.le_iff_toNat_le.mp (Char.utf8Size_eq_one_iff.mp one)
      have value := congrArg UInt8.toNat member
      rw [UInt32.toNat_toUInt8] at value
      have bound : (127 : UInt32).toNat = 127 := rfl
      have ten : (10 : UInt8).toNat = 10 := rfl
      apply Char.ext
      apply UInt32.toNat_inj.mp
      change c.val.toNat = 10
      omega
    · rw [String.utf8EncodeChar_eq_cons_cons two] at member
      simp only [List.mem_cons, List.not_mem_nil, or_false] at member
      rcases member with same | same <;> exact absurd same (or_ne_newline (by decide))
    · rw [String.utf8EncodeChar_eq_cons_cons_cons three] at member
      simp only [List.mem_cons, List.not_mem_nil, or_false] at member
      rcases member with same | same | same <;> exact absurd same (or_ne_newline (by decide))
    · rw [String.utf8EncodeChar_eq_cons_cons_cons_cons four] at member
      simp only [List.mem_cons, List.not_mem_nil, or_false] at member
      rcases member with same | same | same | same <;> exact absurd same (or_ne_newline (by decide))
  · rintro rfl
    decide

theorem newline_mem_encode {text : List Char} : (10 : UInt8) ∈ encode text ↔ '\n' ∈ text := by
  simp only [encode, List.mem_flatMap, newline_mem_encodeChar]
  constructor
  · rintro ⟨c, member, rfl⟩
    exact member
  · intro member
    exact ⟨_, member, rfl⟩

end Swarm.Utf8
