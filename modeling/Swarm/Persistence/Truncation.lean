import Swarm.Persistence.FileJournal

namespace Swarm.FileJournal
variable {R : Type} (serde : SerdeJson R)

/-- The journal that appending `records` to an empty file leaves. -/
def written (path : String) (records : List R) : FileJournal :=
  records.foldl (append serde) (withFsync path [])

/-- The file cut at a byte offset. -/
def truncate (journal : FileJournal) (offset : Nat) : FileJournal :=
  { journal with disk := journal.disk.take offset }

/-- The records whose encoding lies wholly before `offset`, where the first of
them starts at offset zero and each is followed by a line feed. -/
def whollyBefore : List R → Nat → List R
  | [], _ => []
  | record :: rest, offset =>
    let size := (Utf8.encode (serde.toText record)).length
    if size ≤ offset then record :: whollyBefore rest (offset - (size + 1)) else []

theorem written_disk (path : String) (records : List R) :
    (written serde path records).disk = Utf8.encode (records.flatMap serde.line) := by
  rw [written, foldl_append]
  simp [withFsync]

theorem line_length (record : R) :
    (Utf8.encode (serde.line record)).length = (Utf8.encode (serde.toText record)).length + 1 := by
  rw [SerdeJson.line, Utf8.encode_append, List.length_append]
  rfl

theorem text_length_pos (record : R) : 0 < (Utf8.encode (serde.toText record)).length := by
  rw [List.length_pos_iff]
  exact fun empty => serde.toText_ne_nil record (Utf8.encode_eq_nil empty)

theorem whollyBefore_zero (records : List R) : whollyBefore serde records 0 = [] := by
  cases records with
  | nil => rfl
  | cons record rest =>
    have positive := text_length_pos serde record
    rw [whollyBefore, if_neg (by omega)]

/-- The boundaries after a whole front part are those of the back part. -/
theorem boundary_append {front back : List Char} {offset : Nat} (past : (Utf8.encode front).length ≤ offset) :
    Utf8.IsCharBoundary (front ++ back) offset ↔
      Utf8.IsCharBoundary back (offset - (Utf8.encode front).length) := by
  constructor
  · rintro ⟨cut, chars, length⟩
    have bytes := Utf8.encode_prefix chars
    rw [Utf8.encode_append] at bytes
    have whole : Utf8.encode front <+: Utf8.encode cut :=
      List.prefix_of_prefix_length_le (List.prefix_append _ _) bytes (by omega)
    obtain ⟨more, rfl⟩ := Utf8.prefix_of_encode_prefix whole
    refine ⟨more, (List.prefix_append_right_inj front).mp chars, ?_⟩
    rw [Utf8.encode_append, List.length_append] at length
    omega
  · rintro ⟨cut, chars, length⟩
    refine ⟨front ++ cut, (List.prefix_append_right_inj front).mpr chars, ?_⟩
    rw [Utf8.encode_append, List.length_append]
    omega

theorem boundary_prefix {front back : List Char} {offset : Nat} (within : offset ≤ (Utf8.encode front).length) :
    Utf8.IsCharBoundary (front ++ back) offset ↔ Utf8.IsCharBoundary front offset := by
  constructor
  · rintro ⟨cut, chars, rfl⟩
    have bytes := Utf8.encode_prefix chars
    rw [Utf8.encode_append] at bytes
    refine ⟨cut, Utf8.prefix_of_encode_prefix ?_, rfl⟩
    exact List.prefix_of_prefix_length_le bytes (List.prefix_append _ _) within
  · rintro ⟨cut, chars, length⟩
    exact ⟨cut, chars.trans (List.prefix_append _ _), length⟩

/-- A cut inside one record, or at its end before the line feed: the record
counts exactly when it is whole, and reading fails inside a character. -/
theorem replayLines_cut (path : String) (records : List R) (record : R) {offset : Nat}
    (within : offset ≤ (Utf8.encode (serde.toText record)).length) :
    replayLines serde path records (Line.split ((Utf8.encode (serde.toText record)).take offset)) =
        .ok (records ++ if (Utf8.encode (serde.toText record)).length ≤ offset then [record] else []) ↔
      Utf8.IsCharBoundary (serde.toText record) offset := by
  have noFeed : (10 : UInt8) ∉ (Utf8.encode (serde.toText record)).take offset :=
    fun member => serde.oneLine_bytes record (List.mem_of_mem_take member)
  rw [← Utf8.decode_take within]
  constructor
  · intro run
    by_contra invalid
    have bad : Utf8.decode ((Utf8.encode (serde.toText record)).take offset) = none := by
      rw [Option.eq_none_iff_forall_not_mem]
      exact fun front decoded => invalid ⟨front, decoded⟩
    have nonempty : (Utf8.encode (serde.toText record)).take offset ≠ [] := by
      intro empty
      rw [empty] at bad
      cases bad
    rw [Line.split_open noFeed nonempty, replayLines, Line.read_invalid _ bad] at run
    cases run
  · rintro ⟨front, decoded⟩
    have bytes := Utf8.decode_eq_some.mp decoded
    have chars : front <+: serde.toText record :=
      Utf8.prefix_of_encode_prefix (bytes ▸ List.take_prefix _ _)
    rw [← bytes]
    by_cases whole : (Utf8.encode (serde.toText record)).length ≤ offset
    · rw [List.take_of_length_le whole] at bytes
      cases Utf8.encode_injective bytes
      have nonempty : Utf8.encode (serde.toText record) ≠ [] :=
        List.length_pos_iff.mp (text_length_pos serde record)
      rw [if_pos whole, Line.split_open (serde.oneLine_bytes record) nonempty, replayLines, Line.read_open]
      simp [serde.toText_not_blank record, serde.roundTrip record, replayLines]
    · have proper : front ≠ serde.toText record := by
        rintro rfl
        have length := congrArg List.length bytes
        rw [List.length_take] at length
        omega
      have oneLine : '\n' ∉ front := fun member => serde.oneLine record (chars.subset member)
      rw [if_neg whole, List.append_nil]
      exact replayLines_torn serde path records oneLine (serde.torn record front chars proper)

theorem replayLines_truncated (path : String) (records more : List R) (offset : Nat) :
    replayLines serde path records (Line.split ((Utf8.encode (more.flatMap serde.line)).take offset)) =
        .ok (records ++ whollyBefore serde more offset) ↔
      Utf8.IsCharBoundary (more.flatMap serde.line) (min offset (Utf8.encode (more.flatMap serde.line)).length) := by
  induction more generalizing records offset with
  | nil => simp [whollyBefore, replayLines, Utf8.IsCharBoundary]
  | cons record more ih =>
    have size := line_length serde record
    rw [List.flatMap_cons, Utf8.encode_append, List.length_append]
    by_cases past : (Utf8.encode (serde.line record)).length ≤ offset
    · have pushed : records ++ record :: whollyBefore serde more (offset - (Utf8.encode (serde.line record)).length) =
          records ++ [record] ++ whollyBefore serde more (offset - (Utf8.encode (serde.line record)).length) := by
        simp
      rw [List.take_append, List.take_of_length_le past, replayLines_whole, whollyBefore, if_pos (by omega),
        boundary_append (by omega), ← size, pushed, ih]
      rw [show min offset ((Utf8.encode (serde.line record)).length +
          (Utf8.encode (more.flatMap serde.line)).length) - (Utf8.encode (serde.line record)).length =
        min (offset - (Utf8.encode (serde.line record)).length) (Utf8.encode (more.flatMap serde.line)).length by
          omega]
    · have within : offset ≤ (Utf8.encode (serde.toText record)).length := by omega
      have left : (Utf8.encode (serde.line record)).take offset =
          (Utf8.encode (serde.toText record)).take offset := by
        rw [SerdeJson.line, Utf8.encode_append, List.take_append_of_le_length within]
      have count : whollyBefore serde (record :: more) offset =
          if (Utf8.encode (serde.toText record)).length ≤ offset then [record] else [] := by
        rw [whollyBefore]
        split
        · rw [show offset - ((Utf8.encode (serde.toText record)).length + 1) = 0 by omega, whollyBefore_zero]
        · rfl
      rw [List.take_append_of_le_length (by omega), left, count, replayLines_cut serde path records record within,
        min_eq_left (by omega), boundary_prefix (by omega), SerdeJson.line, boundary_prefix within]

/-- Replay of a cut journal gives exactly the records that lie wholly before
the cut if and only if the cut falls between two characters. -/
theorem replay_truncated_iff (path : String) (records : List R) (offset : Nat) :
    replay serde (truncate (written serde path records) offset) = .ok (whollyBefore serde records offset) ↔
      Utf8.IsCharBoundary (records.flatMap serde.line) (min offset (written serde path records).disk.length) := by
  rw [replay, truncate, written_disk]
  exact replayLines_truncated serde _ [] records offset

/-- A status record whose reason holds a two-byte character, cut inside it:
reading the last line fails before the torn-line rule is reached. -/
theorem replay_cut_inside_character :
    ¬ replay StatusRecord.serde (truncate (written StatusRecord.serde "swarm.journal" [.running, .paused]) 254) =
      .ok (whollyBefore StatusRecord.serde [.running, .paused] 254) := by
  decide +kernel

end Swarm.FileJournal
