import Swarm.Lib.Lines
import Swarm.Domain.Basic

namespace Swarm

/-- What the journal relies on in `serde_json`, for one type of records. A
record is an internally tagged enum, so its text is a JSON object; control
characters are escaped, so the text is one line. -/
structure SerdeJson (R : Type) where
  toText : R → List Char
  fromStr : List Char → Except String R
  object : ∀ record, ∃ body, toText record = '\x7b' :: body ++ ['\x7d']
  oneLine : ∀ record, '\n' ∉ toText record
  roundTrip : ∀ record, fromStr (toText record) = .ok record
  torn : ∀ record text, text <+: toText record → text ≠ toText record → ∀ other, fromStr text ≠ .ok other

/-- A journal file: where it lives and the bytes on disk. An append that
returns has reached the disk; failing writes are not modelled. -/
structure FileJournal where
  path : String
  disk : List UInt8

namespace FileJournal
variable {R : Type} (serde : SerdeJson R)

/-- Opening keeps what is there; nothing is repaired or terminated. -/
def withFsync (path : String) (disk : List UInt8) : FileJournal := ⟨path, disk⟩

def append (journal : FileJournal) (record : R) : FileJournal :=
  { journal with disk := journal.disk ++ Utf8.encode (serde.toText record ++ ['\n']) }

/-- The replay loop over the lines still to read. -/
def replayLines (path : String) : List R → List Line → Except SwarmError (List R)
  | records, [] => .ok records
  | records, line :: rest =>
    match line.read with
    | none => .error (.internal "reading journal line: stream did not contain valid UTF-8")
    | some text =>
      if isBlank text then replayLines path records rest
      else match serde.fromStr text with
        | .ok record => replayLines path (records ++ [record]) rest
        | .error error =>
          -- a torn final line is dropped; anything later means corruption
          if rest.isEmpty then replayLines path records rest
          else .error (.internal s!"journal {path} is corrupt at record {records.length + 1}: {error}")

def replay (journal : FileJournal) : Except SwarmError (List R) :=
  replayLines serde journal.path [] (Line.split journal.disk)

end FileJournal

namespace SerdeJson
variable {R : Type} (serde : SerdeJson R)

def line (record : R) : List Char := serde.toText record ++ ['\n']

theorem toText_ne_nil (record : R) : serde.toText record ≠ [] := by
  obtain ⟨body, text⟩ := serde.object record
  rw [text]
  simp

theorem toText_not_blank (record : R) : isBlank (serde.toText record) = false := by
  obtain ⟨body, text⟩ := serde.object record
  rw [text, isBlank]
  simp [isWhitespace]

theorem toText_getLast (record : R) : (serde.toText record).getLast? ≠ some '\r' := by
  obtain ⟨body, text⟩ := serde.object record
  rw [text, List.getLast?_concat]
  decide

theorem oneLine_bytes (record : R) : (10 : UInt8) ∉ Utf8.encode (serde.toText record) := by
  rw [Utf8.newline_mem_encode]
  exact serde.oneLine record

end SerdeJson

namespace FileJournal
variable {R : Type} (serde : SerdeJson R)

theorem foldl_append (journal : FileJournal) (records : List R) :
    records.foldl (append serde) journal =
      { journal with disk := journal.disk ++ Utf8.encode (records.flatMap serde.line) } := by
  induction records generalizing journal with
  | nil => simp
  | cons record records ih =>
    rw [List.foldl_cons, ih, List.flatMap_cons, Utf8.encode_append, append, SerdeJson.line]
    simp

/-- A whole line is read back and pushed. -/
theorem replayLines_whole (path : String) (records : List R) (record : R) (rest : List UInt8) :
    replayLines serde path records (Line.split (Utf8.encode (serde.line record) ++ rest)) =
      replayLines serde path (records ++ [record]) (Line.split rest) := by
  have bytes : Utf8.encode (serde.line record) ++ rest = Utf8.encode (serde.toText record) ++ 10 :: rest := by
    rw [SerdeJson.line, Utf8.encode_append, List.append_assoc]
    rfl
  rw [bytes, Line.split_ended (serde.oneLine_bytes record), replayLines,
    Line.read_ended (serde.toText_getLast record)]
  simp [serde.toText_not_blank record, serde.roundTrip record]

theorem replayLines_wholes (path : String) (records more : List R) (rest : List UInt8) :
    replayLines serde path records (Line.split (Utf8.encode (more.flatMap serde.line) ++ rest)) =
      replayLines serde path (records ++ more) (Line.split rest) := by
  induction more generalizing records with
  | nil => simp
  | cons record more ih =>
    rw [List.flatMap_cons, Utf8.encode_append, List.append_assoc, replayLines_whole, ih, List.append_assoc]
    rfl

/-- An open last line that does not decode is dropped, blank or not. -/
theorem replayLines_torn (path : String) (records : List R) {text : List Char} (oneLine : '\n' ∉ text)
    (torn : ∀ record, serde.fromStr text ≠ .ok record) :
    replayLines serde path records (Line.split (Utf8.encode text)) = .ok records := by
  by_cases empty : text = []
  · subst empty
    rfl
  · have bytes : Utf8.encode text ≠ [] := fun none => empty (Utf8.encode_eq_nil none)
    have noFeed : (10 : UInt8) ∉ Utf8.encode text := by rwa [Utf8.newline_mem_encode]
    rw [Line.split_open noFeed bytes, replayLines, Line.read_open]
    cases decoded : serde.fromStr text with
    | ok record => exact absurd decoded (torn record)
    | error e => by_cases blank : isBlank text = true <;> simp [blank, decoded, replayLines]

end FileJournal

/-- Two records of one job, with the text `serde_json` gives them. -/
inductive StatusRecord where
  | running | paused
  deriving DecidableEq, Repr

namespace StatusRecord

def fields : StatusRecord → List String
  | running => ["\x7b\"record\":", "\"job_status_", "changed\",", "\"job_id\":", "\"019a0000-",
      "0000-7000-", "8000-0000",
      "00000001\",", "\"status\":", "\"running\",", "\"reason\":", "null,", "\"at\":", "\"2026-01-01",
        "T00:00:00Z\"", "\x7d"]
  | paused => ["\x7b\"record\":", "\"job_status_", "changed\",", "\"job_id\":", "\"019a0000-",
      "0000-7000-", "8000-0000",
      "00000001\",", "\"status\":", "\"paused\",", "\"reason\":", "\"Plan · Raft\",", "\"at\":", "\"2026-01-01",
      "T00:00:05Z\"", "\x7d"]

def toText (record : StatusRecord) : List Char := record.fields.flatMap String.toList

def fromStr (text : List Char) : Except String StatusRecord :=
  if text = toText running then .ok running
  else if text = toText paused then .ok paused
  else .error "EOF while parsing an object"

theorem fromStr_ok {text : List Char} {record : StatusRecord} (decoded : fromStr text = .ok record) :
    text = toText record := by
  unfold fromStr at decoded
  split at decoded
  · cases decoded; assumption
  · split at decoded
    · cases decoded; assumption
    · cases decoded

/-- Neither text is a prefix of the other. -/
theorem toText_starts {left right : StatusRecord} (chars : toText left <+: toText right) : left = right := by
  cases left <;> cases right <;> first | rfl | exact absurd chars (by decide +kernel)

def serde : SerdeJson StatusRecord where
  toText := toText
  fromStr := fromStr
  object record := ⟨(toText record).tail.dropLast, by cases record <;> decide +kernel⟩
  oneLine record := by cases record <;> decide +kernel
  roundTrip record := by cases record <;> decide +kernel
  torn record text chars proper other decoded := by
    obtain rfl := fromStr_ok decoded
    exact proper (congrArg toText (toText_starts chars))

end StatusRecord

end Swarm
