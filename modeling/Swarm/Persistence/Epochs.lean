import Swarm.Persistence.FileJournal

namespace Swarm

/-- What a crash in the middle of an append leaves: a proper prefix of the
record's text. -/
structure Torn {R : Type} (serde : SerdeJson R) where
  record : R
  left : List Char
  chars : left <+: serde.toText record
  proper : left ≠ serde.toText record

/-- One process lifetime on a journal file. -/
structure Epoch {R : Type} (serde : SerdeJson R) where
  appended : List R
  crash : Option (Torn serde)

/-- Text that starts with a torn object never becomes a document again by
writing the beginnings of further objects after it: the torn object stays open. -/
def SerdeJson.TornStaysTorn {R : Type} (serde : SerdeJson R) : Prop :=
  ∀ torn : Torn serde, torn.left ≠ [] → ∀ pieces : List (List Char),
    (∀ piece ∈ pieces, ∃ record, piece <+: serde.toText record) →
      ∀ other, serde.fromStr (torn.left ++ pieces.flatten) ≠ .ok other

namespace Epoch
variable {R : Type} {serde : SerdeJson R}

def leavesTorn (epoch : Epoch serde) : Bool :=
  match epoch.crash with
  | none => false
  | some torn => !torn.left.isEmpty

/-- The text a crash adds to the file. -/
def tornText (epoch : Epoch serde) : List Char :=
  match epoch.crash with
  | none => []
  | some torn => torn.left

/-- Open the file, append, then close or crash. -/
def run (journal : FileJournal) (epoch : Epoch serde) : FileJournal :=
  let opened := FileJournal.withFsync journal.path journal.disk
  let after := epoch.appended.foldl (FileJournal.append serde) opened
  match epoch.crash with
  | none => after
  | some torn => { after with disk := after.disk ++ Utf8.encode torn.left }

/-- The records of all epochs whose append returned. -/
def acknowledged (epochs : List (Epoch serde)) : List R := epochs.flatMap Epoch.appended

/-- No record is appended once an earlier crash has left a non-empty torn
prefix at the end of the file. -/
def NoAppendAfterTorn : Bool → List (Epoch serde) → Prop
  | _, [] => True
  | torn, epoch :: rest => (torn = true → epoch.appended = []) ∧ NoAppendAfterTorn (torn || epoch.leavesTorn) rest

theorem run_disk (journal : FileJournal) (epoch : Epoch serde) :
    (run journal epoch).disk =
      journal.disk ++ Utf8.encode (epoch.appended.flatMap serde.line ++ epoch.tornText) := by
  unfold run tornText
  cases epoch.crash with
  | none => simp [FileJournal.foldl_append, FileJournal.withFsync]
  | some torn => simp [FileJournal.foldl_append, FileJournal.withFsync, Utf8.encode_append]

/-- Later epochs only add bytes. -/
theorem runs_extend (epochs : List (Epoch serde)) (journal : FileJournal) :
    ∃ more, (epochs.foldl run journal).disk = journal.disk ++ more := by
  induction epochs generalizing journal with
  | nil => exact ⟨[], by simp⟩
  | cons epoch epochs ih =>
    obtain ⟨more, grown⟩ := ih (run journal epoch)
    refine ⟨Utf8.encode (epoch.appended.flatMap serde.line ++ epoch.tornText) ++ more, ?_⟩
    rw [List.foldl_cons, grown, run_disk, List.append_assoc]

end Epoch

namespace FileJournal
variable {R : Type} {serde : SerdeJson R}

/-- An unended tail left by one or more crashes. -/
def TornTail (serde : SerdeJson R) (tail : List Char) : Prop :=
  ∃ torn : Torn serde, torn.left ≠ [] ∧ ∃ pieces : List (List Char),
    (∀ piece ∈ pieces, ∃ record, piece <+: serde.toText record) ∧ tail = torn.left ++ pieces.flatten

theorem TornTail.grow {tail piece : List Char} (torn : TornTail serde tail)
    {record : R} (chars : piece <+: serde.toText record) : TornTail serde (tail ++ piece) := by
  obtain ⟨first, nonempty, pieces, begun, rfl⟩ := torn
  refine ⟨first, nonempty, pieces ++ [piece], ?_, by simp⟩
  intro other member
  rcases List.mem_append.mp member with old | new
  · exact begun other old
  · rw [List.mem_singleton] at new
    exact ⟨record, new ▸ chars⟩

theorem TornTail.oneLine {tail : List Char} (torn : TornTail serde tail) : '\n' ∉ tail := by
  obtain ⟨first, _, pieces, begun, rfl⟩ := torn
  rw [List.mem_append, List.mem_flatten, not_or]
  refine ⟨fun member => serde.oneLine first.record (first.chars.subset member), ?_⟩
  rintro ⟨piece, inPieces, member⟩
  obtain ⟨record, chars⟩ := begun piece inPieces
  exact serde.oneLine record (chars.subset member)

theorem TornTail.undecodable {tail : List Char} (torn : TornTail serde tail) (stays : serde.TornStaysTorn)
    (record : R) : serde.fromStr tail ≠ .ok record := by
  obtain ⟨first, nonempty, pieces, begun, rfl⟩ := torn
  exact stays first nonempty pieces begun record

/-- A record written behind a torn tail shares its line, and the line is
dropped or refused: what is read back stops before it. -/
theorem replayLines_glued (stays : serde.TornStaysTorn) {path : String} {records result : List R}
    {tail : List Char} (torn : TornTail serde tail) (record : R) (more : List UInt8)
    (run : replayLines serde path records
      (Line.split (Utf8.encode (tail ++ serde.toText record) ++ 10 :: more)) = .ok result) : result = records := by
  have glued := torn.grow (List.prefix_refl (serde.toText record))
  have noFeed : (10 : UInt8) ∉ Utf8.encode (tail ++ serde.toText record) := by
    rw [Utf8.newline_mem_encode]
    exact glued.oneLine
  have noReturn : (tail ++ serde.toText record).getLast? ≠ some '\r' := by
    rw [List.getLast?_append_of_ne_nil _ (serde.toText_ne_nil record)]
    exact serde.toText_getLast record
  have notBlank : isBlank (tail ++ serde.toText record) = false := by
    have last := serde.toText_not_blank record
    unfold isBlank at last ⊢
    rw [List.all_append, last, Bool.and_false]
  rw [Line.split_ended noFeed, replayLines, Line.read_ended noReturn] at run
  cases decoded : serde.fromStr (tail ++ serde.toText record) with
  | ok other => exact absurd decoded (glued.undecodable stays other)
  | error e =>
    simp only [notBlank, decoded, Bool.false_eq_true, if_false] at run
    split at run
    · rename_i last
      rw [List.isEmpty_iff] at last
      rw [last] at run
      cases run
      rfl
    · cases run

theorem replay_epochs_from (stays : serde.TornStaysTorn) (epochs : List (Epoch serde)) :
    ∀ (journal : FileJournal) (done : List R) (tail : List Char) (torn : Bool),
      journal.disk = Utf8.encode (done.flatMap serde.line ++ tail) →
      (torn = true → TornTail serde tail) → (torn = false → tail = []) →
      (replay serde (epochs.foldl Epoch.run journal) = .ok (done ++ Epoch.acknowledged epochs) ↔
        Epoch.NoAppendAfterTorn torn epochs) := by
  induction epochs with
  | nil =>
    intro journal done tail torn disk isTorn isWhole
    have rest : replayLines serde journal.path done (Line.split (Utf8.encode tail)) = .ok done := by
      cases torn with
      | false => rw [isWhole rfl]; rfl
      | true => exact replayLines_torn serde _ done (isTorn rfl).oneLine ((isTorn rfl).undecodable stays)
    simp only [List.foldl_nil, replay, disk, Utf8.encode_append, replayLines_wholes, List.nil_append, rest,
      Epoch.NoAppendAfterTorn, Epoch.acknowledged, List.flatMap_nil, List.append_nil]
  | cons epoch epochs ih =>
    intro journal done tail torn disk isTorn isWhole
    have after := Epoch.run_disk journal epoch
    rw [disk, ← Utf8.encode_append] at after
    have total : done ++ Epoch.acknowledged (epoch :: epochs) = done ++ epoch.appended ++
        Epoch.acknowledged epochs := by
      simp [Epoch.acknowledged]
    rw [List.foldl_cons, Epoch.NoAppendAfterTorn, total]
    cases torn with
    | false =>
      cases isWhole rfl
      have clean : (Epoch.run journal epoch).disk =
          Utf8.encode ((done ++ epoch.appended).flatMap serde.line ++ epoch.tornText) := by
        rw [after]; simp
      rw [ih _ _ _ (false || epoch.leavesTorn) clean]
      · simp
      · unfold Epoch.leavesTorn Epoch.tornText
        cases epoch.crash with
        | none => simp
        | some left =>
          intro nonempty
          exact ⟨left, by simpa using nonempty, [], by simp, by simp⟩
      · unfold Epoch.leavesTorn Epoch.tornText
        cases epoch.crash <;> simp
    | true =>
      cases records : epoch.appended with
      | nil =>
        rw [records] at after
        have grown : (Epoch.run journal epoch).disk =
            Utf8.encode ((done ++ []).flatMap serde.line ++ (tail ++ epoch.tornText)) := by
          rw [after]; simp
        rw [ih _ _ _ (true || epoch.leavesTorn) grown]
        · simp
        · intro _
          unfold Epoch.tornText
          cases epoch.crash with
          | none => simpa using isTorn rfl
          | some left => exact (isTorn rfl).grow left.chars
        · simp
      | cons record more =>
        rw [records] at after
        refine iff_of_false ?_ (by simp)
        intro run
        obtain ⟨later, grown⟩ := Epoch.runs_extend epochs (Epoch.run journal epoch)
        have bytes : (epochs.foldl Epoch.run (Epoch.run journal epoch)).disk =
            Utf8.encode (done.flatMap serde.line) ++ (Utf8.encode (tail ++ serde.toText record) ++
              10 :: (Utf8.encode (more.flatMap serde.line ++ epoch.tornText) ++ later)) := by
          rw [grown, after]
          simp [Utf8.encode_append, Utf8.encode_newline_cons, SerdeJson.line]
        rw [replay, bytes, replayLines_wholes, List.nil_append] at run
        have short := replayLines_glued stays (isTorn rfl) record _ run
        have length := congrArg List.length short
        simp only [List.length_append, List.length_cons] at length
        omega

/-- After any epochs on one file, replay returns exactly the acknowledged
records if and only if none of them was appended behind a torn prefix. -/
theorem replay_epochs_iff (stays : serde.TornStaysTorn) (path : String) (epochs : List (Epoch serde)) :
    replay serde (epochs.foldl Epoch.run (withFsync path [])) = .ok (Epoch.acknowledged epochs) ↔
      Epoch.NoAppendAfterTorn false epochs := by
  have start : (withFsync path []).disk = Utf8.encode (([] : List R).flatMap serde.line ++ []) := rfl
  simpa using replay_epochs_from stays epochs (withFsync path []) [] [] false start (by simp) (by simp)

end FileJournal

namespace StatusRecord

/-- An object's text opens a brace before anything else. -/
theorem brace_mem {text : List Char} (nonempty : text ≠ []) {record : StatusRecord}
    (chars : text <+: serde.toText record) : '\x7b' ∈ text := by
  obtain ⟨body, object⟩ := serde.object record
  obtain ⟨first, rest, rfl⟩ := List.exists_cons_of_ne_nil nonempty
  rw [object, List.cons_append, List.cons_prefix_cons] at chars
  rw [chars.1]
  exact List.mem_cons_self

theorem tornStaysTorn : serde.TornStaysTorn := by
  intro torn nonempty pieces begun other decoded
  have text := fromStr_ok decoded
  by_cases glued : pieces.flatten = []
  · rw [glued, List.append_nil] at text
    have same := toText_starts (text ▸ torn.chars : toText other <+: toText torn.record)
    exact torn.proper (text.trans (congrArg toText same))
  · -- a second opening brace, where a status record has only one
    obtain ⟨piece, inPieces, more⟩ : ∃ piece ∈ pieces, piece ≠ [] := by
      by_contra none
      push Not at none
      exact glued (List.flatten_eq_nil_iff.mpr none)
    obtain ⟨record, chars⟩ := begun piece inPieces
    have first := List.count_pos_iff.mpr (brace_mem nonempty torn.chars)
    have second := List.count_pos_iff.mpr (List.mem_flatten.mpr ⟨piece, inPieces, brace_mem more chars⟩)
    have one : (toText other).count '\x7b' = 1 := by cases other <;> decide +kernel
    rw [← text, List.count_append] at one
    omega

/-- The first process dies twelve characters into its second append. -/
def dyingEpoch : Epoch serde where
  appended := [running]
  crash := some ⟨paused, (toText paused).take 12, List.take_prefix _ _, by decide +kernel⟩

end StatusRecord

namespace FileJournal

theorem replay_after_crash_at_end :
    replay StatusRecord.serde ([⟨[.running, .paused], none⟩, StatusRecord.dyingEpoch].foldl Epoch.run
      (withFsync "swarm.journal" [])) = .ok [.running, .paused, .running] :=
  (replay_epochs_iff StatusRecord.tornStaysTorn "swarm.journal"
    [⟨[.running, .paused], none⟩, StatusRecord.dyingEpoch]).mpr ⟨by simp, by simp [Epoch.leavesTorn], trivial⟩

/-- The next process reopens the file and appends one record: it lands on the
torn line and is dropped with it, although its append returned. -/
theorem replay_loses_acknowledged :
    ¬ replay StatusRecord.serde ([StatusRecord.dyingEpoch, ⟨[.paused], none⟩].foldl Epoch.run
      (withFsync "swarm.journal" [])) = .ok (Epoch.acknowledged [StatusRecord.dyingEpoch, ⟨[.paused], none⟩]) := by
  decide +kernel

end FileJournal

end Swarm
