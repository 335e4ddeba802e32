import Mathlib.Data.List.Infix
import Swarm.Domain.Identity

namespace Swarm

def isSlugChar (ch : Char) : Bool := ('a' ≤ ch && ch ≤ 'z') || ('0' ≤ ch && ch ≤ '9')

/-- Words of small letters and digits with single dashes between them. -/
structure IsSlug (text : List Char) : Prop where
  short : text.length ≤ 48
  chars : ∀ ch ∈ text, isSlugChar ch = true ∨ ch = '-'
  leading : text.head? ≠ some '-'
  trailing : text.getLast? ≠ some '-'
  doubled : ¬ ['-', '-'] <:+: text

/-- What the loop of `slug` has written so far. -/
structure Slugging (out : List Char) (lastDash : Bool) : Prop where
  chars : ∀ ch ∈ out, isSlugChar ch = true ∨ ch = '-'
  leading : out.head? ≠ some '-'
  doubled : ¬ ['-', '-'] <:+: out
  dash : out.getLast? = some '-' → lastDash = true

theorem isSlugChar_dash : isSlugChar '-' = false := by decide

theorem isSlugChar_lowercase {ch : Char} (alphanumeric : isAsciiAlphanumeric ch = true) :
    isSlugChar (toAsciiLowercase ch) = true := by
  unfold toAsciiLowercase
  split
  · rename_i upper
    simp only [Bool.and_eq_true, decide_eq_true_eq] at upper
    have lower : 65 ≤ ch.toNat := upper.1
    have most : ch.toNat ≤ 90 := upper.2
    have letters : ∀ k : Fin 26, isSlugChar (Char.ofNat (65 + k + 32)) = true := by decide
    have letter := letters ⟨ch.toNat - 65, by omega⟩
    have place : 65 + (ch.toNat - 65) = ch.toNat := by omega
    simp only [place] at letter
    exact letter
  · rename_i other
    simp only [isAsciiAlphanumeric, Bool.or_eq_true] at alphanumeric
    simp only [isSlugChar, Bool.or_eq_true]
    rcases alphanumeric with (letter | upper) | digit
    · exact Or.inl letter
    · exact absurd upper other
    · exact Or.inr digit

theorem not_doubled_concat {out : List Char} {ch : Char} (single : ¬ ['-', '-'] <:+: out)
    (apart : ch = '-' → out.getLast? ≠ some '-') : ¬ ['-', '-'] <:+: out ++ [ch] := by
  rw [List.infix_concat_iff, List.suffix_concat_iff]
  rintro ((empty | ⟨front, parts, tail⟩) | inside)
  · cases empty
  · have parts : ['-'] ++ ['-'] = front ++ [ch] := parts
    obtain ⟨rfl, same⟩ := List.append_inj' parts rfl
    obtain ⟨before, rfl⟩ := tail
    rw [List.cons.injEq] at same
    exact apart same.1.symm List.getLast?_concat
  · exact single inside

theorem Slugging.concat {out : List Char} {lastDash : Bool} (slugging : Slugging out lastDash)
    {ch : Char} {dash : Bool} (allowed : isSlugChar ch = true ∨ ch = '-') (first : out = [] → ch ≠ '-')
    (apart : ch = '-' → lastDash = false) (marks : ch = '-' → dash = true) : Slugging (out ++ [ch]) dash where
  chars other member := by
    rcases List.mem_append.mp member with old | new
    · exact slugging.chars other old
    · rw [List.mem_singleton.mp new]
      exact allowed
  leading := by
    cases out with
    | nil => simpa using first rfl
    | cons head rest => exact slugging.leading
  doubled := by
    refine not_doubled_concat slugging.doubled ?_
    intro same last
    have unmarked := apart same
    rw [slugging.dash last] at unmarked
    cases unmarked
  dash last := by
    rw [List.getLast?_concat, Option.some.injEq] at last
    exact marks last

/-- The loop ends as soon as 48 characters are written. -/
theorem slugLoop_slugging (text : List Char) {out : List Char} {lastDash : Bool} (slugging : Slugging out lastDash)
    (room : out.length < 48) :
    (∃ dash, Slugging (slugLoop text out lastDash) dash) ∧ (slugLoop text out lastDash).length ≤ 48 := by
  induction text generalizing out lastDash with
  | nil => exact ⟨⟨lastDash, slugging⟩, Nat.le_of_lt room⟩
  | cons ch rest ih =>
    have go : ∀ {next : List Char} {dash : Bool}, Slugging next dash → next.length ≤ out.length + 1 →
        (∃ dash', Slugging (if 48 ≤ next.length then next else slugLoop rest next dash) dash') ∧
          (if 48 ≤ next.length then next else slugLoop rest next dash).length ≤ 48 := by
      intro next dash written longer
      split
      · exact ⟨⟨dash, written⟩, by omega⟩
      · exact ih written (by omega)
    have size : ∀ other : Char, (out ++ [other]).length ≤ out.length + 1 := fun _ => by
      rw [List.length_append, List.length_singleton]
    unfold slugLoop
    by_cases alphanumeric : isAsciiAlphanumeric ch = true
    · simp only [alphanumeric, if_true]
      have lower := isSlugChar_lowercase alphanumeric
      have other : toAsciiLowercase ch ≠ '-' := by
        intro same
        rw [same, isSlugChar_dash] at lower
        cases lower
      exact go (slugging.concat (Or.inl lower) (fun _ => other) (fun same => absurd same other)
        (fun same => absurd same other)) (size _)
    · simp only [alphanumeric]
      by_cases between : (!lastDash && !out.isEmpty) = true
      · simp only [between, if_true]
        rw [Bool.and_eq_true, Bool.not_eq_true', Bool.not_eq_true', List.isEmpty_eq_false_iff] at between
        exact go (slugging.concat (Or.inr rfl) (fun empty => absurd empty between.2)
          (fun _ => between.1) (fun _ => rfl))
          (size _)
      · simp only [between]
        exact go slugging (Nat.le_succ _)

/-- Every slug has the form it should have, also one that is cut off at a dash. -/
theorem isSlug_slug (title : String) : IsSlug (slug title).toList := by
  have begun : Slugging [] false := ⟨fun _ none => (by cases none), by decide, by decide, by decide⟩
  obtain ⟨⟨_, written⟩, short⟩ := slugLoop_slugging title.toList begun (by decide)
  rw [slug, String.toList_ofList, trimDashes]
  generalize slugLoop title.toList [] false = out at written short
  have front : (out.reverse.dropWhile (· = '-')).reverse <+: out := by
    rw [← List.reverse_suffix, List.reverse_reverse]
    exact List.dropWhile_suffix _
  have first := List.head?_dropWhile_not (· = '-') out.reverse
  constructor
  · exact Nat.le_trans front.length_le short
  · exact fun ch member => written.chars ch (front.subset member)
  · intro leading
    obtain ⟨rest, same⟩ := front
    refine written.leading ?_
    rw [← same, List.head?_append, leading]
    rfl
  · intro trailing
    rw [List.getLast?_reverse] at trailing
    rw [trailing] at first
    exact absurd first (by decide)
  · exact fun twice => written.doubled (twice.trans front.isInfix)

theorem displayUuid_inj {left right : Nat} (wide : left < 2 ^ 128) (wide' : right < 2 ^ 128)
    (same : displayUuid left = displayUuid right) : left = right := by
  have width : ∀ k n, (hexText k n).length = k := fun k n => by simp [hexText]
  have texts := congrArg String.toList same
  simp only [displayUuid, String.toList_ofList, List.append_assoc, List.cons_append] at texts
  obtain ⟨first, texts⟩ := List.append_inj texts ((width _ _).trans (width _ _).symm)
  obtain ⟨second, texts⟩ := List.append_inj (List.cons.inj texts).2 ((width _ _).trans (width _ _).symm)
  obtain ⟨third, texts⟩ := List.append_inj (List.cons.inj texts).2 ((width _ _).trans (width _ _).symm)
  obtain ⟨fourth, texts⟩ := List.append_inj (List.cons.inj texts).2 ((width _ _).trans (width _ _).symm)
  have first := hexText_inj first
  have second := hexText_inj second
  have third := hexText_inj third
  have fourth := hexText_inj fourth
  have fifth := hexText_inj (List.cons.inj texts).2
  omega

/-- The fields of a key, none of which has a separator of its own. -/
theorem attemptKey_toList (id : TaskId) (jobId : JobId) (kind : TaskKind) (title description : String)
    (stage attempt : Nat) :
    { TaskNode.new id jobId kind title description stage with attempt := attempt }.attemptKey.toList =
      jobId.display.toList ++ ':' ::
        ((toString stage).toList ++ ':' :: (kind.asStr.toList ++ ':' :: ((slug title).toList ++
        ':' :: (hexText 16 (stableHash (Utf8.encode title.toList)).toNat ++ '#' :: (toString attempt).toList)))) := by
  have plain : ∀ text : String, toString text = text := fun _ => rfl
  simp only [TaskNode.attemptKey, TaskNode.new, plain, String.toList_append]
  generalize jobId.display.toList = job
  generalize (toString stage).toList = level
  generalize kind.asStr.toList = name
  generalize (slug title).toList = words
  generalize hexText 16 (stableHash (Utf8.encode title.toList)).toNat = hash
  generalize (toString attempt).toList = number
  have colon : ":".toList = [':'] := rfl
  have mark : "#".toList = ['#'] := rfl
  simp only [colon, mark, String.toList_ofList, List.append_assoc, List.cons_append, List.nil_append]

theorem asStr_inj {kind kind' : TaskKind} (same : kind.asStr = kind'.asStr) : kind = kind' := by
  cases kind <;> cases kind' <;> first | rfl | exact absurd same (by decide)

theorem not_mem_slug (title : String) : ':' ∉ (slug title).toList := by
  intro member
  rcases (isSlug_slug title).chars _ member with char | dash
  · exact absurd char (by decide)
  · exact absurd dash (by decide)

/-- A slug has the form it should have; and two keys are the same only if all that goes into them is. -/
theorem attemptKey_unambiguous : (∀ title, IsSlug (slug title).toList) ∧
    ∀ (id id' : TaskId) (jobId jobId' : JobId) (kind kind' : TaskKind)
      (title title' description description' : String) (stage stage' attempt attempt' : Nat), jobId.uuid < 2 ^ 128 →
        jobId'.uuid < 2 ^ 128 →
      ({ TaskNode.new id jobId kind title description stage with attempt := attempt }.attemptKey =
          { TaskNode.new id' jobId' kind' title' description' stage' with attempt := attempt' }.attemptKey ↔
        jobId = jobId' ∧ stage = stage' ∧ kind = kind' ∧ slug title = slug title' ∧
          stableHash (Utf8.encode title.toList) = stableHash (Utf8.encode title'.toList) ∧ attempt = attempt') := by
  refine ⟨isSlug_slug, ?_⟩
  intro id id' jobId jobId' kind kind' title title' description description' stage stage' attempt attempt' wide wide'
  constructor
  · intro same
    have texts := congrArg String.toList same
    rw [attemptKey_toList, attemptKey_toList] at texts
    have width : ∀ k n, (hexText k n).length = k := fun k n => by simp [hexText]
    have displayed : ∀ uuid, (displayUuid uuid).toList.length = 36 := fun uuid => by
      simp [displayUuid, width]
    obtain ⟨job, texts⟩ := List.append_inj texts ((displayed _).trans (displayed _).symm)
    have digits : ∀ n : Nat, ':' ∉ (toString n).toList := not_mem_decimal (by decide)
    obtain ⟨level, texts⟩ := append_separator_inj (digits _) (digits _) (List.cons.inj texts).2
    have plain : ∀ kind : TaskKind, ':' ∉ kind.asStr.toList := fun kind => by cases kind <;> decide
    obtain ⟨name, texts⟩ := append_separator_inj (plain _) (plain _) texts
    obtain ⟨words, texts⟩ := append_separator_inj (not_mem_slug _) (not_mem_slug _) texts
    obtain ⟨hash, number⟩ := List.append_inj texts ((width _ _).trans (width _ _).symm)
    have hash := hexText_inj hash
    have bound : ∀ hash : UInt64, hash.toNat % 16 ^ 16 = hash.toNat := fun hash => Nat.mod_eq_of_lt hash.toNat_lt
    rw [bound, bound] at hash
    have uuids := displayUuid_inj wide wide' (String.toList_injective job)
    refine ⟨?_, decimal_inj (String.toList_injective level), asStr_inj (String.toList_injective name),
      String.toList_injective words, UInt64.toNat_inj.mp hash,
        decimal_inj (String.toList_injective (List.cons.inj number).2)⟩
    cases jobId
    cases jobId'
    simp only at uuids
    rw [uuids]
  · rintro ⟨rfl, rfl, rfl, words, hash, rfl⟩
    refine String.toList_injective ?_
    rw [attemptKey_toList, attemptKey_toList, words, hash]

/-- Titles that differ in case alone share a slug and are told apart by their hashes. -/
theorem attemptKey_unambiguous_case : (TaskNode.new ⟨1⟩ ⟨1⟩ .work "Do it" "" 1).attemptKey ≠
    (TaskNode.new ⟨2⟩ ⟨1⟩ .work "do it" "" 1).attemptKey ∧ slug "Do it" = slug "do it" := by
  have differ : stableHash (Utf8.encode "Do it".toList) ≠ stableHash (Utf8.encode "do it".toList) := by decide +kernel
  refine ⟨?_, by decide +kernel⟩
  intro same
  have fields := (attemptKey_unambiguous.2 ⟨1⟩ ⟨2⟩ ⟨1⟩ ⟨1⟩ .work .work "Do it" "do it" "" "" 1 1 0 0 (by decide)
    (by decide)).mp same
  exact differ fields.2.2.2.2.1

end Swarm
