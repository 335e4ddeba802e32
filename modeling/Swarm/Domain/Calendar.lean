import Swarm.Domain.Panic

namespace Swarm

/-- `DateTime::<Utc>::MIN_UTC`. -/
def minUtc : DateTime := -8334601228800 * 1000000000

/-- `DateTime::<Utc>::MAX_UTC`. -/
def maxUtc : DateTime := 8210266876799 * 1000000000 + 999999999

example : displayDateTime minUtc = "-262143-01-01 00:00:00 UTC" := by decide +kernel

example : displayDateTime maxUtc = "+262142-12-31 23:59:59.999999999 UTC" := by decide +kernel

/-- chrono's calendar has the instant. -/
def inCalendar (time : DateTime) : Bool := minUtc ≤ time ∧ time ≤ maxUtc

/-- `DateTime + Duration`. -/
def addDuration (now : DateTime) (duration : Int) : Except Panic DateTime :=
  if inCalendar (now + duration) then .ok (now + duration) else .error .dateTimeOverflowed

/-- `now + chrono::Duration::milliseconds(ms)` for an `i64`. The least one is not a duration. -/
def addMilliseconds (now : DateTime) (ms : Int) : Except Panic DateTime :=
  if ms = -2 ^ 63 then .error .timeDeltaOutOfBounds else addDuration now (milliseconds ms)

/-- The sum can be formed. -/
def msInCalendar (now : DateTime) (ms : Int) : Bool := ms ≠ -2 ^ 63 ∧ inCalendar (now + milliseconds ms)

theorem addMilliseconds_ok {now : DateTime} {ms : Int} (fits : msInCalendar now ms = true) :
    addMilliseconds now ms = .ok (now + milliseconds ms) := by
  simp only [msInCalendar, decide_eq_true_eq] at fits
  rw [addMilliseconds, if_neg fits.1, addDuration, if_pos fits.2]

theorem addMilliseconds_error {now : DateTime} {ms : Int} (outside : msInCalendar now ms = false) :
    ∃ panic, addMilliseconds now ms = .error panic := by
  simp only [msInCalendar, decide_eq_false_iff_not, not_and] at outside
  unfold addMilliseconds addDuration
  split
  · exact ⟨_, rfl⟩
  · rename_i bounded
    rw [if_neg (outside bounded)]
    exact ⟨_, rfl⟩

end Swarm
