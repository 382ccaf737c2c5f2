import Mathlib.Algebra.Group.Nat.Defs

/-!
# Criteria progress

`CriteriaHandler::SetCriteriaProgress` (`CriteriaHandler.cpp:950-1020`, the
timers of started criteria and the packets left out) and the case of
`UpdateCriteria` for `CompleteAnyDailyQuestPerDay` (`:605-634`).
-/
namespace LegionServer.Source.Achievements

structure CriteriaProgress where
  counter : UInt64
  date : Int64
  playerGUID : Nat
  changed : Bool

inductive ProgressType where
  | PROGRESS_SET | PROGRESS_ACCUMULATE | PROGRESS_HIGHEST
  deriving DecidableEq

/-- The `switch` over the progress type; accumulating stops at the maximum. -/
def ProgressType.newValue (counter changeValue : UInt64) : ProgressType → UInt64
  | .PROGRESS_SET => changeValue
  | .PROGRESS_ACCUMULATE =>
    let max_value : UInt64 := UInt64.ofNat (2 ^ 64 - 1)
    if max_value - counter > changeValue then counter + changeValue else max_value
  | .PROGRESS_HIGHEST => if counter < changeValue then changeValue else counter

/-- `SetCriteriaProgress` on one criterion's entry of `_criteriaProgress`. -/
def setCriteriaProgress (startTimer : UInt32) (now : Int64) (referencePlayer : Nat)
    (changeValue : UInt64) (progressType : ProgressType) :
    Option CriteriaProgress → Option CriteriaProgress
  | none =>
    if changeValue = 0 ∧ startTimer = 0 then none
    else some ⟨changeValue, now, referencePlayer, true⟩
  | some progress =>
    let newValue := progressType.newValue progress.counter changeValue
    -- not marked as changed, and not dated, where the counter keeps its value
    if progress.counter = newValue ∧ startTimer = 0 then some progress
    else some ⟨newValue, now, referencePlayer, true⟩

def DAY : Int := 86400

/-- `GetNextDailyQuestsResetTime`: the first of the resets, a day apart, after `now`. -/
def nextDailyResetTime (reset : Int) (now : Int64) : Int :=
  reset + ((now.toInt - reset) / DAY + 1) * DAY

/-- A login (`miscValue1 = 0`) or the completion of a daily quest. -/
structure QuestUpdate where
  miscValue1 : UInt64
  now : Int64
  referencePlayer : Nat

/-- `UpdateCriteria` for a `CompleteAnyDailyQuestPerDay` criterion without timer. -/
def updateDailyQuest (reset : Int) (update : QuestUpdate) (progress : Option CriteriaProgress) :
    Option CriteriaProgress :=
  let next := nextDailyResetTime reset update.now
  let set := setCriteriaProgress 0 update.now update.referencePlayer
  match progress with
  | none => if update.miscValue1 = 0 then none else set 1 .PROGRESS_SET none
  | some p =>
    if update.miscValue1 = 0 then
      if p.date.toInt < next - 2 * DAY then set 0 .PROGRESS_SET progress else progress
    else if p.date.toInt < next - 2 * DAY then set 1 .PROGRESS_SET progress
    else if p.date.toInt < next - DAY then set 1 .PROGRESS_ACCUMULATE progress
    else progress

end LegionServer.Source.Achievements
