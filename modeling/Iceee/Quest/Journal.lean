import Iceee.Lib.Keyed
import Iceee.Lib.Trace
import Iceee.Quest.Definition

/-!
# The quest journal

`QuestJournal` keeps the available, the active and the completed quests of a player in three
lists, and the completed quests that become available again in a fourth one. This module
has the operations that move quests between the lists.

## Implementation notes

`Sort` has an empty body in the source. The clock is read anew for every delayed quest.
-/

namespace Iceee.Quest

variable (defs : QuestDefinitionContainer)

/-! ### `QuestReferenceContainer` -/

/-- The list of a `QuestReferenceContainer`. -/
abbrev QuestReferenceContainer := List QuestReference

namespace QuestReferenceContainer

variable (itemList : QuestReferenceContainer)

/-- `HasQuestID`: the first entry with the ID. -/
def hasQuestID (questID : Int) : Option QuestReference :=
  itemList.find? fun qr => qr.questID == questID

/-- `RemoveIndex` of the entry `HasQuestID` found. -/
def removeQuestID (questID : Int) : QuestReferenceContainer :=
  itemList.eraseP fun qr => qr.questID == questID

end QuestReferenceContainer

/-! ### Delayed quests -/

structure QuestRepeatDelay where
  questID : Int
  startTimeMinutes : Nat
  waitTimeMinutes : Nat
  deriving DecidableEq, Repr

/-- `IsAvailable`, at a reading of the clock. -/
def QuestRepeatDelay.isAvailable (delay : QuestRepeatDelay) (currentTime : Nat) : Bool :=
  (delay.startTimeMinutes + delay.waitTimeMinutes) % 2 ^ 64 < currentTime

/-! ### The journal -/

structure QuestJournal where
  availableQuests : QuestReferenceContainer := []
  completedQuests : QuestReferenceContainer := []
  activeQuests : QuestReferenceContainer := []
  delayedRepeat : List QuestRepeatDelay := []

namespace QuestJournal

variable (j : QuestJournal)

/-- `AddPendingQuest`. -/
def addPendingQuest (newItem : QuestReference) : QuestJournal :=
  if (j.completedQuests.hasQuestID newItem.questID).isSome then j
  else if (j.activeQuests.hasQuestID newItem.questID).isSome ∧
      ∀ qdef ∈ defs.getQuestDefPtrByID newItem.questID, qdef.repeats = false then j
  else if (j.availableQuests.hasQuestID newItem.questID).isSome then j
  else { j with availableQuests := j.availableQuests ++ [newItem] }

/-- `QuestJoin_Helper`: a quest that can be repeated stays available. -/
def questJoin (questID : Int) : QuestJournal :=
  if (j.completedQuests.hasQuestID questID).isSome then j
  else if (j.activeQuests.hasQuestID questID).isSome then j
  else
    match j.availableQuests.hasQuestID questID with
    | none => j
    | some item =>
        let preserve := ∃ qDef ∈ defs.getQuestDefPtrByID questID, qDef.repeats
        { j with
          activeQuests := j.activeQuests ++ [item]
          availableQuests :=
            if preserve then j.availableQuests else j.availableQuests.removeQuestID questID }

/-- `AddQuestRepeatDelay`: without a start time the delay starts now. -/
def addQuestRepeatDelay (now : Nat) (questID : Int) (startTimeMinutes waitTimeMinutes : Nat) :
    QuestJournal :=
  { j with
    delayedRepeat := j.delayedRepeat ++
      [{ questID, waitTimeMinutes
         startTimeMinutes := if startTimeMinutes = 0 then now else startTimeMinutes }] }

/-- `QuestComplete`, with the minute of the clock. -/
def questComplete (now : Nat) (questID : Int) : QuestJournal :=
  match j.activeQuests.hasQuestID questID with
  | none => j
  | some item =>
      match defs.getQuestDefPtrByID item.questID with
      | none => j
      | some qdef =>
          let j :=
            if qdef.repeats then j
            else
              let j := { j with completedQuests := j.completedQuests ++ [item] }
              if 0 < qdef.repeatMinuteDelay then
                j.addQuestRepeatDelay now qdef.questID 0 qdef.repeatMinuteDelay
              else j
          { j with activeQuests := j.activeQuests.removeQuestID questID }

/-- `QuestLeave`. -/
def questLeave (questID : Int) : QuestJournal :=
  match j.activeQuests.hasQuestID questID with
  | none => j
  | some item =>
      { j with
        availableQuests :=
          if ∃ qDef ∈ defs.getQuestDefPtrByID questID, qDef.repeats = false then
            j.availableQuests ++ [item.reset]
          else j.availableQuests
        activeQuests := j.activeQuests.removeQuestID questID }

/-- The second half of `QuestClear`: a completed quest becomes available. -/
def clearCompleted (questID : Int) : QuestJournal :=
  match j.completedQuests.hasQuestID questID with
  | none => j
  | some item =>
      { j with
        availableQuests :=
          if (defs.getQuestDefPtrByID questID).isSome then j.availableQuests ++ [item.reset]
          else j.availableQuests
        completedQuests := j.completedQuests.removeQuestID questID }

/-- `QuestClear`. -/
def questClear (questID : Int) : QuestJournal :=
  (j.questLeave defs questID).clearCompleted defs questID

/-- A new reference in the available list, unless the quest is active or there already. -/
def makeAvailable (questID : Int) : QuestJournal :=
  if (j.activeQuests.hasQuestID questID).isNone ∧
      (j.availableQuests.hasQuestID questID).isNone then
    { j with availableQuests := j.availableQuests ++ [{ questID }] }
  else j

/-- What `CheckRepeatDelay` does for a delayed quest whose time has come. -/
def restoreQuest (questID : Int) : QuestJournal :=
  match defs.getQuestDefPtrByID questID with
  | none => j
  | some _ =>
      let j := j.makeAvailable questID
      { j with completedQuests := j.completedQuests.removeQuestID questID }

/-- The loop of `CheckRepeatDelay` over the delayed quests: the journal and the quests that
stay delayed. `now` gives the readings of the clock. -/
def checkDelays (now : Nat → Nat) :
    Nat → List QuestRepeatDelay → QuestJournal → QuestJournal × List QuestRepeatDelay
  | _, [], j => (j, [])
  | n, delay :: rest, j =>
      if delay.isAvailable (now n) then
        checkDelays now (n + 1) rest (j.restoreQuest defs delay.questID)
      else
        let (j, kept) := checkDelays now (n + 1) rest j
        (j, delay :: kept)

/-- `CheckRepeatDelay`. -/
def checkRepeatDelay (now : Nat → Nat) : QuestJournal :=
  let (j, kept) := checkDelays defs now 0 j.delayedRepeat j
  { j with delayedRepeat := kept }

/-- Whether `RemoveOldRepeatQuests` takes a quest out of the completed list: it repeats after
a delay that is not recorded, or is unknown. -/
def delThis (questID : Int) : Bool :=
  match defs.getQuestDefPtrByID questID with
  | none => true
  | some qdef =>
      0 < qdef.repeatMinuteDelay ∧ (j.delayedRepeat.find? fun d => d.questID == questID).isNone

/-- The loop of `RemoveOldRepeatQuests` over the completed quests: the journal and the quests
that stay completed. -/
def removeOld : List QuestReference → QuestJournal → QuestJournal × List QuestReference
  | [], j => (j, [])
  | qr :: rest, j =>
      if j.delThis defs qr.questID then
        removeOld rest
          (if (defs.getQuestDefPtrByID qr.questID).isSome then j.makeAvailable qr.questID else j)
      else
        let (j, kept) := removeOld rest j
        (j, qr :: kept)

/-- `RemoveOldRepeatQuests`. -/
def removeOldRepeatQuests : QuestJournal :=
  let (j, kept) := removeOld defs j.completedQuests j
  { j with completedQuests := kept }

end QuestJournal

inductive JournalEvent where
  | addPendingQuest (newItem : QuestReference)
  | questJoin (questID : Int)
  | questComplete (now : Nat) (questID : Int)
  | questLeave (questID : Int)
  | questClear (questID : Int)
  | checkRepeatDelay (now : Nat → Nat)
  | removeOldRepeatQuests

/-- One operation on the journal. -/
def journalStep (j : QuestJournal) : JournalEvent → QuestJournal
  | .addPendingQuest newItem => j.addPendingQuest defs newItem
  | .questJoin questID => j.questJoin defs questID
  | .questComplete now questID => j.questComplete defs now questID
  | .questLeave questID => j.questLeave defs questID
  | .questClear questID => j.questClear defs questID
  | .checkRepeatDelay now => j.checkRepeatDelay defs now
  | .removeOldRepeatQuests => j.removeOldRepeatQuests defs

end Iceee.Quest
