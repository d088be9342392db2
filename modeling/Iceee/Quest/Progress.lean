import Iceee.Quest.Definition

/-!
# Progress in a quest

The four ways an event reaches the objectives of the active quests: kills, gatherings and
activations (`CheckQuestObjective`), arrivals (`CheckTravelLocations`), talks
(`CheckQuestTalk`) and emotes (`FilterEmote`).

## Implementation notes

A result of `none` is an access to an act that does not exist. `CurAct` and the counters
are 16-bit variables.
-/

namespace Iceee.Quest

/-- What a `short` holds after `x` was assigned to it. -/
def wrap16 (x : Int) : Int := x.bmod (2 ^ 16)

/-- `actList[act]`. -/
def QuestDefinition.getAct (qd : QuestDefinition) (act : Int) : Option QuestAct :=
  if 0 ≤ act then qd.actList[act.toNat]? else none

namespace QuestReference

variable (qr : QuestReference) (qd : QuestDefinition)

/-- Complete an objective. -/
def markComplete (obj : Fin MAXOBJECTIVES) : QuestReference :=
  { qr with objComplete := Function.update qr.objComplete obj true }

/-- Complete an objective that is done at once. -/
def markDone (obj : Fin MAXOBJECTIVES) : QuestReference :=
  { qr.markComplete obj with objCounter := Function.update qr.objCounter obj 1 }

/-- An objective with an outcome completes the other ones whose index is below `bound`. -/
def applyOutcome (bound : Nat) (qo : QuestObjective) (obj : Fin MAXOBJECTIVES) : QuestReference :=
  if -1 < qo.outcome then
    { qr with
      objComplete := fun i => if i ≠ obj ∧ i.val < bound then true else qr.objComplete i
      outcome := qo.outcome }
  else qr

/-- `CheckCompletedAct`. -/
def checkCompletedAct (defAct : QuestAct) : Bool :=
  let reqCount := (List.finRange MAXOBJECTIVES).countP fun b => (defAct.objective b).type ≠ .none
  let hasCount := (List.finRange MAXOBJECTIVES).countP fun b =>
    (defAct.objective b).type ≠ .none ∧ qr.objComplete b
  reqCount ≤ hasCount

/-- `AdvanceAct`. -/
def advanceAct : QuestReference :=
  let curAct := wrap16 (qr.curAct + 1)
  if qd.actCount ≤ curAct then { qr with curAct := wrap16 (qd.actCount - 1) }
  else { qr.clearObjectiveData with curAct, complete := false }

/-- The objective of an act is counted; it is complete at the count it wants. -/
def countObjective (act : QuestAct) (obj : Fin MAXOBJECTIVES) : QuestReference :=
  let count := wrap16 (qr.objCounter obj + 1)
  let qr := { qr with objCounter := Function.update qr.objCounter obj count }
  if (act.objective obj).data2 ≤ count then qr.markComplete obj else qr

/-- `CheckQuestObjective`. The outcome is looked at before the count is complete, and only
the first three objectives are completed by it. -/
def checkQuestObjective (type : ObjectiveType) (targetCDefID : Int) : QuestReference :=
  match qd.getAct qr.curAct with
  | none => qr
  | some act =>
      match act.getObjective type targetCDefID with
      | none => qr
      | some obj =>
          if qr.objComplete obj then qr
          else
            let qr := (qr.countObjective act obj).applyOutcome 3 (act.objective obj) obj
            if qr.objComplete obj ∧ qr.checkCompletedAct act ∧ qr.curAct < qd.actCount - 1 then
              qr.advanceAct qd
            else qr

end QuestReference

/-! ### Arrivals -/

/-- A place, with its zone. -/
structure Location where
  x : Int
  y : Int
  z : Int
  zone : Int
  deriving DecidableEq, Repr

/-- The tests of a travel objective that has its four numbers. -/
def QuestObjective.reached (qo : QuestObjective) (l : Location) : Bool :=
  l.zone = qo.data1.getD 3 0 ∧ |l.x - qo.data1.getD 0 0| ≤ qo.data2 ∧
    |l.y - qo.data1.getD 1 0| ≤ qo.data2 ∧ |l.z - qo.data1.getD 2 0| ≤ qo.data2

namespace QuestReference

variable (qr : QuestReference) (qd : QuestDefinition)

/-- The loop of `CheckTravelLocation`: a travel objective without its numbers ends it. -/
def travelLoop (act : QuestAct) (l : Location) :
    List (Fin MAXOBJECTIVES) → Option (Fin MAXOBJECTIVES)
  | [] => none
  | i :: rest =>
      let qobj := act.objective i
      if qr.objComplete i then travelLoop act l rest
      else if qobj.type = .travel then
        if qobj.data1.length < 4 then none
        else if qobj.reached l then some i
        else travelLoop act l rest
      else travelLoop act l rest

/-- One turn of the loop of `CheckTravelLocations`. -/
def checkTravelLocation (l : Location) : Option QuestReference :=
  match qd.getAct qr.curAct with
  | none => none
  | some act =>
      match qr.travelLoop act l (List.finRange MAXOBJECTIVES) with
      | none => some qr
      | some r =>
          let qr := (qr.markDone r).applyOutcome MAXOBJECTIVES (act.objective r) r
          some (if qr.checkCompletedAct act then qr.advanceAct qd else qr)

/-! ### Talks -/

/-- Whether `HasCreatureReturn` finds the quest. The creature `-1` is looked for otherwise:
the quest must not end with a talk. -/
def hasCreatureReturn (searchVal : Int) : Option Bool :=
  if searchVal = -1 then
    (qd.getAct (qd.actCount - 1)).map fun last => decide ((last.objective 0).type ≠ .talk)
  else
    (qd.getAct qr.curAct).map fun act => (List.finRange MAXOBJECTIVES).any fun b =>
      (act.objective b).type = .talk ∧ (act.objective b).myCreatureDefID = searchVal

/-- `CheckQuestTalk` for the quest that was found: the act advances unless the last act is
complete. -/
def checkQuestTalk (creatureDefID : Int) : Option QuestReference :=
  match qd.getAct qr.curAct with
  | none => none
  | some act =>
      match (List.finRange MAXOBJECTIVES).find? fun a =>
        (act.objective a).type = .talk ∧ (act.objective a).myCreatureDefID = creatureDefID with
      | none => some qr
      | some objective =>
          let qr :=
            (qr.markDone objective).applyOutcome MAXOBJECTIVES (act.objective objective) objective
          let qr :=
            if qr.curAct = qd.actCount - 1 ∧ qr.checkCompletedAct act then qr
            else qr.advanceAct qd
          some (if qd.actCount - 1 < qr.curAct then { qr with curAct := wrap16 (qd.actCount - 1) }
            else qr)

end QuestReference

/-! ### Emotes -/

structure Emote where
  message : String
  xpos : Int
  zpos : Int
  zoneID : Int
  deriving DecidableEq, Repr

def caseInsensitiveStringCompare (str1 str2 : String) : Bool :=
  str1.toList.map Char.toLower = str2.toList.map Char.toLower

/-- The tests `FilterEmote` makes of an objective. -/
def QuestObjective.answers (qo : QuestObjective) (e : Emote) : Bool :=
  qo.type = .emote ∧ caseInsensitiveStringCompare qo.activateText e.message ∧
    4 ≤ qo.data1.length ∧ e.zoneID = qo.data1.getD 3 0 ∧ |e.xpos - qo.data1.getD 0 0| ≤ qo.data2 ∧
    |e.zpos - qo.data1.getD 2 0| ≤ qo.data2

namespace QuestReference

variable (qr : QuestReference) (qd : QuestDefinition)

/-- The loop of `FilterEmote` over the objectives. The act is that of the first turn, also
after the quest has advanced. -/
def emoteLoop (act : QuestAct) (e : Emote) :
    List (Fin MAXOBJECTIVES) → QuestReference → Option QuestReference
  | [], qr => some qr
  | obj :: rest, qr =>
      if (act.objective obj).answers e then
        let qr := qr.markDone obj
        match qd.getAct qr.curAct with
        | none => none
        | some cur =>
            let qr := qr.applyOutcome MAXOBJECTIVES (cur.objective obj) obj
            emoteLoop act e rest (if qr.checkCompletedAct act then qr.advanceAct qd else qr)
      else emoteLoop act e rest qr

/-- One turn of the outer loop of `FilterEmote`. -/
def filterEmote (e : Emote) : Option QuestReference :=
  match qd.getAct qr.curAct with
  | none => some qr
  | some act => emoteLoop qd act e (List.finRange MAXOBJECTIVES) qr

end QuestReference

/-! ### The active quests -/

inductive QuestEvent where
  | objective (type : ObjectiveType) (targetCDefID : Int)
  | travel (l : Location)
  | talk (creatureDefID : Int)
  | emote (e : Emote)
  deriving DecidableEq, Repr

variable (defs : QuestDefinitionContainer)

/-- `CheckQuestTalk`: the first quest that `HasCreatureReturn` finds. -/
def talkLoop (creatureDefID : Int) : List QuestReference → Option (List QuestReference)
  | [] => some []
  | qr :: rest =>
      match defs.getQuestDefPtrByID qr.questID with
      | none => (talkLoop creatureDefID rest).map (qr :: ·)
      | some qd =>
          match qr.hasCreatureReturn qd creatureDefID with
          | none => none
          | some false => (talkLoop creatureDefID rest).map (qr :: ·)
          | some true => (qr.checkQuestTalk qd creatureDefID).map (· :: rest)

/-- Do something with every active quest whose definition is known. -/
def eachQuest (f : QuestReference → QuestDefinition → Option QuestReference) :
    List QuestReference → Option (List QuestReference)
  | [] => some []
  | qr :: rest =>
      match defs.getQuestDefPtrByID qr.questID with
      | none => (eachQuest f rest).map (qr :: ·)
      | some qd => (f qr qd).bind fun qr' => (eachQuest f rest).map (qr' :: ·)

/-- One event for the active quests of a player. -/
def questStep (activeQuests : List QuestReference) : QuestEvent → Option (List QuestReference)
  | .objective type targetCDefID =>
      eachQuest defs (fun qr qd =>
        some (if qr.complete then qr else qr.checkQuestObjective qd type targetCDefID)) activeQuests
  | .travel l => eachQuest defs (fun qr qd => qr.checkTravelLocation qd l) activeQuests
  | .talk creatureDefID => talkLoop defs creatureDefID activeQuests
  | .emote e => eachQuest defs (fun qr qd => qr.filterEmote qd e) activeQuests

end Iceee.Quest
