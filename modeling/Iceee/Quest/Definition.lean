import Mathlib

/-!
# Quests and references to them

`QuestDefinition` with its acts, objectives and outcomes, and `QuestReference`, the state of
one quest of one player.

## Implementation notes

A reference finds its definition by its ID; the pointer it keeps to it is a cache. The
messages to the client and the calls of quest scripts are left out.
-/

namespace Iceee.Quest

/-- `MAXOBJECTIVES` objectives in an act. -/
abbrev MAXOBJECTIVES : Nat := 4

/-- The types of objectives; `GATHER` is turned into `ACTIVATE` when a quest is loaded. -/
inductive ObjectiveType where
  | none | travel | kill | activate | gather | talk | emote | generic
  deriving DecidableEq, Repr

structure QuestObjective where
  type : ObjectiveType := .none
  data1 : List Int := []
  data2 : Int := 0
  description : String := ""
  activateText : String := ""
  myCreatureDefID : Int := 0
  outcome : Int := -1
  deriving DecidableEq, Repr

/-- `HasObjectiveCDef`: the place of the creature among the data of the objective. The type
is the one asked for; that of the objective is not looked at. -/
def QuestObjective.hasObjectiveCDef (qo : QuestObjective) (objType : ObjectiveType)
    (objCDef : Int) : Bool :=
  match objType with
  | .kill | .activate => objCDef ∈ qo.data1
  | .talk => qo.myCreatureDefID = objCDef
  | _ => false

structure QuestAct where
  objective : Fin MAXOBJECTIVES → QuestObjective := fun _ => {}

/-! ### Outcomes -/

structure QuestItemReward where
  itemID : Int := 0
  itemCount : Int := 0
  required : Bool := false
  deriving DecidableEq, Repr

/-- `MAXREWARDS` rewards in an outcome. -/
abbrev MAXREWARDS : Nat := 4

/-- An outcome without its own `coin`, which nothing sets or reads: the coin is the quest's. -/
structure QuestOutcome where
  experience : Int := 0
  numRewards : Int := 0
  rewardItem : Fin MAXREWARDS → QuestItemReward := fun _ => {}
  heroism : Int := 0
  valourGiven : Int := 0

/-! ### Commands of a quest -/

inductive Comparator where
  | equal | notEqual | gt | gte | lt | lte
  deriving DecidableEq, Repr

/-- The conditions and actions a quest can name. -/
inductive ExtendedQuestAction where
  | heroism (comparator : Comparator) (value : Int)
  | hasItem (itemID itemCount : Int)
  | hasQuest (questID : Int)
  | transformed (creatureDefID : Int)
  | untransformed
  | belowLevel (maxLevel : Int)
  | changeHeroism (amount : Int)
  | removeItem (itemID itemCount : Int)
  | sendText (text : String)
  | playSound (text : String)
  | joinGuild (guildDefID : Int)
  | transform (creatureDefID : Int)
  | untransform
  | broadcast (text : String)
  deriving DecidableEq, Repr

structure QuestDefinition where
  questID : Int
  actList : List QuestAct := []
  repeats : Bool := false
  repeatMinuteDelay : Nat := 0
  levelSuggested : Int := 0
  coin : Int := 0
  guildId : Int := 0
  questEnderID : Int := 0
  outcomes : List QuestOutcome := []
  mScriptCompleteCondition : List ExtendedQuestAction := []
  mScriptCompleteAction : List ExtendedQuestAction := []

/-- `actCount`, which goes with the list. -/
def QuestDefinition.actCount (qd : QuestDefinition) : Int := qd.actList.length

/-- `GetOutcome`. -/
def QuestDefinition.getOutcome (qd : QuestDefinition) (index : Int) : Option QuestOutcome :=
  if 0 ≤ index then qd.outcomes[index.toNat]? else none

/-- `GetObjective` for an act that exists: the first objective that has the creature. -/
def QuestAct.getObjective (act : QuestAct) (type : ObjectiveType) (cDefID : Int) :
    Option (Fin MAXOBJECTIVES) :=
  (List.finRange MAXOBJECTIVES).find? fun a => (act.objective a).hasObjectiveCDef type cDefID

structure QuestReference where
  questID : Int := 0
  creatureDefID : Int := 0
  objCounter : Fin MAXOBJECTIVES → Int := fun _ => 0
  objComplete : Fin MAXOBJECTIVES → Bool := fun _ => false
  complete : Bool := false
  curAct : Int := 0
  outcome : Int := 0
  deriving DecidableEq

namespace QuestReference

variable (qr : QuestReference)

/-- `ResetObjectives`, and `ClearObjectiveData`. -/
def clearObjectiveData : QuestReference :=
  { qr with objCounter := fun _ => 0, objComplete := fun _ => false }

/-- `Reset`. -/
def reset : QuestReference :=
  { qr.clearObjectiveData with complete := false, curAct := 0, outcome := 0 }

end QuestReference

/-- `QuestDef`: the definitions by ID. -/
structure QuestDefinitionContainer where
  getQuestDefPtrByID : Int → Option QuestDefinition
  keyed : ∀ id qd, getQuestDefPtrByID id = some qd → qd.questID = id

end Iceee.Quest
