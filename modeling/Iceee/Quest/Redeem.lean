import Iceee.Quest.Rewards

/-!
# Redeeming a quest

The handler of `quest.complete`, and when a redemption is exact: everything the outcome of the
quest is worth is given once, or the quest stays active and nothing is given.

## Implementation notes

The reference of the quest is read once more after it left the active quests, through a
pointer that was taken before the script ran: what is found there is the reference that has its
place now. Past the last one, and where the script made the vector move, it is `stale`. A quest
script can do anything to the player, join and abandon quests too.
-/

namespace Iceee.Quest

/-- `INTERACT_RANGE`. -/
def INTERACT_RANGE : Int := 50

/-- A creature that could take the quest: its definition and how far away it is. -/
structure QuestEnder where
  creatureDefID : Int
  boxRange : Int := 0

/-- A script that runs for a quest: the effect of its `on_complete`, and whether the active quests
are in other memory after it. -/
structure QuestNutPlayer where
  onComplete : Player → Player
  moved : Bool := false

/-- What a request to redeem a quest reads besides the player and its arguments. -/
structure RedeemContext extends RewardContext where
  creatureID : Int := 0
  creature : Int → Option QuestEnder := fun _ => none
  minutes : Nat := 0
  script : Option QuestNutPlayer := none
  stale : Int := 0

/-- The replies: a message with an OK (`ErrorMessageAndQueryOK`), a bare OK, an error, and the
event of a redeemed quest with its OK. -/
inductive RedeemResponse where
  | message (text : String)
  | ok
  | error (text : String)
  | turnedIn
  deriving DecidableEq, Repr

/-- `IsQuestRedeemable`. -/
def QuestJournal.isQuestRedeemable (j : QuestJournal) (questDef : QuestDefinition)
    (questID questEnderCreatureID : Int) : Bool :=
  if questEnderCreatureID ≠ -1 ∧ questDef.questEnderID ≠ questEnderCreatureID then false
  else
    match j.activeQuests.hasQuestID questID with
    | none => false
    | some qr =>
        match questDef.getAct qr.curAct with
        | none => false
        | some act => qr.checkCompletedAct act

/-- The outcome found where the reference of the quest was. -/
def RedeemContext.outcomeAt (ctx : RedeemContext) (itemList : QuestReferenceContainer)
    (index : Nat) : Int :=
  if ctx.script.any (·.moved) then ctx.stale
  else
    match itemList[index]? with
    | none => ctx.stale
    | some qr => qr.outcome

/-- What the checks of a redemption find. -/
structure Redemption where
  qd : QuestDefinition
  qr : QuestReference
  rewardedItems : List QuestItemReward

/-- The creature a quest is redeemed at: -1 for the player itself. -/
def RedeemContext.questEnder (ctx : RedeemContext) (cid : Int) : Except String Int :=
  if cid = ctx.creatureID then .ok (-1)
  else
    match ctx.creature cid with
    | none => .error "Server error: creature does not exist."
    | some ender =>
        if INTERACT_RANGE < ender.boxRange then
          .error "You are too far away from the quest ender."
        else .ok ender.creatureDefID

namespace Player

variable (cfg : QuestConfig) (ctx : RedeemContext) (p : Player)

/-- The checks of a redemption that look at the player. -/
def checkQuest (questID enderCreatureDefID : Int) (selectionList : List Int) :
    Except String Redemption :=
  match cfg.questDef.getQuestDefPtrByID questID with
  | none => .error "Quest not found."
  | some qd =>
      match p.journal.activeQuests.hasQuestID qd.questID with
      | none => .error "No quest reference."
      | some qr =>
          if p.journal.isQuestRedeemable qd questID enderCreatureDefID = false then
            .error "Quest cannot be redeemed yet."
          else
            match qd.filterSelectedRewards qr.outcome selectionList with
            | none => .error "Failed to select quest reward items."
            | some rewardedItems =>
                if p.inventory.countFreeSlots invContainer < rewardedItems.length then
                  .error "No free inventory space."
                else .ok { qd, qr, rewardedItems }

/-- All checks of a redemption. -/
def checkRedeem (questID cid : Int) (selectionList : List Int) : Except String Redemption :=
  match ctx.questEnder cid with
  | .error text => .error text
  | .ok enderCreatureDefID => p.checkQuest cfg questID enderCreatureDefID selectionList

/-- The effect of the quest's script. -/
def runOnComplete : Player :=
  match ctx.script with
  | none => p
  | some player => player.onComplete p

/-- The effect of the actions of a quest and of its script. -/
def runScripts (qd : QuestDefinition) : Player :=
  (executeAllCommands cfg ctx.now p qd.mScriptCompleteAction).2.runOnComplete ctx

/-- Whether `QuestComplete` removes the quest; it returns -1 otherwise. -/
def canComplete (questID : Int) : Bool :=
  match p.journal.activeQuests.hasQuestID questID with
  | none => false
  | some item => (cfg.questDef.getQuestDefPtrByID item.questID).isSome

/-- The place of a quest among the active ones. -/
def activeIndex (questID : Int) : Nat :=
  p.journal.activeQuests.findIdx fun qr => qr.questID == questID

/-- The end of `QuestCompleteHandler::handleQuery`, after the scripts. -/
def finishQuest (questID : Int) (index : Nat) (rewardedItems : List QuestItemReward) :
    RedeemResponse × Player :=
  if p.canComplete cfg questID = false then (.ok, p)
  else
    let p := { p with journal := p.journal.questComplete cfg.questDef ctx.minutes questID }
    let outcomeIdx := ctx.outcomeAt p.journal.activeQuests index
    match p.processQuestRewards cfg ctx.toRewardContext questID outcomeIdx rewardedItems with
    | (response, p) =>
        if response = -2 then (.error "No free inventory space.", p)
        else if response < 0 then (.error "Unable to complete quest.", p)
        else (.turnedIn, p)

/-- `QuestCompleteHandler::handleQuery`, with the arguments of the query as numbers. -/
def questComplete (args : List Int) : RedeemResponse × Player :=
  let questID := args.getD 0 0
  match p.checkRedeem cfg ctx questID (args.getD 1 0) (args.drop 2) with
  | .error text => (.message text, p)
  | .ok r =>
      let index := p.activeIndex questID
      match executeAllCommands cfg ctx.now p r.qd.mScriptCompleteCondition with
      | (false, p) => (.message "Cannot redeem the quest yet.", p)
      | (true, p) =>
          (p.runScripts cfg ctx r.qd).finishQuest cfg ctx questID index r.rewardedItems

end Player

end Iceee.Quest
