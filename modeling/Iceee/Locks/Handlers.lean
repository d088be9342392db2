import Iceee.Auction.BuyNow
import Iceee.Lib.Locks
import Iceee.Quest.Exact
import Iceee.Vault.Send

/-!
# Critical sections in the handlers

The critical sections that `auctionhouse.buy`, `vault.send`, `vault.expand` and `quest.complete`
enter and leave on the way to each of their exits. A buy keeps the section of the auctions when
`ValidateItem` or `AddItem_Ex` turns it down.

## Main results

* `balanced_buyLocks_iff`: when a buy leaves every section as it was.
* `balanced_sendLocks`, `balanced_questCompleteLocks`: the other handlers always do.
* `balanced_locks_iff`: the four handlers together.

## Implementation notes

The functions that a handler calls enter sections of their own: those that are written out below,
and the scripts of a quest and the abilities of its rewards, which can be any balanced run. How many
messages are sent, and what has to be loaded or changes, are inputs.
-/

namespace Iceee.Locks

open Lib LockEvent

inductive CriticalSection where
  | auctionHouseManager
  | characterManager
  | accountManager
  | packetManager
  | simulatorManager
  | chatManager
  | other (id : Nat)
  deriving DecidableEq, Repr

/-- The sections that are entered and left, in their order. -/
abbrev Run := List (LockEvent CriticalSection)

/-! ## What the handlers call -/

/-- `AttemptSend`. -/
def attemptSend : Run := [.enter .packetManager, .leave .packetManager]

def attemptSends (count : Nat) : Run := (List.replicate count attemptSend).flatten

/-- `SendToAllSimulators`. -/
def sendToAllSimulators (count : Nat) : Run :=
  .enter .simulatorManager :: (attemptSends count ++ [.leave .simulatorManager])

/-- `RequestCharacter`, which calls `LoadCharacter` for a character that is not active. -/
def requestCharacter (loads : Bool) : Run :=
  if loads then [.enter .characterManager, .leave .characterManager] else []

/-- `AuctionHouseManager::RemoveItem`. -/
def removeItem : Run := [.enter .auctionHouseManager, .leave .auctionHouseManager]

/-- `SendChatMessage`, which logs what is said in a public channel. -/
def sendChatMessage (count : Nat) (log : Bool) : Run :=
  attemptSends count ++ if log then [.enter .chatManager, .leave .chatManager] else []

/-! ## Buying an auction -/

/-- What a buy finds around it. -/
structure BuySurroundings where
  sellerOnline : Bool := false
  sellerLoads : Bool := false
  simulators : Nat := 0
  chatReceivers : Nat := 0
  chatLogged : Bool := false

section Buy

open Auction

variable (im : ItemManager) (now : Nat) (useAccountCredits : Bool) (s : AuctionHouse)
  (q : BuyQuery) (env : BuySurroundings)

/-- A buy that has been delivered. -/
def buyDeliveredLocks : Run :=
  (if env.sellerOnline then [] else requestCharacter env.sellerLoads) ++ removeItem ++
    [.leave .auctionHouseManager] ++ sendToAllSimulators env.simulators ++
    [.enter .characterManager] ++ [.leave .characterManager] ++
    sendChatMessage env.chatReceivers env.chatLogged

/-- `AuctionHouseBuyHandler::handleQuery`. -/
def buyLocks : Run :=
  let item := s.loadItem q.auctionId
  .enter .auctionHouseManager ::
    if item.mId = 0 then [.leave .auctionHouseManager]
    else
      match q.auctioneer with
      | none => [.leave .auctionHouseManager]
      | some auctioneer =>
          if item.mAuctioneer ≠ 0 ∧ item.mAuctioneer ≠ auctioneer then
            [.leave .auctionHouseManager]
          else
            match validateItem item (q.buyer useAccountCredits s.funds) q.serverTime with
            | some _ => []
            | none =>
                match (q.inventory.addItemEx im now invContainer item.mItemId
                  (item.mCount + 1)).1 with
                | none => []
                | some _ => buyDeliveredLocks env

end Buy

/-! ## The vault -/

/-- What a delivery finds around it: whether the recipient's character has to be loaded, and how
many messages tell him of it. -/
structure SendSurroundings where
  loads : Bool := false
  notified : Nat := 0

section Vault

open Iceee.Vault InventoryManager

variable (im : ItemManager) (s : VaultState) (q : SendQuery) (env : SendSurroundings)

/-- `VaultSendHandler::handleQuery`. -/
def sendLocks : Run :=
  let items : Int := s.account.box.length
  let leave : Run := [.leave .characterManager, .leave .accountManager]
  if q.argCount < 2 then []
  else if items < 1 then []
  else if items > stampCount im s.character then []
  else
    let cdefID := q.getIDByName q.name
    if cdefID = -1 then []
    else
      [.enter .characterManager, .enter .accountManager] ++ (requestCharacter env.loads ++
        match q.getAccountID cdefID with
        | none => leave
        | some id =>
            if id = q.accountID then leave
            else
              match s.accounts id with
              | none => leave
              | some acc =>
                  if acc.DeliveryBoxSlots - acc.box.length < items then leave
                  else attemptSends env.notified ++ leave)

end Vault

/-- What `vault.expand` reads. -/
structure ExpandQuery where
  argCount : Nat
  /-- The result of `protected_CheckDistance`. -/
  distance : Int
  /-- The creature, and whether it is a vault keeper. -/
  vaultKeeper : Option Bool
  maximumCapacity : Bool
  credits : Int

/-- `VAULT_EXPAND_CREDIT_COST`. -/
def vaultExpandCreditCost : Int := 200

/-- `VaultExpandHandler::handleQuery`. A stat update is queued, not sent. -/
def expandLocks (q : ExpandQuery) : Run :=
  if q.argCount < 1 then []
  else if q.distance ≠ 0 then []
  else
    match q.vaultKeeper with
    | none => []
    | some vaultKeeper =>
        if !vaultKeeper then []
        else if q.maximumCapacity then []
        else if q.credits < vaultExpandCreditCost then []
        else []

/-! ## Redeeming a quest -/

/-- What a script or an ability does. -/
structure Nested where
  run : Run := []
  balanced : Balanced run := by exact Balanced.nil

/-- What the rewards find around them: whether valour is given, the rank or the level changes, who
is told how much, and what the abilities of the items do. -/
structure RewardSurroundings where
  valour : Bool := false
  newRank : Bool := false
  newLevel : Bool := false
  simulators : Nat := 0
  valourMessages : Nat := 0
  rankMessages : Nat := 0
  levelMessages : Nat := 0
  messages : Nat := 0
  abilities : Nested := {}

/-- The scripts and the rewards of a quest. -/
structure QuestSurroundings where
  condition : Nested := {}
  action : Nested := {}
  onComplete : Nested := {}
  rewards : RewardSurroundings := {}

/-- `OnRankChange`, and `OnLevelChange`: a change of the character data. -/
def inCharacters : Run := [.enter .characterManager, .leave .characterManager]

/-- `CreatureInstance::AddValour`. -/
def addValour (env : RewardSurroundings) : Run :=
  inCharacters ++ attemptSends env.valourMessages ++
    if env.newRank then inCharacters ++ attemptSends env.rankMessages else []

/-- `SetLevel`, which tells all simulators. -/
def setLevel (env : RewardSurroundings) : Run :=
  sendToAllSimulators env.simulators ++ inCharacters ++ attemptSends env.levelMessages

/-- `ProcessQuestRewards`. -/
def processQuestRewards (env : RewardSurroundings) : Run :=
  (if env.valour then addValour env else []) ++ attemptSend ++
    (if env.newLevel then setLevel env else []) ++ env.abilities.run ++ attemptSends env.messages

section Quest

open Iceee.Quest

variable (cfg : QuestConfig)

/-- `QuestJournal::QuestComplete`. -/
def journalCompleteLocks (j : QuestJournal) (questID : Int) : Run :=
  match j.activeQuests.hasQuestID questID with
  | none => []
  | some item =>
      .enter .characterManager ::
        match cfg.questDef.getQuestDefPtrByID item.questID with
        | none => []
        | some _ => [.leave .characterManager]

variable (ctx : RedeemContext) (p : Player) (args : List Int) (env : QuestSurroundings)

/-- `QuestCompleteHandler::handleQuery`. -/
def questCompleteLocks : Run :=
  let questID := args.getD 0 0
  match p.checkRedeem cfg ctx questID (args.getD 1 0) (args.drop 2) with
  | .error _ => []
  | .ok r =>
      env.condition.run ++
        match Player.executeAllCommands cfg ctx.now p r.qd.mScriptCompleteCondition with
        | (false, _) => []
        | (true, p) =>
            let p := p.runScripts cfg ctx r.qd
            env.action.run ++ env.onComplete.run ++ journalCompleteLocks cfg p.journal questID ++
              if p.canComplete cfg questID then processQuestRewards env.rewards else []

end Quest

/-! ## What is balanced -/

theorem balanced_around {t : Run} (h : Balanced t) (s : CriticalSection) :
    Balanced (.enter s :: (t ++ [.leave s])) := h.within [s]

theorem balanced_attemptSends (count : Nat) : Balanced (attemptSends count) := by
  apply Balanced.flatten
  intro t ht
  rw [List.eq_of_mem_replicate ht]
  exact balanced_around .nil .packetManager

theorem balanced_sendToAllSimulators (count : Nat) : Balanced (sendToAllSimulators count) :=
  balanced_around (balanced_attemptSends count) .simulatorManager

theorem balanced_requestCharacter (loads : Bool) : Balanced (requestCharacter loads) := by
  cases loads with
  | false => exact .nil
  | true => exact balanced_around .nil .characterManager

theorem balanced_sendChatMessage (count : Nat) (log : Bool) :
    Balanced (sendChatMessage count log) := by
  apply (balanced_attemptSends count).append
  cases log with
  | false => exact .nil
  | true => exact balanced_around .nil .chatManager

section Buy

open Auction

variable (im : ItemManager) (now : Nat) (useAccountCredits : Bool) (s : AuctionHouse)
  (q : BuyQuery) (env : BuySurroundings)

/-- A buy that is delivered leaves the section it is in. -/
theorem balanced_buyDelivered :
    Balanced (.enter .auctionHouseManager :: buyDeliveredLocks env) := by
  have hseller : Balanced (if env.sellerOnline then [] else requestCharacter env.sellerLoads) := by
    split
    · exact .nil
    · exact balanced_requestCharacter env.sellerLoads
  have hsold := balanced_around (hseller.append (balanced_around .nil .auctionHouseManager))
    .auctionHouseManager
  have hpaid : Balanced ([.enter .characterManager] ++ [.leave .characterManager] : Run) :=
    balanced_around .nil .characterManager
  have hall := ((hsold.append (balanced_sendToAllSimulators env.simulators)).append hpaid).append
    (balanced_sendChatMessage env.chatReceivers env.chatLogged)
  rw [buyDeliveredLocks]
  simpa only [List.cons_append, List.append_assoc, List.nil_append, removeItem] using hall

/-- The checks that follow the choice of the auctioneer pass, if they are made. -/
def BuyLeaves : Prop :=
  let item := s.loadItem q.auctionId
  ∀ auctioneer, item.mId ≠ 0 → q.auctioneer = some auctioneer →
    (item.mAuctioneer = 0 ∨ item.mAuctioneer = auctioneer) →
      validateItem item (q.buyer useAccountCredits s.funds) q.serverTime = none ∧
        (q.inventory.addItemEx im now invContainer item.mItemId (item.mCount + 1)).1 ≠ none

/-- A buy leaves every section as it was unless `ValidateItem` or `AddItem_Ex` turns it down. -/
theorem balanced_buyLocks_iff :
    Balanced (buyLocks im now useAccountCredits s q env) ↔
      BuyLeaves im now useAccountCredits s q := by
  have hentered : ¬Balanced ([.enter .auctionHouseManager] : Run) :=
    not_balanced_enter .nil _
  have hleft : Balanced ([.enter .auctionHouseManager, .leave .auctionHouseManager] : Run) :=
    balanced_around .nil .auctionHouseManager
  rw [buyLocks, BuyLeaves]
  by_cases hid : (s.loadItem q.auctionId).mId = 0
  · rw [if_pos hid]
    exact iff_of_true hleft fun _ h => absurd hid h
  · rw [if_neg hid]
    cases hauctioneer : q.auctioneer with
    | none => exact iff_of_true hleft fun _ _ h => absurd h (by simp)
    | some auctioneer =>
        dsimp only
        by_cases hother : (s.loadItem q.auctionId).mAuctioneer ≠ 0 ∧
            (s.loadItem q.auctionId).mAuctioneer ≠ auctioneer
        · rw [if_pos hother]
          refine iff_of_true hleft fun _ _ h hsame => ?_
          obtain rfl := Option.some_inj.mp h
          exact absurd hsame (not_or.mpr hother)
        · rw [if_neg hother]
          have hsame : (s.loadItem q.auctionId).mAuctioneer = 0 ∨
              (s.loadItem q.auctionId).mAuctioneer = auctioneer := by
            rwa [← not_or, not_not] at hother
          cases hvalid : validateItem (s.loadItem q.auctionId)
              (q.buyer useAccountCredits s.funds) q.serverTime with
          | some error =>
              refine iff_of_false hentered fun h => ?_
              exact absurd (h auctioneer hid rfl hsame).1 (by simp)
          | none =>
              dsimp only
              cases hslot : (q.inventory.addItemEx im now invContainer
                  (s.loadItem q.auctionId).mItemId ((s.loadItem q.auctionId).mCount + 1)).1 with
              | none =>
                  refine iff_of_false hentered fun h => ?_
                  exact (h auctioneer hid rfl hsame).2 rfl
              | some slot =>
                  exact iff_of_true (balanced_buyDelivered env) fun _ _ _ _ => ⟨rfl, by simp⟩

end Buy

section Vault

open Iceee.Vault InventoryManager

/-- Sending a delivery box leaves every section as it was. -/
theorem balanced_sendLocks (im : ItemManager) (s : VaultState) (q : SendQuery)
    (env : SendSurroundings) : Balanced (sendLocks im s q env) := by
  have hwithin {t : Run} (ht : Balanced t) :
      Balanced ([.enter .characterManager, .enter .accountManager] ++
        (requestCharacter env.loads ++
          (t ++ [.leave .characterManager, .leave .accountManager])) : Run) := by
    rw [← List.append_assoc (requestCharacter env.loads)]
    exact ((balanced_requestCharacter env.loads).append ht).within
      [.characterManager, .accountManager]
  rw [sendLocks]
  dsimp only
  split_ifs with harguments hitems hstamps hnamed
  · exact .nil
  · exact .nil
  · exact .nil
  · exact .nil
  · split
    · exact hwithin .nil
    · split_ifs
      · exact hwithin .nil
      · split
        · exact hwithin .nil
        · split_ifs
          · exact hwithin .nil
          · exact hwithin (balanced_attemptSends env.notified)

end Vault

theorem balanced_expandLocks (q : ExpandQuery) : Balanced (expandLocks q) := by
  have hnil : expandLocks q = [] := by
    rw [expandLocks]
    split_ifs <;> first | rfl | (split <;> first | rfl | split_ifs <;> rfl)
  rw [hnil]
  exact .nil

section Quest

open Iceee.Quest

variable (cfg : QuestConfig)

theorem balanced_processQuestRewards (env : RewardSurroundings) :
    Balanced (processQuestRewards env) := by
  have hchanged : Balanced inCharacters := balanced_around .nil .characterManager
  have hvalour : Balanced (addValour env) := by
    apply (hchanged.append (balanced_attemptSends _)).append
    split
    · exact hchanged.append (balanced_attemptSends _)
    · exact .nil
  have hlevel : Balanced (setLevel env) :=
    ((balanced_sendToAllSimulators _).append hchanged).append (balanced_attemptSends _)
  apply Balanced.append _ (balanced_attemptSends _)
  apply Balanced.append _ env.abilities.balanced
  apply Balanced.append
  · apply Balanced.append _ (balanced_around .nil .packetManager)
    split
    · exact hvalour
    · exact .nil
  · split
    · exact hlevel
    · exact .nil

/-- `QuestComplete` keeps the section of the characters exactly when the active quest has no
definition. -/
theorem balanced_journalCompleteLocks_iff (j : QuestJournal) (questID : Int) :
    Balanced (journalCompleteLocks cfg j questID) ↔
      ∀ item, j.activeQuests.hasQuestID questID = some item →
        cfg.questDef.getQuestDefPtrByID questID ≠ none := by
  rw [journalCompleteLocks]
  cases hitem : j.activeQuests.hasQuestID questID with
  | none => exact iff_of_true .nil fun _ h => absurd h (by simp)
  | some item =>
      have hid : item.questID = questID := by simpa using List.find?_some hitem
      dsimp only
      rw [hid]
      cases cfg.questDef.getQuestDefPtrByID questID with
      | none =>
          exact iff_of_false (not_balanced_enter .nil _) fun h => h item rfl rfl
      | some qdef =>
          exact iff_of_true (balanced_around .nil .characterManager) fun _ _ => by simp

/-- Redeeming a quest leaves every section as it was: its definition has been found before. -/
theorem balanced_questCompleteLocks (ctx : RedeemContext) (p : Player) (args : List Int)
    (env : QuestSurroundings) : Balanced (questCompleteLocks cfg ctx p args env) := by
  rw [questCompleteLocks]
  dsimp only
  cases hcheck : p.checkRedeem cfg ctx (args.getD 0 0) (args.getD 1 0) (args.drop 2) with
  | error text => exact .nil
  | ok r =>
      apply env.condition.balanced.append
      rcases Player.executeAllCommands cfg ctx.now p r.qd.mScriptCompleteCondition with ⟨_ | _, p'⟩
      · exact .nil
      · have hdefined := (checkRedeem_ok hcheck).1
        apply ((env.action.balanced.append env.onComplete.balanced).append ?_).append
        · split
          · exact balanced_processQuestRewards env.rewards
          · exact .nil
        · exact (balanced_journalCompleteLocks_iff cfg _ _).mpr fun _ _ => by
            rw [hdefined]
            exact Option.some_ne_none _

end Quest

/-! ## The handlers together -/

/-- A call of one of the handlers. -/
inductive Query where
  | buy (im : ItemManager) (now : Nat) (useAccountCredits : Bool) (s : Auction.AuctionHouse)
      (q : Auction.BuyQuery) (env : BuySurroundings)
  | send (im : ItemManager) (s : Vault.VaultState) (q : Vault.SendQuery) (env : SendSurroundings)
  | expand (q : ExpandQuery)
  | questComplete (cfg : Iceee.Quest.QuestConfig) (ctx : Iceee.Quest.RedeemContext)
      (p : Iceee.Quest.Player) (args : List Int) (env : QuestSurroundings)

namespace Query

def locks : Query → Run
  | buy im now useAccountCredits s q env => buyLocks im now useAccountCredits s q env
  | send im s q env => sendLocks im s q env
  | expand q => expandLocks q
  | questComplete cfg ctx p args env => questCompleteLocks cfg ctx p args env

/-- A buy passes the checks after the choice of the auctioneer; the other handlers do not care. -/
def Leaves : Query → Prop
  | buy im now useAccountCredits s q _ => BuyLeaves im now useAccountCredits s q
  | _ => True

end Query

/-- A handler leaves every section as often as it has entered it, and never more often, exactly
when it is not a buy that `ValidateItem` or `AddItem_Ex` turns down. -/
theorem balanced_locks_iff (query : Query) : Balanced query.locks ↔ query.Leaves := by
  cases query with
  | buy im now useAccountCredits s q env =>
      exact balanced_buyLocks_iff im now useAccountCredits s q env
  | send im s q env => exact iff_of_true (balanced_sendLocks im s q env) trivial
  | expand q => exact iff_of_true (balanced_expandLocks q) trivial
  | questComplete cfg ctx p args env =>
      exact iff_of_true (balanced_questCompleteLocks cfg ctx p args env) trivial

section Poor

open Auction

/-- A store with one auction, of the price of one copper. -/
def poorHouse : AuctionHouse where
  store := {
    find := fun id => if id = 1 then some { mId := 1, mSeller := 2, mBuyItNowCopper := 1 } else none
    mId_eq := by
      intro id item h
      split at h
      · next hid =>
        obtain rfl := Option.some_inj.mp h
        exact hid.symm
      · exact absurd h.symm (Option.some_ne_none item) }

/-- Somebody without a copper who wants to buy it. -/
def poorBuy : BuyQuery where
  auctionId := 1
  auctioneer := some 5
  characterID := 3
  accountID := 3
  inventory := {}
  serverTime := 0

/-- The section of the auctions stays entered when the buyer cannot pay. -/
theorem poor_buyer_keeps_section :
    ¬Balanced (Query.locks (.buy (.ofList []) 0 false poorHouse poorBuy {})) := by
  intro h
  exact absurd (h .auctionHouseManager) (by decide)

end Poor

end Iceee.Locks
