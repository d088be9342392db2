import Iceee.Quest.Redeem

/-!
# Exact redemptions

A redemption is exact when it gives all that the outcome of the quest is worth, once, or
leaves the quest active and gives nothing. Which redemptions are exact is said with the player and
the quest table alone. What the commands and the script of the quest do is not a reward.
-/

namespace Iceee.Quest

variable (cfg : QuestConfig)

/-! ### The rewards one by one -/

section Rewards

variable (ctx : RewardContext)

/-- Whether the backpack takes a reward: the item is known and not owned to its limit, and
there is a free slot, needed or not. -/
def TakesReward (n : Nat) (inv : InventoryManager) (reward : QuestItemReward) : Prop :=
  (inv.getFreeSlot invContainer).isSome ∧
    ∃ iid d, rewardedItem cfg ctx n reward = some iid ∧ cfg.items.getPointerByID iid = some d ∧
      ¬inv.AtLimit cfg.items d

/-- The inventory with a reward put into it. -/
def withReward (n : Nat) (inv : InventoryManager) (reward : QuestItemReward) :
    InventoryManager :=
  match rewardedItem cfg ctx n reward with
  | none => inv
  | some iid => (inv.addItemEx cfg.items ctx.now invContainer iid reward.itemCount).2

/-- Every reward is taken, one after the other. -/
def TakesRewards : Nat → InventoryManager → List QuestItemReward → Prop
  | _, _, [] => True
  | n, inv, reward :: rest =>
      TakesReward cfg ctx n inv reward ∧
        TakesRewards (n + 1) (withReward cfg ctx n inv reward) rest

/-- How many of an item a list of rewards is. -/
def amountDue (id : Int) : Nat → List QuestItemReward → Int
  | _, [] => 0
  | n, reward :: rest =>
      (if rewardedItem cfg ctx n reward = some id then reward.itemCount else 0) +
        amountDue id (n + 1) rest

/-- How many of an item `AddItem_Ex` makes of a list of rewards. -/
def amountMade (id : Int) : Nat → InventoryManager → List QuestItemReward → Int
  | _, _, [] => 0
  | n, inv, reward :: rest =>
      (if rewardedItem cfg ctx n reward = some id then
        ((cfg.items.getPointerByID id).map fun d =>
          inv.made cfg.items invContainer d reward.itemCount).getD 0
      else 0) + amountMade id (n + 1) (withReward cfg ctx n inv reward) rest

variable {cfg ctx}

theorem giveReward_of_takes {n : Nat} {inv : InventoryManager} {reward : QuestItemReward}
    (h : TakesReward cfg ctx n inv reward) :
    giveReward cfg ctx n inv reward = .ok (withReward cfg ctx n inv reward) := by
  obtain ⟨hfree, iid, d, hiid, hd, hlimit⟩ := h
  have hadd : (inv.addItemEx cfg.items ctx.now invContainer iid reward.itemCount).1.isSome :=
    (InventoryManager.isSome_addItemEx hd hfree).mpr hlimit
  unfold withReward giveReward
  rw [hiid]
  unfold rewardedItem at hiid
  cases hr : cfg.items.getPointerByID reward.itemID with
  | none => simp [hr] at hiid
  | some d' =>
      simp only [hr] at hiid
      simp only [hiid, Option.isNone_eq_false_iff.mpr hfree, Bool.false_eq_true, if_false]
      generalize inv.addItemEx cfg.items ctx.now invContainer iid reward.itemCount = x at hadd ⊢
      cases x with
      | mk added inv' =>
          obtain ⟨i, rfl⟩ := Option.isSome_iff_exists.mp hadd
          rfl

theorem giveReward_of_not_takes {n : Nat} {inv : InventoryManager} {reward : QuestItemReward}
    (h : ¬TakesReward cfg ctx n inv reward) :
    ∃ code inv', code < 0 ∧ giveReward cfg ctx n inv reward = .error (code, inv') := by
  unfold giveReward
  cases hr : cfg.items.getPointerByID reward.itemID with
  | none => exact ⟨-1, inv, by decide, rfl⟩
  | some d =>
      simp only []
      split
      · exact ⟨-2, inv, by decide, rfl⟩
      · rename_i hfree
        rw [Bool.not_eq_true, Option.isNone_eq_false_iff] at hfree
        cases hiid : (if isMysteryReward d then ctx.roll n else some d.mID) with
        | none => exact ⟨-2, inv, by decide, rfl⟩
        | some iid =>
            have hreward : rewardedItem cfg ctx n reward = some iid := by
              rw [rewardedItem, hr]
              exact hiid
            have hadd :
                (inv.addItemEx cfg.items ctx.now invContainer iid reward.itemCount).1 = none := by
              cases hd : cfg.items.getPointerByID iid with
              | none => simp [InventoryManager.addItemEx, hd]
              | some d' =>
                  rw [← Option.not_isSome_iff_eq_none, InventoryManager.isSome_addItemEx hd hfree]
                  intro hlimit
                  exact h ⟨hfree, iid, d', hreward, hd, hlimit⟩
            simp only []
            generalize inv.addItemEx cfg.items ctx.now invContainer iid reward.itemCount = x
              at hadd ⊢
            cases x with
            | mk added inv' =>
                cases hadd
                exact ⟨-2, inv', by decide, rfl⟩

theorem quantity_withReward {n : Nat} {inv : InventoryManager} {reward : QuestItemReward}
    (h : TakesReward cfg ctx n inv reward) (id : Int) :
    (withReward cfg ctx n inv reward).quantity cfg.items id =
      inv.quantity cfg.items id + if rewardedItem cfg ctx n reward = some id then
        ((cfg.items.getPointerByID id).map fun d =>
          inv.made cfg.items invContainer d reward.itemCount).getD 0
      else 0 := by
  obtain ⟨hfree, iid, d, hiid, hd, hlimit⟩ := h
  have hsome : (inv.addItemEx cfg.items ctx.now invContainer iid reward.itemCount).1.isSome :=
    (InventoryManager.isSome_addItemEx hd hfree).mpr hlimit
  obtain ⟨i, hi⟩ := Option.isSome_iff_exists.mp hsome
  unfold withReward
  simp only [hiid, Option.some.injEq]
  rw [InventoryManager.quantity_addItemEx_made hd (Prod.ext hi rfl) id, add_right_inj]
  apply if_ctx_congr Iff.rfl
  · rintro rfl
    rw [hd, Option.map_some, Option.getD_some]
  · exact fun _ => rfl

/-- The loop ends with success where the backpack takes every reward. -/
theorem giveRewards_of_takes {inv : InventoryManager} {rewards : List QuestItemReward} {n : Nat}
    (h : TakesRewards cfg ctx n inv rewards) :
    ∃ inv', giveRewards cfg ctx n inv rewards = (1, inv') ∧
      ∀ id, inv'.quantity cfg.items id =
        inv.quantity cfg.items id + amountMade cfg ctx id n inv rewards := by
  induction rewards generalizing n inv with
  | nil => exact ⟨inv, rfl, fun id => (add_zero _).symm⟩
  | cons reward rest ih =>
      obtain ⟨htakes, hrest⟩ := h
      obtain ⟨inv', hgive, hquantity⟩ := ih hrest
      refine ⟨inv', ?_, fun id => ?_⟩
      · rw [giveRewards, giveReward_of_takes htakes]
        exact hgive
      · rw [hquantity, amountMade, ← add_assoc, add_left_inj]
        exact quantity_withReward htakes id

/-- Where it does not, the loop ends with an error. -/
theorem giveRewards_of_not_takes {inv : InventoryManager} {rewards : List QuestItemReward}
    {n : Nat} (h : ¬TakesRewards cfg ctx n inv rewards) :
    (giveRewards cfg ctx n inv rewards).1 < 0 := by
  induction rewards generalizing n inv with
  | nil => exact absurd trivial h
  | cons reward rest ih =>
      rw [giveRewards]
      by_cases htakes : TakesReward cfg ctx n inv reward
      · rw [giveReward_of_takes htakes]
        exact ih fun hrest => h ⟨htakes, hrest⟩
      · obtain ⟨code, inv', hcode, hgive⟩ := giveReward_of_not_takes htakes
        rw [hgive]
        exact hcode

end Rewards

/-! ### Exact redemptions -/

section Redemptions

variable (ctx : RedeemContext)

/-- What the commands of the quest and its script make of the player of a request. -/
def Player.prepared (p : Player) (args : List Int) : Player :=
  match p.checkRedeem cfg ctx (args.getD 0 0) (args.getD 1 0) (args.drop 2) with
  | .error _ => p
  | .ok r =>
      match Player.executeAllCommands cfg ctx.now p r.qd.mScriptCompleteCondition with
      | (false, p) => p
      | (true, p) => p.runScripts cfg ctx r.qd

/-- `p'` is `p` after the quest was redeemed: its reference is gone, and the player was given
what the outcome is worth and the required and the chosen items, all of them once. -/
structure Redeemed (questID : Int) (selectionList : List Int) (qd : QuestDefinition)
    (outcome : QuestOutcome) (p p' : Player) : Prop where
  active : p'.journal.activeQuests = p.journal.activeQuests.removeQuestID questID
  paid : p.Paid cfg qd outcome p'
  items : ∀ id, p'.inventory.quantity cfg.items id = p.inventory.quantity cfg.items id +
    amountDue cfg ctx.toRewardContext id 0 (outcome.outputRewardList selectionList)
  choices : ((outcome.choices selectionList).length : Int) = outcome.numRewards

/-- A request to redeem a quest redeems it exactly, or leaves it active with its progress and gives
nothing. -/
def Exact (p : Player) (args : List Int) : Prop :=
  match p.questComplete cfg ctx args with
  | (.turnedIn, p') =>
      ∃ qd qr outcome, cfg.questDef.getQuestDefPtrByID (args.getD 0 0) = some qd ∧
        p.journal.activeQuests.hasQuestID (args.getD 0 0) = some qr ∧
        qd.getOutcome qr.outcome = some outcome ∧
        Redeemed cfg ctx (args.getD 0 0) (args.drop 2) qd outcome (p.prepared cfg ctx args) p'
  | (_, p') =>
      p' = p.prepared cfg ctx args ∧
        p'.journal.activeQuests.hasQuestID (args.getD 0 0) =
          p.journal.activeQuests.hasQuestID (args.getD 0 0)

/-- What has to hold of a player whose quest is about to be removed: it is still active, the
reference that is found where its own was records an outcome worth as much to the player, the
backpack takes every item and `AddItem_Ex` makes no less and no more of them, and as many were
chosen as the outcome wants. -/
structure CanGive (questID : Int) (index : Nat) (selectionList : List Int) (qd : QuestDefinition)
    (outcome : QuestOutcome) (p : Player) : Prop where
  active : (p.journal.activeQuests.hasQuestID questID).isSome = true
  isPlayer : p.isPlayer = true
  simulatorPtr : p.simulatorPtr = true
  worth : ∃ other,
    qd.getOutcome (ctx.outcomeAt (p.journal.activeQuests.removeQuestID questID) index) =
      some other ∧ p.SameWorth cfg qd outcome other
  takes :
    TakesRewards cfg ctx.toRewardContext 0 p.inventory (outcome.outputRewardList selectionList)
  amounts : ∀ id, amountMade cfg ctx.toRewardContext id 0 p.inventory
      (outcome.outputRewardList selectionList) =
    amountDue cfg ctx.toRewardContext id 0 (outcome.outputRewardList selectionList)
  choices : ((outcome.choices selectionList).length : Int) = outcome.numRewards

/-- The condition for an exact redemption: for a request that passes the checks and the quest's own
condition everything can be given. -/
def Redeemable (p : Player) (args : List Int) : Prop :=
  ∀ r outcome, p.checkRedeem cfg ctx (args.getD 0 0) (args.getD 1 0) (args.drop 2) = .ok r →
    r.qd.getOutcome r.qr.outcome = some outcome →
    ∀ q, Player.executeAllCommands cfg ctx.now p r.qd.mScriptCompleteCondition = (true, q) →
      CanGive cfg ctx (args.getD 0 0) (p.activeIndex (args.getD 0 0)) (args.drop 2) r.qd outcome
        (q.runScripts cfg ctx r.qd)

variable {cfg ctx} {p : Player}

/-- A request that passes the checks is about an active quest and one of its outcomes. -/
theorem checkRedeem_ok {questID cid : Int} {selectionList : List Int} {r : Redemption}
    (h : p.checkRedeem cfg ctx questID cid selectionList = .ok r) :
    cfg.questDef.getQuestDefPtrByID questID = some r.qd ∧
      p.journal.activeQuests.hasQuestID questID = some r.qr ∧
      ∃ outcome, r.qd.getOutcome r.qr.outcome = some outcome ∧
        r.rewardedItems = outcome.outputRewardList selectionList := by
  unfold Player.checkRedeem at h
  cases hender : ctx.questEnder cid with
  | error text => simp [hender] at h
  | ok enderCreatureDefID =>
      simp only [hender, Player.checkQuest] at h
      cases hqd : cfg.questDef.getQuestDefPtrByID questID with
      | none => simp [hqd] at h
      | some qd =>
          have hid := cfg.questDef.keyed questID qd hqd
          simp only [hqd, hid] at h
          cases hqr : p.journal.activeQuests.hasQuestID questID with
          | none => simp [hqr] at h
          | some qr =>
              simp only [hqr] at h
              split at h
              · cases h
              · unfold QuestDefinition.filterSelectedRewards at h
                cases houtcome : qd.getOutcome qr.outcome with
                | none => simp [houtcome] at h
                | some outcome =>
                    simp only [houtcome] at h
                    grind

theorem activeQuests_questComplete {j : QuestJournal} {now : Nat} {questID : Int}
    {item : QuestReference} {qd : QuestDefinition}
    (hitem : j.activeQuests.hasQuestID questID = some item)
    (hqd : cfg.questDef.getQuestDefPtrByID item.questID = some qd) :
    (j.questComplete cfg.questDef now questID).activeQuests =
      j.activeQuests.removeQuestID questID := by
  unfold QuestJournal.questComplete QuestJournal.addQuestRepeatDelay
  simp only [hitem, hqd]
  grind

/-- `ProcessQuestRewards` gives everything, or ends with an error. -/
theorem processQuestRewards_cases (p : Player) {questID outcomeIdx : Int}
    {rewards : List QuestItemReward} {qd : QuestDefinition}
    (hqd : cfg.questDef.getQuestDefPtrByID questID = some qd) :
    (∃ outcome inv', p.isPlayer = true ∧ p.simulatorPtr = true ∧
        qd.getOutcome outcomeIdx = some outcome ∧
        TakesRewards cfg ctx.toRewardContext 0 p.inventory rewards ∧
        (∀ id, inv'.quantity cfg.items id = p.inventory.quantity cfg.items id +
          amountMade cfg ctx.toRewardContext id 0 p.inventory rewards) ∧
        p.processQuestRewards cfg ctx.toRewardContext questID outcomeIdx rewards =
          (1, (p.giveOutcome cfg qd outcome).withBelongings p.journal inv')) ∨
      ¬(p.isPlayer = true ∧ p.simulatorPtr = true ∧ (qd.getOutcome outcomeIdx).isSome ∧
        TakesRewards cfg ctx.toRewardContext 0 p.inventory rewards) ∧
      ∃ code p', code < 0 ∧ p'.journal = p.journal ∧
        p.processQuestRewards cfg ctx.toRewardContext questID outcomeIdx rewards = (code, p') := by
  unfold Player.processQuestRewards
  cases hplayer : p.isPlayer with
  | false => exact .inr ⟨by simp, -1, p, by decide, rfl, rfl⟩
  | true =>
      cases hsimulator : p.simulatorPtr with
      | false => exact .inr ⟨by simp, -1, p, by decide, rfl, by simp [hqd]⟩
      | true =>
          cases houtcome : qd.getOutcome outcomeIdx with
          | none => exact .inr ⟨by simp, -1, p, by decide, rfl, by simp [hqd, houtcome]⟩
          | some outcome =>
              simp only [hqd, houtcome, Player.inventory_giveOutcome]
              by_cases htakes : TakesRewards cfg ctx.toRewardContext 0 p.inventory rewards
              · obtain ⟨inv', hgive, hquantity⟩ := giveRewards_of_takes htakes
                refine .inl ⟨outcome, inv', trivial, trivial, rfl, htakes, hquantity, ?_⟩
                simp only [Bool.true_eq_false, if_false, hgive, Prod.mk.injEq, true_and]
                unfold Player.withBelongings
                rw [← @Player.journal_giveOutcome cfg p qd outcome]
              · refine
                  .inr ⟨fun h => htakes h.2.2.2, _, _, giveRewards_of_not_takes htakes, ?_, rfl⟩
                exact Player.journal_giveOutcome p qd outcome

/-- Once the checks passed, the quest is removed; then everything is given, or it ends with an
error. -/
theorem finishQuest_cases {q : Player} {questID : Int} {index : Nat}
    {rewards : List QuestItemReward} {qd : QuestDefinition} {qr : QuestReference}
    (hqd : cfg.questDef.getQuestDefPtrByID questID = some qd)
    (hqr : q.journal.activeQuests.hasQuestID questID = some qr) :
    (∃ other p', q.isPlayer = true ∧ q.simulatorPtr = true ∧
        qd.getOutcome (ctx.outcomeAt (q.journal.activeQuests.removeQuestID questID) index) =
          some other ∧
        TakesRewards cfg ctx.toRewardContext 0 q.inventory rewards ∧
        p'.journal.activeQuests = q.journal.activeQuests.removeQuestID questID ∧
        (∀ id, p'.inventory.quantity cfg.items id = q.inventory.quantity cfg.items id +
          amountMade cfg ctx.toRewardContext id 0 q.inventory rewards) ∧
        p' = (q.giveOutcome cfg qd other).withBelongings p'.journal p'.inventory ∧
        q.finishQuest cfg ctx questID index rewards = (.turnedIn, p')) ∨
      ¬(q.isPlayer = true ∧ q.simulatorPtr = true ∧
        (qd.getOutcome
          (ctx.outcomeAt (q.journal.activeQuests.removeQuestID questID) index)).isSome ∧
        TakesRewards cfg ctx.toRewardContext 0 q.inventory rewards) ∧
      ∃ text p', p'.journal.activeQuests = q.journal.activeQuests.removeQuestID questID ∧
        q.finishQuest cfg ctx questID index rewards = (.error text, p') := by
  have hid : qr.questID = questID := by simpa using List.find?_some hqr
  have hitem : cfg.questDef.getQuestDefPtrByID qr.questID = some qd := by rw [hid, hqd]
  have hcan : q.canComplete cfg questID = true := by simp [Player.canComplete, hqr, hitem]
  have hactive : (q.journal.questComplete cfg.questDef ctx.minutes questID).activeQuests =
      q.journal.activeQuests.removeQuestID questID := activeQuests_questComplete hqr hitem
  unfold Player.finishQuest
  simp only [hcan, Bool.true_eq_false, if_false, hactive]
  generalize q.journal.questComplete cfg.questDef ctx.minutes questID = j at hactive ⊢
  have hj : { q with journal := j } = q.withBelongings j q.inventory := rfl
  rw [hj]
  rcases @processQuestRewards_cases cfg ctx (q.withBelongings j q.inventory) questID
    (ctx.outcomeAt (q.journal.activeQuests.removeQuestID questID) index) rewards qd hqd with
    ⟨other, inv', hplayer, hsimulator, hother, htakes, hquantity, hgiven⟩ |
    ⟨hnot, code, p', hcode, hjournal, hfail⟩
  · refine .inl ⟨other, (q.giveOutcome cfg qd other).withBelongings j inv', hplayer, hsimulator,
      hother, htakes, hactive, hquantity, rfl, ?_⟩
    rw [Player.giveOutcome_withBelongings] at hgiven
    rw [hgiven]
    rfl
  · refine .inr ⟨hnot, ?_⟩
    rw [hfail]
    have hp' : p'.journal.activeQuests = q.journal.activeQuests.removeQuestID questID := by
      rw [hjournal]
      exact hactive
    by_cases hspace : code = -2
    · exact ⟨"No free inventory space.", p', hp', by simp [hspace]⟩
    · exact ⟨"Unable to complete quest.", p', hp', by simp [hspace, hcode]⟩

/-- A script may have dropped the quest: then an OK is all that follows. -/
theorem finishQuest_of_dropped {q : Player} {questID : Int} (index : Nat)
    (rewards : List QuestItemReward) (h : q.journal.activeQuests.hasQuestID questID = none) :
    q.finishQuest cfg ctx questID index rewards = (.ok, q) := by
  rw [Player.finishQuest, if_pos (by rw [Player.canComplete, h])]

/-- What was given is exact if the other outcome is worth as much and the counts are right. -/
theorem redeemed_iff {questID : Int} {selectionList : List Int} {qd : QuestDefinition}
    {outcome other : QuestOutcome} {q p' : Player} (hplayer : q.isPlayer = true)
    (hactive : p'.journal.activeQuests = q.journal.activeQuests.removeQuestID questID)
    (hquantity : ∀ id, p'.inventory.quantity cfg.items id = q.inventory.quantity cfg.items id +
      amountMade cfg ctx.toRewardContext id 0 q.inventory (outcome.outputRewardList selectionList))
    (hgiven : p' = (q.giveOutcome cfg qd other).withBelongings p'.journal p'.inventory) :
    Redeemed cfg ctx questID selectionList qd outcome q p' ↔
      q.SameWorth cfg qd outcome other ∧
      (∀ id, amountMade cfg ctx.toRewardContext id 0 q.inventory
          (outcome.outputRewardList selectionList) =
        amountDue cfg ctx.toRewardContext id 0 (outcome.outputRewardList selectionList)) ∧
      ((outcome.choices selectionList).length : Int) = outcome.numRewards := by
  have hpaid := Player.paid_giveOutcome_iff cfg qd outcome hplayer other p'.journal p'.inventory
  rw [← hgiven] at hpaid
  constructor
  · rintro ⟨-, hexact, hitems, hchoices⟩
    refine ⟨hpaid.mp hexact, fun id => ?_, hchoices⟩
    have hsame := (hquantity id).symm.trans (hitems id)
    exact add_left_cancel hsame
  · rintro ⟨hsame, hamounts, hchoices⟩
    refine ⟨hactive, hpaid.mpr hsame, fun id => ?_, hchoices⟩
    rw [hquantity, hamounts]

/-- A quest that was removed is not the active quest it was. -/
theorem ne_of_removed {questID : Int} {qr : QuestReference} {p' : Player}
    (hqr : p.journal.activeQuests.hasQuestID questID = some qr)
    (h : p'.journal.activeQuests = p.journal.activeQuests.removeQuestID questID) : p' ≠ p := by
  rintro rfl
  have hshorter : (p'.journal.activeQuests.removeQuestID questID).length <
      p'.journal.activeQuests.length := by
    rw [QuestReferenceContainer.removeQuestID,
      List.length_eraseP_of_mem (List.mem_of_find?_eq_some hqr) (List.find?_some hqr)]
    exact Nat.sub_lt (List.length_pos_of_mem (List.mem_of_find?_eq_some hqr)) Nat.one_pos
  rw [← h] at hshorter
  exact hshorter.false

/-- An exact redemption that ends with an error leaves the quest active. -/
theorem Exact.active {args : List Int} {text : String} (h : Exact cfg ctx p args)
    (herror : (p.questComplete cfg ctx args).1 = .error text) :
    (p.questComplete cfg ctx args).2.journal.activeQuests.hasQuestID (args.getD 0 0) =
      p.journal.activeQuests.hasQuestID (args.getD 0 0) := by
  unfold Exact at h
  generalize p.questComplete cfg ctx args = result at h herror ⊢
  cases result with
  | mk response p' =>
      cases herror
      exact h.2

end Redemptions

/-- A quest with one outcome. -/
def errand : QuestDefinition where
  questID := 1
  actList := [{}]
  outcomes := [{ experience := 100 }]

def errandConfig : QuestConfig where
  questDef :=
    { getQuestDefPtrByID := fun id => if id = 1 then some errand else none
      keyed := by
        intro id qd h
        rw [Option.ite_none_right_eq_some] at h
        obtain ⟨rfl, h⟩ := h
        cases h
        rfl }
  items := .ofList []

/-- A player with the errand and, after it, a quest whose second outcome was chosen. -/
def errandPlayer : Player where
  journal := { activeQuests := [{ questID := 1 }, { questID := 2, outcome := 1 }] }

end Iceee.Quest
