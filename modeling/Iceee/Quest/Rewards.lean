import Iceee.Inventory.Handlers
import Iceee.Inventory.Quantity
import Iceee.Quest.Journal
import Iceee.Quest.Progress

/-!
# What a quest gives

The commands of a quest, the choice among its rewards (`FilterSelectedRewards`) and what
`ProcessQuestRewards` does to a player.

## Implementation notes

A percentage is taken exactly and cut towards zero. The result of rolling a random item is
an input. Left out are the messages, the derived stats, the ability points of a new level
and the available quests, which are built anew after a change of level or rank.
-/

namespace Iceee.Quest

/-- The part of the game configuration the rewards depend on, and the tables. -/
structure QuestConfig where
  questDef : QuestDefinitionContainer
  items : ItemManager
  hasGuild : Int → Bool := fun _ => false
  capExperienceLevel : Int := 70
  capExperienceAmount : Int := 0
  heroismQuestLevelTolerance : Int := 3
  heroismQuestLevelPenalty : Int := 4

structure GuildListObject where
  guildDefID : Int
  valour : Int := 0
  deriving DecidableEq, Repr

/-- A creature with the character it plays. `cdefLevel` is the level of the character. -/
structure Player where
  journal : QuestJournal := {}
  inventory : InventoryManager := {}
  guildList : List GuildListObject := []
  isPlayer : Bool := true
  simulatorPtr : Bool := true
  experience : Int := 0
  level : Nat := 1
  cdefLevel : Nat := 1
  heroism : Int := 0
  copper : Int := 0
  questExpGainRate : Int := 0
  heroismGainRate : Int := 0
  transformModifier : Bool := false
  transformCreatureId : Int := 0

/-- `MAX_LEVEL`. -/
def MAX_LEVEL : Nat := 70

/-- `MAX_HEROISM`. -/
def MAX_HEROISM : Int := 1000

/-- The second column of `LevelRequirements`: the experience that ends a level. -/
def levelRequirements : List Int :=
  [0, 500, 1200, 2300, 4000, 6500, 10200, 15700, 23900, 36000, 49200, 63600, 79300, 96500, 115200,
    135600, 157900, 182300, 208900, 237900, 269600, 304200, 341900, 383100, 428000, 477000, 530500,
    588900, 652600, 722200, 798100, 881000, 971400, 1070100, 1177800, 1295400, 1423700, 1563700,
    1716500, 1883300, 2065400, 2264100, 2481000, 2717700, 2976000, 3257900, 3565600, 3901400,
    4267900, 4667900, 5072400, 5481400, 5895000, 6313300, 6736200, 7163900, 7596400, 8033700,
    8476000, 8923200, 9375400, 9832700, 10295100, 10762700, 11235600, 11713800, 12197300, 12686300,
    13180800, 13680800, 14185600]

/-- `GetAdditiveFromIntegralPercent100`. -/
def getAdditiveFromIntegralPercent100 (value multiplier : Int) : Int :=
  (value * multiplier).tdiv 100

/-- The loop of `AddExperience` that looks for the level, with the requirements from that
level on. -/
def advanceLevel (experience : Int) : List Int → Nat → Nat
  | [], newLevel => newLevel
  | requirement :: rest, newLevel =>
      if requirement ≤ experience then advanceLevel experience rest (newLevel + 1) else newLevel

namespace Player

variable (cfg : QuestConfig) (p : Player)

/-! ### Valour, experience and heroism -/

/-- `CharacterData::AddValour`. -/
def addValour (guildDefID valour : Int) : Player :=
  { p with
    guildList := p.guildList.modify (p.guildList.findIdx fun g => g.guildDefID == guildDefID)
      fun g => { g with valour := g.valour + valour } }

/-- `CharacterData::JoinGuild`. -/
def joinGuild (guildDefID : Int) : Player :=
  if p.guildList.any fun g => g.guildDefID == guildDefID then p
  else { p with guildList := p.guildList ++ [{ guildDefID }] }

/-- `SetLevel`. -/
def setLevel (newLevel : Nat) : Player :=
  if p.isPlayer then
    { p with
      level := newLevel
      cdefLevel := newLevel
      experience := if newLevel = MAX_LEVEL then levelRequirements.getD MAX_LEVEL 0
        else p.experience }
  else p

/-- The amount `AddExperience` adds: it is limited from a level on. -/
def cappedExperience (amount : Int) : Int :=
  if 0 < cfg.capExperienceLevel ∧ cfg.capExperienceLevel ≤ p.level then
    min amount cfg.capExperienceAmount
  else amount

/-- `AddExperience`. -/
def addExperience (amount : Int) : Player :=
  let p := { p with experience := p.experience + p.cappedExperience cfg amount }
  let newLevel :=
    advanceLevel p.experience ((levelRequirements.take MAX_LEVEL).drop p.level) p.level
  if p.isPlayer ∧ newLevel ≠ min p.level MAX_LEVEL then p.setLevel newLevel else p

/-- `OnHeroismChange` brings the value back into its range. -/
def setHeroism (value : Int) : Player :=
  { p with heroism := max 0 (min value MAX_HEROISM) }

/-- `AddHeroism`. -/
def addHeroism (amount : Int) : Player :=
  if amount < 0 ∨ p.isPlayer = false then p else p.setHeroism (p.heroism + amount)

/-- The amount `AddHeroismForQuest` comes to: less for a player far above the quest's level,
more by the player's bonus. -/
def heroismForQuest (amount questLevel : Int) : Int :=
  let threshold := questLevel + cfg.heroismQuestLevelTolerance
  let amount :=
    if threshold < p.level then
      amount - (p.level - threshold) * cfg.heroismQuestLevelPenalty
    else amount
  if 0 < p.heroismGainRate then
    amount + getAdditiveFromIntegralPercent100 amount p.heroismGainRate
  else amount

/-- `AddHeroismForQuest`. -/
def addHeroismForQuest (amount questLevel : Int) : Player :=
  p.addHeroism (p.heroismForQuest cfg amount questLevel)

/-! ### The commands of a quest -/

end Player

/-- `Compare`. -/
def Comparator.compare : Comparator → Int → Int → Bool
  | .equal, left, right => left == right
  | .notEqual, left, right => left != right
  | .gt, left, right => right < left
  | .gte, left, right => right ≤ left
  | .lt, left, right => left < right
  | .lte, left, right => left ≤ right

namespace Player

variable (cfg : QuestConfig) (p : Player)

/-- `CAF_Transform`. -/
def transform (creatureDefID : Int) : Player :=
  if p.transformModifier then p
  else { p with transformModifier := true, transformCreatureId := creatureDefID }

/-- `CAF_Untransform`. -/
def untransform : Player :=
  if p.transformModifier then { p with transformModifier := false, transformCreatureId := 0 }
  else p

/-- `ExecuteSingleCommand`: `none` when a condition does not hold. -/
def executeSingleCommand (now : Nat) : ExtendedQuestAction → Option Player
  | .heroism comparator value => if comparator.compare p.heroism value then some p else none
  | .hasItem itemID itemCount =>
      if itemCount ≤ p.inventory.getItemCount cfg.items invContainer itemID then some p else none
  | .hasQuest questID => if (p.journal.activeQuests.hasQuestID questID).isSome then some p else none
  | .transformed creatureDefID =>
      if p.transformCreatureId ≠ 0 ∧ p.transformCreatureId = creatureDefID then some p else none
  | .untransformed => if p.transformCreatureId = 0 then some p else none
  | .belowLevel maxLevel => if p.cdefLevel < maxLevel then some p else none
  | .changeHeroism amount => some (p.setHeroism (p.heroism + amount))
  | .removeItem itemID itemCount =>
      some { p with
        inventory :=
          p.inventory.removeItemsAndUpdate cfg.items now invContainer itemID itemCount }
  | .sendText _ | .playSound _ | .broadcast _ => some p
  | .joinGuild guildDefID => some (if cfg.hasGuild guildDefID then p.joinGuild guildDefID else p)
  | .transform creatureDefID => some (p.transform creatureDefID)
  | .untransform => some p.untransform

/-- `ExecuteAllCommands`: the commands up to the first condition that does not hold, and
whether they all ran. -/
def executeAllCommands (now : Nat) : Player → List ExtendedQuestAction → Bool × Player
  | p, [] => (true, p)
  | p, e :: rest =>
      match p.executeSingleCommand cfg now e with
      | none => (false, p)
      | some p => executeAllCommands now p rest

/-- The commands leave the journal alone. -/
theorem journal_executeSingleCommand {p p' : Player} {now : Nat} {e : ExtendedQuestAction}
    (h : p.executeSingleCommand cfg now e = some p') : p'.journal = p.journal := by
  cases e <;>
    simp only [executeSingleCommand, Option.ite_none_right_eq_some, Option.some.injEq] at h
  case heroism | hasItem | hasQuest | transformed | untransformed | belowLevel =>
    rw [h.2]
  case changeHeroism | removeItem | sendText | playSound | broadcast =>
    subst h
    rfl
  case joinGuild guildDefID =>
    subst h
    unfold joinGuild
    grind
  case transform creatureDefID =>
    subst h
    unfold transform
    grind
  case untransform =>
    subst h
    unfold untransform
    grind

theorem journal_executeAllCommands (now : Nat) (commands : List ExtendedQuestAction) :
    ∀ p : Player, (executeAllCommands cfg now p commands).2.journal = p.journal := by
  induction commands with
  | nil => exact fun _ => rfl
  | cons e rest ih =>
      intro p
      rw [executeAllCommands]
      cases h : p.executeSingleCommand cfg now e with
      | none => rfl
      | some p' =>
          exact (ih p').trans (journal_executeSingleCommand cfg h)

end Player

/-! ### The choice among the rewards -/

namespace QuestOutcome

variable (outcome : QuestOutcome) (selectedIndexes : List Int)

/-- The rewards that name an item. -/
def possibleRewards : List (Fin MAXREWARDS) :=
  (List.finRange MAXREWARDS).filter fun i => (outcome.rewardItem i).itemID ≠ 0

/-- The optional rewards among them that were selected; an index counts once. -/
def choices : List (Fin MAXREWARDS) :=
  outcome.possibleRewards.filter fun i =>
    (outcome.rewardItem i).required = false ∧ (i : Int) ∈ selectedIndexes

/-- The required rewards and the chosen ones. -/
def outputRewardList : List QuestItemReward :=
  (outcome.possibleRewards.filter fun i =>
    (outcome.rewardItem i).required ∨ (i : Int) ∈ selectedIndexes).map outcome.rewardItem

end QuestOutcome

/-- `FilterSelectedRewards`: a number of choices that differs from `numRewards` is refused
where there is more than one reward. -/
def QuestDefinition.filterSelectedRewards (qd : QuestDefinition) (outcomeIndex : Int)
    (selectedIndexes : List Int) : Option (List QuestItemReward) :=
  match qd.getOutcome outcomeIndex with
  | none => none
  | some outcome =>
      let choiceCount : Int := (outcome.choices selectedIndexes).length
      if 0 < outcome.numRewards ∧ choiceCount ≠ outcome.numRewards ∧
          1 < outcome.possibleRewards.length then none
      else some (outcome.outputRewardList selectedIndexes)

/-! ### The rewards -/

/-- `ItemType::SPECIAL` with a quest ID stands for an item that is rolled. -/
def isMysteryReward (d : ItemDef) : Bool := d.mType == .special && d.mIvType1 == .questId

/-- What one redemption reads besides the player and its arguments. `roll` gives the results
of `RollVirtualItem`, one for each reward, and `none` for its -1. -/
structure RewardContext where
  now : Nat := 0
  roll : Nat → Option Int := fun _ => none

variable (cfg : QuestConfig) (ctx : RewardContext)

/-- The item the `n`-th reward stands for. -/
def rewardedItem (n : Nat) (reward : QuestItemReward) : Option Int :=
  match cfg.items.getPointerByID reward.itemID with
  | none => none
  | some d => if isMysteryReward d then ctx.roll n else some d.mID

/-- The pass of the loop in `ProcessQuestRewards` for one reward: the inventory, or the code
that ends the loop. -/
def giveReward (n : Nat) (inv : InventoryManager) (reward : QuestItemReward) :
    Except (Int × InventoryManager) InventoryManager :=
  match cfg.items.getPointerByID reward.itemID with
  | none => .error (-1, inv)
  | some d =>
      if (inv.getFreeSlot invContainer).isNone then .error (-2, inv)
      else
        match if isMysteryReward d then ctx.roll n else some d.mID with
        | none => .error (-2, inv)
        | some iid =>
            match inv.addItemEx cfg.items ctx.now invContainer iid reward.itemCount with
            | (some _, inv) => .ok inv
            | (none, inv) => .error (-2, inv)

/-- The loop of `ProcessQuestRewards` over the items. -/
def giveRewards : Nat → InventoryManager → List QuestItemReward → Int × InventoryManager
  | _, inv, [] => (1, inv)
  | n, inv, reward :: rest =>
      match giveReward cfg ctx n inv reward with
      | .ok inv => giveRewards (n + 1) inv rest
      | .error stopped => stopped

namespace Player

variable (p : Player)

/-- The experience an outcome is worth, with the player's bonus. -/
def questExperience (experience : Int) : Int :=
  if 0 < p.questExpGainRate then
    experience + getAdditiveFromIntegralPercent100 experience p.questExpGainRate
  else experience

/-- The part of `ProcessQuestRewards` before the items. -/
def giveOutcome (qd : QuestDefinition) (outcome : QuestOutcome) : Player :=
  let p := p.addValour qd.guildId outcome.valourGiven
  let p := p.addExperience cfg (p.questExperience outcome.experience)
  let p := p.addHeroismForQuest cfg outcome.heroism qd.levelSuggested
  { p with copper := p.copper + qd.coin }

/-- `ProcessQuestRewards`. -/
def processQuestRewards (questID outcomeIdx : Int) (itemsToGive : List QuestItemReward) :
    Int × Player :=
  if p.isPlayer = false then (-1, p)
  else
    match cfg.questDef.getQuestDefPtrByID questID with
    | none => (-1, p)
    | some qd =>
        if p.simulatorPtr = false then (-1, p)
        else
          match qd.getOutcome outcomeIdx with
          | none => (-1, p)
          | some outcome =>
              let p := p.giveOutcome cfg qd outcome
              let (code, inventory) := giveRewards cfg ctx 0 p.inventory itemsToGive
              (code, { p with inventory })

/-! ### What stays the same -/

/-- The player with another journal and another inventory. -/
def withBelongings (p : Player) (journal : QuestJournal) (inventory : InventoryManager) : Player :=
  { p with journal, inventory }

section Belongings

variable {cfg} (p : Player) (journal : QuestJournal) (inventory : InventoryManager)

theorem setLevel_withBelongings (newLevel : Nat) :
    (p.withBelongings journal inventory).setLevel newLevel =
      (p.setLevel newLevel).withBelongings journal inventory := by
  unfold setLevel
  rw [apply_ite (withBelongings · journal inventory)]
  rfl

theorem addExperience_withBelongings (amount : Int) :
    (p.withBelongings journal inventory).addExperience cfg amount =
      (p.addExperience cfg amount).withBelongings journal inventory := by
  unfold addExperience
  rw [apply_ite (withBelongings · journal inventory), ← setLevel_withBelongings]
  rfl

theorem addHeroism_withBelongings (amount : Int) :
    (p.withBelongings journal inventory).addHeroism amount =
      (p.addHeroism amount).withBelongings journal inventory := by
  unfold addHeroism
  rw [apply_ite (withBelongings · journal inventory)]
  rfl

/-- An outcome is worth the same whatever the player carries. -/
theorem giveOutcome_withBelongings (qd : QuestDefinition) (outcome : QuestOutcome) :
    (p.withBelongings journal inventory).giveOutcome cfg qd outcome =
      (p.giveOutcome cfg qd outcome).withBelongings journal inventory := by
  have hvalour : (p.withBelongings journal inventory).addValour qd.guildId outcome.valourGiven =
      (p.addValour qd.guildId outcome.valourGiven).withBelongings journal inventory := rfl
  have hexperience (p : Player) : (p.withBelongings journal inventory).questExperience =
      p.questExperience := rfl
  have hheroism (p : Player) (amount : Int) :
      (p.withBelongings journal inventory).addHeroismForQuest cfg amount qd.levelSuggested =
        (p.addHeroismForQuest cfg amount qd.levelSuggested).withBelongings journal inventory :=
    addHeroism_withBelongings p journal inventory _
  unfold giveOutcome
  simp only [hvalour, hexperience, addExperience_withBelongings, hheroism]
  rfl

theorem inventory_giveOutcome (qd : QuestDefinition) (outcome : QuestOutcome) :
    (p.giveOutcome cfg qd outcome).inventory = p.inventory := by
  have h := congrArg Player.inventory
    (@giveOutcome_withBelongings cfg p p.journal p.inventory qd outcome)
  exact h

theorem journal_giveOutcome (qd : QuestDefinition) (outcome : QuestOutcome) :
    (p.giveOutcome cfg qd outcome).journal = p.journal := by
  have h := congrArg Player.journal
    (@giveOutcome_withBelongings cfg p p.journal p.inventory qd outcome)
  exact h

end Belongings

/-! ### What an outcome is worth -/

/-- `CharacterData::GetValour`. -/
def getValour (p : Player) (guildDefID : Int) : Int :=
  ((p.guildList.find? fun g => g.guildDefID == guildDefID).map GuildListObject.valour).getD 0

section Worth

variable (qd : QuestDefinition) (outcome : QuestOutcome)

def inGuild (guildDefID : Int) : Bool := p.guildList.any fun g => g.guildDefID == guildDefID

/-- The experience that an outcome brings a player to. -/
def experienceWith : Int :=
  p.experience + p.cappedExperience cfg (p.questExperience outcome.experience)

/-- A level that a player can rise to: each level on the way ends at the experience or before. -/
def Reaches (experience : Int) (n : Nat) : Prop :=
  p.level ≤ n ∧ (n ≤ MAX_LEVEL ∨ n = p.level) ∧
    ∀ k, p.level ≤ k → k < n → levelRequirements.getD k 0 ≤ experience

/-- `p'` is `p` with what an outcome is worth: the coin, the valour for the guild, the experience,
with which the highest level is reached, and the heroism, which stays in its range and is none where
the level is too high. The last level ends what is gained on the way to it. -/
structure Paid (p' : Player) : Prop where
  copper : p'.copper = p.copper + qd.coin
  valour : ∀ id, p'.getValour id =
    p.getValour id + if id = qd.guildId then outcome.valourGiven else 0
  level : IsGreatest {n | p.Reaches (p.experienceWith cfg outcome) n} p'.level
  experience : p'.experience = if p.level < MAX_LEVEL ∧ p'.level = MAX_LEVEL then
    levelRequirements.getD MAX_LEVEL 0 else p.experienceWith cfg outcome
  heroism : p'.heroism =
    let due := { p with level := p'.level }.heroismForQuest cfg outcome.heroism qd.levelSuggested
    if due < 0 then p.heroism else max 0 (min (p.heroism + due) MAX_HEROISM)
  others : ∃ cdefLevel, p' = { p with
    copper := p'.copper, guildList := p'.guildList, level := p'.level, cdefLevel
    experience := p'.experience, heroism := p'.heroism
    journal := p'.journal, inventory := p'.inventory }

/-- The level that `AddExperience` finds. -/
def levelAfter : Nat :=
  advanceLevel (p.experienceWith cfg outcome) ((levelRequirements.take MAX_LEVEL).drop p.level)
    p.level

def experienceAfter : Int :=
  if p.level < MAX_LEVEL ∧ p.levelAfter cfg outcome = MAX_LEVEL then
    levelRequirements.getD MAX_LEVEL 0
  else p.experienceWith cfg outcome

def heroismAfter : Int :=
  let due := { p with level := p.levelAfter cfg outcome }.heroismForQuest cfg outcome.heroism
    qd.levelSuggested
  if due < 0 then p.heroism else max 0 (min (p.heroism + due) MAX_HEROISM)

/-- One outcome gives a player what another one is worth. -/
structure SameWorth (other : QuestOutcome) : Prop where
  valour : (if p.inGuild qd.guildId then other.valourGiven else 0) = outcome.valourGiven
  level : p.levelAfter cfg other = p.levelAfter cfg outcome
  experience : p.experienceAfter cfg other = p.experienceAfter cfg outcome
  heroism : p.heroismAfter cfg qd other = p.heroismAfter cfg qd outcome

variable {p}

theorem getValour_addValour (guildDefID valour id : Int) :
    (p.addValour guildDefID valour).getValour id =
      p.getValour id + if id = guildDefID ∧ p.inGuild guildDefID then valour else 0 := by
  unfold addValour getValour inGuild
  dsimp only
  induction p.guildList with
  | nil => simp
  | cons g rest ih =>
      by_cases hg : g.guildDefID = guildDefID
      · by_cases hid : g.guildDefID = id
        · have hsame : id = guildDefID := hid.symm.trans hg
          simp [List.findIdx_cons, hg, hsame]
        · have hne : ¬id = guildDefID := fun h => hid (hg.trans h.symm)
          simp [List.findIdx_cons, hg, hne, Ne.symm hne]
      · have hbeq : (g.guildDefID == guildDefID) = false := beq_false_of_ne hg
        rw [List.findIdx_cons, hbeq, cond_false, List.modify_succ_cons]
        by_cases hid : g.guildDefID = id
        · have hne : ¬id = guildDefID := fun h => hg (hid.trans h)
          simp [hid, hne]
        · simpa [hg, hid] using ih

/-- The loop of `AddExperience` stops at the first level that ends above the experience. -/
theorem advanceLevel_spec (experience : Int) (requirements : List Int) (level : Nat) :
    let n := advanceLevel experience requirements level
    level ≤ n ∧ n ≤ level + requirements.length ∧
      (∀ k, level ≤ k → k < n → requirements.getD (k - level) 0 ≤ experience) ∧
      (n < level + requirements.length → experience < requirements.getD (n - level) 0) := by
  induction requirements generalizing level with
  | nil => simp [advanceLevel]; omega
  | cons requirement rest ih =>
      rw [advanceLevel]
      split
      · next hle =>
          obtain ⟨hlow, hhigh, hpassed, hstop⟩ := ih (level + 1)
          have hshift (k : Nat) (hk : level + 1 ≤ k) :
              (requirement :: rest).getD (k - level) 0 = rest.getD (k - (level + 1)) 0 := by
            rw [show k - level = k - (level + 1) + 1 by omega, List.getD_cons_succ]
          refine ⟨by omega, by rw [List.length_cons]; omega, fun k hk hkn => ?_, fun hn => ?_⟩
          · rcases eq_or_lt_of_le hk with rfl | hlt
            · rwa [Nat.sub_self, List.getD_cons_zero]
            · rw [hshift k hlt]
              exact hpassed k hlt hkn
          · rw [List.length_cons] at hn
            rw [hshift _ hlow]
            exact hstop (by omega)
      · next hlt =>
          refine ⟨le_rfl, Nat.le_add_right _ _, fun k hk hkn => by omega, fun _ => ?_⟩
          rw [Nat.sub_self, List.getD_cons_zero]
          exact not_le.mp hlt

theorem isGreatest_advanceLevel (p : Player) (experience : Int) :
    IsGreatest {n | p.Reaches experience n}
      (advanceLevel experience ((levelRequirements.take MAX_LEVEL).drop p.level) p.level) := by
  obtain ⟨hlow, hhigh, hpassed, hstop⟩ := advanceLevel_spec experience
    ((levelRequirements.take MAX_LEVEL).drop p.level) p.level
  have hlen : ((levelRequirements.take MAX_LEVEL).drop p.level).length = MAX_LEVEL - p.level := by
    rw [List.length_drop]
    rfl
  have hget (k : Nat) (hk : p.level ≤ k) (hmax : k < MAX_LEVEL) :
      ((levelRequirements.take MAX_LEVEL).drop p.level).getD (k - p.level) 0 =
        levelRequirements.getD k 0 := by
    rw [List.getD_eq_getElem?_getD, List.getElem?_drop, Nat.add_sub_cancel' hk,
      List.getElem?_take_of_lt hmax, List.getD_eq_getElem?_getD]
  rw [hlen] at hhigh hstop
  generalize advanceLevel experience ((levelRequirements.take MAX_LEVEL).drop p.level) p.level = n
    at hlow hhigh hpassed hstop ⊢
  refine ⟨⟨hlow, by omega, fun k hk hkn => ?_⟩, fun m ⟨hm, hmax, hall⟩ => ?_⟩
  · rw [← hget k hk (by omega)]
    exact hpassed k hk hkn
  · by_contra hlt
    have hn : n < MAX_LEVEL := by omega
    have hbelow := hstop (by omega)
    rw [hget n hlow hn] at hbelow
    exact absurd (hall n hlow (by omega)) (not_le.mpr hbelow)

/-- What `AddExperience` does to a player. -/
theorem addExperience_eq (hplayer : p.isPlayer = true) (amount : Int) :
    let experience := p.experience + p.cappedExperience cfg amount
    let level := advanceLevel experience ((levelRequirements.take MAX_LEVEL).drop p.level) p.level
    ∃ cdefLevel, p.addExperience cfg amount = { p with
      level, cdefLevel
      experience := if p.level < MAX_LEVEL ∧ level = MAX_LEVEL then
        levelRequirements.getD MAX_LEVEL 0 else experience } := by
  intro experience level
  have hlow : p.level ≤ level :=
    (advanceLevel_spec experience ((levelRequirements.take MAX_LEVEL).drop p.level) p.level).1
  have hadd : p.addExperience cfg amount =
      if p.isPlayer ∧ level ≠ min p.level MAX_LEVEL then
        setLevel { p with experience } level
      else { p with experience } := rfl
  rw [hadd]
  by_cases hne : level = min p.level MAX_LEVEL
  · have hsame : level = p.level := by omega
    rw [if_neg (by simp [← hne]), if_neg (by omega), hsame]
    exact ⟨p.cdefLevel, rfl⟩
  · rw [if_pos ⟨hplayer, hne⟩, setLevel, if_pos hplayer]
    refine ⟨level, ?_⟩
    by_cases hlast : level = MAX_LEVEL
    · rw [if_pos hlast, if_pos ⟨by omega, hlast⟩]
    · rw [if_neg hlast, if_neg fun h => hlast h.2]

theorem addHeroism_eq (hplayer : p.isPlayer = true) (amount : Int) :
    p.addHeroism amount = { p with
      heroism := if amount < 0 then p.heroism
        else max 0 (min (p.heroism + amount) MAX_HEROISM) } := by
  by_cases hnegative : amount < 0
  · rw [addHeroism, if_pos (.inl hnegative), if_pos hnegative]
  · rw [addHeroism, if_neg (by simp [hnegative, hplayer]), if_neg hnegative]
    rfl

/-- What `ProcessQuestRewards` does before the items. -/
theorem giveOutcome_eq (hplayer : p.isPlayer = true) : ∃ cdefLevel,
    p.giveOutcome cfg qd outcome = { p with
      copper := p.copper + qd.coin
      guildList := (p.addValour qd.guildId outcome.valourGiven).guildList
      level := p.levelAfter cfg outcome, cdefLevel
      experience := p.experienceAfter cfg outcome
      heroism := p.heroismAfter cfg qd outcome } := by
  obtain ⟨cdefLevel, hexperience⟩ := addExperience_eq cfg
    (p := p.addValour qd.guildId outcome.valourGiven) hplayer
    (p.questExperience outcome.experience)
  have hgive : p.giveOutcome cfg qd outcome =
      let p₁ := (p.addValour qd.guildId outcome.valourGiven).addExperience cfg
        (p.questExperience outcome.experience)
      let p₂ := p₁.addHeroism (p₁.heroismForQuest cfg outcome.heroism qd.levelSuggested)
      { p₂ with copper := p₂.copper + qd.coin } := rfl
  refine ⟨cdefLevel, ?_⟩
  rw [hgive, hexperience]
  dsimp only
  rw [addHeroism_eq (by exact hplayer)]
  rfl

/-- What the code gives for one outcome pays another one exactly where it is worth the same. -/
theorem paid_giveOutcome_iff (hplayer : p.isPlayer = true) (other : QuestOutcome)
    (journal : QuestJournal) (inventory : InventoryManager) :
    p.Paid cfg qd outcome ((p.giveOutcome cfg qd other).withBelongings journal inventory) ↔
      p.SameWorth cfg qd outcome other := by
  obtain ⟨cdefLevel, hgive⟩ := giveOutcome_eq cfg qd other hplayer
  have hgreatest := isGreatest_advanceLevel p (p.experienceWith cfg outcome)
  generalize hp' : (p.giveOutcome cfg qd other).withBelongings journal inventory = p'
  have hvalour (id : Int) : p'.getValour id =
      p.getValour id + if id = qd.guildId ∧ p.inGuild qd.guildId then other.valourGiven else 0 := by
    rw [← getValour_addValour, ← hp', hgive]
    rfl
  have hlevel : p'.level = p.levelAfter cfg other := by rw [← hp', hgive]; rfl
  have hexperience : p'.experience = p.experienceAfter cfg other := by rw [← hp', hgive]; rfl
  have hheroism : p'.heroism = p.heroismAfter cfg qd other := by rw [← hp', hgive]; rfl
  constructor
  · intro h
    have hsame : p.levelAfter cfg other = p.levelAfter cfg outcome :=
      hlevel.symm.trans (h.level.unique hgreatest)
    refine ⟨?_, hsame, ?_, ?_⟩
    · simpa using (hvalour qd.guildId).symm.trans (h.valour qd.guildId)
    · rw [← hexperience, h.experience, hlevel, hsame]
      rfl
    · rw [← hheroism, h.heroism, hlevel, hsame]
      rfl
  · intro h
    refine ⟨by rw [← hp', hgive]; rfl, fun id => ?_, ?_, ?_, ?_, cdefLevel, ?_⟩
    · rw [hvalour id, ← h.valour]
      by_cases hid : id = qd.guildId <;> simp [hid]
    · rw [hlevel, h.level]
      exact hgreatest
    · rw [hexperience, h.experience, hlevel, h.level]
      rfl
    · rw [hheroism, h.heroism, hlevel, h.level]
      rfl
    · rw [← hp', hgive]
      rfl

end Worth

end Player

end Iceee.Quest
