import Iceee.Lib.Machine
import Iceee.Lib.Single
import Iceee.Lib.Text

/-!
# Modifiers of the stats of a creature

A creature has a list of active modifiers and, beside it, an entry for each stat that is modified:
the value before, the total of the modifiers, and their number.

## Implementation notes

Amounts and their totals are exact, IDs of stats and abilities fit their fields, and the reference
counts do not overflow. What is only shown by the client is left out, as are the messages and the
pending updates. The events of deactivated abilities have no effect on the stats. Two fields of the
creature stand for its mount: the ability of the definition it rides on, and whether it carries a
rider. A loop that never ends has no result. -/

namespace Iceee.Buffs

open Lib

/-! ### The buffs by category -/

structure ActiveBuff where
  tier : UInt8
  buffType : UInt8
  abID : Int
  abgID : Int
  durationS : Int
  castEndTimeMS : Int
  deriving DecidableEq, Repr

structure ActiveBuffManager where
  buffList : List ActiveBuff := []
  persistentBuffList : List ActiveBuff := []
  deriving DecidableEq, Repr

namespace ActiveBuffManager

variable (bm : ActiveBuffManager) (g_ServerTime : Nat)

/-- `GetPersistentBuff`. -/
def getPersistentBuff (tier : UInt8) (abID : Int) : Option ActiveBuff :=
  bm.persistentBuffList.find? fun b => b.abID == abID && tier ≥ b.tier

/-- `HasBuff`: a buff that has ended, or is not of a higher tier, goes. -/
def hasBuff (tier buffType : UInt8) : Option Nat × ActiveBuffManager :=
  match bm.buffList.findIdx? fun b => b.buffType == buffType with
  | none => (none, bm)
  | some i =>
      match bm.buffList[i]? with
      | none => (none, bm)
      | some b =>
          if (g_ServerTime : Int) ≥ b.castEndTimeMS ∨ tier ≥ b.tier then
            (none, { bm with buffList := bm.buffList.eraseIdx i })
          else (some i, bm)

/-- The duration of a buff; on login a persistent one overrides it. -/
def duration (tier : UInt8) (abID : Int) (duration : ℚ) (initialising : Bool) : Int :=
  match initialising, bm.getPersistentBuff tier abID with
  | true, some b => b.durationS
  | _, _ => trunc duration

/-- `AddBuff` and `UpdateBuff`: the buff that the category has now. -/
def updateBuff (tier buffType : UInt8) (abID abgID : Int) (duration : ℚ) (initialising : Bool) :
    ActiveBuff × ActiveBuffManager :=
  let durationS := bm.duration tier abID duration initialising
  let buff : ActiveBuff :=
    { tier, buffType, abID, abgID, durationS, castEndTimeMS := g_ServerTime + durationS * 1000 }
  match bm.hasBuff g_ServerTime tier buffType with
  | (some r, bm) => (buff, { bm with buffList := bm.buffList.set r buff })
  | (none, bm) => (buff, { bm with buffList := bm.buffList ++ [buff] })

/-- `RemoveBuff`. -/
def removeBuff (abilityID : Int) : ActiveBuffManager :=
  { bm with buffList := bm.buffList.filter fun b => b.abID ≠ abilityID }

end ActiveBuffManager

/-! ### The values of the stats -/

namespace STAT

def APPEARANCE : Int := 0
def STRENGTH : Int := 4
def DEXTERITY : Int := 5
def CONSTITUTION : Int := 6
def PSYCHE : Int := 7
def SPIRIT : Int := 8
def MELEE_ATTACK_SPEED : Int := 31
def WILL_REGEN : Int := 47
def MIGHT_REGEN : Int := 49
def BONUS_HEALTH : Int := 125

end STAT

/-- A field of `CharacterStatSet` that is in the list of the stats. -/
inductive StatValue
  | short (v : Int16)
  | integer (v : Int32)
  | float (v : ℚ)
  | text (v : Text)
  deriving DecidableEq

/-- A field as a `float`, which has every `short`. What `strtod` reads is a parameter. -/
def StatValue.read (strtod : Text → ℚ) : StatValue → ℚ
  | .short v => v.toInt
  | .integer v => Single.round v.toInt
  | .float v => v
  | .text v => Single.round (strtod v)

/-- What `WriteValueToStat` makes of a field. -/
def StatValue.write (value : ℚ) : StatValue → StatValue
  | .short _ => .short (Int16.ofInt (trunc value))
  | .integer _ => .integer (Int32.ofInt (trunc value))
  | .float _ => .float value
  | .text _ => .text (printInt (Int32.ofInt (trunc value)).toInt)

/-! ### The creature -/

inductive BuffSource
  | ABILITY | ITEM | INSTANCE
  deriving DecidableEq, Repr

structure ActiveStatMod where
  modStatID : Int := 0
  abilityID : Int := 0
  abilityGroupID : Int := 0
  amount : ℚ := 0
  /-- No time stands for `MAX_TIME`. -/
  expireTime : Option Int := some 0
  buffCategory : UInt8 := 0
  sourceType : BuffSource := .ABILITY
  sourceID : Int := 0
  deriving DecidableEq

structure BaseStatData where
  StatID : Int
  fBaseVal : ℚ
  fModTotal : ℚ
  RefCount : Int
  deriving DecidableEq

/-- What the modifiers read and change of a creature, and whether a modifier was ever replaced by
one of another kind. -/
structure CreatureInstance where
  activeStatMod : List ActiveStatMod := []
  baseStats : List BaseStatData := []
  css : Int → Option StatValue := fun _ => none
  buffManager : ActiveBuffManager := {}
  initialisingAbilities : Bool := false
  timer_mightregen : Nat := 0
  timer_willregen : Nat := 0
  timer_autoattack : Nat := 0
  mountAbilityId : Int := 0
  mountedOn : Option Int := none
  mountedBy : Bool := false
  crossed : Bool := false

namespace CreatureInstance

variable (strtod : Text → ℚ) (g_ServerTime : Nat) (c : CreatureInstance)

/-- `IsMounted`. -/
def isMounted : Bool := c.mountedOn.isSome || c.mountedBy

/-- `GetStatValueByID`. -/
def getStatValueByID (statID : Int) : ℚ := ((c.css statID).map (StatValue.read strtod)).getD 0

/-- `WriteValueToStat`. -/
def writeValueToStat (statID : Int) (value : ℚ) : CreatureInstance :=
  { c with css := Function.update c.css statID ((c.css statID).map (StatValue.write value)) }

/-- `_GetBaseStat`. -/
def getBaseStat (statID : Int) : ℚ :=
  match c.baseStats.find? fun b => b.StatID == statID with
  | some b => b.fBaseVal
  | none => c.getStatValueByID strtod statID

/-- `_GetExistingModIndex`. -/
def getExistingModIndex (type : BuffSource) (groupID statID : Int) : Option Nat :=
  c.activeStatMod.findIdx? fun m =>
    (if type = .ABILITY then m.abilityGroupID == groupID || groupID == -1
      else m.sourceID == groupID) && m.modStatID == statID

/-- Change the entry that `_GetBaseStatModIndex` finds. -/
def modifyBase (statID : Int) (f : BaseStatData → BaseStatData) : CreatureInstance :=
  { c with baseStats := c.baseStats.modify (c.baseStats.findIdx fun b => b.StatID == statID) f }

/-- `AddBaseStatMod`. -/
def addBaseStatMod (statID : Int) (amount : ℚ) : CreatureInstance :=
  if c.baseStats.any fun b => b.StatID == statID then
    c.modifyBase statID fun b =>
      { b with fModTotal := b.fModTotal + amount, RefCount := b.RefCount + 1 }
  else
    let core :=
      statID ∈ [STAT.STRENGTH, STAT.DEXTERITY, STAT.CONSTITUTION, STAT.PSYCHE, STAT.SPIRIT]
    let base := if core then c.getBaseStat strtod statID else c.getStatValueByID strtod statID
    { c with
      baseStats := c.baseStats ++
        [{ StatID := statID, fBaseVal := base, fModTotal := amount, RefCount := 1 }] }

/-- `SubtractBaseStatMod`. -/
def subtractBaseStatMod (statID : Int) (amount : ℚ) : CreatureInstance :=
  c.modifyBase statID fun b =>
    { b with fModTotal := b.fModTotal - amount, RefCount := b.RefCount - 1 }

/-- `CheckRemovedBuffs`. -/
def checkRemovedBuffs : CreatureInstance :=
  let gone := c.baseStats.filter fun b => b.RefCount == 0
  let kept := c.baseStats.filter fun b => b.RefCount != 0
  gone.foldl
    (fun c b =>
      let c :=
        if b.StatID = STAT.WILL_REGEN then
          { c with timer_willregen := min c.timer_willregen (g_ServerTime + 2000) }
        else if b.StatID = STAT.MIGHT_REGEN then
          { c with timer_mightregen := min c.timer_mightregen (g_ServerTime + 2000) }
        else c
      c.writeValueToStat b.StatID b.fBaseVal)
    { c with baseStats := kept }

/-- `SendUpdatedBuffs`. -/
def sendUpdatedBuffs : CreatureInstance :=
  (c.baseStats.foldl (fun c b => c.writeValueToStat b.StatID (b.fBaseVal + b.fModTotal)) c
    ).checkRemovedBuffs g_ServerTime

/-- The second branch of `RemoveBuffIndex`. -/
def eraseMod (index : Nat) : CreatureInstance :=
  match c.activeStatMod[index]? with
  | none => c
  | some m =>
      { c.subtractBaseStatMod m.modStatID m.amount with
        activeStatMod := c.activeStatMod.eraseIdx index }

/-- A removing loop of a creature that does not ride, with the number of entries that are left. -/
def eraseLoop (p : ActiveStatMod → Bool) : Nat → Nat → CreatureInstance → CreatureInstance
  | 0, _, c => c
  | n + 1, pos, c =>
      match c.activeStatMod[pos]? with
      | none => c
      | some m => if p m then eraseLoop p n pos (c.eraseMod pos) else eraseLoop p n (pos + 1) c

/-- `Dismount`. It removes the ability of the mount when it rides no more. -/
def dismount : CreatureInstance :=
  if c.mountedBy then c
  else
    match c.mountedOn with
    | none => c
    | some abilityOnUse =>
        let c := { c with mountedOn := none }
        let c :=
          if abilityOnUse > 0 then
            let c := eraseLoop (fun m => m.abilityID == abilityOnUse) c.activeStatMod.length 0 c
            { c with buffManager := c.buffManager.removeBuff abilityOnUse
              }.sendUpdatedBuffs g_ServerTime
          else c
        { c with mountAbilityId := 0 }

/-- `RemoveBuffIndex`. -/
def removeBuffIndex (index : Nat) : CreatureInstance :=
  match c.activeStatMod[index]? with
  | none => c
  | some m =>
      if m.abilityID = c.mountAbilityId ∧ c.isMounted then c.dismount g_ServerTime
      else c.eraseMod index

/-- A loop that calls `RemoveBuffIndex` for the entries that match and passes over the others, with
the ability of the last entry that matched. Each round takes an entry away, passes over one, or
dismounts. -/
def removeLoop (p : ActiveStatMod → Bool) :
    Nat → Nat → Option Int → CreatureInstance → Option (Option Int × CreatureInstance)
  | 0, pos, found, c => if pos < c.activeStatMod.length then none else some (found, c)
  | n + 1, pos, found, c =>
      match c.activeStatMod[pos]? with
      | none => some (found, c)
      | some m =>
          if p m then removeLoop p n pos (some m.abilityID) (c.removeBuffIndex g_ServerTime pos)
          else removeLoop p n (pos + 1) found c

def removeWhere (p : ActiveStatMod → Bool) : Option (Option Int × CreatureInstance) :=
  removeLoop g_ServerTime p (c.activeStatMod.length + 1) 0 none c

/-- `RemoveBuffsFromAbility`. -/
def removeBuffsFromAbility (abilityID : Int) (send : Bool) : Option CreatureInstance :=
  (c.removeWhere g_ServerTime fun m => m.abilityID == abilityID).map fun (_, c) =>
    let c := { c with buffManager := c.buffManager.removeBuff abilityID }
    if send then c.sendUpdatedBuffs g_ServerTime else c

/-- The end of `RemoveAllBuffs` and of `RemoveAllBuffsExceptGroupID`. -/
def clearBaseStats : CreatureInstance :=
  { c.baseStats.foldl (fun c b => c.writeValueToStat b.StatID b.fBaseVal) c with baseStats := [] }

/-- `RemoveAllBuffs`. -/
def removeAllBuffs : Option CreatureInstance :=
  (c.removeWhere g_ServerTime fun _ => true).map fun (_, c) => c.clearBaseStats

/-- `RemoveAllBuffsExceptGroupID`. -/
def removeAllBuffsExceptGroupID (abilityGroupID : Int) : Option CreatureInstance :=
  (c.removeWhere g_ServerTime fun m => m.abilityGroupID != abilityGroupID).map fun (_, c) =>
    c.clearBaseStats

/-- `RemoveStatModsBySource`. -/
def removeStatModsBySource (buffSource : BuffSource) : Option CreatureInstance :=
  (c.removeWhere g_ServerTime fun m => m.sourceType == buffSource).map fun (found, c) =>
    if found.isSome then c.sendUpdatedBuffs g_ServerTime else c

/-- `RemoveAbilityBuffTypeExcept`. -/
def removeAbilityBuffTypeExcept (buffCategory abilityID : Int) : Option CreatureInstance :=
  if buffCategory = 0 then some c
  else
    (c.removeWhere g_ServerTime fun m =>
      m.sourceType == .ABILITY && (m.buffCategory.toNat : Int) == buffCategory &&
        m.abilityID != abilityID).map Prod.snd

/-- `RemoveAbilityBuffWithStat`: the buffs are sent where the ability that was removed last has no
modifier left. -/
def removeAbilityBuffWithStat (statID : Int) (sign : ℚ) : Option CreatureInstance :=
  (c.removeWhere g_ServerTime fun m =>
    m.sourceType == .ABILITY && m.modStatID == statID &&
      (decide (sign < 0 ∧ m.amount < 0) || decide (sign > 0 ∧ m.amount > 0))).map
    fun (found, c) =>
      let foundAbilityID := found.getD 0
      if foundAbilityID ≠ 0 ∧
          ¬c.activeStatMod.any fun m =>
            m.sourceType == .ABILITY && m.abilityID == foundAbilityID then
        c.sendUpdatedBuffs g_ServerTime
      else c

/-- `AddBuff`. -/
def addBuff (buffSource : BuffSource) (buffCategory : UInt8) (abID abGroupID statID : Int)
    (calcAmount durationSec : ℚ) : CreatureInstance :=
  let expireTimeMS :=
    if |durationSec + 1| ≤ 1 / 1000 then none
    else some (g_ServerTime + trunc durationSec * 1000)
  match c.getExistingModIndex buffSource abGroupID statID with
  | some r =>
      match c.activeStatMod[r]? with
      | none => c
      | some m =>
          { c.modifyBase statID fun b =>
              { b with fModTotal := b.fModTotal - m.amount + calcAmount } with
            activeStatMod := c.activeStatMod.modify r fun m =>
              { m with amount := calcAmount, expireTime := expireTimeMS }
            crossed := c.crossed || m.sourceType != buffSource }
  | none =>
      let newMod : ActiveStatMod :=
        { abilityID := if buffSource = .ITEM then 0 else abID
          abilityGroupID := abGroupID
          modStatID := statID
          amount := calcAmount
          expireTime := expireTimeMS
          buffCategory := buffCategory
          sourceType := buffSource }
      { c with activeStatMod := c.activeStatMod ++ [newMod]
        }.addBaseStatMod strtod statID calcAmount

/-- The timers that `Add` sets anew for a debuff. -/
def restartTimer (statID : Int) (calcAmount : ℚ) : CreatureInstance :=
  if calcAmount < 0 then
    if statID = STAT.MIGHT_REGEN then { c with timer_mightregen := g_ServerTime + 2000 }
    else if statID = STAT.WILL_REGEN then { c with timer_willregen := g_ServerTime + 2000 }
    else if statID = STAT.MELEE_ATTACK_SPEED then
      { c with timer_autoattack := g_ServerTime + 2000 }
    else c
  else c

/-- `Add` up to the call of `AddBuff`, where no better buff is active. -/
def prepareAdd (tier buffCategory : UInt8) (abID statID : Int) (calcAmount : ℚ) :
    Option CreatureInstance :=
  ({ c with buffManager := (c.buffManager.hasBuff g_ServerTime tier buffCategory).2 }.restartTimer
    g_ServerTime statID calcAmount).removeAbilityBuffTypeExcept g_ServerTime buffCategory.toNat abID

/-- `Add`. -/
def add (tier buffCategory : UInt8) (abID abgID statID : Int) (calcAmount durationSec : ℚ) :
    Option CreatureInstance :=
  if (c.buffManager.hasBuff g_ServerTime tier buffCategory).1.isSome then some c
  else
    (c.prepareAdd g_ServerTime tier buffCategory abID statID calcAmount).map fun c =>
      let (activeBuff, bm) := c.buffManager.updateBuff g_ServerTime tier buffCategory abID abgID
        durationSec c.initialisingAbilities
      let c := { c with buffManager := bm }.addBuff strtod g_ServerTime .ABILITY buffCategory abID
        abgID statID calcAmount activeBuff.durationS
      if abgID = 116 then
        match c.baseStats.find? fun b => b.StatID == statID with
        | some b => c.writeValueToStat b.StatID (b.fBaseVal + b.fModTotal)
        | none => c
      else c

/-- `AddMod`: the modifier is of no stat, and is not counted. -/
def addMod (tier buffCategory : UInt8) (abID abgID : Int) (durationSec : ℚ) : CreatureInstance :=
  let (buff, bm) := c.buffManager.updateBuff g_ServerTime tier buffCategory abID abgID durationSec
    c.initialisingAbilities
  { c with
    buffManager := bm
    activeStatMod :=
      c.activeStatMod ++ [{ abilityID := abID, expireTime := some buff.castEndTimeMS }] }

/-- `AddItemStatMod`. -/
def addItemStatMod (itemID statID : Int) (amount : ℚ) : CreatureInstance :=
  let newMod : ActiveStatMod :=
    { sourceType := .ITEM, sourceID := itemID, modStatID := statID, amount, expireTime := none }
  { c with activeStatMod := c.activeStatMod ++ [newMod] }.addBaseStatMod strtod statID amount

/-- `SubtractAbilityBuffStat`. -/
def subtractAbilityBuffStat (statID abgID : Int) (amount : ℚ) : CreatureInstance :=
  let c :=
    match c.getExistingModIndex .ABILITY abgID statID with
    | none => c
    | some r =>
        { c with
          activeStatMod := c.activeStatMod.modify r fun m =>
            { m with
              amount := m.amount - amount
              expireTime :=
                if statID = STAT.BONUS_HEALTH ∧ m.amount - amount < 1 then some g_ServerTime
                else m.expireTime } }
  let c := c.modifyBase statID fun b => { b with fModTotal := b.fModTotal - amount }
  match c.baseStats.find? fun b => b.StatID == statID with
  | some b => c.writeValueToStat b.StatID (b.fBaseVal + b.fModTotal)
  | none => c

end CreatureInstance

/-- An operation on the modifiers. -/
inductive Op
  | add (tier buffCategory : UInt8) (abID abgID statID : Int) (calcAmount durationSec : ℚ)
  | addBuff (buffSource : BuffSource) (buffCategory : UInt8) (abID abGroupID statID : Int)
      (calcAmount durationSec : ℚ)
  | addMod (tier buffCategory : UInt8) (abID abgID : Int) (durationSec : ℚ)
  | addItemStatMod (itemID statID : Int) (amount : ℚ)
  | subtractAbilityBuffStat (statID abgID : Int) (amount : ℚ)
  | removeBuffIndex (index : Nat)
  | removeBuffsFromAbility (abilityID : Int) (send : Bool)
  | removeStatModsBySource (buffSource : BuffSource)
  | removeAbilityBuffTypeExcept (buffCategory abilityID : Int)
  | removeAbilityBuffWithStat (statID : Int) (sign : ℚ)
  | removeAllBuffs
  | removeAllBuffsExceptGroupID (abilityGroupID : Int)
  | checkRemovedBuffs

/-- An operation at a time of the server. -/
def CreatureInstance.step (strtod : Text → ℚ) (c : CreatureInstance) :
    Nat × Op → Option CreatureInstance
  | (now, .add tier buffCategory abID abgID statID calcAmount durationSec) =>
      c.add strtod now tier buffCategory abID abgID statID calcAmount durationSec
  | (now, .addBuff buffSource buffCategory abID abGroupID statID calcAmount durationSec) =>
      some (c.addBuff strtod now buffSource buffCategory abID abGroupID statID calcAmount
        durationSec)
  | (now, .addMod tier buffCategory abID abgID durationSec) =>
      some (c.addMod now tier buffCategory abID abgID durationSec)
  | (_, .addItemStatMod itemID statID amount) => some (c.addItemStatMod strtod itemID statID amount)
  | (now, .subtractAbilityBuffStat statID abgID amount) =>
      some (c.subtractAbilityBuffStat now statID abgID amount)
  | (now, .removeBuffIndex index) => some (c.removeBuffIndex now index)
  | (now, .removeBuffsFromAbility abilityID send) => c.removeBuffsFromAbility now abilityID send
  | (now, .removeStatModsBySource buffSource) => c.removeStatModsBySource now buffSource
  | (now, .removeAbilityBuffTypeExcept buffCategory abilityID) =>
      c.removeAbilityBuffTypeExcept now buffCategory abilityID
  | (now, .removeAbilityBuffWithStat statID sign) => c.removeAbilityBuffWithStat now statID sign
  | (now, .removeAllBuffs) => c.removeAllBuffs now
  | (now, .removeAllBuffsExceptGroupID abilityGroupID) =>
      c.removeAllBuffsExceptGroupID now abilityGroupID
  | (now, .checkRemovedBuffs) => some (c.checkRemovedBuffs now)

end Iceee.Buffs
