import Iceee.Lib.Machine
import Iceee.Lib.Text

/-!
# Status effects of a creature

An effect has a bit in the array of flags and, while it is active, an entry in a list with its
expiry. A transformation has an effect, a server flag, and a modifier of the appearance.

## Implementation notes

Times are in milliseconds; the expiry is an unsigned number of 64 bits. Modifiers of the appearance
are kept by reference. The buffs that expire or are removed beside the effects are left out, and
what abilities do when they are deactivated is an operation of its own. So are the interruption of
a cast, messages, and the implicit actions. -/

namespace Iceee.Status

open Lib

/-! ### The table of the effects -/

/-- The effects are numbered as the rows of `StatusEffectBitData`. -/
abbrev StatusID := Fin 73

namespace StatusEffects

def DEAD : StatusID := 0
def STUN : StatusID := 3
def DAZE : StatusID := 4
def CAN_USE_WEAPON_2H : StatusID := 10
def CAN_USE_WEAPON_1H : StatusID := 11
def CAN_USE_WEAPON_SMALL : StatusID := 12
def CAN_USE_WEAPON_POLE : StatusID := 13
def CAN_USE_WEAPON_BOW : StatusID := 14
def CAN_USE_WEAPON_THROWN : StatusID := 15
def CAN_USE_WEAPON_WAND : StatusID := 16
def CAN_USE_DUAL_WIELD : StatusID := 17
def CAN_USE_PARRY : StatusID := 18
def CAN_USE_BLOCK : StatusID := 19
def CAN_USE_ARMOR_CLOTH : StatusID := 20
def CAN_USE_ARMOR_LIGHT : StatusID := 21
def CAN_USE_ARMOR_MEDIUM : StatusID := 22
def CAN_USE_ARMOR_HEAVY : StatusID := 23
def INVISIBLE : StatusID := 24
def WALK_IN_SHADOWS : StatusID := 51
def TRANSFORMED : StatusID := 63
def INVISIBLE_EQUIPMENT : StatusID := 64

end StatusEffects

/-- Each row of `StatusEffectBitData` has the next bit, with 32 bits for an array index. -/
def arrayIndex (statusID : StatusID) : Fin 3 := ⟨statusID / 32, by omega⟩

def bit (statusID : StatusID) : BitVec 32 := 1#32 <<< (statusID.val % 32)

/-! ### The creature -/

/-- `MAX_TIME`. -/
def MAX_TIME : Nat := 2 ^ 64 - 1

structure ActiveStatusEffect where
  modStatusID : StatusID
  startTime : Nat
  expireTime : Nat
  deriving DecidableEq, Repr

inductive AppearanceModifier
  | nudify
  | creatureAttribute (attr value : Text)
  | replace (appearance : Text)
  | addAttachment (type node : Text)
  deriving DecidableEq

/-- The modifiers of the appearance stand in the list with their addresses. -/
structure CreatureInstance where
  statusEffects : Fin 3 → BitVec 32 := fun _ => 0
  activeStatusEffect : List ActiveStatusEffect := []
  isTransformed : Bool := false
  transformCreatureId : Int := 0
  transformAbilityId : Int := 0
  transformModifier : Option Nat := none
  appearanceModifiers : List (Nat × AppearanceModifier) := []
  nextAddress : Nat := 0

namespace CreatureInstance

variable (c : CreatureInstance) (g_ServerTime : Nat)

/-- `HasStatus`. -/
def hasStatus (statusID : StatusID) : Bool :=
  testFlag c.statusEffects (arrayIndex statusID) (bit statusID)

/-- `_SetStatusFlag`. -/
def setStatusFlag (statusID : StatusID) : CreatureInstance :=
  { c with statusEffects := setFlag c.statusEffects (arrayIndex statusID) (bit statusID) }

/-- `_ClearStatusFlag`. -/
def clearStatusFlag (statusID : StatusID) : CreatureInstance :=
  { c with statusEffects := clearFlag c.statusEffects (arrayIndex statusID) (bit statusID) }

/-- `_HasStatusList`. -/
def hasStatusList (statusID : StatusID) : Option Nat :=
  c.activeStatusEffect.findIdx? fun e => e.modStatusID == statusID

/-- The end of an effect that is added; the sum of unsigned numbers may wrap. -/
def endTime (msDuration : Int) : Nat :=
  if msDuration = -1 then MAX_TIME else ((g_ServerTime + msDuration) % 2 ^ 64).toNat

/-- `_AddStatusList`: an effect that is active gets a new end, and its bit is left. -/
def addStatusList (statusID : StatusID) (msDuration : Int) : CreatureInstance :=
  let endTime := endTime g_ServerTime msDuration
  match c.hasStatusList statusID with
  | some r =>
      { c with
        activeStatusEffect := c.activeStatusEffect.modify r fun e =>
          { e with startTime := g_ServerTime, expireTime := endTime } }
  | none =>
      let effect : ActiveStatusEffect :=
        { modStatusID := statusID, startTime := g_ServerTime, expireTime := endTime }
      { c with activeStatusEffect := c.activeStatusEffect ++ [effect] }.setStatusFlag statusID

/-- `PushAppearanceModifier`. -/
def pushAppearanceModifier (modifier : Nat × AppearanceModifier) : CreatureInstance :=
  { c with appearanceModifiers := c.appearanceModifiers ++ [modifier] }

/-- `RemoveAppearanceModifier`. -/
def removeAppearanceModifier (modifier : Nat) : CreatureInstance :=
  { c with appearanceModifiers := c.appearanceModifiers.eraseP fun app => app.1 == modifier }

/-- `CAF_Untransform`: the bits are cleared, the entries of the list stay. -/
def CAF_Untransform : Bool × CreatureInstance :=
  match c.transformModifier with
  | none => (false, c)
  | some modifier =>
      let c := (c.clearStatusFlag StatusEffects.TRANSFORMED).clearStatusFlag
        StatusEffects.INVISIBLE_EQUIPMENT
      let c := { c with isTransformed := false }.removeAppearanceModifier modifier
      (true, { c with
        transformCreatureId := 0, transformAbilityId := 0, transformModifier := none })

/-- `_RemoveStatusList`. -/
def removeStatusList (statusID : StatusID) : CreatureInstance :=
  match c.hasStatusList statusID with
  | none => c
  | some r =>
      let c := { c with activeStatusEffect := c.activeStatusEffect.eraseIdx r
        }.clearStatusFlag statusID
      if statusID = StatusEffects.TRANSFORMED then c.CAF_Untransform.2 else c

/-- The effects of `CheckActiveStatusEffects`: those that have expired go, with their bits. -/
def checkActiveStatusEffects : CreatureInstance :=
  let expired := c.activeStatusEffect.filter fun e => g_ServerTime ≥ e.expireTime
  let active := c.activeStatusEffect.filter fun e => ¬g_ServerTime ≥ e.expireTime
  expired.foldl (fun c e => c.clearStatusFlag e.modStatusID) { c with activeStatusEffect := active }

/-- `CAF_Nudify`. The duration is in seconds here, and in milliseconds in the list. -/
def CAF_Nudify (durationS : Int) : Bool × CreatureInstance :=
  if c.transformModifier.isSome then (false, c)
  else
    let address := c.nextAddress
    let c := { c with transformModifier := some address, nextAddress := address + 1 }
    (true, (c.addStatusList g_ServerTime StatusEffects.INVISIBLE_EQUIPMENT durationS
      ).pushAppearanceModifier (address, .nudify))

/-- `CAF_Scale`, with the text of the scale. -/
def CAF_Scale (scale : Text) (durationS : Int) : Bool × CreatureInstance :=
  if c.transformModifier.isSome then (false, c)
  else
    let address := c.nextAddress
    let c := { c with transformModifier := some address, nextAddress := address + 1 }
    (true, (c.addStatusList g_ServerTime StatusEffects.TRANSFORMED durationS
      ).pushAppearanceModifier (address, .creatureAttribute "sz".toList scale))

/-- `CAF_Transform`, where `getPointerByCDef` gives the appearance of a definition. -/
def CAF_Transform (getPointerByCDef : Int → Option Text) (CDefID abID durationS : Int) :
    Bool × CreatureInstance :=
  if c.transformModifier.isSome then (false, c)
  else
    let c := { c.addStatusList g_ServerTime StatusEffects.TRANSFORMED durationS with
      isTransformed := true }
    match getPointerByCDef CDefID with
    | some appearance =>
        let address := c.nextAddress
        let c := { c with transformModifier := some address, nextAddress := address + 1
          }.pushAppearanceModifier (address, .replace appearance)
        (true, { c with transformCreatureId := CDefID, transformAbilityId := abID })
    | none => (false, { c with transformCreatureId := 0, transformAbilityId := 0 })

/-- The effects that a respec removes. -/
def EffectList : List StatusID :=
  [StatusEffects.CAN_USE_WEAPON_2H, StatusEffects.CAN_USE_WEAPON_1H,
    StatusEffects.CAN_USE_WEAPON_SMALL, StatusEffects.CAN_USE_WEAPON_POLE,
    StatusEffects.CAN_USE_WEAPON_BOW, StatusEffects.CAN_USE_WEAPON_THROWN,
    StatusEffects.CAN_USE_WEAPON_WAND, StatusEffects.CAN_USE_DUAL_WIELD,
    StatusEffects.CAN_USE_PARRY, StatusEffects.CAN_USE_BLOCK, StatusEffects.CAN_USE_ARMOR_CLOTH,
    StatusEffects.CAN_USE_ARMOR_LIGHT, StatusEffects.CAN_USE_ARMOR_MEDIUM,
    StatusEffects.CAN_USE_ARMOR_HEAVY, StatusEffects.INVISIBLE, StatusEffects.WALK_IN_SHADOWS]

/-- `Respec`. -/
def respec : CreatureInstance := EffectList.foldl removeStatusList c

end CreatureInstance

/-- An operation on the status effects. -/
inductive Op
  | addStatusList (statusID : StatusID) (msDuration : Int)
  | removeStatusList (statusID : StatusID)
  | checkActiveStatusEffects
  | transform (CDefID abID durationS : Int)
  | scale (scale : Text) (durationS : Int)
  | nudify (durationS : Int)
  | untransform
  | respec
  deriving DecidableEq

/-- An operation at a time of the server. -/
def CreatureInstance.step (getPointerByCDef : Int → Option Text) (c : CreatureInstance) :
    Nat × Op → Option CreatureInstance
  | (now, .addStatusList statusID msDuration) => some (c.addStatusList now statusID msDuration)
  | (_, .removeStatusList statusID) => some (c.removeStatusList statusID)
  | (now, .checkActiveStatusEffects) => some (c.checkActiveStatusEffects now)
  | (now, .transform CDefID abID durationS) =>
      some (c.CAF_Transform now getPointerByCDef CDefID abID durationS).2
  | (now, .scale scale durationS) => some (c.CAF_Scale now scale durationS).2
  | (now, .nudify durationS) => some (c.CAF_Nudify now durationS).2
  | (_, .untransform) => some c.CAF_Untransform.2
  | (_, .respec) => some c.respec

end Iceee.Status
