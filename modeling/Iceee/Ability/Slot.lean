import Mathlib

/-!
# Ability slots

`ActiveAbilityInfo`, the record of the ability a creature is using: what it is, when it fires
next, what it will cost and whom it aims at.

## Implementation notes

The array of targets is a list as long as `TargetCount`; a null pointer in it is `none`. The
position of a ground target and the duration of a saved session are left out.
-/

namespace Iceee

/-- The address of a creature instance. -/
abbrev CreaturePtr := Nat

namespace Ability

/-- How a slot processes its ability. -/
inductive AbilityType where
  | none | instant | cast | channel | passive
  deriving DecidableEq, Repr

structure ActiveAbilityInfo where
  abilityID : Int := 0
  type : AbilityType := .none
  iterations : Int := 0
  iterationDur : Int := 0
  iterationInt : Int := 0
  fireTime : Nat := 0
  bPending : Bool := false
  bUnbreakableChannel : Bool := false
  bParallel : Bool := false
  bSecondary : Bool := false
  bForce : Bool := false
  interruptChanceMod : Int := 0
  willChargesSpent : Int := 0
  mightChargesSpent : Int := 0
  willAdjust : Int := 0
  mightAdjust : Int := 0
  willChargeAdjust : Int := 0
  mightChargeAdjust : Int := 0
  bResourcesSpent : Bool := false
  targetList : List (Option CreaturePtr) := []
  deriving DecidableEq, Repr

namespace ActiveAbilityInfo

variable (ab : ActiveAbilityInfo)

/-- `ClearTargetList`. -/
def clearTargetList : ActiveAbilityInfo := { ab with targetList := [] }

/-- `Clear`: the times and the iterations stay. -/
def clear : ActiveAbilityInfo :=
  { ab.clearTargetList with
    bPending := false
    bForce := false
    bSecondary := false
    bUnbreakableChannel := false
    interruptChanceMod := 0
    mightChargesSpent := 0
    willChargesSpent := 0
    willAdjust := 0
    mightAdjust := 0
    willChargeAdjust := 0
    mightChargeAdjust := 0
    bResourcesSpent := false
    bParallel := false
    abilityID := 0
    type := .none }

@[simp] theorem targetList_clear : ab.clear.targetList = [] := rfl

@[simp] theorem bPending_clear : ab.clear.bPending = false := rfl

end ActiveAbilityInfo

end Ability

end Iceee
