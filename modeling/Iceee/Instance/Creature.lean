import Iceee.Ability.Slot
import Iceee.Lib.Sort

/-!
# Creatures of an instance

`CreatureInstance` with the pointers it holds to other creatures, and the choice of a target
from the hate profile.

## Implementation notes

Scripts, packets, movement and the buffs a mount gives are left out. Any sort may sort the hate
list.
-/

namespace Iceee.Instance

open Ability (ActiveAbilityInfo)

structure HateCreatureData where
  cDefID : Int
  hate : Int := 0
  deriving DecidableEq, Repr

/-- A sort by `SortByHate`. -/
abbrev HateSort := Lib.SortBy fun left right : HateCreatureData => decide (right.hate < left.hate)

structure HateProfile where
  hateList : List HateCreatureData := []
  tauntReleaseTime : Nat := 0
  nextRefreshTime : Nat := 0
  deriving DecidableEq, Repr

/-- `REFRESH_DELAY`. -/
def REFRESH_DELAY : Nat := 1000

/-- `AGGRO_MAXIMUM_RANGE`. -/
def AGGRO_MAXIMUM_RANGE : Nat := 200

structure CreatureInstance where
  ptr : CreaturePtr
  creatureID : Int := 0
  creatureDefID : Int := 0
  isPlayer : Bool := false
  isSidekick : Bool := false
  hateInfoChanged : Bool := false
  dead : Bool := false
  mounted : Bool := false
  carryingRider : Bool := false
  currentX : Int := 0
  currentZ : Int := 0
  /-- `CurrentTarget.targ`. -/
  targ : Option CreaturePtr := none
  ab0 : ActiveAbilityInfo := {}
  ab1 : ActiveAbilityInfo := {}
  mountedOn : Option CreaturePtr := none
  mountedBy : Option CreaturePtr := none
  anchorObject : Option CreaturePtr := none
  hateProfile : Option HateProfile := none
  deriving DecidableEq, Repr

/-- What the search for a hated player sees of a player. -/
structure HateTarget where
  ptr : CreaturePtr
  creatureDefID : Int
  dead : Bool
  currentX : Int
  currentZ : Int
  deriving DecidableEq, Repr

namespace CreatureInstance

variable (d : CreatureInstance)

def hateTarget : HateTarget where
  ptr := d.ptr
  creatureDefID := d.creatureDefID
  dead := d.dead
  currentX := d.currentX
  currentZ := d.currentZ

/-- Whether `GetPlaneRange` to a player is at most `AGGRO_MAXIMUM_RANGE`: the distance is cut
to a whole number. -/
def inAggroRange (t : HateTarget) : Bool :=
  let xlen := (d.currentX - t.currentX).natAbs
  let zlen := (d.currentZ - t.currentZ).natAbs
  xlen ≤ AGGRO_MAXIMUM_RANGE ∧ zlen ≤ AGGRO_MAXIMUM_RANGE ∧
    Nat.sqrt (xlen * xlen + zlen * zlen) ≤ AGGRO_MAXIMUM_RANGE

/-- `SelectTarget`: a creature that is no player drops its pending ability, and a dead one
takes no target. -/
def selectTarget (newTarget : Option CreaturePtr) : CreatureInstance :=
  if newTarget = d.targ ∨ newTarget.isSome ∧ d.dead then d
  else
    let d := if d.isPlayer = false ∧ d.ab0.bPending then { d with ab0 := d.ab0.clear } else d
    { d with targ := newTarget }

/-- The loop of `CheckMostHatedTarget` over the sorted hate list: the list, with the hate
against dead players gone, and the first player in range. -/
def findHated (players : List HateTarget) :
    List HateCreatureData → List HateCreatureData × Option CreaturePtr
  | [] => ([], none)
  | entry :: rest =>
      match players.find? fun t => t.creatureDefID == entry.cDefID with
      | none =>
          let (rest, found) := findHated players rest
          (entry :: rest, found)
      | some t =>
          if t.dead then
            let (rest, found) := findHated players rest
            ({ entry with hate := 0 } :: rest, found)
          else if d.inAggroRange t then (entry :: rest, some t.ptr)
          else
            let (rest, found) := findHated players rest
            (entry :: rest, found)

/-- `CheckMostHatedTarget(true)`. -/
def checkMostHatedTarget (sort : HateSort) (now : Nat) (players : List HateTarget) :
    CreatureInstance :=
  match d.hateProfile with
  | none => { d with hateInfoChanged := true }
  | some h =>
      if now < h.tauntReleaseTime ∨ now < h.nextRefreshTime then { d with hateInfoChanged := true }
      else
        let (hateList, found) := d.findHated players (sort.sort h.hateList)
        let d :=
          { d with
            hateInfoChanged := false
            hateProfile := some { h with hateList, nextRefreshTime := now + REFRESH_DELAY } }
        match found with
        | none => d
        | some t => d.selectTarget (some t)

end CreatureInstance

/-- The part of `RemoveCreatureReference` for one slot: the first entry for the creature is
taken out of a pending slot, and a slot without targets is cancelled. -/
def removeTarget (target : CreaturePtr) (ab : ActiveAbilityInfo) : ActiveAbilityInfo :=
  if ab.bPending then
    let ab := { ab with targetList := ab.targetList.erase (some target) }
    if ab.targetList = [] then ab.clear else ab
  else ab

/-- The part of `RemoveCreatureReference` for the current target: a creature that is no player
looks for another one. -/
def CreatureInstance.dropTarget (d : CreatureInstance) (sort : HateSort) (now : Nat)
    (players : List HateTarget) : CreatureInstance :=
  let d := d.selectTarget none
  if d.isPlayer then d else d.checkMostHatedTarget sort now players

/-- `RemoveCreatureReference`. -/
def CreatureInstance.removeCreatureReference (d : CreatureInstance) (sort : HateSort) (now : Nat)
    (players : List HateTarget) (target : CreaturePtr) : CreatureInstance :=
  let d := if d.targ = some target then d.dropTarget sort now players else d
  { d with ab0 := removeTarget target d.ab0, ab1 := removeTarget target d.ab1 }

end Iceee.Instance
