import Iceee.Instance.Creature

/-!
# Removing a creature

`EraseAllCreatureReference`, which is to take a creature out of everything that points at it,
and the removal of the creature from the list that owns it.

## Implementation notes

The pending operations and the implicit actions are global in the source. A creature is found
by its address, which no other creature has; a pointer in one of the quick access lists that
names no creature of the instance is skipped.
-/

namespace Iceee.Instance

/-! ### Pending operations -/

structure PendingCreatureUpdate where
  object : CreaturePtr
  mask : Nat := 0
  statUpdate : List Nat := []
  deriving DecidableEq, Repr

structure PendingOperation where
  deathList : List CreaturePtr := []
  updateList : List PendingCreatureUpdate := []
  deriving DecidableEq, Repr

/-- `CREATURE_UPDATE_MOD`. -/
def CREATURE_UPDATE_MOD : Nat := 64

/-- `CREATURE_UPDATE_STAT`. -/
def CREATURE_UPDATE_STAT : Nat := 32

namespace PendingOperation

variable (p : PendingOperation) (obj : CreaturePtr)

/-- `Debug_HasCreature`. -/
def hasCreature : Bool :=
  (p.updateList.any fun u => u.object == obj) || p.deathList.contains obj

/-- `DeathList_Remove`. -/
def deathListRemove : PendingOperation := { p with deathList := p.deathList.erase obj }

/-- `UpdateList_Add`. -/
def updateListAdd (mask : Nat) (statID : Nat) : PendingOperation :=
  match p.updateList.findIdx? fun u => u.object == obj with
  | none =>
      { p with
        updateList := p.updateList ++
          [{ object := obj, mask := mask ||| CREATURE_UPDATE_STAT, statUpdate := [statID] }] }
  | some r =>
      { p with
        updateList := p.updateList.modify r fun u =>
          { u with
            mask := u.mask ||| mask ||| CREATURE_UPDATE_STAT
            statUpdate := u.statUpdate ++ [statID] } }

/-- `UpdateList_Remove`. -/
def updateListRemove : PendingOperation :=
  { p with updateList := p.updateList.eraseP fun u => u.object == obj }

end PendingOperation

/-- An action an ability triggered, to be run when the abilities were processed. -/
structure AbilityImplicitAction where
  source : CreaturePtr
  target : CreaturePtr
  abilityID : Int := 0
  damage : Int := 0
  deriving DecidableEq, Repr

/-! ### The instance -/

namespace CreatureInstance

variable (d : CreatureInstance)

/-- Change the creature at an address and no other. -/
def applyAt (ptr : CreaturePtr) (f : CreatureInstance → CreatureInstance)
    (d : CreatureInstance) : CreatureInstance :=
  if d.ptr = ptr then f d else d

/-- The mount after its rider has dismounted. -/
def loseRider : CreatureInstance := { d with mountedBy := none, carryingRider := false }

/-- The rider after it has dismounted. -/
def leaveMount : CreatureInstance := { d with mountedOn := none, mounted := false }

/-- `RemoveAttachedHateProfile`. -/
def removeAttachedHateProfile : CreatureInstance := { d with hateProfile := none }

end CreatureInstance

structure ActiveInstance where
  playerList : List CreatureInstance := []
  npcList : List CreatureInstance := []
  sidekickList : List CreatureInstance := []
  playerListPtr : List CreaturePtr := []
  npcListPtr : List CreaturePtr := []
  sidekickListPtr : List CreaturePtr := []
  pendingOperations : PendingOperation := {}
  mImplicitActions : List AbilityImplicitAction := []
  serverTime : Nat := 0
  /-- The sort of the hate lists. -/
  sort : HateSort

namespace ActiveInstance

variable (inst : ActiveInstance)

/-- All creatures of the instance. -/
def creatures : List CreatureInstance := inst.playerList ++ inst.npcList ++ inst.sidekickList

/-- Change every creature of the instance. -/
def mapCreatures (f : CreatureInstance → CreatureInstance) : ActiveInstance :=
  { inst with
    playerList := inst.playerList.map f
    npcList := inst.npcList.map f
    sidekickList := inst.sidekickList.map f }

/-- Change the creature at an address. -/
def modifyCreature (ptr : CreaturePtr) (f : CreatureInstance → CreatureInstance) :
    ActiveInstance :=
  inst.mapCreatures (CreatureInstance.applyAt ptr f)

/-- What a creature that looks for a target sees of the players. -/
def hateTargets : List HateTarget := inst.playerList.map CreatureInstance.hateTarget

/-- `_RemoveStatusList`, for a status that is there or not. -/
def statusRemoved (had : Bool) (obj : CreaturePtr) : ActiveInstance :=
  if had then
    { inst with
      pendingOperations := inst.pendingOperations.updateListAdd obj CREATURE_UPDATE_MOD 0 }
  else inst

/-- `Dismount`, which a mount cannot do. -/
def dismount (object : CreatureInstance) : ActiveInstance :=
  match object.mountedBy, object.mountedOn with
  | none, some mount =>
      let carryingRider := inst.creatures.any fun d => d.ptr == mount && d.carryingRider
      let inst := inst.modifyCreature mount CreatureInstance.loseRider
      let inst := inst.modifyCreature object.ptr CreatureInstance.leaveMount
      (inst.statusRemoved carryingRider mount).statusRemoved object.mounted object.ptr
  | _, _ => inst

/-- `CreatureInstance::Shutdown`. -/
def shutdown (object : CreatureInstance) : ActiveInstance :=
  (inst.dismount object).modifyCreature object.ptr CreatureInstance.removeAttachedHateProfile

/-- `UpdateList_Remove` and `DeathList_Remove`. -/
def removePending (obj : CreaturePtr) : ActiveInstance :=
  { inst with
    pendingOperations := (inst.pendingOperations.updateListRemove obj).deathListRemove obj }

/-- One call of `RemoveCreatureReference`, through a quick access pointer. -/
def visit (target ptr : CreaturePtr) : ActiveInstance :=
  inst.modifyCreature ptr fun d =>
    d.removeCreatureReference inst.sort inst.serverTime inst.hateTargets target

/-- `EraseIndividualReference`: the loops over the three quick access lists. -/
def eraseIndividualReference (target : CreaturePtr) : ActiveInstance :=
  (inst.playerListPtr ++ inst.npcListPtr ++ inst.sidekickListPtr).foldl
    (fun inst ptr => inst.visit target ptr) inst

/-- `EraseAllCreatureReference`. -/
def eraseAllCreatureReference (object : CreatureInstance) : ActiveInstance :=
  let inst := ((inst.shutdown object).removePending object.ptr).eraseIndividualReference object.ptr
  if inst.pendingOperations.hasCreature object.ptr then inst.removePending object.ptr else inst

/-- The creature is erased from the list that owns it. -/
def removeCreature (ptr : CreaturePtr) : ActiveInstance :=
  { inst with
    playerList := inst.playerList.filter fun d => d.ptr ≠ ptr
    npcList := inst.npcList.filter fun d => d.ptr ≠ ptr
    sidekickList := inst.sidekickList.filter fun d => d.ptr ≠ ptr }

end ActiveInstance

end Iceee.Instance
