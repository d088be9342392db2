import Iceee.Crafting.Plan
import Iceee.Lib.Position

/-!
# Refashioning

`item.morph` gives an item the look of another one, which is used up. Both are found by the CCSIDs
of the client, as pointers into the lists of their containers. The pointers stay as they are while
the look item, and a unit of a portable refashioner, are erased from the same lists.

## Implementation notes

A pointer is a container and an index; behind the end of the list it points to nothing. The items
of the client update are kept, its texts and the copper stat are not.
-/

namespace Iceee

open Lib Crafting

/-- `GetLookID`. -/
def InventorySlot.getLookID (s : InventorySlot) : Int :=
  if s.customLook ≠ 0 then s.customLook else s.iid

namespace Refashion

open InventoryManager

/-! ### Pointers to slots -/

structure SlotPtr where
  container : ContainerID
  index : Nat
  deriving DecidableEq, Repr

/-- `GetItemPtrByCCSID`. -/
def ptrByCCSID (inv : InventoryManager) (ccsid : Nat) : Option SlotPtr :=
  (containerOf ccsid).bind fun c => (indexOfCCSID (inv.containerList c) ccsid).map fun i => ⟨c, i⟩

/-- What a pointer points to. -/
def deref (inv : InventoryManager) (p : SlotPtr) : Option InventorySlot :=
  (inv.containerList p.container)[p.index]?

/-! ### The query -/

def NOREFASHION : Int := -29
def COIN : Int := -11

/-- `UNREFASHION_LOWERBOUND`. -/
def UNREFASHION_LOWERBOUND : Int := 8980

/-- `UNREFASHION_UPPERBOUND`. -/
def UNREFASHION_UPPERBOUND : Int := 8989

structure MorphState where
  inv : InventoryManager
  copper : Int

/-- The arguments, and what the server knows of the creatures; `command` is a slash command. -/
structure MorphQuery where
  command : Bool := false
  argCount : Nat := 3
  origLook : Nat
  newLook : Nat
  creatureID : Int := 0
  ownCreatureID : Int := 0
  distCheck : Int → Option DistanceError := fun _ => none

/-- A message of the client update. -/
inductive ItemUpdate
  | remove (ccsid : Nat)
  | add (slot : Option InventorySlot)
  deriving DecidableEq, Repr

/-- A portable refashioner, and whether one of its stack is used. -/
structure Reagent where
  reagentDef : ItemDef
  unstack : Bool
  deriving DecidableEq, Repr

/-- What the checks of `ItemMorph` find. -/
structure MorphPlan where
  orig : SlotPtr
  look : SlotPtr
  origSlot : InventorySlot
  lookSlot : InventorySlot
  cost : Int
  reagent : Option Reagent
  deriving DecidableEq, Repr

section Morph

variable (im : ItemManager) (now : Nat) (s : MorphState) (q : MorphQuery)

/-- Who refashions: the player with a portable refashioner, or a creature that is near. -/
def findRefashioner : Except Int (Option Reagent) :=
  if q.command then .ok none
  else if q.creatureID = q.ownCreatureID then
    match s.inv.getBestSpecialItem im invContainer .portableRefashioner with
    | none => .error NOREFASHION
    | some reagent =>
        match im.getPointerByID reagent.iid with
        | none => .error NOREFASHION
        | some reagentDef =>
            .ok (some ⟨reagentDef, reagentDef.mIvMax1 > 1 ∧ reagent.getStackCount im > 0⟩)
  else
    match q.distCheck q.creatureID with
    | some error => .error error.code
    | none => .ok none

/-- The part of `ItemMorph` that changes nothing. -/
def checkMorph : Except Int MorphPlan :=
  if q.argCount < 3 then .error QueryErrorMsg.GENERIC
  else
    match findRefashioner im s q with
    | .error error => .error error
    | .ok reagent =>
        match ptrByCCSID s.inv (q.origLook % 2 ^ 32), ptrByCCSID s.inv (q.newLook % 2 ^ 32) with
        | some orig, some look =>
            match deref s.inv orig, deref s.inv look with
            | some origSlot, some lookSlot =>
                match im.getPointerByID origSlot.iid, im.getPointerByID lookSlot.iid with
                | some itemPtr1, some itemPtr2 =>
                    let cost :=
                      if reagent.isSome then 0
                      else (wrap32 (itemPtr1.mValue + itemPtr2.mValue)).tdiv 2
                    if s.copper < cost then .error COIN
                    else .ok { orig, look, origSlot, lookSlot, cost, reagent }
                | _, _ => .error QueryErrorMsg.INVALIDITEM
            | _, _ => .error QueryErrorMsg.INVMISSING
        | _, _ => .error QueryErrorMsg.INVMISSING

/-- The look that the original slot gets. -/
def MorphPlan.customLook (plan : MorphPlan) : Int :=
  if UNREFASHION_LOWERBOUND ≤ plan.lookSlot.getLookID ∧
      plan.lookSlot.getLookID ≤ UNREFASHION_UPPERBOUND then 0
  else plan.lookSlot.getLookID

/-- The update for an entry that `RemoveItemsAndUpdate` found. -/
def updateOf (inv : InventoryManager) (c : ContainerID) (iq : InventoryQuery) : ItemUpdate :=
  if iq.remove then .remove iq.ccsid
  else .add (((inv.containerList c)[iq.index]?).map fun slot =>
    { slot with count := slot.count - iq.count })

/-- One of the refashioner is used, if it is one that is used up. -/
def useReagent (inv : InventoryManager) : Option Reagent → InventoryManager × List ItemUpdate
  | some ⟨reagentDef, true⟩ =>
      (inv.removeItemsAndUpdate im now invContainer reagentDef.mID 1,
        (scanRemoveItems im reagentDef.mID (inv.containerList invContainer) 0 1).map
          (updateOf inv invContainer))
  | _ => (inv, [])

/-- The part of `ItemMorph` that refashions. -/
def refashion (plan : MorphPlan) : MorphState × List ItemUpdate :=
  let copper := wrap32 (s.copper - plan.cost)
  let inv := s.inv.modifySlot plan.orig.container plan.orig.index fun slot =>
    { slot with customLook := plan.customLook }
  let inv := inv.remItem (q.newLook % 2 ^ 32)
  let (inv, used) := useReagent im now inv plan.reagent
  ({ inv, copper }, .remove plan.lookSlot.ccsid :: (used ++ [.add (deref inv plan.orig)]))

/-- `ItemMorph`. -/
def itemMorph : MorphState × Except Int (List ItemUpdate) :=
  match checkMorph im s q with
  | .error error => (s, .error error)
  | .ok plan =>
      let (s', updates) := refashion im now s q plan
      (s', .ok updates)

end Morph

end Refashion

end Iceee
