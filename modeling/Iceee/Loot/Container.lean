import Mathlib

/-!
# Loot containers

`ActiveLootContainer` lists the items left on a dead creature and, for each item, who has
chosen need, greed or pass on it.

## Implementation notes

A `std::map` from items to sets is a total function here, because the source never tells
an empty set from a missing one. The sets are ordered lists without repetition.
-/

namespace Iceee

/-- Insert into an ordered set. -/
def setInsert (x : Int) (l : List Int) : List Int :=
  if x ∈ l then l else l.orderedInsert (· ≤ ·) x

/-- What a player may choose about an item. -/
inductive LootChoice
  | need | greed | pass
  deriving DecidableEq, Repr

structure ActiveLootContainer where
  creatureID : Int := 0
  robinID : Int := 0
  stage2Map : List Int := []
  lootableID : List Int := []
  itemList : List Int := []
  greeded : Int → List Int := fun _ => []
  needed : Int → List Int := fun _ => []
  passed : Int → List Int := fun _ => []

namespace ActiveLootContainer

variable (loot : ActiveLootContainer)

/-- `IsStage2`. -/
def isStage2 (itemID : Int) : Bool := loot.stage2Map.contains itemID

/-- `SetStage2(true)`. -/
def setStage2 (itemID : Int) : ActiveLootContainer :=
  if loot.isStage2 itemID then loot else { loot with stage2Map := itemID :: loot.stage2Map }

/-- `AddItem`. -/
def addItem (itemID : Int) : ActiveLootContainer :=
  if loot.itemList.length > 16 then loot
  else if itemID > 0 then { loot with itemList := loot.itemList ++ [itemID] }
  else loot

/-- `AddLootableID`. -/
def addLootableID (newLootableID : Int) : ActiveLootContainer :=
  if newLootableID ∈ loot.lootableID then loot
  else { loot with lootableID := loot.lootableID ++ [newLootableID] }

/-- `CopyLootContents`. -/
def copyLootContents (source : ActiveLootContainer) : ActiveLootContainer :=
  { loot with
    creatureID := source.creatureID
    robinID := source.robinID
    itemList := source.itemList
    greeded := source.greeded
    needed := source.needed
    passed := source.passed }

/-- `HasItem`: the first index of an item. -/
def hasItem (itemID : Int) : Option Nat := loot.itemList.idxOf? itemID

/-- `RemoveItem`. -/
def removeItem (index : Nat) : ActiveLootContainer :=
  { loot with itemList := loot.itemList.eraseIdx index }

/-- `HasLootableID`. -/
def hasLootableID (creatureID : Int) : Bool := loot.lootableID.contains creatureID

/-- `Need`, `Greed` and `Pass`: the choice of one player about one item. -/
def choose (choice : LootChoice) (itemId looterCreatureId : Int) : ActiveLootContainer :=
  let put (m : Int → List Int) := Function.update m itemId (setInsert looterCreatureId (m itemId))
  match choice with
  | .need => { loot with needed := put loot.needed }
  | .greed => { loot with greeded := put loot.greeded }
  | .pass => { loot with passed := put loot.passed }

/-- `IsNeeded`. -/
def isNeeded (itemId looterCreatureId : Int) : Bool :=
  (loot.needed itemId).contains looterCreatureId

/-- `IsGreeded`. -/
def isGreeded (itemId looterCreatureId : Int) : Bool :=
  (loot.greeded itemId).contains looterCreatureId

/-- `HasAnyDecided`. -/
def hasAnyDecided (itemId looterCreatureId : Int) : Bool :=
  loot.isGreeded itemId looterCreatureId || loot.isNeeded itemId looterCreatureId ||
    (loot.passed itemId).contains looterCreatureId

/-- `CountDecisions`. -/
def countDecisions (itemId : Int) : Nat :=
  (loot.greeded itemId).length + (loot.needed itemId).length + (loot.passed itemId).length

/-- `RemoveAllRolls`. -/
def removeAllRolls : ActiveLootContainer :=
  { loot with
    greeded := fun _ => []
    needed := fun _ => []
    passed := fun _ => []
    stage2Map := [] }

/-- `RemoveCreatureRolls`: of one creature, or of all when the ID is 0. -/
def removeCreatureRolls (itemId looterCreatureId : Int) : ActiveLootContainer :=
  let remove (m : Int → List Int) :=
    Function.update m itemId
      (if looterCreatureId = 0 then [] else (m itemId).erase looterCreatureId)
  { loot with
    greeded := remove loot.greeded
    needed := remove loot.needed
    passed := remove loot.passed }

/-! Only `AddItem`, `CopyLootContents` and `RemoveItem` touch the items. -/

@[simp] theorem addLootableID_itemList (newLootableID : Int) :
    (loot.addLootableID newLootableID).itemList = loot.itemList := by
  unfold addLootableID
  split <;> rfl

@[simp] theorem setStage2_itemList (itemID : Int) :
    (loot.setStage2 itemID).itemList = loot.itemList := by
  unfold setStage2
  split <;> rfl

@[simp] theorem choose_itemList (choice : LootChoice) (itemId looterCreatureId : Int) :
    (loot.choose choice itemId looterCreatureId).itemList = loot.itemList := by
  cases choice <;> rfl

@[simp] theorem removeAllRolls_itemList : loot.removeAllRolls.itemList = loot.itemList := rfl

@[simp] theorem removeCreatureRolls_itemList (itemId looterCreatureId : Int) :
    (loot.removeCreatureRolls itemId looterCreatureId).itemList = loot.itemList := rfl

theorem hasItem_isSome (itemID : Int) : (loot.hasItem itemID).isSome ↔ itemID ∈ loot.itemList := by
  rw [← not_iff_not, Bool.not_eq_true, Option.isSome_eq_false_iff, Option.isNone_iff_eq_none]
  exact List.idxOf?_eq_none_iff

/-- Removing the item that was found takes one copy of it and of nothing else. -/
theorem count_removeItem {itemID : Int} {index : Nat} (h : loot.hasItem itemID = some index)
    (id : Int) :
    ((loot.removeItem index).itemList.count id : Int) =
      loot.itemList.count id - if itemID = id then 1 else 0 := by
  have hmem : itemID ∈ loot.itemList := (loot.hasItem_isSome itemID).mp (by simp [h])
  have herase : (loot.removeItem index).itemList = loot.itemList.erase itemID := by
    unfold hasItem at h
    rw [List.erase_eq_eraseIdx, h]
    rfl
  rw [herase, List.count_erase]
  by_cases hid : itemID = id
  · subst hid
    have hpos := List.count_pos_iff.mpr hmem
    simp only [beq_self_eq_true, if_true]
    omega
  · simp [hid]

end ActiveLootContainer

end Iceee
