import Iceee.Crafting.Plan
import Iceee.Lib.Sort
import Iceee.Lib.Text

/-!
# Crafting from a recipe

`mod.craft` names slots of the inventory by their CCSIDs. A recipe asks for a number of inputs with
certain properties, and says what comes out. The outputs are added to the backpack, then the slots
of the inputs are removed.

## Implementation notes

The numbers that the conditions read of an item definition are kept in a table of their own. An
`int` that overflows wraps. The order that `std::sort` gives to inputs it cannot tell apart is a
parameter. A remainder by zero and a comparison without its symbol, which end the server, count as a
condition that fails. Messages to the client and the display names in them are left out.
-/

namespace Iceee.Crafting

open Lib InventoryManager

/-- Fields of an item definition as the numbers that a condition compares. -/
structure CraftProperties where
  mType : Int := 0
  mLevel : Int := 0
  mQualityLevel : Int := 0
  mWeaponType : Int := 0
  mArmorType : Int := 0
  mEquipType : Int := 0
  deriving DecidableEq, Repr

structure CraftInputSlot where
  mCCSID : Nat := 0
  mID : Int
  mStackCount : Int
  deriving DecidableEq, Repr

structure CraftRecipe where
  mInputCount : Int := 0
  mOutputCount : Int := 0
  mConditions : List Text := []
  mActions : List Text := []
  deriving DecidableEq, Repr

/-- `SortComparator`, where no definition is missing. -/
def sortComparator (properties : Int → CraftProperties) (lhs rhs : CraftInputSlot) : Bool :=
  if (properties lhs.mID).mType < (properties rhs.mID).mType then true
  else if (properties lhs.mID).mType = (properties rhs.mID).mType then lhs.mID < rhs.mID
  else false

/-- `SortInputs`. -/
abbrev InputSort (properties : Int → CraftProperties) := SortBy (sortComparator properties)

/-- Inputs are in order when their types are, and among equal types their IDs. -/
theorem sortComparator_eq_false {properties : Int → CraftProperties} {a b : CraftInputSlot} :
    sortComparator properties b a = false ↔
      (properties a.mID).mType < (properties b.mID).mType ∨
        (properties a.mID).mType = (properties b.mID).mType ∧ a.mID ≤ b.mID := by
  unfold sortComparator
  split
  · simp only [Bool.true_eq_false, false_iff]
    omega
  · split
    · simp only [decide_eq_false_iff_not]
      omega
    · simp only [true_iff]
      omega

/-- The order in which inserting one input after the other puts them. -/
def InputSort.inserting (properties : Int → CraftProperties) : InputSort properties :=
  SortBy.inserting (sortComparator properties)
    (fun a b => by rw [sortComparator_eq_false, sortComparator_eq_false]; omega)
    fun a b c => by
      rw [sortComparator_eq_false, sortComparator_eq_false, sortComparator_eq_false]
      omega

structure CraftManager where
  items : ItemManager
  properties : Int → CraftProperties := fun _ => {}
  mRecipes : List CraftRecipe := []
  sortInputs : InputSort properties

/-- `GetIntParam`. -/
def getIntParam (strVector : List Text) (index : Nat) : Int :=
  match strVector[index]? with
  | some t => atoi t
  | none => 0

/-- `GetComparator` with `Compare`; an unknown symbol compares to nothing. -/
def compare (symbol : Option Text) (leftValue rightValue : Int) : Bool :=
  if symbol = some ['='] then leftValue == rightValue
  else if symbol = some ['!', '='] then leftValue != rightValue
  else if symbol = some ['<'] then leftValue < rightValue
  else if symbol = some ['<', '='] then leftValue ≤ rightValue
  else if symbol = some ['>'] then leftValue > rightValue
  else if symbol = some ['>', '='] then leftValue ≥ rightValue
  else false

/-- `INVALID_PROPERTY`. -/
def invalidProperty : Int := -1

/-- `GetProperty`. -/
def getProperty (p : CraftProperties) (propertyName : String) : Int :=
  if propertyName = "level" then p.mLevel
  else if propertyName = "quality" then p.mQualityLevel
  else if propertyName = "type" then p.mType
  else if propertyName = "weapontype" then p.mWeaponType
  else if propertyName = "armortype" then p.mArmorType
  else if propertyName = "equiptype" then p.mEquipType
  else invalidProperty

/-- What one condition says: it passes, it fails the recipe, or it is not counted. -/
inductive ConditionResult
  | passed | failed | skipped
  deriving DecidableEq, Repr

def ConditionResult.ofBool (b : Bool) : ConditionResult := if b then .passed else .failed

/-- One round of `CheckCondition`. -/
def checkOne (properties : Int → CraftProperties) (inputItems : List CraftInputSlot)
    (condition : Text) : ConditionResult :=
  let args := split condition
  if args.length ≤ 2 then .skipped
  else
    let itemIndex := getIntParam args 0
    if itemIndex < 0 then .failed
    else
      match inputItems[itemIndex.toNat]? with
      | none => .failed
      | some input =>
          let op := String.ofList (args.getD 1 [])
          if op = "requireid" then
            let itemCount := getIntParam args 3
            .ofBool (input.mID == getIntParam args 2 &&
              !(itemCount ≥ 0 && input.mStackCount != itemCount))
          else if op = "requireidxmult" then
            let checkIndex := getIntParam args 3
            let mult := max 1 (getIntParam args 4)
            .ofBool (input.mID == getIntParam args 2 && decide (0 ≤ checkIndex) &&
              (inputItems[checkIndex.toNat]?).any fun check =>
                input.mStackCount == wrap32 (check.mStackCount * mult))
          else if op = "requireidmult" then
            let itemCount := getIntParam args 3
            .ofBool (input.mID == getIntParam args 2 && itemCount != 0 &&
              input.mStackCount.tmod itemCount == 0)
          else if op = "itemtype" then
            .ofBool ((properties input.mID).mType == getIntParam args 2)
          else if op = "quality" then
            .ofBool ((properties input.mID).mQualityLevel == getIntParam args 2)
          else if op = "cmp" then
            let leftValue :=
              getProperty (properties input.mID) (String.ofList (args.getD 2 []))
            .ofBool (leftValue != invalidProperty &&
              compare args[3]? leftValue (getIntParam args 4))
          else .skipped

/-- `CheckCondition`: every condition is counted as passed. -/
def checkCondition (properties : Int → CraftProperties) (conditions : List Text)
    (inputItems : List CraftInputSlot) : Bool :=
  conditions.all fun condition => checkOne properties inputItems condition == .passed

/-- One round of `GenerateOutputs`. -/
def generateOne (inputItems : List CraftInputSlot) (action : Text) : Option CraftInputSlot :=
  let args := split action
  let op := String.ofList (args.getD 0 [])
  let itemID := getIntParam args 1
  if op = "giveid" then
    let itemCount := getIntParam args 2
    some { mID := itemID, mStackCount := if itemCount ≤ 0 then 1 else itemCount }
  else if op = "giveidxmult" then
    let checkIndex := getIntParam args 2
    let mult := max 1 (getIntParam args 3)
    if checkIndex < 0 then none
    else (inputItems[checkIndex.toNat]?).map fun check =>
      { mID := itemID, mStackCount := wrap32 (check.mStackCount * mult) }
  else if op = "giveidxdiv" then
    let checkIndex := getIntParam args 2
    let div := max 1 (getIntParam args 3)
    if checkIndex < 0 then none
    else (inputItems[checkIndex.toNat]?).bind fun check =>
      let count := check.mStackCount.tdiv div
      if count > 0 then some { mID := itemID, mStackCount := count } else none
  else none

/-- `GenerateOutputs`. -/
def CraftRecipe.generateOutputs (recipe : CraftRecipe) (inputItems : List CraftInputSlot) :
    List CraftInputSlot :=
  recipe.mActions.filterMap (generateOne inputItems)

structure ModCraftQuery where
  creatureID : Int := 0
  ownCreatureID : Int := 0
  ccsids : List Nat := []
  distCheck : Int → Option DistanceError := fun _ => none

/-- How the handler ends: with an error text, with a bare error code, or with OK and whether
something was crafted. -/
inductive ModCraftReply
  | error (message : String)
  | code (error : Int)
  | ok (success : Bool)
  deriving DecidableEq, Repr

namespace CraftManager

variable (cm : CraftManager) (now : Nat)

def tables : CraftTables where
  items := cm.items

/-- `GetRecipe` on sorted inputs. -/
def getRecipe (inputItems : List CraftInputSlot) : Option CraftRecipe :=
  cm.mRecipes.find? fun recipe =>
    recipe.mInputCount == inputItems.length &&
      checkCondition cm.properties recipe.mConditions inputItems

/-- The slots the client names, as far as they are there. -/
def resolveInputs (inv : InventoryManager) (ccsids : List Nat) : List CraftInputSlot :=
  ccsids.filterMap fun ccsid =>
    (inv.getItemPtrByCCSID ccsid).bind fun slot =>
      (cm.items.getPointerByID slot.iid).map fun _ =>
        { mCCSID := ccsid, mID := slot.iid, mStackCount := slot.getStackCount cm.items }

/-- Whether a book is among the outputs. -/
def makesBook (outputs : List CraftInputSlot) : Bool :=
  outputs.any fun output =>
    (cm.items.getPointerByID output.mID).any fun d =>
      d.getDynamicMax .bookPage == -1 && decide (d.getDynamicMax .book > 0)

/-- Who crafts: a crafter within reach, or the character, who needs a kit unless it is a book. -/
def checkModCrafter (inv : InventoryManager) (q : ModCraftQuery)
    (outputs : List CraftInputSlot) : Option Int :=
  if q.creatureID = q.ownCreatureID then
    if cm.makesBook outputs = false ∧ (findKit cm.tables inv).isNone then
      some QueryErrorMsg.NOCRAFT
    else none
  else (q.distCheck q.creatureID).map DistanceError.code

/-- The handler up to the point where it changes something: how it ends, or the inputs and the
outputs. -/
def findCraft (inv : InventoryManager) (q : ModCraftQuery) :
    Except ModCraftReply (List CraftInputSlot × List CraftInputSlot) :=
  let inputs := cm.resolveInputs inv q.ccsids
  if inputs.length = 0 then .error (.error "You must provide some input items.")
  else
    let inputs := cm.sortInputs.sort inputs
    match cm.getRecipe inputs with
    | none => .error (.error ((if inputs.length = 1 then "That item does" else "Those items do") ++
        " not match a known combination."))
    | some recipe =>
        if inv.countFreeSlots invContainer < recipe.mOutputCount then
          .error (.error ("You must have " ++ toString recipe.mOutputCount ++ " empty inventory " ++
            (if recipe.mOutputCount = 1 then "slot" else "slots") ++ "."))
        else
          let inputs := cm.sortInputs.sort inputs
          let outputs := recipe.generateOutputs inputs
          if outputs = [] then .error (.ok false)
          else if outputs.any fun output => (cm.items.getPointerByID output.mID).isNone then
            .error (.ok false)
          else
            match cm.checkModCrafter inv q outputs with
            | some error => .error (.code error)
            | none => .ok (inputs, outputs)

/-- Give the outputs. -/
def giveOutputs (inv : InventoryManager) (outputs : List CraftInputSlot) : InventoryManager :=
  outputs.foldl (fun inv output =>
    (inv.addItemEx cm.items now invContainer output.mID output.mStackCount).2) inv

/-- `ModCraftHandler::handleQuery`. -/
def modCraft (inv : InventoryManager) (q : ModCraftQuery) : InventoryManager × ModCraftReply :=
  match cm.findCraft inv q with
  | .error reply => (inv, reply)
  | .ok (inputs, outputs) =>
      ((inputs.map CraftInputSlot.mCCSID).foldl remItem (cm.giveOutputs now inv outputs), .ok true)

end CraftManager

end Iceee.Crafting
