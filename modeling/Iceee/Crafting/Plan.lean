import Iceee.Inventory.Removal

/-!
# Crafting from a plan

`craft.create` makes the item of a plan out of a key component and a list of materials. The checks
count items in the backpack. The result is added before anything is removed, and the materials, the
key component and the plan are removed in two different ways.

## Implementation notes

The distance to the crafter is an input. A portable kit that is used only shows up in a packet to
the client, and so do the other removals, which are not modelled as packets.
-/

namespace Iceee.Crafting

open Lib InventoryManager

namespace QueryErrorMsg

def GENERIC : Int := -1
def INVSPACE : Int := -2
def INVCREATE : Int := -6
def INVALIDITEM : Int := -7
def INVMISSING : Int := -8
def INVALIDOBJ : Int := -9
def OUTOFRANGE : Int := -10
def NOCRAFT : Int := -30

end QueryErrorMsg

/-- `GetErrorString` for the codes of crafting; it has no text for `NOCRAFT`. -/
def getErrorString (error : Int) : String :=
  if error = QueryErrorMsg.GENERIC then "Server error."
  else if error = QueryErrorMsg.INVSPACE then "Not enough free inventory space."
  else if error = QueryErrorMsg.INVCREATE then "Unable to create inventory item."
  else if error = QueryErrorMsg.INVALIDITEM then "Item not found in server database."
  else if error = QueryErrorMsg.INVMISSING then "You are missing a required item."
  else if error = QueryErrorMsg.INVALIDOBJ then "Could not find object."
  else if error = QueryErrorMsg.OUTOFRANGE then "Too far away to interact."
  else "Server error: undefined"

/-- The crafting fields of an item definition. -/
structure CraftPlan where
  resultItemId : Int := 0
  keyComponentId : Int := 0
  craftItemDefId : List Int := []
  deriving DecidableEq, Repr

/-- The item tables, with the crafting fields of each item ID. -/
structure CraftTables where
  items : ItemManager
  plans : Int → CraftPlan := fun _ => {}

/-- What `protected_CheckDistance` returns; `none` is its 0. -/
inductive DistanceError
  | generic | invalidObj | outOfRange
  deriving DecidableEq, Repr

def DistanceError.code : DistanceError → Int
  | .generic => QueryErrorMsg.GENERIC
  | .invalidObj => QueryErrorMsg.INVALIDOBJ
  | .outOfRange => QueryErrorMsg.OUTOFRANGE

structure CraftQuery where
  argCount : Nat := 2
  ItemID : Int
  CreatureID : Int := 0
  ownCreatureID : Int := 0
  distCheck : Int → Option DistanceError := fun _ => none

/-- An inventory whose backpack has its entries at different slot numbers of sixteen bits. -/
structure Backpack where
  inv : InventoryManager
  placed : Placed invContainer (inv.containerList invContainer)
  slots : inv.maxContainerSlot invContainer ≤ 65536

/-- Count a material once more. -/
def addMaterial : List (Int × Nat) → Int → List (Int × Nat)
  | [], materialID => [(materialID, 1)]
  | (craftID, craftReq) :: rest, materialID =>
      if craftID = materialID then (craftID, craftReq + 1) :: rest
      else (craftID, craftReq) :: addMaterial rest materialID

/-- `CraftID` and `CraftReq`: the materials, each with its count. -/
def CraftPlan.materials (plan : CraftPlan) : List (Int × Nat) :=
  plan.craftItemDefId.foldl addMaterial []

section

variable (t : CraftTables) (now : Nat)

/-- The loop that looks for the materials. -/
def checkMaterials (inv : InventoryManager) : List (Int × Nat) → Option Int
  | [] => none
  | (craftID, craftReq) :: rest =>
      match t.items.getPointerByID craftID with
      | none => some QueryErrorMsg.INVALIDITEM
      | some _ =>
          if inv.getItemCount t.items invContainer craftID < craftReq then
            some QueryErrorMsg.INVMISSING
          else checkMaterials inv rest

/-- The portable kit that a character without a crafter uses. -/
def findKit (inv : InventoryManager) : Option (InventorySlot × ItemDef) :=
  (inv.getBestSpecialItem t.items invContainer .portableCraftkit).bind fun reagentPtr =>
    (t.items.getPointerByID reagentPtr.iid).map fun reagentDef => (reagentPtr, reagentDef)

/-- `unstack`: whether the kit is of the kind that is used up. -/
def unstack (kit : InventorySlot × ItemDef) : Bool :=
  kit.2.getDynamicMax .stacking ≥ 1 && kit.1.getStackCount t.items > 0

/-- Who crafts: a crafter within reach, or the character with a kit. -/
def checkCrafter (inv : InventoryManager) (q : CraftQuery) : Option Int :=
  if q.CreatureID = q.ownCreatureID then
    if (findKit t inv).isNone then some QueryErrorMsg.NOCRAFT else none
  else (q.distCheck q.CreatureID).map DistanceError.code

/-- The checks before the item is created: an error code, or the plan. -/
def checkPlan (inv : InventoryManager) (q : CraftQuery) : Except Int CraftPlan :=
  if q.argCount < 2 then .error QueryErrorMsg.GENERIC
  else
    match t.items.getPointerByID q.ItemID with
    | none => .error QueryErrorMsg.INVALIDITEM
    | some _ =>
        let itemPlan := t.plans q.ItemID
        match t.items.getPointerByID itemPlan.resultItemId with
        | none => .error QueryErrorMsg.INVALIDITEM
        | some _ =>
            if inv.getItemCount t.items invContainer itemPlan.keyComponentId < 1 then
              .error QueryErrorMsg.INVMISSING
            else
              match checkMaterials t inv itemPlan.materials with
              | some error => .error error
              | none =>
                  match inv.getFreeSlot invContainer with
                  | none => .error QueryErrorMsg.INVSPACE
                  | some _ =>
                      match checkCrafter t inv q with
                      | some error => .error error
                      | none => .ok itemPlan

/-- `RemoveItems`: what is flagged as modified stays. -/
def removeItems (inv : InventoryManager) (iq : List InventoryQuery) : InventoryManager :=
  (removed iq).foldl remItem inv

/-- The removal of the key component and of the plan. -/
def dropItem (inv : InventoryManager) (itemID : Int) : InventoryManager :=
  removeItems inv (scanRemoveItems t.items itemID (inv.containerList invContainer) 0 1)

/-- Everything the plan uses up, in the order of the source. -/
def consume (inv : InventoryManager) (q : CraftQuery) (plan : CraftPlan) : InventoryManager :=
  let inv := plan.materials.foldl
    (fun inv m => inv.removeItemsAndUpdate t.items now invContainer m.1 m.2) inv
  let inv := dropItem t inv plan.keyComponentId
  dropItem t inv q.ItemID

/-- `protected_helper_query_craft_create` with the answer of `CraftCreateHandler`. -/
def craftCreate (inv : InventoryManager) (q : CraftQuery) : InventoryManager × Response :=
  match checkPlan t inv q with
  | .error error => (inv, .error (getErrorString error))
  | .ok itemPlan =>
      match inv.addItemEx t.items now invContainer itemPlan.resultItemId 1 with
      | (none, inv) => (inv, .error (getErrorString QueryErrorMsg.INVCREATE))
      | (some _, inv) => (consume t now inv q itemPlan, .ok)

end

/-! ### What the checks ask for -/

theorem count_addMaterial (l : List (Int × Nat)) (materialID id : Int) :
    ((addMaterial l materialID).map fun m => if m.1 = id then m.2 else 0).sum =
      (l.map fun m => if m.1 = id then m.2 else 0).sum + if materialID = id then 1 else 0 := by
  induction l with
  | nil => simp [addMaterial]
  | cons m rest ih =>
      obtain ⟨craftID, craftReq⟩ := m
      rw [addMaterial]
      split
      · next hsame =>
          rw [List.map_cons, List.sum_cons, List.map_cons, List.sum_cons, hsame]
          split <;> omega
      · rw [List.map_cons, List.sum_cons, List.map_cons, List.sum_cons, ih]
        omega

theorem mem_keys_addMaterial {l : List (Int × Nat)} {materialID id : Int} :
    id ∈ (addMaterial l materialID).map Prod.fst ↔ id ∈ l.map Prod.fst ∨ id = materialID := by
  induction l with
  | nil => simp [addMaterial]
  | cons m rest ih =>
      rw [addMaterial]
      split
      · next hsame =>
          rw [List.map_cons, List.map_cons, ← hsame]
          simp only [List.mem_cons]
          tauto
      · rw [List.map_cons, List.map_cons, List.mem_cons, ih, List.mem_cons, or_assoc]

theorem nodup_addMaterial {l : List (Int × Nat)} (h : (l.map Prod.fst).Nodup)
    (materialID : Int) : ((addMaterial l materialID).map Prod.fst).Nodup := by
  induction l with
  | nil => exact List.nodup_singleton _
  | cons m rest ih =>
      rw [List.map_cons, List.nodup_cons] at h
      rw [addMaterial]
      split
      · exact List.nodup_cons.mpr h
      · next hne =>
          rw [List.map_cons, List.nodup_cons, mem_keys_addMaterial]
          refine ⟨fun hmem => ?_, ih h.2⟩
          obtain hmem | hmem := hmem
          · exact h.1 hmem
          · exact hne hmem

/-- The counted materials are the listed ones. -/
theorem count_materials (plan : CraftPlan) (id : Int) :
    (plan.materials.map fun m => if m.1 = id then m.2 else 0).sum =
      plan.craftItemDefId.count id := by
  have hcount (l : List Int) (ms : List (Int × Nat)) :
      ((l.foldl addMaterial ms).map fun m => if m.1 = id then m.2 else 0).sum =
        (ms.map fun m => if m.1 = id then m.2 else 0).sum + l.count id := by
    induction l generalizing ms with
    | nil => rfl
    | cons a rest ih =>
        rw [List.foldl_cons, ih, count_addMaterial, List.count_cons]
        simp only [beq_iff_eq]
        omega
  rw [CraftPlan.materials, hcount, List.map_nil, List.sum_nil, zero_add]

theorem nodup_materials (plan : CraftPlan) : (plan.materials.map Prod.fst).Nodup := by
  have hnodup (l : List Int) (ms : List (Int × Nat)) (h : (ms.map Prod.fst).Nodup) :
      ((l.foldl addMaterial ms).map Prod.fst).Nodup := by
    induction l generalizing ms with
    | nil => exact h
    | cons a rest ih => exact ih _ (nodup_addMaterial h a)
  exact hnodup _ [] List.nodup_nil

theorem mem_materials {plan : CraftPlan} {id : Int} :
    id ∈ plan.materials.map Prod.fst ↔ id ∈ plan.craftItemDefId := by
  have hmem (l : List Int) (ms : List (Int × Nat)) :
      id ∈ (l.foldl addMaterial ms).map Prod.fst ↔ id ∈ ms.map Prod.fst ∨ id ∈ l := by
    induction l generalizing ms with
    | nil => simp
    | cons a rest ih =>
        rw [List.foldl_cons, ih, mem_keys_addMaterial, List.mem_cons, or_assoc]
  rw [CraftPlan.materials, hmem, List.map_nil]
  simp

end Iceee.Crafting
