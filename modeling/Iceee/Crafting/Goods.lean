import Iceee.Crafting.Plan

/-!
# What crafting from a plan costs

The materials are taken by number. The key component and the plan are removed only as whole stacks,
so a stack of several stays as it is, and the portable kit is never removed. The quantities come out
right exactly when no kit of the kind that is used up was used, and the single key component and
the single plan stand alone once the materials are gone.
-/

namespace Iceee.Crafting

open Lib InventoryManager

variable {t : CraftTables} {now : Nat} {inv inv' : InventoryManager} {q : CraftQuery}

/-! ### The checks -/

/-- Everything the handler checks before it creates the item. -/
structure Craftable (t : CraftTables) (inv : InventoryManager) (q : CraftQuery) : Prop where
  arguments : 2 ≤ q.argCount
  plan : (t.items.getPointerByID q.ItemID).isSome
  result : (t.items.getPointerByID (t.plans q.ItemID).resultItemId).isSome
  component : 1 ≤ inv.getItemCount t.items invContainer (t.plans q.ItemID).keyComponentId
  materials : ∀ id ∈ (t.plans q.ItemID).craftItemDefId, (t.items.getPointerByID id).isSome ∧
    ((t.plans q.ItemID).craftItemDefId.count id : Int) ≤ inv.getItemCount t.items invContainer id
  space : (inv.getFreeSlot invContainer).isSome
  crafter : checkCrafter t inv q = none

theorem checkMaterials_eq_none {ms : List (Int × Nat)} :
    checkMaterials t inv ms = none ↔ ∀ m ∈ ms, (t.items.getPointerByID m.1).isSome ∧
      (m.2 : Int) ≤ inv.getItemCount t.items invContainer m.1 := by
  induction ms with
  | nil => exact iff_of_true rfl (List.forall_mem_nil _)
  | cons m rest ih =>
      obtain ⟨craftID, craftReq⟩ := m
      rw [checkMaterials, List.forall_mem_cons]
      cases hd : t.items.getPointerByID craftID with
      | none => simp
      | some d =>
          dsimp only
          split
          · next hless =>
              refine iff_of_false (by simp) fun hall => ?_
              exact absurd hall.1.2 (not_le.mpr hless)
          · next henough =>
              rw [ih]
              exact ⟨fun hrest => ⟨⟨rfl, not_lt.mp henough⟩, hrest⟩, fun hall => hall.2⟩

theorem sum_of_not_mem {ms : List (Int × Nat)} {id : Int} (h : id ∉ ms.map Prod.fst) :
    (ms.map fun m => if m.1 = id then m.2 else 0).sum = 0 := by
  apply List.sum_eq_zero
  intro n hn
  obtain ⟨m, hm, rfl⟩ := List.mem_map.mp hn
  apply if_neg
  rintro rfl
  exact h (List.mem_map_of_mem hm)

/-- The count kept for a material is how often the plan lists it. -/
theorem materials_eq_count {plan : CraftPlan} {m : Int × Nat} (h : m ∈ plan.materials) :
    m.2 = plan.craftItemDefId.count m.1 := by
  rw [← count_materials]
  have hsum (l : List (Int × Nat)) (hl : (l.map Prod.fst).Nodup) (hm : m ∈ l) :
      (l.map fun m' => if m'.1 = m.1 then m'.2 else 0).sum = m.2 := by
    induction l with
    | nil => cases hm
    | cons a rest ih =>
        obtain ⟨hnew, hrest⟩ := List.nodup_cons.mp hl
        rw [List.map_cons, List.sum_cons]
        obtain rfl | hm := List.mem_cons.mp hm
        · rw [if_pos rfl, sum_of_not_mem hnew, add_zero]
        · have hne : a.1 ≠ m.1 := fun heq => hnew (heq ▸ List.mem_map_of_mem hm)
          rw [if_neg hne, zero_add, ih hrest hm]
  exact (hsum _ (nodup_materials plan) h).symm

theorem checkMaterials_plan {plan : CraftPlan} :
    checkMaterials t inv plan.materials = none ↔ ∀ id ∈ plan.craftItemDefId,
      (t.items.getPointerByID id).isSome ∧
        (plan.craftItemDefId.count id : Int) ≤ inv.getItemCount t.items invContainer id := by
  rw [checkMaterials_eq_none]
  constructor
  · intro h id hid
    obtain ⟨m, hm, rfl⟩ := List.mem_map.mp (mem_materials.mpr hid)
    rw [← materials_eq_count hm]
    exact h m hm
  · intro h m hm
    rw [materials_eq_count hm]
    exact h m.1 (mem_materials.mp (List.mem_map_of_mem hm))

theorem checkPlan_ok {plan : CraftPlan} :
    checkPlan t inv q = .ok plan ↔ plan = t.plans q.ItemID ∧ Craftable t inv q := by
  constructor
  · intro h
    unfold checkPlan at h
    split at h
    · cases h
    · next hargs =>
        split at h
        · cases h
        · next hplan =>
            dsimp only at h
            split at h
            · cases h
            · next hresult =>
                split at h
                · cases h
                · next hkey =>
                    split at h
                    · cases h
                    · next hmaterials =>
                        split at h
                        · cases h
                        · next hspace =>
                            split at h
                            · cases h
                            · next hcrafter =>
                                cases h
                                refine ⟨rfl, not_lt.mp hargs, ?_, ?_, not_lt.mp hkey,
                                  checkMaterials_plan.mp hmaterials, ?_, hcrafter⟩
                                · rw [hplan]
                                  rfl
                                · rw [hresult]
                                  rfl
                                · rw [hspace]
                                  rfl
  · rintro ⟨rfl, h⟩
    obtain ⟨d, hd⟩ := Option.isSome_iff_exists.mp h.plan
    obtain ⟨d', hd'⟩ := Option.isSome_iff_exists.mp h.result
    obtain ⟨n, hn⟩ := Option.isSome_iff_exists.mp h.space
    unfold checkPlan
    rw [if_neg (not_lt.mpr h.arguments), hd]
    dsimp only
    rw [hd']
    dsimp only
    rw [if_neg (not_lt.mpr h.component), checkMaterials_plan.mpr h.materials]
    dsimp only
    rw [hn]
    dsimp only
    rw [h.crafter]

/-! ### The removals as operations on the backpack -/

theorem containerList_takeMaterials (ms : List (Int × Nat))
    (h : Placed invContainer (inv.containerList invContainer)) :
    (ms.foldl (fun inv m => inv.removeItemsAndUpdate t.items now invContainer m.1 m.2)
        inv).containerList invContainer =
      ms.foldl (fun l m => takeItems t.items m.1 l m.2) (inv.containerList invContainer) := by
  induction ms generalizing inv with
  | nil => rfl
  | cons m rest ih =>
      have hone : (inv.removeItemsAndUpdate t.items now invContainer m.1 m.2).containerList
          invContainer = takeItems t.items m.1 (inv.containerList invContainer) m.2 := by
        rw [containerList_removeItemsAndUpdate h, Function.update_self]
      rw [List.foldl_cons, List.foldl_cons, ih, hone]
      rw [hone]
      exact h.takeItems _ _

theorem Placed.takeMaterials {l : List InventorySlot} (ms : List (Int × Nat))
    (h : Placed invContainer l) :
    Placed invContainer (ms.foldl (fun l m => takeItems t.items m.1 l m.2) l) := by
  induction ms generalizing l with
  | nil => exact h
  | cons m rest ih => exact ih (h.takeItems m.1 m.2)

theorem containerList_dropItem (h : Placed invContainer (inv.containerList invContainer))
    (itemID : Int) : (dropItem t inv itemID).containerList invContainer =
      dropStacks t.items itemID (inv.containerList invContainer) 1 := by
  have hin : ∀ ccsid ∈ removed (scanRemoveItems t.items itemID (inv.containerList invContainer)
      0 1), ccsid / 65536 = invContainer := by
    intro ccsid hmem
    obtain ⟨iq, hiq, rfl⟩ := List.mem_map.mp hmem
    obtain ⟨item, hitem, heq⟩ := List.mem_map.mp (ccsid_mem_of_scan (List.mem_of_mem_filter hiq))
    rw [← heq]
    exact h.inContainer item hitem
  rw [dropItem, removeItems, containerList_foldl_remItem h _ hin, Function.update_self,
    filter_removed itemID h.distinct]

/-- What is left of the backpack. -/
theorem containerList_consume (h : Placed invContainer (inv.containerList invContainer))
    (plan : CraftPlan) :
    (consume t now inv q plan).containerList invContainer =
      dropStacks t.items q.ItemID (dropStacks t.items plan.keyComponentId
        (plan.materials.foldl (fun l m => takeItems t.items m.1 l m.2)
          (inv.containerList invContainer)) 1) 1 := by
  have htaken : Placed invContainer ((plan.materials.foldl
      (fun inv m => inv.removeItemsAndUpdate t.items now invContainer m.1 m.2)
        inv).containerList invContainer) := by
    rw [containerList_takeMaterials _ h]
    exact Placed.takeMaterials _ h
  have hdropped := containerList_dropItem (t := t) htaken plan.keyComponentId
  have hplaced : Placed invContainer ((dropItem t (plan.materials.foldl
      (fun inv m => inv.removeItemsAndUpdate t.items now invContainer m.1 m.2) inv)
        plan.keyComponentId).containerList invContainer) := by
    rw [hdropped]
    exact htaken.sublist (sublist_dropStacks _ _ _)
  rw [consume, containerList_dropItem hplaced, hdropped, containerList_takeMaterials _ h]

/-- Taking the materials takes each as often as it is counted. -/
theorem held_takeMaterials {ms : List (Int × Nat)} {l : List InventorySlot}
    (hms : (ms.map Prod.fst).Nodup) (h : ∀ m ∈ ms, (m.2 : Int) ≤ held t.items m.1 l) (id : Int) :
    held t.items id (ms.foldl (fun l m => takeItems t.items m.1 l m.2) l) =
      held t.items id l - (ms.map fun m => if m.1 = id then m.2 else 0).sum := by
  induction ms generalizing l with
  | nil => simp
  | cons m rest ih =>
      obtain ⟨hnew, hrest⟩ := List.nodup_cons.mp hms
      obtain ⟨hhead, hlater⟩ := List.forall_mem_cons.mp h
      have hself := held_takeItems_self m.1 l (Int.natCast_nonneg m.2) hhead
      rw [List.foldl_cons, ih hrest, List.map_cons, List.sum_cons]
      · by_cases hid : m.1 = id
        · rw [if_pos hid, ← hid, hself]
          push_cast
          ring
        · rw [if_neg hid, held_takeItems_other fun h' => hid h'.symm, zero_add]
      · intro m' hm'
        have hne : m'.1 ≠ m.1 := fun heq => hnew (heq ▸ List.mem_map_of_mem hm')
        rw [held_takeItems_other hne]
        exact hlater m' hm'

/-- Where the number of an item ends a stack after the materials are gone. -/
theorem endsStack_takeMaterials {ms : List (Int × Nat)} {l : List InventorySlot}
    (hms : (ms.map Prod.fst).Nodup) (id : Int) {k : Int} (hk : 1 ≤ k) :
    EndsStack t.items id (ms.foldl (fun l m => takeItems t.items m.1 l m.2) l) k ↔
      EndsStack t.items id l ((ms.map fun m => if m.1 = id then m.2 else 0).sum + k) := by
  induction ms generalizing l with
  | nil => simp
  | cons m rest ih =>
      obtain ⟨hnew, hrest⟩ := List.nodup_cons.mp hms
      rw [List.foldl_cons, ih hrest, List.map_cons, List.sum_cons]
      by_cases hid : m.1 = id
      · rw [hid] at hnew
        rw [if_pos hid, sum_of_not_mem hnew, hid, add_zero, Nat.cast_zero, zero_add,
          endsStack_takeItems l (Int.natCast_nonneg m.2) hk]
      · rw [if_neg hid, zero_add, endsStack_takeItems_other fun h' => hid h'.symm]

/-! ### What is removed -/

/-- How many of an item a plan asks for, once for each of its roles. -/
def CraftTables.needed (t : CraftTables) (ItemID id : Int) : Int :=
  (if id = ItemID then 1 else 0) + (if id = (t.plans ItemID).keyComponentId then 1 else 0) +
    (t.plans ItemID).craftItemDefId.count id

/-- The item ID of the kit when one is used that is used up. -/
def kitUsed (t : CraftTables) (inv : InventoryManager) (q : CraftQuery) : Option Int :=
  if q.CreatureID = q.ownCreatureID then
    (findKit t inv).bind fun kit => if unstack t kit then some kit.1.iid else none
  else none

/-- The use of a kit as a quantity of an item. -/
def kitUse (t : CraftTables) (inv : InventoryManager) (q : CraftQuery) (id : Int) : Int :=
  if kitUsed t inv q = some id then 1 else 0

/-- In a backpack, the key component that is removed behind the materials is a stack of its own,
and so is the plan. -/
structure TakenWhole (t : CraftTables) (ItemID : Int) (l : List InventorySlot) : Prop where
  component : EndsStack t.items (t.plans ItemID).keyComponentId l
    ((t.plans ItemID).craftItemDefId.count (t.plans ItemID).keyComponentId + 1)
  plan : EndsStack t.items ItemID l ((t.plans ItemID).craftItemDefId.count ItemID + 1 +
    if ItemID = (t.plans ItemID).keyComponentId then 1 else 0)

/-- What is left of a list of slots when a plan has used up its part. -/
def spent (t : CraftTables) (ItemID : Int) (l : List InventorySlot) : List InventorySlot :=
  dropStacks t.items ItemID (dropStacks t.items (t.plans ItemID).keyComponentId
    ((t.plans ItemID).materials.foldl (fun l m => takeItems t.items m.1 l m.2) l) 1) 1

theorem takenWhole_iff {ItemID : Int} {l : List InventorySlot} :
    TakenWhole t ItemID l ↔
      EndsStack t.items (t.plans ItemID).keyComponentId
          ((t.plans ItemID).materials.foldl (fun l m => takeItems t.items m.1 l m.2) l) 1 ∧
        EndsStack t.items ItemID (dropStacks t.items (t.plans ItemID).keyComponentId
          ((t.plans ItemID).materials.foldl (fun l m => takeItems t.items m.1 l m.2) l) 1) 1 := by
  have htaken (id : Int) {k : Int} (hk : 1 ≤ k) :
      EndsStack t.items id ((t.plans ItemID).materials.foldl
          (fun l m => takeItems t.items m.1 l m.2) l) k ↔
        EndsStack t.items id l ((t.plans ItemID).craftItemDefId.count id + k) := by
    rw [endsStack_takeMaterials (nodup_materials _) id hk, count_materials]
  generalize (t.plans ItemID).materials.foldl (fun l m => takeItems t.items m.1 l m.2) l = taken
    at htaken
  have hplan (hcomponent : EndsStack t.items (t.plans ItemID).keyComponentId taken 1) :
      EndsStack t.items ItemID (dropStacks t.items (t.plans ItemID).keyComponentId taken 1) 1 ↔
        EndsStack t.items ItemID l ((t.plans ItemID).craftItemDefId.count ItemID + 1 +
          if ItemID = (t.plans ItemID).keyComponentId then 1 else 0) := by
    by_cases hkey : ItemID = (t.plans ItemID).keyComponentId
    · rw [dropStacks_eq_takeItems hcomponent, if_pos hkey, ← hkey,
        endsStack_takeItems taken zero_le_one le_rfl, htaken _ (by norm_num), add_assoc]
    · rw [endsStack_dropStacks_other hkey, htaken _ le_rfl, if_neg hkey, add_zero]
  constructor
  · intro h
    have hcomponent := (htaken _ le_rfl).mpr h.component
    exact ⟨hcomponent, (hplan hcomponent).mpr h.plan⟩
  · rintro ⟨hcomponent, hlast⟩
    exact ⟨(htaken _ le_rfl).mp hcomponent, (hplan hcomponent).mp hlast⟩

/-- A removal by whole stacks keeps some of what it should remove, and nothing exactly when the one
item ends a stack. -/
theorem exists_kept (im : ItemManager) (itemID : Int) (l : List InventorySlot) :
    ∃ kept : Int, 0 ≤ kept ∧ (kept = 0 ↔ EndsStack im itemID l 1) ∧
      ∀ id, held im id (dropStacks im itemID l 1) =
        held im id l - if id = itemID then 1 - kept else 0 := by
  obtain ⟨hle, hwhole⟩ : held im itemID l - 1 ≤ held im itemID (dropStacks im itemID l 1) ∧
      (held im itemID (dropStacks im itemID l 1) = held im itemID l - 1 ↔
        EndsStack im itemID l 1) := held_dropStacks itemID l zero_le_one
  refine ⟨held im itemID (dropStacks im itemID l 1) - (held im itemID l - 1), by omega, ?_, ?_⟩
  · rw [← hwhole, sub_eq_zero]
  · intro id
    by_cases hid : id = itemID
    · rw [if_pos hid, hid]
      omega
    · rw [if_neg hid, held_dropStacks_other hid, sub_zero]

/-- The quantities come out right exactly when only whole stacks are removed and no kit was due. -/
theorem held_spent_iff {ItemID : Int} {l : List InventorySlot} {use : Option Int}
    (h : ∀ id ∈ (t.plans ItemID).craftItemDefId,
      ((t.plans ItemID).craftItemDefId.count id : Int) ≤ held t.items id l) :
    (∀ id, held t.items id (spent t ItemID l) =
        held t.items id l - t.needed ItemID id - if use = some id then 1 else 0) ↔
      use = none ∧ TakenWhole t ItemID l := by
  have htaken (id : Int) : held t.items id ((t.plans ItemID).materials.foldl
      (fun l m => takeItems t.items m.1 l m.2) l) =
        held t.items id l - (t.plans ItemID).craftItemDefId.count id := by
    rw [held_takeMaterials (nodup_materials _) ?_ id, count_materials]
    intro m hm
    rw [materials_eq_count hm]
    exact h m.1 (mem_materials.mp (List.mem_map_of_mem hm))
  rw [takenWhole_iff]
  unfold spent CraftTables.needed
  generalize (t.plans ItemID).materials.foldl (fun l m => takeItems t.items m.1 l m.2) l = taken
    at htaken ⊢
  obtain ⟨kept, hkept, hcomponent, hdropped⟩ :=
    exists_kept t.items (t.plans ItemID).keyComponentId taken
  obtain ⟨kept', hkept', hplan, hleft⟩ := exists_kept t.items ItemID
    (dropStacks t.items (t.plans ItemID).keyComponentId taken 1)
  rw [← hcomponent, ← hplan]
  constructor
  · intro hall
    have hsum (id : Int) : (if id = (t.plans ItemID).keyComponentId then kept else 0) +
        (if id = ItemID then kept' else 0) + (if use = some id then 1 else 0) = 0 := by
      have hid := hall id
      rw [hleft, hdropped, htaken] at hid
      split_ifs at hid ⊢ <;> omega
    refine ⟨?_, ?_, ?_⟩
    · cases huse : use with
      | none => rfl
      | some id =>
          have hid := hsum id
          rw [if_pos huse] at hid
          split_ifs at hid <;> omega
    · have hid := hsum (t.plans ItemID).keyComponentId
      rw [if_pos rfl] at hid
      split_ifs at hid <;> omega
    · have hid := hsum ItemID
      rw [if_pos rfl] at hid
      split_ifs at hid <;> omega
  · rintro ⟨rfl, rfl, rfl⟩ id
    rw [hleft, hdropped, htaken]
    simp only [reduceCtorEq, if_false, sub_zero]
    split_ifs <;> omega

/-! ### The query -/

/-- Everything a plan needs was in the backpack, and it was exchanged for one result. -/
structure Exchanged (t : CraftTables) (inv : InventoryManager) (q : CraftQuery)
    (inv' : InventoryManager) : Prop where
  present : ∀ id, 0 < t.needed q.ItemID id →
    t.needed q.ItemID id ≤ inv.getItemCount t.items invContainer id
  exchanged : ∀ id, inv'.getItemCount t.items invContainer id =
    inv.getItemCount t.items invContainer id - t.needed q.ItemID id - kitUse t inv q id +
      if id = (t.plans q.ItemID).resultItemId then 1 else 0

/-- A query that succeeds exchanges the goods, and one that does not changes no container. -/
def ConservesGoods (t : CraftTables) (inv : InventoryManager) (q : CraftQuery)
    (r : InventoryManager × Response) : Prop :=
  (r.2 = .ok → Exchanged t inv q r.1) ∧ (r.2 ≠ .ok → r.1.containerList = inv.containerList)

/-- The backpack with the result in it. -/
def withResult (t : CraftTables) (now : Nat) (inv : InventoryManager) (q : CraftQuery) :
    Option Nat × InventoryManager :=
  inv.addItemEx t.items now invContainer (t.plans q.ItemID).resultItemId 1

theorem lotSize_one (im : ItemManager) (itemID : Int) : lotSize im itemID 1 = 1 := by
  unfold lotSize
  split
  · exact ite_self 1
  · rfl

theorem craftCreate_of_craftable (h : Craftable t inv q) {i : Nat}
    (hadd : withResult t now inv q = (some i, inv')) :
    craftCreate t now inv q = (consume t now inv' q (t.plans q.ItemID), .ok) := by
  rw [craftCreate, checkPlan_ok.mpr ⟨rfl, h⟩]
  unfold withResult at hadd
  dsimp only
  rw [hadd]

/-- Where the plan is crafted, the goods are conserved exactly when everything was there and the
quantities come out right. -/
theorem exchanged_iff (b : Backpack) (h : Craftable t b.inv q) {i : Nat}
    (hadd : withResult t now b.inv q = (some i, inv')) :
    Exchanged t b.inv q (consume t now inv' q (t.plans q.ItemID)) ↔
      (∀ id, 0 < t.needed q.ItemID id →
          t.needed q.ItemID id ≤ b.inv.getItemCount t.items invContainer id) ∧
        kitUsed t b.inv q = none ∧ TakenWhole t q.ItemID (inv'.containerList invContainer) := by
  have hplaced := b.placed.addItemEx b.slots hadd
  have hresult (id : Int) : held t.items id (inv'.containerList invContainer) =
      held t.items id (b.inv.containerList invContainer) +
        if (t.plans q.ItemID).resultItemId = id then 1 else 0 := by
    have hadded := held_addItemEx (lotSize_one t.items _).ge hadd id
    rwa [lotSize_one] at hadded
  have hmaterials : ∀ id ∈ (t.plans q.ItemID).craftItemDefId,
      ((t.plans q.ItemID).craftItemDefId.count id : Int) ≤
        held t.items id (inv'.containerList invContainer) := by
    intro id hid
    have hcount := (h.materials id hid).2
    rw [getItemCount_eq_held] at hcount
    rw [hresult]
    split <;> omega
  have hleft (id : Int) : (consume t now inv' q (t.plans q.ItemID)).getItemCount t.items
      invContainer id = held t.items id (spent t q.ItemID (inv'.containerList invContainer)) := by
    rw [getItemCount_eq_held, containerList_consume hplaced]
    rfl
  rw [← held_spent_iff hmaterials]
  constructor
  · rintro ⟨hpresent, hall⟩
    refine ⟨hpresent, fun id => ?_⟩
    have hid := hall id
    rw [hleft, getItemCount_eq_held, kitUse] at hid
    rw [hid, hresult]
    simp only [eq_comm (a := id)]
    omega
  · rintro ⟨hpresent, hall⟩
    refine ⟨hpresent, fun id => ?_⟩
    rw [hleft, hall id, hresult, getItemCount_eq_held, kitUse]
    simp only [eq_comm (a := id)]
    omega

/-- Crafting from a plan conserves the goods exactly when it is refused, or when the backpack has
everything once for each role, no kit was used that should be used up, and the single key component
and the single plan stand alone behind the materials. -/
theorem craftCreate_conserves_iff (t : CraftTables) (now : Nat) (b : Backpack) (q : CraftQuery) :
    ConservesGoods t b.inv q (craftCreate t now b.inv q) ↔
      ∀ i inv', Craftable t b.inv q → withResult t now b.inv q = (some i, inv') →
        (∀ id, 0 < t.needed q.ItemID id →
            t.needed q.ItemID id ≤ b.inv.getItemCount t.items invContainer id) ∧
          kitUsed t b.inv q = none ∧
            TakenWhole t q.ItemID (inv'.containerList invContainer) := by
  constructor
  · rintro ⟨hok, -⟩ i inv' hcraft hadd
    rw [craftCreate_of_craftable hcraft hadd] at hok
    exact (exchanged_iff b hcraft hadd).mp (hok rfl)
  · intro h
    cases hcheck : checkPlan t b.inv q with
    | error error =>
        rw [craftCreate, hcheck]
        refine ⟨fun hok => ?_, fun _ => rfl⟩
        cases hok
    | ok plan =>
        obtain ⟨rfl, hcraft⟩ := checkPlan_ok.mp hcheck
        cases hadd : withResult t now b.inv q with
        | mk i inv' =>
            cases i with
            | none =>
                obtain ⟨e, rfl⟩ := addItemEx_none hadd
                unfold withResult at hadd
                rw [craftCreate, hcheck]
                dsimp only
                rw [hadd]
                refine ⟨fun hok => ?_, fun _ => rfl⟩
                cases hok
            | some i =>
                rw [craftCreate_of_craftable hcraft hadd]
                refine ⟨fun _ => (exchanged_iff b hcraft hadd).mpr (h i inv' hcraft hadd), ?_⟩
                intro hrefused
                exact absurd rfl hrefused

/-! A stack of two key components. -/

def ringTables : CraftTables where
  items := .ofList [{ mID := 1 }, { mID := 2, mIvType1 := .stacking, mIvMax1 := 10 }, { mID := 3 }]
  plans _ := { resultItemId := 3, keyComponentId := 2 }

def gemBackpack : Backpack where
  inv := { InventoryManager.setContainer {} invContainer
      [{ ccsid := getCCSID invContainer 0, iid := 1 },
        { ccsid := getCCSID invContainer 1, iid := 2, count := 1 }] with
    maxContainerSlot := fun _ => 24 }
  placed := by
    constructor
    · decide
    · unfold NodupKeys
      decide
  slots := by decide

def craftRing : CraftQuery where
  ItemID := 1
  CreatureID := 7

theorem gemBackpack_keeps_component :
    ¬ConservesGoods ringTables gemBackpack.inv craftRing
      (craftCreate ringTables 0 gemBackpack.inv craftRing) := by
  intro h
  have hok : (craftCreate ringTables 0 gemBackpack.inv craftRing).2 = .ok := by decide
  have hgems := (h.1 hok).exchanged 2
  have hkept : (craftCreate ringTables 0 gemBackpack.inv craftRing).1.getItemCount ringTables.items
      invContainer 2 ≠ gemBackpack.inv.getItemCount ringTables.items invContainer 2 -
        ringTables.needed craftRing.ItemID 2 - kitUse ringTables gemBackpack.inv craftRing 2 +
          if 2 = (ringTables.plans craftRing.ItemID).resultItemId then 1 else 0 := by decide
  exact hkept hgems

end Iceee.Crafting
