import Iceee.Inventory.Accounting
import Iceee.Lib.Draw
import Iceee.Loot.Container

/-!
# What a player drops when he is killed by players

`ProcessDeath` takes a random number of times a random part of a random unbound stack. The part
goes into a loot container one by one until the container has sixteen entries, but it is taken
from the backpack as a whole.

## Main results

* `processDeath_eq`: the container and the backpack after the rounds, from what they drew.
* `processDeath_conserves_iff`: when the container holds what the backpack lost.

## Implementation notes

The loot creature is spawned under a given ID. Between bounds in the wrong order
`RandInt` is undefined; here it may answer anything.
-/

namespace Iceee.PVP.Loot

open Lib InventoryManager

/-- `RandModRng`: the upper bound is excluded. -/
def randModRng (numbers : RandomNumbers) (min max : Int) : StateM Nat Int := fun k =>
  if min = max then (min, k) else (numbers.answer k min (max - 1), k + 1)

/-- `CountUsedSlots`. -/
def countUsedSlots (inv : InventoryManager) (c : ContainerID) : Nat :=
  ((List.range (inv.maxContainerSlot c)).filter fun a =>
    (inv.containerList c).any fun item => item.getSlot == a).length

/-- The list `PickRandomItem` picks from. -/
def tempCon (inv : InventoryManager) (c : ContainerID) : List InventorySlot :=
  ((inv.containerList c).take (inv.maxContainerSlot c)).filter fun item =>
    decide (item.getSlot < inv.maxContainerSlot c) && item.bindStatus == 0

/-- `PickRandomItem`. -/
def pickRandomItem (numbers : RandomNumbers) (inv : InventoryManager) (c : ContainerID) :
    StateM Nat (Option InventorySlot) := do
  if (tempCon inv c).length = 0 then return none
  let i ← randModRng numbers 0 (tempCon inv c).length
  return (tempCon inv c)[i.toNat]?

/-- The settings, which are unsigned. -/
structure GameConfig where
  minPVPPlayerLootItems : Nat := 0
  maxPVPPlayerLootItems : Nat := 3

structure Attacker where
  creatureDefID : Int
  /-- `ServerFlags::IsPlayer`. -/
  isPlayer : Bool
  /-- `Mode == PVP::GameMode::PVP`. -/
  pvp : Bool

/-- A dead creature and where it died. -/
structure Death where
  creatureDefID : Int
  isPlayer : Bool
  pvp : Bool
  mGrove : Bool
  mArena : Bool
  attackerList : List Attacker

/-- `npcInvolved` and `pvpAttackers`: the loop over the attackers ends at one who is no player. -/
def pvpAttackers : List Attacker → Bool × List Attacker
  | [] => (false, [])
  | attacker :: rest =>
      if attacker.isPlayer then
        let (npcInvolved, found) := pvpAttackers rest
        (npcInvolved, if attacker.pvp then attacker :: found else found)
      else (true, [])

/-- The death is one for which loot is dropped. -/
def Death.drops (death : Death) : Bool :=
  let (npcInvolved, found) := pvpAttackers death.attackerList
  !death.mGrove && death.isPlayer && death.pvp && !death.mArena && !npcInvolved && !found.isEmpty

/-- One round up to the removal: the item and `toLoot`, or `none` where the loop ends. -/
def drawItem (numbers : RandomNumbers) (inv : InventoryManager) :
    StateM Nat (Option (Int × Int)) := do
  if countUsedSlots inv invContainer = 0 then return none
  match ← pickRandomItem numbers inv invContainer with
  | none => return none
  | some slot =>
      if slot.count > 1 then
        let toLoot ← randModRng numbers 0 slot.count
        return some (slot.iid, toLoot)
      else return some (slot.iid, 1)

/-- The inner loop: one by one, as long as there are fewer than sixteen entries. -/
def addItems (itemID : Int) : Nat → ActiveLootContainer → ActiveLootContainer
  | 0, loot => loot
  | n + 1, loot =>
      if loot.itemList.length < 16 then addItems itemID n (loot.addItem itemID) else loot

/-- The number of rounds. -/
def items (numbers : RandomNumbers) (config : GameConfig) : StateM Nat Int :=
  randModRng numbers (Int.bmod config.minPVPPlayerLootItems (2 ^ 32))
    (Int.bmod (config.maxPVPPlayerLootItems + 1) (2 ^ 32))

/-- The containers of the instance by creature. -/
abbrev LootSys := Int → Option ActiveLootContainer

/-- `AttachLootToCreature`, and 0 where there is nothing to attach. -/
def attachLootToCreature (lootsys : LootSys) (loot : ActiveLootContainer) (creatureID : Int) :
    LootSys × Int :=
  if loot.itemList.length = 0 then (lootsys, 0)
  else
    (Function.update lootsys creatureID
      (some (((lootsys creatureID).getD {}).copyLootContents loot)), creatureID)

/-- `AddLootableID` of the loot creature. -/
def addLootableID (activeLootID : Int) (lootsys : LootSys) (newLootableID : Int) : LootSys :=
  if activeLootID = 0 then lootsys
  else
    Function.update lootsys activeLootID
      (some (((lootsys activeLootID).getD {}).addLootableID newLootableID))

/-- The victim's inventory, the containers, and the loot creature if there is one. -/
structure Outcome where
  inventory : InventoryManager
  lootsys : LootSys
  lootInst : Option Int := none

section ProcessDeath

variable (im : ItemManager) (now : Nat) (numbers : RandomNumbers)

/-- A round takes what it drew from the backpack. -/
def remove (inv : InventoryManager) (drawn : Int × Int) : InventoryManager :=
  inv.removeItemsAndUpdate im now invContainer drawn.1 drawn.2

/-- The rounds. -/
def dropItems : Nat → ActiveLootContainer → InventoryManager →
    StateM Nat (ActiveLootContainer × InventoryManager)
  | 0, loot, inv => return (loot, inv)
  | n + 1, loot, inv => do
      match ← drawItem numbers inv with
      | none => return (loot, inv)
      | some drawn =>
          dropItems n (addItems drawn.1 drawn.2.toNat loot) (remove im now inv drawn)

/-- The loot creature `lootID` gets the loot, and the victim and the attackers may take it. -/
def attach (death : Death) (lootID : Int) (loot : ActiveLootContainer) (lootsys : LootSys) :
    LootSys :=
  let (lootsys, activeLootID) :=
    attachLootToCreature lootsys { loot with creatureID := lootID } lootID
  let lootsys := addLootableID activeLootID lootsys death.creatureDefID
  (pvpAttackers death.attackerList).2.foldl
    (fun lootsys attacker => addLootableID activeLootID lootsys attacker.creatureDefID) lootsys

/-- `ProcessDeath`, its part for what the victim drops. -/
def processDeath (config : GameConfig) (death : Death) (lootID : Int) (inv : InventoryManager)
    (lootsys : LootSys) : StateM Nat Outcome := do
  if death.drops then
    let items ← items numbers config
    if items > 0 then
      let (loot, inv) ← dropItems im now numbers items.toNat {} inv
      if loot.itemList.length = 0 then return ⟨inv, lootsys, none⟩
      else return ⟨inv, attach death lootID loot lootsys, some lootID⟩
    else return ⟨inv, lootsys, none⟩
  else return ⟨inv, lootsys, none⟩

/-! ## What is drawn -/

/-- What the rounds draw. -/
def draws : Nat → InventoryManager → StateM Nat (List (Int × Int))
  | 0, _ => return []
  | n + 1, inv => do
      match ← drawItem numbers inv with
      | none => return []
      | some drawn => return drawn :: (← draws n (remove im now inv drawn))

/-- What a death draws from the backpack. -/
def drawn (config : GameConfig) (death : Death) (inv : InventoryManager) :
    StateM Nat (List (Int × Int)) := do
  if death.drops then
    let items ← items numbers config
    if items > 0 then draws im now numbers items.toNat inv else return []
  else return []

/-- What was drawn, one by one. -/
def units (draws : List (Int × Int)) : List Int :=
  draws.flatMap fun drawn => List.replicate drawn.2.toNat drawn.1

theorem units_cons (d : Int × Int) (rest : List (Int × Int)) :
    units (d :: rest) = units [d] ++ units rest := by
  rw [units, List.flatMap_cons, units, List.flatMap_singleton, units]

/-- Everything drawn finds a place in one container: no more than sixteen, and only items whose
IDs `AddItem` takes. -/
def Fits (units : List Int) : Prop := units.length ≤ 16 ∧ ∀ itemID ∈ units, 0 < itemID

instance (units : List Int) : Decidable (Fits units) := inferInstanceAs (Decidable (_ ∧ _))

/-- A backpack with well-formed stacks: entries of their own, none empty, and no count on an item
that does not stack. -/
structure WellStacked (l : List InventorySlot) : Prop where
  placed : Placed invContainer l
  filled : StacksFilled im l
  single : ∀ e ∈ l, ¬stacking im e.iid → e.count ≤ 1

/-- The container on the loot creature holds what the backpack lost of each item; without one
nothing is lost. -/
def Conserves (inv : InventoryManager) (out : Outcome) : Prop :=
  match out.lootInst with
  | none => out.inventory.containerList = inv.containerList
  | some lootID => ∃ loot, out.lootsys lootID = some loot ∧ ∀ itemID,
      inv.getItemCount im invContainer itemID -
        out.inventory.getItemCount im invContainer itemID = loot.itemList.count itemID

variable {im now numbers}

/-! ### The container -/

theorem take_append_take {l : List Int} (a b : List Int) {n : Nat} :
    ((l ++ a).take n ++ b).take n = (l ++ (a ++ b)).take n := by
  have hright : (l ++ a ++ b).take n = (l ++ a).take n ++ b.take (n - (l ++ a).length) :=
    List.take_append
  rw [← List.append_assoc, List.take_append, hright, List.take_take, min_self, List.length_take]
  congr 2
  omega

theorem itemList_addItems (itemID : Int) (n : Nat) (loot : ActiveLootContainer)
    (h : loot.itemList.length ≤ 16) : (addItems itemID n loot).itemList =
      (loot.itemList ++ (List.replicate n itemID).filter (0 < ·)).take 16 := by
  induction n generalizing loot with
  | zero =>
      rw [addItems, List.replicate_zero, List.filter_nil, List.append_nil,
        List.take_of_length_le h]
  | succ n ih =>
      rw [addItems]
      split
      · next hroom =>
          have hadd : (loot.addItem itemID).itemList =
              loot.itemList ++ [itemID].filter (0 < ·) := by
            rw [ActiveLootContainer.addItem, if_neg (by omega), List.filter_singleton]
            by_cases hid : 0 < itemID
            · simp [hid]
            · simp [hid]
          have hlength : (loot.addItem itemID).itemList.length ≤ 16 := by
            have hone : ([itemID].filter (0 < ·)).length ≤ 1 := List.length_filter_le _ _
            rw [hadd, List.length_append]
            omega
          rw [ih _ hlength, hadd, List.append_assoc, ← List.filter_append]
          rfl
      · next hfull =>
          rw [List.take_append_of_le_length (by omega), List.take_of_length_le h]

/-- The container after the rounds: what `AddItem` takes of all that was drawn, cut off at
sixteen. -/
theorem itemList_foldl (draws : List (Int × Int)) (loot : ActiveLootContainer)
    (h : loot.itemList.length ≤ 16) :
    (draws.foldl (fun loot drawn => addItems drawn.1 drawn.2.toNat loot) loot).itemList =
      (loot.itemList ++ (units draws).filter (0 < ·)).take 16 := by
  induction draws generalizing loot with
  | nil => rw [List.foldl_nil, units, List.flatMap_nil, List.filter_nil, List.append_nil,
      List.take_of_length_le h]
  | cons drawn rest ih =>
      have hadd := itemList_addItems drawn.1 drawn.2.toNat loot h
      have hlength : (addItems drawn.1 drawn.2.toNat loot).itemList.length ≤ 16 := by
        rw [hadd]
        exact List.length_take_le _ _
      rw [List.foldl_cons, ih _ hlength, hadd, take_append_take, ← List.filter_append]
      rfl

/-! ### The backpack -/

variable {inv : InventoryManager} {k k' : Nat}

theorem stateM_bind {α β : Type} (x : StateM Nat α) (f : α → StateM Nat β) :
    (x >>= f) k = f (x k).1 (x k).2 := rfl

theorem randModRng_bounds {max : Int} (h : 0 < max) :
    0 ≤ (randModRng numbers 0 max k).1 ∧ (randModRng numbers 0 max k).1 < max := by
  have hbounds := numbers.bounds k 0 (max - 1) (by omega)
  rw [randModRng, if_neg (by omega)]
  exact ⟨hbounds.1, by change numbers.answer k 0 (max - 1) < max; omega⟩

/-- What is picked lies in the container. -/
theorem pickRandomItem_mem {slot : InventorySlot}
    (h : pickRandomItem numbers inv invContainer k = (some slot, k')) :
    slot ∈ inv.containerList invContainer := by
  rw [pickRandomItem] at h
  split at h
  · cases h
  · have hslot := congrArg Prod.fst h
    change (tempCon inv invContainer)[_]? = some slot at hslot
    exact List.mem_of_mem_take (List.mem_of_mem_filter (List.mem_of_getElem? hslot))

/-- A container holds at least what one of its stacks holds. -/
theorem getStackCount_le {c : ContainerID} (hfilled : StacksFilled im (inv.containerList c))
    {slot : InventorySlot} (hslot : slot ∈ inv.containerList c) :
    slot.getStackCount im ≤ inv.getItemCount im c slot.iid := by
  have hquantity : slot.quantity im slot.iid = slot.getStackCount im := if_pos rfl
  have hnonneg : ∀ q ∈ (inv.containerList c).map (InventorySlot.quantity im slot.iid), 0 ≤ q := by
    intro q hq
    obtain ⟨e, he, rfl⟩ := List.mem_map.mp hq
    have hone := hfilled e he
    unfold InventorySlot.quantity
    split <;> omega
  calc
    slot.getStackCount im = slot.quantity im slot.iid := hquantity.symm
    _ ≤ held im slot.iid (inv.containerList c) :=
      List.single_le_sum hnonneg _ (List.mem_map_of_mem hslot)
    _ = inv.getItemCount im c slot.iid := (getItemCount_eq_held inv c slot.iid).symm

/-- A round draws no more of an item than one stack holds. -/
theorem drawItem_spec (hw : WellStacked im (inv.containerList invContainer)) {d : Int × Int}
    (h : drawItem numbers inv k = (some d, k')) :
    0 ≤ d.2 ∧ d.2 ≤ inv.getItemCount im invContainer d.1 := by
  rw [drawItem] at h
  split at h
  · cases h
  · rw [stateM_bind] at h
    generalize hpick : pickRandomItem numbers inv invContainer k = r at h
    obtain ⟨_ | slot, k₁⟩ := r
    · cases h
    · have hslot := pickRandomItem_mem hpick
      have hle := getStackCount_le hw.filled hslot
      have hone := hw.filled slot hslot
      by_cases hcount : slot.count > 1
      · have hst : stacking im slot.iid = true := by
          by_contra hst
          exact absurd (hw.single slot hslot hst) (by omega)
        have hbounds := @randModRng_bounds numbers k₁ slot.count (by omega)
        rw [getStackCount_eq, if_pos hst] at hle
        simp only [if_pos hcount] at h
        have hd := Option.some.inj (congrArg Prod.fst h)
        rw [← hd]
        refine ⟨hbounds.1, ?_⟩
        change (randModRng numbers 0 slot.count k₁).1 ≤ inv.getItemCount im invContainer slot.iid
        omega
      · simp only [if_neg hcount] at h
        have hd := Option.some.inj (congrArg Prod.fst h)
        rw [← hd]
        exact ⟨Int.one_nonneg, hone.trans hle⟩

theorem containerList_remove (hw : WellStacked im (inv.containerList invContainer))
    (d : Int × Int) : (remove im now inv d).containerList =
      Function.update inv.containerList invContainer
        (takeItems im d.1 (inv.containerList invContainer) d.2) :=
  containerList_removeItemsAndUpdate hw.placed d.1 d.2

theorem WellStacked.remove (hw : WellStacked im (inv.containerList invContainer)) (d : Int × Int) :
    WellStacked im ((remove im now inv d).containerList invContainer) := by
  rw [containerList_remove hw, Function.update_self]
  refine ⟨hw.placed.takeItems d.1 d.2, fun e he => (mem_takeItems he hw.filled).1, ?_⟩
  intro e he hst
  obtain ⟨old, hold, heq, hle⟩ := (mem_takeItems he hw.filled).2
  have hid : e.iid = old.iid := by rw [heq]
  exact hle.trans (hw.single old hold (hid ▸ hst))

/-- A round takes as many as it drew, of the item it drew. -/
theorem getItemCount_remove (hw : WellStacked im (inv.containerList invContainer))
    {d : Int × Int} (h0 : 0 ≤ d.2) (hd : d.2 ≤ inv.getItemCount im invContainer d.1)
    (itemID : Int) : (remove im now inv d).getItemCount im invContainer itemID =
      inv.getItemCount im invContainer itemID - (units [d]).count itemID := by
  have hunits : ((units [d]).count itemID : Int) = if d.1 = itemID then d.2 else 0 := by
    rw [units, List.flatMap_singleton, List.count_replicate]
    by_cases hid : d.1 = itemID
    · rw [if_pos hid, if_pos (beq_iff_eq.mpr hid), Int.toNat_of_nonneg h0]
    · rw [if_neg hid, if_neg (by simpa using hid), Int.ofNat_zero]
  have hlists := @containerList_remove im now inv hw d
  rw [getItemCount_eq_held, getItemCount_eq_held, hlists, Function.update_self, hunits]
  by_cases hid : d.1 = itemID
  · subst hid
    rw [getItemCount_eq_held] at hd
    rw [if_pos rfl, held_takeItems_self d.1 _ h0 hd]
  · rw [if_neg hid, held_takeItems_other (Ne.symm hid), sub_zero]

/-! ### The rounds -/

/-- The rounds put away what they draw, and take it from the backpack. -/
theorem dropItems_eq (n : Nat) (loot : ActiveLootContainer) (inv : InventoryManager) (k : Nat) :
    dropItems im now numbers n loot inv k =
      (((draws im now numbers n inv k).1.foldl
          (fun loot drawn => addItems drawn.1 drawn.2.toNat loot) loot,
        (draws im now numbers n inv k).1.foldl (remove im now) inv),
        (draws im now numbers n inv k).2) := by
  induction n generalizing loot inv k with
  | zero => rfl
  | succ n ih =>
      rw [dropItems, draws, stateM_bind, stateM_bind]
      generalize drawItem numbers inv k = r
      obtain ⟨_ | d, k₁⟩ := r
      · rfl
      · exact ih _ _ _

/-- What the rounds draw is missing from the backpack afterwards, and nothing else is. -/
theorem getItemCount_foldl (n : Nat) (hw : WellStacked im (inv.containerList invContainer))
    (k : Nat) (itemID : Int) :
    ((draws im now numbers n inv k).1.foldl (remove im now) inv).getItemCount im invContainer
        itemID =
      inv.getItemCount im invContainer itemID -
        (units (draws im now numbers n inv k).1).count itemID := by
  induction n generalizing inv k with
  | zero => exact (sub_zero _).symm
  | succ n ih =>
      rw [draws, stateM_bind]
      generalize hdraw : drawItem numbers inv k = r
      obtain ⟨_ | d, k₁⟩ := r
      · exact (sub_zero _).symm
      · obtain ⟨h0, hd⟩ := drawItem_spec hw hdraw
        have hrest := ih (@WellStacked.remove im now inv hw d) k₁
        have hone := @getItemCount_remove im now inv hw d h0 hd itemID
        have hcount : (units (d :: (draws im now numbers n (remove im now inv d) k₁).1)).count
            itemID = (units [d]).count itemID +
              (units (draws im now numbers n (remove im now inv d) k₁).1).count itemID := by
          rw [units_cons, List.count_append]
        change ((draws im now numbers n (remove im now inv d) k₁).1.foldl (remove im now)
          (remove im now inv d)).getItemCount im invContainer itemID =
            inv.getItemCount im invContainer itemID - ((units (d :: (draws im now numbers n
              (remove im now inv d) k₁).1)).count itemID : Nat)
        rw [hrest, hone, hcount]
        omega

theorem getItemCount_drawn {config : GameConfig} {death : Death}
    (hw : WellStacked im (inv.containerList invContainer)) (k : Nat) (itemID : Int) :
    ((drawn im now numbers config death inv k).1.foldl (remove im now) inv).getItemCount im
        invContainer itemID =
      inv.getItemCount im invContainer itemID -
        (units (drawn im now numbers config death inv k).1).count itemID := by
  rw [drawn]
  split
  · rw [stateM_bind]
    split
    · exact getItemCount_foldl _ hw _ itemID
    · exact (sub_zero _).symm
  · exact (sub_zero _).symm

/-- Rounds that draw nothing of a stack leave the backpack as it was. -/
theorem containerList_foldl (draws : List (Int × Int)) (hnil : units draws = [])
    (hw : WellStacked im (inv.containerList invContainer)) :
    (draws.foldl (remove im now) inv).containerList = inv.containerList := by
  induction draws generalizing inv with
  | nil => rfl
  | cons d rest ih =>
      rw [units_cons, List.append_eq_nil_iff] at hnil
      have hd : d.2 ≤ 0 := by
        have hreplicate : List.replicate d.2.toNat d.1 = [] := by
          rw [← hnil.1, units, List.flatMap_singleton]
        have hzero := (List.replicate_eq_nil_iff d.1).mp hreplicate
        omega
      have hsame : (remove im now inv d).containerList = inv.containerList := by
        rw [containerList_remove hw, takeItems_of_nonpos d.1 _ hd, Function.update_eq_self]
      rw [List.foldl_cons, ih hnil.2 (hsame ▸ hw), hsame]

/-! ### The outcome -/

/-- A list is one of its prefixes filtered only when there is nothing to cut off or to drop. -/
theorem take_filter_eq_iff (l : List Int) :
    (l.filter (0 < ·)).take 16 = l ↔ Fits l := by
  constructor
  · intro h
    have hlength : l.length ≤ 16 := by
      rw [← h]
      exact List.length_take_le _ _
    refine ⟨hlength, fun itemID hid => ?_⟩
    rw [← h] at hid
    have hkept : itemID ∈ l.filter (0 < ·) := List.mem_of_mem_take hid
    exact of_decide_eq_true (List.mem_filter.mp hkept).2
  · intro ⟨hlength, hpos⟩
    have hall : l.filter (0 < ·) = l :=
      List.filter_eq_self.mpr fun itemID hid => decide_eq_true (hpos itemID hid)
    rw [hall, List.take_of_length_le hlength]

/-- What the container holds is what was drawn, of each item, only when all of it fits. -/
theorem count_eq_iff (l : List Int) :
    (∀ itemID, l.count itemID = ((l.filter (0 < ·)).take 16).count itemID) ↔ Fits l := by
  rw [← take_filter_eq_iff]
  constructor
  · intro h
    have hsub : ((l.filter (0 < ·)).take 16).Sublist l :=
      (List.take_sublist 16 _).trans List.filter_sublist
    have hperm : l.Perm ((l.filter (0 < ·)).take 16) := List.perm_iff_count.mpr h
    exact hsub.eq_of_length hperm.length_eq.symm
  · intro h itemID
    rw [h]

theorem addLootableID_itemList (activeLootID : Int) (lootsys : LootSys) (newLootableID : Int)
    {lootID : Int} {loot : ActiveLootContainer} (h : lootsys lootID = some loot) :
    ∃ loot', addLootableID activeLootID lootsys newLootableID lootID = some loot' ∧
      loot'.itemList = loot.itemList := by
  rw [addLootableID]
  split
  · exact ⟨loot, h, rfl⟩
  · by_cases hid : lootID = activeLootID
    · subst hid
      rw [Function.update_self, h]
      exact ⟨_, rfl, ActiveLootContainer.addLootableID_itemList _ _⟩
    · rw [Function.update_of_ne hid]
      exact ⟨loot, h, rfl⟩

/-- The loot creature has a container with the entries that were dropped. -/
theorem attach_itemList (death : Death) (lootID : Int) (loot : ActiveLootContainer)
    (lootsys : LootSys) (h : loot.itemList.length ≠ 0) :
    ∃ loot', attach death lootID loot lootsys lootID = some loot' ∧
      loot'.itemList = loot.itemList := by
  have hfold (activeLootID : Int) (l : List Attacker) (lootsys : LootSys)
      {loot : ActiveLootContainer} (h : lootsys lootID = some loot) :
      ∃ loot', l.foldl (fun lootsys attacker =>
        addLootableID activeLootID lootsys attacker.creatureDefID) lootsys lootID = some loot' ∧
          loot'.itemList = loot.itemList := by
    induction l generalizing lootsys loot with
    | nil => exact ⟨loot, h, rfl⟩
    | cons attacker rest ih =>
        obtain ⟨loot₁, h₁, heq₁⟩ :=
          addLootableID_itemList activeLootID lootsys attacker.creatureDefID h
        obtain ⟨loot₂, h₂, heq₂⟩ := ih _ h₁
        exact ⟨loot₂, h₂, heq₂.trans heq₁⟩
  have hattach : (attachLootToCreature lootsys { loot with creatureID := lootID } lootID).1
      lootID = some (((lootsys lootID).getD {}).copyLootContents
        { loot with creatureID := lootID }) := by
    rw [attachLootToCreature, if_neg h]
    exact Function.update_self _ _ _
  obtain ⟨loot₁, h₁, heq₁⟩ := addLootableID_itemList
    (attachLootToCreature lootsys { loot with creatureID := lootID } lootID).2 _
    death.creatureDefID hattach
  obtain ⟨loot₂, h₂, heq₂⟩ := hfold
    (attachLootToCreature lootsys { loot with creatureID := lootID } lootID).2
    (pvpAttackers death.attackerList).2 _ h₁
  exact ⟨loot₂, h₂, heq₂.trans heq₁⟩

variable {config : GameConfig} {death : Death} {lootID : Int} {lootsys : LootSys}

/-- What a death does, from what it draws. -/
theorem processDeath_eq (inv : InventoryManager) (k : Nat) :
    (processDeath im now numbers config death lootID inv lootsys k).1 =
      let draws := (drawn im now numbers config death inv k).1
      let loot := draws.foldl (fun loot drawn => addItems drawn.1 drawn.2.toNat loot) {}
      let inv' := draws.foldl (remove im now) inv
      if loot.itemList.length = 0 then ⟨inv', lootsys, none⟩
      else ⟨inv', attach death lootID loot lootsys, some lootID⟩ := by
  rw [processDeath, drawn]
  split
  · rw [stateM_bind, stateM_bind]
    obtain ⟨rounds, k₁⟩ := items numbers config k
    split
    · rw [stateM_bind, dropItems_eq]
      dsimp only
      split
      · rfl
      · rfl
    · rfl
  · rfl

theorem processDeath_conserves_iff (hw : WellStacked im (inv.containerList invContainer)) :
    Conserves im inv (processDeath im now numbers config death lootID inv lootsys k).1 ↔
      Fits (units (drawn im now numbers config death inv k).1) := by
  have hcount := @getItemCount_drawn im now numbers inv config death hw k
  rw [processDeath_eq]
  generalize (drawn im now numbers config death inv k).1 = draws at hcount ⊢
  have hlist := itemList_foldl draws {} (Nat.zero_le 16)
  dsimp only
  generalize draws.foldl (fun loot drawn => addItems drawn.1 drawn.2.toNat loot) {} = loot
    at hlist ⊢
  change loot.itemList = ((units draws).filter (0 < ·)).take 16 at hlist
  by_cases hempty : loot.itemList.length = 0
  · rw [if_pos hempty]
    rw [List.length_eq_zero_iff.mp hempty] at hlist
    constructor
    · intro hsame
      change (draws.foldl (remove im now) inv).containerList = inv.containerList at hsame
      apply (count_eq_iff (units draws)).mp
      intro itemID
      have hnone := hcount itemID
      rw [getItemCount_eq_held, getItemCount_eq_held, hsame] at hnone
      rw [← hlist, List.count_nil]
      omega
    · intro hfits
      rw [(take_filter_eq_iff _).mpr hfits] at hlist
      exact containerList_foldl draws hlist.symm hw
  · rw [if_neg hempty, ← count_eq_iff, ← hlist]
    obtain ⟨loot', hloot, hitems⟩ := attach_itemList death lootID loot lootsys hempty
    constructor
    · intro ⟨loot'', hloot', hlost⟩ itemID
      obtain rfl : loot' = loot'' := Option.some.inj (hloot.symm.trans hloot')
      have hone := hlost itemID
      rw [hcount itemID, hitems] at hone
      omega
    · intro hall
      refine ⟨loot', hloot, fun itemID => ?_⟩
      have hone := hcount itemID
      rw [hone, hitems, ← hall itemID]
      omega

end ProcessDeath

/-! ## An archer's death -/

/-- A backpack with one stack of arrows, which keeps one less than it holds as its count. -/
def archer (count : Int) : InventoryManager where
  containerList := fun c => if c = invContainer then [{ iid := 5, count := count }] else []
  maxContainerSlot := fun _ => 24

/-- Arrows stack up to a hundred. -/
def arrows : ItemManager := .ofList [{ mID := 5, mIvType1 := .stacking, mIvMax1 := 100 }]

/-- Always the highest number. -/
def highest : RandomNumbers where
  answer _ _ max := max
  bounds _ _ _ h := ⟨h, le_refl _⟩

/-- One player kills another in the open. -/
def duel : Death where
  creatureDefID := 1
  isPlayer := true
  pvp := true
  mGrove := false
  mArena := false
  attackerList := [{ creatureDefID := 2, isPlayer := true, pvp := true }]

theorem archer_wellStacked {count : Int} (h : 0 ≤ count) :
    WellStacked arrows ((archer count).containerList invContainer) := by
  change WellStacked arrows [{ iid := 5, count := count }]
  have hst : stacking arrows 5 = true := by decide
  refine ⟨⟨?_, List.nodup_singleton _⟩, ?_, ?_⟩
  · intro e he
    obtain rfl := List.mem_singleton.mp he
    have hzero : 0 / 65536 = (invContainer : Nat) := by decide
    exact hzero
  · intro e he
    obtain rfl := List.mem_singleton.mp he
    rw [getStackCount_eq, if_pos hst]
    change 1 ≤ count + 1
    omega
  · intro e he hnot
    obtain rfl := List.mem_singleton.mp he
    exact absurd hst hnot

theorem processDeath_conserves_iff_ten : Conserves arrows (archer 10)
    (processDeath arrows 0 highest { maxPVPPlayerLootItems := 1 } duel 7 (archer 10)
      (fun _ => none) 0).1 ↔
    Fits (units (drawn arrows 0 highest { maxPVPPlayerLootItems := 1 } duel (archer 10) 0).1) :=
  processDeath_conserves_iff (archer_wellStacked (by decide))

/-- Of forty arrows thirty-eight leave the backpack, and sixteen of them can be looted. -/
theorem forty_arrows_lost : ¬∀ (im : ItemManager) (now : Nat) (numbers : RandomNumbers)
    (config : GameConfig) (death : Death) (lootID : Int) (inv : InventoryManager)
    (lootsys : LootSys) (k : Nat), WellStacked im (inv.containerList invContainer) →
      Conserves im inv (processDeath im now numbers config death lootID inv lootsys k).1 := by
  intro h
  have hconserves := h arrows 0 highest { maxPVPPlayerLootItems := 1 } duel 7 (archer 39)
    (fun _ => none) 0 (archer_wellStacked (by decide))
  have hinst : (processDeath arrows 0 highest { maxPVPPlayerLootItems := 1 } duel 7 (archer 39)
      (fun _ => none) 0).1.lootInst = some 7 := by decide
  have hleft : (processDeath arrows 0 highest { maxPVPPlayerLootItems := 1 } duel 7 (archer 39)
      (fun _ => none) 0).1.inventory.getItemCount arrows invContainer 5 = 2 := by decide
  have hfound : ((processDeath arrows 0 highest { maxPVPPlayerLootItems := 1 } duel 7 (archer 39)
      (fun _ => none) 0).1.lootsys 7).map (fun loot => loot.itemList.count 5) = some 16 := by
    decide
  rw [Conserves, hinst] at hconserves
  obtain ⟨loot, hloot, hlost⟩ := hconserves
  have hfive := hlost 5
  rw [hloot] at hfound
  have hsixteen : loot.itemList.count 5 = 16 := Option.some.inj hfound
  have hforty : (archer 39).getItemCount arrows invContainer 5 = 40 := by decide
  rw [hleft, hsixteen, hforty] at hfive
  exact absurd hfive (by decide)

end Iceee.PVP.Loot
