import Iceee.Inventory.Moves
import Iceee.Inventory.Removal

/-!
# Accounts of one container

What `AddItem_Ex` adds to a container, and what `RemoveItemsAndUpdate` takes out of it, against
the count that was asked for.

## Main statements

* `InventoryManager.addItemEx_exact_iff`: when `AddItem_Ex` accounts for exactly its count.
* `InventoryManager.removeItemsAndUpdate_exact`: `RemoveItemsAndUpdate` always does.
-/

namespace Iceee

open Lib CharacterState

variable {im : ItemManager} {now : Nat}

namespace InventoryManager

/-- Every stack of an inventory is within its bounds. -/
def StacksWithin (im : ItemManager) (inv : InventoryManager) : Prop :=
  ∀ c, ∀ e ∈ inv.containerList c, InventorySlot.Within im e

/-- How many of an item an ownership limit counts. -/
def owned (im : ItemManager) (inv : InventoryManager) (itemID : Int) : Int :=
  (ownedContainers.map fun c => inv.getItemCount im c itemID).sum

/-! ### Adding -/

/-- `inv'` is `inv` with `count` more of an item in one container. -/
structure AddsExactly (im : ItemManager) (inv inv' : InventoryManager) (c : ContainerID)
    (itemID count : Int) : Prop where
  added : inv'.getItemCount im c itemID = inv.getItemCount im c itemID + count
  others : (inv'.containerList c).filter (fun e => e.iid ≠ itemID) =
    (inv.containerList c).filter fun e => e.iid ≠ itemID
  elsewhere : ∀ c', c' ≠ c → inv'.containerList c' = inv.containerList c'
  within : inv'.StacksWithin im
  limited : ∀ d, im.getPointerByID itemID = some d → 0 < d.mOwnershipRestriction →
    inv'.owned im itemID ≤ d.mOwnershipRestriction

/-- `AddItem_Ex` accounts for its count: it is refused and leaves only a reason, or adds exactly
the count. -/
def Accounts (im : ItemManager) (now : Nat) (inv : InventoryManager) (c : ContainerID)
    (itemID count : Int) : Prop :=
  match inv.addItemEx im now c itemID count with
  | (none, inv') => ∃ e, inv' = inv.setError e
  | (some _, inv') => AddsExactly im inv inv' c itemID count

/-- What a count must be like if it is not refused: one for an item that does not stack, no more
than a stack holds where it opens one, no more than the ownership limit leaves. -/
structure Countable (im : ItemManager) (inv : InventoryManager) (c : ContainerID) (d : ItemDef)
    (count : Int) : Prop where
  single : d.mIvType1 ≠ .stacking → count = 1
  stack : d.mIvType1 = .stacking → inv.OpensSlot im c d count → count ≤ d.mIvMax1
  limit : 0 < d.mOwnershipRestriction → c ∈ ownedContainers →
    inv.owned im d.mID + count ≤ d.mOwnershipRestriction

/-- `AddItem_Ex` refuses a count for the ownership limit or for want of a slot. -/
def Refused (im : ItemManager) (inv : InventoryManager) (c : ContainerID) (d : ItemDef)
    (count : Int) : Prop :=
  inv.AtLimit im d ∨ inv.OpensSlot im c d count ∧ inv.getFreeSlot c = none

theorem sum_ownedContainers (c : ContainerID) (n : Int) :
    (ownedContainers.map fun c' => if c' = c then n else 0).sum =
      if c ∈ ownedContainers then n else 0 := by
  have hnodup : ownedContainers.Nodup := by decide
  rw [List.sum_map_ite_eq, List.map_const', List.sum_replicate, smul_zero, add_zero, sub_zero,
    hnodup.count]
  split
  · exact one_smul Nat n
  · exact zero_smul Nat n

variable {inv inv' : InventoryManager} {c : ContainerID} {itemID count : Int}

/-- An addition to one container counts against the limit if the container does. -/
theorem owned_of_added {n : Int}
    (helse : ∀ c', c' ≠ c → inv'.containerList c' = inv.containerList c')
    (hadd : inv'.getItemCount im c itemID = inv.getItemCount im c itemID + n) :
    inv'.owned im itemID = inv.owned im itemID + if c ∈ ownedContainers then n else 0 := by
  have hone (c' : ContainerID) : inv'.getItemCount im c' itemID =
      inv.getItemCount im c' itemID + if c' = c then n else 0 := by
    by_cases hc : c' = c
    · rw [hc, hadd, if_pos rfl]
    · rw [if_neg hc, add_zero, getItemCount, getItemCount, helse c' hc]
  unfold owned
  rw [← sum_ownedContainers c n, ← List.sum_map_add]
  simp only [hone]

theorem addItemEx_refused {d : ItemDef} (hd : im.getPointerByID itemID = some d)
    (h : Refused im inv c d count) : (inv.addItemEx im now c itemID count).1 = none := by
  obtain hlimit | ⟨hopen, hfree⟩ := h
  · rw [AtLimit] at hlimit
    simp only [addItemEx, hd, if_pos hlimit]
  · rw [addItemEx_of_opensSlot hd hopen, addNewItem, hfree]

theorem addItemEx_not_refused {d : ItemDef} (hd : im.getPointerByID itemID = some d)
    (h : ¬Refused im inv c d count) :
    ∃ i inv', inv.addItemEx im now c itemID count = (some i, inv') := by
  have hlimit : ¬inv.AtLimit im d := fun hlimit => h (.inl hlimit)
  by_cases hopen : inv.OpensSlot im c d count
  · rw [addItemEx_of_opensSlot hd hopen, addNewItem]
    cases hfree : inv.getFreeSlot c with
    | none => exact absurd (.inr ⟨hopen, hfree⟩) h
    | some n => exact ⟨_, _, rfl⟩
  · obtain ⟨j, slot, -, -, -, -, -, hadd⟩ :=
      @addItemEx_of_stack im now inv c itemID count d hd hlimit hopen
    exact ⟨_, _, hadd⟩

/-- Changing entries that a filter drops changes nothing of what it keeps. -/
theorem filter_modify {p : InventorySlot → Bool} {l : List InventorySlot} {i : Nat}
    {f : InventorySlot → InventorySlot} (h : ∀ e ∈ l[i]?, p e = false ∧ p (f e) = false) :
    (l.modify i f).filter p = l.filter p := by
  induction l generalizing i with
  | nil => rw [List.modify_nil]
  | cons e l ih =>
      cases i with
      | zero =>
          obtain ⟨hold, hnew⟩ := h e rfl
          rw [List.modify_zero_cons, List.filter_cons_of_neg (by simp [hnew]),
            List.filter_cons_of_neg (by simp [hold])]
      | succ i =>
          have hrest := ih (i := i) h
          rw [List.modify_succ_cons, List.filter_cons, List.filter_cons, hrest]

section Added

variable {i : Nat} {d : ItemDef} (hd : im.getPointerByID itemID = some d)
  (hadd : inv.addItemEx im now c itemID count = (some i, inv'))
include hadd

theorem containerList_addItemEx_of_ne (c' : ContainerID) (hc : c' ≠ c) :
    inv'.containerList c' = inv.containerList c' := by
  obtain ⟨d', -, ⟨s, -, -, -, rfl⟩ | ⟨-, n, -, -, rfl⟩⟩ := addItemEx_cases hadd
  · exact setContainer_other _ _ hc
  · rw [containerList_addItem, Function.update_of_ne hc]

theorem filter_addItemEx : (inv'.containerList c).filter (fun e => e.iid ≠ itemID) =
    (inv.containerList c).filter fun e => e.iid ≠ itemID := by
  obtain ⟨d', -, ⟨s, hs, hid, -, rfl⟩ | ⟨-, n, -, -, rfl⟩⟩ := addItemEx_cases hadd
  · rw [modifySlot, setContainer_self]
    apply filter_modify
    intro e he
    obtain rfl : s = e := Option.some.inj (hs.symm.trans he)
    simp [hid]
  · have hiid : (newSlot now c n d' itemID count).iid = itemID :=
      (newSlot_spec c n d' itemID count).2.1
    rw [containerList_addItem, Function.update_self, List.filter_append]
    simp [hiid]

include hd

theorem getItemCount_addItemEx (hcount : 1 ≤ count) : inv'.getItemCount im c itemID =
    inv.getItemCount im c itemID + lotSize im itemID count := by
  have hlot : 1 ≤ lotSize im itemID count := by
    simp only [lotSize, hd]
    split
    · exact hcount
    · exact le_refl 1
  rw [getItemCount_eq_held, getItemCount_eq_held, held_addItemEx hlot hadd, if_pos rfl]

/-- The stack that opens has to hold all of the count. -/
theorem stacksWithin_addItemEx (hwithin : inv.StacksWithin im) (hcount : 1 ≤ count) :
    inv'.StacksWithin im ↔
      (d.mIvType1 = .stacking → inv.OpensSlot im c d count → count ≤ d.mIvMax1) := by
  by_cases hopen : inv.OpensSlot im c d count
  · rw [addItemEx_of_opensSlot hd hopen] at hadd
    obtain ⟨n, -, -, rfl⟩ := addNewItem_cases hadd
    obtain ⟨-, hiid, hnew⟩ := @newSlot_spec now c n d itemID count
    generalize newSlot now c n d itemID count = item at hiid hnew
    have hitem : InventorySlot.Within im item ↔ (d.mIvType1 = .stacking → count ≤ d.mIvMax1) := by
      simp only [InventorySlot.Within, stacking, InventorySlot.getStackCount,
        InventorySlot.getMaxStack, hiid, hnew, hd, Option.any_some, decide_eq_true_eq]
      refine forall_congr' fun hst => ?_
      simp only [hst, if_true]
      split <;> omega
    simp only [hopen, true_implies]
    rw [← hitem]
    constructor
    · intro h
      refine h c item ?_
      rw [containerList_addItem, Function.update_self]
      exact List.mem_append_right _ List.mem_cons_self
    · intro h c' e he
      rw [containerList_addItem] at he
      by_cases hc : c' = c
      · subst hc
        rw [Function.update_self, List.mem_append, List.mem_singleton] at he
        obtain he | rfl := he
        · exact hwithin c' e he
        · exact h
      · rw [Function.update_of_ne hc] at he
        exact hwithin c' e he
  · have hlimit : ¬inv.AtLimit im d := by
      intro hlimit
      have hnone := @addItemEx_refused im now inv c itemID count d hd (.inl hlimit)
      rw [hadd] at hnone
      cases hnone
    obtain ⟨j, slot, -, hslot, hid, hst, hle, hgrown⟩ :=
      @addItemEx_of_stack im now inv c itemID count d hd hlimit hopen
    cases hgrown.symm.trans hadd
    simp only [hopen, false_implies, implies_true, iff_true]
    intro c' e he
    by_cases hc : c' = c
    · subst hc
      rw [modifySlot, setContainer_self] at he
      obtain he | ⟨old, hold, rfl⟩ := mem_modify he
      · exact hwithin c' e he
      · obtain rfl : slot = old := Option.some.inj (hslot.symm.trans hold)
        have hstack : stacking im slot.iid = true := by simp [stacking, hid, hd, hst]
        have hbounds := hwithin c' slot (List.mem_of_getElem? hslot) hstack
        rw [getStackCount_eq, if_pos hstack] at hbounds hle
        exact InventorySlot.Within.setCount (by omega)
    · rw [modifySlot, setContainer_other _ _ hc] at he
      exact hwithin c' e he

end Added

/-- The sums of a stack and the count are `int`s in the source, so they have to be in range. -/
theorem addItemEx_exact_iff (hwithin : inv.StacksWithin im) (hcount : 1 ≤ count)
    (_hsum : ∀ e ∈ inv.containerList c, InInt32 (e.getStackCount im + count)) :
    Accounts im now inv c itemID count ↔
      ∀ d, im.getPointerByID itemID = some d → ¬Refused im inv c d count →
        Countable im inv c d count := by
  unfold Accounts
  cases hd : im.getPointerByID itemID with
  | none =>
      simp only [addItemEx, hd, reduceCtorEq, false_implies, implies_true, iff_true]
      exact ⟨_, rfl⟩
  | some d =>
      simp only [Option.some.injEq, forall_eq']
      by_cases hrefused : Refused im inv c d count
      · have hnone := @addItemEx_refused im now inv c itemID count d hd hrefused
        generalize hadd : inv.addItemEx im now c itemID count = r at hnone
        obtain ⟨_, inv'⟩ := r
        obtain rfl := hnone
        simp only [hrefused, not_true, false_implies, iff_true]
        exact addItemEx_none hadd
      · obtain ⟨i, inv', hadd⟩ := @addItemEx_not_refused im now inv c itemID count d hd hrefused
        rw [hadd]
        simp only [hrefused, not_false_eq_true, true_implies]
        have hid : d.mID = itemID := im.mID_eq hd
        have hlot := getItemCount_addItemEx hd hadd hcount
        have hstacks := stacksWithin_addItemEx hd hadd hwithin hcount
        have hsingle : lotSize im itemID count = count ↔ (d.mIvType1 ≠ .stacking → count = 1) := by
          simp only [lotSize, hd]
          split
          · next hst => simp [hst]
          · next hst => simp [hst, eq_comm]
        have howned := owned_of_added (containerList_addItemEx_of_ne hadd) hlot
        have hbelow (hpos : 0 < d.mOwnershipRestriction) :
            inv.owned im itemID < d.mOwnershipRestriction := by
          by_contra hle
          refine hrefused (.inl ⟨hpos, ?_⟩)
          rw [← hid] at hle
          exact not_lt.mp hle
        constructor
        · intro h
          have hlotcount : lotSize im itemID count = count := by
            have hadded := h.added
            omega
          refine ⟨hsingle.mp hlotcount, hstacks.mp h.within, fun hpos hc => ?_⟩
          have hle := h.limited d hd hpos
          rw [howned, if_pos hc, hlotcount] at hle
          rwa [hid]
        · intro h
          have hlotcount := hsingle.mpr h.single
          refine ⟨by rw [hlot, hlotcount], filter_addItemEx hadd,
            containerList_addItemEx_of_ne hadd, hstacks.mpr h.stack, fun d' hd' hpos => ?_⟩
          obtain rfl : d = d' := Option.some.inj (hd.symm.trans hd')
          rw [howned, hlotcount]
          split
          · next hc => exact hid ▸ h.limit hpos hc
          · have hlt := hbelow hpos
            omega

/-- Two more arrows go to the stack of four. -/
theorem addItemEx_exact_iff_quiver :
    Accounts quiverTable 0 (quiverState.inv .character) invContainer 5 2 := by
  have hwithin : (quiverState.inv .character).StacksWithin quiverTable := by
    unfold StacksWithin InventorySlot.Within
    decide
  refine (addItemEx_exact_iff hwithin (by decide) (by decide)).mpr fun d hd _ => ?_
  obtain rfl : { mID := 5, mIvType1 := .stacking, mIvMax1 := 10 } = d := Option.some.inj hd
  exact ⟨by decide, by decide, by decide⟩

/-- An empty inventory whose containers have 24 slots. -/
def emptyInventory : InventoryManager where
  maxContainerSlot := fun _ => 24

theorem emptyInventory_within (im : ItemManager) : emptyInventory.StacksWithin im := by
  intro c e he
  cases he

/-- Asked for two swords, `AddItem_Ex` adds one. -/
theorem addItemEx_two_swords : ¬∀ (im : ItemManager) (now : Nat) (inv : InventoryManager)
    (c : ContainerID) (itemID count : Int), inv.StacksWithin im → 1 ≤ count →
      Accounts im now inv c itemID count := by
  intro h
  have hadds := h (.ofList [{ mID := 9 }]) 0 emptyInventory invContainer 9 2
    (emptyInventory_within _) (by decide)
  have hadd : emptyInventory.addItemEx (.ofList [{ mID := 9 }]) 0 invContainer 9 2 =
      (some 0, (emptyInventory.addItemEx (.ofList [{ mID := 9 }]) 0 invContainer 9 2).2) :=
    Prod.ext (by decide) rfl
  unfold Accounts at hadds
  rw [hadd] at hadds
  exact absurd hadds.added (by decide)

/-! ### Removing -/

/-- Every stack of a container holds at least one item. -/
def StacksFilled (im : ItemManager) (l : List InventorySlot) : Prop :=
  ∀ e ∈ l, 1 ≤ e.getStackCount im

/-- `inv'` is `inv` with `n` fewer of an item in one container. -/
structure TakesExactly (im : ItemManager) (inv inv' : InventoryManager) (c : ContainerID)
    (itemID n : Int) : Prop where
  taken : inv'.getItemCount im c itemID = inv.getItemCount im c itemID - n
  others : (inv'.containerList c).filter (fun e => e.iid ≠ itemID) =
    (inv.containerList c).filter fun e => e.iid ≠ itemID
  kept : ∀ e ∈ inv'.containerList c, ∃ old ∈ inv.containerList c,
    e = { old with count := e.count } ∧ e.count ≤ old.count
  elsewhere : ∀ c', c' ≠ c → inv'.containerList c' = inv.containerList c'
  filled : StacksFilled im (inv'.containerList c)

/-- What is left of a container: stacks that were there, the last one touched perhaps smaller. -/
theorem mem_takeItems {l : List InventorySlot} {n : Int} {e : InventorySlot}
    (h : e ∈ takeItems im itemID l n) (hl : StacksFilled im l) :
    1 ≤ e.getStackCount im ∧
      ∃ old ∈ l, e = { old with count := e.count } ∧ e.count ≤ old.count := by
  have hsame (l : List InventorySlot) (he : e ∈ l) (hl : StacksFilled im l) :
      1 ≤ e.getStackCount im ∧
        ∃ old ∈ l, e = { old with count := e.count } ∧ e.count ≤ old.count :=
    ⟨hl e he, e, he, rfl, le_refl _⟩
  induction l generalizing n with
  | nil => cases h
  | cons slot rest ih =>
      have hrest : StacksFilled im rest := fun e he => hl e (List.mem_cons_of_mem _ he)
      have hlater {n : Int} (h : e ∈ takeItems im itemID rest n) :
          1 ≤ e.getStackCount im ∧
            ∃ old ∈ slot :: rest, e = { old with count := e.count } ∧ e.count ≤ old.count := by
        obtain ⟨hfilled, old, hold, hold'⟩ := ih h hrest
        exact ⟨hfilled, old, List.mem_cons_of_mem _ hold, hold'⟩
      rw [takeItems] at h
      split at h
      · exact hsame _ h hl
      · next hn =>
          split at h
          · split at h
            · exact hlater h
            · next hpart =>
                obtain rfl | h := List.mem_cons.mp h
                · refine ⟨?_, slot, List.mem_cons_self, rfl, by simp only; omega⟩
                  rw [getStackCount_eq] at hpart ⊢
                  split
                  · next hst =>
                      simp only [if_pos hst] at hpart ⊢
                      omega
                  · exact le_refl 1
                · exact hsame _ (List.mem_cons_of_mem _ h) hl
          · obtain rfl | h := List.mem_cons.mp h
            · exact hsame _ List.mem_cons_self hl
            · exact hlater h

/-- Where there are fewer items than asked for, all of them are taken. -/
theorem held_takeItems_all {l : List InventorySlot} {n : Int} (hl : StacksFilled im l)
    (hn : held im itemID l ≤ n) : held im itemID (takeItems im itemID l n) = 0 := by
  induction l generalizing n with
  | nil => rfl
  | cons slot rest ih =>
      have hrest : StacksFilled im rest := fun e he => hl e (List.mem_cons_of_mem _ he)
      have hnonneg : 0 ≤ held im itemID rest := by
        apply List.sum_nonneg
        intro q hq
        obtain ⟨e, he, rfl⟩ := List.mem_map.mp hq
        have hfilled := hrest e he
        unfold InventorySlot.quantity
        split <;> omega
      have hslot := hl slot List.mem_cons_self
      rw [held_cons] at hn
      by_cases hid : slot.iid = itemID
      · have hq : slot.quantity im itemID = slot.getStackCount im := if_pos hid
        rw [takeItems, if_neg (by omega), if_pos hid, if_pos (by omega)]
        exact ih hrest (by omega)
      · have hq : slot.quantity im itemID = 0 := if_neg hid
        rw [takeItems]
        split
        · rw [held_cons]
          omega
        · rw [held_cons, hq, zero_add]
          exact ih hrest (by omega)

theorem removeItemsAndUpdate_exact {n : Int} (hplaced : Placed c (inv.containerList c))
    (hfilled : StacksFilled im (inv.containerList c)) (hn : 0 ≤ n) :
    TakesExactly im inv (inv.removeItemsAndUpdate im now c itemID n) c itemID
      (min n (inv.getItemCount im c itemID)) := by
  have hlists := @containerList_removeItemsAndUpdate im now c inv hplaced itemID n
  have hself : (inv.removeItemsAndUpdate im now c itemID n).containerList c =
      takeItems im itemID (inv.containerList c) n := by rw [hlists, Function.update_self]
  refine ⟨?_, ?_, ?_, ?_, ?_⟩
  · rw [getItemCount_eq_held, getItemCount_eq_held, hself]
    obtain hle | hlt := le_or_gt n (held im itemID (inv.containerList c))
    · rw [min_eq_left hle, held_takeItems_self itemID _ hn hle]
    · rw [min_eq_right hlt.le, held_takeItems_all hfilled hlt.le, sub_self]
  · rw [hself, filter_takeItems]
  · rw [hself]
    exact fun e he => (mem_takeItems he hfilled).2
  · intro c' hc
    rw [hlists, Function.update_of_ne hc]
  · rw [hself]
    exact fun e he => (mem_takeItems he hfilled).1

theorem removeItemsAndUpdate_exact_quiver :
    TakesExactly quiverTable (quiverState.inv .character)
      ((quiverState.inv .character).removeItemsAndUpdate quiverTable 0 invContainer 5 6)
      invContainer 5 6 := by
  have hplaced : Placed invContainer ((quiverState.inv .character).containerList invContainer) :=
    ⟨by decide, by unfold NodupKeys; decide⟩
  have hfilled : StacksFilled quiverTable
      ((quiverState.inv .character).containerList invContainer) := by
    unfold StacksFilled
    decide
  exact @removeItemsAndUpdate_exact quiverTable 0 (quiverState.inv .character) invContainer 5 6
    hplaced hfilled (by decide)

end InventoryManager

end Iceee
