import Iceee.Inventory.Wellformed

/-!
# Free slots

`GetFreeSlot` and `CountFreeSlots` mark the slot numbers below the limit that are taken, but
both give up first where a container has as many entries as slots.

## Main statements

* `InventoryManager.slotsTold_iff`: both tell the truth as long as all entries lie below the
  limit, each in a slot of its own.
-/

namespace Iceee

open Lib

variable {im : ItemManager}

namespace InventoryManager

/-- `AddItem_Ex` with count 1 for each item in turn, each at its own time; `none` when one is
refused. -/
def addEach (im : ItemManager) (c : ContainerID) (inv : InventoryManager) :
    List (Nat × Int) → Option InventoryManager
  | [] => some inv
  | (now, itemID) :: rest =>
      match inv.addItemEx im now c itemID 1 with
      | (none, _) => none
      | (some _, inv) => addEach im c inv rest

/-- An item that does not stack and of which anybody may own any number. -/
def Plain (im : ItemManager) (itemID : Int) : Prop :=
  ∃ d, im.getPointerByID itemID = some d ∧ d.mIvType1 ≠ .stacking ∧ d.mOwnershipRestriction ≤ 0

/-- Some entry has a slot number. -/
def Occupied (l : List InventorySlot) (a : Nat) : Prop := ∃ item ∈ l, item.getSlot = a

/-- What `GetFreeSlot` and `CountFreeSlots` say of a container is true. -/
structure SlotsTold (inv : InventoryManager) (c : ContainerID) : Prop where
  free : ∀ a, inv.getFreeSlot c = some a →
    a < inv.maxContainerSlot c ∧ ¬Occupied (inv.containerList c) a
  full : inv.getFreeSlot c = none →
    ∀ a, a < inv.maxContainerSlot c → Occupied (inv.containerList c) a
  promised : ∀ (im : ItemManager) (calls : List (Nat × Int)),
    calls.length = inv.countFreeSlots c → (∀ call ∈ calls, Plain im call.2) →
      (inv.addEach im c calls).isSome

/-- The entries lie below the limit, each in a slot of its own. -/
def Fits (inv : InventoryManager) (c : ContainerID) : Prop :=
  (∀ item ∈ inv.containerList c, item.getSlot < inv.maxContainerSlot c) ∧
    NodupKeys InventorySlot.getSlot (inv.containerList c)

variable {inv : InventoryManager} {c : ContainerID}

/-! ### Counting -/

/-- The slot numbers below the limit that entries have. -/
def taken (inv : InventoryManager) (c : ContainerID) : Finset Nat :=
  (Finset.range (inv.maxContainerSlot c)).filter fun a =>
    (inv.containerList c).any fun item => item.getSlot == a

theorem mem_taken {a : Nat} : a ∈ inv.taken c ↔
    a < inv.maxContainerSlot c ∧ Occupied (inv.containerList c) a := by
  simp [taken, Occupied]

theorem taken_subset :
    inv.taken c ⊆ ((inv.containerList c).map InventorySlot.getSlot).toFinset := by
  intro a ha
  obtain ⟨-, item, hitem, rfl⟩ := mem_taken.mp ha
  exact List.mem_toFinset.mpr (List.mem_map_of_mem hitem)

theorem card_taken_le : (inv.taken c).card ≤ (inv.containerList c).length := by
  calc
    (inv.taken c).card ≤ ((inv.containerList c).map InventorySlot.getSlot).toFinset.card :=
      Finset.card_le_card taken_subset
    _ ≤ ((inv.containerList c).map InventorySlot.getSlot).length := List.toFinset_card_le _
    _ = (inv.containerList c).length := List.length_map _

/-- As many numbers are taken as there are entries exactly when the entries fit. -/
theorem card_taken_eq_iff : (inv.taken c).card = (inv.containerList c).length ↔ inv.Fits c := by
  have hkeys := List.toFinset_card_le ((inv.containerList c).map InventorySlot.getSlot)
  have hlength : ((inv.containerList c).map InventorySlot.getSlot).length =
      (inv.containerList c).length := List.length_map _
  have hle := Finset.card_le_card (@taken_subset inv c)
  constructor
  · intro hcard
    have hall : inv.taken c = ((inv.containerList c).map InventorySlot.getSlot).toFinset :=
      Finset.eq_of_subset_of_card_le taken_subset (by omega)
    refine ⟨fun item hitem => ?_, ?_⟩
    · have hmem : item.getSlot ∈ inv.taken c := by
        rw [hall]
        exact List.mem_toFinset.mpr (List.mem_map_of_mem hitem)
      exact (mem_taken.mp hmem).1
    · apply Multiset.coe_nodup.mp
      apply Multiset.toFinset_card_eq_card_iff_nodup.mp
      rw [Multiset.coe_card]
      change ((inv.containerList c).map InventorySlot.getSlot).toFinset.card = _
      omega
  · intro ⟨hbelow, hnodup⟩
    have hall : inv.taken c = ((inv.containerList c).map InventorySlot.getSlot).toFinset := by
      refine Finset.Subset.antisymm taken_subset fun a ha => ?_
      obtain ⟨item, hitem, rfl⟩ := List.mem_map.mp (List.mem_toFinset.mp ha)
      exact mem_taken.mpr ⟨hbelow item hitem, item, hitem, rfl⟩
    rw [hall, List.toFinset_card_of_nodup hnodup, hlength]

theorem countFreeSlots_eq : inv.countFreeSlots c =
    if (inv.containerList c).length ≥ inv.maxContainerSlot c then 0
    else inv.maxContainerSlot c - (inv.taken c).card := by
  unfold countFreeSlots
  split
  · rfl
  · have hcard : (inv.taken c).card = ((List.range (inv.maxContainerSlot c)).filter fun a =>
        (inv.containerList c).any fun item => item.getSlot == a).length := by
      rw [← List.toFinset_card_of_nodup (List.nodup_range.filter _)]
      congr 1
      ext a
      simp [taken]
    have hsplit := List.length_eq_length_filter_add (l := List.range (inv.maxContainerSlot c))
      fun a => (inv.containerList c).any fun item => item.getSlot == a
    rw [List.length_range] at hsplit
    omega

/-- There is a free slot as long as there are fewer entries than slots. -/
theorem getFreeSlot_isSome : (inv.getFreeSlot c).isSome ↔
    (inv.containerList c).length < inv.maxContainerSlot c := by
  unfold getFreeSlot
  split
  · rename_i hfull
    simpa using hfull
  · rename_i hroom
    rw [not_le] at hroom
    refine iff_of_true ?_ hroom
    have hcard : (inv.taken c).card < (Finset.range (inv.maxContainerSlot c)).card := by
      rw [Finset.card_range]
      exact lt_of_le_of_lt card_taken_le hroom
    obtain ⟨a, ha, hfree⟩ := Finset.exists_mem_notMem_of_card_lt_card hcard
    rw [Finset.mem_range] at ha
    rw [List.find?_isSome]
    refine ⟨a, List.mem_range.mpr ha, ?_⟩
    rw [mem_taken] at hfree
    simp only [Bool.not_eq_true', List.any_eq_false, beq_iff_eq]
    exact fun item hitem heq => hfree ⟨ha, item, hitem, heq⟩

/-! ### Adding -/

/-- A plain item goes into the free slot. -/
theorem addItemEx_plain {now : Nat} {itemID : Int} (h : Plain im itemID) :
    ∃ d, inv.addItemEx im now c itemID 1 = inv.addNewItem now c d itemID 1 := by
  obtain ⟨d, hd, hstack, hlimit⟩ := h
  refine ⟨d, addItemEx_of_opensSlot hd ⟨fun hpos => absurd hpos.1 (not_lt.mpr hlimit), ?_⟩⟩
  intro i hi
  simp [getExistingPartialStack, hstack] at hi

theorem maxContainerSlot_addItem {now : Nat} (item : InventorySlot) :
    (inv.addItem now c item).maxContainerSlot = inv.maxContainerSlot := by
  unfold addItem
  simp only [setContainer_maxContainerSlot]
  split
  · split <;> rfl
  · rfl

/-- Each addition takes one slot, whether or not the entries before it count as one. -/
theorem addEach_isSome {calls : List (Nat × Int)} (h : ∀ call ∈ calls, Plain im call.2) :
    (inv.addEach im c calls).isSome ↔
      calls = [] ∨ (inv.containerList c).length + calls.length ≤ inv.maxContainerSlot c := by
  induction calls generalizing inv with
  | nil => simp [addEach]
  | cons call rest ih =>
      obtain ⟨now, itemID⟩ := call
      obtain ⟨d, hadd⟩ := @addItemEx_plain im inv c now itemID (h _ List.mem_cons_self)
      simp only [addEach, hadd, addNewItem, List.length_cons, reduceCtorEq, false_or]
      have hroom := @getFreeSlot_isSome inv c
      cases hfree : inv.getFreeSlot c with
      | none =>
          simp only [hfree, Option.isSome_none, Bool.false_eq_true, false_iff, not_lt] at hroom ⊢
          omega
      | some n =>
          simp only [hfree, Option.isSome_some, true_iff] at hroom
          simp only []
          rw [ih fun call hcall => h call (List.mem_cons_of_mem _ hcall), containerList_addItem,
            Function.update_self, maxContainerSlot_addItem, List.length_append,
            List.length_singleton]
          constructor
          · rintro (rfl | hle)
            · simpa using hroom
            · omega
          · intro hle
            exact .inr (by omega)

/-- What the two functions say of a container is true exactly if its entries fit, or if it is
full and gives up rightly. -/
theorem slotsTold_iff : inv.SlotsTold c ↔
    if (inv.containerList c).length < inv.maxContainerSlot c then inv.Fits c
    else ∀ a, a < inv.maxContainerSlot c → Occupied (inv.containerList c) a := by
  have hroom := @getFreeSlot_isSome inv c
  have hfree (a : Nat) (ha : inv.getFreeSlot c = some a) :
      a < inv.maxContainerSlot c ∧ ¬Occupied (inv.containerList c) a := by
    refine ⟨?_, fun ⟨item, hitem, heq⟩ => getFreeSlot_free ha item hitem heq⟩
    unfold getFreeSlot at ha
    split at ha
    · cases ha
    · exact List.mem_range.mp (List.mem_of_find?_eq_some ha)
  have hcount := @countFreeSlots_eq inv c
  split
  · next hlt =>
      rw [if_neg (not_le.mpr hlt)] at hcount
      rw [← card_taken_eq_iff]
      have hle := @card_taken_le inv c
      constructor
      · intro h
        have hplain : ∀ call ∈ List.replicate (inv.countFreeSlots c) (0, (7 : Int)),
            Plain (.ofList [{ mID := 7 }]) call.2 := by
          intro call hcall
          rw [List.eq_of_mem_replicate hcall]
          exact ⟨{ mID := 7 }, rfl, by decide, by decide⟩
        have hadded := h.promised (.ofList [{ mID := 7 }]) _ List.length_replicate hplain
        rw [addEach_isSome hplain, List.length_replicate] at hadded
        obtain hnil | hfits := hadded
        · have hzero := congrArg List.length hnil
          rw [List.length_replicate, List.length_nil] at hzero
          omega
        · omega
      · intro hcard
        refine ⟨hfree, fun hnone => ?_, fun im calls hlength hplain => ?_⟩
        · rw [hnone] at hroom
          exact absurd (hroom.mpr hlt) (by decide)
        · rw [addEach_isSome hplain]
          exact .inr (by omega)
  · next hfull =>
      rw [if_pos (not_lt.mp hfull)] at hcount
      have hnone : inv.getFreeSlot c = none := by
        cases hsome : inv.getFreeSlot c with
        | none => rfl
        | some a => exact absurd (hroom.mp (by rw [hsome]; rfl)) hfull
      constructor
      · intro h
        exact h.full hnone
      · intro h
        refine ⟨hfree, fun _ => h, fun im calls hlength hplain => ?_⟩
        rw [addEach_isSome hplain]
        exact .inl (List.eq_nil_of_length_eq_zero (hlength.trans hcount))

end InventoryManager

namespace CharacterState

/-- A bag with four slots, and rocks. -/
def bagConfig : ServerConfig where
  items := .ofList
    [{ mID := 1, mType := .container, mContainerSlots := 4, mEquipType := .container },
      { mID := 2 }]

def bagMove (ccsid : Nat) (name : String) (slot : Int) : CharacterEvent :=
  .move { stats := { level := 1, profession := 1 } } (some (ccsid, name, slot))

/-- The bag is equipped, a rock goes to the first of its slots, and the bag comes off. -/
def bagEvents : List CharacterEvent :=
  [.addItem 0 invContainer 1 1, bagMove 0 "eq" 20, .addItem 0 invContainer 2 1, bagMove 0 "inv" 24,
    bagMove 65556 "inv" 0]

def bagState : CharacterState :=
  (runAll (step bagConfig) (fresh bagConfig false) bagEvents).getD {}

/-- 23 slots are counted as free, and the last of 23 rocks is refused. -/
theorem bag_removed_promises : ∃ s, Reach (· = fresh bagConfig false) (fun _ _ => True)
    (step bagConfig) s ∧ ¬(s.inv .character).SlotsTold invContainer := by
  have hrun : runAll (step bagConfig) (fresh bagConfig false) bagEvents = some bagState :=
    eq_some_getD (by decide) _
  refine ⟨bagState, reach_of_runAll rfl hrun, fun h => ?_⟩
  have hplain : ∀ call ∈ List.replicate 23 (0, (2 : Int)),
      InventoryManager.Plain bagConfig.items call.2 := by
    intro call hcall
    rw [List.eq_of_mem_replicate hcall]
    exact ⟨{ mID := 2 }, rfl, by decide, by decide⟩
  have hadded := h.promised bagConfig.items (List.replicate 23 (0, 2)) (by decide) hplain
  exact absurd hadded (by decide)

end CharacterState

end Iceee
