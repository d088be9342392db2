import Iceee.Inventory.Manager
import Iceee.Lib.Holding

/-!
# What inventory operations do to quantities

The quantity of an item is what `GetItemCount` reports, added up over all
containers. Each operation that takes or adds a slot changes every such sum by the
weight of that slot and by nothing else.
-/

namespace Iceee

open Lib

variable (im : ItemManager) (now : Nat)

namespace InventorySlot

/-- What one slot contributes to the quantity of `id`. -/
def quantity (id : Int) (s : InventorySlot) : Int :=
  if s.iid = id then s.getStackCount im else 0

theorem applyItemIntegerType_eq (s : InventorySlot) (t : ItemIntegerType) (m : Int) :
    ∃ r, s.applyItemIntegerType t m = { s with secondsRemaining := r } := by
  unfold applyItemIntegerType
  split
  · exact ⟨_, rfl⟩
  · exact ⟨s.secondsRemaining, rfl⟩

/-- `ApplyFromItemDef` touches nothing but the time fields. -/
theorem applyFromItemDef_eq (s : InventorySlot) (d : ItemDef) :
    ∃ r t, s.applyFromItemDef now d = { s with secondsRemaining := r, timeLoaded := t } := by
  obtain ⟨r, hr⟩ := applyItemIntegerType_eq { s with secondsRemaining := -1 } d.mIvType1 d.mIvMax1
  obtain ⟨r', hr'⟩ := applyItemIntegerType_eq { s with secondsRemaining := r } d.mIvType2 d.mIvMax2
  simp only [applyFromItemDef, hr, hr']
  by_cases h : r' > -1
  · exact ⟨r', now, by rw [if_pos h]⟩
  · exact ⟨r', s.timeLoaded, by rw [if_neg h]⟩

/-- Only the item ID and the stored count decide the quantity. -/
theorem quantity_congr {s s' : InventorySlot} (hid : s.iid = s'.iid)
    (hcount : s.count = s'.count) (id : Int) : s.quantity im id = s'.quantity im id := by
  unfold quantity getStackCount
  rw [hid, hcount]

end InventorySlot

namespace InventoryManager

variable {im now}

/-- What `AddItem_Ex` puts into a new slot. -/
theorem newSlot_spec (c : ContainerID) (n : Nat) (d : ItemDef) (itemID count : Int) :
    (newSlot now c n d itemID count).ccsid = getCCSID c n ∧
      (newSlot now c n d itemID count).iid = itemID ∧
      (newSlot now c n d itemID count).count = if count > 1 then count - 1 else 0 := by
  unfold newSlot
  by_cases hb : d.mBindingType = .onPickup
  · simp only [if_pos hb]
    obtain ⟨r, t, h⟩ := InventorySlot.applyFromItemDef_eq now
      { ccsid := getCCSID c n, iid := itemID, count := if count > 1 then count - 1 else 0,
        bindStatus := 1 } d
    rw [h]
    exact ⟨rfl, rfl, rfl⟩
  · simp only [if_neg hb]
    obtain ⟨r, t, h⟩ := InventorySlot.applyFromItemDef_eq now
      { ccsid := getCCSID c n, iid := itemID, count := if count > 1 then count - 1 else 0 } d
    rw [h]
    exact ⟨rfl, rfl, rfl⟩

/-- The weight of a whole inventory under a weight for each container's slots. -/
def weigh (w : ContainerID → InventorySlot → Int) (inv : InventoryManager) : Int :=
  total w inv.containerList

variable (w : ContainerID → InventorySlot → Int)

@[simp] theorem weigh_setError (inv : InventoryManager) (e : InventoryError) :
    (inv.setError e).weigh w = inv.weigh w := rfl

theorem weigh_remItem_none {inv : InventoryManager} {ccsid : Nat}
    (h : inv.getItemPtrByCCSID ccsid = none) : (inv.remItem ccsid).weigh w = inv.weigh w := by
  unfold remItem
  cases hc : containerOf ccsid with
  | none => rfl
  | some c =>
      have hfind : (inv.containerList c).find? (fun item => item.ccsid == ccsid) = none := by
        simpa [getItemPtrByCCSID, hc] using h
      have hsame : eraseCCSID (inv.containerList c) ccsid = inv.containerList c :=
        List.eraseP_of_forall_not (List.find?_eq_none.mp hfind)
      simp [hsame, weigh, setContainer]

/-- `RemItem` takes the weight of the slot the CCSID leads to. -/
theorem weigh_remItem {inv : InventoryManager} {ccsid : Nat} {c : ContainerID}
    {s : InventorySlot} (hc : containerOf ccsid = some c)
    (h : inv.getItemPtrByCCSID ccsid = some s) :
    (inv.remItem ccsid).weigh w = inv.weigh w - w c s := by
  have hfind : (inv.containerList c).find? (fun item => item.ccsid == ccsid) = some s := by
    simpa [getItemPtrByCCSID, hc] using h
  simp only [remItem, hc, weigh, setContainer, eraseCCSID]
  exact total_eraseP w hfind

/-- Removing one CCSID does not change what another one leads to. -/
theorem getItemPtrByCCSID_remItem {inv : InventoryManager} {ccsid other : Nat}
    (hne : other ≠ ccsid) :
    (inv.remItem ccsid).getItemPtrByCCSID other = inv.getItemPtrByCCSID other := by
  unfold remItem
  cases hc : containerOf ccsid with
  | none => rfl
  | some c =>
      cases hc' : containerOf other with
      | none => simp [getItemPtrByCCSID, hc']
      | some c' =>
          simp only [getItemPtrByCCSID, hc', Option.bind_some]
          by_cases h : c' = c
          · subst h
            rw [setContainer_self]
            apply find?_eraseP
            intro item hitem
            simp only [beq_iff_eq] at hitem
            simp [hitem, hne.symm]
          · rw [setContainer_other _ _ h]

/-- The entry a CCSID leads to, with its container and its index there. -/
theorem indexOf_getItemPtrByCCSID {inv : InventoryManager} {ccsid : Nat} {item : InventorySlot}
    (h : inv.getItemPtrByCCSID ccsid = some item) :
    ∃ c i, containerOf ccsid = some c ∧ indexOfCCSID (inv.containerList c) ccsid = some i ∧
      (inv.containerList c)[i]? = some item := by
  unfold getItemPtrByCCSID at h
  obtain ⟨c, hc, hfind⟩ := Option.bind_eq_some_iff.mp h
  obtain ⟨hp, i, hlt, hi, hbefore⟩ := List.find?_eq_some_iff_getElem.mp hfind
  refine ⟨c, i, hc, List.findIdx?_eq_some_iff_getElem.mpr ⟨hlt, by rwa [hi], ?_⟩, ?_⟩
  · intro j hj
    simpa using hbefore j hj
  · rw [← hi, List.getElem?_eq_getElem]

/-- `AddItem` appends exactly one slot. -/
theorem containerList_addItem (inv : InventoryManager) (c : ContainerID)
    (item : InventorySlot) :
    (inv.addItem now c item).containerList =
      Function.update inv.containerList c (inv.containerList c ++ [item]) := by
  unfold addItem
  simp only [setContainer]
  split
  · split <;> rfl
  · rfl

/-- A CCSID that leads to an entry still does so after another one was appended. -/
theorem getItemPtrByCCSID_addItem {inv : InventoryManager} {ccsid : Nat} {item : InventorySlot}
    (h : inv.getItemPtrByCCSID ccsid = some item) (c : ContainerID) (new : InventorySlot) :
    (inv.addItem now c new).getItemPtrByCCSID ccsid = some item := by
  unfold getItemPtrByCCSID at h ⊢
  obtain ⟨c', hc', hfind⟩ := Option.bind_eq_some_iff.mp h
  rw [hc', Option.bind_some, containerList_addItem]
  by_cases hc : c' = c
  · subst hc
    rw [Function.update_self, List.find?_append, hfind, Option.some_or]
  · rwa [Function.update_of_ne hc]

theorem weigh_addItem (inv : InventoryManager) (c : ContainerID) (item : InventorySlot) :
    (inv.addItem now c item).weigh w = inv.weigh w + w c item := by
  rw [weigh, containerList_addItem]
  exact total_append w _ _ _

theorem weigh_modifySlot {inv : InventoryManager} {c : ContainerID} {i : Nat}
    {s : InventorySlot} (f : InventorySlot → InventorySlot)
    (h : (inv.containerList c)[i]? = some s) :
    (inv.modifySlot c i f).weigh w = inv.weigh w + (w c (f s) - w c s) :=
  total_modify w f h

/-- `GetExistingPartialStack` leads to a stack of the item. -/
theorem partialStack_spec {inv : InventoryManager} {c : ContainerID} {d : ItemDef} {i : Nat}
    {s : InventorySlot} (h : inv.getExistingPartialStack im c d = some i)
    (hs : (inv.containerList c)[i]? = some s) : d.mIvType1 = .stacking ∧ s.iid = d.mID := by
  unfold getExistingPartialStack at h
  split at h
  · cases h
  · rename_i hst
    obtain ⟨hlt, hp, -⟩ := List.findIdx?_eq_some_iff_getElem.mp h
    obtain ⟨-, rfl⟩ := List.getElem?_eq_some_iff.mp hs
    simp only [Bool.and_eq_true, beq_iff_eq] at hp
    exact ⟨not_not.mp hst, hp.1⟩

/-- A new slot needs a free one and goes to the end of the list. -/
theorem addNewItem_cases {inv inv' : InventoryManager} {c : ContainerID} {d : ItemDef}
    {itemID count : Int} {i : Nat}
    (h : inv.addNewItem now c d itemID count = (some i, inv')) :
    ∃ n, inv.getFreeSlot c = some n ∧ i = (inv.containerList c).length ∧
      inv' = inv.addItem now c (newSlot now c n d itemID count) := by
  unfold addNewItem at h
  cases hn : inv.getFreeSlot c with
  | none => simp [hn] at h
  | some n =>
      simp only [hn, Prod.mk.injEq, Option.some.injEq] at h
      exact ⟨n, rfl, h.1.symm, h.2.symm⟩

/-- The two ways in which `AddItem_Ex` succeeds: a partial stack grows, or a new slot
is appended. -/
theorem addItemEx_cases {inv inv' : InventoryManager} {c : ContainerID} {itemID count : Int}
    {i : Nat} (h : inv.addItemEx im now c itemID count = (some i, inv')) :
    ∃ d, im.getPointerByID itemID = some d ∧
      ((∃ s, (inv.containerList c)[i]? = some s ∧ s.iid = itemID ∧ d.mIvType1 = .stacking ∧
          inv' = inv.modifySlot c i fun s => { s with count := s.count + count }) ∨
        inv.OpensSlot im c d count ∧ ∃ n, inv.getFreeSlot c = some n ∧
          i = (inv.containerList c).length ∧
          inv' = inv.addItem now c (newSlot now c n d itemID count)) := by
  unfold addItemEx at h
  cases hd : im.getPointerByID itemID with
  | none => simp [hd] at h
  | some d =>
      refine ⟨d, rfl, ?_⟩
      simp only [hd] at h
      split at h
      · simp at h
      · rename_i hlimit
        cases hp : inv.getExistingPartialStack im c d with
        | none =>
            simp only [hp] at h
            exact .inr ⟨⟨hlimit, by simp [hp]⟩, addNewItem_cases h⟩
        | some j =>
            cases hs : (inv.containerList c)[j]? with
            | none =>
                simp only [hp, hs] at h
                exact .inr ⟨⟨hlimit, by simp [hp, hs]⟩, addNewItem_cases h⟩
            | some s =>
                simp only [hp, hs] at h
                split at h
                · simp only [Prod.mk.injEq, Option.some.injEq] at h
                  obtain ⟨rfl, rfl⟩ := h
                  obtain ⟨hst, hid⟩ := partialStack_spec hp hs
                  exact .inl ⟨s, hs, hid.trans (im.mID_eq hd), hst, rfl⟩
                · rename_i hfull
                  exact .inr ⟨⟨hlimit, by simpa [hp, hs] using hfull⟩, addNewItem_cases h⟩

/-- A refused `AddItem_Ex` leaves only its reason behind. -/
theorem addItemEx_none {inv inv' : InventoryManager} {c : ContainerID} {itemID count : Int}
    (h : inv.addItemEx im now c itemID count = (none, inv')) :
    ∃ e, inv' = inv.setError e := by
  unfold addItemEx addNewItem at h
  grind

/-- The slot that took the items holds the item asked for. -/
theorem addItemEx_slot {inv inv' : InventoryManager} {c : ContainerID} {itemID count : Int}
    {i : Nat} (h : inv.addItemEx im now c itemID count = (some i, inv')) :
    ∃ s, (inv'.containerList c)[i]? = some s ∧ s.iid = itemID := by
  obtain ⟨d, -, ⟨s, hs, hid, -, rfl⟩ | ⟨-, n, -, rfl, rfl⟩⟩ := addItemEx_cases h
  · refine ⟨{ s with count := s.count + count }, ?_, hid⟩
    simp [modifySlot, hs]
  · refine ⟨newSlot now c n d itemID count, ?_, (newSlot_spec c n d itemID count).2.1⟩
    simp [containerList_addItem]

variable (im) in
/-- How many items a request for `count` of them stands for. -/
def lotSize (itemID count : Int) : Int :=
  match im.getPointerByID itemID with
  | some d => if d.mIvType1 = .stacking then count else 1
  | none => 1

/-- A slot is a lot of what its stored count and one more stand for. -/
theorem lotSize_slot (s : InventorySlot) : lotSize im s.iid (s.count + 1) = s.getStackCount im :=
  rfl

/-- A new slot holds the lot it was made for. -/
theorem lotSize_newSlot {c : ContainerID} {itemID count : Int} {d : ItemDef}
    (hd : im.getPointerByID itemID = some d) (hcount : 1 ≤ lotSize im itemID count) (n : Nat)
    (id : Int) : (newSlot now c n d itemID count).quantity im id =
      if itemID = id then lotSize im itemID count else 0 := by
  obtain ⟨-, hiid, hc⟩ := @newSlot_spec now c n d itemID count
  simp only [lotSize, hd] at hcount
  simp only [InventorySlot.quantity, InventorySlot.getStackCount, lotSize, hiid, hc, hd]
  split
  · split <;> grind
  · rfl

/-- A stack that takes a lot holds that much more. -/
theorem lotSize_grown {itemID count : Int} {d : ItemDef} {slot : InventorySlot}
    (hd : im.getPointerByID itemID = some d) (hst : d.mIvType1 = .stacking)
    (hid : slot.iid = itemID) (id : Int) :
    ({ slot with count := slot.count + count } : InventorySlot).quantity im id -
      slot.quantity im id = if itemID = id then lotSize im itemID count else 0 := by
  simp only [InventorySlot.quantity, InventorySlot.getStackCount, lotSize, hid, hd, hst, if_true]
  split <;> omega

variable (im) in
/-- The quantity of an item over all containers. -/
def quantity (inv : InventoryManager) (id : Int) : Int :=
  ∑ c, inv.getItemCount im c id

theorem quantity_eq_weigh (inv : InventoryManager) (id : Int) :
    inv.quantity im id = inv.weigh fun _ => InventorySlot.quantity im id := by
  unfold quantity weigh total
  apply Finset.sum_congr rfl
  intro c _
  unfold getItemCount
  congr 1
  refine List.map_congr_left fun s _ => ?_
  simp only [InventorySlot.quantity, InventorySlot.getStackCount, add_comm]

/-- A successful `AddItem_Ex` adds exactly what was asked for. -/
theorem quantity_addItemEx {inv inv' : InventoryManager} {c : ContainerID}
    {itemID count : Int} {i : Nat} (hcount : 1 ≤ lotSize im itemID count)
    (h : inv.addItemEx im now c itemID count = (some i, inv')) (id : Int) :
    inv'.quantity im id =
      inv.quantity im id + if itemID = id then lotSize im itemID count else 0 := by
  rw [quantity_eq_weigh, quantity_eq_weigh]
  obtain ⟨d, hd, ⟨s, hs, hid, hst, rfl⟩ | ⟨-, n, -, rfl, rfl⟩⟩ := addItemEx_cases h
  · rw [weigh_modifySlot _ _ hs, lotSize_grown hd hst hid]
  · rw [weigh_addItem, lotSize_newSlot hd hcount]

variable (im) in
/-- As many of an item are owned as its definition allows. -/
def AtLimit (inv : InventoryManager) (d : ItemDef) : Prop :=
  d.mOwnershipRestriction > 0 ∧
    d.mOwnershipRestriction ≤ (ownedContainers.map fun c => inv.getItemCount im c d.mID).sum

instance (inv : InventoryManager) (d : ItemDef) : Decidable (inv.AtLimit im d) :=
  inferInstanceAs (Decidable (_ ∧ _))

variable (im) in
/-- How many items `AddItem_Ex` makes of a count: a new slot holds one of an item that does
not stack, and no less than one of any other. -/
def made (inv : InventoryManager) (c : ContainerID) (d : ItemDef) (count : Int) : Int :=
  if inv.OpensSlot im c d count then if d.mIvType1 = .stacking then max count 1 else 1 else count

/-- With a free slot and below the limit, `AddItem_Ex` takes any count. -/
theorem isSome_addItemEx {inv : InventoryManager} {c : ContainerID} {itemID count : Int}
    {d : ItemDef} (hd : im.getPointerByID itemID = some d) (hfree : (inv.getFreeSlot c).isSome) :
    (inv.addItemEx im now c itemID count).1.isSome ↔ ¬inv.AtLimit im d := by
  obtain ⟨n, hn⟩ := Option.isSome_iff_exists.mp hfree
  have hnew : (inv.addNewItem now c d itemID count).1.isSome := by simp [addNewItem, hn]
  simp only [addItemEx, hd]
  split
  · rename_i hlimit
    simpa [AtLimit] using hlimit
  · rename_i hlimit
    refine iff_of_true ?_ hlimit
    split
    · split
      · split
        · rfl
        · exact hnew
      · exact hnew
    · exact hnew

/-- Below the limit, a count no partial stack takes goes into a new slot. -/
theorem addItemEx_of_opensSlot {inv : InventoryManager} {c : ContainerID} {itemID count : Int}
    {d : ItemDef} (hd : im.getPointerByID itemID = some d) (h : inv.OpensSlot im c d count) :
    inv.addItemEx im now c itemID count = inv.addNewItem now c d itemID count := by
  obtain ⟨hlimit, hstacks⟩ := h
  simp only [addItemEx, hd, if_neg hlimit]
  cases hp : inv.getExistingPartialStack im c d with
  | none => rfl
  | some j =>
      cases hs : (inv.containerList c)[j]? with
      | none => simp [hs]
      | some slot =>
          simp only [hs]
          exact if_neg (hstacks j hp slot hs)

/-- Below the limit, any other count goes on a stack of the item. -/
theorem addItemEx_of_stack {inv : InventoryManager} {c : ContainerID} {itemID count : Int}
    {d : ItemDef} (hd : im.getPointerByID itemID = some d) (hlimit : ¬inv.AtLimit im d)
    (h : ¬inv.OpensSlot im c d count) :
    ∃ j slot, inv.getExistingPartialStack im c d = some j ∧
      (inv.containerList c)[j]? = some slot ∧ slot.iid = itemID ∧ d.mIvType1 = .stacking ∧
        slot.getStackCount im + count ≤ slot.getMaxStack im ∧ inv.addItemEx im now c itemID count =
          (some j, inv.modifySlot c j fun s => { s with count := s.count + count }) := by
  have hstack : ∃ j ∈ inv.getExistingPartialStack im c d, ∃ slot ∈ (inv.containerList c)[j]?,
      slot.getStackCount im + count ≤ slot.getMaxStack im := by
    by_contra hnone
    refine h ⟨hlimit, fun j hj slot hslot hle => hnone ⟨j, hj, slot, hslot, hle⟩⟩
  obtain ⟨j, hj, slot, hslot, hle⟩ := hstack
  obtain ⟨hst, hid⟩ := partialStack_spec hj hslot
  refine ⟨j, slot, hj, hslot, hid.trans (im.mID_eq hd), hst, hle, ?_⟩
  rw [AtLimit] at hlimit
  simp only [addItemEx, hd, if_neg hlimit, Option.mem_def.mp hj, Option.mem_def.mp hslot,
    if_pos hle]

/-- A new slot holds what is made of the count. -/
theorem quantity_newSlot {inv : InventoryManager} {c : ContainerID} {itemID count : Int}
    {d : ItemDef} (hd : im.getPointerByID itemID = some d) (hopen : inv.OpensSlot im c d count)
    (n : Nat) (id : Int) : (newSlot now c n d itemID count).quantity im id =
      if itemID = id then inv.made im c d count else 0 := by
  obtain ⟨-, hiid, hc⟩ := @newSlot_spec now c n d itemID count
  rw [made, if_pos hopen]
  simp only [InventorySlot.quantity, InventorySlot.getStackCount, hiid, hc, hd]
  grind

/-- A stack that takes the count holds as much more. -/
theorem quantity_grown {inv : InventoryManager} {c : ContainerID} {itemID count : Int}
    {d : ItemDef} {slot : InventorySlot} (hd : im.getPointerByID itemID = some d)
    (hst : d.mIvType1 = .stacking) (hid : slot.iid = itemID)
    (hopen : ¬inv.OpensSlot im c d count) (id : Int) :
    ({ slot with count := slot.count + count } : InventorySlot).quantity im id -
      slot.quantity im id = if itemID = id then inv.made im c d count else 0 := by
  have hlot : lotSize im itemID count = count := by simp only [lotSize, hd, hst, if_true]
  rw [made, if_neg hopen, lotSize_grown hd hst hid, hlot]

/-- A successful `AddItem_Ex` adds what it makes of the count. -/
theorem quantity_addItemEx_made {inv inv' : InventoryManager} {c : ContainerID}
    {itemID count : Int} {i : Nat} {d : ItemDef} (hd : im.getPointerByID itemID = some d)
    (h : inv.addItemEx im now c itemID count = (some i, inv')) (id : Int) :
    inv'.quantity im id =
      inv.quantity im id + if itemID = id then inv.made im c d count else 0 := by
  have hlimit : ¬inv.AtLimit im d := by
    intro hlimit
    rw [AtLimit] at hlimit
    simp [addItemEx, hd, hlimit] at h
  rw [quantity_eq_weigh, quantity_eq_weigh]
  by_cases hopen : inv.OpensSlot im c d count
  · rw [addItemEx_of_opensSlot hd hopen] at h
    obtain ⟨n, -, -, rfl⟩ := addNewItem_cases h
    rw [weigh_addItem, quantity_newSlot hd hopen]
  · obtain ⟨j, slot, -, hslot, hid, hst, -, hadd⟩ :=
      @addItemEx_of_stack im now inv c itemID count d hd hlimit hopen
    cases hadd.symm.trans h
    rw [weigh_modifySlot _ _ hslot, quantity_grown hd hst hid hopen]

/-- Overwriting everything but the count with another slot of the item keeps quantities. -/
theorem quantity_copyWithoutCount {inv : InventoryManager} {c : ContainerID} {i : Nat}
    {s source : InventorySlot} (hs : (inv.containerList c)[i]? = some s)
    (hid : s.iid = source.iid) (id : Int) :
    (inv.modifySlot c i fun t => t.copyWithoutCount source false).quantity im id =
      inv.quantity im id := by
  rw [quantity_eq_weigh, quantity_eq_weigh, weigh_modifySlot _ _ hs]
  have hsame : (s.copyWithoutCount source false).quantity im id = s.quantity im id := by
    apply InventorySlot.quantity_congr
    · exact hid.symm
    · rfl
  rw [hsame, sub_self, add_zero]

end InventoryManager

end Iceee
