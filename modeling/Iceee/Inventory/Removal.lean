import Iceee.Inventory.Wellformed

/-!
# Removing a number of items

`RemoveItemsAndUpdate` scans for the stacks of an item, shrinks the last one and erases the
others by their CCSIDs. Where no CCSID occurs twice this takes the items from the front.
-/

namespace Iceee

open Lib

namespace InventoryManager

variable (im : ItemManager) {now : Nat}

/-- A list of slots after a number of items was taken from the front. -/
def takeItems (itemID : Int) : List InventorySlot → Int → List InventorySlot
  | [], _ => []
  | slot :: rest, remain =>
      if remain ≤ 0 then slot :: rest
      else if slot.iid = itemID then
        if remain ≥ slot.getStackCount im then
          takeItems itemID rest (remain - slot.getStackCount im)
        else { slot with count := slot.count - remain } :: rest
      else slot :: takeItems itemID rest remain

variable {im}

theorem takeItems_of_nonpos (itemID : Int) (l : List InventorySlot) {n : Int} (h : n ≤ 0) :
    takeItems im itemID l n = l := by
  cases l with
  | nil => rfl
  | cons slot rest => rw [takeItems, if_pos h]

theorem scanRemoveItems_of_nonpos (itemID : Int) (l : List InventorySlot) (k : Nat) {n : Int}
    (h : n ≤ 0) : scanRemoveItems im itemID l k n = [] := by
  cases l with
  | nil => rfl
  | cons slot rest => rw [scanRemoveItems, if_pos h]

/-- The CCSIDs that are left were there, in their order. -/
theorem sublist_takeItems (itemID : Int) (l : List InventorySlot) (n : Int) :
    ((takeItems im itemID l n).map InventorySlot.ccsid).Sublist
      (l.map InventorySlot.ccsid) := by
  induction l generalizing n with
  | nil => exact List.Sublist.refl _
  | cons slot rest ih =>
      rw [takeItems]
      split
      · exact List.Sublist.refl _
      · split
        · split
          · exact (ih _).cons _
          · exact List.Sublist.refl _
        · exact (ih _).cons_cons _

theorem Placed.takeItems {c : ContainerID} {l : List InventorySlot} (h : Placed c l)
    (itemID n : Int) : Placed c (takeItems im itemID l n) := by
  refine ⟨fun item hitem => ?_, List.Nodup.sublist (sublist_takeItems itemID l n) h.distinct⟩
  obtain ⟨old, hold, heq⟩ := List.mem_map.mp
    ((sublist_takeItems itemID l n).subset (List.mem_map_of_mem hitem))
  rw [← heq]
  exact h.inContainer old hold

/-! ### Scanning and processing -/

theorem containerOf_eq {c : ContainerID} {ccsid : Nat} (h : ccsid / 65536 = c) :
    containerOf ccsid = some c := by
  have hlt : ccsid / 65536 < maxContainer := h ▸ c.isLt
  rw [containerOf, dif_pos hlt]
  exact congrArg some (Fin.ext h)

/-- Removing several CCSIDs of one container. -/
theorem containerList_foldl_remItem {c : ContainerID} {inv : InventoryManager}
    (h : Placed c (inv.containerList c)) (ccsids : List Nat)
    (hin : ∀ ccsid ∈ ccsids, ccsid / 65536 = c) :
    (ccsids.foldl remItem inv).containerList =
      Function.update inv.containerList c
        ((inv.containerList c).filter fun item => !ccsids.contains item.ccsid) := by
  induction ccsids generalizing inv with
  | nil => simp
  | cons ccsid rest ih =>
      have herase : eraseCCSID (inv.containerList c) ccsid =
          (inv.containerList c).filter fun item => item.ccsid ≠ ccsid :=
        h.distinct.eraseP ccsid
      have hone : inv.remItem ccsid = inv.setContainer c
          ((inv.containerList c).filter fun item => item.ccsid ≠ ccsid) := by
        rw [remItem, containerOf_eq (hin ccsid List.mem_cons_self), ← herase]
      rw [List.foldl_cons, hone, ih]
      · rw [setContainer_self, setContainer, Function.update_idem, List.filter_filter]
        congr 1
        apply List.filter_congr
        intro item _
        simp [Bool.and_comm]
      · rw [setContainer_self]
        exact h.sublist List.filter_sublist
      · exact fun k hk => hin k (List.mem_cons_of_mem _ hk)

theorem containerList_foldl_modifySlot (c : ContainerID) (iq : List InventoryQuery)
    (inv : InventoryManager) :
    (iq.foldl (fun inv q =>
        inv.modifySlot c q.index fun s => { s with count := s.count - q.count }) inv).containerList =
      Function.update inv.containerList c
        (iq.foldl (fun l q => l.modify q.index fun s => { s with count := s.count - q.count })
          (inv.containerList c)) := by
  induction iq generalizing inv with
  | nil => simp
  | cons q rest ih =>
      rw [List.foldl_cons, ih, List.foldl_cons, modifySlot, setContainer_self, setContainer,
        Function.update_idem]

theorem ccsid_mem_of_scan {itemID : Int} {l : List InventorySlot} {k : Nat} {n : Int}
    {q : InventoryQuery} (h : q ∈ scanRemoveItems im itemID l k n) :
    q.ccsid ∈ l.map InventorySlot.ccsid := by
  induction l generalizing k n with
  | nil => cases h
  | cons slot rest ih =>
      rw [scanRemoveItems] at h
      split at h
      · cases h
      · split at h
        · obtain rfl | h := List.mem_cons.mp h
          · split <;> exact List.mem_cons_self
          · exact List.mem_cons_of_mem _ (ih h)
        · exact List.mem_cons_of_mem _ (ih h)

theorem modify_append_length (front rest : List InventorySlot) (slot : InventorySlot)
    (f : InventorySlot → InventorySlot) :
    (front ++ slot :: rest).modify front.length f = front ++ f slot :: rest := by
  induction front with
  | nil => rfl
  | cons a front ih =>
      rw [List.cons_append, List.length_cons, List.modify_succ_cons, ih, List.cons_append]

/-- The CCSIDs a scan found to be removed. -/
def removed (iq : List InventoryQuery) : List Nat :=
  (iq.filter fun q => q.remove).map InventoryQuery.ccsid

variable (im) in
/-- Processing a scan that began behind `front` takes the items. -/
theorem process_scan (itemID : Int) (front l : List InventorySlot) (n : Int)
    (h : NodupKeys InventorySlot.ccsid (front ++ l)) :
    (((scanRemoveItems im itemID l front.length n).filter fun q => !q.remove).foldl
        (fun l q => l.modify q.index fun s => { s with count := s.count - q.count })
        (front ++ l)).filter
          (fun item =>
            !(removed (scanRemoveItems im itemID l front.length n)).contains item.ccsid) =
      front ++ takeItems im itemID l n := by
  induction l generalizing front n with
  | nil => simp [scanRemoveItems, removed, takeItems]
  | cons slot rest ih =>
      have hassoc : front ++ slot :: rest = front ++ [slot] ++ rest := by simp
      have hnext := ih (front ++ [slot])
      rw [List.length_append, List.length_singleton] at hnext
      by_cases hn : n ≤ 0
      · rw [scanRemoveItems_of_nonpos _ _ _ hn, takeItems_of_nonpos _ _ hn]
        simp [removed]
      · by_cases hid : slot.iid = itemID
        · by_cases hwhole : n ≥ slot.getStackCount im
          · -- The whole stack goes: whether it is erased first or last is the same.
            rw [scanRemoveItems, takeItems, if_neg hn, if_neg hn, if_pos hid, if_pos hid,
              if_pos hwhole]
            dsimp only
            rw [if_pos hwhole]
            have hgone (item : InventorySlot)
                (hmem : item ∈ front ++ takeItems im itemID rest (n - slot.getStackCount im)) :
                item.ccsid ≠ slot.ccsid := by
              intro heq
              unfold NodupKeys at h
              rw [List.map_append, List.map_cons, List.nodup_middle, List.nodup_cons,
                List.mem_append] at h
              apply h.1
              obtain hmem | hmem := List.mem_append.mp hmem
              · exact .inl (List.mem_map.mpr ⟨item, hmem, heq⟩)
              · exact .inr ((sublist_takeItems itemID rest _).subset
                  (List.mem_map.mpr ⟨item, hmem, heq⟩))
            have hrest := congrArg (List.filter fun item => item.ccsid ≠ slot.ccsid)
              (hnext (n - slot.getStackCount im) (hassoc ▸ h))
            rw [List.filter_filter, ← hassoc, List.append_assoc, List.filter_append,
              List.singleton_append, List.filter_cons_of_neg (by simp), ← List.filter_append,
              List.filter_eq_self.mpr fun item hmem => decide_eq_true (hgone item hmem)] at hrest
            rw [← hrest]
            apply List.filter_congr
            intro item _
            simp [removed, beq_eq_decide]
          · have hend : scanRemoveItems im itemID rest (front.length + 1)
                (n - slot.getStackCount im) = [] :=
              scanRemoveItems_of_nonpos itemID rest _ (by omega)
            rw [scanRemoveItems, takeItems, if_neg hn, if_neg hn, if_pos hid, if_pos hid,
              if_neg hwhole]
            dsimp only
            rw [if_neg hwhole, hend]
            simp [removed, modify_append_length]
        · have hrest := hnext n (hassoc ▸ h)
          rw [scanRemoveItems, takeItems, if_neg hn, if_neg hn, if_neg hid, if_neg hid, hassoc,
            hrest, List.append_assoc, List.singleton_append]

/-- `ProcessIqResults` of a scan takes the items from the front of the container. -/
theorem containerList_processIqResults {c : ContainerID} {inv : InventoryManager}
    (h : Placed c (inv.containerList c)) (itemID n : Int) :
    (inv.processIqResults c
        (scanRemoveItems im itemID (inv.containerList c) 0 n)).containerList =
      Function.update inv.containerList c (takeItems im itemID (inv.containerList c) n) := by
  have hshrunk := containerList_foldl_modifySlot c
    ((scanRemoveItems im itemID (inv.containerList c) 0 n).filter fun q => !q.remove) inv
  generalize hiq : scanRemoveItems im itemID (inv.containerList c) 0 n = iq at hshrunk ⊢
  have hkeys (qs : List InventoryQuery) (l : List InventorySlot) :
      (qs.foldl (fun l q => l.modify q.index fun s => { s with count := s.count - q.count })
        l).map InventorySlot.ccsid = l.map InventorySlot.ccsid := by
    induction qs generalizing l with
    | nil => rfl
    | cons q rest ih =>
        rw [List.foldl_cons, ih]
        exact map_key_modify fun _ => rfl
  have hplaced : Placed c ((iq.filter fun q => !q.remove).foldl
      (fun l q => l.modify q.index fun s => { s with count := s.count - q.count })
        (inv.containerList c)) := by
    constructor
    · intro item hitem
      have hmem := List.mem_map_of_mem (f := InventorySlot.ccsid) hitem
      rw [hkeys] at hmem
      obtain ⟨old, hold, heq⟩ := List.mem_map.mp hmem
      rw [← heq]
      exact h.inContainer old hold
    · unfold NodupKeys
      rw [hkeys]
      exact h.distinct
  have hgone : ∀ ccsid ∈ removed iq, ccsid / 65536 = c := by
    intro ccsid hmem
    obtain ⟨q, hq, rfl⟩ := List.mem_map.mp hmem
    rw [← hiq] at hq
    obtain ⟨item, hitem, heq⟩ := List.mem_map.mp (ccsid_mem_of_scan (List.mem_of_mem_filter hq))
    rw [← heq]
    exact h.inContainer item hitem
  have hprocess := process_scan im itemID [] (inv.containerList c) n h.distinct
  rw [List.nil_append, List.nil_append, List.length_nil, hiq] at hprocess
  rw [processIqResults]
  generalize (iq.filter fun q => !q.remove).foldl (fun inv q =>
    inv.modifySlot c q.index fun s => { s with count := s.count - q.count }) inv = shrunk
    at hshrunk ⊢
  have hplaced' : Placed c (shrunk.containerList c) := by
    rw [hshrunk, Function.update_self]
    exact hplaced
  have hremove := containerList_foldl_remItem hplaced' (removed iq) hgone
  rw [hshrunk, Function.update_self, Function.update_idem, hprocess, removed,
    List.foldl_map] at hremove
  exact hremove

theorem containerList_removeItemsAndUpdate {c : ContainerID} {inv : InventoryManager}
    (h : Placed c (inv.containerList c)) (itemID n : Int) :
    (inv.removeItemsAndUpdate im now c itemID n).containerList =
      Function.update inv.containerList c (takeItems im itemID (inv.containerList c) n) :=
  containerList_processIqResults h itemID n

/-! ### Quantities -/

variable (im) in
/-- How many items of an ID a list of slots holds. -/
def held (itemID : Int) (l : List InventorySlot) : Int :=
  (l.map (InventorySlot.quantity im itemID)).sum

theorem held_cons (itemID : Int) (slot : InventorySlot) (l : List InventorySlot) :
    held im itemID (slot :: l) = slot.quantity im itemID + held im itemID l := by
  rw [held, List.map_cons, List.sum_cons, held]

/-- `GetItemCount` counts what a container holds. -/
theorem getItemCount_eq_held (inv : InventoryManager) (c : ContainerID) (itemID : Int) :
    inv.getItemCount im c itemID = held im itemID (inv.containerList c) := by
  unfold getItemCount held
  congr 1
  refine List.map_congr_left fun s _ => ?_
  simp only [InventorySlot.quantity, InventorySlot.getStackCount, add_comm]

/-- Only a stack of an item that stacks holds other than one, and taking some of it leaves the
rest. -/
theorem getStackCount_sub {slot : InventorySlot} (h : slot.getStackCount im ≠ 1) (n : Int) :
    InventorySlot.getStackCount im { slot with count := slot.count - n } =
      slot.getStackCount im - n := by
  unfold InventorySlot.getStackCount at h ⊢
  cases hd : im.getPointerByID slot.iid with
  | none => simp [hd] at h
  | some d =>
      by_cases hst : d.mIvType1 = .stacking
      · simp only [hst, if_true]
        omega
      · simp [hd, hst] at h

/-- Where there are enough items, as many are taken as were asked for. -/
theorem held_takeItems_self (itemID : Int) (l : List InventorySlot) {n : Int} (h0 : 0 ≤ n)
    (h : n ≤ held im itemID l) : held im itemID (takeItems im itemID l n) = held im itemID l - n := by
  induction l generalizing n with
  | nil =>
      have hn : n = 0 := le_antisymm h h0
      rw [takeItems, hn, sub_zero]
  | cons slot rest ih =>
      rw [takeItems]
      split
      · next hn =>
          have hzero : n = 0 := le_antisymm hn h0
          rw [hzero, sub_zero]
      · rw [held_cons] at h
        split
        · next hid =>
            have hq : slot.quantity im itemID = slot.getStackCount im := if_pos hid
            split
            · rw [ih (by omega) (by omega), held_cons]
              omega
            · next hpart =>
                have hnew : InventorySlot.quantity im itemID
                    { slot with count := slot.count - n } = slot.getStackCount im - n :=
                  (if_pos hid).trans (getStackCount_sub (by omega) n)
                rw [held_cons, held_cons, hnew, hq]
                omega
        · next hid =>
            have hq : slot.quantity im itemID = 0 := if_neg hid
            rw [held_cons, ih h0 (by omega), held_cons]
            omega

/-- Other items stay. -/
theorem filter_takeItems (itemID : Int) (l : List InventorySlot) (n : Int) :
    (takeItems im itemID l n).filter (fun s => s.iid ≠ itemID) =
      l.filter fun s => s.iid ≠ itemID := by
  induction l generalizing n with
  | nil => rfl
  | cons slot rest ih =>
      rw [takeItems]
      split
      · rfl
      · split
        · next hid =>
            split
            · rw [ih, List.filter_cons_of_neg (by simp [hid])]
            · rw [List.filter_cons_of_neg (by simp [hid]), List.filter_cons_of_neg (by simp [hid])]
        · next hid =>
            rw [List.filter_cons_of_pos (by simp [hid]), List.filter_cons_of_pos (by simp [hid]),
              ih]

theorem held_filter {itemID other : Int} (h : itemID ≠ other) (l : List InventorySlot) :
    held im itemID (l.filter fun s => s.iid ≠ other) = held im itemID l := by
  induction l with
  | nil => rfl
  | cons slot rest ih =>
      by_cases hid : slot.iid = other
      · have hq : slot.quantity im itemID = 0 := if_neg fun h' => h (h'.symm.trans hid)
        rw [List.filter_cons_of_neg (by simp [hid]), ih, held_cons, hq, zero_add]
      · rw [List.filter_cons_of_pos (by simp [hid]), held_cons, held_cons, ih]

theorem held_takeItems_other {itemID other : Int} (h : itemID ≠ other) (l : List InventorySlot)
    (n : Int) : held im itemID (takeItems im other l n) = held im itemID l := by
  rw [← held_filter h, filter_takeItems, held_filter h]

/-! ### Removing whole stacks only

`RemoveItems` without `ProcessIqResults` erases the stacks that the scan flagged for removal and
leaves the one that it only wanted to shrink. -/

variable (im) in
/-- A list of slots without the stacks that a scan flags for removal. -/
def dropStacks (itemID : Int) : List InventorySlot → Int → List InventorySlot
  | [], _ => []
  | slot :: rest, remain =>
      if remain ≤ 0 then slot :: rest
      else if slot.iid = itemID then
        if remain ≥ slot.getStackCount im then
          dropStacks itemID rest (remain - slot.getStackCount im)
        else slot :: rest
      else slot :: dropStacks itemID rest remain

variable (im) in
/-- Whether a number of items, taken from the front, is there and ends with a whole stack. -/
def EndsStack (itemID : Int) : List InventorySlot → Int → Prop
  | [], n => n ≤ 0
  | slot :: rest, n =>
      if n ≤ 0 then True
      else if slot.iid = itemID then
        n ≥ slot.getStackCount im ∧ EndsStack itemID rest (n - slot.getStackCount im)
      else EndsStack itemID rest n

instance decidableEndsStack (itemID : Int) :
    (l : List InventorySlot) → (n : Int) → Decidable (EndsStack im itemID l n)
  | [], n => inferInstanceAs (Decidable (n ≤ 0))
  | slot :: rest, n =>
      have : Decidable (EndsStack im itemID rest (n - slot.getStackCount im)) :=
        decidableEndsStack itemID rest _
      have : Decidable (EndsStack im itemID rest n) := decidableEndsStack itemID rest n
      inferInstanceAs (Decidable (if n ≤ 0 then True
        else if slot.iid = itemID then
          n ≥ slot.getStackCount im ∧ EndsStack im itemID rest (n - slot.getStackCount im)
        else EndsStack im itemID rest n))

theorem endsStack_of_nonpos (itemID : Int) (l : List InventorySlot) {n : Int} (h : n ≤ 0) :
    EndsStack im itemID l n := by
  cases l with
  | nil => exact h
  | cons slot rest =>
      rw [EndsStack, if_pos h]
      trivial

theorem sublist_dropStacks (itemID : Int) (l : List InventorySlot) (n : Int) :
    (dropStacks im itemID l n).Sublist l := by
  induction l generalizing n with
  | nil => exact List.Sublist.refl _
  | cons slot rest ih =>
      rw [dropStacks]
      split
      · exact List.Sublist.refl _
      · split
        · split
          · exact (ih _).cons _
          · exact List.Sublist.refl _
        · exact (ih _).cons_cons _

/-- Erasing by CCSID what a scan flagged leaves the other stacks. -/
theorem filter_removed (itemID : Int) {l : List InventorySlot}
    (h : NodupKeys InventorySlot.ccsid l) (k : Nat) (n : Int) :
    l.filter (fun item => !(removed (scanRemoveItems im itemID l k n)).contains item.ccsid) =
      dropStacks im itemID l n := by
  induction l generalizing k n with
  | nil => rfl
  | cons slot rest ih =>
      obtain ⟨hnew, hrest⟩ := List.nodup_cons.mp h
      rw [scanRemoveItems, dropStacks]
      split
      · simp [removed]
      · split
        · split
          · next hwhole =>
              -- The head is flagged, and nothing else has its CCSID.
              have hhead : (slot :: rest).filter (fun item => !(removed
                  (⟨k, slot.ccsid, true, slot.getStackCount im⟩ :: scanRemoveItems im itemID rest
                    (k + 1) (n - slot.getStackCount im))).contains item.ccsid) =
                  rest.filter fun item => !(removed (scanRemoveItems im itemID rest (k + 1)
                    (n - slot.getStackCount im))).contains item.ccsid := by
                rw [List.filter_cons_of_neg (by simp [removed])]
                apply List.filter_congr
                intro item hitem
                have hne : item.ccsid ≠ slot.ccsid := fun heq =>
                  hnew (heq ▸ List.mem_map_of_mem hitem)
                simp [removed, hne]
              dsimp only
              rw [if_pos hwhole]
              exact hhead.trans (ih hrest _ _)
          · next hpart =>
              have hend : scanRemoveItems im itemID rest (k + 1) (n - slot.getStackCount im) = [] :=
                scanRemoveItems_of_nonpos itemID rest _ (by omega)
              dsimp only
              rw [if_neg hpart, hend]
              simp [removed]
        · have hkept : slot.ccsid ∉ removed (scanRemoveItems im itemID rest (k + 1) n) := by
            intro hmem
            obtain ⟨q, hq, heq⟩ := List.mem_map.mp hmem
            exact hnew (heq ▸ ccsid_mem_of_scan (List.mem_of_mem_filter hq))
          rw [List.filter_cons_of_pos (by simpa using hkept), ih hrest]

/-- Never more than the number asked for goes, and all of it exactly when it ends a stack. -/
theorem held_dropStacks (itemID : Int) (l : List InventorySlot) {n : Int} (h0 : 0 ≤ n) :
    held im itemID l - n ≤ held im itemID (dropStacks im itemID l n) ∧
      (held im itemID (dropStacks im itemID l n) = held im itemID l - n ↔
        EndsStack im itemID l n) := by
  induction l generalizing n with
  | nil =>
      rw [dropStacks, EndsStack]
      omega
  | cons slot rest ih =>
      rw [dropStacks, EndsStack, held_cons]
      split
      · rw [held_cons]
        simp only [iff_true]
        omega
      · split
        · next hid =>
            have hq : slot.quantity im itemID = slot.getStackCount im := if_pos hid
            rw [hq]
            split
            · next hwhole =>
                have hrest := ih (n := n - slot.getStackCount im) (by omega)
                rw [and_iff_right hwhole, ← hrest.2]
                constructor
                · omega
                · constructor <;> intro heq <;> omega
            · next hpart =>
                rw [held_cons, hq]
                constructor
                · omega
                · constructor
                  · intro heq
                    omega
                  · intro hends
                    exact absurd hends.1 hpart
        · next hid =>
            have hq : slot.quantity im itemID = 0 := if_neg hid
            rw [held_cons, hq, ← (ih h0).2]
            constructor
            · have hle := (ih h0).1
              omega
            · constructor <;> intro heq <;> omega

/-- Where the number ends a stack, nothing has to shrink. -/
theorem dropStacks_eq_takeItems {itemID : Int} {l : List InventorySlot} {n : Int}
    (h : EndsStack im itemID l n) : dropStacks im itemID l n = takeItems im itemID l n := by
  induction l generalizing n with
  | nil => rfl
  | cons slot rest ih =>
      rw [EndsStack] at h
      rw [dropStacks, takeItems]
      split
      · rfl
      · next hn =>
          rw [if_neg hn] at h
          split
          · next hid =>
              rw [if_pos hid] at h
              rw [if_pos h.1, if_pos h.1, ih h.2]
          · next hid =>
              rw [if_neg hid] at h
              rw [ih h]

/-- Other items stay. -/
theorem filter_dropStacks (itemID : Int) (l : List InventorySlot) (n : Int) :
    (dropStacks im itemID l n).filter (fun s => s.iid ≠ itemID) =
      l.filter fun s => s.iid ≠ itemID := by
  induction l generalizing n with
  | nil => rfl
  | cons slot rest ih =>
      rw [dropStacks]
      split
      · rfl
      · split
        · next hid =>
            split
            · rw [ih, List.filter_cons_of_neg (by simp [hid])]
            · rfl
        · next hid =>
            rw [List.filter_cons_of_pos (by simp [hid]), List.filter_cons_of_pos (by simp [hid]),
              ih]

theorem held_dropStacks_other {itemID other : Int} (h : itemID ≠ other) (l : List InventorySlot)
    (n : Int) : held im itemID (dropStacks im other l n) = held im itemID l := by
  rw [← held_filter h, filter_dropStacks, held_filter h]

/-- Only the stacks of the item decide where a number ends. -/
theorem endsStack_filter {itemID other : Int} (h : itemID ≠ other) (l : List InventorySlot)
    (n : Int) : EndsStack im itemID (l.filter fun s => s.iid ≠ other) n ↔ EndsStack im itemID l n := by
  induction l generalizing n with
  | nil => exact Iff.rfl
  | cons slot rest ih =>
      by_cases hid : slot.iid = other
      · have hne : slot.iid ≠ itemID := fun h' => h (h'.symm.trans hid)
        rw [List.filter_cons_of_neg (by simp [hid]), ih, EndsStack, if_neg hne]
        split
        · next hn => exact iff_true_intro (endsStack_of_nonpos itemID rest hn)
        · exact Iff.rfl
      · rw [List.filter_cons_of_pos (by simp [hid]), EndsStack, EndsStack, ih, ih]

theorem endsStack_takeItems_other {itemID other : Int} (h : itemID ≠ other)
    (l : List InventorySlot) (n k : Int) :
    EndsStack im itemID (takeItems im other l n) k ↔ EndsStack im itemID l k := by
  rw [← endsStack_filter h, filter_takeItems, endsStack_filter h]

theorem endsStack_dropStacks_other {itemID other : Int} (h : itemID ≠ other)
    (l : List InventorySlot) (n k : Int) :
    EndsStack im itemID (dropStacks im other l n) k ↔ EndsStack im itemID l k := by
  rw [← endsStack_filter h, filter_dropStacks, endsStack_filter h]

/-- Taking a number first and some more after it ends where both together end. -/
theorem endsStack_takeItems {itemID : Int} (l : List InventorySlot) {n k : Int} (hn : 0 ≤ n)
    (hk : 1 ≤ k) : EndsStack im itemID (takeItems im itemID l n) k ↔
      EndsStack im itemID l (n + k) := by
  induction l generalizing n with
  | nil =>
      rw [takeItems, EndsStack, EndsStack]
      omega
  | cons slot rest ih =>
      rw [takeItems]
      split
      · next hzero =>
          rw [le_antisymm hzero hn, zero_add]
      · split
        · next hid =>
            split
            · next hwhole =>
                rw [ih (n := n - slot.getStackCount im) (by omega), EndsStack, if_neg (by omega),
                  if_pos hid, and_iff_right (by omega), sub_add_eq_add_sub]
            · next hpart =>
                have hnew : InventorySlot.getStackCount im
                    { slot with count := slot.count - n } = slot.getStackCount im - n :=
                  getStackCount_sub (by omega) n
                have hk0 : ¬k ≤ 0 := by omega
                have hsum0 : ¬n + k ≤ 0 := by omega
                rw [EndsStack, EndsStack, if_neg hk0, if_neg hsum0, if_pos hid, if_pos hid, hnew]
                have hsum : k - (slot.getStackCount im - n) = n + k - slot.getStackCount im := by
                  omega
                rw [hsum]
                constructor <;> intro hends <;> exact ⟨by omega, hends.2⟩
        · next hid =>
            have hk0 : ¬k ≤ 0 := by omega
            have hsum0 : ¬n + k ≤ 0 := by omega
            rw [EndsStack, EndsStack, ih hn, if_neg hk0, if_neg hsum0, if_neg hid, if_neg hid]

/-! ### Adding to one container -/

/-- A successful `AddItem_Ex` adds to its container exactly what was asked for. -/
theorem held_addItemEx {inv inv' : InventoryManager} {c : ContainerID} {itemID count : Int} {i : Nat}
    (hcount : 1 ≤ lotSize im itemID count)
    (h : inv.addItemEx im now c itemID count = (some i, inv')) (other : Int) :
    held im other (inv'.containerList c) =
      held im other (inv.containerList c) + if itemID = other then lotSize im itemID count else 0 := by
  obtain ⟨d, hd, ⟨s, hs, hid, hst, rfl⟩ | ⟨-, n, -, rfl, rfl⟩⟩ := addItemEx_cases h
  · rw [modifySlot, setContainer_self, held, held, sum_map_modify hs, lotSize_grown hd hst hid]
  · rw [containerList_addItem, Function.update_self, held, held, List.map_append, List.sum_append,
      List.map_singleton, List.sum_singleton, lotSize_newSlot hd hcount]

/-- A successful `AddItem_Ex` keeps the numbering of its container where slot numbers have sixteen
bits. -/
theorem Placed.addItemEx {inv inv' : InventoryManager} {c : ContainerID} {itemID count : Int}
    {i : Nat} (hplaced : Placed c (inv.containerList c)) (hslots : inv.maxContainerSlot c ≤ 65536)
    (h : inv.addItemEx im now c itemID count = (some i, inv')) :
    Placed c (inv'.containerList c) := by
  obtain ⟨d, -, ⟨s, -, -, -, rfl⟩ | ⟨-, n, hn, -, rfl⟩⟩ := addItemEx_cases h
  · rw [modifySlot, setContainer_self]
    exact hplaced.modify i fun _ => rfl
  · rw [containerList_addItem, Function.update_self]
    have hfree := getFreeSlot_free hn
    have hlt : n < 65536 := by
      unfold getFreeSlot at hn
      split at hn
      · cases hn
      · have hmem := List.mem_of_find?_eq_some hn
        exact lt_of_lt_of_le (List.mem_range.mp hmem) hslots
    refine hplaced.append (newSlot_spec c n d itemID count).1 fun other hother => ?_
    rw [Nat.mod_eq_of_lt hlt]
    exact hfree other hother

end InventoryManager

end Iceee
