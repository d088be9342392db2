import Iceee.Inventory.Refashion

/-!
# Exactness of a refashioning

`ItemMorph` does what it should where the pointer to the original slot still points to it at the
end: the look item, and a refashioner that is used up, do not lie in front of it.

## Main results

* `itemMorph_exact_iff`: the queries that are answered exactly.
-/

namespace Iceee.Refashion

open Lib InventoryManager

section Exact

variable (im : ItemManager) (s : MorphState) (plan : MorphPlan)

/-- What a query names: its two slots by their CCSIDs, who refashions, and the price. -/
structure MorphPlan.Named (q : MorphQuery) : Prop where
  orig : deref s.inv plan.orig = some plan.origSlot
  look : deref s.inv plan.look = some plan.lookSlot
  origCCSID : plan.origSlot.ccsid = q.origLook % 2 ^ 32
  lookCCSID : plan.lookSlot.ccsid = q.newLook % 2 ^ 32
  reagent : findRefashioner im s q = .ok plan.reagent
  cost : ∃ itemPtr1 ∈ im.getPointerByID plan.origSlot.iid,
    ∃ itemPtr2 ∈ im.getPointerByID plan.lookSlot.iid,
      plan.cost = if plan.reagent.isSome then 0
        else (wrap32 (itemPtr1.mValue + itemPtr2.mValue)).tdiv 2
  afforded : plan.cost ≤ s.copper

/-- A slot after its look was changed, if it is the original one. -/
def MorphPlan.relook (slot : InventorySlot) : InventorySlot :=
  if slot.ccsid = plan.origSlot.ccsid then { slot with customLook := plan.customLook } else slot

/-- A container without the look item. -/
def withoutLook (c : ContainerID) : List InventorySlot :=
  (s.inv.containerList c).filter fun slot => slot.ccsid ≠ plan.lookSlot.ccsid

/-- A container without the look item, where the original one has its look. -/
def relooked (c : ContainerID) : List InventorySlot := (withoutLook s plan c).map plan.relook

/-- More than one of the item can be in a stack. -/
def Reagent.Stackable (r : Reagent) : Prop :=
  r.reagentDef.mIvType1 = .stacking ∧ 1 < r.reagentDef.mIvMax1

/-- One of an item was taken. -/
def UsesUnit (itemID : Int) (l l' : List InventorySlot) : Prop :=
  ∃ front slot rest, l = front ++ slot :: rest ∧ slot.iid = itemID ∧
    (slot.getStackCount im = 1 ∧ l' = front ++ rest ∨
      1 < slot.getStackCount im ∧ l' = front ++ { slot with count := slot.count - 1 } :: rest)

/-- What a refashioning should do. -/
structure Exact (s' : MorphState) (updates : List ItemUpdate) : Prop where
  different : plan.look ≠ plan.orig
  items : ∀ c ≠ invContainer, s'.inv.containerList c = relooked s plan c
  unit : ∀ r ∈ plan.reagent, r.Stackable → UsesUnit im r.reagentDef.mID
    (relooked s plan invContainer) (s'.inv.containerList invContainer)
  kept : (∀ r ∈ plan.reagent, ¬r.Stackable) →
    s'.inv.containerList invContainer = relooked s plan invContainer
  copper : s'.copper = s.copper - plan.cost
  update : ∃ slot ∈ s'.inv.containerList plan.orig.container,
    slot.ccsid = plan.origSlot.ccsid ∧ slot.customLook = plan.customLook ∧
      updates.getLast? = some (.add (some slot))

/-- A query is refused and changes nothing, or is answered as it should be. -/
def Proper (q : MorphQuery) (s' : MorphState) : Except Int (List ItemUpdate) → Prop
  | .error _ => s' = s
  | .ok updates => ∃ plan, checkMorph im s q = .ok plan ∧ plan.Named im s q ∧
      Exact im s plan s' updates

/-- No slot up to the original one has this CCSID. -/
def NotBefore (ccsid : Nat) : Prop :=
  ccsid ∉ ((s.inv.containerList plan.orig.container).map InventorySlot.ccsid).take
    (plan.orig.index + 1)

/-- The look item does not lie before the original one; of a refashioner that stacks a unit is left,
and if that is its last it does not lie before the original one either; of another refashioner that
would be used up nothing is left. Paying leaves an `int`. -/
structure Good : Prop where
  look : NotBefore s plan plan.lookSlot.ccsid
  unit : ∀ r ∈ plan.reagent, r.Stackable → r.unstack = true ∧
    ∃ slot, (withoutLook s plan invContainer).find? (fun slot => slot.iid == r.reagentDef.mID) =
        some slot ∧ 1 ≤ slot.getStackCount im ∧
      (slot.getStackCount im = 1 → NotBefore s plan slot.ccsid)
  other : ∀ r ∈ plan.reagent, ¬r.Stackable → r.unstack = true →
    ∀ slot ∈ withoutLook s plan invContainer, slot.iid ≠ r.reagentDef.mID
  copper : InInt32 (s.copper - plan.cost)

end Exact

/-! ### Taking one item -/

section Unit

variable {im : ItemManager} {itemID : Int} {l front rest : List InventorySlot}
  {slot : InventorySlot}

theorem takeItems_of_ne (n : Int) (h : ∀ slot ∈ l, slot.iid ≠ itemID) :
    takeItems im itemID l n = l := by
  induction l with
  | nil => rfl
  | cons slot rest ih =>
      obtain ⟨hslot, hrest⟩ := List.forall_mem_cons.mp h
      rw [takeItems, if_neg hslot, ih hrest, ite_self]

theorem takeItems_one (hfront : ∀ slot ∈ front, slot.iid ≠ itemID) (hslot : slot.iid = itemID) :
    takeItems im itemID (front ++ slot :: rest) 1 =
      front ++ if 1 ≥ slot.getStackCount im then
        takeItems im itemID rest (1 - slot.getStackCount im)
      else { slot with count := slot.count - 1 } :: rest := by
  have hone : ¬(1 : Int) ≤ 0 := by decide
  induction front with
  | nil =>
      rw [List.nil_append, List.nil_append, takeItems, if_neg hone, if_pos hslot]
  | cons other front ih =>
      obtain ⟨hother, hfront⟩ := List.forall_mem_cons.mp hfront
      rw [List.cons_append, takeItems, if_neg hone, if_neg hother, ih hfront, List.cons_append]

theorem takeItems_last (hfront : ∀ slot ∈ front, slot.iid ≠ itemID) (hslot : slot.iid = itemID)
    (hone : slot.getStackCount im = 1) :
    takeItems im itemID (front ++ slot :: rest) 1 = front ++ rest := by
  rw [takeItems_one hfront hslot, hone, if_pos le_rfl, sub_self,
    takeItems_of_nonpos itemID rest le_rfl]

theorem takeItems_more (hfront : ∀ slot ∈ front, slot.iid ≠ itemID) (hslot : slot.iid = itemID)
    (hmore : 1 < slot.getStackCount im) :
    takeItems im itemID (front ++ slot :: rest) 1 =
      front ++ { slot with count := slot.count - 1 } :: rest := by
  rw [takeItems_one hfront hslot, if_neg (not_le.mpr hmore)]

variable (im) in
/-- A first stack that holds nothing is gone. -/
theorem ccsid_notMem_takeItems (hd : NodupKeys InventorySlot.ccsid (front ++ slot :: rest))
    (hfront : ∀ slot ∈ front, slot.iid ≠ itemID) (hslot : slot.iid = itemID)
    (hle : slot.getStackCount im ≤ 1) :
    slot.ccsid ∉ (takeItems im itemID (front ++ slot :: rest) 1).map InventorySlot.ccsid := by
  rw [takeItems_one hfront hslot, if_pos hle]
  unfold NodupKeys at hd
  rw [List.map_append, List.map_cons, List.nodup_middle, List.nodup_cons] at hd
  intro hmem
  rw [List.map_append] at hmem
  apply hd.1
  rcases List.mem_append.mp hmem with hmem | hmem
  · exact List.mem_append_left _ hmem
  · exact List.mem_append_right _ ((sublist_takeItems itemID rest _).subset hmem)

theorem find?_iid_eq_some :
    l.find? (fun slot => slot.iid == itemID) = some slot ↔
      slot.iid = itemID ∧ ∃ front rest, l = front ++ slot :: rest ∧
        ∀ other ∈ front, other.iid ≠ itemID := by
  simp only [List.find?_eq_some_iff_append, beq_iff_eq, Bool.not_eq_true', beq_eq_false_iff_ne]

theorem exists_find?_iid (hmem : slot ∈ l) (hslot : slot.iid = itemID) :
    ∃ first, l.find? (fun slot => slot.iid == itemID) = some first :=
  Option.isSome_iff_exists.mp (List.find?_isSome.mpr ⟨slot, hmem, by simpa using hslot⟩)

/-- Exactly one of an item is taken where its first stack holds something. -/
theorem usesUnit_takeItems_iff (hd : NodupKeys InventorySlot.ccsid l) :
    UsesUnit im itemID l (takeItems im itemID l 1) ↔
      ∃ slot, l.find? (fun slot => slot.iid == itemID) = some slot ∧ 1 ≤ slot.getStackCount im := by
  constructor
  · rintro ⟨front, slot, rest, hl, hslot, htaken⟩
    have hmem : slot ∈ l := hl ▸ List.mem_append_right _ List.mem_cons_self
    obtain ⟨first, hfirst⟩ := exists_find?_iid hmem hslot
    refine ⟨first, hfirst, ?_⟩
    by_contra hempty
    obtain ⟨hiid, before, behind, rfl, hbefore⟩ := find?_iid_eq_some.mp hfirst
    -- an empty first stack vanishes, so it is the stack that was taken from
    have hgone := ccsid_notMem_takeItems im hd hbefore hiid (by omega)
    have hkept : first.ccsid ∈ (front ++ slot :: rest).map InventorySlot.ccsid :=
      hl ▸ List.mem_map_of_mem (List.mem_append_right _ List.mem_cons_self)
    rw [List.map_append, List.map_cons, List.mem_append, List.mem_cons] at hkept
    obtain ⟨hone, htaken⟩ | ⟨-, htaken⟩ := htaken
    · rw [htaken, List.map_append, List.mem_append] at hgone
      have hsame : first.ccsid = slot.ccsid := by tauto
      have heq : first = slot := List.inj_on_of_nodup_map hd
        (List.mem_append_right _ List.mem_cons_self) hmem hsame
      rw [heq] at hempty
      omega
    · rw [htaken, List.map_append, List.map_cons, List.mem_append, List.mem_cons] at hgone
      exact hgone hkept
  · rintro ⟨slot, hfind, hle⟩
    obtain ⟨hiid, front, rest, rfl, hfront⟩ := find?_iid_eq_some.mp hfind
    refine ⟨front, slot, rest, rfl, hiid, ?_⟩
    obtain hone | hmore := eq_or_lt_of_le hle
    · exact .inl ⟨hone.symm, takeItems_last hfront hiid hone.symm⟩
    · exact .inr ⟨hmore, takeItems_more hfront hiid hmore⟩

theorem takeItems_one_eq_self_iff (hd : NodupKeys InventorySlot.ccsid l) :
    takeItems im itemID l 1 = l ↔ ∀ slot ∈ l, slot.iid ≠ itemID := by
  refine ⟨fun hself slot hslot hiid => ?_, takeItems_of_ne 1⟩
  obtain ⟨first, hfirst⟩ := exists_find?_iid hslot hiid
  obtain ⟨hiid, front, rest, rfl, hfront⟩ := find?_iid_eq_some.mp hfirst
  obtain hle | hmore := le_or_gt (first.getStackCount im) 1
  · apply ccsid_notMem_takeItems im hd hfront hiid hle
    rw [hself]
    exact List.mem_map_of_mem (List.mem_append_right _ List.mem_cons_self)
  · rw [takeItems_more hfront hiid hmore] at hself
    have hhead := (List.cons.inj (List.append_cancel_left hself)).1
    have hcount := congrArg InventorySlot.count hhead
    dsimp only at hcount
    omega

/-- One item fewer: of the CCSIDs only that of an emptied stack is gone. -/
theorem map_ccsid_takeItems (hd : NodupKeys InventorySlot.ccsid l)
    (hfind : l.find? (fun slot => slot.iid == itemID) = some slot)
    (hle : 1 ≤ slot.getStackCount im) :
    (takeItems im itemID l 1).map InventorySlot.ccsid =
      (l.map InventorySlot.ccsid).filter
        fun ccsid => ¬(slot.getStackCount im = 1 ∧ ccsid = slot.ccsid) := by
  obtain ⟨hiid, front, rest, rfl, hfront⟩ := find?_iid_eq_some.mp hfind
  obtain hone | hmore := eq_or_lt_of_le hle
  · have hgone : NodupKeys InventorySlot.ccsid (front ++ slot :: rest) := hd
    unfold NodupKeys at hgone
    rw [List.map_append, List.map_cons, List.nodup_middle, List.nodup_cons,
      ← List.map_append] at hgone
    have hkept : ((front ++ rest).map InventorySlot.ccsid).filter
        (fun ccsid => ¬(slot.getStackCount im = 1 ∧ ccsid = slot.ccsid)) =
          (front ++ rest).map InventorySlot.ccsid := by
      rw [List.filter_eq_self]
      intro ccsid hccsid
      apply decide_eq_true
      rintro ⟨-, rfl⟩
      exact hgone.1 hccsid
    rw [takeItems_last hfront hiid hone.symm, ← hkept]
    simp [hone.symm]
  · have hkept : ∀ ccsid ∈ (front ++ slot :: rest).map InventorySlot.ccsid,
        decide (¬(slot.getStackCount im = 1 ∧ ccsid = slot.ccsid)) = true := by
      intro ccsid _
      apply decide_eq_true
      rintro ⟨hone, -⟩
      omega
    rw [takeItems_more hfront hiid hmore, List.filter_eq_self.mpr hkept]
    simp

theorem customLook_of_mem_takeItems {n : Int} (h : slot ∈ takeItems im itemID l n) :
    ∃ old ∈ l, old.ccsid = slot.ccsid ∧ old.customLook = slot.customLook := by
  induction l generalizing n with
  | nil => cases h
  | cons other rest ih =>
      have hlater {n : Int} (h : slot ∈ takeItems im itemID rest n) :
          ∃ old ∈ other :: rest, old.ccsid = slot.ccsid ∧ old.customLook = slot.customLook := by
        obtain ⟨old, hold, hsame⟩ := ih h
        exact ⟨old, List.mem_cons_of_mem _ hold, hsame⟩
      rw [takeItems] at h
      split at h
      · exact ⟨slot, h, rfl, rfl⟩
      · split at h
        · split at h
          · exact hlater h
          · obtain rfl | h := List.mem_cons.mp h
            · exact ⟨other, List.mem_cons_self, rfl, rfl⟩
            · exact ⟨slot, List.mem_cons_of_mem _ h, rfl, rfl⟩
        · obtain rfl | h := List.mem_cons.mp h
          · exact ⟨slot, List.mem_cons_self, rfl, rfl⟩
          · exact hlater h

end Unit

/-! ### The plan -/

section Plan

variable {im : ItemManager} {s : MorphState} {q : MorphQuery} {plan : MorphPlan}

theorem deref_ptrByCCSID {inv : InventoryManager} {ccsid : Nat} {p : SlotPtr}
    {slot : InventorySlot} (hp : ptrByCCSID inv ccsid = some p) (hslot : deref inv p = some slot) :
    slot.ccsid = ccsid := by
  obtain ⟨c, -, hindex⟩ := Option.bind_eq_some_iff.mp hp
  obtain ⟨i, hi, rfl⟩ := Option.map_eq_some_iff.mp hindex
  obtain ⟨hlt, hfound, -⟩ := List.findIdx?_eq_some_iff_getElem.mp hi
  obtain ⟨-, rfl⟩ := List.getElem?_eq_some_iff.mp hslot
  exact beq_iff_eq.mp hfound

theorem named_of_checkMorph (h : checkMorph im s q = .ok plan) : plan.Named im s q := by
  unfold checkMorph at h
  split at h
  · cases h
  · split at h
    · cases h
    · next reagent hreagent =>
        split at h
        · next orig look horig hlook =>
            split at h
            · next origSlot lookSlot horigSlot hlookSlot =>
                split at h
                · next itemPtr1 itemPtr2 hitem1 hitem2 =>
                    by_cases hafford : s.copper <
                        if reagent.isSome then 0
                        else (wrap32 (itemPtr1.mValue + itemPtr2.mValue)).tdiv 2
                    · rw [if_pos hafford] at h
                      cases h
                    · rw [if_neg hafford] at h
                      cases h
                      exact {
                        orig := horigSlot
                        look := hlookSlot
                        origCCSID := deref_ptrByCCSID horig horigSlot
                        lookCCSID := deref_ptrByCCSID hlook hlookSlot
                        reagent := hreagent
                        cost := ⟨itemPtr1, hitem1, itemPtr2, hitem2, rfl⟩
                        afforded := not_lt.mp hafford }
                · cases h
            · cases h
        · cases h

end Plan

/-! ### The containers afterwards -/

section Containers

variable {im : ItemManager} {now : Nat} {s : MorphState} {q : MorphQuery} {plan : MorphPlan}
  {c : ContainerID}

theorem containerList_remItem {inv : InventoryManager} (h : inv.WellPlaced) (ccsid : Nat)
    (c : ContainerID) :
    (inv.remItem ccsid).containerList c =
      (inv.containerList c).filter fun slot => slot.ccsid ≠ ccsid := by
  by_cases hc : ccsid / 65536 = c
  · rw [remItem, containerOf_eq hc]
    exact (setContainer_self _ _ _).trans ((h c).distinct.eraseP ccsid)
  · have hkept : (inv.containerList c).filter (fun slot => slot.ccsid ≠ ccsid) =
        inv.containerList c := by
      rw [List.filter_eq_self]
      intro slot hslot
      apply decide_eq_true
      rintro rfl
      exact hc ((h c).inContainer slot hslot)
    rw [hkept, remItem]
    cases hfound : containerOf ccsid with
    | none => rfl
    | some c' =>
        apply setContainer_other
        rintro rfl
        unfold containerOf at hfound
        split at hfound
        · cases hfound
          exact hc rfl
        · cases hfound

theorem relook_ccsid (slot : InventorySlot) : (plan.relook slot).ccsid = slot.ccsid := by
  unfold MorphPlan.relook
  split <;> rfl

theorem relook_iid (slot : InventorySlot) : (plan.relook slot).iid = slot.iid := by
  unfold MorphPlan.relook
  split <;> rfl

theorem relook_getStackCount (slot : InventorySlot) :
    (plan.relook slot).getStackCount im = slot.getStackCount im := by
  unfold MorphPlan.relook
  split <;> rfl

/-- The original slot of a plan gets its look. -/
theorem containerList_modifySlot_relook (hw : s.inv.WellPlaced)
    (horig : deref s.inv plan.orig = some plan.origSlot) (c : ContainerID) :
    (s.inv.modifySlot plan.orig.container plan.orig.index fun slot =>
      { slot with customLook := plan.customLook }).containerList c =
        (s.inv.containerList c).map plan.relook := by
  have hmem : plan.origSlot ∈ s.inv.containerList plan.orig.container :=
    List.mem_of_getElem? horig
  by_cases hc : c = plan.orig.container
  · subst hc
    rw [modifySlot, setContainer_self]
    have hd := (hw plan.orig.container).distinct
    have hindex : (s.inv.containerList plan.orig.container).findIdx
        (fun slot => slot.ccsid == plan.origSlot.ccsid) = plan.orig.index := by
      have hfind := hd.findIdx? horig
      rw [List.findIdx?_eq_some_iff_findIdx_eq] at hfind
      exact hfind.2
    have hmodify := hd.modify_findIdx plan.origSlot.ccsid fun slot =>
      { slot with customLook := plan.customLook }
    rw [hindex] at hmodify
    exact hmodify
  · rw [modifySlot, setContainer_other _ _ hc]
    have hsame : ∀ slot ∈ s.inv.containerList c, plan.relook slot = slot := by
      intro slot hslot
      apply if_neg
      intro heq
      apply hc
      apply Fin.ext
      rw [← (hw c).inContainer slot hslot, heq, (hw _).inContainer _ hmem]
    rw [List.map_congr_left hsame, List.map_id']

/-- The containers before a refashioner is used. -/
theorem containerList_relooked (hw : s.inv.WellPlaced) (hn : plan.Named im s q)
    (c : ContainerID) :
    ((s.inv.modifySlot plan.orig.container plan.orig.index fun slot =>
      { slot with customLook := plan.customLook }).remItem (q.newLook % 2 ^ 32)).containerList c =
        relooked s plan c := by
  have hplaced : (s.inv.modifySlot plan.orig.container plan.orig.index fun slot =>
      { slot with customLook := plan.customLook }).WellPlaced :=
    hw.modifySlot _ _ fun _ => rfl
  rw [containerList_remItem hplaced, containerList_modifySlot_relook hw hn.orig, relooked,
    withoutLook, List.filter_map, ← hn.lookCCSID]
  congr 1
  apply List.filter_congr
  intro slot _
  dsimp only [Function.comp_apply]
  rw [relook_ccsid]

/-- What the use of a refashioner leaves of a list. -/
def leftBy (im : ItemManager) : Option Reagent → List InventorySlot → List InventorySlot
  | some ⟨reagentDef, true⟩, l => takeItems im reagentDef.mID l 1
  | _, l => l

theorem containerList_useReagent {inv : InventoryManager}
    (h : Placed invContainer (inv.containerList invContainer)) (r : Option Reagent)
    (c : ContainerID) :
    (useReagent im now inv r).1.containerList c =
      if c = invContainer then leftBy im r (inv.containerList c) else inv.containerList c := by
  match r with
  | some ⟨reagentDef, true⟩ =>
      rw [useReagent, containerList_removeItemsAndUpdate h]
      by_cases hc : c = invContainer
      · subst hc
        rw [Function.update_self, if_pos rfl, leftBy]
      · rw [Function.update_of_ne hc, if_neg hc]
  | some ⟨_, false⟩ => exact (ite_self _).symm
  | none => exact (ite_self _).symm

/-- The containers at the end. -/
def final (im : ItemManager) (s : MorphState) (plan : MorphPlan) (c : ContainerID) :
    List InventorySlot :=
  if c = invContainer then leftBy im plan.reagent (relooked s plan c) else relooked s plan c

variable (plan) in
theorem placed_relooked (hw : s.inv.WellPlaced) (c : ContainerID) :
    Placed c (relooked s plan c) := by
  have hkept : Placed c (withoutLook s plan c) := (hw c).sublist List.filter_sublist
  have hccsid : (relooked s plan c).map InventorySlot.ccsid =
      (withoutLook s plan c).map InventorySlot.ccsid := by
    rw [relooked, List.map_map]
    apply List.map_congr_left
    intro slot _
    exact relook_ccsid slot
  constructor
  · intro slot hslot
    obtain ⟨old, hold, rfl⟩ := List.mem_map.mp hslot
    rw [relook_ccsid]
    exact hkept.inContainer old hold
  · unfold NodupKeys
    rw [hccsid]
    exact hkept.distinct

variable (now) in
theorem containerList_refashion (hw : s.inv.WellPlaced) (hn : plan.Named im s q)
    (c : ContainerID) :
    (refashion im now s q plan).1.inv.containerList c = final im s plan c := by
  have hlists := containerList_relooked hw hn
  have hplaced := placed_relooked plan hw invContainer
  rw [← hlists] at hplaced
  exact (containerList_useReagent hplaced plan.reagent c).trans (by rw [hlists, final])

theorem copper_refashion :
    (refashion im now s q plan).1.copper = wrap32 (s.copper - plan.cost) := rfl

/-- The client update ends with what the pointer to the original slot points to by then. -/
theorem getLast?_refashion (hw : s.inv.WellPlaced) (hn : plan.Named im s q) :
    (refashion im now s q plan).2.getLast? =
      some (.add (final im s plan plan.orig.container)[plan.orig.index]?) := by
  rw [← containerList_refashion now hw hn]
  unfold refashion
  dsimp only
  rw [← List.cons_append, List.getLast?_concat]
  rfl

end Containers

/-! ### The update of the original slot -/

section Update

variable {im : ItemManager} {now : Nat} {s : MorphState} {q : MorphQuery} {plan : MorphPlan}

theorem map_ccsid_relooked (c : ContainerID) :
    (relooked s plan c).map InventorySlot.ccsid =
      ((s.inv.containerList c).map InventorySlot.ccsid).filter (· ≠ plan.lookSlot.ccsid) := by
  rw [relooked, withoutLook, List.map_map, List.filter_map]
  exact List.map_congr_left fun slot _ => relook_ccsid slot

theorem find?_relooked (itemID : Int) (c : ContainerID) :
    (relooked s plan c).find? (fun slot => slot.iid == itemID) =
      ((withoutLook s plan c).find? fun slot => slot.iid == itemID).map plan.relook := by
  rw [relooked, List.find?_map]
  congr 2
  funext slot
  dsimp only [Function.comp_apply]
  rw [relook_iid]

theorem customLook_of_mem_final {slot : InventorySlot} {c : ContainerID}
    (hslot : slot ∈ final im s plan c) (hccsid : slot.ccsid = plan.origSlot.ccsid) :
    slot.customLook = plan.customLook := by
  have hrelooked (old : InventorySlot) (hold : old ∈ relooked s plan c)
      (hccsid : old.ccsid = plan.origSlot.ccsid) : old.customLook = plan.customLook := by
    obtain ⟨before, -, rfl⟩ := List.mem_map.mp hold
    rw [relook_ccsid] at hccsid
    rw [MorphPlan.relook, if_pos hccsid]
  unfold final leftBy at hslot
  split at hslot
  · split at hslot
    · obtain ⟨old, hold, hid, hlook⟩ := customLook_of_mem_takeItems hslot
      rw [← hlook]
      exact hrelooked old hold (hid.trans hccsid)
    · exact hrelooked slot hslot hccsid
  · exact hrelooked slot hslot hccsid

/-- The pointer to the original slot points to it at the end. -/
def Shown (im : ItemManager) (s : MorphState) (plan : MorphPlan) : Prop :=
  ((final im s plan plan.orig.container).map InventorySlot.ccsid)[plan.orig.index]? =
    some plan.origSlot.ccsid

theorem update_iff_shown :
    (∃ slot ∈ final im s plan plan.orig.container,
      slot.ccsid = plan.origSlot.ccsid ∧ slot.customLook = plan.customLook ∧
        some (ItemUpdate.add (final im s plan plan.orig.container)[plan.orig.index]?) =
          some (.add (some slot))) ↔ Shown im s plan := by
  rw [Shown, List.getElem?_map, Option.map_eq_some_iff]
  constructor
  · rintro ⟨slot, -, hccsid, -, hshown⟩
    exact ⟨slot, ItemUpdate.add.inj (Option.some.inj hshown), hccsid⟩
  · rintro ⟨slot, hshown, hccsid⟩
    have hmem := List.mem_of_getElem? hshown
    exact ⟨slot, hmem, hccsid, customLook_of_mem_final hmem hccsid, by rw [hshown]⟩

/-- The pointer is right exactly where no slot up to the original one is gone. -/
theorem shown_iff_of_keys (hw : s.inv.WellPlaced) (hn : plan.Named im s q) {p : Nat → Bool}
    (hkeys : (final im s plan plan.orig.container).map InventorySlot.ccsid =
      ((s.inv.containerList plan.orig.container).map InventorySlot.ccsid).filter p) :
    Shown im s plan ↔
      ∀ ccsid ∈ ((s.inv.containerList plan.orig.container).map InventorySlot.ccsid).take
        (plan.orig.index + 1), p ccsid = true := by
  have horig : ((s.inv.containerList plan.orig.container).map
      InventorySlot.ccsid)[plan.orig.index]? = some plan.origSlot.ccsid := by
    rw [List.getElem?_map]
    exact congrArg (Option.map InventorySlot.ccsid) hn.orig
  rw [Shown, hkeys]
  exact getElem?_filter_iff (hw plan.orig.container).distinct horig

theorem shown_iff_of_left (hw : s.inv.WellPlaced) (hn : plan.Named im s q)
    (hleft : leftBy im plan.reagent (relooked s plan invContainer) =
      relooked s plan invContainer) :
    Shown im s plan ↔ NotBefore s plan plan.lookSlot.ccsid := by
  have hfinal : final im s plan plan.orig.container = relooked s plan plan.orig.container := by
    unfold final
    split
    · next hc => rw [hc, hleft]
    · rfl
  rw [shown_iff_of_keys hw hn (hfinal ▸ map_ccsid_relooked plan.orig.container)]
  simp only [decide_eq_true_eq]
  exact ⟨fun h hmem => h _ hmem rfl, fun h ccsid hmem heq => h (heq ▸ hmem)⟩

/-- With a unit of the refashioner taken from a stack. -/
theorem shown_iff_of_unit (hw : s.inv.WellPlaced) (hn : plan.Named im s q) {r : Reagent}
    (hr : plan.reagent = some r) (hunstack : r.unstack = true) {slot : InventorySlot}
    (hfind : (withoutLook s plan invContainer).find?
      (fun slot => slot.iid == r.reagentDef.mID) = some slot)
    (hle : 1 ≤ slot.getStackCount im) :
    Shown im s plan ↔ NotBefore s plan plan.lookSlot.ccsid ∧
      (slot.getStackCount im = 1 → NotBefore s plan slot.ccsid) := by
  obtain ⟨reagentDef, unstack⟩ := r
  obtain rfl : unstack = true := hunstack
  have hfirst : (relooked s plan invContainer).find? (fun slot => slot.iid == reagentDef.mID) =
      some (plan.relook slot) := by
    rw [find?_relooked, hfind, Option.map_some]
  have hplaced := placed_relooked plan hw
  have hkeys : (final im s plan plan.orig.container).map InventorySlot.ccsid =
      ((relooked s plan plan.orig.container).map InventorySlot.ccsid).filter
        fun ccsid => ¬(slot.getStackCount im = 1 ∧ ccsid = slot.ccsid) := by
    unfold final
    split
    · next hc =>
        have hone : 1 ≤ (plan.relook slot).getStackCount im := by
          rw [relook_getStackCount]
          exact hle
        have htaken := map_ccsid_takeItems (hplaced invContainer).distinct hfirst hone
        rw [relook_getStackCount, relook_ccsid] at htaken
        rw [hr, hc, leftBy, htaken]
    · next hc =>
        refine (List.filter_eq_self.mpr fun ccsid hmem => decide_eq_true ?_).symm
        rintro ⟨-, rfl⟩
        -- the stack lies in another container than the original slot
        obtain ⟨other, hother, hsame⟩ := List.mem_map.mp hmem
        have hin := (hplaced invContainer).inContainer _ (List.mem_of_find?_eq_some hfirst)
        rw [relook_ccsid, ← hsame, (hplaced plan.orig.container).inContainer other hother] at hin
        exact hc (Fin.ext hin)
  rw [map_ccsid_relooked, List.filter_filter] at hkeys
  rw [shown_iff_of_keys hw hn hkeys]
  simp only [Bool.and_eq_true, decide_eq_true_eq]
  constructor
  · intro h
    exact ⟨fun hmem => (h _ hmem).2 rfl, fun hone hmem => (h _ hmem).1 ⟨hone, rfl⟩⟩
  · rintro ⟨hlook, hunit⟩ ccsid hmem
    exact ⟨fun ⟨hone, heq⟩ => hunit hone (heq ▸ hmem), fun heq => hlook (heq ▸ hmem)⟩

end Update

/-! ### Exactness -/

section Main

variable {im : ItemManager} {now : Nat} {s : MorphState} {q : MorphQuery} {plan : MorphPlan}

/-- Where the pointer is right, the look item is another one than the original. -/
theorem Shown.different (hn : plan.Named im s q) (h : Shown im s plan) :
    plan.look ≠ plan.orig := by
  intro heq
  have hsame : plan.lookSlot = plan.origSlot :=
    Option.some.inj (hn.look.symm.trans (heq ▸ hn.orig))
  have hmem := List.mem_of_getElem? h
  have hsub : plan.origSlot.ccsid ∈
      (relooked s plan plan.orig.container).map InventorySlot.ccsid := by
    unfold final leftBy at hmem
    split at hmem
    · split at hmem
      · exact (sublist_takeItems _ _ _).subset hmem
      · exact hmem
    · exact hmem
  rw [map_ccsid_relooked, List.mem_filter, hsame] at hsub
  exact of_decide_eq_true hsub.2 rfl

/-- What is left to show of an answered query. -/
theorem exact_iff_shown (hw : s.inv.WellPlaced) (hn : plan.Named im s q) :
    Exact im s plan (refashion im now s q plan).1 (refashion im now s q plan).2 ↔
      Shown im s plan ∧
      (∀ r ∈ plan.reagent, r.Stackable → UsesUnit im r.reagentDef.mID
        (relooked s plan invContainer)
        (leftBy im plan.reagent (relooked s plan invContainer))) ∧
      ((∀ r ∈ plan.reagent, ¬r.Stackable) →
        leftBy im plan.reagent (relooked s plan invContainer) = relooked s plan invContainer) ∧
      InInt32 (s.copper - plan.cost) := by
  have hlists := containerList_refashion now hw hn
  have hbag : (refashion im now s q plan).1.inv.containerList invContainer =
      leftBy im plan.reagent (relooked s plan invContainer) := (hlists _).trans (if_pos rfl)
  constructor
  · intro h
    refine ⟨update_iff_shown.mp ?_, hbag ▸ h.unit, hbag ▸ h.kept, ?_⟩
    · have hupdate := h.update
      rw [getLast?_refashion hw hn, hlists] at hupdate
      exact hupdate
    · rw [← h.copper, copper_refashion]
      exact wrap32_inInt32 _
  · rintro ⟨hshown, hunit, hkept, hcopper⟩
    exact {
      different := hshown.different hn
      items := fun c hc => (hlists c).trans (if_neg hc)
      unit := hbag ▸ hunit
      kept := hbag ▸ hkept
      copper := copper_refashion.trans (wrap32_eq hcopper)
      update := by
        rw [getLast?_refashion hw hn, hlists]
        exact update_iff_shown.mpr hshown }

theorem good_iff_of_unused (hw : s.inv.WellPlaced) (hn : plan.Named im s q)
    (hr : ∀ r ∈ plan.reagent, r.unstack = false) :
    Exact im s plan (refashion im now s q plan).1 (refashion im now s q plan).2 ↔
      Good im s plan := by
  have hleft : leftBy im plan.reagent (relooked s plan invContainer) =
      relooked s plan invContainer := by
    cases hreagent : plan.reagent with
    | none => rfl
    | some r =>
        obtain ⟨reagentDef, unstack⟩ := r
        obtain rfl : unstack = false := hr _ hreagent
        rfl
  rw [exact_iff_shown hw hn, shown_iff_of_left hw hn hleft, hleft]
  constructor
  · rintro ⟨hlook, hunit, -, hcopper⟩
    refine ⟨hlook, fun r hmem hstack => ?_, fun r hmem _ hunstack => ?_, hcopper⟩
    · obtain ⟨front, slot, rest, hl, -, htaken⟩ := hunit r hmem hstack
      -- a list is not itself with one item fewer
      obtain ⟨-, htaken⟩ | ⟨-, htaken⟩ := htaken
      · have hlength := congrArg List.length (hl.symm.trans htaken)
        rw [List.length_append, List.length_append, List.length_cons] at hlength
        omega
      · have hhead := (List.cons.inj (List.append_cancel_left (hl.symm.trans htaken))).1
        have hcount := congrArg InventorySlot.count hhead
        dsimp only at hcount
        omega
    · rw [hr r hmem] at hunstack
      cases hunstack
  · intro hgood
    refine ⟨hgood.look, fun r hmem hstack => ?_, fun _ => rfl, hgood.copper⟩
    have hunstack := (hgood.unit r hmem hstack).1
    rw [hr r hmem] at hunstack
    cases hunstack

variable (im) in
/-- A refashioner that is to be used up leaves what taking one of it leaves. -/
theorem leftBy_of_used {r : Reagent} (hr : plan.reagent = some r) (hunstack : r.unstack = true)
    (l : List InventorySlot) : leftBy im plan.reagent l = takeItems im r.reagentDef.mID l 1 := by
  obtain ⟨reagentDef, unstack⟩ := r
  obtain rfl : unstack = true := hunstack
  rw [hr, leftBy]

theorem good_iff_of_stack (hw : s.inv.WellPlaced) (hn : plan.Named im s q) {r : Reagent}
    (hr : plan.reagent = some r) (hunstack : r.unstack = true) (hstack : r.Stackable) :
    Exact im s plan (refashion im now s q plan).1 (refashion im now s q plan).2 ↔
      Good im s plan := by
  have htaken := leftBy_of_used im hr hunstack (relooked s plan invContainer)
  have hd := (placed_relooked plan hw invContainer).distinct
  rw [exact_iff_shown hw hn, htaken]
  constructor
  · rintro ⟨hshown, hunit, -, hcopper⟩
    obtain ⟨slot, hfirst, hle⟩ := (usesUnit_takeItems_iff hd).mp (hunit r hr hstack)
    rw [find?_relooked] at hfirst
    obtain ⟨slot, hfind, rfl⟩ := Option.map_eq_some_iff.mp hfirst
    rw [relook_getStackCount] at hle
    obtain ⟨hlook, hlast⟩ := (shown_iff_of_unit hw hn hr hunstack hfind hle).mp hshown
    refine ⟨hlook, fun r' hmem _ => ?_, fun r' hmem hother => ?_, hcopper⟩
    · obtain rfl := Option.some.inj (hr.symm.trans hmem)
      exact ⟨hunstack, slot, hfind, hle, hlast⟩
    · obtain rfl := Option.some.inj (hr.symm.trans hmem)
      exact (hother hstack).elim
  · intro hgood
    obtain ⟨-, slot, hfind, hle, hlast⟩ := hgood.unit r hr hstack
    have hshown := (shown_iff_of_unit hw hn hr hunstack hfind hle).mpr ⟨hgood.look, hlast⟩
    refine ⟨hshown, fun r' hmem _ => ?_, fun hother => (hother r hr hstack).elim, hgood.copper⟩
    obtain rfl := Option.some.inj (hr.symm.trans hmem)
    refine (usesUnit_takeItems_iff hd).mpr ⟨plan.relook slot, ?_, ?_⟩
    · rw [find?_relooked, hfind, Option.map_some]
    · rw [relook_getStackCount]
      exact hle

theorem good_iff_of_other (hw : s.inv.WellPlaced) (hn : plan.Named im s q) {r : Reagent}
    (hr : plan.reagent = some r) (hunstack : r.unstack = true) (hother : ¬r.Stackable) :
    Exact im s plan (refashion im now s q plan).1 (refashion im now s q plan).2 ↔
      Good im s plan := by
  have htaken := leftBy_of_used im hr hunstack (relooked s plan invContainer)
  have hd := (placed_relooked plan hw invContainer).distinct
  have honly : ∀ r' ∈ plan.reagent, r' = r := fun r' hmem =>
    Option.some.inj (hmem.symm.trans hr)
  have hnone : takeItems im r.reagentDef.mID (relooked s plan invContainer) 1 =
      relooked s plan invContainer ↔
        ∀ slot ∈ withoutLook s plan invContainer, slot.iid ≠ r.reagentDef.mID := by
    rw [takeItems_one_eq_self_iff hd, relooked, List.forall_mem_map]
    simp only [relook_iid]
  rw [exact_iff_shown hw hn]
  constructor
  · rintro ⟨hshown, -, hkept, hcopper⟩
    have hself := hkept fun r' hmem => honly r' hmem ▸ hother
    refine ⟨(shown_iff_of_left hw hn hself).mp hshown, fun r' hmem hstack => ?_,
      fun r' hmem _ _ => ?_, hcopper⟩
    · exact (hother (honly r' hmem ▸ hstack)).elim
    · rw [honly r' hmem]
      exact hnone.mp (htaken.symm.trans hself)
  · intro hgood
    have hself := htaken.trans (hnone.mpr (hgood.other r hr hother hunstack))
    refine ⟨(shown_iff_of_left hw hn hself).mpr hgood.look, fun r' hmem hstack => ?_,
      fun _ => hself, hgood.copper⟩
    exact (hother (honly r' hmem ▸ hstack)).elim

theorem exact_refashion_iff (hw : s.inv.WellPlaced) (hn : plan.Named im s q) :
    Exact im s plan (refashion im now s q plan).1 (refashion im now s q plan).2 ↔
      Good im s plan := by
  by_cases hused : ∃ r ∈ plan.reagent, r.unstack = true
  · obtain ⟨r, hr, hunstack⟩ := hused
    by_cases hstack : r.Stackable
    · exact good_iff_of_stack hw hn hr hunstack hstack
    · exact good_iff_of_other hw hn hr hunstack hstack
  · refine good_iff_of_unused hw hn fun r hr => ?_
    rw [← Bool.not_eq_true]
    exact fun hunstack => hused ⟨r, hr, hunstack⟩

/-- A query is answered exactly where the original slot stays where it was found, and the right
unit of a refashioner is there. -/
theorem itemMorph_exact_iff (hw : s.inv.WellPlaced) :
    Proper im s q (itemMorph im now s q).1 (itemMorph im now s q).2 ↔
      ∀ plan, checkMorph im s q = .ok plan → Good im s plan := by
  unfold itemMorph
  cases hcheck : checkMorph im s q with
  | error code => exact iff_of_true rfl fun _ h => nomatch h
  | ok plan =>
      have hn := named_of_checkMorph hcheck
      constructor
      · rintro ⟨plan', hplan, -, hexact⟩ other hother
        obtain rfl := Except.ok.inj (hcheck.symm.trans hplan)
        obtain rfl := Except.ok.inj hother
        exact (exact_refashion_iff hw hn).mp hexact
      · intro hgood
        exact ⟨plan, hcheck, hn, (exact_refashion_iff hw hn).mpr (hgood plan rfl)⟩

end Main

/-! ### Two hats and a helmet -/

def hats : ItemManager :=
  ItemManager.ofList [{ mID := 5, mValue := 20 }, { mID := 6, mValue := 41 }]

/-- A hat of kind 6, the helmet, and another hat of kind 6. -/
def hatBox : MorphState where
  inv := ({} : InventoryManager).setContainer invContainer
    [{ ccsid := 1, iid := 6 }, { ccsid := 2, iid := 5 }, { ccsid := 3, iid := 6 }]
  copper := 100

theorem hatBox_wellPlaced : hatBox.inv.WellPlaced := by
  have hempty : ({} : InventoryManager).WellPlaced :=
    fun c => ⟨fun _ h => (List.not_mem_nil h).elim, List.nodup_nil⟩
  refine hempty.setContainer ⟨?_, ?_⟩
  · decide
  · unfold NodupKeys
    decide

/-- The hat behind the helmet gives its look. -/
theorem itemMorph_exact_iff_behind :
    Proper hats hatBox { command := true, origLook := 2, newLook := 3 }
      (itemMorph hats 0 hatBox { command := true, origLook := 2, newLook := 3 }).1
      (itemMorph hats 0 hatBox { command := true, origLook := 2, newLook := 3 }).2 := by
  refine (itemMorph_exact_iff hatBox_wellPlaced).mpr fun plan hplan => ?_
  have hcheck : checkMorph hats hatBox { command := true, origLook := 2, newLook := 3 } =
      .ok ⟨⟨invContainer, 1⟩, ⟨invContainer, 2⟩, { ccsid := 2, iid := 5 }, { ccsid := 3, iid := 6 },
        30, none⟩ := by
    decide
  obtain rfl := Except.ok.inj (hcheck.symm.trans hplan)
  exact {
    look := by
      unfold NotBefore
      decide
    unit := fun _ hr => (nomatch hr)
    other := fun _ hr => (nomatch hr)
    copper := by decide }

/-- The hat before the helmet gives its look, and the client is told of the other hat. -/
theorem helmet_misreported : ¬∀ (im : ItemManager) (now : Nat) (s : MorphState) (q : MorphQuery),
    s.inv.WellPlaced → Proper im s q (itemMorph im now s q).1 (itemMorph im now s q).2 := by
  intro h
  have hproper := h hats 0 hatBox { command := true, origLook := 2, newLook := 1 } hatBox_wellPlaced
  have hanswer : (itemMorph hats 0 hatBox { command := true, origLook := 2, newLook := 1 }).2 =
      .ok [.remove 1, .add (some { ccsid := 3, iid := 6 })] := by
    decide
  rw [hanswer] at hproper
  obtain ⟨plan, -, hn, hexact⟩ := hproper
  obtain ⟨slot, -, hccsid, -, hlast⟩ := hexact.update
  have hslot : ({ ccsid := 3, iid := 6 } : InventorySlot) = slot :=
    Option.some.inj (ItemUpdate.add.inj (Option.some.inj hlast))
  rw [← hslot, hn.origCCSID] at hccsid
  exact absurd hccsid (by decide)

end Iceee.Refashion
