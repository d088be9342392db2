import Iceee.Inventory.Stacks

/-!
# What a move leaves unchanged

`ItemMove` returns how many bytes of item updates it wrote, or a code that is not positive. Its
effects exchange the entries of the origin and the destination slot for others of the same
quantity.

## Main statements

* `CharacterState.itemMove_conserves`: a positive result conserves every item, no other stack
  changes and no stack grows beyond its maximum; any other result changes nothing.
-/

namespace Iceee

open Lib InventoryManager

variable {im : ItemManager}

namespace InventorySlot

/-- The bytes of `RemoveItemUpdate`: type, size, the CCSID as a text, mask and flags. -/
def removeItemUpdateSize (ccsid : Nat) : Nat := 1 + 2 + (1 + (Nat.toDigits 16 ccsid).length) + 1 + 1

/-- The bytes of `AddItemUpdate`: after mask and flags come the item, its look, two values, the
binding and the time that remains. -/
def addItemUpdateSize (ccsid : Nat) : Nat :=
  1 + 2 + (1 + (Nat.toDigits 16 ccsid).length) + 1 + 1 + 4 + 4 + 2 + 2 + 1 + 4

/-- A stack holds at least one item and no more than its item allows. -/
def Within (im : ItemManager) (e : InventorySlot) : Prop :=
  stacking im e.iid = true → 1 ≤ e.getStackCount im ∧ e.getStackCount im ≤ e.getMaxStack im

/-- Only the item ID and the count are read. -/
theorem Within.congr {e e' : InventorySlot} (h : Within im e) (hiid : e'.iid = e.iid)
    (hcount : e'.count = e.count) : Within im e' := by
  unfold Within getStackCount getMaxStack at h ⊢
  rw [hiid, hcount]
  exact h

theorem getMaxStack_congr {e e' : InventorySlot} (hiid : e.iid = e'.iid) :
    e.getMaxStack im = e'.getMaxStack im := by
  rw [getMaxStack, getMaxStack, hiid]

theorem Within.setCount {e : InventorySlot} {n : Int}
    (h : 1 ≤ n + 1 ∧ n + 1 ≤ e.getMaxStack im) : Within im { e with count := n } := by
  intro hst
  rw [getStackCount_eq, if_pos hst]
  exact h

end InventorySlot

open InventorySlot

namespace CharacterState

/-- The CCSID of the entry at an index of a place. -/
def ccsidAt (s : CharacterState) (p : Place) (i : Nat) : Nat :=
  (((s.slotsAt p)[i]?).map InventorySlot.ccsid).getD 0

/-- The bytes that a move writes; updates of the destination are written on demand. -/
def moveUpdateSize (s : CharacterState) (m : MoveRequest) (updateDest : Bool) :
    MoveEffect → Nat
  | .merge i j _ =>
      (if updateDest then addItemUpdateSize (s.ccsidAt m.dest j) else 0) +
        removeItemUpdateSize (s.ccsidAt m.orig i)
  | .mergePart i j _ =>
      addItemUpdateSize (s.ccsidAt m.orig i) +
        (if updateDest then addItemUpdateSize (s.ccsidAt m.dest j) else 0)
  | .swap _ _ source dest =>
      removeItemUpdateSize source.ccsid +
        (if updateDest then removeItemUpdateSize dest.ccsid + addItemUpdateSize dest.ccsid else 0) +
        addItemUpdateSize source.ccsid
  | .relocate i => removeItemUpdateSize (s.ccsidAt m.orig i) + addItemUpdateSize m.destCCSID
  | .transfer _ source =>
      removeItemUpdateSize source.ccsid +
        (if updateDest then addItemUpdateSize m.destCCSID else 0)

theorem moveUpdateSize_pos (s : CharacterState) (m : MoveRequest) (updateDest : Bool)
    (eff : MoveEffect) : 0 < s.moveUpdateSize m updateDest eff := by
  cases eff <;> simp only [moveUpdateSize, removeItemUpdateSize, addItemUpdateSize] <;> omega

variable (im) in
/-- `ItemMove` with the number it returns. -/
def itemMoveResult (s : CharacterState) (stats : MoveStats) (m : MoveRequest)
    (updateDest : Bool) : Int × CharacterState :=
  match s.itemMoveEffect im stats m with
  | .error code => (code, s)
  | .ok eff => (s.moveUpdateSize m updateDest eff, s.applyEffect m eff)

/-! ### Refusals -/

variable {s : CharacterState} {stats : MoveStats} {m : MoveRequest}

theorem twoHandRefusal_neg {source : InventorySlot} {dest : Option (Nat × InventorySlot)}
    {code : Int} (h : s.twoHandRefusal im m source dest = some code) : code < 0 := by
  unfold twoHandRefusal at h
  split_ifs at h <;> cases h <;> decide

theorem swapRefusal_nonpos {dest : InventorySlot} {code : Int}
    (h : swapRefusal im stats m dest = some code) : code ≤ 0 := by
  unfold swapRefusal at h
  split_ifs at h with horig
  cases hd : im.getPointerByID dest.iid with
  | none =>
      simp only [hd, Option.some.injEq] at h
      exact h.symm.le
  | some d =>
      simp only [hd] at h
      obtain ⟨e, -, rfl⟩ := Option.map_eq_some_iff.mp h
      cases e <;> decide

/-- Every error of a move is a code that is not positive. -/
theorem itemMoveEffect_error {code : Int} (h : s.itemMoveEffect im stats m = .error code) :
    code ≤ 0 := by
  unfold itemMoveEffect at h
  cases hs : s.findAt m.orig m.origSlot with
  | none =>
      simp only [hs, Except.error.injEq] at h
      exact h.symm.le
  | some e =>
      obtain ⟨i, source⟩ := e
      simp only [hs] at h
      by_cases hmoves : m.orig = m.dest ∧ m.origSlot = m.destSlot
      · simp only [hmoves, and_self, if_true, Except.error.injEq] at h
        omega
      rw [if_neg hmoves] at h
      cases hhands : s.twoHandRefusal im m source (s.findAt m.dest m.destSlot) with
      | some c =>
          simp only [hhands, Except.error.injEq] at h
          exact h ▸ (twoHandRefusal_neg hhands).le
      | none =>
          simp only [hhands] at h
          by_cases hbound : refusesBound s.localCharacterVault m.dest.2 ∧ source.bindStatus ≠ 0
          · rw [if_pos hbound, Except.error.injEq] at h
            omega
          rw [if_neg hbound] at h
          cases hd : s.findAt m.dest m.destSlot with
          | none =>
              simp only [hd] at h
              split_ifs at h
          | some e =>
              obtain ⟨j, dest⟩ := e
              simp only [hd] at h
              cases hallowed : swapRefusal im stats m dest with
              | some c =>
                  simp only [hallowed, Except.error.injEq] at h
                  exact h ▸ swapRefusal_nonpos hallowed
              | none =>
                  simp only [hallowed] at h
                  split_ifs at h

/-! ### Exchanges -/

/-- Every stack of both inventories is within its bounds. -/
def StacksWithin (im : ItemManager) (s : CharacterState) : Prop :=
  ∀ p, ∀ e ∈ s.slotsAt p, Within im e

/-- All entries of both inventories, each with its place. -/
def entries (s : CharacterState) : Multiset (Place × InventorySlot) :=
  ∑ p, ((s.slotsAt p).map fun e => (p, e) : List (Place × InventorySlot))

/-- The entries in the origin and the destination slot of a move. -/
def involved (s : CharacterState) (m : MoveRequest) : List (Place × InventorySlot) :=
  ((s.findAt m.orig m.origSlot).map fun e => (m.orig, e.2)).toList ++
    ((s.findAt m.dest m.destSlot).map fun e => (m.dest, e.2)).toList

/-- What a move puts into its two slots in place of what was there. -/
def incoming (s : CharacterState) (m : MoveRequest) : MoveEffect → List (Place × InventorySlot)
  | .merge _ j n =>
      (((s.slotsAt m.dest)[j]?).map fun d => (m.dest, { d with count := d.count + n })).toList
  | .mergePart i j n =>
      (((s.slotsAt m.orig)[i]?).map fun o => (m.orig, { o with count := o.count - n })).toList ++
        (((s.slotsAt m.dest)[j]?).map fun d => (m.dest, { d with count := d.count + n })).toList
  | .swap _ _ source dest =>
      [(m.orig, source.copyFrom dest false), (m.dest, dest.copyFrom source false)]
  | .relocate i =>
      (((s.slotsAt m.orig)[i]?).map fun o => (m.orig, { o with ccsid := m.destCCSID })).toList
  | .transfer _ source => [(m.dest, { source with ccsid := m.destCCSID })]

/-- The quantity of an item over both inventories. -/
def itemTotal (im : ItemManager) (s : CharacterState) (id : Int) : Int :=
  ∑ o, (s.inv o).quantity im id

/-- Counting is weighing with one for what is counted. -/
theorem sum_ite_eq_count (x : Place × InventorySlot) (l : List (Place × InventorySlot)) :
    (l.map fun e => if (e.1, e.2) = x then (1 : Int) else 0).sum =
      ((l : Multiset (Place × InventorySlot)).count x : Nat) := by
  induction l with
  | nil => rfl
  | cons e l ih =>
      rw [List.map_cons, List.sum_cons, ih, ← Multiset.cons_coe, Multiset.count_cons, Nat.cast_add,
        add_comm]
      simp [eq_comm]

theorem count_entries (s : CharacterState) (x : Place × InventorySlot) :
    ((s.entries.count x : Nat) : Int) =
      total (fun p e => if (p, e) = x then (1 : Int) else 0) s.slotsAt := by
  unfold entries total
  rw [Multiset.count_sum', Nat.cast_sum]
  apply Finset.sum_congr rfl
  intro p _
  rw [← sum_ite_eq_count, List.map_map]
  rfl

theorem mem_entries {p : Place} {e : InventorySlot} : (p, e) ∈ s.entries ↔ e ∈ s.slotsAt p := by
  unfold entries
  simp

theorem itemTotal_eq_total (s : CharacterState) (id : Int) :
    s.itemTotal im id = total (fun _ => InventorySlot.quantity im id) s.slotsAt := by
  unfold itemTotal total
  rw [Fintype.sum_prod_type]
  apply Finset.sum_congr rfl
  intro o _
  rw [quantity_eq_weigh]
  rfl

end CharacterState

/-- An entry in the origin or the destination slot of a move. -/
def MoveRequest.Names (m : MoveRequest) (e : Place × InventorySlot) : Prop :=
  e.1 = m.orig ∧ (e.2.getSlot : Int) = m.origSlot ∨
    e.1 = m.dest ∧ e.2.getSlot = m.destSlot.toNat % 65536

namespace CharacterState

variable {s : CharacterState} {stats : MoveStats} {m : MoveRequest}

/-- The entries of a move's two slots give way to others. -/
structure Exchange (im : ItemManager) (s s' : CharacterState) (m : MoveRequest)
    (new : List (Place × InventorySlot)) : Prop where
  named : ∀ e ∈ new, m.Names e
  weight : ∀ w : Place → InventorySlot → Int,
    total w s'.slotsAt + ((s.involved m).map fun e => w e.1 e.2).sum =
      total w s.slotsAt + (new.map fun e => w e.1 e.2).sum
  quantity : ∀ id, (new.map fun e => e.2.quantity im id).sum =
    ((s.involved m).map fun e => e.2.quantity im id).sum
  within : s.StacksWithin im → ∀ e ∈ new, Within im e.2

theorem Exchange.entries {s' : CharacterState} {new : List (Place × InventorySlot)}
    (h : Exchange im s s' m new) :
    s'.entries + (s.involved m : Multiset _) = s.entries + (new : Multiset _) := by
  ext x
  have hw := h.weight fun p e => if (p, e) = x then 1 else 0
  rw [sum_ite_eq_count, sum_ite_eq_count, ← count_entries, ← count_entries] at hw
  rw [Multiset.count_add, Multiset.count_add]
  exact_mod_cast hw

theorem total_modifyAt (w : Place → InventorySlot → Int) {p : Place} {i : Nat}
    {e : InventorySlot} (he : (s.slotsAt p)[i]? = some e) (f : InventorySlot → InventorySlot) :
    total w (s.modifyAt p i f).slotsAt = total w s.slotsAt + (w p (f e) - w p e) := by
  rw [modifyAt, slotsAt_setSlots, total_modify w f he]

theorem total_eraseAt (w : Place → InventorySlot → Int) {p : Place} {i : Nat}
    {e : InventorySlot} (he : (s.slotsAt p)[i]? = some e) :
    total w (s.eraseAt p i).slotsAt = total w s.slotsAt - w p e := by
  rw [eraseAt, slotsAt_setSlots, total_eraseIdx w he]

theorem total_appendAt (w : Place → InventorySlot → Int) (p : Place) (item : InventorySlot) :
    total w (s.append p item).slotsAt = total w s.slotsAt + w p item := by
  rw [append, slotsAt_setSlots, total_append w]

theorem destCCSID_named (m : MoveRequest) (e : InventorySlot) :
    m.Names (m.dest, { e with ccsid := m.destCCSID }) := by
  refine .inr ⟨rfl, ?_⟩
  simp only [InventorySlot.getSlot, MoveRequest.destCCSID, getCCSID]
  omega

theorem source_named {i : Nat} {source e : InventorySlot}
    (hs : s.findAt m.orig m.origSlot = some (i, source)) (he : e.ccsid = source.ccsid) :
    m.Names (m.orig, e) := by
  refine .inl ⟨rfl, ?_⟩
  rw [InventorySlot.getSlot, he]
  exact (findBySlot_some hs).2

theorem dest_named {j : Nat} {dest e : InventorySlot}
    (hd : s.findAt m.dest m.destSlot = some (j, dest)) (he : e.ccsid = dest.ccsid) :
    m.Names (m.dest, e) := by
  have hslot := (findBySlot_some hd).2
  refine .inr ⟨rfl, ?_⟩
  simp only [InventorySlot.getSlot] at hslot ⊢
  omega

/-- What a move does, branch by branch. -/
theorem exchange_applyEffect {i : Nat} {source : InventorySlot} {eff : MoveEffect}
    (hc : MoveChecked im s m i source) (ho : MoveOutcome im s stats m i source eff) :
    Exchange im s (s.applyEffect m eff) m (s.incoming m eff) := by
  obtain ⟨hsource, horig⟩ := findBySlot_some hc.source_found
  have hin : s.StacksWithin im → Within im source := fun h =>
    h m.orig source (List.mem_of_getElem? hsource)
  cases ho with
  | relocate free same =>
      have hinvolved : s.involved m = [(m.orig, source)] := by
        simp [involved, hc.source_found, free]
      have hnew : s.incoming m (.relocate i) =
          [(m.orig, { source with ccsid := m.destCCSID })] := by
        simp [incoming, slotsAt, hsource]
      rw [hnew]
      refine ⟨?_, ?_, ?_, ?_⟩
      · simpa [same] using destCCSID_named m source
      · intro w
        simp only [applyEffect, hinvolved, total_modifyAt w hsource, List.map_singleton,
          List.sum_singleton]
        ring
      · simp [hinvolved, InventorySlot.quantity, getStackCount]
      · intro h e he
        rw [List.mem_singleton.mp he]
        exact (hin h).congr rfl rfl
  | transfer free other =>
      have hinvolved : s.involved m = [(m.orig, source)] := by
        simp [involved, hc.source_found, free]
      have hkept : ((s.append m.dest { source with ccsid := m.destCCSID }).slotsAt m.orig)[i]? =
          some source := by
        rw [append, slotsAt_setSlots, Function.update_of_ne (Ne.symm other)]
        exact hsource
      have hnew : s.incoming m (.transfer i source) =
          [(m.dest, { source with ccsid := m.destCCSID })] := rfl
      rw [hnew]
      refine ⟨?_, ?_, ?_, ?_⟩
      · simpa using destCCSID_named m source
      · intro w
        simp only [applyEffect, hinvolved, total_eraseAt w hkept, total_appendAt,
          List.map_singleton, List.sum_singleton]
        ring
      · simp [hinvolved, InventorySlot.quantity, getStackCount]
      · intro h e he
        rw [List.mem_singleton.mp he]
        exact (hin h).congr rfl rfl
  | @merge j dest dest_found same stackable fits =>
      obtain ⟨hdest, -⟩ := findBySlot_some dest_found
      have hst := stacking_of_maxStack stackable
      have hinvolved : s.involved m = [(m.orig, source), (m.dest, dest)] := by
        simp [involved, hc.source_found, dest_found]
      have hin' : s.StacksWithin im → Within im dest := fun h =>
        h m.dest dest (List.mem_of_getElem? hdest)
      have hnew : s.incoming m (.merge i j (source.getStackCount im)) =
          [(m.dest, { dest with count := dest.count + source.getStackCount im })] := by
        simp [incoming, slotsAt, hdest]
      rw [hnew]
      refine ⟨?_, ?_, ?_, ?_⟩
      · intro e he
        rw [List.mem_singleton.mp he]
        exact dest_named dest_found rfl
      · intro w
        simp only [applyEffect, hinvolved, total_eraseAt w (source_modifyAt hc dest_found _),
          total_modifyAt w hdest, List.map_cons, List.map_nil, List.sum_cons, List.sum_nil]
        ring
      · intro id
        simp only [hinvolved, List.map_cons, List.map_nil, List.sum_cons, List.sum_nil,
          InventorySlot.quantity, same, getStackCount_eq, if_pos (same ▸ hst)]
        split <;> omega
      · intro h e he
        rw [List.mem_singleton.mp he]
        have hs := hin h hst
        have hd := hin' h (same ▸ hst)
        rw [getStackCount_eq dest, if_pos (same ▸ hst)] at hd fits
        rw [getMaxStack_congr same] at fits
        exact Within.setCount (by omega)
  | @mergePart j dest dest_found same stackable exceeds =>
      obtain ⟨hdest, -⟩ := findBySlot_some dest_found
      have hst := stacking_of_maxStack stackable
      have hinvolved : s.involved m = [(m.orig, source), (m.dest, dest)] := by
        simp [involved, hc.source_found, dest_found]
      have hin' : s.StacksWithin im → Within im dest := fun h =>
        h m.dest dest (List.mem_of_getElem? hdest)
      generalize hn : source.getMaxStack im - dest.getStackCount im = n at exceeds
      have hnew : s.incoming m (.mergePart i j n) =
          [(m.orig, { source with count := source.count - n }),
            (m.dest, { dest with count := dest.count + n })] := by
        simp [incoming, slotsAt, hsource, hdest]
      rw [hnew]
      refine ⟨?_, ?_, ?_, ?_⟩
      · intro e he
        simp only [List.mem_cons, List.not_mem_nil, or_false] at he
        obtain rfl | rfl := he
        · exact source_named hc.source_found rfl
        · exact dest_named dest_found rfl
      · intro w
        simp only [applyEffect, hinvolved, total_modifyAt w (source_modifyAt hc dest_found _),
          total_modifyAt w hdest, List.map_cons, List.map_nil, List.sum_cons, List.sum_nil]
        ring
      · intro id
        simp only [hinvolved, List.map_cons, List.map_nil, List.sum_cons, List.sum_nil,
          InventorySlot.quantity, same, getStackCount_eq, if_pos (same ▸ hst)]
        split <;> omega
      · intro h e he
        have hs := hin h hst
        have hd := hin' h (same ▸ hst)
        rw [getStackCount_eq dest, if_pos (same ▸ hst)] at hd hn
        rw [getStackCount_eq source, if_pos hst] at hs exceeds
        simp only [List.mem_cons, List.not_mem_nil, or_false] at he
        obtain rfl | rfl := he
        · exact Within.setCount (by rw [getMaxStack_congr same] at hn hs ⊢; omega)
        · exact Within.setCount (by rw [getMaxStack_congr same] at hn; omega)
  | @swap j dest dest_found allowed =>
      obtain ⟨hdest, -⟩ := findBySlot_some dest_found
      have hinvolved : s.involved m = [(m.orig, source), (m.dest, dest)] := by
        simp [involved, hc.source_found, dest_found]
      have hin' : s.StacksWithin im → Within im dest := fun h =>
        h m.dest dest (List.mem_of_getElem? hdest)
      have hnew : s.incoming m (.swap i j source dest) =
          [(m.orig, source.copyFrom dest false), (m.dest, dest.copyFrom source false)] := rfl
      rw [hnew]
      refine ⟨?_, ?_, ?_, ?_⟩
      · intro e he
        simp only [List.mem_cons, List.not_mem_nil, or_false] at he
        obtain rfl | rfl := he
        · exact source_named hc.source_found rfl
        · exact dest_named dest_found rfl
      · intro w
        simp only [applyEffect, hinvolved, total_modifyAt w (source_modifyAt hc dest_found _),
          total_modifyAt w hdest, List.map_cons, List.map_nil, List.sum_cons, List.sum_nil]
        ring
      · intro id
        simp only [hinvolved, List.map_cons, List.map_nil, List.sum_cons, List.sum_nil,
          InventorySlot.quantity, copyFrom, getStackCount, add_zero]
        exact add_comm _ _
      · intro h e he
        simp only [List.mem_cons, List.not_mem_nil, or_false] at he
        obtain rfl | rfl := he
        · exact (hin' h).congr rfl rfl
        · exact (hin h).congr rfl rfl

/-- A move with a positive result exchanges what is in its two slots, any other one changes
nothing. -/
theorem itemMove_conserves (h : s.StacksWithin im) (updateDest : Bool) :
    (0 < (s.itemMoveResult im stats m updateDest).1 →
      (∀ id, (s.itemMoveResult im stats m updateDest).2.itemTotal im id = s.itemTotal im id) ∧
        (∃ new : List (Place × InventorySlot), (∀ e ∈ new, m.Names e) ∧
          (s.itemMoveResult im stats m updateDest).2.entries + (s.involved m : Multiset _) =
            s.entries + (new : Multiset _)) ∧
        (s.itemMoveResult im stats m updateDest).2.StacksWithin im) ∧
      ((s.itemMoveResult im stats m updateDest).1 ≤ 0 →
        (s.itemMoveResult im stats m updateDest).2 = s) := by
  unfold itemMoveResult
  cases heff : s.itemMoveEffect im stats m with
  | error code =>
      have hcode := itemMoveEffect_error heff
      exact ⟨fun hpos => absurd hcode (not_le.mpr hpos), fun _ => rfl⟩
  | ok eff =>
      have hpos : 0 < s.moveUpdateSize m updateDest eff := moveUpdateSize_pos s m updateDest eff
      refine ⟨fun _ => ?_, fun hle => ?_⟩
      · obtain ⟨i, source, hc, ho⟩ := itemMoveEffect_ok im heff
        have hx := exchange_applyEffect hc ho
        refine ⟨fun id => ?_, ⟨s.incoming m eff, hx.named, ?_⟩, ?_⟩
        · have hw := hx.weight fun _ => InventorySlot.quantity im id
          rw [hx.quantity] at hw
          rw [itemTotal_eq_total, itemTotal_eq_total]
          exact add_right_cancel hw
        · exact hx.entries
        · intro p e he
          have hmem : (p, e) ∈ s.entries + (s.incoming m eff : Multiset _) := by
            rw [← hx.entries]
            exact Multiset.mem_add.mpr (.inl (mem_entries.mpr he))
          obtain hold | hnew := Multiset.mem_add.mp hmem
          · exact h p e (mem_entries.mp hold)
          · exact hx.within h _ hnew
      · simp only at hle
        omega

/-- Arrows come in stacks of ten. -/
def quiverTable : ItemManager := .ofList [{ mID := 5, mIvType1 := .stacking, mIvMax1 := 10 }]

/-- Two stacks in the backpack, of four and of nine arrows. -/
def quiverState : CharacterState where
  inv o :=
    { containerList := fun c =>
        if o = .character ∧ c = invContainer then
          [{ ccsid := 0, iid := 5, count := 3 }, { ccsid := 1, iid := 5, count := 8 }]
        else [] }

def quiverMove : MoveRequest := ⟨(.character, invContainer), 0, (.character, invContainer), 1⟩

theorem itemMove_conserves_quiver :
    (quiverState.itemMoveResult quiverTable ⟨1, 0⟩ quiverMove true).2.itemTotal quiverTable 5 =
      quiverState.itemTotal quiverTable 5 := by
  have hwithin : quiverState.StacksWithin quiverTable := by
    unfold StacksWithin Within
    decide
  exact ((itemMove_conserves hwithin true).1 (by decide)).1 5

end CharacterState

end Iceee
