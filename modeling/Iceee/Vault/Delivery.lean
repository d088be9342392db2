import Iceee.Vault.Send

/-!
# Whether a delivery arrives as a whole

The loop of `vault.send` looks for the items at the slot numbers from 0 on and puts them behind as
many slot numbers as the recipient has items. That sends the whole box exactly when the items lie
at these numbers, none of them is bound and the recipient has nothing behind. The first item that
does not go through stops the loop, and what went before stays sent.
-/

namespace Iceee

open Lib

namespace InventorySlot

/-- A stack without the place where it lies. -/
def content (s : InventorySlot) : Int × Int × Int × Int :=
  (s.iid, s.count, s.customLook, s.bindStatus)

end InventorySlot

namespace Vault

open InventoryManager

variable {im : ItemManager} {now : Nat} {stats : MoveStats} {t t' : Transit}

/-! ### The item at a slot number -/

/-- The first item of a box with a slot number. -/
def itemAt (l : List InventorySlot) (slot : Nat) : Option InventorySlot :=
  l.find? fun item => item.getSlot == slot

/-- The box has an item at this slot number, and it is not bound. -/
def Sendable (l : List InventorySlot) (slot : Nat) : Prop :=
  ∃ item, itemAt l slot = some item ∧ item.bindStatus = 0

theorem itemAt_of_findIdx {l : List InventorySlot} {i slot : Nat} {item : InventorySlot}
    (hidx : l.findIdx? (fun item => (item.getSlot : Int) == slot) = some i)
    (hitem : l[i]? = some item) : itemAt l slot = some item := by
  obtain ⟨hlt, hp, hbefore⟩ := List.findIdx?_eq_some_iff_getElem.mp hidx
  obtain ⟨-, rfl⟩ := List.getElem?_eq_some_iff.mp hitem
  apply List.find?_eq_some_iff_getElem.mpr
  refine ⟨by simpa using hp, i, hlt, rfl, fun j hj => ?_⟩
  simpa using hbefore j hj

theorem findBySlot_eq_none {inv : InventoryManager} {c : ContainerID} {slot : Nat} :
    inv.findBySlot c slot = none ↔ itemAt (inv.containerList c) slot = none := by
  rw [findBySlot_none, itemAt, List.find?_eq_none]
  simp

theorem findBySlot_eq_some {inv : InventoryManager} {c : ContainerID} {slot i : Nat}
    {item : InventorySlot} (h : inv.findBySlot c slot = some (i, item)) :
    (inv.containerList c)[i]? = some item ∧ itemAt (inv.containerList c) slot = some item ∧
      item.getSlot = slot := by
  obtain ⟨hitem, hslot⟩ := findBySlot_some h
  refine ⟨hitem, ?_, Int.ofNat_inj.mp hslot⟩
  unfold findBySlot getItemBySlot at h
  obtain ⟨j, hj, hmap⟩ := Option.bind_eq_some_iff.mp h
  obtain ⟨item', hitem', heq⟩ := Option.map_eq_some_iff.mp hmap
  obtain ⟨rfl, rfl⟩ := Prod.mk.inj heq
  exact itemAt_of_findIdx hj hitem'

theorem itemAt_eraseIdx {l : List InventorySlot} {i slot : Nat} {item : InventorySlot}
    (h : l[i]? = some item) (hne : item.getSlot ≠ slot) :
    itemAt (l.eraseIdx i) slot = itemAt l slot := by
  induction l generalizing i with
  | nil => rfl
  | cons a rest ih =>
      cases i with
      | zero =>
          obtain rfl : a = item := Option.some.inj h
          rw [List.eraseIdx_cons_zero, itemAt, itemAt, List.find?_cons_of_neg (by simpa using hne)]
      | succ i =>
          have hrest := ih h
          unfold itemAt at hrest ⊢
          rw [List.eraseIdx_cons_succ, List.find?_cons, List.find?_cons, hrest]

theorem itemAt_modify {l : List InventorySlot} {i slot : Nat} {item : InventorySlot}
    {f : InventorySlot → InventorySlot} (h : l[i]? = some item) (hne : item.getSlot ≠ slot)
    (hkeep : (f item).getSlot = item.getSlot) : itemAt (l.modify i f) slot = itemAt l slot := by
  induction l generalizing i with
  | nil => rw [List.modify_nil]
  | cons a rest ih =>
      cases i with
      | zero =>
          obtain rfl : a = item := Option.some.inj h
          rw [List.modify_zero_cons, itemAt, itemAt,
            List.find?_cons_of_neg (by simpa [hkeep] using hne),
            List.find?_cons_of_neg (by simpa using hne)]
      | succ i =>
          have hrest := ih h
          unfold itemAt at hrest ⊢
          rw [List.modify_succ_cons, List.find?_cons, List.find?_cons, hrest]

theorem itemAt_append {l : List InventorySlot} {slot : Nat} {item : InventorySlot}
    (hne : item.getSlot ≠ slot) : itemAt (l ++ [item]) slot = itemAt l slot := by
  unfold itemAt
  rw [List.find?_append, List.find?_singleton, if_neg (by simpa using hne), Option.or_none]

/-! ### One round of the loop -/

/-- The sender's box. -/
def Transit.sent (t : Transit) : List InventorySlot :=
  t.boxes.slotsAt (.character, deliveryContainer)

/-- The recipient's box. -/
def Transit.received (t : Transit) : List InventorySlot :=
  t.boxes.slotsAt (.account, deliveryContainer)

/-- Everything else in the two inventories. -/
def SameElsewhere (t t' : Transit) : Prop :=
  ∀ p : Place, p.2 ≠ deliveryContainer → t'.boxes.slotsAt p = t.boxes.slotsAt p

/-- What a round that goes through does: the item goes over, or it is exchanged with what lies at
the slot number in the recipient's box. -/
inductive ItemSent (im : ItemManager) (t t' : Transit) (origSlot destSlot : Nat) : Prop
  | moved (i : Nat) (source : InventorySlot) (found : t.sent[i]? = some source)
      (free : itemAt t.received destSlot = none) (sent : t'.sent = t.sent.eraseIdx i)
      (received : t'.received =
        t.received ++ [{ source with ccsid := getCCSID deliveryContainer destSlot }])
  | exchanged (taken : itemAt t.received destSlot ≠ none)
      (received : t'.received.length = t.received.length)

/-- What every round that goes through keeps. -/
structure RoundDone (im : ItemManager) (t t' : Transit) (origSlot destSlot : Nat) : Prop where
  sendable : Sendable t.sent origSlot
  item : ItemSent im t t' origSlot destSlot
  sent : ∀ slot, origSlot < slot → itemAt t'.sent slot = itemAt t.sent slot
  received : ∀ slot, destSlot < slot → itemAt t'.received slot = itemAt t.received slot
  elsewhere : SameElsewhere t t'
  stamps : t'.stamps.containerList = Function.update t.stamps.containerList stampsContainer
    (takeItems im postageStampItemId (t.stamps.containerList stampsContainer) 1)

theorem slotsAt_modifyAt (s : CharacterState) (p : Place) (i : Nat)
    (f : InventorySlot → InventorySlot) :
    (s.modifyAt p i f).slotsAt = Function.update s.slotsAt p ((s.slotsAt p).modify i f) :=
  s.slotsAt_setSlots p _

theorem slotsAt_eraseAt (s : CharacterState) (p : Place) (i : Nat) :
    (s.eraseAt p i).slotsAt = Function.update s.slotsAt p ((s.slotsAt p).eraseIdx i) :=
  s.slotsAt_setSlots p _

theorem slotsAt_append (s : CharacterState) (p : Place) (item : InventorySlot) :
    (s.append p item).slotsAt = Function.update s.slotsAt p (s.slotsAt p ++ [item]) :=
  s.slotsAt_setSlots p _

variable (im stats) in
/-- The move of a round asks nothing but that the item is there and not bound. -/
theorem itemMoveEffect_of_sendable {origSlot : Nat} (destSlot : Nat)
    (h : Sendable t.sent origSlot) :
    ∃ eff, t.boxes.itemMoveEffect im stats (deliveryMove origSlot destSlot) = .ok eff := by
  obtain ⟨item, hitem, hbound⟩ := h
  cases hfound : t.boxes.findAt (.character, deliveryContainer) origSlot with
  | none =>
      have hnone : itemAt t.sent origSlot = none := findBySlot_eq_none.mp hfound
      rw [hnone] at hitem
      cases hitem
  | some e =>
      obtain ⟨i, source⟩ := e
      obtain ⟨-, hat, -⟩ := findBySlot_eq_some hfound
      obtain rfl : source = item := Option.some.inj (hat.symm.trans hitem)
      have hhands (found : Option (Nat × InventorySlot)) :
          t.boxes.twoHandRefusal im (deliveryMove origSlot destSlot) source found = none := by
        have heq : deliveryContainer ≠ eqContainer := by decide
        simp only [CharacterState.twoHandRefusal, deliveryMove, heq, false_and, if_false]
      have hmoves : ¬((deliveryMove origSlot destSlot).orig = (deliveryMove origSlot destSlot).dest ∧
          (deliveryMove origSlot destSlot).origSlot = (deliveryMove origSlot destSlot).destSlot) := by
        intro hsame
        cases hsame.1
      have hswap (dest : InventorySlot) :
          CharacterState.swapRefusal im stats (deliveryMove origSlot destSlot) dest = none := by
        have heq : deliveryContainer ≠ eqContainer := by decide
        exact if_neg heq
      unfold CharacterState.itemMoveEffect
      have hsource : t.boxes.findAt (deliveryMove origSlot destSlot).orig
          (deliveryMove origSlot destSlot).origSlot = some (i, source) := hfound
      rw [hsource]
      dsimp only
      rw [if_neg hmoves, hhands]
      dsimp only
      rw [if_neg fun hrefused => hrefused.2 hbound]
      cases t.boxes.findAt (deliveryMove origSlot destSlot).dest
          (deliveryMove origSlot destSlot).destSlot with
      | none =>
          dsimp only
          split
          · exact ⟨_, rfl⟩
          · exact ⟨_, rfl⟩
      | some dest =>
          dsimp only
          rw [hswap]
          dsimp only
          split_ifs
          · exact ⟨_, rfl⟩
          · exact ⟨_, rfl⟩
          · exact ⟨_, rfl⟩

/-- Slot numbers that count up pass the boundary check. -/
theorem verifyContainerSlotBoundary_delivery (inv : InventoryManager) (slot : Nat) :
    inv.verifyContainerSlotBoundary deliveryContainer slot = true := by
  have hinv : deliveryContainer ≠ invContainer := by decide
  rw [verifyContainerSlotBoundary, if_neg (not_lt.mpr (Int.natCast_nonneg slot)),
    if_neg fun hboth => hinv hboth.1]

theorem sendItem_eq (t : Transit) (origSlot destSlot : Nat) :
    t.sendItem im now stats origSlot destSlot =
      match t.boxes.itemMove im stats (deliveryMove origSlot destSlot) with
      | .ok boxes => .ok (t.payStamp im now boxes)
      | .error mpos => .error ("Failed to move item (" ++ toString mpos ++ ").") := by
  rw [Transit.sendItem, verifyContainerSlotBoundary_delivery, verifyContainerSlotBoundary_delivery]
  exact if_neg (by simp)

variable (im now stats) in
theorem exists_sendItem {origSlot : Nat} (destSlot : Nat) (h : Sendable t.sent origSlot) :
    ∃ t', t.sendItem im now stats origSlot destSlot = .ok t' := by
  obtain ⟨eff, heff⟩ := itemMoveEffect_of_sendable im stats destSlot h
  rw [sendItem_eq, CharacterState.itemMove, heff]
  exact ⟨_, rfl⟩

/-- Two lists of different places are written. -/
theorem sameElsewhere_of_update {l l' : List InventorySlot}
    (h : t'.boxes.slotsAt = Function.update (Function.update t.boxes.slotsAt
      (.account, deliveryContainer) l) (.character, deliveryContainer) l') :
    t'.sent = l' ∧ t'.received = l ∧ SameElsewhere t t' := by
  refine ⟨?_, ?_, fun p hp => ?_⟩
  · rw [Transit.sent, h, Function.update_self]
  · rw [Transit.received, h, Function.update_of_ne (by simp), Function.update_self]
  · have hne (o : Owner) : p ≠ (o, deliveryContainer) := by
      rintro rfl
      exact hp rfl
    rw [h, Function.update_of_ne (hne _), Function.update_of_ne (hne _)]

/-- A round that found something at the slot number in the recipient's box. -/
theorem RoundDone.of_exchange {origSlot destSlot j : Nat} {dest : InventorySlot}
    (f : InventorySlot → InventorySlot) (l' : List InventorySlot)
    (hsendable : Sendable t.sent origSlot)
    (hdest : t.boxes.findAt (.account, deliveryContainer) destSlot = some (j, dest))
    (hf : (f dest).ccsid = dest.ccsid)
    (hslots : t'.boxes.slotsAt = Function.update (Function.update t.boxes.slotsAt
      (.account, deliveryContainer) (t.received.modify j f)) (.character, deliveryContainer) l')
    (hsent : ∀ slot, origSlot < slot → itemAt l' slot = itemAt t.sent slot)
    (hstamps : t'.stamps.containerList = Function.update t.stamps.containerList stampsContainer
      (takeItems im postageStampItemId (t.stamps.containerList stampsContainer) 1)) :
    RoundDone im t t' origSlot destSlot := by
  obtain ⟨hl', hreceived, helse⟩ := sameElsewhere_of_update hslots
  obtain ⟨hmem, hat, hslot⟩ := findBySlot_eq_some hdest
  have htaken : itemAt t.received destSlot ≠ none := by
    intro hnone
    cases hat.symm.trans hnone
  have hlength : t'.received.length = t.received.length := by
    rw [hreceived, List.length_modify]
  refine ⟨hsendable, .exchanged htaken hlength, ?_, ?_, helse, hstamps⟩
  · rwa [hl']
  · intro slot hlt
    rw [hreceived]
    have hne : dest.getSlot ≠ slot := by omega
    exact itemAt_modify hmem hne (congrArg (· % 65536) hf)

/-- What a round that went through has done. -/
theorem sendItem_ok {origSlot destSlot : Nat}
    (h : t.sendItem im now stats origSlot destSlot = .ok t') :
    RoundDone im t t' origSlot destSlot := by
  rw [sendItem_eq, CharacterState.itemMove] at h
  cases heff : t.boxes.itemMoveEffect im stats (deliveryMove origSlot destSlot) with
  | error code =>
      rw [heff] at h
      cases h
  | ok eff =>
      rw [heff] at h
      obtain rfl : t.payStamp im now (t.boxes.applyEffect (deliveryMove origSlot destSlot) eff) =
        t' := Except.ok.inj h
      obtain ⟨i, source, hcheck, hout⟩ := CharacterState.itemMoveEffect_ok im heff
      have hfound := hcheck.source_found
      obtain ⟨hsource, hat, hslot⟩ := findBySlot_eq_some hfound
      have hbound : source.bindStatus = 0 := by
        by_contra hne
        exact hcheck.bound ⟨by simp [CharacterState.refusesBound, deliveryMove], hne⟩
      have hsendable : Sendable t.sent origSlot := ⟨source, hat, hbound⟩
      have hstamps : (t.stamps.removeItemsAndUpdate im now stampsContainer postageStampItemId
          1).containerList = Function.update t.stamps.containerList stampsContainer
            (takeItems im postageStampItemId (t.stamps.containerList stampsContainer) 1) :=
        containerList_removeItemsAndUpdate t.placed postageStampItemId 1
      have hother : ((.character, deliveryContainer) : Place) ≠ (.account, deliveryContainer) := by
        simp
      have hlater {slot : Nat} (hlt : origSlot < slot) : source.getSlot ≠ slot := by omega
      cases hout with
      | relocate free same => cases same
      | transfer free _ =>
          have hslots : (t.payStamp im now (t.boxes.applyEffect (deliveryMove origSlot destSlot)
              (.transfer i source))).boxes.slotsAt =
              Function.update (Function.update t.boxes.slotsAt (.account, deliveryContainer)
                (t.received ++ [{ source with ccsid := getCCSID deliveryContainer destSlot }]))
                (.character, deliveryContainer) (t.sent.eraseIdx i) := by
            refine (slotsAt_eraseAt _ _ _).trans ?_
            rw [slotsAt_append]
            exact congrArg _ (congrArg (List.eraseIdx · i) (Function.update_of_ne hother _ _))
          obtain ⟨hsent, hreceived, helse⟩ := sameElsewhere_of_update hslots
          refine ⟨hsendable, .moved i source hsource (findBySlot_eq_none.mp free) hsent hreceived,
            ?_, ?_, helse, hstamps⟩
          · intro slot hlt
            rw [hsent]
            exact itemAt_eraseIdx hsource (hlater hlt)
          · intro slot hlt
            rw [hreceived]
            apply itemAt_append
            have hcut : getCCSID deliveryContainer destSlot % 65536 = destSlot % 65536 :=
              getCCSID_mod _ _
            have hle : destSlot % 65536 ≤ destSlot := Nat.mod_le _ _
            unfold InventorySlot.getSlot
            dsimp only
            omega
      | @merge j dest dest_found same stackable fits =>
          refine .of_exchange (fun d => { d with count := d.count + source.getStackCount im })
            (t.sent.eraseIdx i) hsendable dest_found rfl ?_
            (fun slot hlt => itemAt_eraseIdx hsource (hlater hlt)) hstamps
          refine (slotsAt_eraseAt _ _ _).trans ?_
          rw [slotsAt_modifyAt]
          exact congrArg _ (congrArg (List.eraseIdx · i) (Function.update_of_ne hother _ _))
      | @mergePart j dest dest_found same stackable exceeds =>
          let n := source.getMaxStack im - dest.getStackCount im
          refine .of_exchange (fun d => { d with count := d.count + n })
            (t.sent.modify i fun o => { o with count := o.count - n }) hsendable dest_found rfl ?_
            (fun slot hlt => itemAt_modify hsource (hlater hlt) rfl) hstamps
          refine (slotsAt_modifyAt _ _ _ _).trans ?_
          rw [slotsAt_modifyAt]
          exact congrArg _ (congrArg (List.modify · i _) (Function.update_of_ne hother _ _))
      | @swap j dest dest_found allowed =>
          refine .of_exchange (fun d => d.copyFrom source false)
            (t.sent.modify i fun o => o.copyFrom dest false) hsendable dest_found rfl ?_
            (fun slot hlt => itemAt_modify hsource (hlater hlt) rfl) hstamps
          refine (slotsAt_modifyAt _ _ _ _).trans ?_
          rw [slotsAt_modifyAt]
          exact congrArg _ (congrArg (List.modify · i _) (Function.update_of_ne hother _ _))

/-! ### The whole loop -/

/-- The stamps that are left. -/
def Transit.stampCount (im : ItemManager) (t : Transit) : Int :=
  Vault.stampCount im t.stamps

/-- A round that goes through takes one stamp. -/
theorem RoundDone.stampCount {origSlot destSlot : Nat} (h : RoundDone im t t' origSlot destSlot)
    (hone : 1 ≤ t.stampCount im) : t'.stampCount im = t.stampCount im - 1 := by
  unfold Transit.stampCount Vault.stampCount at hone ⊢
  rw [getItemCount_eq_held] at hone ⊢
  rw [getItemCount_eq_held, h.stamps, Function.update_self]
  exact held_takeItems_self postageStampItemId _ zero_le_one hone

/-- What the rounds need of the boxes to send everything. -/
def LinesUp (n origSlot destSlot : Nat) (sent received : List InventorySlot) : Prop :=
  ∀ k < n, Sendable sent (origSlot + k) ∧ itemAt received (destSlot + k) = none

theorem LinesUp.next {n origSlot destSlot : Nat}
    (h : LinesUp (n + 1) origSlot destSlot t.sent t.received)
    (hround : RoundDone im t t' origSlot destSlot) :
    LinesUp n (origSlot + 1) (destSlot + 1) t'.sent t'.received := by
  intro k hk
  obtain ⟨hsend, hfree⟩ := h (k + 1) (Nat.succ_lt_succ hk)
  have ho : origSlot + 1 + k = origSlot + (k + 1) := by omega
  have hd : destSlot + 1 + k = destSlot + (k + 1) := by omega
  constructor
  · rw [ho, Sendable, hround.sent _ (by omega)]
    exact hsend
  · rw [hd, hround.received _ (by omega)]
    exact hfree

/-- The first slot number lines up when the others do after its round. -/
theorem LinesUp.cons {n origSlot destSlot : Nat} (hround : RoundDone im t t' origSlot destSlot)
    (hfree : itemAt t.received destSlot = none)
    (h : LinesUp n (origSlot + 1) (destSlot + 1) t'.sent t'.received) :
    LinesUp (n + 1) origSlot destSlot t.sent t.received := by
  intro k hk
  cases k with
  | zero => exact ⟨hround.sendable, hfree⟩
  | succ k =>
      obtain ⟨hsend, hlater⟩ := h k (Nat.lt_of_succ_lt_succ hk)
      have ho : origSlot + 1 + k = origSlot + (k + 1) := by omega
      have hd : destSlot + 1 + k = destSlot + (k + 1) := by omega
      rw [ho, Sendable, hround.sent _ (by omega)] at hsend
      rw [hd, hround.received _ (by omega)] at hlater
      exact ⟨hsend, hlater⟩

/-- What rounds do that each send an item over. -/
structure AllMoved (im : ItemManager) (n : Nat) (t t' : Transit) : Prop where
  emptied : t'.sent.length + n = t.sent.length
  received : ∃ moved, t'.received = t.received ++ moved ∧
    (moved.map InventorySlot.content ++ t'.sent.map InventorySlot.content).Perm
      (t.sent.map InventorySlot.content)
  elsewhere : SameElsewhere t t'
  stamps : t'.stampCount im = t.stampCount im - n

/-- Taking one entry out and putting its content in front permutes the contents. -/
theorem perm_content_eraseIdx {l : List InventorySlot} {i : Nat} {source : InventorySlot}
    (h : l[i]? = some source) :
    (source.content :: (l.eraseIdx i).map InventorySlot.content).Perm
      (l.map InventorySlot.content) := by
  obtain ⟨hlt, rfl⟩ := List.getElem?_eq_some_iff.mp h
  have hperm := (List.getElem_cons_eraseIdx_perm hlt).map InventorySlot.content
  rwa [List.map_cons] at hperm

theorem AllMoved.cons {n origSlot destSlot : Nat} {t'' : Transit}
    (hround : RoundDone im t t' origSlot destSlot)
    (hfree : itemAt t.received destSlot = none) (hone : 1 ≤ t.stampCount im)
    (h : AllMoved im n t' t'') : AllMoved im (n + 1) t t'' := by
  obtain ⟨i, source, hfound, -, hsent, hreceived⟩ | ⟨htaken, -⟩ := hround.item
  · obtain ⟨moved, hmoved, hperm⟩ := h.received
    constructor
    · have hlt : i < t.sent.length := (List.getElem?_eq_some_iff.mp hfound).1
      have hlen := h.emptied
      rw [hsent, List.length_eraseIdx_of_lt hlt] at hlen
      omega
    · refine ⟨{ source with ccsid := getCCSID deliveryContainer destSlot } :: moved, ?_, ?_⟩
      · rw [hmoved, hreceived, List.append_assoc, List.singleton_append]
      · rw [hsent] at hperm
        rw [List.map_cons, List.cons_append]
        exact (hperm.cons source.content).trans (perm_content_eraseIdx hfound)
    · intro p hp
      exact (h.elsewhere p hp).trans (hround.elsewhere p hp)
    · rw [h.stamps, hround.stampCount hone, Nat.cast_succ]
      omega
  · exact absurd hfree htaken

variable (now stats) in
/-- Where the slot numbers line up, the loop sends everything. -/
theorem sendItems_of_linesUp {n origSlot destSlot : Nat}
    (h : LinesUp n origSlot destSlot t.sent t.received) (hstamps : n ≤ t.stampCount im) :
    (sendItems im now stats n origSlot destSlot t).2 = .ok ∧
      AllMoved im n t (sendItems im now stats n origSlot destSlot t).1 := by
  induction n generalizing origSlot destSlot t with
  | zero =>
      refine ⟨rfl, ⟨rfl, ⟨[], ?_, List.Perm.refl _⟩, fun p _ => rfl, ?_⟩⟩
      · exact (List.append_nil _).symm
      · exact (sub_zero _).symm
  | succ n ih =>
      obtain ⟨hsend, hfree⟩ := h 0 (Nat.succ_pos n)
      rw [Nat.add_zero] at hsend hfree
      obtain ⟨t', ht'⟩ := exists_sendItem im now stats destSlot hsend
      have hround := sendItem_ok ht'
      have hone : 1 ≤ t.stampCount im := by omega
      have hleft : (n : Int) ≤ t'.stampCount im := by
        rw [hround.stampCount hone]
        omega
      obtain ⟨hok, hmoved⟩ := ih (h.next hround) hleft
      rw [sendItems, ht']
      exact ⟨hok, hmoved.cons hround hfree hone⟩

theorem RoundDone.length_received {origSlot destSlot : Nat}
    (h : RoundDone im t t' origSlot destSlot) :
    t'.received.length ≤ t.received.length + 1 := by
  obtain ⟨i, source, -, -, -, hreceived⟩ | ⟨-, hreceived⟩ := h.item
  · rw [hreceived, List.length_append, List.length_singleton]
  · omega

variable (im now stats) in
theorem length_received_sendItems (n origSlot destSlot : Nat) (t : Transit) :
    (sendItems im now stats n origSlot destSlot t).1.received.length ≤ t.received.length + n := by
  induction n generalizing origSlot destSlot t with
  | zero => exact le_rfl
  | succ n ih =>
      rw [sendItems]
      cases hround : t.sendItem im now stats origSlot destSlot with
      | error msg => exact Nat.le_add_right _ _
      | ok t' =>
          have hone := (sendItem_ok hround).length_received
          have hrest := ih (origSlot + 1) (destSlot + 1) t'
          dsimp only
          omega

/-- A loop that ends well and adds an item in each round found its slot numbers lined up. -/
theorem linesUp_of_sendItems {n origSlot destSlot : Nat}
    (hok : (sendItems im now stats n origSlot destSlot t).2 = .ok)
    (hlen : (sendItems im now stats n origSlot destSlot t).1.received.length =
      t.received.length + n) : LinesUp n origSlot destSlot t.sent t.received := by
  induction n generalizing origSlot destSlot t with
  | zero =>
      intro k hk
      cases hk
  | succ n ih =>
      rw [sendItems] at hok hlen
      cases hround : t.sendItem im now stats origSlot destSlot with
      | error msg =>
          rw [hround] at hok
          cases hok
      | ok t' =>
          rw [hround] at hok hlen
          dsimp only at hok hlen
          have hdone := sendItem_ok hround
          have hrest := length_received_sendItems im now stats n (origSlot + 1) (destSlot + 1) t'
          have hone := hdone.length_received
          obtain ⟨i, source, -, hfree, -, -⟩ | ⟨-, hsame⟩ := hdone.item
          · exact (ih hok (by omega)).cons hdone hfree
          · omega

/-- No loop gives stamps back, whatever its rounds do. -/
theorem stampCount_sendItems (n origSlot destSlot : Nat) (t : Transit)
    (hstamps : n ≤ t.stampCount im) :
    (sendItems im now stats n origSlot destSlot t).1.stampCount im ≤ t.stampCount im := by
  induction n generalizing origSlot destSlot t with
  | zero => exact le_rfl
  | succ n ih =>
      rw [sendItems]
      cases hround : t.sendItem im now stats origSlot destSlot with
      | error msg => exact le_rfl
      | ok t' =>
          have hpaid := (sendItem_ok hround).stampCount (by omega)
          have hrest := ih (origSlot + 1) (destSlot + 1) t' (by omega)
          dsimp only
          omega

/-- A loop whose first round goes through ends with fewer stamps. -/
theorem stampCount_sendItems_lt {n origSlot : Nat} (destSlot : Nat) (hsend : Sendable t.sent origSlot)
    (hstamps : (n + 1 : Nat) ≤ t.stampCount im) :
    (sendItems im now stats (n + 1) origSlot destSlot t).1.stampCount im < t.stampCount im := by
  obtain ⟨t', ht'⟩ := exists_sendItem im now stats destSlot hsend
  have hpaid := (sendItem_ok ht').stampCount (by omega)
  have hrest : (sendItems im now stats n (origSlot + 1) (destSlot + 1) t').1.stampCount im ≤
      t'.stampCount im := stampCount_sendItems n _ _ _ (by omega)
  rw [sendItems, ht']
  exact lt_of_le_of_lt hrest (by omega)

/-! ### The query -/

/-- Every stack went over to the account, which kept what it had, for one stamp each. -/
structure SentAll (im : ItemManager) (s s' : VaultState) (id : Int) : Prop where
  emptied : s'.account.box = []
  received : ∃ acc acc' moved, s.accounts id = some acc ∧ s'.accounts id = some acc' ∧
    acc'.box.Perm (acc.box ++ moved) ∧
    (moved.map InventorySlot.content).Perm (s.account.box.map InventorySlot.content) ∧
    ∀ c, c ≠ deliveryContainer → acc'.inventory.containerList c = acc.inventory.containerList c
  stamps : stampCount im s'.character = stampCount im s.character - s.account.box.length

/-- Every container of the two parties and of all others is as it was. -/
structure Unmoved (s s' : VaultState) : Prop where
  account : s'.account.inventory.containerList = s.account.inventory.containerList
  character : s'.character.containerList = s.character.containerList
  accounts : ∀ id, (s'.accounts id).map (·.inventory.containerList) =
    (s.accounts id).map (·.inventory.containerList)

/-- A query that was answered OK sent everything, and one that was not sent nothing. -/
def AllOrNothing (im : ItemManager) (s : VaultState) (q : SendQuery) (r : VaultState × Response) :
    Prop :=
  (r.2 = .ok → ∃ id, q.getAccountID (q.getIDByName q.name) = some id ∧ SentAll im s r.1 id) ∧
    (r.2 ≠ .ok → Unmoved s r.1)

theorem deliver_recipient (s : VaultState) (id : Int) (acc : AccountData) (t : Transit) :
    (s.deliver id acc t).accounts id = some { acc with inventory := t.boxes.inv .account } :=
  Function.update_self _ _ _

theorem vaultSend_of_admitted {s : VaultState} {q : SendQuery} {id : Int} {acc : AccountData}
    (h : Admitted im s q id acc) :
    s.vaultSend im now q =
      (s.deliver id acc (sendItems im now q.stats s.account.box.length 0 acc.box.length
          (s.transit q acc)).1,
        (sendItems im now q.stats s.account.box.length 0 acc.box.length (s.transit q acc)).2) := by
  rw [VaultState.vaultSend, findRecipient_ok.mpr h]

variable (now) in
/-- A loop that stops at its first round leaves everything. -/
theorem unmoved_of_not_sendable {s : VaultState} {q : SendQuery} {id : Int} {acc : AccountData}
    (h : Admitted im s q id acc) (hsend : ¬Sendable s.account.box 0) :
    (s.vaultSend im now q).2 ≠ .ok ∧ Unmoved s (s.vaultSend im now q).1 := by
  rw [vaultSend_of_admitted h]
  obtain ⟨first, rest, hbox⟩ := List.exists_cons_of_ne_nil h.items
  have hlen : s.account.box.length = rest.length + 1 := by rw [hbox, List.length_cons]
  rw [hlen, sendItems]
  cases hround : (s.transit q acc).sendItem im now q.stats 0 acc.box.length with
  | ok t' => exact absurd (sendItem_ok hround).sendable hsend
  | error msg =>
      refine ⟨by simp, rfl, rfl, fun other => ?_⟩
      by_cases hid : other = id
      · rw [hid, h.account]
        exact congrArg _ (deliver_recipient _ _ _ _)
      · exact congrArg _ (Function.update_of_ne hid _ _)

variable (now) in
theorem sentAll_of_linesUp {s : VaultState} {q : SendQuery} {id : Int} {acc : AccountData}
    (h : Admitted im s q id acc)
    (hlines : LinesUp s.account.box.length 0 acc.box.length s.account.box acc.box) :
    (s.vaultSend im now q).2 = .ok ∧ SentAll im s (s.vaultSend im now q).1 id := by
  obtain ⟨hok, hmoved⟩ := sendItems_of_linesUp now q.stats (t := s.transit q acc) hlines h.stamps
  rw [vaultSend_of_admitted h]
  generalize sendItems im now q.stats s.account.box.length 0 acc.box.length (s.transit q acc) = r
    at hok hmoved
  have hempty : r.1.sent = [] := by
    have hlen := hmoved.emptied
    have hbox : (s.transit q acc).sent = s.account.box := rfl
    rw [hbox] at hlen
    exact List.length_eq_zero_iff.mp (by omega)
  obtain ⟨moved, hreceived, hperm⟩ := hmoved.received
  rw [hempty, List.map_nil, List.append_nil] at hperm
  refine ⟨hok, hempty, ⟨acc, _, moved, h.account, deliver_recipient _ _ _ _, ?_, hperm, ?_⟩,
    hmoved.stamps⟩
  · exact List.Perm.of_eq hreceived
  · intro c hc
    exact hmoved.elsewhere (.account, c) hc

/-- The delivery is all or nothing exactly when the query is refused, the first item stays where
it is, or every item is found, goes over and finds its place free. -/
theorem vaultSend_allOrNothing_iff (im : ItemManager) (now : Nat) (s : VaultState)
    (q : SendQuery) :
    AllOrNothing im s q (s.vaultSend im now q) ↔
      ∀ id acc, Admitted im s q id acc →
        ¬Sendable s.account.box 0 ∨
          LinesUp s.account.box.length 0 acc.box.length s.account.box acc.box := by
  constructor
  · rintro ⟨hsent, hkept⟩ id acc hadm
    by_cases hsend : Sendable s.account.box 0
    · right
      rw [vaultSend_of_admitted hadm] at hsent hkept
      have hless : (sendItems im now q.stats s.account.box.length 0 acc.box.length
          (s.transit q acc)).1.stampCount im < (s.transit q acc).stampCount im := by
        obtain ⟨first, rest, hbox⟩ := List.exists_cons_of_ne_nil hadm.items
        have hlen : s.account.box.length = rest.length + 1 := by rw [hbox, List.length_cons]
        have hstamps := hadm.stamps
        rw [hlen] at hstamps ⊢
        exact stampCount_sendItems_lt acc.box.length hsend hstamps
      by_cases hok : (sendItems im now q.stats s.account.box.length 0 acc.box.length
          (s.transit q acc)).2 = .ok
      · obtain ⟨id', hid', hall⟩ := hsent hok
        obtain rfl : id' = id := Option.some.inj (hid'.symm.trans hadm.character)
        obtain ⟨acc₀, acc', moved, hacc₀, hacc', hbox, hcontent, -⟩ := hall.received
        obtain rfl : acc₀ = acc := Option.some.inj (hacc₀.symm.trans hadm.account)
        obtain rfl := Option.some.inj ((deliver_recipient s id' acc₀ _).symm.trans hacc')
        apply linesUp_of_sendItems hok
        have hlen := hbox.length_eq
        have hmoved := hcontent.length_eq
        rw [List.length_append] at hlen
        rw [List.length_map, List.length_map] at hmoved
        exact hlen.trans (congrArg _ hmoved)
      · -- The first stamp is gone.
        have hsame := (hkept hok).character
        have hcount : (sendItems im now q.stats s.account.box.length 0 acc.box.length
            (s.transit q acc)).1.stampCount im = (s.transit q acc).stampCount im := by
          unfold Transit.stampCount stampCount
          rw [getItemCount_eq_held, getItemCount_eq_held]
          exact congrArg (held im postageStampItemId) (congrFun hsame stampsContainer)
        omega
    · exact .inl hsend
  · intro h
    cases hfind : s.findRecipient im q with
    | error msg =>
        rw [VaultState.vaultSend, hfind]
        refine ⟨fun hok => ?_, fun _ => ⟨rfl, rfl, fun _ => rfl⟩⟩
        cases hok
    | ok found =>
        obtain ⟨id, acc⟩ := found
        have hadm := findRecipient_ok.mp hfind
        obtain hstay | hlines := h id acc hadm
        · obtain ⟨hrefused, hkept⟩ := unmoved_of_not_sendable now hadm hstay
          exact ⟨fun hok => absurd hok hrefused, fun _ => hkept⟩
        · obtain ⟨hok, hall⟩ := sentAll_of_linesUp now hadm hlines
          exact ⟨fun _ => ⟨id, hadm.character, hall⟩, fun hrefused => absurd hok hrefused⟩

/-! A box with items at the slot numbers 0 and 2. -/

def postage : ItemManager :=
  .ofList [{ mID := postageStampItemId, mIvType1 := .stacking, mIvMax1 := 50 }, { mID := 5 }]

def gappedBox : VaultState where
  account :=
    { inventory := InventoryManager.setContainer {} deliveryContainer
        [{ ccsid := getCCSID deliveryContainer 0, iid := 5 },
          { ccsid := getCCSID deliveryContainer 2, iid := 5 }] }
  character := InventoryManager.setContainer {} stampsContainer
    [{ ccsid := getCCSID stampsContainer 0, iid := postageStampItemId, count := 9 }]
  accounts id := if id = 2 then some { DeliveryBoxSlots := 4 } else none
  placed := ⟨by decide, List.nodup_singleton _⟩

def toFriend : SendQuery where
  name := "Friend"
  accountID := 1
  stats := ⟨1, 1⟩
  getIDByName _ := 20
  getAccountID _ := some 2

theorem gappedBox_sent_in_part :
    ¬AllOrNothing postage gappedBox toFriend (gappedBox.vaultSend postage 0 toFriend) := by
  intro h
  have hrefused : (gappedBox.vaultSend postage 0 toFriend).2 ≠ .ok := by decide
  have hbox := congrFun (h.2 hrefused).account deliveryContainer
  have hless : ((gappedBox.vaultSend postage 0 toFriend).1.account.inventory.containerList
      deliveryContainer).length ≠
        (gappedBox.account.inventory.containerList deliveryContainer).length := by decide
  exact hless (congrArg List.length hbox)

end Vault

end Iceee
