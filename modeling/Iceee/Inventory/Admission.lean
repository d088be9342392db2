import Iceee.Inventory.Handlers
import Iceee.Lib.Keyed
import Iceee.Lib.Trace

/-!
# What may enter a container

A move brings an item into its destination, and a swap brings the displaced item into the
origin. `Arrival` says for each entry after a move which of the two it is, or that it was
there before. The admission rules follow: the destination is checked in every case, the
origin only when it is the equipment, so the runs considered are those in which a
displaced item is one that its new container admits.
-/

namespace Iceee

open Lib InventoryManager

namespace CharacterState

variable {im : ItemManager} {s : CharacterState} {stats : MoveStats} {m : MoveRequest}

/-! ### Entries after a change of one place -/

theorem mem_modifyAt {p q : Place} {i : Nat} {f : InventorySlot → InventorySlot}
    {e : InventorySlot} (h : e ∈ (s.modifyAt p i f).slotsAt q) :
    e ∈ s.slotsAt q ∨ q = p ∧ ∃ old, (s.slotsAt p)[i]? = some old ∧ e = f old := by
  rw [modifyAt, slotsAt_setSlots] at h
  by_cases hq : q = p
  · subst hq
    rw [Function.update_self] at h
    exact (mem_modify h).imp_right fun hf => ⟨rfl, hf⟩
  · rw [Function.update_of_ne hq] at h
    exact .inl h

theorem mem_eraseAt {p q : Place} {i : Nat} {e : InventorySlot}
    (h : e ∈ (s.eraseAt p i).slotsAt q) : e ∈ s.slotsAt q := by
  rw [eraseAt, slotsAt_setSlots] at h
  by_cases hq : q = p
  · subst hq
    rw [Function.update_self] at h
    exact (List.eraseIdx_sublist _ i).subset h
  · rwa [Function.update_of_ne hq] at h

theorem mem_append {p q : Place} {item e : InventorySlot}
    (h : e ∈ (s.append p item).slotsAt q) : e ∈ s.slotsAt q ∨ q = p ∧ e = item := by
  rw [append, slotsAt_setSlots] at h
  by_cases hq : q = p
  · subst hq
    rw [Function.update_self] at h
    exact (List.mem_append.mp h).imp_right fun he => ⟨rfl, List.mem_singleton.mp he⟩
  · rw [Function.update_of_ne hq] at h
    exact .inl h

/-- A change that keeps CCSIDs keeps them index by index. -/
theorem ccsid_modifyAt {p q : Place} {i j : Nat} {f : InventorySlot → InventorySlot}
    {e : InventorySlot} (h : ((s.modifyAt p i f).slotsAt q)[j]? = some e)
    (hf : ∀ item, (f item).ccsid = item.ccsid) :
    ∃ old, (s.slotsAt q)[j]? = some old ∧ e.ccsid = old.ccsid := by
  rw [modifyAt, slotsAt_setSlots] at h
  by_cases hq : q = p
  · subst hq
    rw [Function.update_self, List.getElem?_modify] at h
    obtain ⟨old, hold, he⟩ := Option.map_eq_some_iff.mp h
    refine ⟨old, hold, ?_⟩
    split at he
    · rw [← he, hf]
    · rw [← he]
  · rw [Function.update_of_ne hq] at h
    exact ⟨e, h, rfl⟩

/-! ### Where the entries of a place come from -/

/-- How an entry came to be in a place after one move. -/
inductive Arrival (s : CharacterState) (m : MoveRequest) (eff : MoveEffect)
    (source : InventorySlot) (p : Place) (e : InventorySlot) : Prop
  | stayed (old : InventorySlot) (mem : old ∈ s.slotsAt p) (same : e = { old with count := e.count })
  | moved (place : p = m.dest) (same : e = { source with ccsid := e.ccsid })
      (slot : e.getSlot = m.destSlot.toNat % 65536)
  | displaced (i j : Nat) (dest : InventorySlot) (swaps : eff = .swap i j source dest)
      (place : p = m.orig) (same : e = { dest with ccsid := e.ccsid })
      (slot : (e.getSlot : Int) = m.origSlot)

theorem Arrival.of_mem {eff : MoveEffect} {source : InventorySlot} {p : Place}
    {e : InventorySlot} (h : e ∈ s.slotsAt p) : Arrival s m eff source p e :=
  .stayed e h rfl

/-- An entry after a move was there before, is the moved item, or is the displaced one. -/
theorem mem_applyEffect {i : Nat} {source : InventorySlot} {eff : MoveEffect}
    (hc : MoveChecked im s m i source) (ho : MoveOutcome im s stats m i source eff) {p : Place}
    {e : InventorySlot} (he : e ∈ (s.applyEffect m eff).slotsAt p) :
    Arrival s m eff source p e := by
  obtain ⟨hsource, horig⟩ := findBySlot_some hc.source_found
  have hlanded : (getCCSID m.dest.2 m.destSlot.toNat) % 65536 = m.destSlot.toNat % 65536 := by
    unfold getCCSID
    omega
  cases ho with
  | relocate free same =>
      simp only [applyEffect] at he
      rcases mem_modifyAt he with he | ⟨rfl, old, hold, rfl⟩
      · exact .of_mem he
      · obtain rfl : old = source := Option.some.inj (hold.symm.trans hsource)
        exact .moved same.symm rfl hlanded
  | transfer free other =>
      simp only [applyEffect] at he
      rcases mem_append (mem_eraseAt he) with he | ⟨rfl, rfl⟩
      · exact .of_mem he
      · exact .moved rfl rfl hlanded
  | merge dest_found same stackable fits =>
      simp only [applyEffect] at he
      rcases mem_modifyAt (mem_eraseAt he) with he | ⟨rfl, old, hold, rfl⟩
      · exact .of_mem he
      · exact .stayed old (List.mem_of_getElem? hold) rfl
  | mergePart dest_found same stackable exceeds =>
      simp only [applyEffect] at he
      rcases mem_modifyAt he with he | ⟨rfl, mid, hmid, rfl⟩
      · rcases mem_modifyAt he with he | ⟨rfl, old, hold, rfl⟩
        · exact .of_mem he
        · exact .stayed old (List.mem_of_getElem? hold) rfl
      · rcases mem_modifyAt (List.mem_of_getElem? hmid) with hold | ⟨hplace, old, hold, rfl⟩
        · exact .stayed mid hold rfl
        · rw [← hplace] at hold
          exact .stayed old (List.mem_of_getElem? hold) rfl
  | @swap j dest dest_found allowed =>
      obtain ⟨hdest, hslot⟩ := findBySlot_some dest_found
      have hcut : dest.getSlot = m.destSlot.toNat % 65536 := by
        have hlt : dest.getSlot < 65536 := Nat.mod_lt _ (by norm_num)
        omega
      simp only [applyEffect] at he
      rcases mem_modifyAt he with he | ⟨rfl, mid, hmid, rfl⟩
      · rcases mem_modifyAt he with he | ⟨rfl, old, hold, rfl⟩
        · exact .of_mem he
        · obtain rfl : old = dest := Option.some.inj (hold.symm.trans hdest)
          exact .moved rfl rfl hcut
      · obtain ⟨old, hold, hccsid⟩ := ccsid_modifyAt hmid fun _ => rfl
        obtain rfl : old = source := Option.some.inj (hold.symm.trans hsource)
        refine .displaced i j dest rfl rfl rfl ?_
        rw [← horig]
        simp only [InventorySlot.getSlot, InventorySlot.copyFrom, hccsid, Bool.false_eq_true,
          if_false]

theorem slotsAt_recount (s : CharacterState) (m : MoveRequest) :
    (s.recount im m).slotsAt = s.slotsAt := by
  unfold recount
  split
  · simp only
    split
    · rw [slotsAt_setInv _ _ (countInventorySlots_containerList im _),
        slotsAt_setInv _ _ (countInventorySlots_containerList im _)]
    · rw [slotsAt_setInv _ _ (countInventorySlots_containerList im _)]
  · rfl

/-! ### The rules on bound items and stamps -/

/-- What the containers of the two inventories may hold. -/
structure RulesHold (s : CharacterState) : Prop where
  delivery : ∀ o, ∀ item ∈ s.slotsAt (o, deliveryContainer), item.bindStatus = 0
  auction : ∀ o, ∀ item ∈ s.slotsAt (o, auctionContainer), item.bindStatus = 0
  bank : s.localCharacterVault = false →
    ∀ o, ∀ item ∈ s.slotsAt (o, bankContainer), item.bindStatus = 0
  stamps : ∀ o, ∀ item ∈ s.slotsAt (o, stampsContainer), item.iid = postageStampItemId

/-- The same rules read for one item and one container. -/
def Admits (localCharacterVault : Bool) (c : ContainerID) (item : InventorySlot) : Prop :=
  (refusesBound localCharacterVault c → item.bindStatus = 0) ∧
    (c = stampsContainer → item.iid = postageStampItemId)

instance (localCharacterVault : Bool) (c : ContainerID) :
    DecidablePred (Admits localCharacterVault c) :=
  fun _ => inferInstanceAs (Decidable (_ ∧ _))

theorem rulesHold_iff :
    s.RulesHold ↔ ∀ p, ∀ item ∈ s.slotsAt p, Admits s.localCharacterVault p.2 item := by
  constructor
  · rintro h ⟨o, c⟩ item hitem
    refine ⟨fun hrefuses => ?_, ?_⟩
    · simp only [refusesBound, Bool.or_eq_true, Bool.and_eq_true, beq_iff_eq,
        Bool.not_eq_true'] at hrefuses
      obtain (⟨rfl, hlocal⟩ | rfl) | rfl := hrefuses
      · exact h.bank hlocal o item hitem
      · exact h.delivery o item hitem
      · exact h.auction o item hitem
    · rintro rfl
      exact h.stamps o item hitem
  · intro h
    refine ⟨fun o item hitem => ?_, fun o item hitem => ?_, fun hlocal o item hitem => ?_,
      fun o item hitem => (h _ item hitem).2 rfl⟩
    · exact (h _ item hitem).1 (by simp [refusesBound])
    · exact (h _ item hitem).1 (by simp [refusesBound])
    · exact (h _ item hitem).1 (by simp [refusesBound, hlocal])

/-- A swap displaces only an item that the origin's container admits. -/
def SwapAdmits (s : CharacterState) (m : MoveRequest) : MoveEffect → Prop
  | .swap _ _ _ dest => Admits s.localCharacterVault m.orig.2 dest
  | .merge _ _ _ | .mergePart _ _ _ | .relocate _ | .transfer _ _ => True

instance (s : CharacterState) (m : MoveRequest) : DecidablePred (s.SwapAdmits m)
  | .swap _ _ _ _ => inferInstanceAs (Decidable (Admits _ _ _))
  | .merge _ _ _ | .mergePart _ _ _ | .relocate _ | .transfer _ _ =>
      inferInstanceAs (Decidable True)

@[simp] theorem applyEffect_localCharacterVault (s : CharacterState) (m : MoveRequest)
    (eff : MoveEffect) : (s.applyEffect m eff).localCharacterVault = s.localCharacterVault := by
  cases eff <;> rfl

@[simp] theorem recount_localCharacterVault (s : CharacterState) (m : MoveRequest) :
    (s.recount im m).localCharacterVault = s.localCharacterVault := by
  unfold recount
  split
  · simp only
    split <;> rfl
  · rfl

@[simp] theorem recount_copper (s : CharacterState) (m : MoveRequest) :
    (s.recount im m).copper = s.copper := by
  unfold recount
  split
  · simp only
    split <;> rfl
  · rfl

/-- The rules do not look at how many items a stack holds, nor at the CCSID. -/
theorem Admits.congr {localCharacterVault : Bool} {c : ContainerID}
    {item item' : InventorySlot} (h : Admits localCharacterVault c item)
    (hbind : item'.bindStatus = item.bindStatus) (hiid : item'.iid = item.iid) :
    Admits localCharacterVault c item' := by
  unfold Admits
  rw [hbind, hiid]
  exact h

/-- The destination admits the moved item. -/
theorem MoveChecked.admits {i : Nat} {source : InventorySlot} (h : MoveChecked im s m i source)
    (hr : s.moveRefusal im stats m = none) :
    Admits s.localCharacterVault m.dest.2 source := by
  obtain ⟨-, hstamps, -⟩ := moveRefusal_none im hr
  refine ⟨fun hrefuses => ?_, fun hc => ?_⟩
  · by_contra hbound
    exact h.bound ⟨hrefuses, hbound⟩
  · obtain ⟨d, hd, hid⟩ := hstamps hc _ h.source_found
    exact (im.mID_eq hd).symm.trans hid

theorem RulesHold.itemMoveQuery (h : s.RulesHold) {ctx : MoveContext}
    {args : Option (Nat × String × Int)}
    (hswap : ∀ r ∈ s.moveOf im ctx args, s.SwapAdmits r.1 r.2) :
    (s.itemMoveQuery im ctx args).2.RulesHold := by
  rw [itemMoveQuery_snd]
  cases hm : s.moveOf im ctx args with
  | none => exact h
  | some r =>
      obtain ⟨m, eff⟩ := r
      obtain ⟨-, hrefusal, heff⟩ := moveOf_some im hm
      obtain ⟨i, source, hc, ho⟩ := itemMoveEffect_ok im heff
      rw [rulesHold_iff] at h ⊢
      intro p item hitem
      simp only [slotsAt_recount, recount_localCharacterVault,
        applyEffect_localCharacterVault] at hitem ⊢
      cases mem_applyEffect hc ho hitem with
      | stayed old mem same =>
          exact (h p old mem).congr (by rw [same]) (by rw [same])
      | moved place same slot =>
          rw [place]
          exact (hc.admits hrefusal).congr (by rw [same]) (by rw [same])
      | displaced i j dest swaps place same slot =>
          rw [place]
          have hadmits := hswap (m, eff) hm
          rw [swaps] at hadmits
          exact hadmits.congr (by rw [same]) (by rw [same])

/-! ### The rule on equipment -/

/-- The slot the equipment check asks for is the client's, or one fixed small number. -/
theorem targetEquipSlot_cases (d : ItemDef) :
    (∀ slot, targetEquipSlot d slot = slot) ∨
      ∃ k < 65536, ∀ slot, targetEquipSlot d slot = k := by
  unfold targetEquipSlot
  cases d.mEquipType with
  | weapon1H | weapon1HUnique | weapon1HMain | weapon1HOff | weapon2H | weaponRanged =>
      cases d.mWeaponType <;>
        first
        | exact .inl fun _ => rfl
        | exact .inr ⟨0, by decide, fun _ => rfl⟩
  | armorRing | armorRingUnique | container => exact .inl fun _ => rfl
  | _ => exact .inr ⟨_, by decide, fun _ => rfl⟩

/-- An item that may go to a slot may also go to what sixteen bits leave of it. -/
theorem verifyEquipItem_cut {itemDef : Option ItemDef} {slot level profession : Int}
    (h0 : 0 ≤ slot) (h : verifyEquipItem itemDef slot level profession = none) :
    verifyEquipItem itemDef (slot.toNat % 65536 : Nat) level profession = none := by
  cases itemDef with
  | none => cases h
  | some d =>
      unfold verifyEquipItem at h ⊢
      simp only at h ⊢
      split_ifs at h with hlevel hprofession htarget
      rw [if_neg hlevel, if_neg hprofession, if_neg]
      rw [not_not] at htarget ⊢
      rcases targetEquipSlot_cases d with hid | ⟨k, hk, hconst⟩
      · exact hid _
      · rw [hconst] at htarget ⊢
        omega

/-- What a swap checked about the item that goes into the equipment. -/
theorem swapRefusal_none {dest : InventorySlot} (h : swapRefusal im stats m dest = none)
    (heq : m.orig.2 = eqContainer) :
    verifyEquipItem (im.getPointerByID dest.iid) m.origSlot stats.level stats.profession =
      none := by
  unfold swapRefusal at h
  rw [if_pos heq] at h
  cases hd : im.getPointerByID dest.iid with
  | none => simp [hd] at h
  | some d => simpa [hd] using h

/-- An entry that arrived in the equipment passed the check for the slot it has. -/
theorem Arrival.verified {i : Nat} {source : InventorySlot} {eff : MoveEffect}
    (hc : MoveChecked im s m i source) (ho : MoveOutcome im s stats m i source eff)
    (hr : s.moveRefusal im stats m = none) {p : Place} (hp : p.2 = eqContainer)
    {e : InventorySlot} (h : Arrival s m eff source p e) :
    (∃ old ∈ s.slotsAt p, e = { old with count := e.count }) ∨
      verifyEquipItem (im.getPointerByID e.iid) e.getSlot stats.level stats.profession =
        none := by
  cases h with
  | stayed old mem same => exact .inl ⟨old, mem, same⟩
  | moved place same slot =>
      obtain ⟨hpos, -, heq⟩ := moveRefusal_none im hr
      have hverified := heq (place ▸ hp) _ hc.source_found
      have hiid : e.iid = source.iid := by rw [same]
      rw [slot, hiid]
      exact .inr (verifyEquipItem_cut hpos hverified)
  | displaced i j dest swaps place same slot =>
      subst swaps
      cases ho with
      | swap dest_found allowed =>
          have hiid : e.iid = dest.iid := by rw [same]
          rw [slot, hiid]
          exact .inr (swapRefusal_none allowed (place ▸ hp))

end CharacterState

/-- One `item.move` query of a run. -/
structure MoveEvent where
  ctx : MoveContext
  args : Option (Nat × String × Int)
  deriving DecidableEq, Repr

namespace CharacterState

variable (im : ItemManager)

/-- One query of a run that consists of moves. -/
def moveStep (s : CharacterState) (e : MoveEvent) : Option CharacterState :=
  some (s.itemMoveQuery im e.ctx e.args).2

/-- If the query swaps, the origin's container admits the displaced item. -/
def DisplacesAdmitted (s : CharacterState) (e : MoveEvent) : Prop :=
  ∀ r ∈ s.moveOf im e.ctx e.args, s.SwapAdmits r.1 r.2

instance (s : CharacterState) : DecidablePred (s.DisplacesAdmitted im) :=
  fun _ => inferInstanceAs (Decidable (∀ r ∈ _, _))

/-- The entry has been in its place since the start of the run, or the query that put it
there found that it passes the equipment check for its slot. -/
def EnteredVerified : List (CharacterState × MoveEvent) → Place → InventorySlot → Prop
  | [], _, _ => True
  | (s, ev) :: h, p, e =>
      (∃ old ∈ s.slotsAt p, e = { old with count := e.count } ∧ EnteredVerified h p old) ∨
        verifyEquipItem (im.getPointerByID e.iid) e.getSlot ev.ctx.stats.level
          ev.ctx.stats.profession = none

variable {im}

/-- One query keeps the record of verified equipment. -/
theorem enteredVerified_moveStep {h : List (CharacterState × MoveEvent)}
    {s s' : CharacterState} {ev : MoveEvent} {p : Place} (hp : p.2 = eqContainer)
    (hall : ∀ e ∈ s.slotsAt p, EnteredVerified im h p e) (hs : s.moveStep im ev = some s') :
    ∀ e ∈ s'.slotsAt p, EnteredVerified im ((s, ev) :: h) p e := by
  obtain rfl : (s.itemMoveQuery im ev.ctx ev.args).2 = s' := Option.some.inj hs
  intro e he
  rw [itemMoveQuery_snd] at he
  cases hm : s.moveOf im ev.ctx ev.args with
  | none =>
      rw [hm] at he
      exact .inl ⟨e, he, rfl, hall e he⟩
  | some r =>
      obtain ⟨m, eff⟩ := r
      obtain ⟨-, hrefusal, heff⟩ := moveOf_some im hm
      obtain ⟨i, source, hc, ho⟩ := itemMoveEffect_ok im heff
      simp only [hm, slotsAt_recount] at he
      rcases (mem_applyEffect hc ho he).verified hc ho hrefusal hp with
        ⟨old, hold, hsame⟩ | hverified
      · exact .inl ⟨old, hold, hsame, hall old hold⟩
      · exact .inr hverified

/-- In every run of moves that displace only admitted items, from inventories that obey
the rules, the rules hold and all equipment was verified when it entered its slot. -/
theorem run_admits {h : List (CharacterState × MoveEvent)} {s : CharacterState}
    (run : Trace RulesHold (DisplacesAdmitted im) (moveStep im) h s) :
    s.RulesHold ∧
      ∀ o, ∀ e ∈ s.slotsAt (o, eqContainer), EnteredVerified im h (o, eqContainer) e := by
  constructor
  · refine Reach.invariant (fun _ h0 => h0) (fun s ev s' hrules hok hs => ?_) ⟨h, run⟩
    obtain rfl : (s.itemMoveQuery im ev.ctx ev.args).2 = s' := Option.some.inj hs
    exact hrules.itemMoveQuery hok
  · intro o
    induction run with
    | start _ => exact fun _ _ => trivial
    | next _ _ hs ih => exact enteredVerified_moveStep rfl ih hs

/-! One parcel is fetched from the delivery box into a backpack slot that is taken. -/

def parcelTable : ItemManager := .ofList [{ mID := 100 }, { mID := 101 }]

/-- The backpack item is bound or not. -/
def parcelState (bindStatus : Int) : CharacterState where
  inv o :=
    if o = .account then
      { containerList := fun c =>
          if c = deliveryContainer then
            [{ ccsid := getCCSID deliveryContainer 0, iid := 100 }] else [] }
    else
      { containerList := fun c =>
          if c = invContainer then [{ iid := 101, bindStatus := bindStatus }] else []
        maxContainerSlot := fun c => if c = invContainer then 24 else 0 }

def fetchParcel : MoveEvent where
  ctx := { stats := { level := 1, profession := 1 } }
  args := some (getCCSID deliveryContainer 0, "inv", 0)

def parcelFetched (bindStatus : Int) : CharacterState :=
  (runAll (moveStep parcelTable) (parcelState bindStatus) [fetchParcel]).getD {}

theorem run_admits_parcel :
    (parcelFetched 0).RulesHold ∧ ∀ o, ∀ e ∈ (parcelFetched 0).slotsAt (o, eqContainer),
      EnteredVerified parcelTable
        (logAll (moveStep parcelTable) [] (parcelState 0) [fetchParcel]) (o, eqContainer) e := by
  have hrun : runAll (moveStep parcelTable) (parcelState 0) [fetchParcel] =
      some (parcelFetched 0) := eq_some_getD (by decide) _
  have start : Trace RulesHold (DisplacesAdmitted parcelTable) (moveStep parcelTable) []
      (parcelState 0) :=
    .start ⟨by decide, by decide, by decide, by decide⟩
  exact run_admits (start.runAll (by decide) hrun)

/-- A bound backpack item that is displaced ends in the delivery box. -/
theorem displaced_item_is_bound :
    ∃ h s, Trace RulesHold (fun _ _ => True) (moveStep parcelTable) h s ∧ ¬s.RulesHold := by
  have hrun : runAll (moveStep parcelTable) (parcelState 1) [fetchParcel] =
      some (parcelFetched 1) := eq_some_getD (by decide) _
  have start : Trace RulesHold (fun _ _ => True) (moveStep parcelTable) [] (parcelState 1) :=
    .start ⟨by decide, by decide, by decide, by decide⟩
  refine ⟨_, parcelFetched 1, start.runAll (okAll_true _ _) hrun, fun hrules => ?_⟩
  exact absurd hrules.delivery (by decide +kernel)

end CharacterState

end Iceee
