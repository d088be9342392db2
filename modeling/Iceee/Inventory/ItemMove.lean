import Iceee.Inventory.Quantity
import Iceee.Lib.Machine

/-!
# Moving an item

`item.move` takes a slot of the character's inventory, or of the account's delivery
box, to a slot of either. `itemMoveEffect` makes the checks of `ItemMove` and says
what the move would do; `applyEffect` does it. The query handler makes its own checks
first and recounts the backpack after equipment changed.

## Implementation notes

The two inventories are one family of lists, indexed by owner and container, so that
an origin and a destination in the same list need no case of their own.
-/

namespace Iceee

open Lib

/-- Whose inventory an item lies in. -/
inductive Owner
  | character | account
  deriving DecidableEq, Repr

instance : Fintype Owner where
  elems := {.character, .account}
  complete o := by cases o <;> simp

/-- One container of one of the two inventories. -/
abbrev Place := Owner × ContainerID

structure CharacterState where
  inv : Owner → InventoryManager := fun _ => {}
  copper : Int := 0
  localCharacterVault : Bool := false

namespace CharacterState

/-- The slots in one place. -/
def slotsAt (s : CharacterState) (p : Place) : List InventorySlot := (s.inv p.1).containerList p.2

/-- Replace one of the two inventories. -/
def setInv (s : CharacterState) (o : Owner) (inv : InventoryManager) : CharacterState :=
  { s with inv := Function.update s.inv o inv }

/-- Replace the slots in one place. -/
def setSlots (s : CharacterState) (p : Place) (l : List InventorySlot) : CharacterState :=
  s.setInv p.1 ((s.inv p.1).setContainer p.2 l)

@[simp] theorem setInv_copper (s : CharacterState) (o : Owner) (inv : InventoryManager) :
    (s.setInv o inv).copper = s.copper := rfl

@[simp] theorem setSlots_copper (s : CharacterState) (p : Place) (l : List InventorySlot) :
    (s.setSlots p l).copper = s.copper := rfl

@[simp] theorem setSlots_localCharacterVault (s : CharacterState) (p : Place)
    (l : List InventorySlot) : (s.setSlots p l).localCharacterVault = s.localCharacterVault := rfl

/-- Writing one place changes no other. -/
theorem slotsAt_setSlots (s : CharacterState) (p : Place) (l : List InventorySlot) :
    (s.setSlots p l).slotsAt = Function.update s.slotsAt p l := by
  funext q
  by_cases h : q = p
  · subst h
    simp [slotsAt, setSlots, setInv]
  · rw [Function.update_of_ne h]
    by_cases ho : q.1 = p.1
    · have hc : q.2 ≠ p.2 := fun hc => h (Prod.ext ho hc)
      simp [slotsAt, setSlots, setInv, ho, InventoryManager.setContainer_other _ _ hc]
    · simp [slotsAt, setSlots, setInv, ho]

/-- Replacing an inventory by one with the same slots, as a recount does. -/
theorem slotsAt_setInv (s : CharacterState) (o : Owner) {inv : InventoryManager}
    (h : inv.containerList = (s.inv o).containerList) : (s.setInv o inv).slotsAt = s.slotsAt := by
  funext q
  by_cases ho : q.1 = o
  · simp [slotsAt, setInv, ho, h]
  · simp [slotsAt, setInv, ho]

end CharacterState

namespace InventoryManager

variable (im : ItemManager)

/-- `EQ_ERROR_*`. -/
inductive EqError
  | item | level | profession | slot
  deriving DecidableEq, Repr

/-- The value of an error code; `EQ_ERROR_NONE` is 0. -/
def EqError.code : EqError → Int
  | .item => -1
  | .level => -2
  | .profession => -3
  | .slot => -4

/-- `GetEqErrorString`. -/
def getEqErrorString : EqError → String
  | .item => "The item does not exist in the server database."
  | .level => "Your level is not high enough to equip that item."
  | .profession => "That item cannot be equipped by your class."
  | .slot => "That item cannot be equipped in that slot."

/-- The slot `VerifyEquipItem` asks for. Weapons of a matching kind, rings and containers
go where the client says. -/
def targetEquipSlot (d : ItemDef) (destSlot : Int) : Int :=
  match d.mEquipType with
  | .none => ItemEquipSlot.none
  | .weapon1H | .weapon1HUnique | .weapon1HMain | .weapon1HOff =>
      match d.mWeaponType with
      | .oneHand | .small | .arcaneTotem => destSlot
      | _ => 0
  | .weapon2H =>
      match d.mWeaponType with
      | .pole | .twoHand => destSlot
      | _ => 0
  | .weaponRanged =>
      match d.mWeaponType with
      | .thrown | .wand | .bow => destSlot
      | _ => 0
  | .redCharm => ItemEquipSlot.redCharm
  | .blueCharm => ItemEquipSlot.blueCharm
  | .purpleCharm => ItemEquipSlot.purpleCharm
  | .yellowCharm => ItemEquipSlot.yellowCharm
  | .greenCharm => ItemEquipSlot.greenCharm
  | .orangeCharm => ItemEquipSlot.orangeCharm
  | .armorShield => ItemEquipSlot.weaponOffHand
  | .armorHead => ItemEquipSlot.armorHead
  | .armorNeck => ItemEquipSlot.armorNeck
  | .armorShoulder => ItemEquipSlot.armorShoulder
  | .armorChest => ItemEquipSlot.armorChest
  | .armorArms => ItemEquipSlot.armorArms
  | .armorHands => ItemEquipSlot.armorHands
  | .armorWaist => ItemEquipSlot.armorWaist
  | .armorLegs => ItemEquipSlot.armorLegs
  | .armorFeet => ItemEquipSlot.armorFeet
  | .armorRing | .armorRingUnique | .container => destSlot
  | .armorAmulet => ItemEquipSlot.armorAmulet
  | .cosmeticShoulder | .cosmeticHip | .focusFire | .focusFrost | .focusMystic | .focusDeath
  | .other _ => 0

/-- `VerifyEquipItem`; `none` is `EQ_ERROR_NONE`. -/
def verifyEquipItem (itemDef : Option ItemDef) (destSlot charLevel charProfession : Int) :
    Option EqError :=
  match itemDef with
  | none => some .item
  | some d =>
      if d.mMinUseLevel > charLevel then some .level
      else if d.mWeaponType ≠ .none ∧
          WeaponTypeClassRestrictions.isValid d.mWeaponType charProfession = false then
        some .profession
      else if targetEquipSlot d destSlot ≠ destSlot then some .slot
      else none

/-- `CountInventorySlots`: the backpack's base slots and those of equipped containers,
kept in an unsigned 32-bit variable. -/
def countInventorySlots (inv : InventoryManager) : InventoryManager :=
  let extra := ((inv.containerList eqContainer).map fun item =>
    match im.getPointerByID item.iid with
    | some d => if d.mType = .container then d.mContainerSlots else 0
    | none => 0).sum
  { inv with
    maxContainerSlot := Function.update inv.maxContainerSlot invContainer
      ((invBaseSlots + extra) % 2 ^ 32).toNat }

/-- `VerifyContainerSlotBoundary` for a container inside the array. -/
def verifyContainerSlotBoundary (inv : InventoryManager) (c : ContainerID) (slot : Int) : Bool :=
  if slot < 0 then false
  else if c = invContainer ∧ slot ≥ wrap32 (inv.maxContainerSlot c) then false
  else true

/-- The slot a slot number leads to, with its index. -/
def findBySlot (inv : InventoryManager) (c : ContainerID) (slot : Int) :
    Option (Nat × InventorySlot) :=
  (inv.getItemBySlot c slot).bind fun i => ((inv.containerList c)[i]?).map fun item => (i, item)

/-- `IsWeaponTwoHanded` of the item in a slot. -/
def isTwoHanded (item : InventorySlot) : Bool :=
  let d := im.getSafePointerByID item.iid
  ItemManager.isWeaponTwoHanded d.mEquipType d.mWeaponType

@[simp] theorem countInventorySlots_containerList (inv : InventoryManager) :
    (inv.countInventorySlots im).containerList = inv.containerList := rfl

theorem findBySlot_some {inv : InventoryManager} {c : ContainerID} {slot : Int} {i : Nat}
    {item : InventorySlot} (h : inv.findBySlot c slot = some (i, item)) :
    (inv.containerList c)[i]? = some item ∧ (item.getSlot : Int) = slot := by
  simp only [findBySlot, Option.bind_eq_some_iff, Option.map_eq_some_iff, Prod.mk.injEq] at h
  obtain ⟨j, hj, item', hitem, rfl, rfl⟩ := h
  refine ⟨hitem, ?_⟩
  obtain ⟨hlt, hp, -⟩ := List.findIdx?_eq_some_iff_getElem.mp hj
  obtain ⟨-, rfl⟩ := List.getElem?_eq_some_iff.mp hitem
  simpa using hp

theorem findBySlot_none {inv : InventoryManager} {c : ContainerID} {slot : Int} :
    inv.findBySlot c slot = none ↔ ∀ item ∈ inv.containerList c, (item.getSlot : Int) ≠ slot := by
  unfold findBySlot getItemBySlot
  cases hi : (inv.containerList c).findIdx? fun item => (item.getSlot : Int) == slot with
  | none =>
      rw [List.findIdx?_eq_none_iff] at hi
      simpa using hi
  | some i =>
      obtain ⟨hlt, hp, -⟩ := List.findIdx?_eq_some_iff_getElem.mp hi
      have hitem : (inv.containerList c)[i]? = some (inv.containerList c)[i] :=
        List.getElem?_eq_getElem hlt
      simp only [Option.bind_some, hitem, Option.map_some, reduceCtorEq, false_iff, not_forall,
        not_not]
      exact ⟨_, List.getElem_mem hlt, by simpa using hp⟩

end InventoryManager

/-- A move as `ItemMove` gets it. -/
structure MoveRequest where
  orig : Place
  origSlot : Int
  dest : Place
  destSlot : Int
  deriving DecidableEq, Repr

/-- The CCSID a moved item gets. -/
def MoveRequest.destCCSID (m : MoveRequest) : Nat :=
  InventoryManager.getCCSID m.dest.2 m.destSlot.toNat

/-- What the character's stat set tells the equipment check. -/
structure MoveStats where
  level : Int
  profession : Int
  deriving DecidableEq, Repr

/-- What a move does once every check has passed. Indices count in the origin's and the
destination's list. -/
inductive MoveEffect
  | merge (origIndex destIndex : Nat) (count : Int)
  | mergePart (origIndex destIndex : Nat) (count : Int)
  | swap (origIndex destIndex : Nat) (source dest : InventorySlot)
  | relocate (origIndex : Nat)
  | transfer (origIndex : Nat) (source : InventorySlot)
  deriving DecidableEq, Repr

namespace CharacterState

variable (im : ItemManager)

/-- `GetItemBySlot` with the item it leads to. -/
def findAt (s : CharacterState) (p : Place) (slot : Int) : Option (Nat × InventorySlot) :=
  (s.inv p.1).findBySlot p.2 slot

/-- Whether the equipment of an inventory has something in a slot. -/
def hasEquipped (s : CharacterState) (o : Owner) (slot : Int) : Bool :=
  (s.findAt (o, eqContainer) slot).isSome

/-- Whether the first weapon in the main hand of an inventory is two-handed. -/
def wieldsTwoHanded (s : CharacterState) (o : Owner) : Bool :=
  (s.findAt (o, eqContainer) ItemEquipSlot.weaponMainHand).any
    fun e => InventoryManager.isTwoHanded im e.2

/-- The four guards on two-handed weapons and the off hand. The off hand is looked up in
the inventory the item comes from, the main hand in the one it goes to. -/
def twoHandRefusal (s : CharacterState) (m : MoveRequest) (source : InventorySlot)
    (dest : Option (Nat × InventorySlot)) : Option Int :=
  if m.dest.2 = eqContainer ∧ m.destSlot = ItemEquipSlot.weaponMainHand ∧
      InventoryManager.isTwoHanded im source ∧
      s.hasEquipped m.orig.1 ItemEquipSlot.weaponOffHand then some (-1)
  else if m.dest.2 = eqContainer ∧ m.destSlot = ItemEquipSlot.weaponOffHand ∧
      s.wieldsTwoHanded im m.dest.1 then some (-2)
  else if m.orig.2 = eqContainer ∧ m.origSlot = ItemEquipSlot.weaponMainHand ∧
      (dest.any fun e => InventoryManager.isTwoHanded im e.2) ∧
      s.hasEquipped m.orig.1 ItemEquipSlot.weaponOffHand then some (-1)
  else if m.orig.2 = eqContainer ∧ m.origSlot = ItemEquipSlot.weaponOffHand ∧
      s.wieldsTwoHanded im m.dest.1 then some (-2)
  else none

/-- Whether a bound item may not be put into a container. -/
def refusesBound (localCharacterVault : Bool) (c : ContainerID) : Bool :=
  (c == bankContainer && !localCharacterVault) || c == deliveryContainer || c == auctionContainer

/-- The check of an item that a swap puts into the equipment. -/
def swapRefusal (stats : MoveStats) (m : MoveRequest) (dest : InventorySlot) : Option Int :=
  if m.orig.2 = eqContainer then
    match im.getPointerByID dest.iid with
    | none => some 0
    | some d =>
        (InventoryManager.verifyEquipItem (some d) m.origSlot stats.level stats.profession).map
          fun e => -100 + e.code
  else none

/-- `ItemMove` up to the point where it changes something; an error is the value returned. -/
def itemMoveEffect (s : CharacterState) (stats : MoveStats) (m : MoveRequest) :
    Except Int MoveEffect :=
  match s.findAt m.orig m.origSlot with
  | none => .error 0
  | some (origIndex, source) =>
      let found := s.findAt m.dest m.destSlot
      if m.orig = m.dest ∧ m.origSlot = m.destSlot then .error (-3)
      else
        match s.twoHandRefusal im m source found with
        | some code => .error code
        | none =>
            if refusesBound s.localCharacterVault m.dest.2 ∧ source.bindStatus ≠ 0 then
              .error (-4)
            else
              match found with
              | none =>
                  if m.dest = m.orig then .ok (.relocate origIndex)
                  else .ok (.transfer origIndex source)
              | some (destIndex, dest) =>
                  match swapRefusal im stats m dest with
                  | some code => .error code
                  | none =>
                      if source.iid = dest.iid ∧ source.getMaxStack im ≥ 0 then
                        let scount := source.getStackCount im
                        let emptyStackSpace := source.getMaxStack im - dest.getStackCount im
                        if emptyStackSpace ≥ scount then
                          .ok (.merge origIndex destIndex scount)
                        else .ok (.mergePart origIndex destIndex emptyStackSpace)
                      else .ok (.swap origIndex destIndex source dest)

/-- The checks that every move passed, whatever it does then. -/
structure MoveChecked (s : CharacterState) (m : MoveRequest) (i : Nat)
    (source : InventorySlot) : Prop where
  source_found : s.findAt m.orig m.origSlot = some (i, source)
  moves : ¬(m.orig = m.dest ∧ m.origSlot = m.destSlot)
  hands : s.twoHandRefusal im m source (s.findAt m.dest m.destSlot) = none
  bound : ¬(refusesBound s.localCharacterVault m.dest.2 ∧ source.bindStatus ≠ 0)

/-- Which effect a move has, and what its branch knows. -/
inductive MoveOutcome (s : CharacterState) (stats : MoveStats) (m : MoveRequest) (i : Nat)
    (source : InventorySlot) : MoveEffect → Prop
  | relocate (free : s.findAt m.dest m.destSlot = none) (same : m.dest = m.orig) :
      MoveOutcome s stats m i source (.relocate i)
  | transfer (free : s.findAt m.dest m.destSlot = none) (other : m.dest ≠ m.orig) :
      MoveOutcome s stats m i source (.transfer i source)
  | merge {j dest} (dest_found : s.findAt m.dest m.destSlot = some (j, dest))
      (same : source.iid = dest.iid) (stackable : 0 ≤ source.getMaxStack im)
      (fits : source.getStackCount im ≤ source.getMaxStack im - dest.getStackCount im) :
      MoveOutcome s stats m i source (.merge i j (source.getStackCount im))
  | mergePart {j dest} (dest_found : s.findAt m.dest m.destSlot = some (j, dest))
      (same : source.iid = dest.iid) (stackable : 0 ≤ source.getMaxStack im)
      (exceeds : source.getMaxStack im - dest.getStackCount im < source.getStackCount im) :
      MoveOutcome s stats m i source
        (.mergePart i j (source.getMaxStack im - dest.getStackCount im))
  | swap {j dest} (dest_found : s.findAt m.dest m.destSlot = some (j, dest))
      (allowed : swapRefusal im stats m dest = none) :
      MoveOutcome s stats m i source (.swap i j source dest)

/-- What a move that goes through has checked, and which branch it took. -/
theorem itemMoveEffect_ok {s : CharacterState} {stats : MoveStats} {m : MoveRequest}
    {eff : MoveEffect} (h : s.itemMoveEffect im stats m = .ok eff) :
    ∃ i source, MoveChecked im s m i source ∧ MoveOutcome im s stats m i source eff := by
  unfold itemMoveEffect at h
  cases hs : s.findAt m.orig m.origSlot with
  | none => simp [hs] at h
  | some e =>
      obtain ⟨i, source⟩ := e
      simp only [hs] at h
      by_cases hmoves : m.orig = m.dest ∧ m.origSlot = m.destSlot
      · simp [hmoves] at h
      rw [if_neg hmoves] at h
      cases hhands : s.twoHandRefusal im m source (s.findAt m.dest m.destSlot) with
      | some code => simp [hhands] at h
      | none =>
          simp only [hhands] at h
          by_cases hbound : refusesBound s.localCharacterVault m.dest.2 ∧ source.bindStatus ≠ 0
          · simp [hbound] at h
          rw [if_neg hbound] at h
          refine ⟨i, source, ⟨hs, hmoves, hhands, hbound⟩, ?_⟩
          cases hd : s.findAt m.dest m.destSlot with
          | none =>
              simp only [hd] at h
              split_ifs at h with hsame
              · cases h
                exact .relocate hd hsame
              · cases h
                exact .transfer hd hsame
          | some e =>
              obtain ⟨j, dest⟩ := e
              simp only [hd] at h
              cases hallowed : swapRefusal im stats m dest with
              | some code => simp [hallowed] at h
              | none =>
                  simp only [hallowed] at h
                  split_ifs at h with hsame hfits
                  · cases h
                    exact .merge hd hsame.1 hsame.2 hfits
                  · cases h
                    exact .mergePart hd hsame.1 hsame.2 (not_le.mp hfits)
                  · cases h
                    exact .swap hd hallowed

/-- Change the slot at one index of a place. -/
def modifyAt (s : CharacterState) (p : Place) (i : Nat) (f : InventorySlot → InventorySlot) :
    CharacterState :=
  s.setSlots p ((s.slotsAt p).modify i f)

/-- Erase the slot at one index of a place. -/
def eraseAt (s : CharacterState) (p : Place) (i : Nat) : CharacterState :=
  s.setSlots p ((s.slotsAt p).eraseIdx i)

/-- Append a slot to a place. -/
def append (s : CharacterState) (p : Place) (item : InventorySlot) : CharacterState :=
  s.setSlots p (s.slotsAt p ++ [item])

/-- The part of `ItemMove` that changes the two inventories. -/
def applyEffect (s : CharacterState) (m : MoveRequest) : MoveEffect → CharacterState
  | .merge i j n =>
      (s.modifyAt m.dest j fun d => { d with count := d.count + n }).eraseAt m.orig i
  | .mergePart i j n =>
      (s.modifyAt m.dest j fun d => { d with count := d.count + n }).modifyAt m.orig i
        fun o => { o with count := o.count - n }
  | .swap i j source dest =>
      (s.modifyAt m.dest j fun d => d.copyFrom source false).modifyAt m.orig i
        fun o => o.copyFrom dest false
  | .relocate i => s.modifyAt m.orig i fun o => { o with ccsid := m.destCCSID }
  | .transfer i source =>
      (s.append m.dest { source with ccsid := m.destCCSID }).eraseAt m.orig i

/-- `ItemMove`. -/
def itemMove (s : CharacterState) (stats : MoveStats) (m : MoveRequest) :
    Except Int CharacterState :=
  (s.itemMoveEffect im stats m).map (s.applyEffect m)

end CharacterState

end Iceee
