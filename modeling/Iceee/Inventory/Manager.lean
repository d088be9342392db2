import Iceee.Item

/-!
# Inventories

`InventoryManager` keeps one unordered list of slots for each container. Where an
item lies is encoded in its CCSID: the container in the upper sixteen bits and the
slot number in the lower sixteen.

## Implementation notes

A CCSID from a client can name a container past the end of the array. The source
then reads outside the array; here such a lookup finds nothing. The cached item
pointer of a slot is not kept, every use looks the item up in the tables. Packets
that only report a change to a client are left out.
-/

namespace Iceee

structure InventorySlot where
  ccsid : Nat := 0
  iid : Int := 0
  count : Int := 0
  customLook : Int := 0
  bindStatus : Int := 0
  secondsRemaining : Int := -1
  timeLoaded : Nat := 0
  deriving DecidableEq, Repr

namespace InventorySlot

variable (im : ItemManager) (now : Nat)

/-- `GetContainer`: the upper sixteen bits of a 32-bit CCSID. -/
def getContainer (s : InventorySlot) : Nat := s.ccsid / 65536

/-- `GetSlot`: the lower sixteen bits. -/
def getSlot (s : InventorySlot) : Nat := s.ccsid % 65536

/-- `GetStackCount`: a stack keeps one item less than it holds in `count`. -/
def getStackCount (s : InventorySlot) : Int :=
  match im.getPointerByID s.iid with
  | some d => if d.mIvType1 = .stacking then s.count + 1 else 1
  | none => 1

/-- `GetMaxStack`: -1 when the item cannot be stacked. -/
def getMaxStack (s : InventorySlot) : Int :=
  match im.getPointerByID s.iid with
  | some d => if d.mIvType1 = .stacking then d.mIvMax1 else -1
  | none => -1

/-- `CopyFrom`. -/
def copyFrom (s source : InventorySlot) (copyCCSID : Bool) : InventorySlot :=
  { source with ccsid := if copyCCSID then source.ccsid else s.ccsid }

/-- `CopyWithoutCount`. -/
def copyWithoutCount (s source : InventorySlot) (copyCCSID : Bool) : InventorySlot :=
  { source with ccsid := if copyCCSID then source.ccsid else s.ccsid, count := s.count }

/-- `GetTimeRemaining`; the elapsed time is an unsigned 64-bit difference. -/
def getTimeRemaining (s : InventorySlot) : Int :=
  if s.secondsRemaining < 0 then -1
  else max 0 (s.secondsRemaining - ((now + 2 ^ 64 - s.timeLoaded) % 2 ^ 64 / 1000 : Nat))

/-- `ApplyItemIntegerType`. -/
def applyItemIntegerType (s : InventorySlot) (ivType : ItemIntegerType) (ivMax : Int) :
    InventorySlot :=
  if ivType = .lifetime then { s with secondsRemaining := ivMax * 60 * 60 } else s

/-- `ApplyFromItemDef`. -/
def applyFromItemDef (s : InventorySlot) (d : ItemDef) : InventorySlot :=
  let s := { s with secondsRemaining := -1 }
  let s := s.applyItemIntegerType d.mIvType1 d.mIvMax1
  let s := s.applyItemIntegerType d.mIvType2 d.mIvMax2
  if s.secondsRemaining > -1 then { s with timeLoaded := now } else s

end InventorySlot

/-- The values `LastError` takes. -/
inductive InventoryError
  | none | item | space | limit
  deriving DecidableEq, Repr

structure InventoryManager where
  containerList : ContainerID → List InventorySlot := fun _ => []
  maxContainerSlot : ContainerID → Nat := fun _ => 0
  buybackSlot : Nat := 0
  lastError : InventoryError := .none
  nextExpunge : Nat := 0

namespace InventoryManager

variable (im : ItemManager) (now : Nat)

/-- Replace one container's list; every other field stays. -/
def setContainer (inv : InventoryManager) (c : ContainerID) (l : List InventorySlot) :
    InventoryManager :=
  { inv with containerList := Function.update inv.containerList c l }

@[simp] theorem setContainer_self (inv : InventoryManager) (c : ContainerID)
    (l : List InventorySlot) : (inv.setContainer c l).containerList c = l := by
  simp [setContainer]

theorem setContainer_other (inv : InventoryManager) {c c' : ContainerID}
    (l : List InventorySlot) (h : c' ≠ c) :
    (inv.setContainer c l).containerList c' = inv.containerList c' := by
  simp [setContainer, h]

@[simp] theorem setContainer_maxContainerSlot (inv : InventoryManager) (c : ContainerID)
    (l : List InventorySlot) :
    (inv.setContainer c l).maxContainerSlot = inv.maxContainerSlot := rfl

@[simp] theorem setContainer_buybackSlot (inv : InventoryManager) (c : ContainerID)
    (l : List InventorySlot) : (inv.setContainer c l).buybackSlot = inv.buybackSlot := rfl

/-- `SetError`. -/
def setError (inv : InventoryManager) (e : InventoryError) : InventoryManager :=
  { inv with lastError := e }

@[simp] theorem setError_containerList (inv : InventoryManager) (e : InventoryError) :
    (inv.setError e).containerList = inv.containerList := rfl

/-- `GetCCSID`: both arguments are truncated to sixteen bits. -/
def getCCSID (container slot : Nat) : Nat := container % 65536 * 65536 + slot % 65536

/-- The container a client CCSID addresses, when it lies inside the array. -/
def containerOf (ccsid : Nat) : Option ContainerID :=
  if h : ccsid / 65536 < maxContainer then some ⟨ccsid / 65536, h⟩ else none

/-- `GetItemByCCSID` inside one container's list: the first index. -/
def indexOfCCSID (l : List InventorySlot) (ccsid : Nat) : Option Nat :=
  l.findIdx? fun item => item.ccsid == ccsid

/-- `GetItemPtrByCCSID`: the first slot with this CCSID. -/
def getItemPtrByCCSID (inv : InventoryManager) (ccsid : Nat) : Option InventorySlot :=
  (containerOf ccsid).bind fun c =>
    (inv.containerList c).find? fun item => item.ccsid == ccsid

/-- `GetItemBySlot`: the first index whose slot number is `slot`. -/
def getItemBySlot (inv : InventoryManager) (c : ContainerID) (slot : Int) : Option Nat :=
  (inv.containerList c).findIdx? fun item => (item.getSlot : Int) == slot

/-- `RemItem` for a CCSID whose container is `c`: erase the first match. -/
def eraseCCSID (l : List InventorySlot) (ccsid : Nat) : List InventorySlot :=
  l.eraseP fun item => item.ccsid == ccsid

/-- `RemItem`. -/
def remItem (inv : InventoryManager) (ccsid : Nat) : InventoryManager :=
  match containerOf ccsid with
  | some c => inv.setContainer c (eraseCCSID (inv.containerList c) ccsid)
  | none => inv

/-- `AddItem`: append the slot and keep the time of the next expiry. -/
def addItem (inv : InventoryManager) (c : ContainerID) (item : InventorySlot) :
    InventoryManager :=
  let inv :=
    if item.secondsRemaining > -1 then
      let due := (now + item.getTimeRemaining now).toNat
      if inv.nextExpunge = 0 ∨ due ≤ inv.nextExpunge then { inv with nextExpunge := due } else inv
    else inv
  inv.setContainer c (inv.containerList c ++ [item])

/-- `GetFreeSlot`: the lowest unused slot number below the container's limit. -/
def getFreeSlot (inv : InventoryManager) (c : ContainerID) : Option Nat :=
  if (inv.containerList c).length ≥ inv.maxContainerSlot c then none
  else (List.range (inv.maxContainerSlot c)).find? fun a =>
    !(inv.containerList c).any fun item => item.getSlot == a

/-- `CountFreeSlots`. -/
def countFreeSlots (inv : InventoryManager) (c : ContainerID) : Nat :=
  if (inv.containerList c).length ≥ inv.maxContainerSlot c then 0
  else ((List.range (inv.maxContainerSlot c)).filter fun a =>
    !(inv.containerList c).any fun item => item.getSlot == a).length

/-- `GetItemCount`: a stack counts with every item it holds. -/
def getItemCount (inv : InventoryManager) (c : ContainerID) (itemID : Int) : Int :=
  ((inv.containerList c).map fun item =>
    if item.iid = itemID then
      match im.getPointerByID item.iid with
      | some d => if d.mIvType1 = .stacking then 1 + item.count else 1
      | none => 1
    else 0).sum

/-- The containers an ownership limit counts. -/
def ownedContainers : List ContainerID :=
  [invContainer, bankContainer, eqContainer, deliveryContainer, auctionContainer,
    stampsContainer, bookshelfContainer]

/-- `GetExistingPartialStack`: the first stack of the item below its maximum. -/
def getExistingPartialStack (inv : InventoryManager) (c : ContainerID) (d : ItemDef) :
    Option Nat :=
  if d.mIvType1 ≠ .stacking then none
  else (inv.containerList c).findIdx? fun slot =>
    slot.iid == d.mID && decide (slot.getStackCount im < d.mIvMax1)

/-- Change the slot at one index of a container in place. -/
def modifySlot (inv : InventoryManager) (c : ContainerID) (i : Nat)
    (f : InventorySlot → InventorySlot) : InventoryManager :=
  inv.setContainer c ((inv.containerList c).modify i f)

/-- The slot `AddItem_Ex` creates when no partial stack takes the items. -/
def newSlot (c : ContainerID) (freeSlot : Nat) (d : ItemDef) (itemID count : Int) :
    InventorySlot :=
  let item : InventorySlot :=
    { ccsid := getCCSID c freeSlot, iid := itemID, count := if count > 1 then count - 1 else 0 }
  let item := if d.mBindingType = .onPickup then { item with bindStatus := 1 } else item
  item.applyFromItemDef now d

/-- The part of `AddItem_Ex` that puts the items into a free slot. -/
def addNewItem (inv : InventoryManager) (c : ContainerID) (d : ItemDef) (itemID count : Int) :
    Option Nat × InventoryManager :=
  match inv.getFreeSlot c with
  | none => (none, inv.setError .space)
  | some freeSlot =>
      (some (inv.containerList c).length,
        inv.addItem now c (newSlot now c freeSlot d itemID count))

/-- `AddItem_Ex`: the index of the slot that took the items, or `none` with the
reason in `lastError`. -/
def addItemEx (inv : InventoryManager) (c : ContainerID) (itemID count : Int) :
    Option Nat × InventoryManager :=
  match im.getPointerByID itemID with
  | none => (none, inv.setError .item)
  | some d =>
      if d.mOwnershipRestriction > 0 ∧
          d.mOwnershipRestriction ≤
            (ownedContainers.map fun c => inv.getItemCount im c d.mID).sum then
        (none, inv.setError .limit)
      else
        match inv.getExistingPartialStack im c d with
        | some i =>
            match (inv.containerList c)[i]? with
            | some slot =>
                if slot.getStackCount im + count ≤ slot.getMaxStack im then
                  (some i, inv.modifySlot c i fun s => { s with count := s.count + count })
                else inv.addNewItem now c d itemID count
            | none => inv.addNewItem now c d itemID count
        | none => inv.addNewItem now c d itemID count

/-- Whether `AddItem_Ex` needs a new slot: the ownership limit lets the item through, and
no partial stack takes all of it. -/
def OpensSlot (inv : InventoryManager) (c : ContainerID) (d : ItemDef) (count : Int) : Prop :=
  ¬(d.mOwnershipRestriction > 0 ∧
    d.mOwnershipRestriction ≤ (ownedContainers.map fun c => inv.getItemCount im c d.mID).sum) ∧
  ∀ i ∈ inv.getExistingPartialStack im c d, ∀ slot ∈ (inv.containerList c)[i]?,
    ¬slot.getStackCount im + count ≤ slot.getMaxStack im

instance (inv : InventoryManager) (c : ContainerID) (d : ItemDef) (count : Int) :
    Decidable (inv.OpensSlot im c d count) := inferInstanceAs (Decidable (_ ∧ _))

end InventoryManager

end Iceee
