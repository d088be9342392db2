import Iceee.Inventory.Removal

/-!
# Sending a delivery box

`vault.send` moves what lies in the delivery box of an account to the box of another account, and
takes a postage stamp of the sending character for each item. The handler makes its checks, then
counts the slots of both boxes up.

## Implementation notes

`ItemMove` works on two inventories: here the one it is called on belongs to the sender and takes
the part of `character`, the other one belongs to the recipient and takes the part of `account`.
The databases of names and characters are inputs. What the recipient is told is left out.
-/

namespace Iceee.Vault

open Lib InventoryManager

/-- What the handler reads of an account. -/
structure AccountData where
  inventory : InventoryManager := {}
  DeliveryBoxSlots : Int := 0

/-- The delivery box of an account. -/
def AccountData.box (acc : AccountData) : List InventorySlot :=
  acc.inventory.containerList deliveryContainer

/-- The sender's account and character, and the other accounts that are active or can be fetched.
-/
structure VaultState where
  account : AccountData := {}
  character : InventoryManager := {}
  accounts : Int → Option AccountData := fun _ => none
  placed : Placed stampsContainer (character.containerList stampsContainer)

/-- A query, with what it reads of the player and of the databases. -/
structure SendQuery where
  argCount : Nat := 2
  name : String := ""
  accountID : Int := 0
  stats : MoveStats
  localCharacterVault : Bool := false
  getIDByName : String → Int := fun _ => -1
  getAccountID : Int → Option Int := fun _ => none

/-- The two inventories of the loop, with the one that holds the stamps. -/
structure Transit where
  boxes : CharacterState
  stamps : InventoryManager
  placed : Placed stampsContainer (stamps.containerList stampsContainer)

section

variable (im : ItemManager) (now : Nat)

/-- The stamps a character has. -/
def stampCount (inv : InventoryManager) : Int :=
  inv.getItemCount im stampsContainer postageStampItemId

/-- The checks before the loop: an error text, or the recipient's account. -/
def VaultState.findRecipient (s : VaultState) (q : SendQuery) :
    Except String (Int × AccountData) :=
  let items : Int := s.account.box.length
  if q.argCount < 2 then .error "Invalid query."
  else if items < 1 then .error "You must place the items to send in your delivery box."
  else if items > stampCount im s.character then .error "You do not have enough stamps."
  else
    let cdefID := q.getIDByName q.name
    if cdefID = -1 then .error ("Unknown character name '" ++ q.name ++ "'")
    else
      match q.getAccountID cdefID with
      | none => .error "Could not get creature instance."
      | some id =>
          if id = q.accountID then .error "You cannot send items to yourself."
          else
            match s.accounts id with
            | none => .error "Could not get account instance."
            | some acc =>
                let freeSlots := acc.DeliveryBoxSlots - acc.box.length
                if freeSlots < items then
                  if freeSlots < 1 then .error "The recipient has no free delivery slots."
                  else .error ("The recipient only has " ++ toString freeSlots ++
                    " free delivery slots.")
                else .ok (id, acc)

/-- The move the loop asks for. -/
def deliveryMove (origSlot destSlot : Nat) : MoveRequest :=
  ⟨(.character, deliveryContainer), origSlot, (.account, deliveryContainer), destSlot⟩

/-- Take one stamp. -/
def Transit.payStamp (t : Transit) (boxes : CharacterState) : Transit where
  boxes := boxes
  stamps := t.stamps.removeItemsAndUpdate im now stampsContainer postageStampItemId 1
  placed := by
    rw [containerList_removeItemsAndUpdate t.placed, Function.update_self]
    exact t.placed.takeItems _ _

/-- One round of the loop. -/
def Transit.sendItem (t : Transit) (stats : MoveStats) (origSlot destSlot : Nat) :
    Except String Transit :=
  if (t.boxes.inv .character).verifyContainerSlotBoundary deliveryContainer origSlot = false ∨
      (t.boxes.inv .account).verifyContainerSlotBoundary deliveryContainer destSlot = false then
    .error "Failed to move item."
  else
    match t.boxes.itemMove im stats (deliveryMove origSlot destSlot) with
    | .ok boxes => .ok (t.payStamp im now boxes)
    | .error mpos => .error ("Failed to move item (" ++ toString mpos ++ ").")

/-- The loop: as many rounds as there were items. -/
def sendItems (stats : MoveStats) : Nat → Nat → Nat → Transit → Transit × Response
  | 0, _, _, t => (t, .ok)
  | items + 1, origSlot, destSlot, t =>
      match t.sendItem im now stats origSlot destSlot with
      | .ok t' => sendItems stats items (origSlot + 1) (destSlot + 1) t'
      | .error msg => (t, .error msg)

namespace VaultState

variable (s : VaultState) (q : SendQuery)

/-- The inventories as the loop finds them. -/
def transit (acc : AccountData) : Transit where
  boxes :=
    { inv := fun
        | .character => s.account.inventory
        | .account => acc.inventory
      localCharacterVault := q.localCharacterVault }
  stamps := s.character
  placed := s.placed

/-- The accounts as the loop left them. -/
def deliver (id : Int) (acc : AccountData) (t : Transit) : VaultState where
  account := { s.account with inventory := t.boxes.inv .character }
  character := t.stamps
  accounts :=
    Function.update s.accounts id (some { acc with inventory := t.boxes.inv .account })
  placed := t.placed

/-- `VaultSendHandler::handleQuery`. -/
def vaultSend : VaultState × Response :=
  match s.findRecipient im q with
  | .error msg => (s, .error msg)
  | .ok (id, acc) =>
      let sent := sendItems im now q.stats s.account.box.length 0 acc.box.length (s.transit q acc)
      (s.deliver id acc sent.1, sent.2)

end VaultState

end

/-! ### What the checks ask for -/

/-- The query passes every check, and `acc` is the recipient's account. -/
structure Admitted (im : ItemManager) (s : VaultState) (q : SendQuery) (id : Int)
    (acc : AccountData) : Prop where
  arguments : 2 ≤ q.argCount
  items : s.account.box ≠ []
  stamps : s.account.box.length ≤ stampCount im s.character
  named : q.getIDByName q.name ≠ -1
  character : q.getAccountID (q.getIDByName q.name) = some id
  other : id ≠ q.accountID
  account : s.accounts id = some acc
  space : (s.account.box.length : Int) ≤ acc.DeliveryBoxSlots - acc.box.length

theorem findRecipient_ok {im : ItemManager} {s : VaultState} {q : SendQuery} {id : Int}
    {acc : AccountData} :
    s.findRecipient im q = .ok (id, acc) ↔ Admitted im s q id acc := by
  have hitems : (s.account.box.length : Int) < 1 ↔ s.account.box = [] := by
    rw [← List.length_eq_zero_iff]
    omega
  constructor
  · intro h
    unfold VaultState.findRecipient at h
    dsimp only at h
    split_ifs at h with hargs hempty hstamps hname
    cases hchar : q.getAccountID (q.getIDByName q.name) with
    | none =>
        rw [hchar] at h
        cases h
    | some id' =>
        rw [hchar] at h
        dsimp only at h
        split_ifs at h with hself
        cases hacc : s.accounts id' with
        | none =>
            rw [hacc] at h
            cases h
        | some acc' =>
            rw [hacc] at h
            dsimp only at h
            split_ifs at h with hspace
            cases h
            exact ⟨not_lt.mp hargs, fun hnil => hempty (hitems.mpr hnil), not_lt.mp hstamps, hname,
              hchar, hself, hacc, not_lt.mp hspace⟩
  · intro h
    unfold VaultState.findRecipient
    dsimp only
    rw [if_neg (not_lt.mpr h.arguments), if_neg fun hnil => h.items (hitems.mp hnil),
      if_neg (not_lt.mpr h.stamps), if_neg h.named, h.character]
    dsimp only
    rw [if_neg h.other, h.account]
    dsimp only
    rw [if_neg (not_lt.mpr h.space)]

end Iceee.Vault
