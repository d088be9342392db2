import Iceee.Inventory.Manager
import Iceee.Lib.Machine

/-!
# Player trades inside one instance

The state is what the six trade queries share: the creatures of the players, and the
table of transactions keyed by the creature ID of whoever opened them. A handler
returns the query's error code and the state after it, or `none` where the source
would read through a null pointer.

## Implementation notes

A transaction points at its partners' creatures; the pointer is the creature ID here.
Whether a creature is in the middle of using an item is all that `CanMoveItems` reads.
`join`, `leave` and `play` are what the rest of the server does around the queries: a
player arrives, unloads, or has inventory and copper changed by anything else.
-/

namespace Iceee

open Lib

/-- The error codes a trade query returns. -/
inductive QueryErrorMsg
  | none | generic | invalidItem | invalidObj | tradeNotFound | tradeNotOpened | tradeBusy
  | selfBusySkill | otherBusySkill
  deriving DecidableEq, Repr

structure CreatureInstance where
  activeLootID : Int := 0
  copper : Int := 0
  inventory : InventoryManager := {}
  mItemUseInProgress : Bool := false

structure TradePlayerData where
  selfPlayerID : Int := 0
  itemList : List InventorySlot := []
  coin : Int := 0
  accepted : Bool := false
  cInst : Option Int := none
  tradeWindowOpen : Bool := false
  deriving DecidableEq, Repr

/-- The two halves of a transaction; `otherPlayerData` of half `k` is half `k.rev`. -/
structure TradeTransaction where
  init : Bool := false
  player : Fin 2 → TradePlayerData := fun _ => {}

structure ActiveInstance where
  playerList : Int → Option CreatureInstance := fun _ => none
  tradeList : AList fun _ : Int => TradeTransaction := ∅

namespace TradeTransaction

/-- Change one half of the transaction. -/
def modifyPlayer (t : TradeTransaction) (k : Fin 2) (f : TradePlayerData → TradePlayerData) :
    TradeTransaction :=
  { t with player := Function.update t.player k (f (t.player k)) }

/-- `SetPlayers`: the halves get their partners, every other field stays. -/
def setPlayers (t : TradeTransaction) (initPlayer targetPlayer : Int) : TradeTransaction :=
  (t.modifyPlayer 0 fun d => { d with selfPlayerID := initPlayer, cInst := some initPlayer })
    |>.modifyPlayer 1 fun d => { d with selfPlayerID := targetPlayer, cInst := some targetPlayer }

/-- `GetPlayerData`: the half that belongs to a player. -/
def getPlayerData (t : TradeTransaction) (playerID : Int) : Option (Fin 2) :=
  if playerID = (t.player 0).selfPlayerID then some 0
  else if playerID = (t.player 1).selfPlayerID then some 1
  else none

/-- `MutualAccept`. -/
def mutualAccept (t : TradeTransaction) : Bool := (t.player 0).accepted && (t.player 1).accepted

/-- `SetAccepted(true)`. -/
def setAccepted (t : TradeTransaction) (k : Fin 2) : TradeTransaction :=
  t.modifyPlayer k fun d => { d with accepted := true }

/-- The player's side of the trade window is open. -/
def openWindow (t : TradeTransaction) (k : Fin 2) : TradeTransaction :=
  t.modifyPlayer k fun d => { d with tradeWindowOpen := true }

/-- The partners of a transaction. -/
def partners (t : TradeTransaction) : List Int :=
  (t.player 0).cInst.toList ++ (t.player 1).cInst.toList

/-- The entries player `p` has offered. -/
def gives (t : TradeTransaction) (p : Int) : List InventorySlot :=
  (if (t.player 0).cInst = some p then (t.player 0).itemList else []) ++
    if (t.player 1).cInst = some p then (t.player 1).itemList else []

/-- The entries offered to player `p`. -/
def receives (t : TradeTransaction) (p : Int) : List InventorySlot :=
  (if (t.player 0).cInst = some p then (t.player 1).itemList else []) ++
    if (t.player 1).cInst = some p then (t.player 0).itemList else []

/-- The coin player `p` has offered. -/
def pays (t : TradeTransaction) (p : Int) : Int :=
  (if (t.player 0).cInst = some p then (t.player 0).coin else 0) +
    if (t.player 1).cInst = some p then (t.player 1).coin else 0

/-- The coin offered to player `p`. -/
def earns (t : TradeTransaction) (p : Int) : Int :=
  (if (t.player 0).cInst = some p then (t.player 1).coin else 0) +
    if (t.player 1).cInst = some p then (t.player 0).coin else 0

end TradeTransaction

namespace CreatureInstance

variable (im : ItemManager) (now : Nat)

/-- One turn of the removal loop: an entry that leads nowhere is skipped. -/
def removeOffered (inv : InventoryManager) (entry : InventorySlot) : InventoryManager :=
  match inv.getItemPtrByCCSID entry.ccsid with
  | some _ => inv.remItem entry.ccsid
  | none => inv

/-- One turn of the delivery loop: a failed `AddItem_Ex` is only logged. -/
def receiveOffered (inv : InventoryManager) (entry : InventorySlot) : InventoryManager :=
  match inv.addItemEx im now invContainer entry.iid (entry.count + 1) with
  | (some i, inv) => inv.modifySlot invContainer i fun s => s.copyWithoutCount entry false
  | (none, inv) => inv

def removeItems (entries : List InventorySlot) (c : CreatureInstance) : CreatureInstance :=
  { c with inventory := entries.foldl removeOffered c.inventory }

def receiveItems (entries : List InventorySlot) (c : CreatureInstance) : CreatureInstance :=
  { c with inventory := entries.foldl (receiveOffered im now) c.inventory }

def subCopper (amount : Int) (c : CreatureInstance) : CreatureInstance :=
  { c with copper := wrap32 (c.copper - amount) }

def addCopper (amount : Int) (c : CreatureInstance) : CreatureInstance :=
  { c with copper := wrap32 (c.copper + amount) }

def setActiveLootID (id : Int) (c : CreatureInstance) : CreatureInstance :=
  { c with activeLootID := id }

end CreatureInstance

namespace ActiveInstance

variable (im : ItemManager) (now : Nat)

/-- Change one creature in place. -/
def modifyCreature (s : ActiveInstance) (id : Int) (f : CreatureInstance → CreatureInstance) :
    ActiveInstance :=
  { s with playerList := Function.update s.playerList id ((s.playerList id).map f) }

/-- Store a transaction under its key. -/
def putTransaction (s : ActiveInstance) (tradeID : Int) (t : TradeTransaction) :
    ActiveInstance :=
  { s with tradeList := s.tradeList.insert tradeID t }

/-- `RemoveTransaction`. -/
def removeTransaction (s : ActiveInstance) (tradeID : Int) : ActiveInstance :=
  { s with tradeList := s.tradeList.erase tradeID }

/-- `GetExistingTransaction`. -/
def getExistingTransaction (s : ActiveInstance) (tradeID : Int) : Option TradeTransaction :=
  s.tradeList.lookup tradeID

/-- `GetNewTransaction`: an entry that was never initialized is cleared. -/
def getNewTransaction (s : ActiveInstance) (playerID : Int) : TradeTransaction :=
  match s.tradeList.lookup playerID with
  | some t => if t.init then t else {}
  | none => {}

/-- Whether `GetExistingTradeForPlayer` finds a transaction. -/
def hasExistingTrade (s : ActiveInstance) (playerID : Int) : Bool :=
  s.tradeList.entries.any fun e =>
    (e.2.player 0).selfPlayerID == playerID || (e.2.player 1).selfPlayerID == playerID

/-- `CancelTransaction`: both partners leave and the transaction is removed. -/
def cancelTransaction (s : ActiveInstance) (tradeID : Int) :
    Option (QueryErrorMsg × ActiveInstance) :=
  match s.getExistingTransaction tradeID with
  | none => some (.generic, s)
  | some t =>
      match (t.player 0).cInst, (t.player 1).cInst with
      | some p0, some p1 =>
          some (.generic, ((s.modifyCreature p0 (·.setActiveLootID 0)).modifyCreature p1
            (·.setActiveLootID 0)).removeTransaction tradeID)
      | _, _ => none

/-- The part of `trade.start` that puts the two players into a transaction. -/
def requestTrade (s : ActiveInstance) (selfPlayerID otherPlayerID checkID : Int) :
    Option (QueryErrorMsg × ActiveInstance) :=
  let t := (s.getNewTransaction checkID).setPlayers selfPlayerID otherPlayerID
  let s := (s.modifyCreature selfPlayerID (·.setActiveLootID checkID)).modifyCreature
    otherPlayerID (·.setActiveLootID checkID)
  let t := { t with init := true }
  (t.getPlayerData selfPlayerID).map fun k =>
    (.none, s.putTransaction checkID (t.openWindow k))

/-- The part of `trade.start` that answers the request of the first partner. -/
def answerTrade (s : ActiveInstance) (selfPlayerID checkID : Int) :
    Option (QueryErrorMsg × ActiveInstance) :=
  let t := s.getNewTransaction checkID
  if (t.player 0).cInst = none ∨ (t.player 0).selfPlayerID = 0 then
    some (.invalidObj, s.putTransaction checkID t)
  else
    (t.getPlayerData selfPlayerID).map fun k =>
      (.none, s.putTransaction checkID (t.openWindow k))

/-- `trade.start`. Without an argument `otherPlayerID` is 0 and the query answers a
request. -/
def tradeStart (s : ActiveInstance) (selfPlayerID otherPlayerID : Int) :
    Option (QueryErrorMsg × ActiveInstance) :=
  match s.playerList selfPlayerID with
  | none => none
  | some self =>
      let checkID := if self.activeLootID = 0 then selfPlayerID else self.activeLootID
      if otherPlayerID = 0 then s.answerTrade selfPlayerID checkID
      else if self.mItemUseInProgress then some (.selfBusySkill, s)
      else
        match s.playerList otherPlayerID with
        | none => some (.invalidObj, s)
        | some target =>
            if s.hasExistingTrade otherPlayerID then some (.tradeBusy, s)
            else if target.mItemUseInProgress then some (.otherBusySkill, s)
            else s.requestTrade selfPlayerID otherPlayerID checkID

/-- The entries `trade.items` collects, and whether every argument led to a slot. -/
def offeredItems (inv : InventoryManager) : List Nat → List InventorySlot × Bool
  | [] => ([], true)
  | arg :: rest =>
      match inv.getItemPtrByCCSID (arg % 2 ^ 32) with
      | none => ([], false)
      | some item =>
          let tail := offeredItems inv rest
          ({ item with ccsid := arg % 2 ^ 32 } :: tail.1, tail.2)

/-- What every later trade query does first: find the transaction and the half of the
player, or cancel the transaction when the player has no half in it. -/
def withTrade (s : ActiveInstance) (selfID : Int)
    (f : CreatureInstance → Int → TradeTransaction → Fin 2 →
      Option (QueryErrorMsg × ActiveInstance)) : Option (QueryErrorMsg × ActiveInstance) :=
  match s.playerList selfID with
  | none => none
  | some self =>
      match s.getExistingTransaction self.activeLootID with
      | none => some (.tradeNotFound, s)
      | some t =>
          match t.getPlayerData selfID with
          | none => s.cancelTransaction self.activeLootID
          | some k => f self self.activeLootID t k

/-- `trade.items`. The old list is cleared first, and a missing item ends the query
with the list collected so far. -/
def tradeItems (s : ActiveInstance) (selfID : Int) (args : List Nat) :
    Option (QueryErrorMsg × ActiveInstance) :=
  s.withTrade selfID fun self tradeID t k =>
    if (t.player k.rev).tradeWindowOpen = false then some (.tradeNotOpened, s)
    else
      let offer := offeredItems self.inventory args
      let s := s.putTransaction tradeID (t.modifyPlayer k fun d => { d with itemList := offer.1 })
      if offer.2 then (t.player k.rev).cInst.map fun _ => (.none, s)
      else some (.invalidItem, s)

/-- `trade.currency`. The amount comes from the second argument, which is `none` here
when the query has fewer than two. -/
def tradeCurrency (s : ActiveInstance) (selfID : Int) (args : Option Int) :
    Option (QueryErrorMsg × ActiveInstance) :=
  match args with
  | none => (s.playerList selfID).map fun _ => (.generic, s)
  | some amount =>
      s.withTrade selfID fun _ tradeID t k =>
        let t := t.modifyPlayer k fun d => { d with coin := wrap32 amount }
        if (t.player 1).tradeWindowOpen && ((t.player k.rev).cInst).isNone then none
        else some (.none, s.putTransaction tradeID t)

/-- `trade.offer` only notifies the other player. -/
def tradeOffer (s : ActiveInstance) (selfID : Int) : Option (QueryErrorMsg × ActiveInstance) :=
  s.withTrade selfID fun _ _ t k => (t.player k.rev).cInst.map fun _ => (.none, s)

/-- `trade.cancel`. -/
def tradeCancel (s : ActiveInstance) (selfID : Int) : Option (QueryErrorMsg × ActiveInstance) :=
  match s.playerList selfID with
  | none => none
  | some self =>
      match s.getExistingTransaction self.activeLootID with
      | none => some (.tradeNotFound, s)
      | some _ => (s.cancelTransaction self.activeLootID).map fun r => (.none, r.2)

/-- The checks before a mutually accepted trade is processed: space, then copper. -/
def requirementsPassed (t : TradeTransaction) (origin target : CreatureInstance) : Bool :=
  let oslots := origin.inventory.countFreeSlots invContainer + (t.player 0).itemList.length
  let tslots := target.inventory.countFreeSlots invContainer + (t.player 1).itemList.length
  !(oslots < (t.player 1).itemList.length) && !(tslots < (t.player 0).itemList.length) &&
    !((t.player 0).coin > origin.copper) && !((t.player 1).coin > target.copper)

/-- The exchange itself, in the order of the source. -/
def executeTrade (s : ActiveInstance) (tradeID : Int) (t : TradeTransaction)
    (origin target : Int) : ActiveInstance :=
  let s := s.modifyCreature origin (·.subCopper (t.player 0).coin)
  let s := s.modifyCreature target (·.subCopper (t.player 1).coin)
  let s := s.modifyCreature origin (·.addCopper (t.player 1).coin)
  let s := s.modifyCreature target (·.addCopper (t.player 0).coin)
  let s := s.modifyCreature origin (·.removeItems (t.player 0).itemList)
  let s := s.modifyCreature target (·.removeItems (t.player 1).itemList)
  let s := s.modifyCreature origin (·.receiveItems im now (t.player 1).itemList)
  let s := s.modifyCreature target (·.receiveItems im now (t.player 0).itemList)
  let s := s.modifyCreature origin (·.setActiveLootID 0)
  let s := s.modifyCreature target (·.setActiveLootID 0)
  s.removeTransaction tradeID

/-- `trade.accept`. -/
def tradeAccept (s : ActiveInstance) (selfID : Int) : Option (QueryErrorMsg × ActiveInstance) :=
  s.withTrade selfID fun _ tradeID t k =>
    match (t.player k.rev).cInst with
    | none => none
    | some _ =>
        let t := t.setAccepted k
        let s := s.putTransaction tradeID t
        match (t.player 0).cInst, (t.player 1).cInst with
        | some p0, some p1 =>
            if t.mutualAccept then
              match s.playerList p0, s.playerList p1 with
              | some origin, some target =>
                  if requirementsPassed t origin target then
                    some (.none, s.executeTrade im now tradeID t p0 p1)
                  else some (.none, s)
              | _, _ => none
            else some (.none, s)
        | _, _ => some (.invalidObj, s)

end ActiveInstance

/-- The trade queries with their parsed arguments. -/
inductive TradeQuery
  | start (otherPlayerID : Int)
  | items (args : List Nat)
  | currency (args : Option Int)
  | offer
  | accept
  | cancel
  deriving DecidableEq, Repr

/-- What happens in an instance. -/
inductive InstanceEvent
  | query (now : Nat) (selfID : Int) (q : TradeQuery)
  | join (id : Int) (c : CreatureInstance)
  | leave (id : Int)
  | play (id : Int) (copper : Int) (inventory : InventoryManager) (busy : Bool)

namespace ActiveInstance

variable (im : ItemManager)

/-- Dispatch of a trade query. -/
def handleQuery (s : ActiveInstance) (now : Nat) (selfID : Int) :
    TradeQuery → Option (QueryErrorMsg × ActiveInstance)
  | .start other => s.tradeStart selfID other
  | .items args => s.tradeItems selfID args
  | .currency args => s.tradeCurrency selfID args
  | .offer => s.tradeOffer selfID
  | .accept => s.tradeAccept im now selfID
  | .cancel => s.tradeCancel selfID

/-- Put a creature into the player list, or take it out. -/
def setPlayer (s : ActiveInstance) (id : Int) (c : Option CreatureInstance) : ActiveInstance :=
  { s with playerList := Function.update s.playerList id c }

/-- A new creature gets an ID that is not in use and is in no trade. -/
def joinPlayer (s : ActiveInstance) (id : Int) (c : CreatureInstance) : Option ActiveInstance :=
  if id = 0 ∨ (s.playerList id).isSome then none
  else some (s.setPlayer id (some (c.setActiveLootID 0)))

/-- `UnloadResources` of a player cancels the trade its loot ID names. -/
def leavePlayer (s : ActiveInstance) (id : Int) : Option ActiveInstance :=
  match s.playerList id with
  | none => none
  | some c =>
      let cancelled :=
        if c.activeLootID ≠ 0 then (s.cancelTransaction c.activeLootID).map Prod.snd else some s
      cancelled.map fun s => s.setPlayer id none

/-- One event of an instance. -/
def step (s : ActiveInstance) : InstanceEvent → Option ActiveInstance
  | .query now selfID q => (s.handleQuery im now selfID q).map Prod.snd
  | .join id c => s.joinPlayer id c
  | .leave id => s.leavePlayer id
  | .play id copper inventory busy =>
      (s.playerList id).map fun _ => s.modifyCreature id fun c =>
        { c with copper, inventory, mItemUseInProgress := busy }

end ActiveInstance

end Iceee
