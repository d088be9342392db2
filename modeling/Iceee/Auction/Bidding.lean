import Iceee.Auction.Persistence
import Iceee.Inventory.Quantity
import Iceee.Lib.Trace

/-!
# Bidding and buying on several shards

`auctionhouse.bid` and `auctionhouse.buy` load the auction, check it, and save it or remove it. The
store is shared by the shards, and each shard has a critical section of its own. A bid is saved after
the section was left, and a buy loads before it enters.

## Implementation notes

A player has one query at a time. The critical section can be entered again by the player whose
thread holds it; two of the errors of a buy return without leaving it. What is paid, and the messages
to the clients and the other shards, are left out.
-/

namespace Iceee.Auction

open Lib

namespace AuctionHouseItem

/-- `IsExpired`. -/
def isExpired (item : AuctionHouseItem) (serverTime : UInt64) : Bool := serverTime ≥ item.mEndDate

/-- `Bid`: the new bid goes to the end, and an earlier bid of the same player goes. -/
def bid (item : AuctionHouseItem) (newBid : AuctionHouseBid) : Option AuctionHouseItem :=
  let bids := item.mBids.eraseP (fun it => it.mBuyer == newBid.mBuyer) ++ [newBid]
  match item.mBids.getLast? with
  | none => some { item with mBids := bids }
  | some last =>
      if newBid.mCopper > last.mCopper ∨ newBid.mCredits > last.mCredits then
        if last.mBuyer = newBid.mBuyer then none else some { item with mBids := bids }
      else none

/-- What `LoadItem` makes of what is in the store: the fields that are read under another key are
lost, and the bids. -/
def load (id : Int) : Option AuctionHouseItem → AuctionHouseItem
  | some item => { item with mSecondsRemaining := 0, mLookId := 0, mBids := [] }
  | none => { mId := id }

end AuctionHouseItem

inductive AuctionHouseError
  | notEnoughCopper | notEnoughCredits | notYetAvailable | noLongerAvailable | notEnoughFreeSlots
  deriving DecidableEq, Repr

/-- `GetDescription`. -/
def AuctionHouseError.getDescription : AuctionHouseError → String
  | .notEnoughCopper => "You do not have enough copper!"
  | .notEnoughCredits => "You do not have enough credits!"
  | .notYetAvailable => "This item is not yet available!"
  | .noLongerAvailable => "This item is no longer available!"
  | .notEnoughFreeSlots => "You do not have enough slots in your inventory!"

/-- What a buy reads of the player. -/
structure Buyer where
  copper : Int := 0
  credits : Int := 0
  inventory : InventoryManager := {}

/-- `ValidateItem`. -/
def validateItem (item : AuctionHouseItem) (buyer : Buyer) (serverTime : UInt64) :
    Option AuctionHouseError :=
  if UInt64.ofInt buyer.copper < item.mBuyItNowCopper then some .notEnoughCopper
  else if UInt64.ofInt buyer.credits < item.mBuyItNowCredits then some .notEnoughCredits
  else if item.mStartDate ≠ 0 ∧ serverTime < item.mStartDate then some .notYetAvailable
  else if item.mEndDate ≠ 0 ∧ serverTime ≥ item.mEndDate then some .noLongerAvailable
  else if (buyer.inventory.getFreeSlot invContainer).isNone then some .notEnoughFreeSlots
  else none

/-- The checks of a bid on the auction it loaded. -/
def checkBid (item : AuctionHouseItem) (auctioneer : Int) (newBid : AuctionHouseBid)
    (serverTime : UInt64) : Except String AuctionHouseItem :=
  if item.mId = 0 then .error "Could not find item."
  else if item.mAuctioneer ≠ 0 ∧ item.mAuctioneer ≠ auctioneer then .error "Incorrect auctioneer."
  else if item.isExpired serverTime then .error "Cannot bid on expired auctions."
  else
    match item.bid newBid with
    | none => .error "Bid rejected."
    | some item => .ok item

/-- How the guarded part of a buy ends: with an error, having left the critical section or not, or
with the item in the player's inventory. -/
inductive BuyResult
  | refused (message : String) (left : Bool)
  | delivered (inventory : InventoryManager)

/-- The text for a refused `AddItem_Ex`. -/
def addItemError : InventoryError → String
  | .item => "Server error: item does not exist."
  | .space => "You do not have any free inventory space."
  | .limit => "You already the maximum amount of these items."
  | .none => "Server error: undefined error."

/-- The checks of a buy on the auction it loaded, and the delivery. -/
def checkBuy (im : ItemManager) (now : Nat) (item : AuctionHouseItem) (auctioneer : Option Int)
    (buyer : Buyer) (serverTime : UInt64) : BuyResult :=
  if item.mId = 0 then .refused "Could not find item." true
  else
    match auctioneer with
    | none => .refused "Unknown auctioneer." true
    | some auctioneer =>
        if item.mAuctioneer ≠ 0 ∧ item.mAuctioneer ≠ auctioneer then
          .refused "Incorrect auctioneer." true
        else
          match validateItem item buyer serverTime with
          | some error => .refused error.getDescription false
          | none =>
              match buyer.inventory.addItemEx im now invContainer item.mItemId
                  (item.mCount + 1) with
              | (none, inventory) => .refused (addItemError inventory.lastError) false
              | (some _, inventory) => .delivered inventory

/-- Where a query stands. -/
inductive Query
  | bidding (shard : Nat) (item : AuctionHouseItem) (auctioneer : Int) (copper credits : UInt64)
  | saving (item : AuctionHouseItem) (newBid : AuctionHouseBid)
  | buying (shard : Nat) (item : AuctionHouseItem)
  | removing (shard : Nat)
  deriving DecidableEq, Repr

/-- One auction in the store, the critical sections, the queries under way, and what has happened:
who got the item, the bids that were answered OK, newest first, and whether it was sold. -/
structure AuctionState where
  store : Option AuctionHouseItem := none
  lock : Nat → Option (Int × Nat) := fun _ => none
  queries : List (Int × Query) := []
  delivered : List Int := []
  accepted : List AuctionHouseBid := []
  sold : Bool := false

inductive Event
  | bidLoad (player : Int) (shard : Nat) (auctioneer : Option Int) (copper credits : UInt64)
  | bidCheck (player : Int) (serverTime : UInt64) (time : Int64)
  | bidSave (player : Int)
  | buyLoad (player : Int) (shard : Nat)
  | buyCheck (player : Int) (auctioneer : Option Int) (buyer : Buyer) (serverTime : UInt64)
  | buyRemove (player : Int)

namespace AuctionState

variable (s : AuctionState)

/-- The query of a player. -/
def find (player : Int) : Option Query := s.queries.lookup player

/-- A query goes on. -/
def put (player : Int) (query : Query) : AuctionState :=
  { s with queries := (player, query) :: s.queries.filter fun e => e.1 ≠ player }

/-- A query was answered. -/
def answer (player : Int) : AuctionState :=
  { s with queries := s.queries.filter fun e => e.1 ≠ player }

/-- `Enter`: the section is free or the player's own. -/
def enter (shard : Nat) (player : Int) : Option AuctionState :=
  match s.lock shard with
  | none => some { s with lock := Function.update s.lock shard (some (player, 1)) }
  | some (holder, n) =>
      if holder = player then
        some { s with lock := Function.update s.lock shard (some (player, n + 1)) }
      else none

/-- `Leave`. -/
def leave (shard : Nat) : AuctionState :=
  match s.lock shard with
  | none => s
  | some (holder, n) =>
      { s with lock :=
          Function.update s.lock shard (if n ≤ 1 then none else some (holder, n - 1)) }

/-- One step of a query for the auction `id`; there is none where the player is elsewhere, or waits
for the critical section. -/
def step (im : ItemManager) (now : Nat) (id : Int) : Event → Option AuctionState
  | .bidLoad player shard auctioneer copper credits =>
      match s.find player, auctioneer with
      | none, some auctioneer =>
          (s.enter shard player).map fun s =>
            s.put player (.bidding shard (.load id s.store) auctioneer copper credits)
      | none, none => some s
      | some _, _ => none
  | .bidCheck player serverTime time =>
      match s.find player with
      | some (.bidding shard item auctioneer copper credits) =>
          let newBid := { mBuyer := player, mCopper := copper, mCredits := credits, mBidTime := time }
          match checkBid item auctioneer newBid serverTime with
          | .ok item => some ((s.leave shard).put player (.saving item newBid))
          | .error _ => some ((s.leave shard).answer player)
      | _ => none
  | .bidSave player =>
      match s.find player with
      | some (.saving item newBid) =>
          some { s.answer player with store := some item, accepted := newBid :: s.accepted }
      | _ => none
  | .buyLoad player shard =>
      match s.find player with
      | none => some (s.put player (.buying shard (.load id s.store)))
      | some _ => none
  | .buyCheck player auctioneer buyer serverTime =>
      match s.find player with
      | some (.buying shard item) =>
          (s.enter shard player).map fun s =>
            match checkBuy im now item auctioneer buyer serverTime with
            | .refused _ left => (if left then s.leave shard else s).answer player
            | .delivered _ =>
                { s.put player (.removing shard) with delivered := player :: s.delivered }
      | _ => none
  | .buyRemove player =>
      match s.find player with
      | some (.removing shard) =>
          some { (s.leave shard).answer player with store := none, sold := true }
      | _ => none

end AuctionState

/-- The auction is in the store with the bids it has, and nobody is at it. -/
def IsOpen (id : Int) (s : AuctionState) : Prop :=
  ∃ item : AuctionHouseItem, item.mId = id ∧ id ≠ 0 ∧
    s = { store := some item, accepted := item.mBids.reverse }

end Iceee.Auction
