import Iceee.Cluster.Faithful

/-!
# Auctions and what the cluster keeps of them

`AuctionHouseItem` with its bids, and the two hand-kept lists of keys that write it to the
cluster and read it from there. The reader asks for two keys that the writer does not use,
and takes only bids of more fields than the writer gives them.
-/

namespace Iceee.Auction

open Lib

structure AuctionHouseBid where
  mBuyer : Int := 0
  mCopper : UInt64 := 0
  mCredits : UInt64 := 0
  mBidTime : Int64 := 0
  deriving DecidableEq, Repr

structure AuctionHouseItem where
  mId : Int := 0
  mAuctioneer : Int := 0
  mBids : List AuctionHouseBid := []
  mSeller : Int := 0
  mStartDate : UInt64 := 0
  mEndDate : UInt64 := 0
  mReserveCopper : UInt64 := 0
  mReserveCredits : UInt64 := 0
  mBuyItNowCopper : UInt64 := 0
  mBuyItNowCredits : UInt64 := 0
  mSecondsRemaining : UInt64 := 0
  mItemId : Int := 0
  mLookId : Int := 0
  mCount : Int := 0
  mCompleted : Bool := false
  deriving DecidableEq, Repr

namespace AuctionHouseItem

/-- The entity of an auction: `KEYPREFIX_AUCTION_ITEM` and the ID. -/
def entityKey (id : Int) : EntityKey where
  mCatalog := "AuctionItem"
  mID := String.ofList (printInt id)

/-- A bid in the list: `%d,%lu,%lu,%lld`. -/
def printBid (bid : AuctionHouseBid) : Text :=
  commas [printInt bid.mBuyer, printULong bid.mCopper, printULong bid.mCredits,
    printInt bid.mBidTime.toInt]

/-- `WriteEntity`. -/
def writeEntity (item : AuctionHouseItem) : ClusterEntityWriter :=
  ClusterEntityWriter.mk (entityKey item.mId) "" []
  |>.valueULong "BeginDate" item.mStartDate
  |>.valueULong "EndDate" item.mEndDate
  |>.valueInt "Seller" item.mSeller
  |>.valueInt "Auctioneer" item.mAuctioneer
  |>.valueULong "ReserveCopper" item.mReserveCopper
  |>.valueULong "ReserveCredits" item.mReserveCredits
  |>.valueULong "BuyItNowCopper" item.mBuyItNowCopper
  |>.valueULong "BuyItNowCredits" item.mBuyItNowCredits
  |>.valueULong "SecondsRemaining" item.mSecondsRemaining
  |>.valueBool "Completed" item.mCompleted
  |>.valueInt "ItemID" item.mItemId
  |>.valueInt "Count" item.mCount
  |>.valueInt "LookId" item.mLookId
  |>.listValue "Bid" (item.mBids.map printBid)

/-- One turn of the loop over the bids: the fields are counted in the bid's own pieces `a`,
and taken from the list of bids `l`. Past its end nothing is defined; the model reads an
empty text there. -/
def readBid (l : List Text) (it : Text) : Option AuctionHouseBid :=
  if 4 < (split it).length then
    some
      { mBuyer := parseInt (l.getD 0 [])
        mCopper := parseULong (l.getD 1 [])
        mCredits := parseULong (l.getD 2 [])
        mBidTime := (parseULong (l.getD 3 [])).toInt64 }
  else none

/-- `ReadEntity`, into an item that has its ID. -/
def readEntity (rd : ClusterEntityReader) (client : Client) (item : AuctionHouseItem) :
    AuctionHouseItem :=
  let l := rd.listValue client "Bid"
  { item with
    mStartDate := rd.valueULong client "BeginDate"
    mEndDate := rd.valueULong client "EndDate"
    mSeller := rd.valueInt client "Seller"
    mAuctioneer := rd.valueInt client "Auctioneer"
    mReserveCopper := rd.valueULong client "ReserveCopper"
    mReserveCredits := rd.valueULong client "ReserveCredits"
    mBuyItNowCopper := rd.valueULong client "BuyItNowCopper"
    mBuyItNowCredits := rd.valueULong client "BuyItNowCredits"
    mSecondsRemaining := rd.valueULong client "SectionsRemaining"
    mCompleted := rd.valueBool client "Completed"
    mItemId := rd.valueInt client "ItemID"
    mCount := rd.valueInt client "Count"
    mLookId := rd.valueInt client "LookID"
    mBids := item.mBids ++ l.filterMap (readBid l) }

end AuctionHouseItem

/-- `SaveItem`. -/
def saveItem (item : AuctionHouseItem) (client : Client) : Client := item.writeEntity.finish client

/-- `LoadItem`: a new item with the ID, filled by `ReadEntity`. -/
def loadItem (client : Client) (id : Int) : AuctionHouseItem :=
  AuctionHouseItem.readEntity { key := AuctionHouseItem.entityKey id } client { mId := id }

end Iceee.Auction
