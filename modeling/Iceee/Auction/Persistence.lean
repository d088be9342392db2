import Iceee.Auction.Item

/-!
# Saving and loading an auction

What `LoadItem` makes of an auction that `SaveItem` wrote last: the look, the remaining
seconds and the bids are lost, the rest is as it was.
-/

namespace Iceee.Auction

open Lib

variable {client : Client}

/-- What `WriteEntity` writes. -/
theorem strings_writeEntity (item : AuctionHouseItem) :
    item.writeEntity.mStringValues =
      [⟨"", "BeginDate", printULong item.mStartDate⟩, ⟨"", "EndDate", printULong item.mEndDate⟩,
        ⟨"", "Seller", printInt item.mSeller⟩, ⟨"", "Auctioneer", printInt item.mAuctioneer⟩,
        ⟨"", "ReserveCopper", printULong item.mReserveCopper⟩,
        ⟨"", "ReserveCredits", printULong item.mReserveCredits⟩,
        ⟨"", "BuyItNowCopper", printULong item.mBuyItNowCopper⟩,
        ⟨"", "BuyItNowCredits", printULong item.mBuyItNowCredits⟩,
        ⟨"", "SecondsRemaining", printULong item.mSecondsRemaining⟩,
        ⟨"", "Completed", if item.mCompleted then ['1'] else ['0']⟩,
        ⟨"", "ItemID", printInt item.mItemId⟩, ⟨"", "Count", printInt item.mCount⟩,
        ⟨"", "LookId", printInt item.mLookId⟩,
        ⟨"", "Bid", joinEscaped (item.mBids.map AuctionHouseItem.printBid)⟩] := rfl

/-- A key that was written is read back. -/
theorem field_saveItem (item : AuctionHouseItem) {key : String} {value : Text}
    (h : valueOf item.writeEntity.mStringValues "" key = some value) :
    (saveItem item client).field ((AuctionHouseItem.entityKey item.mId).sectionKey "") key =
      some value := by
  have hsec : ∃ v ∈ item.writeEntity.mStringValues,
      EntityKey.sectionName v.sec = EntityKey.sectionName "" :=
    ⟨_, List.mem_cons_self, rfl⟩
  unfold saveItem
  have hfield := ClusterEntityWriter.field_finish_of_mem (k := AuctionHouseItem.entityKey item.mId)
    client "" hsec key
  rw [h, Option.some_or] at hfield
  exact hfield

/-- The keys nothing is written under. -/
def Unwritten (key : String) : Prop := key = "SectionsRemaining" ∨ key = "LookID"

theorem unwritten_notMem {key : String} (h : Unwritten key) (item : AuctionHouseItem) :
    key ∉ item.writeEntity.mStringValues.map ClusterEntityStringValue.key := by
  rw [strings_writeEntity]
  obtain rfl | rfl := h
  · simp
  · simp

/-- What several auctions saved one after the other leave in an empty store. -/
def savedItems (saved : List AuctionHouseItem) : Client :=
  saved.foldl (fun client item => saveItem item client) {}

/-- A field that is not written is nowhere in the store. -/
theorem field_finish_of_key {w : ClusterEntityWriter} {key : String}
    (hkey : key ∉ w.mStringValues.map ClusterEntityStringValue.key)
    (hclient : ∀ secKey, client.field secKey key = none) (secKey : String) :
    (w.finish client).field secKey key = none := by
  have hput : ∀ vals : List ClusterEntityStringValue,
      key ∉ vals.map ClusterEntityStringValue.key →
      (vals.foldl (ClusterEntityWriter.put w.key)
        (client, client.lrange w.key.listKey)).1.field secKey key = none := by
    intro vals hvals
    induction vals using List.reverseRecOn with
    | nil => exact hclient secKey
    | append_singleton vals val ih =>
        rw [List.map_append, List.mem_append, not_or, List.map_singleton,
          List.mem_singleton] at hvals
        rw [List.foldl_append, List.foldl_cons, List.foldl_nil]
        unfold ClusterEntityWriter.put
        rw [Redis.field_hmset_singleton, if_neg fun h => hvals.2 h.2]
        exact ih hvals.1
  rw [ClusterEntityWriter.finish_eq, Redis.field_foldl_del, hput _ hkey, ite_self]

theorem field_savedItems (saved : List AuctionHouseItem) {key : String} (h : Unwritten key)
    (secKey : String) : (savedItems saved).field secKey key = none := by
  induction saved using List.reverseRecOn generalizing secKey with
  | nil => rfl
  | append_singleton saved item ih =>
      have hlast : savedItems (saved ++ [item]) = item.writeEntity.finish (savedItems saved) := by
        simp [savedItems, saveItem]
      rw [hlast]
      exact field_finish_of_key (unwritten_notMem h item) ih secKey

/-- A piece of the list of bids has four fields. -/
theorem split_printBid (bid : AuctionHouseBid) :
    split (AuctionHouseItem.printBid bid) =
      [printInt bid.mBuyer, printULong bid.mCopper, printULong bid.mCredits,
        printInt bid.mBidTime.toInt] := by
  apply split_commas
  · simp only [List.forall_mem_cons, List.not_mem_nil, false_imp_iff, implies_true, and_true]
    exact ⟨comma_notMem_printInt _, comma_notMem_printULong _, comma_notMem_printULong _,
      comma_notMem_printInt _⟩
  · exact List.cons_ne_nil _ _

theorem printBid_ne_nil (bid : AuctionHouseBid) : AuctionHouseItem.printBid bid ≠ [] := by
  intro h
  have hsplit := split_printBid bid
  rw [h] at hsplit
  simp [split] at hsplit

/-- No bid survives: the reader wants a fifth field. -/
theorem filterMap_readBid (l : List Text) (bids : List AuctionHouseBid) :
    (bids.map AuctionHouseItem.printBid).filterMap (AuctionHouseItem.readBid l) = [] := by
  rw [List.filterMap_eq_nil_iff]
  intro it hit
  obtain ⟨bid, -, rfl⟩ := List.mem_map.mp hit
  unfold AuctionHouseItem.readBid
  rw [split_printBid]
  rfl

/-- What is loaded of an auction that was saved. -/
theorem loadItem_saveItem (saved : List AuctionHouseItem) (item : AuctionHouseItem) :
    loadItem (saveItem item (savedItems saved)) item.mId =
      { item with mSecondsRemaining := 0, mLookId := 0, mBids := [] } := by
  generalize hclient : saveItem item (savedItems saved) = client
  generalize hrd : (⟨AuctionHouseItem.entityKey item.mId, "", []⟩ : ClusterEntityReader) = rd
  have hvalue (key : String) (value d : Text)
      (h : valueOf item.writeEntity.mStringValues "" key = some value) :
      rd.value client key d = value := by
    rw [← hrd, ← hclient, ClusterEntityReader.value_eq (ClusterEntityReader.fresh_new _ _ _),
      field_saveItem item h]
    rfl
  have hdefault (key : String) (d : Text) (h : Unwritten key) : rd.value client key d = d := by
    have hfield := field_finish_of_key (unwritten_notMem h item) (field_savedItems saved h)
    rw [← hrd, ← hclient, ClusterEntityReader.value_eq (ClusterEntityReader.fresh_new _ _ _)]
    unfold saveItem
    rw [hfield]
    rfl
  have hulong (key : String) (n : UInt64)
      (h : valueOf item.writeEntity.mStringValues "" key = some (printULong n)) :
      rd.valueULong client key = n := by
    unfold ClusterEntityReader.valueULong
    rw [hvalue key _ _ h, parseULong_printULong]
  have hint (key : String) (i : Int)
      (h : valueOf item.writeEntity.mStringValues "" key = some (printInt i)) :
      rd.valueInt client key = i := by
    unfold ClusterEntityReader.valueInt
    rw [hvalue key _ _ h, parseInt_printInt]
  have hstart : rd.valueULong client "BeginDate" = item.mStartDate :=
    hulong _ _ (by simp [strings_writeEntity, valueOf_cons, valueOf_nil])
  have hend : rd.valueULong client "EndDate" = item.mEndDate :=
    hulong _ _ (by simp [strings_writeEntity, valueOf_cons, valueOf_nil])
  have hseller : rd.valueInt client "Seller" = item.mSeller :=
    hint _ _ (by simp [strings_writeEntity, valueOf_cons, valueOf_nil])
  have hauctioneer : rd.valueInt client "Auctioneer" = item.mAuctioneer :=
    hint _ _ (by simp [strings_writeEntity, valueOf_cons, valueOf_nil])
  have hreserveCopper : rd.valueULong client "ReserveCopper" = item.mReserveCopper :=
    hulong _ _ (by simp [strings_writeEntity, valueOf_cons, valueOf_nil])
  have hreserveCredits : rd.valueULong client "ReserveCredits" = item.mReserveCredits :=
    hulong _ _ (by simp [strings_writeEntity, valueOf_cons, valueOf_nil])
  have hbuyCopper : rd.valueULong client "BuyItNowCopper" = item.mBuyItNowCopper :=
    hulong _ _ (by simp [strings_writeEntity, valueOf_cons, valueOf_nil])
  have hbuyCredits : rd.valueULong client "BuyItNowCredits" = item.mBuyItNowCredits :=
    hulong _ _ (by simp [strings_writeEntity, valueOf_cons, valueOf_nil])
  have hitem : rd.valueInt client "ItemID" = item.mItemId :=
    hint _ _ (by simp [strings_writeEntity, valueOf_cons, valueOf_nil])
  have hcount : rd.valueInt client "Count" = item.mCount :=
    hint _ _ (by simp [strings_writeEntity, valueOf_cons, valueOf_nil])
  have hcompleted : rd.valueBool client "Completed" = item.mCompleted := by
    unfold ClusterEntityReader.valueBool
    rw [hvalue "Completed" (if item.mCompleted then ['1'] else ['0']) _
      (by simp [strings_writeEntity, valueOf_cons, valueOf_nil])]
    cases item.mCompleted <;> decide
  have hbids : rd.listValue client "Bid" = item.mBids.map AuctionHouseItem.printBid := by
    unfold ClusterEntityReader.listValue
    rw [hvalue "Bid" (joinEscaped (item.mBids.map AuctionHouseItem.printBid)) _
      (by simp [strings_writeEntity, valueOf_cons, valueOf_nil])]
    apply parseEscaped_joinEscaped
    cases item.mBids with
    | nil => simp
    | cons bid rest => simp [printBid_ne_nil bid]
  have hseconds : rd.valueULong client "SectionsRemaining" = 0 := by
    unfold ClusterEntityReader.valueULong
    rw [hdefault _ _ (.inl rfl), parseULong_printULong]
  have hlook : rd.valueInt client "LookID" = 0 := by
    unfold ClusterEntityReader.valueInt
    rw [hdefault _ _ (.inr rfl), parseInt_printInt]
  have hload : loadItem client item.mId =
      AuctionHouseItem.readEntity rd client { mId := item.mId } := by
    rw [← hrd]
    rfl
  rw [hload]
  unfold AuctionHouseItem.readEntity
  rw [hbids]
  dsimp only
  rw [filterMap_readBid, hstart, hend, hseller, hauctioneer, hreserveCopper,
    hreserveCredits, hbuyCopper, hbuyCredits, hseconds, hcompleted, hitem, hcount, hlook]
  rfl

/-- An auction comes back as it was saved exactly when it has no look, no remaining seconds
and no bids. -/
theorem loadItem_eq_self_iff (saved : List AuctionHouseItem) (item : AuctionHouseItem) :
    loadItem (saveItem item (savedItems saved)) item.mId = item ↔
      item.mLookId = 0 ∧ item.mSecondsRemaining = 0 ∧ item.mBids = [] := by
  rw [loadItem_saveItem]
  constructor
  · intro h
    rw [← h]
    exact ⟨rfl, rfl, rfl⟩
  · rintro ⟨hlook, hseconds, hbids⟩
    rw [← hlook, ← hseconds, ← hbids]

/-- A potion with one bid on it: the bid is gone. -/
theorem bid_lost :
    loadItem (saveItem { mId := 7, mItemId := 12, mBids := [{ mBuyer := 3, mCopper := 50 }] } {}) 7 ≠
      { mId := 7, mItemId := 12, mBids := [{ mBuyer := 3, mCopper := 50 }] } := by
  decide

end Iceee.Auction
