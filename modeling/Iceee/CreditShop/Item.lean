import Iceee.Cluster.Faithful
import Iceee.CreditShop.Date

/-!
# Items of the credit shop and what the cluster keeps of them

Fields that are zero, or not set, are not written; kinds are written by their names and dates as
texts. A date comes back through a `struct tm` of which only three fields are set.
-/

namespace Iceee.CreditShop

open Lib

inductive Status
  | undefined | hot | new
  deriving DecidableEq, Repr

inductive Category
  | undefined | consumables | charms | armor | bags | recipes | pets
  deriving DecidableEq, Repr

inductive Currency
  | undefined | copper | credits | copperCredits
  deriving DecidableEq, Repr

namespace Status

/-- `GetNameByID`. -/
def getNameByID : Status → String
  | .hot => "HOT"
  | .new => "NEW"
  | .undefined => "<undefined>"

/-- `GetIDByName`. -/
def getIDByName (name : Text) : Status :=
  if name = "HOT".toList then .hot else if name = "NEW".toList then .new else .undefined

end Status

namespace Category

/-- `GetNameByID`. -/
def getNameByID : Category → String
  | .armor => "ARMOR"
  | .bags => "BAGS"
  | .charms => "CHARMS"
  | .consumables => "CONSUMABLES"
  | .recipes => "RECIPES"
  | .pets => "PETS"
  | .undefined => "<undefined>"

/-- `GetIDByName`. -/
def getIDByName (name : Text) : Category :=
  if name = "ARMOR".toList then .armor
  else if name = "BAGS".toList then .bags
  else if name = "CHARMS".toList then .charms
  else if name = "CONSUMABLES".toList then .consumables
  else if name = "RECIPES".toList then .recipes
  else if name = "PETS".toList then .pets
  else .undefined

theorem getIDByName_getNameByID (id : Category) : getIDByName id.getNameByID.toList = id := by
  cases id <;> decide

end Category

namespace Currency

/-- `GetNameByID`. -/
def getNameByID : Currency → String
  | .credits => "CREDITS"
  | .copper => "COPPER"
  | .copperCredits => "COPPER+CREDITS"
  | .undefined => "<undefined>"

/-- `GetIDByName`. -/
def getIDByName (name : Text) : Currency :=
  if name = "COPPER".toList then .copper
  else if name = "CREDITS".toList then .credits
  else if name = "COPPER+CREDITS".toList then .copperCredits
  else .undefined

theorem getIDByName_getNameByID (id : Currency) : getIDByName id.getNameByID.toList = id := by
  cases id <;> decide

end Currency

structure CreditShopItem where
  mId : Int := 0
  mTitle : Text := []
  mDescription : Text := []
  mStatus : Status := .undefined
  mCategory : Category := .undefined
  mStartDate : Int := 0
  mEndDate : Int := 0
  mCreatedDate : Int := 0
  mPriceCopper : UInt64 := 0
  mPriceCredits : UInt64 := 0
  mPriceCurrency : Currency := .copper
  mQuantityLimit : UInt32 := 0
  mQuantitySold : UInt32 := 0
  mItemId : Int := 0
  mLookId : Int := 0
  mIv1 : Int := 0
  mIv2 : Int := 0
  deriving DecidableEq, Repr

namespace CreditShopItem

/-- The entity of an item: `KEYPREFIX_CS_ITEM` and the ID. -/
def entityKey (id : Int) : EntityKey where
  mCatalog := "CSItem"
  mID := String.ofList (printInt id)

/-- A date that is written only where it is positive. -/
def writeDate (clock : Clock) (key : String) (date : Int) (w : ClusterEntityWriter) :
    ClusterEntityWriter :=
  if date > 0 then w.value key (Util.formatDate clock date) else w

/-- A number that is written only where it is positive. -/
def writePositive (key : String) (n : Int) (w : ClusterEntityWriter) : ClusterEntityWriter :=
  if n > 0 then w.valueInt key n else w

/-- `WriteEntity`. -/
def writeEntity (clock : Clock) (item : CreditShopItem) : ClusterEntityWriter :=
  let w := ClusterEntityWriter.mk (entityKey item.mId) "" []
    |>.value "Title" item.mTitle
    |>.value "Description" item.mDescription
  let w := writeDate clock "BeginDate" item.mStartDate w
  let w := writeDate clock "EndDate" item.mEndDate w
  let w := writeDate clock "CreatedDate" item.mCreatedDate w
  let w := w.value "PriceCurrency" item.mPriceCurrency.getNameByID.toList
    |>.valueULong "PriceCopper" item.mPriceCopper
    |>.valueULong "PriceCredits" item.mPriceCredits
    |>.valueInt "ItemID" item.mItemId
  let w := writePositive "Iv1" item.mIv1 w
  let w := writePositive "Iv2" item.mIv2 w
  let w := writePositive "LookId" item.mLookId w
  let w := w.value "Category" item.mCategory.getNameByID.toList
  let w := if item.mStatus ≠ .undefined then w.value "Status" item.mStatus.getNameByID.toList
    else w
  let w := writePositive "QuantityLimit" item.mQuantityLimit.toNat w
  writePositive "QuantitySold" item.mQuantitySold.toNat w

/-- A date of `ReadEntity`; `ptime` is what stands in the `struct tm` of `ParseDate`. -/
def readDate (clock : Clock) (ptime : Tm) (s : Text) (date : Int) : Int :=
  if s.length > 0 then Util.parseDate clock ptime s date else date

/-- `ReadEntity`. -/
def readEntity (clock : Clock) (ptime : String → Tm) (rd : ClusterEntityReader) (client : Client)
    (item : CreditShopItem) : CreditShopItem :=
  let amt := rd.valueULong client "PriceAmount"
  let category := rd.value client "Category" []
  let status := rd.value client "Status" []
  let item := { item with
    mTitle := rd.value client "Title" []
    mDescription := rd.value client "Description" []
    mStartDate := readDate clock (ptime "BeginDate") (rd.value client "BeginDate" [])
      item.mStartDate
    mEndDate := readDate clock (ptime "EndDate") (rd.value client "EndDate" []) item.mEndDate
    mCreatedDate := readDate clock (ptime "CreatedDate") (rd.value client "CreatedDate" [])
      item.mCreatedDate
    mPriceCurrency := .getIDByName
      (rd.value client "PriceCurrency" Currency.copper.getNameByID.toList)
    mPriceCopper := rd.valueULong client "PriceCopper"
    mPriceCredits := rd.valueULong client "PriceCredits"
    mItemId := rd.valueInt client "ItemID"
    mIv1 := rd.valueInt client "Iv1" (rd.valueULong client "ItemAmount").toNat
    mIv2 := rd.valueInt client "Iv2"
    mLookId := rd.valueInt client "LookId"
    mCategory := if category.length > 0 then .getIDByName category else item.mCategory
    mStatus := if status.length > 0 then .getIDByName status else item.mStatus
    mQuantityLimit := UInt32.ofInt (rd.valueInt client "QuantityLimit")
    mQuantitySold := UInt32.ofInt (rd.valueInt client "QuantitySold") }
  -- an amount without its currency, as items were saved before
  if amt.toInt64 > 0 then
    match item.mPriceCurrency with
    | .copper => { item with mPriceCopper := amt }
    | .credits => { item with mPriceCredits := amt }
    | _ => item
  else item

/-- `GetItem` of what `UpdateItem` wrote to an empty store. -/
def readBack (clock : Clock) (ptime : String → Tm) (item : CreditShopItem) : CreditShopItem :=
  readEntity clock ptime { key := entityKey item.mId } ((item.writeEntity clock).finish {})
    { mId := item.mId }

/-! ### What is written -/

/-- The value of a date, if it is written. -/
def dateString (clock : Clock) (key : String) (date : Int) : List ClusterEntityStringValue :=
  if date > 0 then [⟨"", key, Util.formatDate clock date⟩] else []

/-- The value of a number, if it is written. -/
def positiveString (key : String) (n : Int) : List ClusterEntityStringValue :=
  if n > 0 then [⟨"", key, printInt n⟩] else []

/-- The values of an item. -/
def strings (clock : Clock) (item : CreditShopItem) : List ClusterEntityStringValue :=
  [⟨"", "Title", item.mTitle⟩, ⟨"", "Description", item.mDescription⟩] ++
  dateString clock "BeginDate" item.mStartDate ++ dateString clock "EndDate" item.mEndDate ++
  dateString clock "CreatedDate" item.mCreatedDate ++
  [⟨"", "PriceCurrency", item.mPriceCurrency.getNameByID.toList⟩,
    ⟨"", "PriceCopper", printULong item.mPriceCopper⟩,
    ⟨"", "PriceCredits", printULong item.mPriceCredits⟩,
    ⟨"", "ItemID", printInt item.mItemId⟩] ++
  positiveString "Iv1" item.mIv1 ++ positiveString "Iv2" item.mIv2 ++
  positiveString "LookId" item.mLookId ++
  [⟨"", "Category", item.mCategory.getNameByID.toList⟩] ++
  (if item.mStatus ≠ .undefined then [⟨"", "Status", item.mStatus.getNameByID.toList⟩] else []) ++
  positiveString "QuantityLimit" item.mQuantityLimit.toNat ++
  positiveString "QuantitySold" item.mQuantitySold.toNat

theorem wrote_writeDate {k : EntityKey} {vals : List ClusterEntityStringValue}
    {w : ClusterEntityWriter} (h : w.Wrote k vals) (clock : Clock) (key : String) (date : Int) :
    (writeDate clock key date w).Wrote k (vals ++ dateString clock key date) :=
  h.ite _ (h.value key _)

theorem wrote_writePositive {k : EntityKey} {vals : List ClusterEntityStringValue}
    {w : ClusterEntityWriter} (h : w.Wrote k vals) (key : String) (n : Int) :
    (writePositive key n w).Wrote k (vals ++ positiveString key n) :=
  h.ite _ (h.valueInt key n)

theorem writeEntity_eq (clock : Clock) (item : CreditShopItem) :
    item.writeEntity clock = ⟨entityKey item.mId, "", item.strings clock⟩ := by
  have htexts := ((ClusterEntityWriter.Wrote.new (entityKey item.mId)).value "Title"
    item.mTitle).value "Description" item.mDescription
  have hdates := wrote_writeDate (wrote_writeDate (wrote_writeDate htexts clock "BeginDate"
    item.mStartDate) clock "EndDate" item.mEndDate) clock "CreatedDate" item.mCreatedDate
  have hprices := (((hdates.value "PriceCurrency" item.mPriceCurrency.getNameByID.toList).value
    "PriceCopper" (printULong item.mPriceCopper)).value "PriceCredits"
    (printULong item.mPriceCredits)).valueInt "ItemID" item.mItemId
  have hnumbers := (wrote_writePositive (wrote_writePositive (wrote_writePositive hprices "Iv1"
    item.mIv1) "Iv2" item.mIv2) "LookId" item.mLookId).value "Category"
    item.mCategory.getNameByID.toList
  have hstatus := hnumbers.ite (item.mStatus ≠ .undefined)
    (hnumbers.value "Status" item.mStatus.getNameByID.toList)
  have hall := wrote_writePositive (wrote_writePositive hstatus "QuantityLimit"
    item.mQuantityLimit.toNat) "QuantitySold" item.mQuantitySold.toNat
  refine Eq.trans hall ?_
  simp only [strings, List.append_assoc, List.cons_append, List.nil_append]

/-- What is in the store under each key. -/
structure Holds (clock : Clock) (item : CreditShopItem) (get : String → Option Text) : Prop where
  title : get "Title" = some item.mTitle
  description : get "Description" = some item.mDescription
  beginDate : get "BeginDate" =
    if item.mStartDate > 0 then some (Util.formatDate clock item.mStartDate) else none
  endDate : get "EndDate" =
    if item.mEndDate > 0 then some (Util.formatDate clock item.mEndDate) else none
  createdDate : get "CreatedDate" =
    if item.mCreatedDate > 0 then some (Util.formatDate clock item.mCreatedDate) else none
  priceCurrency : get "PriceCurrency" = some item.mPriceCurrency.getNameByID.toList
  priceAmount : get "PriceAmount" = none
  priceCopper : get "PriceCopper" = some (printULong item.mPriceCopper)
  priceCredits : get "PriceCredits" = some (printULong item.mPriceCredits)
  itemID : get "ItemID" = some (printInt item.mItemId)
  itemAmount : get "ItemAmount" = none
  iv1 : get "Iv1" = if item.mIv1 > 0 then some (printInt item.mIv1) else none
  iv2 : get "Iv2" = if item.mIv2 > 0 then some (printInt item.mIv2) else none
  lookId : get "LookId" = if item.mLookId > 0 then some (printInt item.mLookId) else none
  category : get "Category" = some item.mCategory.getNameByID.toList
  status : get "Status" =
    if item.mStatus ≠ .undefined then some item.mStatus.getNameByID.toList else none
  quantityLimit : get "QuantityLimit" =
    if (item.mQuantityLimit.toNat : Int) > 0 then some (printInt item.mQuantityLimit.toNat)
    else none
  quantitySold : get "QuantitySold" =
    if (item.mQuantitySold.toNat : Int) > 0 then some (printInt item.mQuantitySold.toNat) else none

theorem holds_strings (clock : Clock) (item : CreditShopItem) :
    item.Holds clock (valueOf (item.strings clock) "") := by
  unfold strings dateString positiveString
  constructor <;> simp only [valueOf_append, valueOf_ite] <;>
    simp [valueOf_cons, valueOf_nil, EntityKey.sectionName]

/-! ### What is read -/

/-- What comes back of a date. -/
def rereadDate (clock : Clock) (ptime : Tm) (date : Int) : Int :=
  if date > 0 then clock.mktime (Util.reparsed clock ptime date) else 0

theorem readDate_eq (clock : Clock) (ptime : Tm) (date : Int) :
    readDate clock ptime
        ((if date > 0 then some (Util.formatDate clock date) else none).getD []) 0 =
      rereadDate clock ptime date := by
  unfold readDate rereadDate
  split
  · have hlen : (Util.formatDate clock date).length > 0 :=
      List.length_pos_of_ne_nil (Util.formatDate_ne_nil clock date)
    rw [Option.getD_some, if_pos hlen, Util.parseDate_formatDate]
  · rfl

/-- A number that is read of what is written where it is positive. -/
theorem parseInt_positive (n : Int) :
    parseInt ((if n > 0 then some (printInt n) else none).getD (printInt 0)) = max n 0 := by
  split
  · rw [Option.getD_some, parseInt_printInt]
    omega
  · rw [Option.getD_none, parseInt_printInt]
    omega

theorem ofInt_toNat (n : UInt32) : UInt32.ofInt (max (n.toNat : Int) 0) = n := by
  have hlt := n.toNat_lt
  apply UInt32.toNat_inj.mp
  rw [max_eq_left (Int.natCast_nonneg _), UInt32.ofInt, UInt32.toNat_ofNat']
  omega

theorem readStatus_eq (status : Status) :
    (if ((if status ≠ .undefined then some status.getNameByID.toList else none).getD
        []).length > 0 then
      Status.getIDByName
        ((if status ≠ .undefined then some status.getNameByID.toList else none).getD [])
    else .undefined) = status := by
  cases status <;> decide

theorem getNameByID_length (category : Category) : category.getNameByID.toList.length > 0 := by
  cases category <;> decide

/-- What `ReadEntity` makes of what `WriteEntity` wrote. -/
theorem readBack_eq (clock : Clock) (ptime : String → Tm) (item : CreditShopItem) :
    item.readBack clock ptime =
      { item with
        mStartDate := rereadDate clock (ptime "BeginDate") item.mStartDate
        mEndDate := rereadDate clock (ptime "EndDate") item.mEndDate
        mCreatedDate := rereadDate clock (ptime "CreatedDate") item.mCreatedDate
        mLookId := max item.mLookId 0
        mIv1 := max item.mIv1 0
        mIv2 := max item.mIv2 0 } := by
  have hholds := holds_strings clock item
  have hvalue (key : String) (d : Text) :
      ClusterEntityReader.value { key := entityKey item.mId } ((item.writeEntity clock).finish {})
        key d = (valueOf (item.strings clock) "" key).getD d := by
    have hsec : ∃ v ∈ item.strings clock,
        EntityKey.sectionName v.sec = EntityKey.sectionName "" := ⟨_, List.mem_cons_self, rfl⟩
    rw [ClusterEntityReader.value_eq (ClusterEntityReader.fresh_new _ "" _), writeEntity_eq,
      ClusterEntityWriter.field_finish_of_mem {} "" hsec]
    cases valueOf (item.strings clock) "" key <;> rfl
  have hamount : ((0 : UInt64).toInt64 > 0) = False := by decide
  unfold readBack readEntity
  simp only [ClusterEntityReader.valueULong, ClusterEntityReader.valueInt, hvalue, hholds.title,
    hholds.description, hholds.beginDate, hholds.endDate, hholds.createdDate,
    hholds.priceCurrency, hholds.priceAmount, hholds.priceCopper, hholds.priceCredits,
    hholds.itemID, hholds.itemAmount, hholds.iv1, hholds.iv2, hholds.lookId, hholds.category,
    hholds.quantityLimit, hholds.quantitySold, Option.getD_some, Option.getD_none, hamount,
    if_false, parseULong_printULong, readDate_eq, parseInt_printInt]
  have hzero : (((0 : UInt64).toNat : Nat) : Int) = 0 := rfl
  simp only [hzero, hholds.status, readStatus_eq, parseInt_positive, ofInt_toNat,
    if_pos (getNameByID_length _), Category.getIDByName_getNameByID,
    Currency.getIDByName_getNameByID]

/-- No date comes back but the one that is not set. -/
theorem rereadDate_eq_iff {clock : Clock} (hclock : clock.Lawful) {ptime : Tm}
    (hptime : ptime.OfDay) {date : Int} : rereadDate clock ptime date = date ↔ date = 0 := by
  unfold rereadDate
  split
  · rename_i hpos
    constructor
    · intro heq
      exact absurd heq (Util.mktime_reparsed_ne hclock hptime hpos)
    · intro hzero
      exact absurd hzero (ne_of_gt hpos)
  · exact eq_comm

/-- What an item must be like to come back: it has no dates, and no look or amount is negative. -/
structure Storable (item : CreditShopItem) : Prop where
  startDate : item.mStartDate = 0
  endDate : item.mEndDate = 0
  createdDate : item.mCreatedDate = 0
  lookId : 0 ≤ item.mLookId
  iv1 : 0 ≤ item.mIv1
  iv2 : 0 ≤ item.mIv2

/-- An item comes back as it was exactly when it has no dates and no look or amount is negative,
whatever time of day stands in the `struct tm`. -/
theorem readBack_eq_iff {clock : Clock} (hclock : clock.Lawful) {ptime : String → Tm}
    (hptime : ∀ key, (ptime key).OfDay) (item : CreditShopItem) :
    item.readBack clock ptime = item ↔ item.Storable := by
  have hdate (key : String) {date : Int} :=
    @rereadDate_eq_iff clock hclock (ptime key) (hptime key) date
  rw [readBack_eq]
  constructor
  · intro heq
    have hfield {α : Type} (f : CreditShopItem → α) := congrArg f heq
    have hlook := hfield mLookId
    have hiv1 := hfield mIv1
    have hiv2 := hfield mIv2
    dsimp only at hlook hiv1 hiv2
    exact ⟨(hdate _).mp (hfield mStartDate), (hdate _).mp (hfield mEndDate),
      (hdate _).mp (hfield mCreatedDate), by omega, by omega, by omega⟩
  · intro h
    rw [(hdate _).mpr h.startDate, (hdate _).mpr h.endDate, (hdate _).mpr h.createdDate,
      max_eq_left h.lookId, max_eq_left h.iv1, max_eq_left h.iv2]

end CreditShopItem

/-- What stands in the fields of a `struct tm` that are not set: midnight. -/
def midnight : String → Tm := fun _ => {}

theorem midnight_ofDay (_ : String) : Tm.OfDay {} where
  hour := by decide
  min := by decide
  sec := by decide

/-- An item on sale from the second day of 1970 on. -/
def onSale : CreditShopItem where
  mId := 1
  mTitle := "Charm".toList
  mStartDate := 86400

/-- An item without dates comes back. -/
theorem readBack_undated :
    { onSale with mStartDate := 0 }.readBack Util.utc midnight =
      { onSale with mStartDate := 0 } := by
  refine (CreditShopItem.readBack_eq_iff Util.utc_lawful midnight_ofDay _).mpr ?_
  constructor <;> decide

/-- The second of January 1970 comes back as the second of February 3870. -/
theorem readBack_onSale :
    onSale.readBack Util.utc midnight ≠ onSale ∧
      Util.utc.mktime (Util.utc.localtime 86400) = 86400 ∧
      Util.parseDate Util.utc {} (Util.formatDate Util.utc 86400) 0 ≠ 86400 := by
  refine ⟨?_, ?_, ?_⟩ <;> decide

end Iceee.CreditShop
