import Iceee.Auction.Bidding
import Iceee.Lib.Machine

/-!
# Buying an auction at once

`auctionhouse.buy` with what it charges. A buy-it-now price of zero in both currencies means that
the auction cannot be bought at once, but no check says so.

## Implementation notes

Copper and credits are looked up by the ID of a character definition, and account credits by the
ID of the account, so that a seller who is the buyer, or has the same account, needs no case of its
own. Critical sections, messages and pending updates are left out.
-/

namespace Iceee.Auction

open Lib

/-- The copper and the credits of a stat set, which are `int`s. -/
structure Wallet where
  copper : Int := 0
  credits : Int := 0
  copper_inInt32 : InInt32 copper := by decide
  credits_inInt32 : InInt32 credits := by decide

namespace Wallet

variable (w : Wallet) (change : Int)

/-- `copper +=`, or `-=`. -/
def addCopper : Wallet :=
  { w with copper := wrap32 (w.copper + change), copper_inInt32 := wrap32_inInt32 _ }

/-- `credits +=`, or `-=`. -/
def addCredits : Wallet :=
  { w with credits := wrap32 (w.credits + change), credits_inInt32 := wrap32_inInt32 _ }

@[simp] theorem addCopper_copper : (w.addCopper change).copper = wrap32 (w.copper + change) := rfl

@[simp] theorem addCopper_credits : (w.addCopper change).credits = w.credits := rfl

@[simp] theorem addCredits_copper : (w.addCredits change).copper = w.copper := rfl

@[simp] theorem addCredits_credits :
    (w.addCredits change).credits = wrap32 (w.credits + change) := rfl

end Wallet

structure Funds where
  css : Int → Wallet := fun _ => {}
  accountCredits : Int → Int := fun _ => 0
  accountCredits_inInt32 : ∀ id, InInt32 (accountCredits id) := by intro _; decide

namespace Funds

/-- Nobody has anything. -/
def empty : Funds := {}

/-- Change one stat set. -/
def modifyCss (f : Funds) (id : Int) (g : Wallet → Wallet) : Funds :=
  { f with css := Function.update f.css id (g (f.css id)) }

/-- Set the credits of one account, an `int`. -/
def setAccountCredits (f : Funds) (accountID credits : Int) : Funds :=
  { f with
    accountCredits := Function.update f.accountCredits accountID (wrap32 credits)
    accountCredits_inInt32 := fun id => by
      by_cases hid : id = accountID
      · rw [hid, Function.update_self]
        exact wrap32_inInt32 _
      · rw [Function.update_of_ne hid]
        exact f.accountCredits_inInt32 id }

@[simp] theorem modifyCss_css_self (f : Funds) (id : Int) (g : Wallet → Wallet) :
    (f.modifyCss id g).css id = g (f.css id) := by
  simp [modifyCss]

theorem modifyCss_css_other (f : Funds) {id id' : Int} (g : Wallet → Wallet) (h : id' ≠ id) :
    (f.modifyCss id g).css id' = f.css id' := by
  simp [modifyCss, h]

@[simp] theorem modifyCss_accountCredits (f : Funds) (id : Int) (g : Wallet → Wallet) :
    (f.modifyCss id g).accountCredits = f.accountCredits := rfl

@[simp] theorem setAccountCredits_css (f : Funds) (accountID credits : Int) :
    (f.setAccountCredits accountID credits).css = f.css := rfl

@[simp] theorem setAccountCredits_self (f : Funds) (accountID credits : Int) :
    (f.setAccountCredits accountID credits).accountCredits accountID = wrap32 credits := by
  simp [setAccountCredits]

theorem setAccountCredits_other (f : Funds) {accountID accountID' : Int} (credits : Int)
    (h : accountID' ≠ accountID) :
    (f.setAccountCredits accountID credits).accountCredits accountID' =
      f.accountCredits accountID' := by
  simp [setAccountCredits, h]

end Funds

/-- The auctions in the cluster, by their IDs. -/
structure AuctionStore where
  find : Int → Option AuctionHouseItem := fun _ => none
  mId_eq : ∀ {id item}, find id = some item → item.mId = id := by simp

/-- `RemoveItem`. -/
def AuctionStore.remove (store : AuctionStore) (id : Int) : AuctionStore where
  find := Function.update store.find id none
  mId_eq {id' item} h := by
    by_cases heq : id' = id
    · subst heq
      simp at h
    · rw [Function.update_of_ne heq] at h
      exact store.mId_eq h

/-- What a buy reads besides the store and the funds. The account of a seller is looked up by the
seller's ID: the character may be gone, or its account. -/
structure BuyQuery where
  auctionId : Int
  auctioneer : Option Int
  characterID : Int
  accountID : Int
  inventory : InventoryManager
  serverTime : UInt64
  sellerAccount : Int → Option (Option Int) := fun _ => none

namespace BuyQuery

variable (useAccountCredits : Bool) (q : BuyQuery) (item : AuctionHouseItem) (f : Funds)

/-- The credits the buyer pays from. -/
def credits : Int := if useAccountCredits then f.accountCredits q.accountID
  else (f.css q.characterID).credits

/-- The buyer as `ValidateItem` sees it. -/
def buyer : Buyer where
  copper := (f.css q.characterID).copper
  credits := q.credits useAccountCredits f
  inventory := q.inventory

/-- `ValidateItem` copies the credits of the account once the copper has been found to suffice. -/
def syncCredits : Funds :=
  if useAccountCredits ∧ ¬UInt64.ofInt (f.css q.characterID).copper < item.mBuyItNowCopper then
    f.modifyCss q.characterID fun w =>
      { w with
        credits := f.accountCredits q.accountID
        credits_inInt32 := f.accountCredits_inInt32 q.accountID }
  else f

/-- What the buyer pays. -/
def charge (f : Funds) : Funds :=
  let f := if item.mBuyItNowCopper > 0 then
    f.modifyCss q.characterID (·.addCopper (-item.mBuyItNowCopper.toNat)) else f
  if item.mBuyItNowCredits > 0 then
    let f := f.modifyCss q.characterID (·.addCredits (-item.mBuyItNowCredits.toNat))
    if useAccountCredits then f.setAccountCredits q.accountID (f.css q.characterID).credits else f
  else f

/-- The funds once the buyer has paid. -/
def charged (f : Funds) : Funds :=
  q.charge useAccountCredits item (q.syncCredits useAccountCredits item f)

/-- What a seller gets whose character can be found, and maybe the account. -/
def payTo (account : Option Int) (f : Funds) : Funds :=
  let f := if item.mBuyItNowCopper > 0 then
    f.modifyCss item.mSeller (·.addCopper item.mBuyItNowCopper.toNat) else f
  if item.mBuyItNowCredits > 0 then
    if useAccountCredits then
      match account with
      | none => f
      | some accountID =>
          f.setAccountCredits accountID
            ((f.css item.mSeller).credits + item.mBuyItNowCredits.toNat)
    else f.modifyCss item.mSeller (·.addCredits item.mBuyItNowCredits.toNat)
  else f

/-- What the seller gets. -/
def pay (f : Funds) : Funds :=
  match q.sellerAccount item.mSeller with
  | none => f
  | some account => payTo useAccountCredits item account f

end BuyQuery

structure AuctionHouse where
  store : AuctionStore := {}
  funds : Funds := Funds.empty

namespace AuctionHouse

variable (im : ItemManager) (now : Nat) (useAccountCredits : Bool)

/-- `LoadItem`. -/
def loadItem (s : AuctionHouse) (id : Int) : AuctionHouseItem := .load id (s.store.find id)

/-- `AuctionHouseBuyHandler::handleQuery`: the answer, where `ok` is OK, and the state after it. The
charge comes before the payment of the seller, as each amount does in the source. -/
def buy (s : AuctionHouse) (q : BuyQuery) : Except String InventoryManager × AuctionHouse :=
  let item := s.loadItem q.auctionId
  match checkBuy im now item q.auctioneer (q.buyer useAccountCredits s.funds) q.serverTime with
  | .refused message _ =>
      let validated :=
        item.mId ≠ 0 ∧ ∃ a ∈ q.auctioneer, item.mAuctioneer = 0 ∨ item.mAuctioneer = a
      (.error message,
        if validated then { s with funds := q.syncCredits useAccountCredits item s.funds } else s)
  | .delivered inventory =>
      (.ok inventory,
        { store := s.store.remove q.auctionId
          funds := q.pay useAccountCredits item (q.charged useAccountCredits item s.funds) })

/-- A check of the handler turns the query down. -/
def Refuses (s : AuctionHouse) (q : BuyQuery) : Prop :=
  let item := s.loadItem q.auctionId
  item.mId = 0 ∨ q.auctioneer = none ∨
    (∃ a, q.auctioneer = some a ∧ item.mAuctioneer ≠ 0 ∧ item.mAuctioneer ≠ a) ∨
    (validateItem item (q.buyer useAccountCredits s.funds) q.serverTime).isSome ∨
    (q.inventory.addItemEx im now invContainer item.mItemId (item.mCount + 1)).1 = none

end AuctionHouse

namespace AuctionHouseItem

/-- There is a buy-it-now price. -/
def Priced (item : AuctionHouseItem) : Prop :=
  item.mBuyItNowCopper ≠ 0 ∨ item.mBuyItNowCredits ≠ 0

/-- The time is within the dates that are set. -/
def IsRunning (item : AuctionHouseItem) (serverTime : UInt64) : Prop :=
  (item.mStartDate = 0 ∨ item.mStartDate ≤ serverTime) ∧
    (item.mEndDate = 0 ∨ serverTime < item.mEndDate)

instance : DecidablePred Priced := fun _ => inferInstanceAs (Decidable (_ ∨ _))

end AuctionHouseItem

namespace BuyQuery

variable (useAccountCredits : Bool) (q : BuyQuery) (item : AuctionHouseItem)

/-- The buyer is the seller, and gets the copper back. -/
def SellsItself : Prop := item.mSeller = q.characterID ∧ q.sellerAccount item.mSeller ≠ none

/-- The credits go back to where they came from. -/
def SharesCredits : Prop :=
  if useAccountCredits then q.sellerAccount item.mSeller = some (some q.accountID)
  else q.SellsItself item

instance : Decidable (q.SellsItself item) := inferInstanceAs (Decidable (_ ∧ _))

instance : Decidable (q.SharesCredits useAccountCredits item) :=
  inferInstanceAs (Decidable (if useAccountCredits then _ else _))

end BuyQuery

/-- What is bought is an auction in the store that is running and has a price, and in the end the
buyer has that price less, but for what he gets himself as the seller. -/
structure ProperSale (useAccountCredits : Bool) (q : BuyQuery) (s s' : AuctionHouse)
    (item : AuctionHouseItem) : Prop where
  stored : s.store.find q.auctionId = some item
  running : item.IsRunning q.serverTime
  priced : item.Priced
  copper : (s'.funds.css q.characterID).copper =
    (s.funds.css q.characterID).copper - item.mBuyItNowCopper.toNat +
      if q.SellsItself item then (item.mBuyItNowCopper.toNat : Int) else 0
  credits : q.credits useAccountCredits s'.funds =
    q.credits useAccountCredits s.funds - item.mBuyItNowCredits.toNat +
      if q.SharesCredits useAccountCredits item then (item.mBuyItNowCredits.toNat : Int) else 0

/-- Taking a price does not leave the range of an `int`. -/
def Fits (balance : Int) (price : UInt64) : Prop := price ≠ 0 → InInt32 (balance - price.toNat)

/-- The auction has a buy-it-now price, taking it does not overflow, and another seller on the
buyer's account, whose own credits overwrite those of the account, has just the price less. -/
structure BuyQuery.Affordable (useAccountCredits : Bool) (q : BuyQuery) (f : Funds)
    (item : AuctionHouseItem) : Prop where
  priced : item.Priced
  copper : ¬q.SellsItself item → Fits (f.css q.characterID).copper item.mBuyItNowCopper
  credits : ¬q.SharesCredits useAccountCredits item →
    Fits (q.credits useAccountCredits f) item.mBuyItNowCredits
  overwritten : useAccountCredits = true → q.SharesCredits useAccountCredits item →
    item.mSeller ≠ q.characterID → item.mBuyItNowCredits ≠ 0 →
    wrap32 ((f.css item.mSeller).credits + item.mBuyItNowCredits.toNat) =
      f.accountCredits q.accountID

theorem fits_iff {balance : Int} {price : UInt64} :
    Fits balance price ↔
      (if price > 0 then wrap32 (balance - price.toNat) else balance) = balance - price.toNat := by
  unfold Fits
  split
  · rename_i hpos
    have hne : price ≠ 0 := by
      rintro rfl
      exact UInt64.lt_irrefl _ hpos
    constructor
    · intro hfits
      exact wrap32_eq (hfits hne)
    · intro heq _
      rw [← heq]
      exact wrap32_inInt32 _
  · rename_i hpos
    have hzero : price = 0 := by
      apply UInt64.toNat_inj.mp
      rw [gt_iff_lt, UInt64.lt_iff_toNat_lt] at hpos
      simpa using hpos
    simp [hzero]

section Funds

variable {useAccountCredits : Bool} {q : BuyQuery} {item : AuctionHouseItem} {f : Funds}

theorem charge_copper : ((q.charge useAccountCredits item f).css q.characterID).copper =
    if item.mBuyItNowCopper > 0 then
      wrap32 ((f.css q.characterID).copper - item.mBuyItNowCopper.toNat)
    else (f.css q.characterID).copper := by
  unfold BuyQuery.charge
  dsimp only
  split_ifs <;> simp [sub_eq_add_neg]

/-- The credits of the buyer's stat set, which are those of the account where accounts have them. -/
theorem charge_css_credits : ((q.charge useAccountCredits item f).css q.characterID).credits =
    if item.mBuyItNowCredits > 0 then
      wrap32 ((f.css q.characterID).credits - item.mBuyItNowCredits.toNat)
    else (f.css q.characterID).credits := by
  unfold BuyQuery.charge
  dsimp only
  split_ifs <;> simp [sub_eq_add_neg]

theorem charge_accountCredits (hsync : (f.css q.characterID).credits =
      f.accountCredits q.accountID) :
    (q.charge true item f).accountCredits q.accountID =
      ((q.charge true item f).css q.characterID).credits := by
  unfold BuyQuery.charge
  simp only [if_true]
  split_ifs <;> simp [hsync, wrap32_eq (wrap32_inInt32 _)]

theorem charge_css_other {id : Int} (h : id ≠ q.characterID) :
    (q.charge useAccountCredits item f).css id = f.css id := by
  unfold BuyQuery.charge
  dsimp only
  split_ifs <;> simp [Funds.modifyCss_css_other, h]

theorem syncCredits_copper :
    ((q.syncCredits useAccountCredits item f).css q.characterID).copper =
      (f.css q.characterID).copper := by
  unfold BuyQuery.syncCredits
  split <;> simp

theorem syncCredits_credits :
    q.credits useAccountCredits (q.syncCredits useAccountCredits item f) =
      q.credits useAccountCredits f := by
  unfold BuyQuery.syncCredits BuyQuery.credits
  cases useAccountCredits with
  | false => simp
  | true =>
      simp only [true_and, if_true]
      split <;> simp

/-- Where the copper suffices, the character has the credits of the account. -/
theorem syncCredits_synced (h : ¬UInt64.ofInt (f.css q.characterID).copper < item.mBuyItNowCopper)
    (huse : useAccountCredits = true) :
    ((q.syncCredits useAccountCredits item f).css q.characterID).credits =
      (q.syncCredits useAccountCredits item f).accountCredits q.accountID := by
  unfold BuyQuery.syncCredits
  rw [if_pos ⟨huse, h⟩]
  simp

theorem syncCredits_css_other {id : Int} (h : id ≠ q.characterID) :
    (q.syncCredits useAccountCredits item f).css id = f.css id := by
  unfold BuyQuery.syncCredits
  split
  · exact f.modifyCss_css_other _ h
  · rfl

theorem payTo_copper (account : Option Int) :
    ((BuyQuery.payTo useAccountCredits item account f).css q.characterID).copper =
      if item.mBuyItNowCopper > 0 ∧ item.mSeller = q.characterID then
        wrap32 ((f.css q.characterID).copper + item.mBuyItNowCopper.toNat)
      else (f.css q.characterID).copper := by
  unfold BuyQuery.payTo
  by_cases hself : item.mSeller = q.characterID
  · rw [hself]
    dsimp only
    split_ifs <;> cases account <;> simp_all
  · have hother (f : Funds) (g : Wallet → Wallet) :
        (f.modifyCss item.mSeller g).css q.characterID = f.css q.characterID :=
      f.modifyCss_css_other g (Ne.symm hself)
    have hnot : ¬(item.mBuyItNowCopper > 0 ∧ item.mSeller = q.characterID) := fun h => hself h.2
    rw [if_neg hnot]
    dsimp only
    split_ifs <;> cases account <;> simp [hother]

theorem payTo_credits (account : Option Int) :
    q.credits useAccountCredits (BuyQuery.payTo useAccountCredits item account f) =
      if item.mBuyItNowCredits > 0 ∧
          (if useAccountCredits then account = some q.accountID else item.mSeller = q.characterID)
      then wrap32 ((f.css item.mSeller).credits + item.mBuyItNowCredits.toNat)
      else q.credits useAccountCredits f := by
  unfold BuyQuery.payTo BuyQuery.credits
  cases useAccountCredits with
  | true =>
      cases account with
      | none =>
          dsimp only
          split_ifs <;> simp_all
      | some accountID =>
          by_cases hsame : accountID = q.accountID
          · subst hsame
            dsimp only
            split_ifs <;> simp_all
          · have hother (f : Funds) (credits : Int) :
                (f.setAccountCredits accountID credits).accountCredits q.accountID =
                  f.accountCredits q.accountID := f.setAccountCredits_other _ (Ne.symm hsame)
            dsimp only
            split_ifs <;> simp_all
  | false =>
      by_cases hself : item.mSeller = q.characterID
      · rw [hself]
        dsimp only
        split_ifs <;> simp_all
      · have hother (f : Funds) (g : Wallet → Wallet) :
            (f.modifyCss item.mSeller g).css q.characterID = f.css q.characterID :=
          f.modifyCss_css_other g (Ne.symm hself)
        dsimp only
        split_ifs <;> simp_all

theorem pay_copper : ((q.pay useAccountCredits item f).css q.characterID).copper =
    if item.mBuyItNowCopper > 0 ∧ q.SellsItself item then
      wrap32 ((f.css q.characterID).copper + item.mBuyItNowCopper.toNat)
    else (f.css q.characterID).copper := by
  rw [BuyQuery.pay]
  rcases Option.eq_none_or_eq_some (q.sellerAccount item.mSeller) with hfound | ⟨account, hfound⟩
  · rw [hfound, if_neg fun h => h.2.2 hfound]
  · rw [hfound]
    refine (payTo_copper account).trans (if_congr (and_congr_right fun _ => ?_) rfl rfl)
    simp [BuyQuery.SellsItself, hfound]

theorem pay_credits : q.credits useAccountCredits (q.pay useAccountCredits item f) =
    if item.mBuyItNowCredits > 0 ∧ q.SharesCredits useAccountCredits item then
      wrap32 ((f.css item.mSeller).credits + item.mBuyItNowCredits.toNat)
    else q.credits useAccountCredits f := by
  rw [BuyQuery.pay]
  rcases Option.eq_none_or_eq_some (q.sellerAccount item.mSeller) with hfound | ⟨account, hfound⟩
  · have hnot : ¬q.SharesCredits useAccountCredits item := by
      cases useAccountCredits <;> simp [BuyQuery.SharesCredits, BuyQuery.SellsItself, hfound]
    rw [hfound, if_neg fun h => hnot h.2]
  · rw [hfound]
    refine (payTo_credits account).trans (if_congr (and_congr_right fun _ => ?_) rfl rfl)
    cases useAccountCredits <;> simp [BuyQuery.SharesCredits, BuyQuery.SellsItself, hfound]

end Funds

namespace AuctionHouse

variable {im : ItemManager} {now : Nat} {useAccountCredits : Bool} {s : AuctionHouse}
  {q : BuyQuery}

/-- A buy that no check turns down is answered OK, and goes on to the payments. -/
theorem buy_eq (h : ¬s.Refuses im now useAccountCredits q) :
    ∃ inventory, s.buy im now useAccountCredits q = (.ok inventory,
      { store := s.store.remove q.auctionId
        funds := q.pay useAccountCredits (s.loadItem q.auctionId)
          (q.charged useAccountCredits (s.loadItem q.auctionId) s.funds) }) := by
  unfold Refuses at h
  simp only [not_or, Bool.not_eq_true, Option.isSome_eq_false_iff, Option.isNone_iff_eq_none] at h
  obtain ⟨hid, hknown, hright, hvalid, hadded⟩ := h
  obtain ⟨auctioneer, hauctioneer⟩ := Option.ne_none_iff_exists'.mp hknown
  have hright' : ¬((s.loadItem q.auctionId).mAuctioneer ≠ 0 ∧
      (s.loadItem q.auctionId).mAuctioneer ≠ auctioneer) := fun hwrong =>
    hright ⟨auctioneer, hauctioneer, hwrong⟩
  cases hadd : q.inventory.addItemEx im now invContainer (s.loadItem q.auctionId).mItemId
      ((s.loadItem q.auctionId).mCount + 1) with
  | mk i inventory =>
      cases i with
      | none => exact absurd (by rw [hadd]) hadded
      | some i =>
          have hcheck : checkBuy im now (s.loadItem q.auctionId) q.auctioneer
              (q.buyer useAccountCredits s.funds) q.serverTime = .delivered inventory := by
            simp only [checkBuy, if_neg hid, hauctioneer, if_neg hright', hvalid]
            simp only [BuyQuery.buyer, hadd]
          exact ⟨inventory, by simp only [buy, hcheck]⟩

/-- A query that a check turns down is answered with an error. -/
theorem buy_refused (h : s.Refuses im now useAccountCredits q) (inventory : InventoryManager)
    (s' : AuctionHouse) : s.buy im now useAccountCredits q ≠ (.ok inventory, s') := by
  have hcheck : ∃ message left, checkBuy im now (s.loadItem q.auctionId) q.auctioneer
      (q.buyer useAccountCredits s.funds) q.serverTime = .refused message left := by
    unfold checkBuy
    by_cases hid : (s.loadItem q.auctionId).mId = 0
    · exact ⟨_, _, by rw [if_pos hid]⟩
    rw [if_neg hid]
    cases hauctioneer : q.auctioneer with
    | none => exact ⟨_, _, rfl⟩
    | some auctioneer =>
        dsimp only
        by_cases hwrong : (s.loadItem q.auctionId).mAuctioneer ≠ 0 ∧
            (s.loadItem q.auctionId).mAuctioneer ≠ auctioneer
        · exact ⟨_, _, by rw [if_pos hwrong]⟩
        rw [if_neg hwrong]
        cases hvalid : validateItem (s.loadItem q.auctionId) (q.buyer useAccountCredits s.funds)
            q.serverTime with
        | some error => exact ⟨_, _, rfl⟩
        | none =>
            have hadd : (q.inventory.addItemEx im now invContainer
                (s.loadItem q.auctionId).mItemId ((s.loadItem q.auctionId).mCount + 1)).1 =
                  none := by
              rcases h with h | h | ⟨a, ha, hbad⟩ | h | h
              · exact absurd h hid
              · rw [hauctioneer] at h
                cases h
              · obtain rfl : auctioneer = a := Option.some.inj (hauctioneer.symm.trans ha)
                exact absurd hbad hwrong
              · rw [hvalid] at h
                cases h
              · exact h
            dsimp only
            rw [BuyQuery.buyer]
            generalize q.inventory.addItemEx im now invContainer
              (s.loadItem q.auctionId).mItemId ((s.loadItem q.auctionId).mCount + 1) = r at hadd
            obtain ⟨i, inventory⟩ := r
            dsimp only at hadd
            subst hadd
            exact ⟨_, _, rfl⟩
  obtain ⟨message, left, hcheck⟩ := hcheck
  intro heq
  unfold buy at heq
  simp only [hcheck] at heq
  cases (Prod.mk.inj heq).1

/-- What a buy that is not refused has checked. -/
theorem checked_of_not_refuses (h : ¬s.Refuses im now useAccountCredits q) :
    ¬UInt64.ofInt (s.funds.css q.characterID).copper <
        (s.loadItem q.auctionId).mBuyItNowCopper ∧
      (s.loadItem q.auctionId).IsRunning q.serverTime := by
  have hvalid : validateItem (s.loadItem q.auctionId) (q.buyer useAccountCredits s.funds)
      q.serverTime = none := by
    unfold Refuses at h
    simp only [not_or] at h
    simpa using h.2.2.2.1
  unfold validateItem at hvalid
  split_ifs at hvalid with hcopper _ hstart hend
  refine ⟨hcopper, ?_, ?_⟩
  · by_contra hbad
    simp only [not_or, UInt64.not_le] at hbad
    exact hstart hbad
  · by_contra hbad
    simp only [not_or, UInt64.not_lt] at hbad
    exact hend hbad

/-- Where nothing is stored there is no price. -/
theorem exists_stored (h : (s.loadItem q.auctionId).Priced) :
    ∃ item, s.store.find q.auctionId = some item ∧
      s.loadItem q.auctionId = .load q.auctionId (some item) := by
  unfold loadItem at *
  cases hfind : s.store.find q.auctionId with
  | none =>
      rw [hfind] at h
      rcases h with h | h
      · exact absurd rfl h
      · exact absurd rfl h
  | some item => exact ⟨item, rfl, rfl⟩

/-- What was taken and given back is there again. -/
theorem wrap32_sub_add {balance : Int} (h : InInt32 balance) (price : Int) :
    wrap32 (wrap32 (balance - price) + price) = balance := by
  rw [wrap32_add_wrap32, sub_add_cancel, wrap32_eq h]

/-- The buyer ends with the right copper exactly when taking the price does not overflow, or he gets
it back. -/
theorem copper_iff (item : AuctionHouseItem) :
    ((q.pay useAccountCredits item (q.charged useAccountCredits item s.funds)).css
        q.characterID).copper = (s.funds.css q.characterID).copper - item.mBuyItNowCopper.toNat +
          (if q.SellsItself item then (item.mBuyItNowCopper.toNat : Int) else 0) ↔
      (¬q.SellsItself item → Fits (s.funds.css q.characterID).copper item.mBuyItNowCopper) := by
  rw [pay_copper, BuyQuery.charged, charge_copper, syncCredits_copper]
  by_cases hself : q.SellsItself item
  · refine iff_of_true ?_ fun h => absurd hself h
    rw [if_pos hself, sub_add_cancel]
    by_cases hprice : item.mBuyItNowCopper > 0
    · rw [if_pos ⟨hprice, hself⟩, if_pos hprice, wrap32_sub_add (Wallet.copper_inInt32 _)]
    · rw [if_neg fun h => hprice h.1, if_neg hprice]
  · rw [if_neg fun h => hself h.2, if_neg hself, add_zero, ← fits_iff]
    exact ⟨fun h _ => h, fun h => h hself⟩

/-- The account is charged through the stat set, which shows its credits. -/
theorem charged_css_credits {item : AuctionHouseItem}
    (h : ¬UInt64.ofInt (s.funds.css q.characterID).copper < item.mBuyItNowCopper) :
    ((q.charged useAccountCredits item s.funds).css q.characterID).credits =
      if item.mBuyItNowCredits > 0 then
        wrap32 (q.credits useAccountCredits s.funds - item.mBuyItNowCredits.toNat)
      else q.credits useAccountCredits s.funds := by
  have hsync : ((q.syncCredits useAccountCredits item s.funds).css q.characterID).credits =
      q.credits useAccountCredits s.funds := by
    have hsame : q.credits useAccountCredits (q.syncCredits useAccountCredits item s.funds) =
        q.credits useAccountCredits s.funds := syncCredits_credits
    rw [← hsame]
    cases useAccountCredits with
    | false => rfl
    | true => exact syncCredits_synced h rfl
  rw [BuyQuery.charged, charge_css_credits, hsync]

theorem charged_credits {item : AuctionHouseItem}
    (h : ¬UInt64.ofInt (s.funds.css q.characterID).copper < item.mBuyItNowCopper) :
    q.credits useAccountCredits (q.charged useAccountCredits item s.funds) =
      if item.mBuyItNowCredits > 0 then
        wrap32 (q.credits useAccountCredits s.funds - item.mBuyItNowCredits.toNat)
      else q.credits useAccountCredits s.funds := by
  rw [← charged_css_credits h]
  cases useAccountCredits with
  | false => rfl
  | true => exact charge_accountCredits (syncCredits_synced h rfl)

theorem charged_css_other {item : AuctionHouseItem} {id : Int} (h : id ≠ q.characterID) :
    (q.charged useAccountCredits item s.funds).css id = s.funds.css id :=
  (charge_css_other h).trans (syncCredits_css_other h)

theorem credits_inInt32 : InInt32 (q.credits useAccountCredits s.funds) := by
  cases useAccountCredits with
  | false => exact (s.funds.css q.characterID).credits_inInt32
  | true => exact s.funds.accountCredits_inInt32 q.accountID

/-- The buyer ends with the right credits exactly when taking the price does not overflow, or they
come back and are not those of another character. -/
theorem credits_iff {item : AuctionHouseItem}
    (h : ¬UInt64.ofInt (s.funds.css q.characterID).copper < item.mBuyItNowCopper) :
    q.credits useAccountCredits
        (q.pay useAccountCredits item (q.charged useAccountCredits item s.funds)) =
      q.credits useAccountCredits s.funds - item.mBuyItNowCredits.toNat +
        (if q.SharesCredits useAccountCredits item then (item.mBuyItNowCredits.toNat : Int)
          else 0) ↔
      (¬q.SharesCredits useAccountCredits item →
        Fits (q.credits useAccountCredits s.funds) item.mBuyItNowCredits) ∧
      (useAccountCredits = true → q.SharesCredits useAccountCredits item →
        item.mSeller ≠ q.characterID → item.mBuyItNowCredits ≠ 0 →
        wrap32 ((s.funds.css item.mSeller).credits + item.mBuyItNowCredits.toNat) =
          s.funds.accountCredits q.accountID) := by
  rw [pay_credits, charged_credits h]
  by_cases hshare : q.SharesCredits useAccountCredits item
  · rw [if_pos hshare, sub_add_cancel]
    have hfits : ¬q.SharesCredits useAccountCredits item →
        Fits (q.credits useAccountCredits s.funds) item.mBuyItNowCredits := fun hnot =>
      absurd hshare hnot
    by_cases hprice : item.mBuyItNowCredits > 0
    · have hne : item.mBuyItNowCredits ≠ 0 := fun hzero => by
        rw [hzero] at hprice
        exact UInt64.lt_irrefl _ hprice
      rw [if_pos ⟨hprice, hshare⟩]
      by_cases hself : item.mSeller = q.characterID
      · rw [hself, charged_css_credits h, if_pos hprice, wrap32_sub_add credits_inInt32]
        exact iff_of_true rfl ⟨hfits, fun _ _ hother => absurd rfl hother⟩
      · rw [charged_css_other hself]
        cases useAccountCredits with
        | false => exact absurd hshare.1 hself
        | true => exact ⟨fun heq => ⟨hfits, fun _ _ _ _ => heq⟩, fun hall =>
            hall.2 rfl hshare hself hne⟩
    · rw [if_neg fun hboth => hprice hboth.1, if_neg hprice]
      refine iff_of_true rfl ⟨hfits, fun _ _ _ hne => absurd ?_ hprice⟩
      exact UInt64.pos_iff_ne_zero.mpr hne
  · rw [if_neg fun hboth => hshare hboth.2, if_neg hshare, add_zero, ← fits_iff]
    exact ⟨fun hfits => ⟨fun _ => hfits, fun _ h' => absurd h' hshare⟩, fun hall => hall.1 hshare⟩

/-- A buy that is answered OK is a proper sale, unless the auction has no buy-it-now price, taking
the price overflows, or another character of the buyer sells and overwrites the account. -/
theorem buy_proper_iff (im : ItemManager) (now : Nat) (useAccountCredits : Bool) (s : AuctionHouse)
    (q : BuyQuery) :
    (∀ inventory s', s.buy im now useAccountCredits q = (.ok inventory, s') →
        ∃ item, ProperSale useAccountCredits q s s' item) ↔
      s.Refuses im now useAccountCredits q ∨
        q.Affordable useAccountCredits s.funds (s.loadItem q.auctionId) := by
  by_cases hrefused : s.Refuses im now useAccountCredits q
  · exact ⟨fun _ => .inl hrefused, fun _ inventory s' heq =>
      absurd heq (buy_refused hrefused inventory s')⟩
  obtain ⟨inventory, hbuy⟩ := buy_eq hrefused
  obtain ⟨hcopper, hrunning⟩ := checked_of_not_refuses hrefused
  constructor
  · intro hproper
    obtain ⟨item, hsale⟩ := hproper _ _ hbuy
    have hload : s.loadItem q.auctionId = .load q.auctionId (some item) := by
      rw [loadItem, hsale.stored]
    have hpaid := hsale.copper
    have hcredits := hsale.credits
    dsimp only at hpaid hcredits
    rw [hload] at hcopper hpaid hcredits ⊢
    obtain ⟨hfits, hoverwritten⟩ := (credits_iff hcopper).mp hcredits
    exact .inr ⟨hsale.priced, (copper_iff item).mp hpaid, hfits, hoverwritten⟩
  · rintro (hbad | haffordable)
    · exact absurd hbad hrefused
    intro inventory' s' heq
    obtain ⟨-, rfl⟩ := Prod.mk.inj (hbuy.symm.trans heq)
    obtain ⟨item, hstored, hload⟩ := exists_stored haffordable.priced
    rw [hload] at hcopper hrunning haffordable ⊢
    exact ⟨item, hstored, hrunning, haffordable.priced, (copper_iff item).mpr haffordable.copper,
      (credits_iff hcopper).mpr ⟨haffordable.credits, haffordable.overwritten⟩⟩

end AuctionHouse

/-! ### A shield on sale -/

def shieldItems : ItemManager := .ofList [{ mID := 5 }]

/-- It is offered for bids from a hundred copper on. -/
def shield : AuctionHouseItem := { mId := 3, mItemId := 5, mReserveCopper := 100, mEndDate := 100 }

def shieldHouse : AuctionHouse where
  store :=
    { find := fun id => if id = 3 then some shield else none
      mId_eq := by
        intro id item h
        split at h
        · rename_i hid
          obtain rfl := Option.some.inj h
          exact hid.symm
        · cases h }

def shieldQuery : BuyQuery where
  auctionId := 3
  auctioneer := some 0
  characterID := 8
  accountID := 1
  inventory := { maxContainerSlot := fun _ => 1 }
  serverTime := 1

/-- A player without any copper buys the shield for nothing. -/
theorem buy_improper : ¬∀ inventory s', shieldHouse.buy shieldItems 0 false shieldQuery =
    (.ok inventory, s') → ∃ item, ProperSale false shieldQuery shieldHouse s' item := by
  intro hproper
  have hok : ((shieldHouse.buy shieldItems 0 false shieldQuery).1.toOption).isSome := by
    decide
  cases hbuy : shieldHouse.buy shieldItems 0 false shieldQuery with
  | mk r s' =>
      rw [hbuy] at hok
      cases r with
      | error message => cases hok
      | ok inventory =>
          obtain ⟨item, hsale⟩ := hproper inventory s' hbuy
          obtain rfl : shield = item := Option.some.inj hsale.stored
          exact absurd hsale.priced (by decide)

end Iceee.Auction
