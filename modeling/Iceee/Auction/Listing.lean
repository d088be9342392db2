import Iceee.Auction.Item
import Iceee.Inventory.Manager
import Iceee.Lib.Machine

/-!
# Putting an item up for auction

`auctionhouse.auction` reads a number of days and hours and four prices, takes a commission and
stores the auction. Hours are counted in an `int`, the milliseconds of a duration too, and prices
and commissions in an `unsigned long` that is cut to an `int` where it is compared.

## Implementation notes

An `int` that overflows wraps. The commission is a product of floating-point numbers and stands in
as a function of the price and the hours. The timer, the messages and the removal of the item from
the auction box are left out, and so are the two numbers in the texts about a commission that is too
high.
-/

namespace Iceee.Auction

open Lib

/-- `unsigned long` of an `atol`. -/
def atoul (t : Text) : UInt64 := UInt64.ofInt (atol t)

/-- `(int)` of an `unsigned long`. -/
def toInt32 (n : UInt64) : Int := wrap32 n.toNat

structure ListingConfig where
  minAuctionHours : Int := 1
  maxAuctionHours : Int := 168
  useAccountCredits : Bool := false
  commission : UInt64 → Int → UInt64

/-- What a seller has; the three balances are `int`s. -/
structure Seller where
  copper : Int := 0
  credits : Int := 0
  accountCredits : Int := 0
  copper_inInt32 : InInt32 copper := by decide
  credits_inInt32 : InInt32 credits := by decide
  accountCredits_inInt32 : InInt32 accountCredits := by decide

/-- The credits a seller pays from. -/
def Seller.payingCredits (useAccountCredits : Bool) (s : Seller) : Int :=
  if useAccountCredits then s.accountCredits else s.credits

structure ListingQuery where
  args : List Text
  auctionBox : List InventorySlot
  auctioneer : Option Int
  sellerID : Int := 0
  nextID : Int := 1
  serverTime : UInt64

inductive ListingError
  | invalidQuery | noItems | unknownAuctioneer | tooShort | tooLong | copperReserve | creditsReserve
  | noPrice | notEnoughCopper | notEnoughCredits
  deriving DecidableEq, Repr

namespace ListingQuery

variable (cfg : ListingConfig) (q : ListingQuery)

/-- `GetString`. -/
def getString (i : Nat) : Text := q.args.getD i []

def days : Int := atoi (q.getString 1)

def hours : Int := atoi (q.getString 2)

def totalHours : Int := wrap32 (q.days * 24 + q.hours)

def reserveCopper : UInt64 := atoul (q.getString 3)

def reserveCredits : UInt64 := atoul (q.getString 4)

def buyItNowCopper : UInt64 := atoul (q.getString 5)

def buyItNowCredits : UInt64 := atoul (q.getString 6)

def copperCommision : UInt64 := cfg.commission (max q.reserveCopper q.buyItNowCopper) q.totalHours

def creditsCommision : UInt64 :=
  cfg.commission (max q.reserveCredits q.buyItNowCredits) q.totalHours

/-- The checks of `AuctionHouseAuctionHandler::handleQuery`, in their order. -/
def refusal (s : Seller) : Option ListingError :=
  if q.args.length < 7 then some .invalidQuery
  else if q.auctionBox.length < 1 then some .noItems
  else if q.auctioneer.isNone then some .unknownAuctioneer
  else if q.totalHours < cfg.minAuctionHours then some .tooShort
  else if q.totalHours > cfg.maxAuctionHours then some .tooLong
  else if q.reserveCopper ≠ 0 ∧ q.buyItNowCopper ≠ 0 ∧ q.buyItNowCopper ≤ q.reserveCopper then
    some .copperReserve
  else if q.reserveCredits ≠ 0 ∧ q.buyItNowCredits ≠ 0 ∧
      q.buyItNowCredits ≤ q.reserveCredits then
    some .creditsReserve
  else if max q.reserveCopper q.buyItNowCopper = 0 ∧
      max q.reserveCredits q.buyItNowCredits = 0 then
    some .noPrice
  else if toInt32 (q.copperCommision cfg) > s.copper then some .notEnoughCopper
  else if toInt32 (q.creditsCommision cfg) > s.payingCredits cfg.useAccountCredits then
    some .notEnoughCredits
  else none

/-- `Auction` takes the copper first. -/
def takeCopper (s : Seller) : Seller :=
  if q.copperCommision cfg ≠ 0 then
    { s with
      copper := wrap32 (s.copper - (q.copperCommision cfg).toNat)
      copper_inInt32 := wrap32_inInt32 _ }
  else s

/-- The credits of the account become those of the character. -/
def takeCredits (s : Seller) : Seller :=
  if q.creditsCommision cfg > 0 then
    let s := { s with
      credits := wrap32 (s.credits - (q.creditsCommision cfg).toNat)
      credits_inInt32 := wrap32_inInt32 _ }
    if cfg.useAccountCredits then
      { s with accountCredits := s.credits, accountCredits_inInt32 := s.credits_inInt32 }
    else s
  else s

/-- What `Auction` takes from the seller. -/
def takeCommission (s : Seller) : Seller := q.takeCredits cfg (q.takeCopper cfg s)

/-- The auction that `Auction` stores for the first item of the box. -/
def listed (slot : InventorySlot) (auctioneer : Int) : AuctionHouseItem where
  mId := q.nextID
  mAuctioneer := auctioneer
  mReserveCopper := q.reserveCopper
  mReserveCredits := q.reserveCredits
  mBuyItNowCopper := q.buyItNowCopper
  mBuyItNowCredits := q.buyItNowCredits
  mStartDate := q.serverTime
  mEndDate := q.serverTime + UInt64.ofInt (wrap32 (q.hours * 3600000)) +
    UInt64.ofInt (wrap32 (q.days * 86400000))
  mSeller := q.sellerID
  mItemId := slot.iid
  mLookId := slot.customLook
  mCount := slot.count
  mSecondsRemaining := UInt64.ofInt slot.secondsRemaining

/-- `AuctionHouseAuctionHandler::handleQuery`: an error, or the auction stored and what the seller
has left. -/
def auction (s : Seller) : Except ListingError (AuctionHouseItem × Seller) :=
  match q.refusal cfg s, q.auctionBox.head?, q.auctioneer with
  | none, some slot, some auctioneer => .ok (q.listed slot auctioneer, q.takeCommission cfg s)
  | some error, _, _ => .error error
  | none, none, _ => .error .noItems
  | none, _, none => .error .unknownAuctioneer

end ListingQuery

/-- The auction runs for the hours asked for, and the seller pays the commission and has not less
than nothing left. -/
structure ExactListing (cfg : ListingConfig) (q : ListingQuery) (s s' : Seller)
    (item : AuctionHouseItem) : Prop where
  duration : (item.mEndDate.toNat : Int) =
    item.mStartDate.toNat + (24 * q.days + q.hours) * 3600000
  copper : s'.copper = s.copper - (q.copperCommision cfg).toNat
  credits : s'.payingCredits cfg.useAccountCredits =
    s.payingCredits cfg.useAccountCredits - (q.creditsCommision cfg).toNat
  copper_nonneg : 0 ≤ s'.copper
  credits_nonneg : 0 ≤ s'.payingCredits cfg.useAccountCredits

/-- Nothing is lost to the sizes of the numbers, and where credits are taken from the account the
character has the same number of them. -/
structure Unclipped (cfg : ListingConfig) (q : ListingQuery) (s : Seller) : Prop where
  products : wrap32 (q.hours * 3600000) + wrap32 (q.days * 86400000) =
    (24 * q.days + q.hours) * 3600000
  dates : 0 ≤ q.serverTime.toNat + (24 * q.days + q.hours) * 3600000 ∧
    q.serverTime.toNat + (24 * q.days + q.hours) * 3600000 < 2 ^ 64
  copper : (q.copperCommision cfg).toNat < 2 ^ 31
  credits : (q.creditsCommision cfg).toNat < 2 ^ 31
  synced : cfg.useAccountCredits = true → q.creditsCommision cfg ≠ 0 →
    s.credits = s.accountCredits

/-! ### Durations -/

theorem toNat_add_ofInt (n : UInt64) (i : Int) :
    ((n + UInt64.ofInt i).toNat : Int) = (n.toNat + i) % 2 ^ 64 := by
  rw [UInt64.toNat_add]
  have hi : ((UInt64.ofInt i).toNat : Int) = i % 2 ^ 64 := by
    simp [UInt64.ofInt]
    omega
  omega

/-- The end date is right exactly when the two products have lost nothing between them, and the
date itself fits. -/
theorem endDate_iff {start : UInt64} {days hours : Int} (hdays : InInt32 days)
    (hhours : InInt32 hours) :
    ((start + UInt64.ofInt (wrap32 (hours * 3600000)) +
        UInt64.ofInt (wrap32 (days * 86400000))).toNat : Int) =
      start.toNat + (24 * days + hours) * 3600000 ↔
    wrap32 (hours * 3600000) + wrap32 (days * 86400000) = (24 * days + hours) * 3600000 ∧
      0 ≤ start.toNat + (24 * days + hours) * 3600000 ∧
      start.toNat + (24 * days + hours) * 3600000 < 2 ^ 64 := by
  have hh := wrap32_inInt32 (hours * 3600000)
  have hd := wrap32_inInt32 (days * 86400000)
  rw [toNat_add_ofInt, toNat_add_ofInt]
  generalize wrap32 (hours * 3600000) = h at *
  generalize wrap32 (days * 86400000) = d at *
  have hstart := start.toNat_lt
  unfold InInt32 at *
  omega

/-! ### Commissions -/

/-- What is taken is right and covered exactly when the commission fits into an `int`, where the
check let it pass. -/
theorem taken_iff {balance : Int} {commission : UInt64} (hbalance : InInt32 balance)
    (hcheck : ¬toInt32 commission > balance) :
    (wrap32 (balance - commission.toNat) = balance - commission.toNat ∧
      0 ≤ wrap32 (balance - commission.toNat)) ↔ commission.toNat < 2 ^ 31 := by
  constructor
  · intro ⟨heq, hpos⟩
    rw [heq] at hpos
    have hhi := hbalance.2
    omega
  · intro hlt
    have hcut : toInt32 commission = commission.toNat := wrap32_eq ⟨by omega, by omega⟩
    have hle : (commission.toNat : Int) ≤ balance := by omega
    have hrange : InInt32 (balance - commission.toNat) := by
      unfold InInt32 at *
      omega
    rw [wrap32_eq hrange]
    omega

/-- The same difference of two `int`s, after wrapping one, comes from the same number. -/
theorem eq_of_wrap32_sub {a b c : Int} (ha : InInt32 a) (hb : InInt32 b)
    (h : wrap32 (a - c) = b - c) : a = b :=
  calc a = wrap32 (a - c + c) := by rw [sub_add_cancel, wrap32_eq ha]
    _ = wrap32 (wrap32 (a - c) + c) := (wrap32_add_wrap32 _ _).symm
    _ = wrap32 (b - c + c) := by rw [h]
    _ = b := by rw [sub_add_cancel, wrap32_eq hb]

namespace ListingQuery

variable {cfg : ListingConfig} {q : ListingQuery} {s : Seller}

theorem takeCommission_copper :
    (q.takeCommission cfg s).copper = wrap32 (s.copper - (q.copperCommision cfg).toNat) := by
  have hlater (s : Seller) : (q.takeCredits cfg s).copper = s.copper := by
    unfold takeCredits
    split_ifs <;> rfl
  rw [takeCommission, hlater, takeCopper]
  split
  · rfl
  · rename_i hzero
    rw [not_not] at hzero
    simp [hzero, wrap32_eq s.copper_inInt32]

/-- What the credits are taken from is not what they are compared with where the account pays. -/
theorem takeCommission_credits :
    (q.takeCommission cfg s).payingCredits cfg.useAccountCredits =
      if q.creditsCommision cfg = 0 then s.payingCredits cfg.useAccountCredits
      else wrap32 (s.credits - (q.creditsCommision cfg).toNat) := by
  have hbefore : (q.takeCopper cfg s).credits = s.credits ∧
      (q.takeCopper cfg s).accountCredits = s.accountCredits := by
    unfold takeCopper
    split <;> exact ⟨rfl, rfl⟩
  rw [takeCommission, takeCredits]
  by_cases hzero : q.creditsCommision cfg = 0
  · rw [if_neg (by rw [hzero]; exact UInt64.lt_irrefl 0), if_pos hzero]
    simp [Seller.payingCredits, hbefore]
  · have hpos : q.creditsCommision cfg > 0 := UInt64.pos_iff_ne_zero.mpr hzero
    rw [if_pos hpos, if_neg hzero]
    cases huse : cfg.useAccountCredits <;> simp [Seller.payingCredits, hbefore]

/-- The credits come out right exactly when the commission fits and the two balances agree. -/
theorem credits_iff (hcheck : ¬toInt32 (q.creditsCommision cfg) >
      s.payingCredits cfg.useAccountCredits) :
    ((q.takeCommission cfg s).payingCredits cfg.useAccountCredits =
        s.payingCredits cfg.useAccountCredits - (q.creditsCommision cfg).toNat ∧
      0 ≤ (q.takeCommission cfg s).payingCredits cfg.useAccountCredits) ↔
    (q.creditsCommision cfg).toNat < 2 ^ 31 ∧
      (cfg.useAccountCredits = true → q.creditsCommision cfg ≠ 0 →
        s.credits = s.accountCredits) := by
  have hpaying : InInt32 (s.payingCredits cfg.useAccountCredits) := by
    unfold Seller.payingCredits
    split
    · exact s.accountCredits_inInt32
    · exact s.credits_inInt32
  rw [takeCommission_credits]
  by_cases hzero : q.creditsCommision cfg = 0
  · have hpos : 0 ≤ s.payingCredits cfg.useAccountCredits := by
      rw [hzero] at hcheck
      have hcut : toInt32 0 = 0 := by decide
      omega
    simp [hzero, hpos]
  rw [if_neg hzero, ← taken_iff hpaying hcheck]
  cases huse : cfg.useAccountCredits with
  | false => simp [Seller.payingCredits]
  | true =>
      simp only [Seller.payingCredits, if_true, forall_const]
      constructor
      · intro ⟨heq, hpos⟩
        have hfits : wrap32 (s.accountCredits - (q.creditsCommision cfg).toNat) =
            s.accountCredits - (q.creditsCommision cfg).toNat := by
          rw [← heq]
          exact wrap32_eq (wrap32_inInt32 _)
        refine ⟨⟨hfits, by rwa [hfits, ← heq]⟩, fun _ => ?_⟩
        exact eq_of_wrap32_sub s.credits_inInt32 s.accountCredits_inInt32 heq
      · intro ⟨⟨heq, hpos⟩, hsame⟩
        rw [hsame hzero]
        exact ⟨heq, hpos⟩

/-- A query that is not refused takes the first item of the box to an auctioneer. -/
theorem auction_ok_of_not_refused (h : q.refusal cfg s = none) : ∃ slot auctioneer,
    q.auction cfg s = .ok (q.listed slot auctioneer, q.takeCommission cfg s) := by
  have hbox : ∃ slot, q.auctionBox.head? = some slot := by
    cases hb : q.auctionBox with
    | nil =>
        simp only [refusal, hb, List.length_nil, Nat.zero_lt_one, if_true] at h
        split_ifs at h
    | cons slot rest => exact ⟨slot, rfl⟩
  have hknown : ∃ auctioneer, q.auctioneer = some auctioneer := by
    cases ha : q.auctioneer with
    | none =>
        simp only [refusal, ha, Option.isNone_none, if_true] at h
        split_ifs at h
    | some auctioneer => exact ⟨auctioneer, rfl⟩
  obtain ⟨slot, hslot⟩ := hbox
  obtain ⟨auctioneer, hauctioneer⟩ := hknown
  exact ⟨slot, auctioneer, by simp only [auction, h, hslot, hauctioneer]⟩

theorem auction_error_of_refused {error : ListingError} (h : q.refusal cfg s = some error) :
    q.auction cfg s = .error error := by
  simp only [auction, h]

/-- The commissions passed their checks, cut to an `int`. -/
theorem checked_of_not_refused (h : q.refusal cfg s = none) :
    ¬toInt32 (q.copperCommision cfg) > s.copper ∧
      ¬toInt32 (q.creditsCommision cfg) > s.payingCredits cfg.useAccountCredits := by
  unfold refusal at h
  split_ifs at h with _ _ _ _ _ _ _ _ hcopper hcredits
  exact ⟨hcopper, hcredits⟩

end ListingQuery

/-! ### Twenty-five days less five hundred hours -/

/-- The commission as fractions: 0.208333333 percent an hour. -/
def usualCommission (price : UInt64) (totalHours : Int) : UInt64 :=
  UInt64.ofInt (price.toNat * 208333333 * totalHours / 10 ^ 11)

def ringListing : ListingQuery where
  args := ["10", "25", "-500", "100", "0", "0", "0"].map String.toList
  auctionBox := [{ ccsid := 524288, iid := 5 }]
  auctioneer := some 20
  serverTime := 1000000000000

end Iceee.Auction
