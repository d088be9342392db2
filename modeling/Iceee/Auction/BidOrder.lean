import Iceee.Auction.Bidding
import Iceee.Lib.Keyed

/-!
# The order of the bids

A new bid has to beat the last one, in copper or in credits, and goes to the end of the list. When
the auction ends the list is read from there. A bid with less of one currency and more of the other
opens the door to bids that are below an earlier one in both.
-/

namespace Iceee.Auction

open Lib

namespace AuctionHouseBid

/-- At least as high in both currencies, and higher in one. -/
def Dominates (a b : AuctionHouseBid) : Prop :=
  b.mCopper ≤ a.mCopper ∧ b.mCredits ≤ a.mCredits ∧
    (b.mCopper < a.mCopper ∨ b.mCredits < a.mCredits)

/-- Higher in one of the currencies: what `Bid` asks for against the last bid. -/
def Beats (a b : AuctionHouseBid) : Prop := a.mCopper > b.mCopper ∨ a.mCredits > b.mCredits

/-- The same price. -/
def Matches (a b : AuctionHouseBid) : Prop := a.mCopper = b.mCopper ∧ a.mCredits = b.mCredits

instance : DecidableRel Dominates := fun _ _ => inferInstanceAs (Decidable (_ ∧ _))
instance : DecidableRel Beats := fun _ _ => inferInstanceAs (Decidable (_ ∨ _))
instance : DecidableRel Matches := fun _ _ => inferInstanceAs (Decidable (_ ∧ _))

theorem not_dominates_self (a : AuctionHouseBid) : ¬a.Dominates a := by
  rintro ⟨-, -, h | h⟩
  · exact UInt64.lt_irrefl _ h
  · exact UInt64.lt_irrefl _ h

/-- A bid that does not dominate another is beaten by it, or matched. -/
theorem not_dominates_iff {a b : AuctionHouseBid} :
    ¬a.Dominates b ↔ b.Beats a ∨ b.Matches a := by
  unfold Dominates Beats Matches
  simp only [UInt64.le_iff_toNat_le, UInt64.lt_iff_toNat_lt, gt_iff_lt, ← UInt64.toNat_inj]
  omega

end AuctionHouseBid

/-- At most one bid for each bidder, and none that dominates the last. -/
structure BidsInOrder (bids : List AuctionHouseBid) : Prop where
  onePerBidder : NodupKeys AuctionHouseBid.mBuyer bids
  lastHighest : ∀ last ∈ bids.getLast?, ∀ b ∈ bids, ¬b.Dominates last

/-- What happens to an auction's bids: a bid, or the auction is saved and loaded again. -/
inductive BidEvent
  | bid (newBid : AuctionHouseBid)
  | reload
  deriving DecidableEq, Repr

namespace AuctionHouseItem

variable {item item' : AuctionHouseItem} {newBid : AuctionHouseBid}

/-- One event; a rejected bid changes nothing. -/
def bidStep (item : AuctionHouseItem) : BidEvent → Option AuctionHouseItem
  | .bid newBid => some ((item.bid newBid).getD item)
  | .reload => some (.load item.mId (some item))

/-- An accepted bid, which beats the last one, also beats or matches every bid before it that is not
the bidder's own. -/
def BeatsEarlier (item : AuctionHouseItem) : BidEvent → Prop
  | .bid newBid => (item.bid newBid).isSome → ∀ b ∈ item.mBids.dropLast,
      b.mBuyer ≠ newBid.mBuyer → newBid.Beats b ∨ newBid.Matches b
  | .reload => True

instance (item : AuctionHouseItem) : DecidablePred item.BeatsEarlier
  | .bid newBid => inferInstanceAs (Decidable ((item.bid newBid).isSome → ∀ b ∈ _, _))
  | .reload => inferInstanceAs (Decidable True)

/-- What an accepted bid has passed, and where it goes. -/
theorem bid_some (h : item.bid newBid = some item') :
    item'.mBids = item.mBids.eraseP (fun it => it.mBuyer == newBid.mBuyer) ++ [newBid] ∧
      ∀ last ∈ item.mBids.getLast?, newBid.Beats last ∧ last.mBuyer ≠ newBid.mBuyer := by
  unfold bid at h
  dsimp only at h
  split at h
  · rename_i hlast
    cases h
    exact ⟨rfl, by simp [hlast]⟩
  · rename_i last hlast
    split at h
    · rename_i hbeats
      split at h
      · cases h
      · rename_i hother
        cases h
        refine ⟨rfl, fun l hl => ?_⟩
        obtain rfl : last = l := Option.some.inj (hlast.symm.trans hl)
        exact ⟨hbeats, hother⟩
    · cases h

/-- The bids an accepted bid is compared with at the end: the last, and those before it. -/
theorem mem_bids_iff {bids : List AuctionHouseBid} {b : AuctionHouseBid} :
    b ∈ bids ↔ b ∈ bids.dropLast ∨ b ∈ bids.getLast? := by
  induction bids using List.reverseRecOn with
  | nil => simp
  | append_singleton before last ih => simp [eq_comm]

/-- An accepted bid leaves the list in order exactly when it beats or matches the earlier bids
too. -/
theorem bidsInOrder_bid (hinv : BidsInOrder item.mBids) (h : item.bid newBid = some item') :
    BidsInOrder item'.mBids ↔ item.BeatsEarlier (.bid newBid) := by
  obtain ⟨hbids, hlast⟩ := bid_some h
  have hkept (b : AuctionHouseBid) :
      b ∈ item.mBids.eraseP (fun it => it.mBuyer == newBid.mBuyer) ↔
        b ∈ item.mBids ∧ b.mBuyer ≠ newBid.mBuyer := hinv.onePerBidder.mem_eraseP
  have hnodup : NodupKeys AuctionHouseBid.mBuyer item'.mBids := by
    rw [hbids, nodupKeys_append_singleton]
    exact ⟨hinv.onePerBidder.sublist List.eraseP_sublist, fun b hb => ((hkept b).mp hb).2⟩
  have hend : item'.mBids.getLast? = some newBid := by
    rw [hbids, List.getLast?_concat]
  constructor
  · intro hinv' _ b hb hother
    rw [← AuctionHouseBid.not_dominates_iff]
    apply hinv'.lastHighest newBid hend
    rw [hbids]
    exact List.mem_append_left _ ((hkept b).mpr ⟨mem_bids_iff.mpr (.inl hb), hother⟩)
  · intro hearlier
    refine ⟨hnodup, fun last hl b hb => ?_⟩
    obtain rfl : newBid = last := Option.some.inj (hend.symm.trans hl)
    rw [hbids] at hb
    rcases List.mem_append.mp hb with hb | hb
    · rw [AuctionHouseBid.not_dominates_iff]
      obtain ⟨hb, hother⟩ := (hkept b).mp hb
      rcases mem_bids_iff.mp hb with hb | hb
      · exact hearlier (by rw [h]; rfl) b hb hother
      · exact .inl (hlast b hb).1
    · rw [List.mem_singleton.mp hb]
      exact AuctionHouseBid.not_dominates_self newBid

/-- In a run of bids the list stays in order exactly when every accepted bid beats or matches the
earlier bids too. -/
theorem bidsInOrder_iff {history : List (AuctionHouseItem × BidEvent)}
    (run : Trace (fun item => item.mBids = []) (fun _ _ => True) bidStep history item) :
    (BidsInOrder item.mBids ∧ ∀ e ∈ history, BidsInOrder e.1.mBids) ↔
      ∀ e ∈ history, e.1.BeatsEarlier e.2 := by
  have hempty : BidsInOrder [] := ⟨List.nodup_nil, fun _ h => by cases h⟩
  have hstep (item : AuctionHouseItem) (a : BidEvent) (item' : AuctionHouseItem)
      (hinv : BidsInOrder item.mBids) (hs : item.bidStep a = some item') :
      BidsInOrder item'.mBids ↔ item.BeatsEarlier a := by
    cases a with
    | bid newBid =>
        cases hb : item.bid newBid with
        | none =>
            simp only [bidStep, hb, Option.getD_none, Option.some.injEq] at hs
            subst hs
            simp [BeatsEarlier, hb, hinv]
        | some next =>
            simp only [bidStep, hb, Option.getD_some, Option.some.injEq] at hs
            subst hs
            exact bidsInOrder_bid hinv hb
    | reload =>
        cases hs
        exact ⟨fun _ => trivial, fun _ => hempty⟩
  refine Trace.safe_iff (fun item h => ?_) (fun _ h => h)
    (fun s a s' hinv hok hs => (hstep s a s' hinv hs).mpr hok)
    (fun s a s' hinv hok hs hsafe => hok ((hstep s a s' hinv hs).mp hsafe)) run
  rw [h]
  exact hempty

/-- Two bids of which the second is higher in copper, then one that is higher in both. -/
theorem bidsInOrder_rising : BidsInOrder
    [{ mBuyer := 1, mCopper := 10, mCredits := 5 },
      { mBuyer := 3, mCopper := 12, mCredits := 6 }] := by
  have start : Trace (fun item => item.mBids = []) (fun _ _ => True) bidStep [] {} := .start rfl
  have hrun : runAll bidStep {}
      [.bid { mBuyer := 1, mCopper := 10, mCredits := 5 },
        .bid { mBuyer := 3, mCopper := 12, mCredits := 6 }] = some _ := rfl
  exact ((bidsInOrder_iff (start.runAll (okAll_true _ _) hrun)).mpr (by decide)).1

/-- The third bid has more copper than the second, and less of both than the first. -/
theorem bids_outOfOrder : ¬∀ history item,
    Trace (fun item => item.mBids = []) (fun _ _ => True) bidStep history item →
      BidsInOrder item.mBids := by
  intro h
  have start : Trace (fun item => item.mBids = []) (fun _ _ => True) bidStep [] {} := .start rfl
  have hrun : runAll bidStep {}
      [.bid { mBuyer := 1, mCopper := 10, mCredits := 5 },
        .bid { mBuyer := 2, mCopper := 1, mCredits := 6 },
        .bid { mBuyer := 3, mCopper := 2, mCredits := 0 }] = some _ := rfl
  have hlast := (h _ _ (start.runAll (okAll_true _ _) hrun)).lastHighest
  exact hlast { mBuyer := 3, mCopper := 2, mCredits := 0 } rfl
    { mBuyer := 1, mCopper := 10, mCredits := 5 } (by decide) (by decide)

end AuctionHouseItem

end Iceee.Auction
