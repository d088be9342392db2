import Iceee.Auction.Bidding

/-!
# One buyer, no lost bid

The critical sections do not order the queries of one auction. A run keeps the auction right exactly
when every buy that delivers finds the auction in the store with no other buy about to remove it,
and every bid is saved while the auction is in the store without the bid of another player.
-/

namespace Iceee.Auction

open Lib

variable {im : ItemManager} {now : Nat} {id : Int}

namespace Query

/-- About to remove the auction. -/
def isRemoving : Query → Bool
  | .removing _ => true
  | _ => false

/-- What a query of the player holds: the bids of an auction are not read, so that what will be
saved has the new bid only. -/
def HoldsFor (player : Int) : Query → Prop
  | .bidding _ item .. => item.mBids = []
  | .saving item newBid => item.mBids = [newBid] ∧ newBid.mBuyer = player
  | _ => True

end Query

namespace AuctionState

variable {s : AuctionState} {player p : Int} {query q : Query}

/-! ### The critical sections and the queries -/

theorem exists_enter {t : AuctionState} {shard : Nat} (h : s.enter shard player = some t) :
    ∃ lock, t = { s with lock := lock } := by
  rw [enter] at h
  split at h
  · exact ⟨_, (Option.some.inj h).symm⟩
  · split at h
    · exact ⟨_, (Option.some.inj h).symm⟩
    · cases h

theorem exists_leave (shard : Nat) : ∃ lock, s.leave shard = { s with lock := lock } := by
  rw [leave]
  split
  · exact ⟨s.lock, rfl⟩
  · exact ⟨_, rfl⟩

@[simp] theorem find_relock (lock : Nat → Option (Int × Nat)) :
    find { s with lock := lock } player = s.find player := rfl

theorem find_answer :
    (s.answer player).find p = if p = player then none else s.find p := by
  rw [answer, find, find]
  induction s.queries with
  | nil => simp
  | cons e l ih =>
      by_cases he : e.1 = player
      · rw [List.filter_cons_of_neg (by simpa using he), ih, List.lookup_cons]
        by_cases hp : p = player
        · simp [hp]
        · have hne : (p == e.1) = false := by simp [he, hp]
          simp [hne]
      · rw [List.filter_cons_of_pos (by simpa using he), List.lookup_cons, List.lookup_cons, ih]
        by_cases hp : p = player
        · have hne : (p == e.1) = false := by simpa [hp] using Ne.symm he
          simp [hp ▸ hne, hp]
        · simp [hp]

theorem find_put :
    (s.put player query).find p = if p = player then some query else s.find p := by
  have hrest : (s.answer player).find p = if p = player then none else s.find p := find_answer
  rw [answer, find] at hrest
  rw [put, find, List.lookup_cons, hrest]
  by_cases hp : p = player
  · simp [hp]
  · have hne : (p == player) = false := by simpa using hp
    simp [hp, hne]

theorem mem_of_find (h : s.find p = some q) : (p, q) ∈ s.queries := by
  obtain ⟨l₁, l₂, heq, -⟩ := List.lookup_eq_some_iff.mp h
  simp [heq]

end AuctionState

/-! ### The invariant -/

/-- An accepted bid without a later one of the same player is stored until the auction is sold. -/
def BidsKept (s : AuctionState) : Prop :=
  ∀ pre bid post, s.accepted = pre ++ bid :: post → (∀ b ∈ pre, b.mBuyer ≠ bid.mBuyer) →
    s.sold = true ∨ ∃ item ∈ s.store, bid ∈ item.mBids

/-- The item went to one buyer at most, a sold auction is not in the store, and no bid is lost. -/
structure Safe (s : AuctionState) : Prop where
  delivered : s.delivered.length ≤ 1
  sold : s.sold = true → s.store = none
  kept : BidsKept s

/-- Safe, and what the other fields say of each other: the auction is in the store until it is sold,
the item was delivered if it is sold or about to be removed, and the stored bids were accepted. -/
structure Consistent (s : AuctionState) : Prop extends Safe s where
  unsold : s.sold = false → s.store.isSome
  sold_or_removing : s.delivered ≠ [] →
    s.sold = true ∨ ∃ p shard, s.find p = some (.removing shard)
  delivered_of_sold : s.sold = true → s.delivered ≠ []
  delivered_of_removing : ∀ e ∈ s.queries, e.2.isRemoving → s.delivered ≠ []
  holds : ∀ p query, s.find p = some query → query.HoldsFor p
  accepted : ∀ item ∈ s.store, ∀ bid ∈ item.mBids, bid ∈ s.accepted

namespace Consistent

variable {s : AuctionState} {player : Int} {query : Query}

/-- The critical sections are not looked at. -/
theorem relock (h : Consistent s) (lock : Nat → Option (Int × Nat)) :
    Consistent { s with lock := lock } := { h with }

/-- A query that does not remove the auction goes on. -/
theorem put (h : Consistent s) (hold : ∀ shard, s.find player ≠ some (.removing shard))
    (hnew : query.isRemoving = false) (hholds : query.HoldsFor player) :
    Consistent (s.put player query) where
  delivered := h.delivered
  sold := h.sold
  kept := h.kept
  unsold := h.unsold
  delivered_of_sold := h.delivered_of_sold
  accepted := h.accepted
  sold_or_removing hd := by
    refine (h.sold_or_removing hd).imp_right fun ⟨p, shard, hp⟩ => ⟨p, shard, ?_⟩
    have hne : p ≠ player := fun heq => hold shard (heq ▸ hp)
    rw [AuctionState.find_put, if_neg hne, hp]
  delivered_of_removing e he hr := by
    rcases List.mem_cons.mp he with rfl | he
    · simp [hnew] at hr
    · exact h.delivered_of_removing e (List.mem_of_mem_filter he) hr
  holds p q hfind := by
    rw [AuctionState.find_put] at hfind
    split at hfind
    · next hp => exact hp ▸ Option.some.inj hfind ▸ hholds
    · exact h.holds p q hfind

theorem holds_answer (h : Consistent s) (p : Int) (q : Query)
    (hfind : (s.answer player).find p = some q) : q.HoldsFor p := by
  rw [AuctionState.find_answer] at hfind
  split at hfind
  · cases hfind
  · exact h.holds p q hfind

/-- A query that does not remove the auction is answered. -/
theorem answer (h : Consistent s) (hold : ∀ shard, s.find player ≠ some (.removing shard)) :
    Consistent (s.answer player) where
  delivered := h.delivered
  sold := h.sold
  kept := h.kept
  unsold := h.unsold
  delivered_of_sold := h.delivered_of_sold
  accepted := h.accepted
  sold_or_removing hd := by
    refine (h.sold_or_removing hd).imp_right fun ⟨p, shard, hp⟩ => ⟨p, shard, ?_⟩
    have hne : p ≠ player := fun heq => hold shard (heq ▸ hp)
    rw [AuctionState.find_answer, if_neg hne, hp]
  delivered_of_removing e he := h.delivered_of_removing e (List.mem_of_mem_filter he)
  holds := h.holds_answer

/-- A bid is saved over an auction that has no bid of another player. -/
theorem save (h : Consistent s) {item : AuctionHouseItem} {newBid : AuctionHouseBid}
    (hfind : s.find player = some (.saving item newBid))
    (hturn : ∃ cur ∈ s.store, ∀ b ∈ cur.mBids, b.mBuyer = player) :
    Consistent { s.answer player with store := some item, accepted := newBid :: s.accepted } := by
  obtain ⟨cur, hcur, hothers⟩ := hturn
  obtain ⟨hbids, hbuyer⟩ : item.mBids = [newBid] ∧ newBid.mBuyer = player := h.holds _ _ hfind
  have hunsold : s.sold ≠ true := fun hsold => by simp [h.sold hsold] at hcur
  have hanswer : Consistent (s.answer player) := h.answer (by simp [hfind])
  refine { hanswer with
    sold := fun hsold => absurd hsold hunsold
    kept := ?_
    unsold := fun _ => rfl
    accepted := ?_ }
  · intro pre bid post heq hlater
    refine Or.inr ⟨item, rfl, ?_⟩
    cases pre with
    | nil =>
        obtain ⟨rfl, -⟩ := List.cons.inj heq
        simp [hbids]
    | cons b pre =>
        -- an earlier bid that still counts would be stored, so be one of the same player
        obtain ⟨rfl, hrest⟩ := List.cons.inj heq
        obtain hsold | ⟨stored, hstored, hbid⟩ :=
          h.kept pre bid post hrest fun b hb => hlater b (List.mem_cons_of_mem _ hb)
        · exact absurd hsold hunsold
        · rw [Option.mem_unique hstored hcur] at hbid
          exact absurd (hbuyer.trans (hothers bid hbid).symm) (hlater newBid List.mem_cons_self)
  · rintro _ ⟨⟩ bid hbid
    rw [hbids] at hbid
    exact List.mem_singleton.mp hbid ▸ List.mem_cons_self

/-- The first buy that delivers. -/
theorem deliver (h : Consistent s) {shard : Nat} (hstored : s.store.isSome)
    (hfirst : ∀ e ∈ s.queries, e.2.isRemoving = false) :
    Consistent { s.put player (.removing shard) with delivered := player :: s.delivered } := by
  have hnone : s.delivered = [] := by
    by_contra hd
    rcases h.sold_or_removing hd with hsold | ⟨p, shard, hp⟩
    · simp [h.sold hsold] at hstored
    · exact absurd (hfirst _ (AuctionState.mem_of_find hp)) Bool.noConfusion
  have hput : (s.put player (.removing shard)).find player = some (.removing shard) := by
    rw [AuctionState.find_put, if_pos rfl]
  exact {
    delivered := by simp [hnone]
    sold := h.sold
    kept := h.kept
    unsold := h.unsold
    sold_or_removing := fun _ => Or.inr ⟨player, shard, hput⟩
    delivered_of_sold := fun _ => List.cons_ne_nil _ _
    delivered_of_removing := fun _ _ _ => List.cons_ne_nil _ _
    holds := fun p q hfind => by
      change (s.put player _).find p = some q at hfind
      rw [AuctionState.find_put] at hfind
      split at hfind
      · exact Option.some.inj hfind ▸ trivial
      · exact h.holds p q hfind
    accepted := h.accepted }

/-- The buyer removes the auction. -/
theorem remove (h : Consistent s) {shard : Nat} (hfind : s.find player = some (.removing shard)) :
    Consistent { s.answer player with store := none, sold := true } where
  delivered := h.delivered
  sold _ := rfl
  kept _ _ _ _ _ := Or.inl rfl
  unsold hsold := by cases hsold
  sold_or_removing _ := Or.inl rfl
  delivered_of_sold _ := h.delivered_of_removing _ (AuctionState.mem_of_find hfind) rfl
  delivered_of_removing e he := h.delivered_of_removing e (List.mem_of_mem_filter he)
  holds := h.holds_answer
  accepted _ hitem := by cases hitem

/-- A bid that is saved when the auction is gone brings it back, and one that is saved over another
player's bid loses that. -/
theorem not_safe_save (h : Consistent s) {item : AuctionHouseItem} {newBid : AuctionHouseBid}
    (hfind : s.find player = some (.saving item newBid))
    (hturn : ¬∃ cur ∈ s.store, ∀ b ∈ cur.mBids, b.mBuyer = player) :
    ¬Safe { s.answer player with store := some item, accepted := newBid :: s.accepted } := by
  intro hsafe
  obtain ⟨hbids, hbuyer⟩ : item.mBids = [newBid] ∧ newBid.mBuyer = player := h.holds _ _ hfind
  have hunsold : s.sold = false := by
    refine Bool.eq_false_iff.mpr fun hsold => ?_
    cases hsafe.sold hsold
  obtain ⟨cur, hcur⟩ := Option.isSome_iff_exists.mp (h.unsold hunsold)
  obtain ⟨b, hb, hother⟩ : ∃ b ∈ cur.mBids, b.mBuyer ≠ player := by
    by_contra hall
    push Not at hall
    exact hturn ⟨cur, hcur, hall⟩
  -- the last bid of that other player is lost
  obtain ⟨last, hlast⟩ := Option.isSome_iff_exists.mp
    (List.find?_isSome.mpr ⟨b, h.accepted cur hcur b hb, beq_self_eq_true b.mBuyer⟩ :
      (s.accepted.find? fun a => a.mBuyer == b.mBuyer).isSome)
  obtain ⟨hsame, pre, post, heq, hlater⟩ := List.find?_eq_some_iff_append.mp hlast
  have hsame : last.mBuyer = b.mBuyer := eq_of_beq hsame
  obtain hsold | ⟨_, ⟨⟩, hkept⟩ :=
    hsafe.kept (newBid :: pre) last post (congrArg (newBid :: ·) heq) (by
      intro a ha
      rw [hsame]
      rcases List.mem_cons.mp ha with rfl | ha
      · exact fun heq => hother (heq.symm.trans hbuyer)
      · simpa using hlater a ha)
  · exact absurd (hsold.symm.trans hunsold) Bool.noConfusion
  · rw [hbids] at hkept
    exact hother (hsame.symm.trans (List.mem_singleton.mp hkept ▸ hbuyer))

/-- A buy that delivers when the auction is gone, or about to be removed, is not the first. -/
theorem not_safe_deliver (h : Consistent s) {shard : Nat}
    (hturn : ¬(s.store.isSome ∧ ∀ e ∈ s.queries, e.2.isRemoving = false)) :
    ¬Safe { s.put player (.removing shard) with delivered := player :: s.delivered } := by
  intro hsafe
  have hd : s.delivered ≠ [] := by
    by_cases hsold : s.sold = true
    · exact h.delivered_of_sold hsold
    · have hstored := h.unsold (Bool.eq_false_iff.mpr hsold)
      push Not at hturn
      obtain ⟨e, he, hr⟩ := hturn hstored
      exact h.delivered_of_removing e he (by simpa using hr)
  have hone : s.delivered.length + 1 ≤ 1 := hsafe.delivered
  exact hd (List.eq_nil_of_length_eq_zero (by omega))

end Consistent

/-! ### The steps -/

/-- Whether the buy of a player delivers the item. -/
def AuctionState.delivers (im : ItemManager) (now : Nat) (s : AuctionState) (player : Int)
    (auctioneer : Option Int) (buyer : Buyer) (serverTime : UInt64) : Bool :=
  match s.find player with
  | some (.buying _ item) =>
      match checkBuy im now item auctioneer buyer serverTime with
      | .delivered _ => true
      | .refused _ _ => false
  | _ => false

/-- A bid is saved while the auction is in the store without the bid of another player, and a buy
delivers while the auction is in the store and no buy is about to remove it. -/
def InTurn (im : ItemManager) (now : Nat) (s : AuctionState) : Event → Prop
  | .bidSave player => ∃ cur ∈ s.store, ∀ b ∈ cur.mBids, b.mBuyer = player
  | .buyCheck player auctioneer buyer serverTime =>
      s.delivers im now player auctioneer buyer serverTime = true →
        s.store.isSome = true ∧ ∀ e ∈ s.queries, e.2.isRemoving = false
  | _ => True

instance (s : AuctionState) : (event : Event) → Decidable (InTurn im now s event)
  | .bidSave _ => inferInstanceAs (Decidable (∃ _ ∈ _, _))
  | .buyCheck .. => inferInstanceAs (Decidable (_ → _))
  | .bidLoad .. | .bidCheck .. | .buyLoad .. | .buyRemove .. => inferInstanceAs (Decidable True)

theorem load_mBids (id : Int) (stored : Option AuctionHouseItem) :
    (AuctionHouseItem.load id stored).mBids = [] := by
  cases stored <;> rfl

theorem checkBid_mBids {item saved : AuctionHouseItem} {auctioneer : Int} {newBid : AuctionHouseBid}
    {serverTime : UInt64} (h : checkBid item auctioneer newBid serverTime = .ok saved)
    (hbids : item.mBids = []) : saved.mBids = [newBid] := by
  simp only [checkBid, AuctionHouseItem.bid, hbids, List.getLast?_nil] at h
  split at h
  · cases h
  · split at h
    · cases h
    · split at h
      · cases h
      · cases h
        rfl

theorem Consistent.of_isOpen {s : AuctionState} (h : IsOpen id s) : Consistent s := by
  obtain ⟨item, -, -, rfl⟩ := h
  exact {
    delivered := Nat.zero_le 1
    sold := fun hsold => by cases hsold
    kept := fun pre bid post heq _ => by
      change item.mBids.reverse = _ at heq
      have hmem : bid ∈ item.mBids.reverse := heq ▸ List.mem_append_right pre List.mem_cons_self
      exact Or.inr ⟨item, rfl, List.mem_reverse.mp hmem⟩
    unsold := fun _ => rfl
    sold_or_removing := fun hd => absurd rfl hd
    delivered_of_sold := fun hsold => by cases hsold
    delivered_of_removing := fun e he => by cases he
    holds := fun p q hfind => by cases hfind
    accepted := by
      rintro _ ⟨⟩ bid hbid
      exact List.mem_reverse.mpr hbid }

namespace Consistent

variable {s s' : AuctionState}

/-- What a step in turn keeps. -/
theorem step {event : Event} (h : Consistent s) (hturn : InTurn im now s event)
    (hstep : s.step im now id event = some s') : Consistent s' := by
  cases event with
  | bidLoad player shard auctioneer copper credits =>
      simp only [AuctionState.step] at hstep
      split at hstep
      · next auctioneer hfree =>
          obtain ⟨t, ht, rfl⟩ := Option.map_eq_some_iff.mp hstep
          obtain ⟨lock, rfl⟩ := AuctionState.exists_enter ht
          exact (h.relock lock).put (by simp [hfree]) rfl (load_mBids id s.store)
      · exact Option.some.inj hstep ▸ h
      · cases hstep
  | bidCheck player serverTime time =>
      simp only [AuctionState.step] at hstep
      split at hstep
      · next shard item auctioneer copper credits hfind =>
          obtain ⟨lock, hlock⟩ := AuctionState.exists_leave (s := s) shard
          rw [hlock] at hstep
          have hbids : item.mBids = [] := h.holds _ _ hfind
          split at hstep
          · next saved hcheck =>
              cases hstep
              exact (h.relock lock).put (by simp [hfind]) rfl ⟨checkBid_mBids hcheck hbids, rfl⟩
          · cases hstep
            exact (h.relock lock).answer (by simp [hfind])
      · cases hstep
  | bidSave player =>
      simp only [AuctionState.step] at hstep
      split at hstep
      · next item newBid hfind =>
          cases hstep
          exact h.save hfind hturn
      · cases hstep
  | buyLoad player shard =>
      simp only [AuctionState.step] at hstep
      split at hstep
      · next hfree =>
          cases hstep
          exact h.put (by simp [hfree]) rfl trivial
      · cases hstep
  | buyCheck player auctioneer buyer serverTime =>
      simp only [AuctionState.step] at hstep
      split at hstep
      · next shard item hfind =>
          obtain ⟨t, ht, rfl⟩ := Option.map_eq_some_iff.mp hstep
          obtain ⟨lock, rfl⟩ := AuctionState.exists_enter ht
          have hlocked := h.relock lock
          split
          · next left hcheck =>
              split
              · obtain ⟨unlock, hunlock⟩ :=
                  AuctionState.exists_leave (s := { s with lock := lock }) shard
                rw [hunlock]
                exact (hlocked.relock unlock).answer (by simp [hfind])
              · exact hlocked.answer (by simp [hfind])
          · next hcheck =>
              have hdelivers : s.delivers im now player auctioneer buyer serverTime = true := by
                simp [AuctionState.delivers, hfind, hcheck]
              obtain ⟨hstored, hfirst⟩ := hturn hdelivers
              exact hlocked.deliver hstored hfirst
      · cases hstep
  | buyRemove player =>
      simp only [AuctionState.step] at hstep
      split at hstep
      · next shard hfind =>
          obtain ⟨lock, hlock⟩ := AuctionState.exists_leave (s := s) shard
          rw [hlock] at hstep
          cases hstep
          exact (h.relock lock).remove hfind
      · cases hstep

/-- What a step out of turn does. -/
theorem not_safe_step {event : Event} (h : Consistent s) (hturn : ¬InTurn im now s event)
    (hstep : s.step im now id event = some s') : ¬Safe s' := by
  cases event with
  | bidSave player =>
      simp only [AuctionState.step] at hstep
      split at hstep
      · next item newBid hfind =>
          cases hstep
          exact h.not_safe_save hfind hturn
      · cases hstep
  | buyCheck player auctioneer buyer serverTime =>
      obtain ⟨hdelivers, hlate⟩ := Classical.not_imp.mp hturn
      simp only [AuctionState.step] at hstep
      split at hstep
      · next shard item hfind =>
          obtain ⟨t, ht, rfl⟩ := Option.map_eq_some_iff.mp hstep
          obtain ⟨lock, rfl⟩ := AuctionState.exists_enter ht
          simp only [AuctionState.delivers, hfind] at hdelivers
          split at hdelivers
          · next hcheck =>
              rw [hcheck]
              exact (h.relock lock).not_safe_deliver hlate
          · cases hdelivers
      · cases hstep
  | bidLoad | bidCheck | buyLoad | buyRemove => exact absurd trivial hturn

end Consistent

/-- A run of queries keeps the auction safe throughout exactly when every buy that delivers finds
the auction in the store and no buy about to remove it, and every bid is saved while the auction is
in the store without the bid of another player. -/
theorem auctionQueries_safe_iff {h : List (AuctionState × Event)} {s : AuctionState}
    (run : Trace (IsOpen id) (fun _ _ => True) (fun s => s.step im now id) h s) :
    (Safe s ∧ ∀ e ∈ h, Safe e.1) ↔ ∀ e ∈ h, InTurn im now e.1 e.2 :=
  run.safe_iff (fun _ => Consistent.of_isOpen) (fun _ h => h.toSafe)
    (fun _ _ _ h hturn hs => h.step hturn hs) (fun _ _ _ h hturn hs => h.not_safe_step hturn hs)

/-! ### A sword in the store -/

def swordItems : ItemManager := .ofList [{ mID := 5 }]

def sword : AuctionHouseItem := { mId := 3, mItemId := 5, mEndDate := 100 }

def swordOpen : AuctionState := { store := some sword }

theorem swordOpen_isOpen : IsOpen 3 swordOpen := ⟨sword, rfl, by decide, rfl⟩

def swordBuyer : Buyer := { inventory := { maxContainerSlot := fun _ => 1 } }

/-- One player bids, and then another buys. -/
def oneAfterTheOther : List Event :=
  [.bidLoad 7 0 (some 0) 10 0, .bidCheck 7 1 1, .bidSave 7,
    .buyLoad 8 1, .buyCheck 8 (some 0) swordBuyer 1, .buyRemove 8]

/-- Two buyers on two shards load before either removes, and a bid is saved last. -/
def allAtOnce : List Event :=
  [.bidLoad 7 0 (some 0) 10 0, .bidCheck 7 1 1, .buyLoad 8 1, .buyLoad 9 2,
    .buyCheck 8 (some 0) swordBuyer 1, .buyCheck 9 (some 0) swordBuyer 1, .buyRemove 8, .bidSave 7]

/-- The sword is bid for and then bought, and nothing goes wrong on the way. -/
theorem oneAfterTheOther_safe :
    ∃ h s, Trace (IsOpen 3) (fun _ _ => True) (fun s => s.step swordItems 0 3) h s ∧
      s.delivered = [8] ∧ s.sold = true ∧ Safe s ∧ ∀ e ∈ h, Safe e.1 := by
  have hok : OkAll (InTurn swordItems 0) (fun s => s.step swordItems 0 3) swordOpen
      oneAfterTheOther := by decide
  have hrun : (runAll (fun s => s.step swordItems 0 3) swordOpen oneAfterTheOther).isSome := by
    decide
  have hturn := (Trace.start swordOpen_isOpen).runAll hok (eq_some_getD hrun {})
  have run := (Trace.start swordOpen_isOpen).runAll (okAll_true _ _) (eq_some_getD hrun {})
  exact ⟨_, _, run, by decide, by decide,
    (auctionQueries_safe_iff run).mpr fun _ he => hturn.ok_of_mem he⟩

/-- Two players get the sword, and it is back in the store after it was sold. -/
theorem allAtOnce_sells_twice :
    ¬∀ s, Reach (IsOpen 3) (fun _ _ => True) (fun s => s.step swordItems 0 3) s → Safe s := by
  intro hsafe
  have hrun : (runAll (fun s => s.step swordItems 0 3) swordOpen allAtOnce).isSome := by
    decide
  have hreach := reach_of_runAll swordOpen_isOpen (eq_some_getD hrun {})
  have htwice : ((runAll (fun s => s.step swordItems 0 3) swordOpen allAtOnce).getD {}).delivered
      = [9, 8] := by decide
  have hone := (hsafe _ hreach).delivered
  rw [htwice] at hone
  exact absurd hone (by decide)

end Iceee.Auction
