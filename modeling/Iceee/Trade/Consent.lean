import Iceee.Trade.Exchange

/-!
# What both partners of a trade agreed to

The history of a run tells which accept of a player was the last one, and what the
player's transaction offered at that moment. Nothing in the source takes an accept
back, so the statement holds only for runs that leave accepted transactions alone.
-/

namespace Iceee

open Lib

/-- The player whose accept an event is. -/
def InstanceEvent.acceptBy : InstanceEvent → Option Int
  | .query _ selfID .accept => some selfID
  | _ => none

namespace TradeTransaction

/-- The terms of a trade: on each side the partner, the offered items and the coin. -/
def terms (t : TradeTransaction) (k : Fin 2) : Option Int × List InventorySlot × Int :=
  ((t.player k).cInst, (t.player k).itemList, (t.player k).coin)

theorem modifyPlayer_self (t : TradeTransaction) (k : Fin 2)
    (f : TradePlayerData → TradePlayerData) : (t.modifyPlayer k f).player k = f (t.player k) := by
  simp [modifyPlayer]

/-- A change of one half keeps whatever it keeps of that half. -/
theorem modifyPlayer_keeps {α : Type*} (g : TradePlayerData → α) (t : TradeTransaction)
    (k : Fin 2) {f : TradePlayerData → TradePlayerData} (h : ∀ d, g (f d) = g d) (j : Fin 2) :
    g ((t.modifyPlayer k f).player j) = g (t.player j) := by
  by_cases hj : j = k
  · subst hj
    rw [modifyPlayer_self, h]
  · simp [modifyPlayer, hj]

end TradeTransaction

namespace ActiveInstance

variable {im : ItemManager}

/-- The transaction a player's loot ID names. -/
def lootOf (s : ActiveInstance) (p : Int) : Option Int :=
  (s.playerList p).map CreatureInstance.activeLootID

/-- The terms of the transaction a player is in. -/
def termsOf (s : ActiveInstance) (p : Int) :
    Option (Fin 2 → Option Int × List InventorySlot × Int) :=
  (s.lootOf p).bind fun id => (s.getExistingTransaction id).map TradeTransaction.terms

/-- The instance as a player's latest accept found it. -/
def lastAccept (p : Int) : List (ActiveInstance × InstanceEvent) → Option ActiveInstance
  | [] => none
  | e :: rest => if e.2.acceptBy = some p then some e.1 else lastAccept p rest

/-- The transaction whose terms an event rewrites. -/
def editedTrade (s : ActiveInstance) : InstanceEvent → Option TradeTransaction
  | .query _ selfID (.items _) =>
      (s.playerList selfID).bind fun self =>
        (s.getExistingTransaction self.activeLootID).bind fun t =>
          (t.getPlayerData selfID).bind fun k =>
            if (t.player k.rev).tradeWindowOpen then some t else none
  | .query _ selfID (.currency (some _)) =>
      (s.playerList selfID).bind fun self =>
        (s.getExistingTransaction self.activeLootID).bind fun t =>
          (t.getPlayerData selfID).map fun _ => t
  | .query _ selfID (.start otherPlayerID) =>
      (s.playerList selfID).bind fun self =>
        (s.playerList otherPlayerID).bind fun target =>
          if otherPlayerID ≠ 0 ∧ !self.mItemUseInProgress ∧ !s.hasExistingTrade otherPlayerID ∧
              !target.mItemUseInProgress then
            some (s.getNewTransaction
              (if self.activeLootID = 0 then selfID else self.activeLootID))
          else none
  | _ => none

/-- The condition on an event: it does not rewrite a transaction somebody has accepted. -/
def EditsUnaccepted (s : ActiveInstance) (ev : InstanceEvent) : Prop :=
  ∀ t ∈ s.editedTrade ev, ∀ k, (t.player k).accepted = false

instance (s : ActiveInstance) (ev : InstanceEvent) : Decidable (EditsUnaccepted s ev) :=
  inferInstanceAs (Decidable (∀ t ∈ s.editedTrade ev, ∀ k, (t.player k).accepted = false))

/-- Every accepted half belongs to a player whose latest accept saw these terms. -/
def Consented (h : List (ActiveInstance × InstanceEvent)) (t : TradeTransaction) : Prop :=
  ∀ k, (t.player k).accepted = true →
    ∃ p s₀, (t.player k).cInst = some p ∧ lastAccept p h = some s₀ ∧ s₀.termsOf p = some t.terms

/-- A transaction and the loot IDs of its partners point at each other. -/
def Linked (s : ActiveInstance) (tradeID : Int) (t : TradeTransaction) : Prop :=
  ∀ k, (t.player k).selfPlayerID = (t.player k).cInst.getD 0 ∧
    ∀ p, (t.player k).cInst = some p → s.lootOf p = some tradeID

structure TradeInv (h : List (ActiveInstance × InstanceEvent)) (s : ActiveInstance) : Prop where
  noPlayerZero : s.lootOf 0 = none
  noTradeZero : s.getExistingTransaction 0 = none
  linked : ∀ tradeID t, s.getExistingTransaction tradeID = some t → s.Linked tradeID t
  consented : ∀ tradeID t, s.getExistingTransaction tradeID = some t → Consented h t

/-- A transaction that an event leaves alone, with the loot IDs of its partners. -/
def Untouched (s s' : ActiveInstance) (ev : InstanceEvent) (tradeID : Int)
    (t : TradeTransaction) : Prop :=
  s.getExistingTransaction tradeID = some t ∧ ∀ k p, (t.player k).cInst = some p →
    s'.lootOf p = s.lootOf p ∧ ev.acceptBy ≠ some p

theorem lastAccept_cons_of_ne {p : Int} {e : ActiveInstance × InstanceEvent}
    (h : List (ActiveInstance × InstanceEvent)) (hne : e.2.acceptBy ≠ some p) :
    lastAccept p (e :: h) = lastAccept p h := by
  simp [lastAccept, hne]

/-- The invariant survives an event when every transaction afterwards is an untouched
one or has been set up anew. -/
theorem TradeInv.keep {h : List (ActiveInstance × InstanceEvent)} {s s' : ActiveInstance}
    {ev : InstanceEvent} (inv : TradeInv h s) (hplayer : s'.lootOf 0 = none)
    (htrade : s'.getExistingTransaction 0 = none)
    (hall : ∀ tradeID t, s'.getExistingTransaction tradeID = some t →
      Untouched s s' ev tradeID t ∨ (s'.Linked tradeID t ∧ Consented ((s, ev) :: h) t)) :
    TradeInv ((s, ev) :: h) s' := by
  have hboth : ∀ tradeID t, s'.getExistingTransaction tradeID = some t →
      s'.Linked tradeID t ∧ Consented ((s, ev) :: h) t := by
    intro tradeID t ht
    rcases hall tradeID t ht with ⟨hold, hquiet⟩ | hnew
    · constructor
      · intro k
        obtain ⟨hid, hloot⟩ := inv.linked tradeID t hold k
        refine ⟨hid, fun p hp => ?_⟩
        rw [(hquiet k p hp).1]
        exact hloot p hp
      · intro k hk
        obtain ⟨p, s₀, hp, hlast, hterms⟩ := inv.consented tradeID t hold k hk
        refine ⟨p, s₀, hp, ?_, hterms⟩
        rw [lastAccept_cons_of_ne h (hquiet k p hp).2]
        exact hlast
    · exact hnew
  exact ⟨hplayer, htrade, fun K t ht => (hboth K t ht).1, fun K t ht => (hboth K t ht).2⟩

/-- Partners of another transaction are neither touched by an event about `tradeID` nor
the player accepting there. -/
theorem TradeInv.untouched {h : List (ActiveInstance × InstanceEvent)} {s s' : ActiveInstance}
    {ev : InstanceEvent} {tradeID other : Int} {t : TradeTransaction} (inv : TradeInv h s)
    (hquiet : ∀ q, ev.acceptBy = some q → s.lootOf q = some tradeID)
    (hloot : ∀ p, s.lootOf p = some other → s'.lootOf p = s.lootOf p)
    (hne : other ≠ tradeID) (ht : s.getExistingTransaction other = some t) :
    Untouched s s' ev other t := by
  refine ⟨ht, fun k p hp => ?_⟩
  have hp' := (inv.linked other t ht k).2 p hp
  refine ⟨hloot p hp', fun hacc => hne ?_⟩
  have hq := hquiet p hacc
  rw [hp'] at hq
  exact Option.some.inj hq

/-- A transaction is gone, and only players whose loot ID named it have changed. -/
structure Released (s s' : ActiveInstance) (tradeID : Int) : Prop where
  gone : s'.getExistingTransaction tradeID = none
  rest : ∀ other, other ≠ tradeID →
    s'.getExistingTransaction other = s.getExistingTransaction other
  loot : ∀ p, s.lootOf p ≠ some tradeID → s'.lootOf p = s.lootOf p

theorem TradeInv.release {h : List (ActiveInstance × InstanceEvent)} {s s' : ActiveInstance}
    {ev : InstanceEvent} {tradeID : Int} (inv : TradeInv h s)
    (hquiet : ∀ q, ev.acceptBy = some q → s.lootOf q = some tradeID)
    (hrel : Released s s' tradeID) : TradeInv ((s, ev) :: h) s' := by
  apply inv.keep
  · rw [hrel.loot 0 (by simp [inv.noPlayerZero])]
    exact inv.noPlayerZero
  · by_cases hz : (0 : Int) = tradeID
    · rw [hz]
      exact hrel.gone
    · rw [hrel.rest 0 hz]
      exact inv.noTradeZero
  · intro other t ht
    have hne : other ≠ tradeID := by
      rintro rfl
      rw [hrel.gone] at ht
      cases ht
    rw [hrel.rest other hne] at ht
    refine .inl (inv.untouched hquiet (fun p hp => hrel.loot p ?_) hne ht)
    rw [hp]
    exact fun he => hne (Option.some.inj he)

/-- An event that is no accept and changes no transaction keeps the invariant when it
keeps the loot IDs of everybody present. -/
theorem TradeInv.stay {h : List (ActiveInstance × InstanceEvent)} {s s' : ActiveInstance}
    {ev : InstanceEvent} (inv : TradeInv h s) (hev : ev.acceptBy = none)
    (hplayer : s'.lootOf 0 = none)
    (htrade : ∀ id, s'.getExistingTransaction id = s.getExistingTransaction id)
    (hloot : ∀ p id, s.lootOf p = some id → s'.lootOf p = s.lootOf p) :
    TradeInv ((s, ev) :: h) s' := by
  apply inv.keep hplayer
  · rw [htrade]
    exact inv.noTradeZero
  · intro id t ht
    rw [htrade] at ht
    refine .inl ⟨ht, fun k p hp => ⟨hloot p id ((inv.linked id t ht k).2 p hp), ?_⟩⟩
    simp [hev]

@[simp] theorem lootOf_putTransaction (s : ActiveInstance) (id p : Int) (t : TradeTransaction) :
    (s.putTransaction id t).lootOf p = s.lootOf p := rfl

theorem getExistingTransaction_putTransaction (s : ActiveInstance) (id other : Int)
    (t : TradeTransaction) : (s.putTransaction id t).getExistingTransaction other =
      if other = id then some t else s.getExistingTransaction other := by
  by_cases h : other = id
  · subst h
    simp [getExistingTransaction, putTransaction, AList.lookup_insert]
  · simp [getExistingTransaction, putTransaction, AList.lookup_insert_ne, h]

theorem getExistingTransaction_removeTransaction (s : ActiveInstance) (id other : Int) :
    (s.removeTransaction id).getExistingTransaction other =
      if other = id then none else s.getExistingTransaction other := by
  by_cases h : other = id
  · subst h
    simp [getExistingTransaction, removeTransaction, AList.lookup_erase]
  · simp [getExistingTransaction, removeTransaction, AList.lookup_erase_ne, h]

theorem TradeInv.put {h : List (ActiveInstance × InstanceEvent)} {s : ActiveInstance}
    {ev : InstanceEvent} {tradeID : Int} {t : TradeTransaction} (inv : TradeInv h s)
    (hquiet : ∀ q, ev.acceptBy = some q → s.lootOf q = some tradeID) (hid : tradeID ≠ 0)
    (hlinked : s.Linked tradeID t) (hcons : Consented ((s, ev) :: h) t) :
    TradeInv ((s, ev) :: h) (s.putTransaction tradeID t) := by
  apply inv.keep
  · exact inv.noPlayerZero
  · rw [getExistingTransaction_putTransaction, if_neg (Ne.symm hid)]
    exact inv.noTradeZero
  · intro other t' ht'
    rw [getExistingTransaction_putTransaction] at ht'
    by_cases hne : other = tradeID
    · rw [if_pos hne, Option.some.injEq] at ht'
      subst hne ht'
      exact .inr ⟨hlinked, hcons⟩
    · rw [if_neg hne] at ht'
      exact .inl (inv.untouched hquiet (fun _ _ => rfl) hne ht')

/-- Nothing is consented to in a transaction without acceptances. -/
theorem consented_of_unaccepted {h : List (ActiveInstance × InstanceEvent)}
    {t : TradeTransaction} (ht : ∀ k, (t.player k).accepted = false) : Consented h t := by
  intro k hk
  rw [ht k] at hk
  cases hk

/-- Changing what is neither partner nor player ID keeps a transaction linked. -/
theorem Linked.modifyPlayer {s : ActiveInstance} {id : Int} {t : TradeTransaction}
    (hl : s.Linked id t) (k : Fin 2) {f : TradePlayerData → TradePlayerData}
    (hc : ∀ d, (f d).cInst = d.cInst) (hp : ∀ d, (f d).selfPlayerID = d.selfPlayerID) :
    s.Linked id (t.modifyPlayer k f) := by
  intro j
  rw [t.modifyPlayer_keeps TradePlayerData.cInst k hc j,
    t.modifyPlayer_keeps TradePlayerData.selfPlayerID k hp j]
  exact hl j

/-- A player with a half is the partner recorded there. -/
theorem Linked.partner {s : ActiveInstance} {id p : Int} {t : TradeTransaction} {k : Fin 2}
    (hl : s.Linked id t) (hp : p ≠ 0) (hk : t.getPlayerData p = some k) :
    (t.player k).cInst = some p := by
  have hself : (t.player k).selfPlayerID = p := by
    unfold TradeTransaction.getPlayerData at hk
    grind
  have hid := (hl k).1
  rw [hself] at hid
  cases hc : (t.player k).cInst with
  | none =>
      rw [hc, Option.getD_none] at hid
      exact absurd hid hp
  | some q =>
      rw [hc, Option.getD_some] at hid
      rw [hid]

theorem lootOf_setActiveLootID (s : ActiveInstance) (id v p : Int) :
    (s.modifyCreature id (·.setActiveLootID v)).lootOf p =
      if p = id then (s.lootOf p).map fun _ => v else s.lootOf p := by
  unfold lootOf
  rw [playerList_modifyCreature]
  split
  · cases s.playerList p <;> rfl
  · rfl

/-- Cancelling releases the transaction, also when there was none. -/
theorem cancelTransaction_released {s : ActiveInstance} {id : Int}
    {r : QueryErrorMsg × ActiveInstance}
    (hl : ∀ t, s.getExistingTransaction id = some t → s.Linked id t)
    (h : s.cancelTransaction id = some r) : Released s r.2 id := by
  unfold cancelTransaction at h
  cases ht : s.getExistingTransaction id with
  | none =>
      simp only [ht, Option.some.injEq] at h
      subst h
      exact ⟨ht, fun _ _ => rfl, fun _ _ => rfl⟩
  | some t =>
      simp only [ht] at h
      split at h
      · rename_i p0 p1 h0 h1
        obtain rfl := Option.some.inj h
        constructor
        · rw [getExistingTransaction_removeTransaction, if_pos rfl]
        · intro other hne
          rw [getExistingTransaction_removeTransaction, if_neg hne]
          rfl
        · intro p hp
          have hp0 : p ≠ p0 := by
            rintro rfl
            exact hp ((hl t ht 0).2 p h0)
          have hp1 : p ≠ p1 := by
            rintro rfl
            exact hp ((hl t ht 1).2 p h1)
          calc ((s.modifyCreature p0 (·.setActiveLootID 0)).modifyCreature p1
                (·.setActiveLootID 0)).lootOf p
              = (s.modifyCreature p0 (·.setActiveLootID 0)).lootOf p := by
                rw [lootOf_setActiveLootID, if_neg hp1]
            _ = s.lootOf p := by rw [lootOf_setActiveLootID, if_neg hp0]
      · cases h

/-- Executing a trade releases it. -/
theorem executeTrade_released {s : ActiveInstance} {now : Nat} {id p0 p1 : Int}
    {t t' : TradeTransaction} (h0 : (t'.player 0).cInst = some p0)
    (h1 : (t'.player 1).cInst = some p1) (hl : s.Linked id t') :
    Released s ((s.putTransaction id t).executeTrade im now id t' p0 p1) id := by
  have htrade (other : Int) :
      ((s.putTransaction id t).executeTrade im now id t' p0 p1).getExistingTransaction other =
        ((s.putTransaction id t).removeTransaction id).getExistingTransaction other := rfl
  constructor
  · rw [htrade, getExistingTransaction_removeTransaction, if_pos rfl]
  · intro other hne
    rw [htrade, getExistingTransaction_removeTransaction, if_neg hne,
      getExistingTransaction_putTransaction, if_neg hne]
  · intro p hp
    have hpair : ¬ (p = p0 ∨ p = p1) := by
      rintro (rfl | rfl)
      · exact hp ((hl 0).2 p h0)
      · exact hp ((hl 1).2 p h1)
    unfold lootOf
    rw [executeTrade_playerList h0 h1, if_neg hpair]
    rfl

/-- A query of a trading player keeps the invariant when its own part does. -/
theorem TradeInv.withTrade {h : List (ActiveInstance × InstanceEvent)} {s : ActiveInstance}
    {ev : InstanceEvent} {selfID : Int} {r : QueryErrorMsg × ActiveInstance}
    {f : CreatureInstance → Int → TradeTransaction → Fin 2 →
      Option (QueryErrorMsg × ActiveInstance)} (inv : TradeInv h s)
    (hev : ∀ q, ev.acceptBy = some q → q = selfID) (hr : s.withTrade selfID f = some r)
    (hf : ∀ self t k, s.playerList selfID = some self → selfID ≠ 0 →
      s.lootOf selfID = some self.activeLootID → self.activeLootID ≠ 0 →
      s.getExistingTransaction self.activeLootID = some t → t.getPlayerData selfID = some k →
      f self self.activeLootID t k = some r → TradeInv ((s, ev) :: h) r.2) :
    TradeInv ((s, ev) :: h) r.2 := by
  obtain ⟨self, hself, hcase⟩ := withTrade_cases hr
  have hloot : s.lootOf selfID = some self.activeLootID := by simp [lootOf, hself]
  have hquiet : ∀ q, ev.acceptBy = some q → s.lootOf q = some self.activeLootID := by
    intro q hq
    rw [hev q hq]
    exact hloot
  have hnz : selfID ≠ 0 := by
    rintro rfl
    rw [inv.noPlayerZero] at hloot
    cases hloot
  rcases hcase with ⟨hnone, rfl⟩ | ⟨t, ht, ⟨-, hcancel⟩ | ⟨k, hk, hfk⟩⟩
  · exact inv.release hquiet ⟨hnone, fun _ _ => rfl, fun _ _ => rfl⟩
  · exact inv.release hquiet (cancelTransaction_released (inv.linked _) hcancel)
  · have hid : self.activeLootID ≠ 0 := by
      intro hz
      rw [hz, inv.noTradeZero] at ht
      cases ht
    exact hf self t k hself hnz hloot hid ht hk hfk

section Queries

variable {h : List (ActiveInstance × InstanceEvent)} {s : ActiveInstance} {now : Nat}
  {selfID : Int} {r : QueryErrorMsg × ActiveInstance}

theorem TradeInv.same {ev : InstanceEvent} (inv : TradeInv h s) (hev : ev.acceptBy = none) :
    TradeInv ((s, ev) :: h) s :=
  inv.stay hev inv.noPlayerZero (fun _ => rfl) fun _ _ _ => rfl

/-- A rewritten half of an unaccepted transaction keeps the invariant. -/
theorem TradeInv.edit {ev : InstanceEvent} {id : Int} {t : TradeTransaction} {k : Fin 2}
    {f : TradePlayerData → TradePlayerData} (inv : TradeInv h s) (hev : ev.acceptBy = none)
    (hid : id ≠ 0) (ht : s.getExistingTransaction id = some t)
    (hfree : ∀ k, (t.player k).accepted = false) (hc : ∀ d, (f d).cInst = d.cInst)
    (hp : ∀ d, (f d).selfPlayerID = d.selfPlayerID) (ha : ∀ d, (f d).accepted = d.accepted) :
    TradeInv ((s, ev) :: h) (s.putTransaction id (t.modifyPlayer k f)) := by
  apply inv.put _ hid ((inv.linked id t ht).modifyPlayer k hc hp)
  · apply consented_of_unaccepted
    intro j
    rw [t.modifyPlayer_keeps TradePlayerData.accepted k ha j]
    exact hfree j
  · intro q hq
    rw [hev] at hq
    cases hq

theorem TradeInv.items {args : List Nat} (inv : TradeInv h s)
    (hok : s.EditsUnaccepted (.query now selfID (.items args)))
    (hr : s.tradeItems selfID args = some r) :
    TradeInv ((s, .query now selfID (.items args)) :: h) r.2 := by
  refine inv.withTrade (fun _ hq => by cases hq) hr ?_
  rintro self t k hself - - hid ht hk hf
  cases hopen : (t.player k.rev).tradeWindowOpen with
  | false =>
      rw [hopen, if_pos rfl, Option.some.injEq] at hf
      subst hf
      exact inv.same rfl
  | true =>
      have hfree := hok t (by simp [editedTrade, hself, ht, hk, hopen])
      have hput : TradeInv ((s, .query now selfID (.items args)) :: h)
          (s.putTransaction self.activeLootID (t.modifyPlayer k fun d =>
            { d with itemList := (offeredItems self.inventory args).1 })) :=
        inv.edit rfl hid ht hfree (fun _ => rfl) (fun _ => rfl) (fun _ => rfl)
      rw [hopen, if_neg (by simp)] at hf
      simp only at hf
      split at hf
      · obtain ⟨-, -, rfl⟩ := Option.map_eq_some_iff.mp hf
        exact hput
      · obtain rfl := Option.some.inj hf
        exact hput

theorem TradeInv.currency {args : Option Int} (inv : TradeInv h s)
    (hok : s.EditsUnaccepted (.query now selfID (.currency args)))
    (hr : s.tradeCurrency selfID args = some r) :
    TradeInv ((s, .query now selfID (.currency args)) :: h) r.2 := by
  cases args with
  | none =>
      obtain ⟨-, -, rfl⟩ := Option.map_eq_some_iff.mp hr
      exact inv.same rfl
  | some amount =>
      simp only [tradeCurrency] at hr
      refine inv.withTrade (fun _ hq => by cases hq) hr ?_
      rintro self t k hself - - hid ht hk hf
      have hfree := hok t (by simp [editedTrade, hself, ht, hk])
      split at hf
      · cases hf
      · obtain rfl := Option.some.inj hf
        exact inv.edit rfl hid ht hfree (fun _ => rfl) (fun _ => rfl) (fun _ => rfl)

theorem TradeInv.offer (inv : TradeInv h s) (hr : s.tradeOffer selfID = some r) :
    TradeInv ((s, .query now selfID .offer) :: h) r.2 := by
  refine inv.withTrade (fun _ hq => by cases hq) hr ?_
  rintro self t k - - - - - - hf
  obtain ⟨-, -, rfl⟩ := Option.map_eq_some_iff.mp hf
  exact inv.same rfl

theorem TradeInv.cancel (inv : TradeInv h s) (hr : s.tradeCancel selfID = some r) :
    TradeInv ((s, .query now selfID .cancel) :: h) r.2 := by
  unfold tradeCancel at hr
  split at hr
  · cases hr
  · split at hr
    · obtain rfl := Option.some.inj hr
      exact inv.same rfl
    · obtain ⟨r', hr', rfl⟩ := Option.map_eq_some_iff.mp hr
      have hrel := cancelTransaction_released (inv.linked _) hr'
      exact inv.release (fun _ hq => by cases hq) hrel

theorem terms_modifyPlayer (t : TradeTransaction) (k : Fin 2)
    {f : TradePlayerData → TradePlayerData}
    (hf : ∀ d, (f d).cInst = d.cInst ∧ (f d).itemList = d.itemList ∧ (f d).coin = d.coin) :
    (t.modifyPlayer k f).terms = t.terms := by
  funext j
  unfold TradeTransaction.terms
  rw [t.modifyPlayer_keeps TradePlayerData.cInst k fun d => (hf d).1,
    t.modifyPlayer_keeps TradePlayerData.itemList k fun d => (hf d).2.1,
    t.modifyPlayer_keeps TradePlayerData.coin k fun d => (hf d).2.2]

/-- An accept records consent to the terms as they stand. -/
theorem consented_pendingTrade {id : Int} {t : TradeTransaction} (inv : TradeInv h s)
    (hp : s.pendingTrade selfID = some (id, t)) :
    Consented ((s, .query now selfID .accept) :: h) t := by
  simp only [pendingTrade, Option.bind_eq_some_iff, Option.map_eq_some_iff, Prod.mk.injEq] at hp
  obtain ⟨self, hself, t, ht, k, hk, rfl, rfl⟩ := hp
  have hloot : s.lootOf selfID = some self.activeLootID := by simp [lootOf, hself]
  have hnz : selfID ≠ 0 := by
    rintro rfl
    rw [inv.noPlayerZero] at hloot
    cases hloot
  have hterms : (t.setAccepted k).terms = t.terms :=
    terms_modifyPlayer t k fun _ => ⟨rfl, rfl, rfl⟩
  have hnow : s.termsOf selfID = some t.terms := by simp [termsOf, hloot, ht]
  intro j hj
  rw [hterms]
  have hc : ((t.setAccepted k).player j).cInst = (t.player j).cInst :=
    t.modifyPlayer_keeps TradePlayerData.cInst k (f := fun d => { d with accepted := true })
      (fun _ => rfl) j
  rw [hc]
  by_cases hjk : j = k
  · -- The half of the accepting player: this very accept is the latest one.
    subst hjk
    exact ⟨selfID, s, (inv.linked _ t ht).partner hnz hk,
      by simp [lastAccept, InstanceEvent.acceptBy], hnow⟩
  · have hacc : (t.player j).accepted = true := by
      simpa [TradeTransaction.setAccepted, TradeTransaction.modifyPlayer, hjk] using hj
    obtain ⟨p, s₀, hp, hlast, hold⟩ := inv.consented _ t ht j hacc
    by_cases hps : p = selfID
    · subst hps
      exact ⟨p, s, hp, by simp [lastAccept, InstanceEvent.acceptBy], hnow⟩
    · have hne : (InstanceEvent.query now selfID .accept).acceptBy ≠ some p :=
        fun he => hps (Option.some.inj he).symm
      refine ⟨p, s₀, hp, ?_, hold⟩
      rw [lastAccept_cons_of_ne h hne]
      exact hlast

theorem TradeInv.accept (inv : TradeInv h s) (hr : s.tradeAccept im now selfID = some r) :
    TradeInv ((s, .query now selfID .accept) :: h) r.2 := by
  refine inv.withTrade (fun q hq => (Option.some.inj hq).symm) hr ?_
  rintro self t k hself - hloot hid ht hk -
  have hpending : s.pendingTrade selfID = some (self.activeLootID, t.setAccepted k) := by
    simp [pendingTrade, hself, ht, hk]
  have hquiet : ∀ q, (InstanceEvent.query now selfID .accept).acceptBy = some q →
      s.lootOf q = some self.activeLootID := by
    intro q hq
    rw [← Option.some.inj hq]
    exact hloot
  have hlinked : s.Linked self.activeLootID (t.setAccepted k) :=
    (inv.linked _ t ht).modifyPlayer k (fun _ => rfl) fun _ => rfl
  rcases tradeAccept_cases hpending hr with hput | ⟨p0, p1, -, -, h0, h1, -, -, -, -, hex⟩
  · rw [hput]
    exact inv.put hquiet hid hlinked (consented_pendingTrade inv hpending)
  · rw [hex]
    exact inv.release hquiet (executeTrade_released h0 h1 hlinked)

theorem Consented.cons {ev : InstanceEvent} {t : TradeTransaction} (hc : Consented h t)
    (hev : ev.acceptBy = none) : Consented ((s, ev) :: h) t := by
  intro k hk
  obtain ⟨p, s₀, hp, hlast, hterms⟩ := hc k hk
  refine ⟨p, s₀, hp, ?_, hterms⟩
  rw [lastAccept_cons_of_ne h (by simp [hev])]
  exact hlast

/-- Opening the trade window changes no terms. -/
theorem Consented.openWindow {t : TradeTransaction} (hc : Consented h t) (k : Fin 2) :
    Consented h (t.openWindow k) := by
  have hf (d : TradePlayerData) : { d with tradeWindowOpen := true }.accepted = d.accepted := rfl
  have hg (d : TradePlayerData) : { d with tradeWindowOpen := true }.cInst = d.cInst := rfl
  unfold TradeTransaction.openWindow
  intro j hj
  rw [t.modifyPlayer_keeps TradePlayerData.accepted k hf] at hj
  rw [t.modifyPlayer_keeps TradePlayerData.cInst k hg]
  obtain ⟨p, s₀, hp, hlast, hterms⟩ := hc j hj
  refine ⟨p, s₀, hp, hlast, ?_⟩
  rw [hterms, terms_modifyPlayer]
  exact fun _ => ⟨rfl, rfl, rfl⟩

theorem Linked.openWindow {id : Int} {t : TradeTransaction} (hl : s.Linked id t) (k : Fin 2) :
    s.Linked id (t.openWindow k) :=
  hl.modifyPlayer k (fun _ => rfl) fun _ => rfl

/-- A transaction that `trade.start` works on is a stored one or a cleared one. -/
theorem TradeInv.getNewTransaction (inv : TradeInv h s) (id : Int) :
    s.Linked id (s.getNewTransaction id) ∧ Consented h (s.getNewTransaction id) := by
  have hclear : s.Linked id {} ∧ Consented h {} := by
    refine ⟨fun k => ⟨rfl, fun p hp => by cases hp⟩, fun k hk => by cases hk⟩
  unfold ActiveInstance.getNewTransaction
  cases ht : s.tradeList.lookup id with
  | none => exact hclear
  | some t =>
      by_cases hi : t.init = true
      · simp only [if_pos hi]
        exact ⟨inv.linked id t ht, inv.consented id t ht⟩
      · simp only [if_neg hi]
        exact hclear

theorem TradeInv.answer {other id : Int} (inv : TradeInv h s) (hid : id ≠ 0)
    (hr : s.answerTrade selfID id = some r) :
    TradeInv ((s, .query now selfID (.start other)) :: h) r.2 := by
  obtain ⟨hlinked, hcons⟩ := inv.getNewTransaction id
  have hquiet : ∀ q, (InstanceEvent.query now selfID (.start other)).acceptBy = some q →
      s.lootOf q = some id := fun _ hq => by cases hq
  unfold answerTrade at hr
  simp only at hr
  split at hr
  · obtain rfl := Option.some.inj hr
    exact inv.put hquiet hid hlinked (hcons.cons rfl)
  · obtain ⟨k, -, rfl⟩ := Option.map_eq_some_iff.mp hr
    exact inv.put hquiet hid (hlinked.openWindow k) ((hcons.openWindow k).cons rfl)

/-- A player recorded in a stored transaction counts as trading. -/
theorem hasExistingTrade_of_partner {id p : Int} {t : TradeTransaction}
    (ht : s.getExistingTransaction id = some t) (k : Fin 2)
    (hp : (t.player k).selfPlayerID = p) : s.hasExistingTrade p = true := by
  unfold hasExistingTrade
  rw [List.any_eq_true]
  refine ⟨⟨id, t⟩, AList.mem_lookup_iff.mp ht, ?_⟩
  have hex : ∃ k, (t.player k).selfPlayerID = p := ⟨k, hp⟩
  rcases Fin.exists_fin_two.mp hex with h0 | h1
  · simp [h0]
  · simp [h1]

theorem linked_setPlayers {id p q : Int} (t : TradeTransaction) (hp : s.lootOf p = some id)
    (hq : s.lootOf q = some id) : s.Linked id { t.setPlayers p q with init := true } := by
  refine Fin.forall_fin_two.mpr ⟨⟨?_, ?_⟩, ?_, ?_⟩
  all_goals simp [TradeTransaction.setPlayers, TradeTransaction.modifyPlayer, hp, hq]

theorem accepted_setPlayers (t : TradeTransaction) (p q : Int) (k : Fin 2) :
    ((t.setPlayers p q).player k).accepted = (t.player k).accepted := by
  revert k
  rw [Fin.forall_fin_two]
  constructor <;> simp [TradeTransaction.setPlayers, TradeTransaction.modifyPlayer]

/-- Two players enter a transaction in which nobody has accepted yet. -/
theorem TradeInv.request {self : CreatureInstance} {other id : Int} (inv : TradeInv h s)
    (hself : s.playerList selfID = some self) (hother : (s.playerList other).isSome)
    (hid : id = if self.activeLootID = 0 then selfID else self.activeLootID)
    (hbusy : s.hasExistingTrade other = false)
    (hfree : ∀ k, ((s.getNewTransaction id).player k).accepted = false)
    (hr : s.requestTrade selfID other id = some r) :
    TradeInv ((s, .query now selfID (.start other)) :: h) r.2 := by
  obtain ⟨target, htarget⟩ := Option.isSome_iff_exists.mp hother
  have hnz : 0 ≠ selfID ∧ 0 ≠ other := by
    have hz : s.playerList 0 = none := by simpa [lootOf] using inv.noPlayerZero
    constructor <;> rintro rfl
    · rw [hz] at hself
      cases hself
    · rw [hz] at htarget
      cases htarget
  have hidnz : 0 ≠ id := by
    rw [hid]
    split
    · exact hnz.1
    · rename_i hne
      exact Ne.symm hne
  obtain ⟨k, -, rfl⟩ := Option.map_eq_some_iff.mp hr
  generalize hs' : (s.modifyCreature selfID (·.setActiveLootID id)).modifyCreature other
    (·.setActiveLootID id) = s'
  have hloot (p : Int) : s'.lootOf p = if p = selfID ∨ p = other then some id else s.lootOf p := by
    rw [← hs', lootOf_setActiveLootID, lootOf_setActiveLootID]
    by_cases hp : p = selfID <;> by_cases hq : p = other
    all_goals simp_all [lootOf]
  have htrade (K : Int) : s'.getExistingTransaction K = s.getExistingTransaction K := by
    rw [← hs']
    rfl
  apply inv.keep
  · rw [lootOf_putTransaction, hloot, if_neg (by simp [hnz])]
    exact inv.noPlayerZero
  · rw [getExistingTransaction_putTransaction, if_neg hidnz, htrade]
    exact inv.noTradeZero
  · intro K t ht
    rw [getExistingTransaction_putTransaction] at ht
    by_cases hK : K = id
    · rw [if_pos hK, Option.some.injEq] at ht
      subst hK ht
      right
      constructor
      · exact (linked_setPlayers _ (by simp [hloot]) (by simp [hloot])).openWindow k
      · apply Consented.openWindow
        apply consented_of_unaccepted
        intro j
        rw [← hfree j]
        exact accepted_setPlayers _ _ _ j
    · rw [if_neg hK, htrade] at ht
      refine .inl ⟨ht, fun j p hp => ⟨?_, by simp [InstanceEvent.acceptBy]⟩⟩
      obtain ⟨hpid, hploot⟩ := inv.linked K t ht j
      have hpK := hploot p hp
      rw [hp, Option.getD_some] at hpid
      have hp1 : p ≠ selfID := by
        rintro rfl
        have hKself : self.activeLootID = K := by simpa [lootOf, hself] using hpK
        have hKnz : K ≠ 0 := by
          rintro rfl
          rw [inv.noTradeZero] at ht
          cases ht
        rw [hKself, if_neg hKnz] at hid
        exact hK hid.symm
      have hp2 : p ≠ other := by
        rintro rfl
        rw [hasExistingTrade_of_partner ht j hpid] at hbusy
        cases hbusy
      rw [lootOf_putTransaction, hloot, if_neg (by simp [hp1, hp2])]

theorem TradeInv.start {other : Int} (inv : TradeInv h s)
    (hok : s.EditsUnaccepted (.query now selfID (.start other)))
    (hr : s.tradeStart selfID other = some r) :
    TradeInv ((s, .query now selfID (.start other)) :: h) r.2 := by
  unfold tradeStart at hr
  split at hr
  · cases hr
  · rename_i self hself
    have hid : (if self.activeLootID = 0 then selfID else self.activeLootID) ≠ 0 := by
      split
      · rintro rfl
        have hz := inv.noPlayerZero
        simp [lootOf, hself] at hz
      · assumption
    simp only at hr
    by_cases hother : other = 0
    · rw [if_pos hother] at hr
      exact inv.answer hid hr
    · rw [if_neg hother] at hr
      split at hr
      · obtain rfl := Option.some.inj hr
        exact inv.same rfl
      · rename_i hbusy
        split at hr
        · obtain rfl := Option.some.inj hr
          exact inv.same rfl
        · rename_i target htarget
          split at hr
          · obtain rfl := Option.some.inj hr
            exact inv.same rfl
          · rename_i htrade
            split at hr
            · obtain rfl := Option.some.inj hr
              exact inv.same rfl
            · rename_i htbusy
              have hedit : s.editedTrade (.query now selfID (.start other)) =
                  some (s.getNewTransaction
                    (if self.activeLootID = 0 then selfID else self.activeLootID)) := by
                simp [editedTrade, hself, htarget, hother, hbusy, htrade, htbusy]
              have hfree := hok _ hedit
              exact inv.request hself (by simp [htarget]) rfl (by simpa using htrade) hfree hr

end Queries

theorem lootOf_setPlayer (s : ActiveInstance) {id p : Int} (c : Option CreatureInstance)
    (h : p ≠ id) : (s.setPlayer id c).lootOf p = s.lootOf p := by
  simp [lootOf, setPlayer, h]

/-- Every event that leaves accepted transactions alone keeps the invariant. -/
theorem tradeInv_step {h : List (ActiveInstance × InstanceEvent)} {s s' : ActiveInstance}
    {ev : InstanceEvent} (inv : TradeInv h s) (hok : s.EditsUnaccepted ev)
    (hs : s.step im ev = some s') : TradeInv ((s, ev) :: h) s' := by
  cases ev with
  | query now selfID q =>
      obtain ⟨r, hr, rfl⟩ := Option.map_eq_some_iff.mp hs
      cases q with
      | start other => exact inv.start hok hr
      | items args => exact inv.items hok hr
      | currency args => exact inv.currency hok hr
      | offer => exact inv.offer hr
      | accept => exact inv.accept hr
      | cancel => exact inv.cancel hr
  | join id c =>
      simp only [step, joinPlayer] at hs
      split at hs
      · cases hs
      · rename_i hfree
        obtain rfl := Option.some.inj hs
        rw [not_or] at hfree
        refine inv.stay rfl ?_ (fun _ => rfl) fun p K hp => lootOf_setPlayer _ _ ?_
        · rw [lootOf_setPlayer _ _ (Ne.symm hfree.1)]
          exact inv.noPlayerZero
        · rintro rfl
          obtain ⟨c', hc', -⟩ := Option.map_eq_some_iff.mp hp
          exact hfree.2 (by simp [hc'])
  | leave id =>
      simp only [step, leavePlayer] at hs
      split at hs
      · cases hs
      · rename_i c hc
        have hloot : s.lootOf id = some c.activeLootID := by simp [lootOf, hc]
        obtain ⟨s₁, hs₁, rfl⟩ := Option.map_eq_some_iff.mp hs
        have hrel : Released s s₁ c.activeLootID := by
          by_cases hz : c.activeLootID ≠ 0
          · rw [if_pos hz] at hs₁
            obtain ⟨r, hr, rfl⟩ := Option.map_eq_some_iff.mp hs₁
            exact cancelTransaction_released (inv.linked _) hr
          · rw [if_neg hz] at hs₁
            obtain rfl := Option.some.inj hs₁
            refine ⟨?_, fun _ _ => rfl, fun _ _ => rfl⟩
            rw [not_not.mp hz]
            exact inv.noTradeZero
        refine inv.release (fun _ hq => by cases hq)
          ⟨hrel.gone, hrel.rest, fun p hp => ?_⟩
        rw [lootOf_setPlayer]
        · exact hrel.loot p hp
        · rintro rfl
          exact hp hloot
  | play id copper inventory busy =>
      obtain ⟨c, hc, rfl⟩ := Option.map_eq_some_iff.mp hs
      have hloot (p : Int) : lootOf (s.modifyCreature id fun c =>
          { c with copper, inventory, mItemUseInProgress := busy }) p = s.lootOf p := by
        unfold lootOf
        rw [playerList_modifyCreature]
        split
        · cases s.playerList p <;> rfl
        · rfl
      refine inv.stay rfl ?_ (fun _ => rfl) fun p _ _ => hloot p
      rw [hloot]
      exact inv.noPlayerZero

/-- The invariant along a run from an empty instance. -/
theorem tradeInv_run {h : List (ActiveInstance × InstanceEvent)} {s : ActiveInstance}
    (run : Trace (· = {}) EditsUnaccepted (step im) h s) : TradeInv h s := by
  refine run.invariant ?_ fun _ _ _ _ inv hok hs => tradeInv_step inv hok hs
  rintro s rfl
  have hempty (id : Int) : getExistingTransaction {} id = none := rfl
  constructor
  · rfl
  · rfl
  · intro id t ht
    rw [hempty] at ht
    cases ht
  · intro id t ht
    rw [hempty] at ht
    cases ht

/-- In every run that rewrites no accepted transaction, a trade that is closed hands over
what stood in the transaction at the latest accept of each of its partners. -/
theorem run_closes_consented {h : List (ActiveInstance × InstanceEvent)} {s s' : ActiveInstance}
    (run : Trace (· = {}) EditsUnaccepted (step im) h s) {now : Nat} {selfID tradeID : Int}
    {t : TradeTransaction} (hclose : s.Closes im now selfID tradeID t s') :
    ∃ p0 p1, (t.player 0).cInst = some p0 ∧ (t.player 1).cInst = some p1 ∧
      s' = (s.putTransaction tradeID t).executeTrade im now tradeID t p0 p1 ∧
      ∀ p, p = p0 ∨ p = p1 →
        ∃ s₀, lastAccept p ((s, .query now selfID .accept) :: h) = some s₀ ∧
          s₀.termsOf p = some t.terms := by
  obtain ⟨p0, p1, -, -, h0, h1, -, -, hex⟩ := hclose.exchange
  refine ⟨p0, p1, h0, h1, hex, ?_⟩
  have hcons : Consented ((s, .query now selfID .accept) :: h) t :=
    consented_pendingTrade (tradeInv_run run) hclose.pending
  have hboth := hclose.accepted
  simp only [TradeTransaction.mutualAccept, Bool.and_eq_true] at hboth
  rintro p (rfl | rfl)
  · obtain ⟨q, s₀, hq, hlast, hterms⟩ := hcons 0 hboth.1
    rw [h0, Option.some.injEq] at hq
    subst hq
    exact ⟨s₀, hlast, hterms⟩
  · obtain ⟨q, s₀, hq, hlast, hterms⟩ := hcons 1 hboth.2
    rw [h1, Option.some.injEq] at hq
    subst hq
    exact ⟨s₀, hlast, hterms⟩

/-- The run theorem on the fair deal of player 1 and player 2. -/
theorem run_closes_consented_deal :
    ∃ p0 p1, ((dealTrade [3] 5).2.player 0).cInst = some p0 ∧
      ((dealTrade [3] 5).2.player 1).cInst = some p1 ∧
      dealClosed [3] 5 = ((dealt [3] 5).putTransaction 1 (dealTrade [3] 5).2).executeTrade
        swordTable 0 1 (dealTrade [3] 5).2 p0 p1 ∧
      ∀ p, p = p0 ∨ p = p1 →
        ∃ s₀, lastAccept p ((dealt [3] 5, .query 0 2 .accept) ::
            logAll (step swordTable) [] {} (deal [3] 5)) = some s₀ ∧
          s₀.termsOf p = some (dealTrade [3] 5).2.terms := by
  have hrun : runAll (step swordTable) {} (deal [3] 5) = some (dealt [3] 5) :=
    eq_some_getD (by decide) _
  have hkey : dealTrade [3] 5 = (1, (dealTrade [3] 5).2) :=
    Prod.ext (by decide) rfl
  have hclose : (dealt [3] 5).Closes swordTable 0 2 1 (dealTrade [3] 5).2 (dealClosed [3] 5) :=
    ⟨(eq_some_getD (by decide) (0, {})).trans (congrArg some hkey), by decide,
      eq_some_getD (by decide) _, Option.isNone_iff_eq_none.mp (by decide)⟩
  have start : Trace (· = {}) EditsUnaccepted (step swordTable) [] {} := .start rfl
  exact run_closes_consented (start.runAll (by decide) hrun) hclose

/-- Player 2 accepts a sword for five copper; player 1 then withdraws the sword. -/
def withdrawal : List InstanceEvent :=
  [.join 1 (trader 50 [{ ccsid := 3, iid := 100 }]), .join 2 (trader 10 []),
    .query 0 1 (.start 2), .query 0 2 (.start 0), .query 0 1 (.items [3]),
    .query 0 2 (.currency (some 5)), .query 0 2 .accept, .query 0 1 (.items [])]

/-- The instance right before player 1 accepts what player 2 never saw. -/
def withdrawn : ActiveInstance := (runAll (step swordTable) {} withdrawal).getD {}

/-- Without the condition a trade can close on terms that one partner never accepted. -/
theorem withdrawn_offer_is_executed :
    ∃ h s s' tradeID t, Trace (· = {}) (fun _ _ => True) (step swordTable) h s ∧
      s.Closes swordTable 0 1 tradeID t s' ∧ 2 ∈ t.partners ∧
      ¬ ∃ s₀, lastAccept 2 ((s, .query 0 1 .accept) :: h) = some s₀ ∧
        s₀.termsOf 2 = some t.terms := by
  have hrun : runAll (step swordTable) {} withdrawal = some withdrawn :=
    eq_some_getD (by decide) _
  have start : Trace (· = {}) (fun _ _ => True) (step swordTable) [] {} := .start rfl
  refine ⟨_, withdrawn, (withdrawn.step swordTable (.query 0 1 .accept)).getD {}, _,
    ((withdrawn.pendingTrade 1).getD (0, {})).2, start.runAll (okAll_true _ _) hrun,
    ⟨eq_some_getD (by decide) (0, {}), by decide,
      eq_some_getD (by decide) _, Option.isNone_iff_eq_none.mp (by decide)⟩,
    by decide, ?_⟩
  rintro ⟨s₀, hlast, hterms⟩
  have hseen := congrArg (·.bind fun s => s.termsOf 2) hlast
  rw [Option.bind_some, hterms] at hseen
  exact absurd hseen (by decide)

end ActiveInstance

end Iceee
