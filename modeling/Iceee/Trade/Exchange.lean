import Iceee.Inventory.Quantity
import Iceee.Lib.Trace
import Iceee.Trade.Instance

/-!
# What a completed trade does to goods and copper

The exchange removes the listed slots from both partners, then adds the listed items
to the other side. `gives` and `receives` describe both halves from the point of view
of one player, also when both halves belong to the same player.
-/

namespace Iceee

open Lib

namespace CreatureInstance

variable (im : ItemManager) (now : Nat)

/-- Whether every delivery of the list finds its place. -/
def takesAll (inv : InventoryManager) : List InventorySlot → Bool
  | [] => true
  | entry :: rest =>
      (inv.addItemEx im now invContainer entry.iid (entry.count + 1)).1.isSome &&
        takesAll (receiveOffered im now inv entry) rest

/-- The condition on one partner under which the exchange is sound: the offered slots
are distinct and still hold at least one of what was offered, the deliveries fit, and
the balance after the exchange is one an `int` can hold. -/
structure Covered (t : TradeTransaction) (p : Int) (c : CreatureInstance) : Prop where
  distinct : ((t.gives p).map InventorySlot.ccsid).Nodup
  held : ∀ entry ∈ t.gives p, ∃ slot ∈ c.inventory.getItemPtrByCCSID entry.ccsid,
    slot.iid = entry.iid ∧ slot.getStackCount im = entry.getStackCount im
  filled : ∀ entry ∈ t.gives p, 1 ≤ entry.getStackCount im
  room : takesAll im now ((t.gives p).foldl removeOffered c.inventory) (t.receives p) = true
  solvent : 0 ≤ c.copper - t.pays p + t.earns p ∧ c.copper - t.pays p + t.earns p < 2 ^ 31

instance (t : TradeTransaction) (p : Int) (c : CreatureInstance) :
    Decidable (Covered im now t p c) :=
  decidable_of_iff
    ((((t.gives p).map InventorySlot.ccsid).Nodup ∧
      ∀ entry ∈ t.gives p, ∃ slot ∈ c.inventory.getItemPtrByCCSID entry.ccsid,
        slot.iid = entry.iid ∧ slot.getStackCount im = entry.getStackCount im) ∧
      (∀ entry ∈ t.gives p, 1 ≤ entry.getStackCount im) ∧
      takesAll im now ((t.gives p).foldl removeOffered c.inventory) (t.receives p) = true ∧
      (0 ≤ c.copper - t.pays p + t.earns p ∧ c.copper - t.pays p + t.earns p < 2 ^ 31))
    ⟨fun h => ⟨h.1.1, h.1.2, h.2.1, h.2.2.1, h.2.2.2⟩,
      fun h => ⟨⟨h.distinct, h.held⟩, h.filled, h.room, h.solvent⟩⟩

variable {im now}

/-- What a list of entries adds up to for one item. -/
def listed (im : ItemManager) (id : Int) (entries : List InventorySlot) : Int :=
  (entries.map (InventorySlot.quantity im id)).sum

theorem listed_append (id : Int) (l l' : List InventorySlot) :
    listed im id (l ++ l') = listed im id l + listed im id l' := by
  simp [listed]

theorem quantity_removeOffered {inv : InventoryManager} {entry slot : InventorySlot}
    (h : inv.getItemPtrByCCSID entry.ccsid = some slot) (id : Int) :
    (removeOffered inv entry).quantity im id =
      inv.quantity im id - slot.quantity im id := by
  unfold removeOffered
  rw [h]
  cases hc : InventoryManager.containerOf entry.ccsid with
  | none => simp [InventoryManager.getItemPtrByCCSID, hc] at h
  | some c =>
      rw [InventoryManager.quantity_eq_weigh, InventoryManager.quantity_eq_weigh]
      exact InventoryManager.weigh_remItem _ hc h

/-- Removing one CCSID does not change what another one leads to. -/
theorem getItemPtrByCCSID_removeOffered {inv : InventoryManager} {entry : InventorySlot}
    {ccsid : Nat} (hne : ccsid ≠ entry.ccsid) :
    (removeOffered inv entry).getItemPtrByCCSID ccsid = inv.getItemPtrByCCSID ccsid := by
  unfold removeOffered
  cases inv.getItemPtrByCCSID entry.ccsid with
  | none => rfl
  | some _ => exact InventoryManager.getItemPtrByCCSID_remItem hne

/-- Distinct offers that are still held are taken out exactly. -/
theorem quantity_removeItems {inv : InventoryManager} {entries : List InventorySlot}
    (hdistinct : (entries.map InventorySlot.ccsid).Nodup)
    (hheld : ∀ entry ∈ entries, ∃ slot ∈ inv.getItemPtrByCCSID entry.ccsid,
      slot.iid = entry.iid ∧ slot.getStackCount im = entry.getStackCount im) (id : Int) :
    (entries.foldl removeOffered inv).quantity im id =
      inv.quantity im id - listed im id entries := by
  induction entries generalizing inv with
  | nil => simp [listed]
  | cons entry rest ih =>
      simp only [List.map_cons, List.nodup_cons, List.mem_map, not_exists, not_and] at hdistinct
      obtain ⟨slot, hslot, hid, hstack⟩ := hheld entry List.mem_cons_self
      have hrest : ∀ e ∈ rest, ∃ slot ∈ (removeOffered inv entry).getItemPtrByCCSID e.ccsid,
          slot.iid = e.iid ∧ slot.getStackCount im = e.getStackCount im := by
        intro e he
        rw [getItemPtrByCCSID_removeOffered (hdistinct.1 e he)]
        exact hheld e (List.mem_cons_of_mem _ he)
      have hsame : slot.quantity im id = entry.quantity im id := by
        unfold InventorySlot.quantity
        rw [hid, hstack]
      rw [List.foldl_cons, ih hdistinct.2 hrest, quantity_removeOffered hslot, hsame]
      simp only [listed, List.map_cons, List.sum_cons]
      omega

/-- A delivery that finds its place adds the entry. -/
theorem quantity_receiveOffered {inv : InventoryManager} {entry : InventorySlot}
    (hfilled : 1 ≤ entry.getStackCount im)
    (h : (inv.addItemEx im now invContainer entry.iid (entry.count + 1)).1.isSome) (id : Int) :
    (receiveOffered im now inv entry).quantity im id =
      inv.quantity im id + entry.quantity im id := by
  unfold receiveOffered
  cases hadd : inv.addItemEx im now invContainer entry.iid (entry.count + 1) with
  | mk i inv' =>
      cases i with
      | none => simp [hadd] at h
      | some i =>
          obtain ⟨s, hs, hid⟩ := InventoryManager.addItemEx_slot hadd
          have hq := InventoryManager.quantity_addItemEx hfilled hadd id
          rw [InventoryManager.lotSize_slot] at hq
          exact (InventoryManager.quantity_copyWithoutCount hs hid id).trans hq

theorem quantity_receiveItems {inv : InventoryManager} {entries : List InventorySlot}
    (hfilled : ∀ entry ∈ entries, 1 ≤ entry.getStackCount im)
    (hroom : takesAll im now inv entries = true) (id : Int) :
    (entries.foldl (receiveOffered im now) inv).quantity im id =
      inv.quantity im id + listed im id entries := by
  induction entries generalizing inv with
  | nil => simp [listed]
  | cons entry rest ih =>
      simp only [takesAll, Bool.and_eq_true] at hroom
      rw [List.foldl_cons, ih (fun e he => hfilled e (List.mem_cons_of_mem _ he)) hroom.2,
        quantity_receiveOffered (hfilled entry List.mem_cons_self) hroom.1]
      simp only [listed, List.map_cons, List.sum_cons]
      omega

/-- What the whole exchange does to one partner. -/
def settled (im : ItemManager) (now : Nat) (t : TradeTransaction) (p : Int)
    (c : CreatureInstance) : CreatureInstance :=
  { c with
    activeLootID := 0
    copper := wrap32 (c.copper - t.pays p + t.earns p)
    inventory := (t.receives p).foldl (receiveOffered im now)
      ((t.gives p).foldl removeOffered c.inventory) }

theorem settled_copper {t : TradeTransaction} {p : Int} {c : CreatureInstance}
    (h : Covered im now t p c) :
    (settled im now t p c).copper = c.copper - t.pays p + t.earns p := by
  obtain ⟨hlo, hhi⟩ := h.solvent
  apply wrap32_eq
  constructor <;> omega

/-- A covered partner loses what they gave and gains what they were given. -/
theorem settled_quantity {t : TradeTransaction} {p : Int} {c : CreatureInstance}
    (h : Covered im now t p c) (hfilled : ∀ entry ∈ t.receives p, 1 ≤ entry.getStackCount im)
    (id : Int) :
    (settled im now t p c).inventory.quantity im id =
      c.inventory.quantity im id - listed im id (t.gives p) + listed im id (t.receives p) := by
  have hout := quantity_removeItems h.distinct h.held id
  have hin := quantity_receiveItems hfilled h.room id
  rw [settled, hin, hout]

end CreatureInstance

namespace ActiveInstance

open CreatureInstance

variable (im : ItemManager)

/-- The quantity of an item a player holds. -/
def heldBy (s : ActiveInstance) (p id : Int) : Int :=
  match s.playerList p with
  | some c => c.inventory.quantity im id
  | none => 0

/-- The copper a player holds. -/
def copperOf (s : ActiveInstance) (p : Int) : Int :=
  match s.playerList p with
  | some c => c.copper
  | none => 0

/-- The transaction an accept of `selfID` works on, with the flag of the accept set. -/
def pendingTrade (s : ActiveInstance) (selfID : Int) : Option (Int × TradeTransaction) :=
  (s.playerList selfID).bind fun self =>
    (s.getExistingTransaction self.activeLootID).bind fun t =>
      (t.getPlayerData selfID).map fun k => (self.activeLootID, t.setAccepted k)

/-- An accept of `selfID` finds both flags set and removes the transaction. -/
structure Closes (s : ActiveInstance) (now : Nat) (selfID tradeID : Int) (t : TradeTransaction)
    (s' : ActiveInstance) : Prop where
  pending : s.pendingTrade selfID = some (tradeID, t)
  accepted : t.mutualAccept = true
  result : s.step im (.query now selfID .accept) = some s'
  removed : s'.getExistingTransaction tradeID = none

/-- Goods and copper of the partners are the same before and after, what one partner
gains the other loses, and nobody is left in debt. -/
structure Conserves (s s' : ActiveInstance) (t : TradeTransaction) : Prop where
  goods : ∀ id, ∑ p ∈ t.partners.toFinset, s'.heldBy im p id =
    ∑ p ∈ t.partners.toFinset, s.heldBy im p id
  matched : ∀ p ∈ t.partners, ∀ q ∈ t.partners, p ≠ q → ∀ id,
    s'.heldBy im p id - s.heldBy im p id = s.heldBy im q id - s'.heldBy im q id
  copper : ∑ p ∈ t.partners.toFinset, s'.copperOf p = ∑ p ∈ t.partners.toFinset, s.copperOf p
  solvent : ∀ p ∈ t.partners, 0 ≤ s'.copperOf p

/-- The condition on an event: an accept that completes a trade has both partners covered. -/
def AcceptCovered (s : ActiveInstance) : InstanceEvent → Prop
  | .query now selfID .accept => ∀ e ∈ s.pendingTrade selfID, e.2.mutualAccept = true →
      ∀ p ∈ e.2.partners, ∀ c ∈ s.playerList p, Covered im now e.2 p c
  | _ => True

instance (s : ActiveInstance) : (ev : InstanceEvent) → Decidable (AcceptCovered im s ev)
  | .query now selfID .accept =>
      inferInstanceAs (Decidable (∀ e ∈ s.pendingTrade selfID, e.2.mutualAccept = true →
        ∀ p ∈ e.2.partners, ∀ c ∈ s.playerList p, Covered im now e.2 p c))
  | .query _ _ (.start _) | .query _ _ (.items _) | .query _ _ (.currency _)
  | .query _ _ .offer | .query _ _ .cancel | .join _ _ | .leave _ | .play _ _ _ _ =>
      inferInstanceAs (Decidable True)

variable {im}

theorem playerList_modifyCreature (s : ActiveInstance) (id p : Int)
    (f : CreatureInstance → CreatureInstance) :
    (s.modifyCreature id f).playerList p =
      if p = id then (s.playerList p).map f else s.playerList p := by
  by_cases h : p = id
  · subst h
    simp [modifyCreature]
  · simp [modifyCreature, h]

/-- The exchange settles each partner and nobody else. -/
theorem executeTrade_playerList {s : ActiveInstance} {now : Nat} {tradeID p0 p1 : Int}
    {t : TradeTransaction} (h0 : (t.player 0).cInst = some p0)
    (h1 : (t.player 1).cInst = some p1) (p : Int) :
    (s.executeTrade im now tradeID t p0 p1).playerList p =
      if p = p0 ∨ p = p1 then (s.playerList p).map (settled im now t p)
      else s.playerList p := by
  simp only [executeTrade, removeTransaction, playerList_modifyCreature]
  cases s.playerList p with
  | none => simp
  | some c =>
      have hhalf0 : (some p0 = some p) = (p = p0) := by simp [eq_comm]
      have hhalf1 : (some p1 = some p) = (p = p1) := by simp [eq_comm]
      simp only [Option.map_some, settled, TradeTransaction.pays, TradeTransaction.earns,
        TradeTransaction.gives, TradeTransaction.receives, h0, h1, hhalf0, hhalf1]
      -- Both halves can belong to one player, who then trades with themselves.
      rcases eq_or_ne p p0 with rfl | hp0 <;> rcases eq_or_ne p p1 with rfl | hp1
      all_goals
        simp only [*, if_true, if_false, or_self, or_true, true_or, Option.map_some, add_zero,
          zero_add, List.foldl_append, List.foldl_nil, List.append_nil, subCopper, addCopper,
          removeItems, receiveItems, setActiveLootID, wrap32_add_wrap32, wrap32_sub_wrap32]
      congr 3
      omega

/-- A query that needs a trade finds one with the player in it, or changes nothing but
to cancel it. -/
theorem withTrade_cases {s : ActiveInstance} {selfID : Int}
    {f : CreatureInstance → Int → TradeTransaction → Fin 2 →
      Option (QueryErrorMsg × ActiveInstance)} {r : QueryErrorMsg × ActiveInstance}
    (h : s.withTrade selfID f = some r) :
    ∃ self, s.playerList selfID = some self ∧
      ((s.getExistingTransaction self.activeLootID = none ∧ r = (.tradeNotFound, s)) ∨
        ∃ t, s.getExistingTransaction self.activeLootID = some t ∧
          ((t.getPlayerData selfID = none ∧ s.cancelTransaction self.activeLootID = some r) ∨
            ∃ k, t.getPlayerData selfID = some k ∧ f self self.activeLootID t k = some r)) := by
  unfold withTrade at h
  cases hself : s.playerList selfID with
  | none => simp [hself] at h
  | some self =>
      refine ⟨self, rfl, ?_⟩
      cases ht : s.getExistingTransaction self.activeLootID with
      | none =>
          simp only [hself, ht, Option.some.injEq] at h
          exact .inl ⟨rfl, h.symm⟩
      | some t =>
          refine .inr ⟨t, rfl, ?_⟩
          cases hk : t.getPlayerData selfID with
          | none =>
              simp only [hself, ht, hk] at h
              exact .inl ⟨rfl, h⟩
          | some k =>
              simp only [hself, ht, hk] at h
              exact .inr ⟨k, rfl, h⟩

/-- The outcomes of an accept by a player who is in a trade. -/
theorem tradeAccept_cases {s : ActiveInstance} {now : Nat} {selfID tradeID : Int}
    {t : TradeTransaction} {r : QueryErrorMsg × ActiveInstance}
    (hp : s.pendingTrade selfID = some (tradeID, t)) (h : s.tradeAccept im now selfID = some r) :
    r.2 = s.putTransaction tradeID t ∨
      ∃ p0 p1 origin target, (t.player 0).cInst = some p0 ∧ (t.player 1).cInst = some p1 ∧
        s.playerList p0 = some origin ∧ s.playerList p1 = some target ∧
        t.mutualAccept = true ∧ requirementsPassed t origin target = true ∧
        r.2 = (s.putTransaction tradeID t).executeTrade im now tradeID t p0 p1 := by
  simp only [pendingTrade, Option.bind_eq_some_iff, Option.map_eq_some_iff, Prod.mk.injEq] at hp
  obtain ⟨self, hself, t', ht', k, hk, rfl, rfl⟩ := hp
  simp only [tradeAccept, withTrade, hself, ht', hk] at h
  cases hother : (t'.player k.rev).cInst with
  | none => simp [hother] at h
  | some other =>
      simp only [hother] at h
      split at h
      · rename_i p0 p1 h0 h1
        split at h
        · rename_i hboth
          split at h
          · rename_i origin target horigin htarget
            split at h
            · rename_i hreq
              obtain rfl := Option.some.inj h
              exact .inr ⟨p0, p1, origin, target, h0, h1, horigin, htarget, hboth, hreq, rfl⟩
            · obtain rfl := Option.some.inj h
              exact .inl rfl
          · cases h
        · obtain rfl := Option.some.inj h
          exact .inl rfl
      · obtain rfl := Option.some.inj h
        exact .inl rfl

/-- Closing a trade is one run of the exchange. -/
theorem Closes.exchange {s s' : ActiveInstance} {now : Nat} {selfID tradeID : Int}
    {t : TradeTransaction} (h : s.Closes im now selfID tradeID t s') :
    ∃ p0 p1 origin target, (t.player 0).cInst = some p0 ∧ (t.player 1).cInst = some p1 ∧
      s.playerList p0 = some origin ∧ s.playerList p1 = some target ∧
      s' = (s.putTransaction tradeID t).executeTrade im now tradeID t p0 p1 := by
  have hstep := h.result
  simp only [step, handleQuery, Option.map_eq_some_iff] at hstep
  obtain ⟨r, hr, rfl⟩ := hstep
  rcases tradeAccept_cases h.pending hr with hput | ⟨p0, p1, o, g, h0, h1, ho, hg, -, -, hex⟩
  · have hgone := h.removed
    rw [hput] at hgone
    simp [getExistingTransaction, putTransaction, AList.lookup_insert] at hgone
  · exact ⟨p0, p1, o, g, h0, h1, ho, hg, hex⟩

/-- What is offered to a partner was offered by a partner. -/
theorem mem_gives_of_mem_receives {t : TradeTransaction} {p0 p1 p : Int}
    (h0 : (t.player 0).cInst = some p0) (h1 : (t.player 1).cInst = some p1)
    {entry : InventorySlot} (h : entry ∈ t.receives p) : ∃ q ∈ t.partners, entry ∈ t.gives q := by
  simp only [TradeTransaction.receives, List.mem_append] at h
  rcases h with h | h
  · split at h
    · exact ⟨p1, by simp [TradeTransaction.partners, h1], by simp [TradeTransaction.gives, h1, h]⟩
    · cases h
  · split at h
    · exact ⟨p0, by simp [TradeTransaction.partners, h0], by simp [TradeTransaction.gives, h0, h]⟩
    · cases h

/-- Over both partners, what is given is what is received. -/
theorem sum_receives {t : TradeTransaction} {p0 p1 : Int}
    (h0 : (t.player 0).cInst = some p0) (h1 : (t.player 1).cInst = some p1) (id : Int) :
    ∑ p ∈ {p0, p1}, listed im id (t.receives p) = ∑ p ∈ {p0, p1}, listed im id (t.gives p) := by
  rcases eq_or_ne p0 p1 with rfl | hne
  · simp [TradeTransaction.receives, TradeTransaction.gives, h0, h1, listed_append, add_comm]
  · rw [Finset.sum_pair hne, Finset.sum_pair hne]
    simp [TradeTransaction.receives, TradeTransaction.gives, h0, h1, hne, hne.symm, add_comm]

theorem sum_earns {t : TradeTransaction} {p0 p1 : Int}
    (h0 : (t.player 0).cInst = some p0) (h1 : (t.player 1).cInst = some p1) :
    ∑ p ∈ {p0, p1}, t.earns p = ∑ p ∈ {p0, p1}, t.pays p := by
  rcases eq_or_ne p0 p1 with rfl | hne
  · simp [TradeTransaction.earns, TradeTransaction.pays, h0, h1, add_comm]
  · rw [Finset.sum_pair hne, Finset.sum_pair hne]
    simp [TradeTransaction.earns, TradeTransaction.pays, h0, h1, hne, hne.symm, add_comm]

/-- An exchange between covered partners settles both of them exactly. -/
theorem Closes.settles {s s' : ActiveInstance} {now : Nat} {selfID tradeID : Int}
    {t : TradeTransaction} (h : s.Closes im now selfID tradeID t s')
    (hcov : ∀ p ∈ t.partners, ∀ c ∈ s.playerList p, Covered im now t p c)
    {p : Int} (hp : p ∈ t.partners) :
    (∀ id, s'.heldBy im p id =
        s.heldBy im p id - listed im id (t.gives p) + listed im id (t.receives p)) ∧
      s'.copperOf p = s.copperOf p - t.pays p + t.earns p ∧ 0 ≤ s'.copperOf p := by
  obtain ⟨p0, p1, o, g, h0, h1, ho, hg, rfl⟩ := h.exchange
  have hpair : ∀ q ∈ t.partners, q = p0 ∨ q = p1 := by
    simp [TradeTransaction.partners, h0, h1]
  have hpresent : ∀ q ∈ t.partners, ∃ c, s.playerList q = some c := by
    intro q hq
    rcases hpair q hq with rfl | rfl
    · exact ⟨o, ho⟩
    · exact ⟨g, hg⟩
  have hfilled : ∀ entry ∈ t.receives p, 1 ≤ entry.getStackCount im := by
    intro entry hentry
    obtain ⟨q, hq, hgive⟩ := mem_gives_of_mem_receives h0 h1 hentry
    obtain ⟨c, hc⟩ := hpresent q hq
    exact (hcov q hq c hc).filled entry hgive
  obtain ⟨c, hc⟩ := hpresent p hp
  have hcovp := hcov p hp c hc
  have hafter : ((s.putTransaction tradeID t).executeTrade im now tradeID t p0 p1).playerList p =
      some (settled im now t p c) := by
    rw [executeTrade_playerList h0 h1, if_pos (hpair p hp)]
    simp [putTransaction, hc]
  simp only [heldBy, copperOf, hafter, hc]
  rw [settled_copper hcovp]
  exact ⟨settled_quantity hcovp hfilled, rfl, hcovp.solvent.1⟩

/-- An exchange between covered partners conserves goods and copper. -/
theorem Closes.conserves {s s' : ActiveInstance} {now : Nat} {selfID tradeID : Int}
    {t : TradeTransaction} (h : s.Closes im now selfID tradeID t s')
    (hcov : ∀ p ∈ t.partners, ∀ c ∈ s.playerList p, Covered im now t p c) :
    Conserves im s s' t := by
  obtain ⟨p0, p1, -, -, h0, h1, -, -, -⟩ := h.exchange
  have hset : t.partners.toFinset = {p0, p1} := by simp [TradeTransaction.partners, h0, h1]
  have hmem {p : Int} (hp : p ∈ ({p0, p1} : Finset Int)) : p ∈ t.partners := by
    rwa [← List.mem_toFinset, hset]
  have hgoods (id : Int) : ∑ p ∈ {p0, p1}, s'.heldBy im p id = ∑ p ∈ {p0, p1}, s.heldBy im p id := by
    rw [Finset.sum_congr rfl fun p hp => (h.settles hcov (hmem hp)).1 id, Finset.sum_add_distrib,
      Finset.sum_sub_distrib, sum_receives h0 h1, sub_add_cancel]
  have hcopper : ∑ p ∈ {p0, p1}, s'.copperOf p = ∑ p ∈ {p0, p1}, s.copperOf p := by
    rw [Finset.sum_congr rfl fun p hp => (h.settles hcov (hmem hp)).2.1, Finset.sum_add_distrib,
      Finset.sum_sub_distrib, sum_earns h0 h1, sub_add_cancel]
  refine ⟨hset ▸ hgoods, ?_, hset ▸ hcopper, fun p hp => (h.settles hcov hp).2.2⟩
  intro p hp q hq hne id
  have hpq : ({p0, p1} : Finset Int) = {p, q} := by
    rw [← List.mem_toFinset, hset, Finset.mem_insert, Finset.mem_singleton] at hp hq
    rcases hp with rfl | rfl <;> rcases hq with rfl | rfl
    · exact absurd rfl hne
    · rfl
    · exact Finset.pair_comm _ _
    · exact absurd rfl hne
  have hsum := hgoods id
  rw [hpq, Finset.sum_pair hne, Finset.sum_pair hne] at hsum
  omega

/-- In every run whose completing accepts cover both partners, each trade that was
closed on the way conserved the goods and the copper of its partners. -/
theorem run_closes_conserves {h : List (ActiveInstance × InstanceEvent)} {s : ActiveInstance}
    (run : Trace (· = {}) (AcceptCovered im) (step im) h s)
    {s₀ s₁ : ActiveInstance} {now : Nat} {selfID tradeID : Int} {t : TradeTransaction}
    (hmem : (s₀, .query now selfID .accept) ∈ h)
    (hclose : s₀.Closes im now selfID tradeID t s₁) : Conserves im s₀ s₁ t :=
  hclose.conserves (run.ok_of_mem hmem _ hclose.pending hclose.accepted)

/-! One deal: player 1 offers slots of a backpack that holds one sword, player 2 offers
coin, and player 1 has accepted. -/

def swordTable : ItemManager := .ofList [{ mID := 100, mType := .weapon }]

def trader (copper : Int) (items : List InventorySlot) : CreatureInstance where
  copper := copper
  inventory :=
    { containerList := fun c => if c = invContainer then items else []
      maxContainerSlot := fun c => if c = invContainer then 24 else 0 }

def deal (offered : List Nat) (coin : Int) : List InstanceEvent :=
  [.join 1 (trader 50 [{ ccsid := 3, iid := 100 }]), .join 2 (trader 10 []),
    .query 0 1 (.start 2), .query 0 2 (.start 0), .query 0 1 (.items offered),
    .query 0 2 (.currency (some coin)), .query 0 1 .accept]

/-- The instance right before player 2 accepts. -/
def dealt (offered : List Nat) (coin : Int) : ActiveInstance :=
  (runAll (step swordTable) {} (deal offered coin)).getD {}

/-- The transaction that accept works on, under its key. -/
def dealTrade (offered : List Nat) (coin : Int) : Int × TradeTransaction :=
  ((dealt offered coin).pendingTrade 2).getD (0, {})

/-- The instance after player 2 has accepted. -/
def dealClosed (offered : List Nat) (coin : Int) : ActiveInstance :=
  ((dealt offered coin).step swordTable (.query 0 2 .accept)).getD {}

/-- The run theorem on the fair deal: one sword for five copper. -/
theorem run_closes_conserves_deal :
    Conserves swordTable (dealt [3] 5) (dealClosed [3] 5) (dealTrade [3] 5).2 := by
  have hrun : runAll (step swordTable) {} (deal [3] 5) = some (dealt [3] 5) :=
    eq_some_getD (by decide) _
  have haccept : (dealt [3] 5).step swordTable (.query 0 2 .accept) = some (dealClosed [3] 5) :=
    eq_some_getD (by decide) _
  have hclose : (dealt [3] 5).Closes swordTable 0 2 _ (dealTrade [3] 5).2 (dealClosed [3] 5) :=
    ⟨eq_some_getD (by decide) (0, {}), by decide, haccept,
      Option.isNone_iff_eq_none.mp (by decide)⟩
  have start : Trace (· = {}) (AcceptCovered swordTable) (step swordTable) [] {} := .start rfl
  have run := start.runAll (by decide) hrun
  exact run_closes_conserves (run.next (by decide) haccept) List.mem_cons_self hclose

/-- Without the condition goods are not conserved: a slot that is offered twice is taken
once and delivered twice. -/
theorem repeated_offer_duplicates :
    ∃ s₀ s₁ tradeID t, Reach (· = {}) (fun _ _ => True) (step swordTable) s₀ ∧
      s₀.Closes swordTable 0 2 tradeID t s₁ ∧ ¬ Conserves swordTable s₀ s₁ t := by
  have hrun : runAll (step swordTable) {} (deal [3, 3] 0) = some (dealt [3, 3] 0) :=
    eq_some_getD (by decide) _
  have haccept : (dealt [3, 3] 0).step swordTable (.query 0 2 .accept) =
      some (dealClosed [3, 3] 0) :=
    eq_some_getD (by decide) _
  refine ⟨dealt [3, 3] 0, dealClosed [3, 3] 0, _, (dealTrade [3, 3] 0).2,
    reach_of_runAll rfl hrun, ⟨eq_some_getD (by decide) (0, {}), by decide,
      haccept, Option.isNone_iff_eq_none.mp (by decide)⟩, ?_⟩
  intro h
  exact absurd (h.goods 100) (by decide)

end ActiveInstance

end Iceee
