import Iceee.Inventory.Quantity
import Iceee.Lib.Keyed
import Iceee.Lib.Trace
import Iceee.Loot.Queries

/-!
# What loot queries do with the items

`held` counts an item over the players, and `left` counts it in one container. A query
moves items from one container to players: what is held more is what is left less. The one
exception is an award: the winner gets a copy before the container is looked at, so a roll
that outlives its item makes a new one.
-/

namespace Iceee

open Lib

namespace Loot

namespace World

variable (im : ItemManager) (w : World)

/-- The inventories of all players. -/
def inventories : List InventoryManager := w.playerList.map CreatureInstance.inventory

/-- All a step of the server has to leave alone when it moves no items. -/
def goods : List InventoryManager × (Int × Int → Option ActiveLootContainer) :=
  (w.inventories, w.creatureList)

/-- The quantity of an item over all players. -/
def held (id : Int) : Int := (w.inventories.map fun inv => inv.quantity im id).sum

/-- The copies of an item in one loot container. -/
def left (key : Int × Int) (id : Int) : Int :=
  ((w.creatureList key).map fun loot => (loot.itemList.count id : Int)).getD 0

/-! ### Parties hold no items -/

@[simp] theorem goods_setParty (party : ActiveParty) : (w.setParty party).goods = w.goods := rfl

theorem inventories_modifyCreature {f : CreatureInstance → CreatureInstance} (id : Int)
    (hf : ∀ c, (f c).inventory = c.inventory) :
    (w.modifyCreature id f).inventories = w.inventories :=
  map_key_modify hf

@[simp] theorem goods_setPartyID (id partyID : Int) : (w.setPartyID id partyID).goods = w.goods :=
  Prod.ext (w.inventories_modifyCreature id fun _ => rfl) rfl

@[simp] theorem goods_addMember (party : ActiveParty) (c : CreatureInstance) :
    (w.addMember party c).goods = w.goods := by
  unfold addMember
  split
  · rfl
  · simp

@[simp] theorem goods_addMemberTo (partyID : Int) (c : CreatureInstance) :
    (w.addMemberTo partyID c).goods = w.goods := by
  unfold addMemberTo
  split
  · simp
  · rfl

theorem goods_acceptInvite (memberID leaderDefID : Int) :
    (w.acceptInvite memberID leaderDefID).goods = w.goods := by
  unfold acceptInvite
  split
  · split
    · simp
    · simp only [goods_addMemberTo]
      rfl
  · rfl

@[simp] theorem goods_removeMember (party : ActiveParty) (memberDefID : Int) :
    (w.removeMember party memberDefID).goods = w.goods := by
  unfold removeMember
  split
  · simp
  · simp

@[simp] theorem goods_disband (party : ActiveParty) : (w.disband party).goods = w.goods := by
  have hfold (ids : List Int) (w : World) :
      (ids.foldl (fun w id => w.setPartyID id 0) w).goods = w.goods := by
    induction ids generalizing w with
    | nil => rfl
    | cons id rest ih => rw [List.foldl_cons, ih, goods_setPartyID]
  exact hfold _ w

@[simp] theorem goods_dropMember (partyID memberDefID droppedID : Int) :
    (w.dropMember partyID memberDefID droppedID).goods = w.goods := by
  unfold dropMember
  split
  · rfl
  · dsimp only
    split <;> simp

theorem goods_doQuit (id : Int) : (w.doQuit id).goods = w.goods := by
  unfold doQuit
  split
  · rfl
  · simp

theorem goods_doKick (id memberID stale : Int) : (w.doKick id memberID stale).goods = w.goods := by
  unfold doKick
  split
  · rfl
  · split
    · rfl
    · split
      · rfl
      · simp

theorem goods_modifyParty (id : Int) (f : ActiveParty → ActiveParty) :
    (w.modifyParty id f).goods = w.goods := by
  unfold modifyParty
  split
  · rfl
  · simp

theorem goods_updatePlayerReferences (id newID actInst : Int) :
    (w.updatePlayerReferences id newID actInst).goods = w.goods := by
  unfold updatePlayerReferences
  split
  · rfl
  · exact Prod.ext (w.inventories_modifyCreature id fun _ => rfl) rfl

/-! ### Counting -/

theorem left_eq {key : Int × Int} {loot : ActiveLootContainer} (h : w.creatureList key = some loot)
    (id : Int) : w.left key id = loot.itemList.count id := by
  simp [left, h]

theorem left_setContainer (key : Int × Int) (loot : ActiveLootContainer) (k : Int × Int) (id : Int) :
    (w.setContainer key loot).left k id =
      if k = key then (loot.itemList.count id : Int) else w.left k id := by
  unfold left setContainer
  by_cases hk : k = key
  · simp [hk]
  · simp [hk]

/-- An empty container can go. -/
theorem left_removeCreature {key : Int × Int} (h : ∀ id, w.left key id = 0) (k : Int × Int)
    (id : Int) : (w.removeCreature key).left k id = w.left k id := by
  unfold removeCreature
  split
  · by_cases hk : k = key
    · subst hk
      rw [h]
      simp [left]
    · simp [left, hk]
  · rfl

@[simp] theorem inventories_setContainer (key : Int × Int) (loot : ActiveLootContainer) :
    (w.setContainer key loot).inventories = w.inventories := rfl

@[simp] theorem inventories_removeCreature (key : Int × Int) :
    (w.removeCreature key).inventories = w.inventories := by
  unfold removeCreature
  split <;> rfl

theorem held_setInventory {id : Int} {c : CreatureInstance} (h : w.getCreature id = some c)
    (inv : InventoryManager) (item : Int) :
    (w.setInventory id inv).held im item =
      w.held im item + (inv.quantity im item - c.inventory.quantity im item) := by
  unfold getCreature at h
  rw [List.find?_eq_getElem?_findIdx] at h
  unfold held inventories setInventory modifyCreature
  rw [List.map_map, List.map_map, sum_map_modify h]
  rfl

theorem creatureID_of_getCreature {id : Int} {c : CreatureInstance}
    (h : w.getCreature id = some c) : c.creatureID = id := by
  have := List.find?_some h
  simpa using this

/-! ### Moving items -/

variable {im} {w} {w' w'' : World} {key : Int × Int} {d d' : Int → Int}

variable (im) in
/-- `d id` copies of each item went from one container to the players. -/
structure Moved (key : Int × Int) (d : Int → Int) (w w' : World) : Prop where
  held : ∀ id, w'.held im id = w.held im id + d id
  left : ∀ k id, w'.left k id = w.left k id - if k = key then d id else 0

theorem Moved.of_goods (key : Int × Int) (h : w'.goods = w.goods) : Moved im key 0 w w' := by
  obtain ⟨hinv, hloot⟩ := Prod.mk.inj h
  constructor
  · intro id
    simp [World.held, hinv]
  · intro k id
    simp [World.left, hloot]

/-- The players and one container change by the same copies. -/
theorem Moved.setContainer {w₁ : World} {loot : ActiveLootContainer}
    (hheld : ∀ id, w₁.held im id = w.held im id + d id)
    (hlist : w₁.creatureList = w.creatureList)
    (hloot : ∀ id, (loot.itemList.count id : Int) = w.left key id - d id) :
    Moved im key d w (w₁.setContainer key loot) := by
  constructor
  · intro id
    rw [← hheld id]
    rfl
  · intro k id
    rw [left_setContainer]
    by_cases hk : k = key
    · subst hk
      simp [hloot]
    · simp only [hk, if_false, sub_zero, World.left, hlist]

theorem Moved.trans (h : Moved im key d w w') (h' : Moved im key d' w' w'') :
    Moved im key (d + d') w w'' := by
  constructor
  · intro id
    rw [h'.held, h.held, Pi.add_apply, add_assoc]
  · intro k id
    rw [h'.left, h.left, Pi.add_apply]
    split <;> ring

/-- Only the rolls about a container changed. -/
theorem Moved.rolls {w₁ : World} {loot : ActiveLootContainer} (hgoods : w₁.goods = w.goods)
    (hloot : ∀ id, (loot.itemList.count id : Int) = w.left key id) :
    Moved im key 0 w (w₁.setContainer key loot) := by
  have hmoved : Moved im key 0 w w₁ := .of_goods key hgoods
  apply Moved.setContainer hmoved.held (Prod.mk.inj hgoods).2
  simpa using hloot

/-- One player got what the container lost. -/
theorem Moved.delivery {w₁ : World} {loot : ActiveLootContainer} {id : Int}
    {c : CreatureInstance} {inv : InventoryManager} (hc : w.getCreature id = some c)
    (hgoods : w₁.goods = (w.setInventory id inv).goods)
    (hinv : ∀ item, inv.quantity im item = c.inventory.quantity im item + d item)
    (hloot : ∀ item, (loot.itemList.count item : Int) = w.left key item - d item) :
    Moved im key d w (w₁.setContainer key loot) := by
  obtain ⟨hinvs, hlist⟩ := Prod.mk.inj hgoods
  refine Moved.setContainer (fun item => ?_) hlist hloot
  have hheld := w.held_setInventory im hc inv item
  rw [hinv item, add_sub_cancel_left] at hheld
  rw [← hheld]
  unfold World.held
  rw [hinvs]

/-- An empty container can go after the move. -/
theorem Moved.removeCreature (h : Moved im key d w w') (hempty : ∀ id, w'.left key id = 0) :
    Moved im key d w (w'.removeCreature key) := by
  constructor
  · intro id
    rw [← h.held id]
    unfold World.held
    rw [inventories_removeCreature]
  · intro k id
    rw [left_removeCreature w' hempty, h.left]

/-- A refused `AddItem_Ex` leaves what is held as it is. -/
theorem quantity_of_refused {inv inv' : InventoryManager} {itemID : Int} {now : Nat}
    (h : inv.addItemEx im now invContainer itemID 1 = (none, inv')) (id : Int) :
    inv'.quantity im id = inv.quantity im id := by
  obtain ⟨e, rfl⟩ := InventoryManager.addItemEx_none h
  rfl

/-- An accepted `AddItem_Ex` hands out one copy. -/
theorem quantity_of_accepted {inv inv' : InventoryManager} {itemID : Int} {now i : Nat}
    (h : inv.addItemEx im now invContainer itemID 1 = (some i, inv')) (id : Int) :
    inv'.quantity im id = inv.quantity im id + if itemID = id then 1 else 0 := by
  have hlot : InventoryManager.lotSize im itemID 1 = 1 := by
    unfold InventoryManager.lotSize
    split
    · split <;> rfl
    · rfl
  have hq := InventoryManager.quantity_addItemEx (by rw [hlot]) h id
  rwa [hlot] at hq

end World

namespace Looting

variable (s : Looting)

@[simp] theorem tagItem_loot (itemId creatureId lootCreatureId : Int) :
    (s.tagItem itemId creatureId lootCreatureId).loot = s.loot := rfl

@[simp] theorem resetLoot_itemList (itemId : Int) :
    (s.resetLoot itemId).loot.itemList = s.loot.itemList := rfl

@[simp] theorem clearLoot_itemList : s.clearLoot.loot.itemList = s.loot.itemList := rfl

theorem foldl_tagItem_loot (ms : List PartyMember) (itemId lootCreatureId : Int) :
    (ms.foldl (fun s m => s.tagItem itemId m.mCreatureID lootCreatureId) s).loot = s.loot := by
  induction ms generalizing s with
  | nil => rfl
  | cons m rest ih => rw [List.foldl_cons, ih, tagItem_loot]

/-- An offer tags the item; the container keeps it. -/
theorem offerLoot_itemList {s s' : Looting} {mode receivingID itemID CID : Int}
    {boxRange : Int → Option Int} {e : QueryErrorMsg}
    (h : s.offerLoot mode receivingID itemID CID boxRange = some (e, s')) :
    s'.loot.itemList = s.loot.itemList := by
  unfold offerLoot at h
  split at h
  · obtain ⟨robin, -, heq⟩ := Option.map_eq_some_iff.mp h
    rw [← (Prod.mk.inj heq).2, tagItem_loot]
  · split at h
    · split at h
      · rw [← (Prod.mk.inj (Option.some.inj h)).2, tagItem_loot]
      · rw [← (Prod.mk.inj (Option.some.inj h)).2]
    · dsimp only at h
      split at h
      · rw [← (Prod.mk.inj (Option.some.inj h)).2, tagItem_loot, foldl_tagItem_loot]
      · rw [← (Prod.mk.inj (Option.some.inj h)).2, foldl_tagItem_loot]

end Looting

namespace World

variable {im : ItemManager} {now : Nat} {w w' : World} {key : Int × Int}

/-- Taking an item moves at most that item. -/
theorem lootDirectly_moved {c : CreatureInstance} {loot : ActiveLootContainer} {itemID : Int}
    {conIndex : Nat} (hc : w.getCreature c.creatureID = some c)
    (hloot : w.creatureList key = some loot) (hitem : loot.hasItem itemID = some conIndex) :
    ∃ d, Moved im key d w (w.lootDirectly im now c key loot itemID conIndex).2 := by
  unfold lootDirectly
  split
  · exact ⟨0, .of_goods key rfl⟩
  · split
    · rename_i inv hadd
      refine ⟨0, ?_, fun k id => by simp; rfl⟩
      intro id
      rw [held_setInventory im w hc, quantity_of_refused hadd]
      simp
    · rename_i i inv hadd
      refine ⟨fun id => if itemID = id then 1 else 0, ?_⟩
      have hmoved : Moved im key (fun id => if itemID = id then 1 else 0) w
          ((w.setInventory c.creatureID inv).setContainer key (loot.removeItem conIndex)) := by
        apply Moved.delivery hc rfl (quantity_of_accepted hadd)
        intro id
        rw [w.left_eq hloot, loot.count_removeItem hitem]
      dsimp only
      split
      · rename_i hempty
        apply hmoved.removeCreature
        intro id
        rw [left_setContainer, List.isEmpty_iff.mp hempty]
        simp
      · exact hmoved

/-- `loot.item` moves items from the corpse it names only. -/
theorem lootItem_moved {creatureID CID itemID : Int} {boxRange : Int → Option Int}
    {r : QueryErrorMsg} (h : w.lootItem im now creatureID CID itemID boxRange = some (r, w')) :
    ∃ c, w.getCreature creatureID = some c ∧ ∃ d, Moved im (c.actInst, CID) d w w' := by
  simp only [lootItem, Option.bind_eq_some_iff] at h
  obtain ⟨c, hc, lootable, -, h⟩ := h
  refine ⟨c, hc, ?_⟩
  have hid := w.creatureID_of_getCreature hc
  have hsame {r' : QueryErrorMsg} (heq : some (r', w) = some (r, w')) :
      ∃ d, Moved im (c.actInst, CID) d w w' := by
    obtain ⟨-, rfl⟩ := Prod.mk.inj (Option.some.inj heq)
    exact ⟨0, .of_goods _ rfl⟩
  split at h
  · exact hsame h
  · split at h
    · exact hsame h
    · rename_i loot hloot
      have hlist : w.creatureList (c.actInst, CID) = some loot := by
        unfold getContainer at hloot
        split at hloot
        · cases hloot
        · exact hloot
      split at h
      · exact hsame h
      · split at h
        · exact hsame h
        · rename_i conIndex hitem
          have hdirect (heq : some (w.lootDirectly im now c (c.actInst, CID) loot itemID conIndex) =
              some (r, w')) : ∃ d, Moved im (c.actInst, CID) d w w' := by
            have hmoved : ∃ d, Moved im (c.actInst, CID) d w
                (w.lootDirectly im now c (c.actInst, CID) loot itemID conIndex).2 :=
              lootDirectly_moved (hid ▸ hc) hlist hitem
            rwa [Option.some.inj heq] at hmoved
          split at h
          · exact hdirect h
          · split at h
            · exact hsame h
            · split at h
              · exact hdirect h
              · simp only [lootOffered, Option.map_eq_some_iff, Prod.mk.injEq] at h
                obtain ⟨⟨e, s⟩, hoffer, -, rfl⟩ := h
                refine ⟨0, Moved.rolls rfl fun id => ?_⟩
                rw [w.left_eq hlist, Looting.offerLoot_itemList hoffer]

/-! ### Awards -/

/-- The copies a container loses when one of an item is taken out. -/
def copyOf (itemID id : Int) : Int := if itemID = id then 1 else 0

/-- Whether a player can take an item: there is a free slot, and `AddItem_Ex` accepts it. -/
def Receives (im : ItemManager) (now : Nat) (c : CreatureInstance) (itemID : Int) : Prop :=
  (c.inventory.getFreeSlot invContainer).isSome ∧
    (c.inventory.addItemEx im now invContainer itemID 1).1.isSome

instance (im : ItemManager) (now : Nat) (c : CreatureInstance) (itemID : Int) :
    Decidable (Receives im now c itemID) := inferInstanceAs (Decidable (_ ∧ _))

/-- The item is where the roll says it is: the winner's tag is for it, and the container
still lists it. -/
def Listed (s : Looting) (lootTag : LootTag) (c : CreatureInstance) : Prop :=
  (s.party.getTag lootTag.mItemId c.creatureID).mItemId = lootTag.mItemId ∧
    lootTag.mItemId ∈ s.loot.itemList

instance (s : Looting) (lootTag : LootTag) (c : CreatureInstance) :
    Decidable (Listed s lootTag c) := inferInstanceAs (Decidable (_ ∧ _))

/-- Closing an award takes out the copy the winner got. -/
theorem closeAward_moved {s : Looting} {lootTag : LootTag} {c : CreatureInstance}
    {inv : InventoryManager} (hc : w.getCreature c.creatureID = some c)
    (hloot : ∀ id, (s.loot.itemList.count id : Int) = w.left key id)
    (hinv : ∀ id, inv.quantity im id = c.inventory.quantity im id + copyOf lootTag.mItemId id)
    (hmem : lootTag.mItemId ∈ s.loot.itemList) :
    Moved im key (copyOf lootTag.mItemId) w
      ((w.setInventory c.creatureID inv).closeAward key s lootTag) := by
  obtain ⟨conIndex, hitem⟩ := Option.isSome_iff_exists.mp ((s.loot.hasItem_isSome _).mpr hmem)
  have hcount (id : Int) : ((s.loot.removeItem conIndex).itemList.count id : Int) =
      w.left key id - copyOf lootTag.mItemId id := by
    rw [s.loot.count_removeItem hitem, hloot, copyOf]
  unfold closeAward
  simp only [hitem]
  split
  · rename_i hempty
    refine Moved.removeCreature (Moved.delivery hc rfl hinv hcount) fun id => ?_
    unfold putLooting
    rw [left_setContainer, if_pos rfl, Looting.clearLoot_itemList, List.isEmpty_iff.mp hempty]
    rfl
  · exact Moved.delivery hc rfl hinv hcount

/-- An award moves items from the container to the winner, when the item is listed or the
winner cannot take it. -/
theorem award_moved {s : Looting} {lootTag : LootTag} {c : CreatureInstance}
    (hc : w.getCreature c.creatureID = some c)
    (hloot : ∀ id, (s.loot.itemList.count id : Int) = w.left key id)
    (hlisted : Receives im now c (s.party.getTag lootTag.mItemId c.creatureID).mItemId →
      Listed s lootTag c) :
    ∃ d, Moved im key d w (w.award im now key s lootTag c) := by
  unfold award
  dsimp only
  split
  · exact ⟨0, Moved.rolls rfl hloot⟩
  · rename_i slot hfree
    split
    · rename_i inv hadd
      refine ⟨0, Moved.delivery hc rfl (fun id => ?_) fun id => ?_⟩
      · rw [quantity_of_refused hadd, Pi.zero_apply, add_zero]
      · rw [Looting.resetLoot_itemList, hloot, Pi.zero_apply, sub_zero]
    · rename_i i inv hadd
      obtain ⟨htag, hmem⟩ := hlisted ⟨by rw [hfree]; rfl, by rw [hadd]; rfl⟩
      rw [htag] at hadd
      exact ⟨_, closeAward_moved hc hloot (quantity_of_accepted hadd) hmem⟩

/-- Offering the item to the others keeps it where it is. -/
theorem offerRest_moved {s : Looting} {creatureID : Int} {lootTag : LootTag}
    {boxRange : Int → Option Int} (hloot : ∀ id, (s.loot.itemList.count id : Int) = w.left key id)
    (h : w.offerRest key s creatureID lootTag boxRange = some w') : Moved im key 0 w w' := by
  simp only [offerRest, Option.map_eq_some_iff] at h
  obtain ⟨⟨e, s'⟩, hoffer, rfl⟩ := h
  have hitems := Looting.offerLoot_itemList hoffer
  refine Moved.rolls rfl fun id => ?_
  rw [← hloot]
  split
  · rw [Looting.resetLoot_itemList, hitems]
    simp
  · rw [hitems]
    simp

/-- Looking at a roll moves items from its container only, when an award it leads to is
listed. -/
theorem checkIfLootReadyToDistribute_moved {s : Looting} {creatureID : Int} {lootTag : LootTag}
    {rolled : Int → Int} {boxRange : Int → Option Int}
    (hloot : ∀ id, (s.loot.itemList.count id : Int) = w.left key id)
    (hlisted : ∀ winnerID c,
      distribution im s.party s.loot creatureID lootTag.mItemId rolled = some (.award winnerID) →
      w.getCreature winnerID = some c →
      Receives im now c (s.party.getTag lootTag.mItemId c.creatureID).mItemId →
      Listed s lootTag c)
    (h : w.checkIfLootReadyToDistribute im now key s creatureID lootTag rolled boxRange =
      some w') : ∃ d, Moved im key d w w' := by
  simp only [checkIfLootReadyToDistribute, Option.bind_eq_some_iff] at h
  obtain ⟨decision, hd, h⟩ := h
  cases decision with
  | notReady =>
      obtain rfl := Option.some.inj h
      exact ⟨0, Moved.rolls rfl hloot⟩
  | offerRest => exact ⟨0, offerRest_moved hloot h⟩
  | nobody =>
      obtain rfl := Option.some.inj h
      exact ⟨0, Moved.rolls rfl hloot⟩
  | award winnerID =>
      obtain ⟨c, hc, rfl⟩ := Option.map_eq_some_iff.mp h
      have hid := w.creatureID_of_getCreature hc
      exact award_moved (hid ▸ hc) hloot (hlisted winnerID c hd hc)

/-- The container a choice is about. -/
def chosenKey (w : World) (creatureID lootTag : Int) : Option (Int × Int) :=
  (w.getCreature creatureID).bind fun c =>
    (w.getPartyByID c.partyID).map fun party =>
      (c.actInst, (touchTag party lootTag).1.mLootCreatureId)

/-- What recording a choice leaves behind: the choice stands in the container of the tag,
and no item has moved. -/
theorem recordChoice_ok {creatureID lootTag : Int} {choice : Option LootChoice} {ch : Chosen}
    (h : w.recordChoice creatureID lootTag choice = some (.ok ch)) :
    w.chosenKey creatureID lootTag = some ch.key ∧ Moved im ch.key 0 w ch.world ∧
      ∀ id, (ch.looting.loot.itemList.count id : Int) = ch.world.left ch.key id := by
  simp only [recordChoice, Option.map_eq_some_iff] at h
  obtain ⟨c, hc, h⟩ := h
  split at h
  · cases h
  · rename_i party hparty
    split at h
    · cases h
    · split at h
      · cases h
      · obtain rfl := Except.ok.inj h
        refine ⟨by simp [chosenKey, hc, hparty], Moved.rolls rfl fun id => ?_, fun id => ?_⟩
        · unfold World.left setParty
          cases w.creatureList (c.actInst, (touchTag party lootTag).1.mLootCreatureId) <;> rfl
        · rw [left_setContainer, if_pos rfl]
          cases choice with
          | none => rfl
          | some choice => simp

/-- A choice that was not recorded moves nothing. -/
theorem recordChoice_error {creatureID lootTag : Int} {choice : Option LootChoice}
    {r : QueryErrorMsg} (h : w.recordChoice creatureID lootTag choice = some (.error (r, w'))) :
    ∃ key, Moved im key 0 w w' := by
  simp only [recordChoice, Option.map_eq_some_iff] at h
  obtain ⟨c, -, h⟩ := h
  split at h
  · obtain ⟨-, rfl⟩ := Prod.mk.inj (Except.error.inj h)
    exact ⟨(0, 0), .of_goods _ rfl⟩
  · rename_i party hparty
    split at h
    · obtain ⟨-, rfl⟩ := Prod.mk.inj (Except.error.inj h)
      exact ⟨(0, 0), .of_goods _ rfl⟩
    · split at h
      · obtain ⟨-, rfl⟩ := Prod.mk.inj (Except.error.inj h)
        refine ⟨_, Moved.rolls rfl fun id => ?_⟩
        unfold World.left setParty
        cases w.creatureList (c.actInst, (touchTag party lootTag).1.mLootCreatureId) <;> rfl
      · cases h

end World

/-! ### Runs -/

/-- The container a query is about. -/
def target (w : World) : LootEvent → Option (Int × Int)
  | .item _ creatureID CID _ _ => (w.getCreature creatureID).map fun c => (c.actInst, CID)
  | .choice _ creatureID lootTag _ _ _ => w.chosenKey creatureID lootTag
  | _ => none

/-- The award a choice leads to: the recorded choice and the winner. -/
def awardOf (im : ItemManager) (w : World) (creatureID lootTag : Int)
    (choice : Option LootChoice) (rolled : Int → Int) :
    Option (World.Chosen × CreatureInstance) :=
  (w.recordChoice creatureID lootTag choice).bind fun
    | .error _ => none
    | .ok ch =>
        (World.distribution im ch.looting.party ch.looting.loot creatureID ch.lootTag.mItemId
          rolled).bind fun
          | .award winnerID => (ch.world.getCreature winnerID).map (ch, ·)
          | _ => none

/-- Every award the winner can take is of a listed item. -/
def AwardsListed (im : ItemManager) (w : World) : LootEvent → Prop
  | .choice now creatureID lootTag choice rolled _ =>
      ∀ a ∈ awardOf im w creatureID lootTag choice rolled,
        World.Receives im now a.2
            (a.1.looting.party.getTag a.1.lootTag.mItemId a.2.creatureID).mItemId →
          World.Listed a.1.looting a.1.lootTag a.2
  | _ => True

instance (im : ItemManager) (w : World) : (ev : LootEvent) → Decidable (AwardsListed im w ev)
  | .choice now creatureID lootTag choice rolled _ =>
      inferInstanceAs (Decidable (∀ a ∈ awardOf im w creatureID lootTag choice rolled,
        World.Receives im now a.2
            (a.1.looting.party.getTag a.1.lootTag.mItemId a.2.creatureID).mItemId →
          World.Listed a.1.looting a.1.lootTag a.2))
  | .item .. | .acceptInvite .. | .quit .. | .kick .. | .setLeader .. | .lootMode ..
  | .lootFlags .. | .removeReferences .. | .updateReferences .. =>
      inferInstanceAs (Decidable True)

variable {im : ItemManager} {w w' : World} {ev : LootEvent}

/-- One query moves items only out of the container it is about. -/
theorem step_moved (hs : step im w ev = some w') (hok : AwardsListed im w ev) :
    ∃ key d, World.Moved im key d w w' ∧ (target w ev = some key ∨ d = 0) := by
  have hparty (hgoods : w'.goods = w.goods) :
      ∃ key d, World.Moved im key d w w' ∧ (target w ev = some key ∨ d = 0) :=
    ⟨(0, 0), 0, .of_goods _ hgoods, .inr rfl⟩
  cases ev with
  | item now creatureID CID itemID boxRange =>
      obtain ⟨r, h, rfl⟩ := Option.map_eq_some_iff.mp hs
      obtain ⟨c, hc, d, hd⟩ := World.lootItem_moved h
      exact ⟨_, d, hd, .inl (by simp [target, hc])⟩
  | choice now creatureID lootTag choice rolled boxRange =>
      obtain ⟨r, h, rfl⟩ := Option.map_eq_some_iff.mp hs
      obtain ⟨recorded, hrec, h⟩ := Option.bind_eq_some_iff.mp h
      cases recorded with
      | error e =>
          obtain rfl := Option.some.inj h
          obtain ⟨key, hmoved⟩ := World.recordChoice_error hrec
          exact ⟨key, 0, hmoved, .inr rfl⟩
      | ok ch =>
          obtain ⟨w₁, hcheck, rfl⟩ := Option.map_eq_some_iff.mp h
          obtain ⟨hkey, hmoved, hloot⟩ := World.recordChoice_ok hrec
          obtain ⟨d, hd⟩ := World.checkIfLootReadyToDistribute_moved hloot
            (fun winnerID c hdist hc => hok (ch, c) (by simp [awardOf, hrec, hdist, hc])) hcheck
          exact ⟨ch.key, 0 + d, hmoved.trans hd, .inl hkey⟩
  | acceptInvite memberID leaderDefID =>
      exact hparty (Option.some.inj hs ▸ w.goods_acceptInvite memberID leaderDefID)
  | quit creatureID => exact hparty (Option.some.inj hs ▸ w.goods_doQuit creatureID)
  | kick creatureID memberID stale =>
      exact hparty (Option.some.inj hs ▸ w.goods_doKick creatureID memberID stale)
  | setLeader creatureID newLeaderID =>
      exact hparty (Option.some.inj hs ▸ w.goods_modifyParty creatureID _)
  | lootMode creatureID mode =>
      exact hparty (Option.some.inj hs ▸ w.goods_modifyParty creatureID _)
  | lootFlags creatureID needB4Greed mundane on =>
      exact hparty (Option.some.inj hs ▸ w.goods_modifyParty creatureID _)
  | removeReferences memberDefID disconnect => exact hparty (Option.some.inj hs ▸ rfl)
  | updateReferences creatureID newID actInst =>
      exact hparty (Option.some.inj hs ▸ w.goods_updatePlayerReferences creatureID newID actInst)

/-- What the players hold more of an item after a query. -/
def gain (im : ItemManager) (e : World × LootEvent) (id : Int) : Int :=
  ((step im e.1 e.2).map fun w' => w'.held im id - e.1.held im id).getD 0

/-- The copies of an item a run delivered from one container. -/
def delivered (im : ItemManager) (h : List (World × LootEvent)) (key : Int × Int) (id : Int) :
    Int :=
  (h.map fun e => if target e.1 e.2 = some key then gain im e id else 0).sum

theorem gain_of_moved {key : Int × Int} {d : Int → Int} (hs : step im w ev = some w')
    (hmoved : World.Moved im key d w w') (id : Int) : gain im (w, ev) id = d id := by
  unfold gain
  simp only [hs, Option.map_some, Option.getD_some, hmoved.held]
  ring

/-- When every award a winner can take is of a listed item, the copies of an item a run
delivered from a container and the copies left in it are those it started with, and no
other query delivers any. -/
theorem run_conserves_loot {w₀ : World} {h : List (World × LootEvent)}
    (run : Trace (· = w₀) (AwardsListed im) (step im) h w) :
    (∀ key id, delivered im h key id + w.left key id = w₀.left key id) ∧
      ∀ e ∈ h, target e.1 e.2 = none → ∀ id, gain im e id = 0 := by
  induction run with
  | start hw =>
      subst hw
      exact ⟨fun _ _ => zero_add _, fun e he => absurd he List.not_mem_nil⟩
  | @next h w ev w' _ hok hs ih =>
      obtain ⟨key, d, hmoved, htarget⟩ := step_moved hs hok
      constructor
      · intro k id
        have hleft := ih.1 k id
        have hnew : delivered im ((w, ev) :: h) k id =
            (if target w ev = some k then gain im (w, ev) id else 0) + delivered im h k id := by
          simp [delivered]
        have hlost : (if target w ev = some k then gain im (w, ev) id else 0) =
            if k = key then d id else 0 := by
          rw [gain_of_moved hs hmoved]
          rcases htarget with htarget | rfl
          · rw [htarget]
            simp only [Option.some.injEq, eq_comm]
          · simp
        rw [hnew, hlost, hmoved.left, ← hleft]
        ring
      · intro e he hnone id
        rcases List.mem_cons.mp he with rfl | he
        · rw [gain_of_moved hs hmoved]
          rcases htarget with htarget | rfl
          · rw [hnone] at htarget
            cases htarget
          · rfl
        · exact ih.2 e he hnone id

/-! A party of two rolls for a ring on a corpse that a third player may loot as well. -/

def ringItems : ItemManager := .ofList [{ mID := 100, mQualityLevel := 2 }]

def ringLooter (creatureID : Int) (partyID : Int) : CreatureInstance where
  creatureID := creatureID
  creatureDefID := creatureID + 1000
  partyID := partyID
  inventory := { maxContainerSlot := fun _ => 24 }

def ringParty : ActiveParty where
  mPartyID := 1
  mLeaderDefID := 1001
  mLeaderID := 1
  needB4Greed := true
  mMemberList :=
    [{ mCreatureDefID := 1001, mCreatureID := 1 }, { mCreatureDefID := 1002, mCreatureID := 2 }]

def ringWorld : World where
  mPartyList := [ringParty]
  nextPartyID := 2
  playerList := [ringLooter 1 1, ringLooter 2 1, ringLooter 3 0]
  creatureList := fun key =>
    if key = (0, 500) then
      some { creatureID := 500, lootableID := [1001, 1002, 1003], itemList := [100] }
    else none

def lootRing (creatureID : Int) : LootEvent := .item 0 creatureID 500 100 fun _ => some 0

def rollRing (creatureID lootTag : Int) (choice : LootChoice) : LootEvent :=
  .choice 0 creatureID lootTag (some choice) id fun _ => some 0

def ringRolled : List LootEvent :=
  [lootRing 1, rollRing 1 2 .need, rollRing 2 1 .pass, .quit 2]

theorem run_conserves_loot_ring :
    delivered ringItems (logAll (step ringItems) [] ringWorld ringRolled) (0, 500) 100 +
      ((runAll (step ringItems) ringWorld ringRolled).getD {}).left (0, 500) 100 =
        ringWorld.left (0, 500) 100 := by
  have start : Trace (· = ringWorld) (AwardsListed ringItems) (step ringItems) [] ringWorld :=
    .start rfl
  have run := start.runAll (by decide : OkAll _ _ ringWorld ringRolled)
    (eq_some_getD (by decide) {})
  exact (run_conserves_loot run).1 (0, 500) 100

def ringTaken : List LootEvent :=
  [lootRing 1, lootRing 3, rollRing 1 2 .need, rollRing 2 1 .need]

/-- A ring that the third player has taken is awarded to the winner of the roll as well. -/
theorem looted_ring_is_awarded :
    ∃ h w, Trace (· = ringWorld) (fun _ _ => True) (step ringItems) h w ∧
      delivered ringItems h (0, 500) 100 + w.left (0, 500) 100 ≠ ringWorld.left (0, 500) 100 := by
  have start : Trace (· = ringWorld) (fun _ _ => True) (step ringItems) [] ringWorld :=
    .start rfl
  have run := start.runAll (okAll_true ringWorld ringTaken) (eq_some_getD (by decide) {})
  exact ⟨_, _, run, by decide⟩

end Loot

end Iceee
