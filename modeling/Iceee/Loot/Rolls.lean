import Iceee.Loot.Conservation
import Iceee.Loot.Membership

/-!
# Rolls that are open

The rolls of a container are creature IDs. `Calm` is a change that leaves the members of all
parties alone and opens no rolls but those of newcomers; the loot queries are calm.
-/

namespace Iceee

open Lib

/-- A creature has chosen need or greed for an item. -/
def ActiveLootContainer.Rolled (loot : ActiveLootContainer) (itemID id : Int) : Prop :=
  id ∈ loot.needed itemID ∨ id ∈ loot.greeded itemID

/-- What a party knows of its members. -/
def ActiveParty.roster (party : ActiveParty) : Int × List PartyMember :=
  (party.mPartyID, party.mMemberList)

/-- The items on offer in a party are items. -/
def ActiveParty.TagsKnown (im : ItemManager) (party : ActiveParty) : Prop :=
  ∀ tag ∈ party.tags, tag.valid = true → (im.getPointerByID tag.mItemId).isSome

/-! ### Containers -/

namespace ActiveLootContainer

variable {loot : ActiveLootContainer} {itemID id : Int}

theorem mem_setInsert {x a : Int} {l : List Int} : x ∈ setInsert a l ↔ x = a ∨ x ∈ l := by
  unfold setInsert
  split
  · rename_i hmem
    constructor
    · exact .inr
    · rintro (rfl | hx)
      · exact hmem
      · exact hx
  · rw [List.mem_orderedInsert]

theorem Rolled.of_choose {choice : LootChoice} {i c : Int}
    (h : (loot.choose choice i c).Rolled itemID id) :
    loot.Rolled itemID id ∨ id = c ∧ (choice = .need ∨ choice = .greed) := by
  have hput (m : Int → List Int)
      (hm : id ∈ Function.update m i (setInsert c (m i)) itemID) : id ∈ m itemID ∨ id = c := by
    by_cases hi : itemID = i
    · subst hi
      rw [Function.update_self, mem_setInsert] at hm
      exact hm.symm
    · rw [Function.update_of_ne hi] at hm
      exact .inl hm
  cases choice with
  | need =>
      obtain hneed | hgreed := h
      · exact (hput loot.needed hneed).imp .inl fun heq => ⟨heq, .inl rfl⟩
      · exact .inl (.inr hgreed)
  | greed =>
      obtain hneed | hgreed := h
      · exact .inl (.inl hneed)
      · exact (hput loot.greeded hgreed).imp .inr fun heq => ⟨heq, .inr rfl⟩
  | pass => exact .inl h

theorem Rolled.of_removeCreatureRolls {i c : Int}
    (h : (loot.removeCreatureRolls i c).Rolled itemID id) : loot.Rolled itemID id := by
  have hremove (m : Int → List Int)
      (hm : id ∈ Function.update m i (if c = 0 then [] else (m i).erase c) itemID) :
      id ∈ m itemID := by
    by_cases hi : itemID = i
    · subst hi
      rw [Function.update_self] at hm
      split at hm
      · cases hm
      · exact List.mem_of_mem_erase hm
    · rwa [Function.update_of_ne hi] at hm
  exact h.imp (hremove loot.needed) (hremove loot.greeded)

theorem Rolled.of_setStage2 {i : Int} (h : (loot.setStage2 i).Rolled itemID id) :
    loot.Rolled itemID id := by
  unfold setStage2 at h
  split at h
  · exact h
  · exact h

end ActiveLootContainer

/-! ### Tags -/

namespace ActiveParty

variable {party : ActiveParty} {tag : LootTag}

theorem mem_tags_insert {lootTag : Int} {new : LootTag}
    (h : tag ∈ ({ party with lootTags := party.lootTags.insert lootTag new } : ActiveParty).tags) :
    tag = new ∨ tag ∈ party.tags := by
  obtain ⟨e, he, rfl⟩ := List.mem_map.mp h
  rw [AList.entries_insert, List.mem_cons] at he
  obtain rfl | he := he
  · exact .inl rfl
  · exact .inr (List.mem_map.mpr ⟨e, (List.kerase_sublist _ _).subset he, rfl⟩)

theorem mem_tags_removeTags {p : LootTag → Bool} (h : tag ∈ (party.removeTags p).tags) :
    tag ∈ party.tags := by
  obtain ⟨e, he, rfl⟩ := List.mem_map.mp h
  exact List.mem_map.mpr ⟨e, List.mem_of_mem_filter he, rfl⟩

end ActiveParty

namespace Loot

/-! ### What a query has in its hands -/

namespace Looting

variable {im : ItemManager} {s s' s'' : Looting}

/-- Neither members nor rolls are new, and what is offered is an item. -/
structure Quiet (im : ItemManager) (s s' : Looting) : Prop where
  roster : s'.party.roster = s.party.roster
  rolls : ∀ itemID id, s'.loot.Rolled itemID id → s.loot.Rolled itemID id
  tags : ∀ tag ∈ s'.party.tags, tag ∈ s.party.tags ∨ (im.getPointerByID tag.mItemId).isSome

theorem Quiet.refl (im : ItemManager) (s : Looting) : Quiet im s s where
  roster := rfl
  rolls := fun _ _ => id
  tags := fun _ => .inl

theorem Quiet.trans (h : Quiet im s s') (h' : Quiet im s' s'') : Quiet im s s'' where
  roster := h'.roster.trans h.roster
  rolls := fun itemID id hid => h.rolls itemID id (h'.rolls itemID id hid)
  tags := fun tag htag => (h'.tags tag htag).elim (h.tags tag) .inr

theorem Quiet.tagItem {itemId : Int} (hitem : (im.getPointerByID itemId).isSome)
    (creatureId lootCreatureId : Int) : Quiet im s (s.tagItem itemId creatureId lootCreatureId) where
  roster := rfl
  rolls := fun _ _ => id
  tags := by
    intro tag htag
    obtain rfl | htag := ActiveParty.mem_tags_insert htag
    · exact .inr hitem
    · exact .inl htag

theorem Quiet.foldl_tagItem {itemId : Int} (hitem : (im.getPointerByID itemId).isSome)
    (ms : List PartyMember) (lootCreatureId : Int) :
    Quiet im s (ms.foldl (fun s m => s.tagItem itemId m.mCreatureID lootCreatureId) s) := by
  induction ms generalizing s with
  | nil => exact .refl im s
  | cons m rest ih => exact (Quiet.tagItem hitem m.mCreatureID lootCreatureId).trans ih

theorem Quiet.resetLoot (itemId : Int) : Quiet im s (s.resetLoot itemId) where
  roster := rfl
  rolls := fun _ _ => ActiveLootContainer.Rolled.of_removeCreatureRolls
  tags := fun _ htag => .inl (ActiveParty.mem_tags_removeTags htag)

theorem Quiet.clearLoot : Quiet im s s.clearLoot where
  roster := rfl
  rolls := by
    rintro itemID id (hid | hid)
    · cases hid
    · cases hid
  tags := fun _ htag => .inl (ActiveParty.mem_tags_removeTags htag)

theorem Quiet.offerLoot {mode receivingID itemID CID : Int} {boxRange : Int → Option Int}
    {e : QueryErrorMsg} (hitem : (im.getPointerByID itemID).isSome)
    (h : s.offerLoot mode receivingID itemID CID boxRange = some (e, s')) : Quiet im s s' := by
  unfold Looting.offerLoot at h
  split at h
  · obtain ⟨robin, -, heq⟩ := Option.map_eq_some_iff.mp h
    rw [← (Prod.mk.inj heq).2]
    apply Quiet.trans ?_ (Quiet.tagItem hitem _ _)
    exact ⟨rfl, fun _ _ => id, fun _ => .inl⟩
  · split at h
    · split at h
      · rw [← (Prod.mk.inj (Option.some.inj h)).2]
        exact Quiet.tagItem hitem _ _
      · rw [← (Prod.mk.inj (Option.some.inj h)).2]
        exact .refl im s
    · have hall := Quiet.foldl_tagItem (s := s) hitem (s.receivers receivingID boxRange) CID
      dsimp only at h
      split at h
      · rw [← (Prod.mk.inj (Option.some.inj h)).2]
        exact hall.trans (Quiet.tagItem hitem _ _)
      · rw [← (Prod.mk.inj (Option.some.inj h)).2]
        exact hall

end Looting

/-! ### The world -/

namespace World

variable {im : ItemManager} {w w' w'' : World} {party : ActiveParty} {key : Int × Int}
  {N : Int → Prop}

/-- A creature has a roll open about some item. -/
def HasRolled (w : World) (id : Int) : Prop :=
  ∃ key loot itemID, w.creatureList key = some loot ∧ loot.Rolled itemID id

/-- A creature is listed in some party. -/
def IsMember (w : World) (id : Int) : Prop :=
  ∃ party ∈ w.mPartyList, ∃ m ∈ party.mMemberList, m.mCreatureID = id

/-- All the entries of a creature are online. -/
def AllOnline (w : World) (id : Int) : Prop :=
  ∀ party ∈ w.mPartyList, ∀ m ∈ party.mMemberList, m.mCreatureID = id →
    m.isOnlineAndValid = true

/-- Only members who are online have rolls open. -/
structure RollsKept (im : ItemManager) (w : World) : Prop where
  keyed : w.Keyed
  listed : ∀ id, w.HasRolled id → w.IsMember id
  online : ∀ id, w.HasRolled id → w.AllOnline id
  known : ∀ party ∈ w.mPartyList, party.TagsKnown im

/-- The members stay, and only newcomers open a roll. -/
structure Calm (im : ItemManager) (N : Int → Prop) (w w' : World) : Prop where
  rosters : w'.mPartyList.map ActiveParty.roster = w.mPartyList.map ActiveParty.roster
  ids : w'.playerList.map CreatureInstance.creatureID =
    w.playerList.map CreatureInstance.creatureID
  next : w'.nextPartyID = w.nextPartyID
  rolls : ∀ id, w'.HasRolled id → w.HasRolled id ∨ N id
  known : (∀ party ∈ w.mPartyList, party.TagsKnown im) →
    ∀ party ∈ w'.mPartyList, party.TagsKnown im

theorem Calm.refl (im : ItemManager) (N : Int → Prop) (w : World) : Calm im N w w where
  rosters := rfl
  ids := rfl
  next := rfl
  rolls := fun _ => .inl
  known := id

theorem Calm.trans (h : Calm im N w w') (h' : Calm im N w' w'') : Calm im N w w'' where
  rosters := h'.rosters.trans h.rosters
  ids := h'.ids.trans h.ids
  next := h'.next.trans h.next
  rolls := fun id hid => (h'.rolls id hid).elim (h.rolls id) .inr
  known := h'.known ∘ h.known

/-- The party of a roster. -/
theorem mem_of_rosters {l l' : List ActiveParty}
    (h : l'.map ActiveParty.roster = l.map ActiveParty.roster) {p : ActiveParty} (hp : p ∈ l') :
    ∃ q ∈ l, q.mPartyID = p.mPartyID ∧ q.mMemberList = p.mMemberList := by
  have hmem : p.roster ∈ l.map ActiveParty.roster := h ▸ List.mem_map_of_mem hp
  obtain ⟨q, hq, heq⟩ := List.mem_map.mp hmem
  exact ⟨q, hq, Prod.mk.inj heq⟩

theorem Calm.keyed (h : Calm im N w w') (hk : w.Keyed) : w'.Keyed where
  players := by
    unfold NodupKeys
    rw [h.ids]
    exact hk.players
  parties := by
    have hids : w'.mPartyList.map ActiveParty.mPartyID = w.mPartyList.map ActiveParty.mPartyID := by
      calc
        w'.mPartyList.map ActiveParty.mPartyID =
            (w'.mPartyList.map ActiveParty.roster).map Prod.fst := by
          rw [List.map_map]
          rfl
        _ = (w.mPartyList.map ActiveParty.roster).map Prod.fst := by rw [h.rosters]
        _ = w.mPartyList.map ActiveParty.mPartyID := by
          rw [List.map_map]
          rfl
    unfold NodupKeys
    rw [hids]
    exact hk.parties
  below := by
    intro p hp
    obtain ⟨q, hq, hid, -⟩ := mem_of_rosters h.rosters hp
    rw [h.next, ← hid]
    exact hk.below q hq
  distinct := by
    intro p hp
    obtain ⟨q, hq, -, hlist⟩ := mem_of_rosters h.rosters hp
    rw [← hlist]
    exact hk.distinct q hq

/-- Calm changes keep the rolls with the members, if the newcomers are members. -/
theorem RollsKept.of_calm (h : RollsKept im w) (hcalm : Calm im N w w')
    (hnew : ∀ id, N id → w.IsMember id ∧ w.AllOnline id) : RollsKept im w' where
  keyed := hcalm.keyed h.keyed
  listed := by
    intro id hid
    have hmember : w.IsMember id := (hcalm.rolls id hid).elim (h.listed id) fun hn => (hnew id hn).1
    obtain ⟨p, hp, m, hm, hmid⟩ := hmember
    obtain ⟨q, hq, -, hlist⟩ := mem_of_rosters hcalm.rosters.symm hp
    exact ⟨q, hq, m, hlist ▸ hm, hmid⟩
  online := by
    intro id hid p hp m hm hmid
    have hall : w.AllOnline id := (hcalm.rolls id hid).elim (h.online id) fun hn => (hnew id hn).2
    obtain ⟨q, hq, -, hlist⟩ := mem_of_rosters hcalm.rosters hp
    exact hall q hq m (hlist ▸ hm) hmid
  known := hcalm.known h.known

/-- A party that is written back with its members. -/
theorem calm_setParty (hk : w.Keyed) {p : ActiveParty} (hparty : party ∈ w.mPartyList)
    (hroster : p.roster = party.roster)
    (htags : party.TagsKnown im → p.TagsKnown im) : Calm im N w (w.setParty p) where
  rosters := by
    obtain ⟨hid, -⟩ := Prod.mk.inj hroster
    have hset : (w.setParty p).mPartyList =
        w.mPartyList.map fun q => if q.mPartyID = p.mPartyID then p else q :=
      hk.parties.modify_findIdx _ _
    rw [hset, List.map_map]
    apply List.map_congr_left
    intro q hq
    dsimp only [Function.comp_apply]
    split
    · rename_i heq
      rw [hroster, List.inj_on_of_nodup_map hk.parties hq hparty (heq.trans hid)]
    · rfl
  ids := rfl
  next := rfl
  rolls := fun _ => .inl
  known := by
    intro hknown q hq
    obtain ⟨hq, -⟩ | ⟨-, rfl⟩ := (mem_setParty hk).mp hq
    · exact hknown q hq
    · exact htags (hknown party hparty)

theorem calm_setContainer {loot : ActiveLootContainer}
    (hrolls : ∀ itemID id, loot.Rolled itemID id → w.HasRolled id ∨ N id) :
    Calm im N w (w.setContainer key loot) where
  rosters := rfl
  ids := rfl
  next := rfl
  rolls := by
    rintro id ⟨k, loot', itemID, hloot', hid⟩
    by_cases hkey : k = key
    · subst hkey
      obtain rfl : loot = loot' := by simpa [setContainer] using hloot'
      exact hrolls itemID id hid
    · have hsame : (w.setContainer key loot).creatureList k = w.creatureList k :=
        Function.update_of_ne hkey _ _
      exact .inl ⟨k, loot', itemID, hsame ▸ hloot', hid⟩
  known := id

theorem calm_removeCreature (key : Int × Int) : Calm im N w (w.removeCreature key) := by
  unfold removeCreature
  split
  · refine ⟨rfl, rfl, rfl, ?_, id⟩
    rintro id ⟨k, loot, itemID, hloot, hid⟩
    by_cases hkey : k = key
    · subst hkey
      simp at hloot
    · have hsame : Function.update w.creatureList key none k = w.creatureList k :=
        Function.update_of_ne hkey _ _
      exact .inl ⟨k, loot, itemID, hsame ▸ hloot, hid⟩
  · exact .refl im N w

theorem calm_setInventory (creatureID : Int) (inv : InventoryManager) :
    Calm im N w (w.setInventory creatureID inv) where
  rosters := rfl
  ids := map_key_modify fun _ => rfl
  next := rfl
  rolls := fun _ => .inl
  known := id

/-- Letting go of the pointers of a query. -/
theorem calm_putLooting (hk : w.Keyed) {s s' : Looting} (hparty : s.party ∈ w.mPartyList)
    (hrolls : ∀ itemID id, s.loot.Rolled itemID id → w.HasRolled id ∨ N id)
    (hquiet : Looting.Quiet im s s') : Calm im N w (w.putLooting key s') := by
  let w₁ : World := { w with lootSeq := s'.lootSeq }
  have hseq : Calm im N w w₁ := ⟨rfl, rfl, rfl, fun _ => .inl, id⟩
  have hset : Calm im N w₁ (w₁.setParty s'.party) := by
    refine calm_setParty (hseq.keyed hk) hparty hquiet.roster ?_
    intro hknown tag htag hvalid
    exact (hquiet.tags tag htag).elim (fun htag => hknown tag htag hvalid) id
  apply (hseq.trans hset).trans
  apply calm_setContainer
  intro itemID id hid
  exact hrolls itemID id (hquiet.rolls itemID id hid)

/-! ### Queries are calm -/

theorem hasRolled_of_container {loot : ActiveLootContainer} {itemID id : Int}
    (hloot : w.creatureList key = some loot) (hid : loot.Rolled itemID id) : w.HasRolled id :=
  ⟨key, loot, itemID, hloot, hid⟩

/-- A container that was not there has no rolls. -/
theorem hasRolled_getD {itemID id : Int} (hid : ((w.creatureList key).getD {}).Rolled itemID id) :
    w.HasRolled id := by
  cases hloot : w.creatureList key with
  | none =>
      rw [hloot] at hid
      obtain hid | hid := hid
      · cases hid
      · cases hid
  | some loot =>
      rw [hloot] at hid
      exact hasRolled_of_container hloot hid

theorem calm_lootDirectly {now : Nat} {c : CreatureInstance} {loot : ActiveLootContainer}
    {itemID : Int} {conIndex : Nat} (hloot : w.creatureList key = some loot) :
    Calm im N w (w.lootDirectly im now c key loot itemID conIndex).2 := by
  unfold lootDirectly
  split
  · exact .refl im N w
  · split
    · exact calm_setInventory _ _
    · rename_i inv _
      have hinv : Calm im N w (w.setInventory c.creatureID inv) := calm_setInventory _ _
      have hset : Calm im N (w.setInventory c.creatureID inv)
          ((w.setInventory c.creatureID inv).setContainer key (loot.removeItem conIndex)) :=
        calm_setContainer fun itemID id hid => .inl (hasRolled_of_container hloot hid)
      dsimp only
      split
      · exact (hinv.trans hset).trans (calm_removeCreature key)
      · exact hinv.trans hset

theorem calm_lootOffered (hk : w.Keyed) {c : CreatureInstance} {loot : ActiveLootContainer}
    {itemID : Int} {boxRange : Int → Option Int} {r : QueryErrorMsg × World}
    (hloot : w.creatureList key = some loot) (hparty : party ∈ w.mPartyList)
    (hitem : (im.getPointerByID itemID).isSome)
    (h : w.lootOffered c key loot party itemID boxRange = some r) : Calm im N w r.2 := by
  obtain ⟨⟨e, s'⟩, hoffer, rfl⟩ := Option.map_eq_some_iff.mp h
  apply calm_putLooting hk hparty _ (Looting.Quiet.offerLoot hitem hoffer)
  intro itemID id hid
  exact .inl (hasRolled_of_container hloot hid)

theorem calm_lootItem (hk : w.Keyed) {now : Nat} {creatureID CID itemID : Int}
    {boxRange : Int → Option Int} {r : QueryErrorMsg × World}
    (h : w.lootItem im now creatureID CID itemID boxRange = some r) : Calm im N w r.2 := by
  unfold lootItem at h
  obtain ⟨c, -, h⟩ := Option.bind_eq_some_iff.mp h
  obtain ⟨lootable, hlootable, h⟩ := Option.bind_eq_some_iff.mp h
  dsimp only at h
  split at h
  · exact Option.some.inj h ▸ .refl im N w
  · split at h
    · exact Option.some.inj h ▸ .refl im N w
    · rename_i loot hcontainer
      have hloot : w.creatureList (c.actInst, CID) = some loot := by
        unfold getContainer at hcontainer
        split at hcontainer
        · cases hcontainer
        · exact hcontainer
      split at h
      · exact Option.some.inj h ▸ .refl im N w
      · split at h
        · exact Option.some.inj h ▸ .refl im N w
        · split at h
          · exact Option.some.inj h ▸ calm_lootDirectly hloot
          · rename_i party hparty
            split at h
            · exact Option.some.inj h ▸ .refl im N w
            · split at h
              · exact Option.some.inj h ▸ calm_lootDirectly hloot
              · obtain ⟨hsome, -⟩ := Option.filter_eq_some_iff.mp hparty
                rw [hsome] at hlootable
                obtain ⟨itemDef, hdef, -⟩ := Option.map_eq_some_iff.mp hlootable
                exact calm_lootOffered hk hloot ((getPartyByID_eq_some hk).mp hsome).1
                  (by rw [hdef]; rfl) h

section Choice

variable {s : Looting} {lootTag : LootTag}

theorem calm_closeAward (hk : w.Keyed) (hparty : s.party ∈ w.mPartyList)
    (hrolls : ∀ itemID id, s.loot.Rolled itemID id → w.HasRolled id ∨ N id) :
    Calm im N w (w.closeAward key s lootTag) := by
  unfold closeAward
  split
  · exact calm_putLooting hk hparty hrolls (.refl im s)
  · rename_i conIndex _
    have htaken : Looting.Quiet im s { s with loot := s.loot.removeItem conIndex } :=
      ⟨rfl, fun _ _ => id, fun _ => .inl⟩
    have hreset := htaken.trans (Looting.Quiet.resetLoot lootTag.mItemId)
    dsimp only
    split
    · exact (calm_putLooting hk hparty hrolls (hreset.trans .clearLoot)).trans
        (calm_removeCreature key)
    · exact calm_putLooting hk hparty hrolls hreset

theorem calm_award {now : Nat} (hk : w.Keyed) (hparty : s.party ∈ w.mPartyList)
    (hrolls : ∀ itemID id, s.loot.Rolled itemID id → w.HasRolled id ∨ N id)
    (c : CreatureInstance) : Calm im N w (w.award im now key s lootTag c) := by
  unfold award
  dsimp only
  split
  · exact calm_putLooting hk hparty hrolls (.resetLoot _)
  · split
    · rename_i inv _
      have hinv : Calm im N w (w.setInventory c.creatureID inv) := calm_setInventory _ _
      exact hinv.trans (calm_putLooting (hinv.keyed hk) hparty hrolls (.resetLoot _))
    · rename_i inv _
      have hinv : Calm im N w (w.setInventory c.creatureID inv) := calm_setInventory _ _
      exact hinv.trans (calm_closeAward (hinv.keyed hk) hparty hrolls)

theorem calm_offerRest (hk : w.Keyed) (hparty : s.party ∈ w.mPartyList)
    (hrolls : ∀ itemID id, s.loot.Rolled itemID id → w.HasRolled id ∨ N id)
    (hitem : (im.getPointerByID lootTag.mItemId).isSome) {creatureID : Int}
    {boxRange : Int → Option Int}
    (h : w.offerRest key s creatureID lootTag boxRange = some w') : Calm im N w w' := by
  unfold offerRest at h
  obtain ⟨⟨e, s'⟩, hoffer, rfl⟩ := Option.map_eq_some_iff.mp h
  have hstage : Looting.Quiet im s
      { s with
        loot := (s.loot.setStage2 lootTag.mItemId).removeCreatureRolls lootTag.mItemId
          lootTag.mCreatureId
        party := s.party.removeCreatureTags lootTag.mItemId lootTag.mCreatureId } := by
    refine ⟨rfl, ?_, fun tag htag => .inl (ActiveParty.mem_tags_removeTags htag)⟩
    intro itemID id hid
    exact ActiveLootContainer.Rolled.of_setStage2
      (ActiveLootContainer.Rolled.of_removeCreatureRolls hid)
  have hoffered := hstage.trans (Looting.Quiet.offerLoot hitem hoffer)
  dsimp only
  split
  · exact calm_putLooting hk hparty hrolls (hoffered.trans (.resetLoot _))
  · exact calm_putLooting hk hparty hrolls hoffered

theorem calm_checkIfLootReadyToDistribute {now : Nat} (hk : w.Keyed)
    (hparty : s.party ∈ w.mPartyList)
    (hrolls : ∀ itemID id, s.loot.Rolled itemID id → w.HasRolled id ∨ N id)
    (hitem : (im.getPointerByID lootTag.mItemId).isSome) {creatureID : Int}
    {rolled : Int → Int} {boxRange : Int → Option Int}
    (h : w.checkIfLootReadyToDistribute im now key s creatureID lootTag rolled boxRange =
      some w') : Calm im N w w' := by
  unfold checkIfLootReadyToDistribute at h
  obtain ⟨decision, -, h⟩ := Option.bind_eq_some_iff.mp h
  cases decision with
  | notReady => exact Option.some.inj h ▸ calm_putLooting hk hparty hrolls (.refl im s)
  | offerRest => exact calm_offerRest hk hparty hrolls hitem h
  | nobody => exact Option.some.inj h ▸ calm_putLooting hk hparty hrolls (.resetLoot _)
  | award winnerID =>
      obtain ⟨c, -, rfl⟩ := Option.map_eq_some_iff.mp h
      exact calm_award hk hparty hrolls c

end Choice

end World

end Loot

end Iceee
