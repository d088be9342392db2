import Iceee.Loot.Rolls

/-!
# Who wins a roll

A roll is fair when nobody leaves while he has one open: then every creature that is looked
up is a member who is online, and the one with the highest roll gets the item. The rolls are
kept by creature ID in the container, and none of the ways out of a party looks there.
-/

namespace Iceee

open Lib

namespace Loot

/-! ### One decision -/

section Decision

variable {im : ItemManager} {party : ActiveParty} {loot : ActiveLootContainer}
  {rolled : Int → Int} {itemID id creatureID : Int} {ids : List Int}

/-- The creature is found among the members, and online. -/
def Present (party : ActiveParty) (id : Int) : Prop :=
  ∃ m, party.getMemberByID id = some m ∧ m.isOnlineAndValid = true

theorem Present.of_mem {m : PartyMember} (hm : m ∈ party.mMemberList) (hid : m.mCreatureID = id)
    (hall : ∀ m ∈ party.mMemberList, m.mCreatureID = id → m.isOnlineAndValid = true) :
    Present party id := by
  have hsome : (party.mMemberList.find? fun m => m.mCreatureID == id).isSome :=
    List.find?_isSome.mpr ⟨m, hm, beq_iff_eq.mpr hid⟩
  obtain ⟨m', hm'⟩ := Option.isSome_iff_exists.mp hsome
  have hid' : m'.mCreatureID = id := by simpa using List.find?_some hm'
  exact ⟨m', hm', hall m' (List.mem_of_find?_eq_some hm') hid'⟩

theorem Present.exists_mem (h : Present party id) :
    ∃ m ∈ party.mMemberList, m.mCreatureID = id ∧ m.isOnlineAndValid = true := by
  obtain ⟨m, hm, honline⟩ := h
  exact ⟨m, List.mem_of_find?_eq_some hm, by simpa using List.find?_some hm, honline⟩

/-- A member who is online points at his creature. -/
theorem creature_of_online {m : PartyMember} (hm : party.getMemberByID id = some m)
    (honline : m.isOnlineAndValid = true) : m.creature = some id := by
  have hid : m.mCreatureID = id := by simpa using List.find?_some hm
  have hptr : m.mCreaturePtr = true := PartyMember.mCreaturePtr_of_isOnlineAndValid honline
  unfold PartyMember.creature
  rw [if_pos hptr, hid]

/-- The one who leads a roll is somebody who has rolled. -/
theorem rollLoop_some (hall : ∀ id ∈ ids, Present party id) (m : PartyMember) (maxRoll : Int) :
    ∃ m', World.rollLoop party rolled ids (some m) maxRoll = some m' ∧
      (m' = m ∨ ∃ id ∈ ids, party.getMemberByID id = some m') := by
  induction ids generalizing m maxRoll with
  | nil => exact ⟨m, rfl, .inl rfl⟩
  | cons id rest ih =>
      obtain ⟨n, hn, honline⟩ := hall id List.mem_cons_self
      have hrest := fun id' hid' => hall id' (List.mem_cons_of_mem id hid')
      have hptr : n.mCreaturePtr = true := PartyMember.mCreaturePtr_of_isOnlineAndValid honline
      rw [World.rollLoop, hn, Option.filter_some, if_pos hptr, Option.bind_some]
      split
      · obtain ⟨m', hm', rfl | ⟨id', hid', hfind⟩⟩ := ih hrest n (rolled id)
        · exact ⟨m', hm', .inr ⟨id, List.mem_cons_self, hn⟩⟩
        · exact ⟨m', hm', .inr ⟨id', List.mem_cons_of_mem id hid', hfind⟩⟩
      · obtain ⟨m', hm', rfl | ⟨id', hid', hfind⟩⟩ := ih hrest m maxRoll
        · exact ⟨m', hm', .inl rfl⟩
        · exact ⟨m', hm', .inr ⟨id', List.mem_cons_of_mem id hid', hfind⟩⟩

/-- Among members who are online somebody wins. -/
theorem rollWinner_award (hall : ∀ id ∈ ids, Present party id) (hids : ids ≠ [])
    (hitem : (im.getPointerByID itemID).isSome) (hdice : ∀ id, 1 ≤ rolled id ∧ rolled id ≤ 100) :
    ∃ winnerID ∈ ids, World.rollWinner im party ids rolled itemID = some (.award winnerID) := by
  have haward {m : PartyMember} {id : Int} (hid : id ∈ ids)
      (hm : party.getMemberByID id = some m)
      (hroll : World.rollForPartyLoot im party ids rolled itemID = some m) :
      ∃ winnerID ∈ ids, World.rollWinner im party ids rolled itemID = some (.award winnerID) := by
    obtain ⟨m', hm', honline⟩ := hall id hid
    obtain rfl : m' = m := Option.some.inj (hm'.symm.trans hm)
    refine ⟨id, hid, ?_⟩
    unfold World.rollWinner
    rw [hroll, Option.map_some, creature_of_online hm honline]
  obtain ⟨itemDef, hdef⟩ := Option.isSome_iff_exists.mp hitem
  match ids, hids with
  | [id], _ =>
      obtain ⟨m, hm, -⟩ := hall id List.mem_cons_self
      exact haward List.mem_cons_self hm hm
  | id :: id' :: rest, _ =>
      obtain ⟨n, hn, honline⟩ := hall id List.mem_cons_self
      have hptr : n.mCreaturePtr = true := PartyMember.mCreaturePtr_of_isOnlineAndValid honline
      have hfirst : World.rollForPartyLoot im party (id :: id' :: rest) rolled itemID =
          World.rollLoop party rolled (id' :: rest) (some n) (rolled id) := by
        have hpos : rolled id > 0 := by
          have := (hdice id).1
          omega
        unfold World.rollForPartyLoot
        rw [hdef, Option.bind_some, World.rollLoop, hn, Option.filter_some, if_pos hptr,
          Option.bind_some, if_pos hpos]
      obtain ⟨m, hm, rfl | ⟨id'', hid'', hfind⟩⟩ := rollLoop_some
        (fun id' hid' => hall id' (List.mem_cons_of_mem id hid')) n (rolled id)
      · exact haward List.mem_cons_self hn (hfirst.trans hm)
      · exact haward (List.mem_cons_of_mem id hid'') hfind (hfirst.trans hm)

/-- The first offer of an item is decided by the one it was made to. -/
def FirstOffer (party : ActiveParty) (loot : ActiveLootContainer) (creatureID itemID : Int) :
    Prop :=
  loot.isStage2 itemID = false ∧
    (party.mLootMode = LootMode.lootMaster ∧ party.mLeaderID = creatureID ∨
      party.mLootMode = LootMode.roundRobin ∧ loot.robinID = creatureID)

instance (party : ActiveParty) (loot : ActiveLootContainer) (creatureID itemID : Int) :
    Decidable (FirstOffer party loot creatureID itemID) := inferInstanceAs (Decidable (_ ∧ _))

/-- Nobody is looked up in vain, and the item goes to a member who is online and chose need,
or greed when nobody needs it. -/
def Fair (im : ItemManager) (party : ActiveParty) (loot : ActiveLootContainer)
    (creatureID itemID : Int) (rolled : Int → Int) : Prop :=
  ∃ d, World.distribution im party loot creatureID itemID rolled = some d ∧
    (d = .nobody → loot.needed itemID = [] ∧ loot.greeded itemID = []) ∧
      ∀ winnerID, d = .award winnerID →
        (∃ m ∈ party.mMemberList, m.mCreatureID = winnerID ∧ m.isOnlineAndValid = true) ∧
          (winnerID ∈ loot.needed itemID ∨
            loot.needed itemID = [] ∧ winnerID ∈ loot.greeded itemID)

theorem fair_of_present (hall : ∀ id, loot.Rolled itemID id → Present party id)
    (hitem : (im.getPointerByID itemID).isSome) (hdice : ∀ id, 1 ≤ rolled id ∧ rolled id ≤ 100)
    (hfirst : FirstOffer party loot creatureID itemID → creatureID ∈ loot.greeded itemID →
      loot.needed itemID = []) :
    Fair im party loot creatureID itemID rolled := by
  unfold Fair World.distribution
  dsimp only
  split
  · exact ⟨_, rfl, by simp, by simp⟩
  · split
    · rename_i hoffer
      have hoffer' : FirstOffer party loot creatureID itemID := by simpa [FirstOffer] using hoffer
      split
      · rename_i hchose
        refine ⟨_, rfl, by simp, ?_⟩
        rintro winnerID hwin
        obtain rfl := World.Distribution.award.inj hwin
        have hrolled : loot.Rolled itemID creatureID := by
          simpa [ActiveLootContainer.Rolled, ActiveLootContainer.isNeeded,
            ActiveLootContainer.isGreeded] using hchose
        refine ⟨(hall creatureID hrolled).exists_mem, ?_⟩
        obtain hneed | hgreed := hrolled
        · exact .inl hneed
        · exact .inr ⟨hfirst hoffer' hgreed, hgreed⟩
      · exact ⟨_, rfl, by simp, by simp⟩
    · split
      · rename_i hneeded
        obtain ⟨winnerID, hwinner, haward⟩ :=
          rollWinner_award (fun id hid => hall id (.inl hid)) hneeded hitem hdice
        refine ⟨_, haward, by simp, ?_⟩
        rintro _ hwin
        obtain rfl := World.Distribution.award.inj hwin
        exact ⟨(hall winnerID (.inl hwinner)).exists_mem, .inl hwinner⟩
      · rename_i hneeded
        rw [not_not] at hneeded
        split
        · rename_i hgreeded
          obtain ⟨winnerID, hwinner, haward⟩ :=
            rollWinner_award (fun id hid => hall id (.inr hid)) hgreeded hitem hdice
          refine ⟨_, haward, by simp, ?_⟩
          rintro _ hwin
          obtain rfl := World.Distribution.award.inj hwin
          exact ⟨(hall winnerID (.inr hwinner)).exists_mem, .inr ⟨hneeded, hwinner⟩⟩
        · rename_i hgreeded
          rw [not_not] at hgreeded
          exact ⟨_, rfl, fun _ => ⟨hneeded, hgreeded⟩, by simp⟩

end Decision

/-! ### Choices -/

section Choice

variable {im : ItemManager} {w : World} {creatureID lootTag : Int} {choice : Option LootChoice}

theorem roster_touchTag (party : ActiveParty) (lootTag : Int) :
    (World.touchTag party lootTag).2.roster = party.roster := by
  unfold World.touchTag
  split <;> rfl

theorem tagsKnown_touchTag {party : ActiveParty} (h : party.TagsKnown im) (lootTag : Int) :
    (World.touchTag party lootTag).2.TagsKnown im ∧
      ((World.touchTag party lootTag).1.valid = true →
        (im.getPointerByID (World.touchTag party lootTag).1.mItemId).isSome) := by
  unfold World.touchTag
  split
  · rename_i tag hlookup
    refine ⟨h, h tag (List.mem_map.mpr ⟨⟨lootTag, tag⟩, ?_, rfl⟩)⟩
    exact AList.mem_lookup_iff.mp hlookup
  · refine ⟨?_, fun hvalid => absurd hvalid Bool.false_ne_true⟩
    intro tag htag hvalid
    obtain rfl | htag := ActiveParty.mem_tags_insert htag
    · exact absurd hvalid (by decide)
    · exact h tag htag hvalid

/-- What is known of a choice that was recorded. -/
structure Recorded (im : ItemManager) (w : World) (creatureID : Int) (choice : Option LootChoice)
    (party : ActiveParty) (ch : World.Chosen) : Prop where
  mem : party ∈ w.mPartyList
  roster : ch.looting.party.roster = party.roster
  partyMem : ch.looting.party ∈ ch.world.mPartyList
  calm : ∀ N, World.Calm im N w ch.world
  rolls : ∀ itemID id, ch.looting.loot.Rolled itemID id →
    w.HasRolled id ∨ id = creatureID ∧ (choice = some .need ∨ choice = some .greed)
  item : (im.getPointerByID ch.lootTag.mItemId).isSome

theorem recordChoice_recorded {ch : World.Chosen} (h : World.RollsKept im w)
    (hch : w.recordChoice creatureID lootTag choice = some (.ok ch)) :
    ∃ party, Recorded im w creatureID choice party ch := by
  obtain ⟨c, -, hch⟩ := Option.map_eq_some_iff.mp hch
  split at hch
  · cases hch
  · rename_i party hparty
    dsimp only at hch
    obtain ⟨hmem, -⟩ := (World.getPartyByID_eq_some h.keyed).mp hparty
    obtain ⟨hknown, hitem⟩ := tagsKnown_touchTag (h.known party hmem) lootTag
    have hroster := roster_touchTag party lootTag
    split at hch
    · cases hch
    · rename_i hvalid
      split at hch
      · cases hch
      · rename_i hfresh
        obtain rfl := Except.ok.inj hch
        rw [Bool.not_eq_true, Bool.or_eq_false_iff] at hfresh
        have hcreature : (World.touchTag party lootTag).1.mCreatureId = creatureID := by
          simpa using hfresh.2
        refine ⟨party, hmem, hroster, ?_, ?_, ?_, hitem (by simpa using hvalid)⟩
        · exact (World.mem_setParty h.keyed).mpr
            (.inr ⟨⟨party, hmem, (Prod.mk.inj hroster).1.symm⟩, rfl⟩)
        · intro N
          apply (World.calm_setParty h.keyed hmem hroster fun _ => hknown).trans
          apply World.calm_setContainer
          intro itemID id hid
          exact .inl (World.hasRolled_getD hid)
        · intro itemID id hid
          cases choice with
          | none => exact .inl (World.hasRolled_getD hid)
          | some choice =>
              obtain hid | ⟨heq, hchoice⟩ := ActiveLootContainer.Rolled.of_choose hid
              · exact .inl (World.hasRolled_getD hid)
              · refine .inr ⟨heq.trans hcreature, ?_⟩
                exact hchoice.imp (congrArg some) (congrArg some)

theorem calm_recordChoice_error {N : Int → Prop} (h : World.RollsKept im w)
    {r : QueryErrorMsg × World}
    (hch : w.recordChoice creatureID lootTag choice = some (.error r)) :
    World.Calm im N w r.2 := by
  obtain ⟨c, -, hch⟩ := Option.map_eq_some_iff.mp hch
  split at hch
  · exact Except.error.inj hch ▸ .refl im N w
  · rename_i party hparty
    dsimp only at hch
    obtain ⟨hmem, -⟩ := (World.getPartyByID_eq_some h.keyed).mp hparty
    obtain ⟨hknown, -⟩ := tagsKnown_touchTag (h.known party hmem) lootTag
    have hset : World.Calm im N w (w.setParty (World.touchTag party lootTag).2) :=
      World.calm_setParty h.keyed hmem (roster_touchTag party lootTag) fun _ => hknown
    split at hch
    · exact Except.error.inj hch ▸ hset
    · split at hch
      · rw [← Except.error.inj hch]
        apply hset.trans
        apply World.calm_setContainer
        intro itemID id hid
        exact .inl (World.hasRolled_getD hid)
      · cases hch

end Choice

/-! ### What keeps rolls fair -/

/-- No parties and no rolls, and players with distinct creatures. -/
def NoRolls (w : World) : Prop :=
  w.mPartyList = [] ∧ NodupKeys CreatureInstance.creatureID w.playerList ∧ ∀ id, ¬w.HasRolled id

/-- A new creature has an ID that was not in use. -/
def FreshID (w : World) : LootEvent → Prop
  | .updateReferences creatureID newID _ =>
      ∀ c ∈ w.playerList, c.creatureID = newID → newID = creatureID
  | _ => True

/-- A member leaves a party when somebody is removed: it is he, or the party ends. -/
def Leaves (party : ActiveParty) (memberDefID : Int) (m : PartyMember) : Prop :=
  m.mCreatureDefID = memberDefID ∨ (party.removeMember memberDefID).mMemberList.length ≤ 1

/-- The one who chooses is online in his party, nobody of another party has rolled, and greed
for a first offer comes when nobody needs the item. -/
structure ChoiceKeeps (w : World) (creatureID : Int) (choice : Option LootChoice)
    (ch : World.Chosen) : Prop where
  chooser : choice = some .need ∨ choice = some .greed →
    (∃ m ∈ ch.looting.party.mMemberList, m.mCreatureID = creatureID) ∧ w.AllOnline creatureID
  apart : ∀ q ∈ w.mPartyList, q.mPartyID ≠ ch.looting.party.mPartyID →
    ∀ m ∈ q.mMemberList, ¬ch.looting.loot.Rolled ch.lootTag.mItemId m.mCreatureID
  first : FirstOffer ch.looting.party ch.looting.loot creatureID ch.lootTag.mItemId →
    creatureID ∈ ch.looting.loot.greeded ch.lootTag.mItemId →
      ch.looting.loot.needed ch.lootTag.mItemId = []

/-- Nobody leaves, logs off or comes back with a new creature while he has a roll open. -/
def KeepsRollers (w : World) : LootEvent → Prop
  | .choice _ creatureID lootTag choice _ _ =>
      ∀ ch, w.recordChoice creatureID lootTag choice = some (.ok ch) →
        ChoiceKeeps w creatureID choice ch
  | .quit creatureID =>
      ∀ c ∈ w.getCreature creatureID, ∀ party ∈ w.getPartyByID c.partyID,
        ∀ m ∈ party.mMemberList, Leaves party c.creatureDefID m → ¬w.HasRolled m.mCreatureID
  | .kick creatureID memberID _ =>
      ∀ c ∈ w.getCreature creatureID, ∀ party ∈ w.getPartyByID c.partyID,
        ∀ kicked ∈ party.getMemberByID memberID, ∀ m ∈ party.mMemberList,
          Leaves party kicked.mCreatureDefID m → ¬w.HasRolled m.mCreatureID
  | .removeReferences memberDefID _ =>
      ∀ party ∈ w.mPartyList, ∀ m ∈ party.mMemberList, m.mCreatureDefID = memberDefID →
        ¬w.HasRolled m.mCreatureID
  | .updateReferences creatureID newID _ =>
      ∀ c ∈ w.getCreature creatureID, ∀ party ∈ w.mPartyList, ∀ m ∈ party.mMemberList,
        m.mCreatureDefID = c.creatureDefID → m.mCreatureID = newID ∨ ¬w.HasRolled m.mCreatureID
  | _ => True

namespace World

variable {im : ItemManager} {w w' : World} {party : ActiveParty}

/-- The members who have rolls open stay, and whoever is new is online. -/
theorem RollsKept.of_frame (h : RollsKept im w) (hk : w'.Keyed)
    (hlist : w'.creatureList = w.creatureList)
    (hstays : ∀ id, w.HasRolled id → w.IsMember id → w'.IsMember id)
    (hentries : ∀ p ∈ w'.mPartyList, ∀ m ∈ p.mMemberList, w.HasRolled m.mCreatureID →
      m.isOnlineAndValid = true ∨ ∃ q ∈ w.mPartyList, m ∈ q.mMemberList)
    (htags : ∀ p ∈ w'.mPartyList,
      p.lootTags = ∅ ∨ ∃ q ∈ w.mPartyList, ∀ tag ∈ p.tags, tag ∈ q.tags) : RollsKept im w' := by
  have hrolled (id : Int) (hid : w'.HasRolled id) : w.HasRolled id := by
    unfold HasRolled at hid
    rwa [hlist] at hid
  constructor
  · exact hk
  · intro id hid
    exact hstays id (hrolled id hid) (h.listed id (hrolled id hid))
  · intro id hid p hp m hm hmid
    obtain honline | ⟨q, hq, hmem⟩ := hentries p hp m hm (hmid ▸ hrolled id hid)
    · exact honline
    · exact h.online id (hrolled id hid) q hq m hmem hmid
  · intro p hp tag htag hvalid
    obtain hnil | ⟨q, hq, htags⟩ := htags p hp
    · unfold ActiveParty.tags at htag
      rw [hnil] at htag
      cases htag
    · exact h.known q hq tag (htags tag htag) hvalid

@[simp] theorem tags_updateLeaderDropped (party : ActiveParty) (memberID : Int) :
    (party.updateLeaderDropped memberID).tags = party.tags := by
  unfold ActiveParty.updateLeaderDropped
  split
  · rfl
  · split <;> rfl

theorem RollsKept.dropMember (h : RollsKept im w) {partyID memberDefID droppedID : Int}
    (hleaves : ∀ party ∈ w.getPartyByID partyID, ∀ m ∈ party.mMemberList,
      Leaves party memberDefID m → ¬w.HasRolled m.mCreatureID) :
    RollsKept im (w.dropMember partyID memberDefID droppedID) := by
  have hk := h.keyed
  cases hparty : w.getPartyByID partyID with
  | none =>
      unfold World.dropMember
      rw [hparty]
      exact h
  | some party =>
      obtain ⟨hmem, hid⟩ := (getPartyByID_eq_some hk).mp hparty
      have hdistinct := hk.distinct party hmem
      apply h.of_frame (hk.dropMember partyID memberDefID droppedID)
      · exact (Prod.mk.inj (w.goods_dropMember partyID memberDefID droppedID)).2
      · rintro id hrolled ⟨p, hp, m, hm, rfl⟩
        by_cases heq : p.mPartyID = partyID
        · obtain rfl : p = party :=
            List.inj_on_of_nodup_map hk.parties hp hmem (heq.trans hid.symm)
          have hstay : ¬Leaves p memberDefID m := fun hl => hleaves p hparty m hm hl hrolled
          obtain ⟨hne, hlarge⟩ := not_or.mp hstay
          refine ⟨_, (mem_dropMember hk hparty).mpr (.inr ⟨by omega, rfl⟩), m, ?_, rfl⟩
          rw [mMemberList_updateLeaderDropped]
          exact (mem_removeMember hdistinct).mpr ⟨hm, hne⟩
        · exact ⟨p, (mem_dropMember hk hparty).mpr (.inl ⟨hp, heq⟩), m, hm, rfl⟩
      · intro p hp m hm _
        obtain ⟨hp, -⟩ | ⟨-, rfl⟩ := (mem_dropMember hk hparty).mp hp
        · exact .inr ⟨p, hp, hm⟩
        · rw [mMemberList_updateLeaderDropped] at hm
          exact .inr ⟨party, hmem, (removeMember_sublist party memberDefID).subset hm⟩
      · intro p hp
        right
        obtain ⟨hp, -⟩ | ⟨-, rfl⟩ := (mem_dropMember hk hparty).mp hp
        · exact ⟨p, hp, fun _ => id⟩
        · refine ⟨party, hmem, ?_⟩
          rw [tags_updateLeaderDropped]
          exact fun _ => id

theorem RollsKept.setPartyID (h : RollsKept im w) (creatureID partyID : Int) :
    RollsKept im (w.setPartyID creatureID partyID) where
  keyed := h.keyed.setPartyID creatureID partyID
  listed := h.listed
  online := h.online
  known := h.known

theorem RollsKept.doQuit (h : RollsKept im w) {creatureID : Int}
    (hkeeps : KeepsRollers w (.quit creatureID)) : RollsKept im (w.doQuit creatureID) := by
  unfold World.doQuit
  cases hc : w.getCreature creatureID with
  | none => exact h
  | some c => exact (h.setPartyID creatureID 0).dropMember (hkeeps c hc)

theorem RollsKept.doKick (h : RollsKept im w) {creatureID memberID stale : Int}
    (hkeeps : KeepsRollers w (.kick creatureID memberID stale)) :
    RollsKept im (w.doKick creatureID memberID stale) := by
  unfold World.doKick
  cases hc : w.getCreature creatureID with
  | none => exact h
  | some c =>
      dsimp only
      split
      · exact h
      · rename_i party hparty
        obtain ⟨hparty, -⟩ := Option.filter_eq_some_iff.mp hparty
        split
        · exact h
        · rename_i kicked hkicked
          apply h.dropMember
          intro party' hparty'
          obtain rfl : party = party' := Option.some.inj (hparty.symm.trans hparty')
          exact hkeeps c hc party hparty kicked hkicked

/-- Members are added, never lost. -/
theorem RollsKept.addMember (h : RollsKept im w) (hparty : party ∈ w.mPartyList)
    (c : CreatureInstance) : RollsKept im (w.addMember party c) := by
  have hk := h.keyed
  cases hnew : party.hasMember c.creatureDefID with
  | true =>
      unfold World.addMember
      rw [hnew]
      exact h
  | false =>
      apply h.of_frame (hk.addMember hparty c)
      · exact (Prod.mk.inj (w.goods_addMember party c)).2
      · rintro id - ⟨p, hp, m, hm, hid⟩
        by_cases heq : p.mPartyID = party.mPartyID
        · obtain rfl : p = party := List.inj_on_of_nodup_map hk.parties hp hparty heq
          exact ⟨_, (mem_addMember hk hparty hnew).mpr (.inr rfl), m, List.mem_append_left _ hm, hid⟩
        · exact ⟨p, (mem_addMember hk hparty hnew).mpr (.inl ⟨hp, heq⟩), m, hm, hid⟩
      · intro p hp m hm _
        obtain ⟨hp, -⟩ | rfl := (mem_addMember hk hparty hnew).mp hp
        · exact .inr ⟨p, hp, hm⟩
        · obtain hm | hm := List.mem_append.mp hm
          · exact .inr ⟨party, hparty, hm⟩
          · rw [List.mem_singleton.mp hm]
            exact .inl rfl
      · intro p hp
        right
        obtain ⟨hp, -⟩ | rfl := (mem_addMember hk hparty hnew).mp hp
        · exact ⟨p, hp, fun _ => id⟩
        · exact ⟨party, hparty, fun _ => id⟩

theorem RollsKept.addMemberTo (h : RollsKept im w) (partyID : Int) (c : CreatureInstance) :
    RollsKept im (w.addMemberTo partyID c) := by
  unfold World.addMemberTo
  split
  · rename_i party hparty
    exact h.addMember ((getPartyByID_eq_some h.keyed).mp hparty).1 c
  · exact h

theorem RollsKept.acceptInvite (h : RollsKept im w) (memberID leaderDefID : Int) :
    RollsKept im (w.acceptInvite memberID leaderDefID) := by
  unfold World.acceptInvite
  split
  · split
    · rename_i party hparty
      exact h.addMember (List.mem_of_find?_eq_some hparty) _
    · apply RollsKept.addMemberTo
      apply RollsKept.addMemberTo
      apply h.of_frame (h.keyed.newParty rfl rfl) rfl
      · rintro id - ⟨p, hp, hm⟩
        exact ⟨p, List.mem_append_left _ hp, hm⟩
      · intro p hp m hm _
        obtain hp | hp := List.mem_append.mp hp
        · exact .inr ⟨p, hp, hm⟩
        · rw [List.mem_singleton.mp hp] at hm
          cases hm
      · intro p hp
        obtain hp | hp := List.mem_append.mp hp
        · exact .inr ⟨p, hp, fun _ => id⟩
        · rw [List.mem_singleton.mp hp]
          exact .inl rfl
  · exact h

theorem RollsKept.modifyParty (h : RollsKept im w) (creatureID : Int)
    {f : ActiveParty → ActiveParty} (hroster : ∀ p, (f p).roster = p.roster)
    (htags : ∀ p, (f p).tags = p.tags) : RollsKept im (w.modifyParty creatureID f) := by
  unfold World.modifyParty
  split
  · exact h
  · rename_i party hbind
    obtain ⟨c, -, hparty⟩ := Option.bind_eq_some_iff.mp hbind
    have hcalm : Calm im (fun _ => False) w (w.setParty (f party)) := by
      refine calm_setParty h.keyed ((getPartyByID_eq_some h.keyed).mp hparty).1 (hroster party) ?_
      intro hknown
      unfold ActiveParty.TagsKnown
      rwa [htags]
    exact h.of_calm hcalm fun _ => False.elim

theorem RollsKept.doSetLeader (h : RollsKept im w) (creatureID newLeaderID : Int) :
    RollsKept im (w.doSetLeader creatureID newLeaderID) := by
  have hleader (p : ActiveParty) (newLeaderDefID : Int) :
      (p.setLeader newLeaderDefID).roster = p.roster ∧
        (p.setLeader newLeaderDefID).tags = p.tags := by
    unfold ActiveParty.setLeader
    split <;> exact ⟨rfl, rfl⟩
  apply h.modifyParty
  · intro p
    split
    · rfl
    · split
      · exact (hleader p _).1
      · rfl
  · intro p
    split
    · rfl
    · split
      · exact (hleader p _).2
      · rfl

theorem RollsKept.removePlayerReferences (h : RollsKept im w) {memberDefID : Int}
    {disconnect : Bool} (hkeeps : KeepsRollers w (.removeReferences memberDefID disconnect)) :
    RollsKept im (w.removePlayerReferences memberDefID disconnect) := by
  have hk := h.keyed
  apply h.of_frame (hk.removePlayerReferences memberDefID disconnect)
  · rfl
  · rintro id - ⟨p, hp, m, hm, hid⟩
    obtain hp' | hp' := visitParties_of_mem hp
    · exact ⟨p, hp', m, hm, hid⟩
    · refine ⟨_, hp', ?_⟩
      by_cases hdef : m.mCreatureDefID = memberDefID
      · exact ⟨_, (mem_modifyMember (hk.distinct p hp)).mpr (.inr ⟨m, hm, hdef, rfl⟩), hid⟩
      · exact ⟨m, (mem_modifyMember (hk.distinct p hp)).mpr (.inl ⟨hm, hdef⟩), hid⟩
  · intro p hp m hm hrolled
    obtain hp | ⟨q, hq, rfl⟩ := mem_visitParties hp
    · exact .inr ⟨p, hp, hm⟩
    · obtain ⟨hm, -⟩ | ⟨n, hn, hdef, rfl⟩ := (mem_modifyMember (hk.distinct q hq)).mp hm
      · exact .inr ⟨q, hq, hm⟩
      · exact absurd hrolled (hkeeps q hq n hn hdef)
  · intro p hp
    right
    obtain hp | ⟨q, hq, rfl⟩ := mem_visitParties hp
    · exact ⟨p, hp, fun _ => id⟩
    · refine ⟨q, hq, ?_⟩
      intro tag htag
      have htag' : tag ∈ (q.removeCreatureTags (-1) memberDefID).tags := htag
      exact ActiveParty.mem_tags_removeTags htag'

theorem RollsKept.updatePlayerReferences (h : RollsKept im w) {creatureID newID actInst : Int}
    (hfresh : FreshID w (.updateReferences creatureID newID actInst))
    (hkeeps : KeepsRollers w (.updateReferences creatureID newID actInst)) :
    RollsKept im (w.updatePlayerReferences creatureID newID actInst) := by
  have hk := h.keyed
  have hk' := hk.updatePlayerReferences hfresh actInst
  cases hc : w.getCreature creatureID with
  | none =>
      unfold World.updatePlayerReferences
      rw [hc]
      exact h
  | some c =>
      have hlist : (w.updatePlayerReferences creatureID newID actInst).mPartyList =
          visitParties c.creatureDefID
            (fun party => party.updatePlayerReferences newID c.creatureDefID) w.mPartyList := by
        unfold World.updatePlayerReferences
        rw [hc]
        rfl
      apply h.of_frame hk'
      · exact (Prod.mk.inj (w.goods_updatePlayerReferences creatureID newID actInst)).2
      · rintro id hrolled ⟨p, hp, m, hm, rfl⟩
        unfold IsMember
        rw [hlist]
        obtain hp' | hp' := visitParties_of_mem hp
        · exact ⟨p, hp', m, hm, rfl⟩
        · refine ⟨_, hp', ?_⟩
          by_cases hdef : m.mCreatureDefID = c.creatureDefID
          · refine ⟨_, (mem_modifyMember (hk.distinct p hp)).mpr (.inr ⟨m, hm, hdef, rfl⟩), ?_⟩
            obtain hnew | hnot := hkeeps c hc p hp m hm hdef
            · exact hnew.symm
            · exact absurd hrolled hnot
          · exact ⟨m, (mem_modifyMember (hk.distinct p hp)).mpr (.inl ⟨hm, hdef⟩), rfl⟩
      · intro p hp m hm _
        rw [hlist] at hp
        obtain hp | ⟨q, hq, rfl⟩ := mem_visitParties hp
        · exact .inr ⟨p, hp, hm⟩
        · obtain ⟨hm, -⟩ | ⟨n, hn, -, rfl⟩ := (mem_modifyMember (hk.distinct q hq)).mp hm
          · exact .inr ⟨q, hq, hm⟩
          · exact .inl rfl
      · intro p hp
        right
        rw [hlist] at hp
        obtain hp | ⟨q, hq, rfl⟩ := mem_visitParties hp
        · exact ⟨p, hp, fun _ => id⟩
        · exact ⟨q, hq, fun _ => id⟩

/-- The chooser's roll is one of a member who is online. -/
theorem newcomer {creatureID : Int} {choice : Option LootChoice} {ch : Chosen}
    (hrec : Recorded im w creatureID choice party ch) (hkeeps : ChoiceKeeps w creatureID choice ch)
    {id : Int} (hid : id = creatureID ∧ (choice = some .need ∨ choice = some .greed)) :
    w.IsMember id ∧ w.AllOnline id := by
  obtain ⟨rfl, hchoice⟩ := hid
  obtain ⟨⟨m, hm, hmid⟩, honline⟩ := hkeeps.chooser hchoice
  rw [(Prod.mk.inj hrec.roster).2] at hm
  exact ⟨⟨party, hrec.mem, m, hm, hmid⟩, honline⟩

theorem RollsKept.lootNeedGreedPass (h : RollsKept im w) {now : Nat} {creatureID lootTag : Int}
    {choice : Option LootChoice} {rolled : Int → Int} {boxRange : Int → Option Int}
    (hkeeps : KeepsRollers w (.choice now creatureID lootTag choice rolled boxRange))
    {r : QueryErrorMsg × World}
    (hr : w.lootNeedGreedPass im now creatureID lootTag choice rolled boxRange = some r) :
    RollsKept im r.2 := by
  unfold World.lootNeedGreedPass at hr
  obtain ⟨recorded, hrecord, hr⟩ := Option.bind_eq_some_iff.mp hr
  cases recorded with
  | error e =>
      rw [← Option.some.inj hr]
      have hcalm : Calm im (fun _ => False) w e.2 := calm_recordChoice_error h hrecord
      exact h.of_calm hcalm fun _ => False.elim
  | ok ch =>
      obtain ⟨party, hrec⟩ := recordChoice_recorded h hrecord
      obtain ⟨w', hcheck, rfl⟩ := Option.map_eq_some_iff.mp hr
      let N : Int → Prop := fun id =>
        w.HasRolled id ∨ id = creatureID ∧ (choice = some .need ∨ choice = some .greed)
      have hworld : Calm im N w ch.world := hrec.calm N
      have hchecked : Calm im N ch.world w' :=
        calm_checkIfLootReadyToDistribute (hworld.keyed h.keyed) hrec.partyMem
          (fun itemID id hid => .inr (hrec.rolls itemID id hid)) hrec.item hcheck
      apply h.of_calm (hworld.trans hchecked)
      rintro id (hid | hid)
      · exact ⟨h.listed id hid, h.online id hid⟩
      · exact newcomer hrec (hkeeps ch hrecord) hid

end World

/-! ### Steps and runs -/

section Run

variable {im : ItemManager} {w w' : World} {h : List (World × LootEvent)}

theorem rollsKept_step (hkept : World.RollsKept im w) {e : LootEvent} (hfresh : FreshID w e)
    (hkeeps : KeepsRollers w e) (hs : step im w e = some w') : World.RollsKept im w' := by
  cases e with
  | item now creatureID CID itemID boxRange =>
      obtain ⟨r, hr, rfl⟩ := Option.map_eq_some_iff.mp hs
      have hcalm : World.Calm im (fun _ => False) w r.2 := World.calm_lootItem hkept.keyed hr
      exact hkept.of_calm hcalm fun _ => False.elim
  | choice now creatureID lootTag choice rolled boxRange =>
      obtain ⟨r, hr, rfl⟩ := Option.map_eq_some_iff.mp hs
      exact hkept.lootNeedGreedPass hkeeps hr
  | acceptInvite memberID leaderDefID =>
      exact Option.some.inj hs ▸ hkept.acceptInvite memberID leaderDefID
  | quit creatureID => exact Option.some.inj hs ▸ hkept.doQuit hkeeps
  | kick creatureID memberID stale => exact Option.some.inj hs ▸ hkept.doKick hkeeps
  | setLeader creatureID newLeaderID =>
      exact Option.some.inj hs ▸ hkept.doSetLeader creatureID newLeaderID
  | lootMode creatureID mode =>
      exact Option.some.inj hs ▸ hkept.modifyParty creatureID (fun _ => rfl) fun _ => rfl
  | lootFlags creatureID needB4Greed mundane on =>
      exact Option.some.inj hs ▸ hkept.modifyParty creatureID (fun _ => rfl) fun _ => rfl
  | removeReferences memberDefID disconnect =>
      exact Option.some.inj hs ▸ hkept.removePlayerReferences hkeeps
  | updateReferences creatureID newID actInst =>
      exact Option.some.inj hs ▸ hkept.updatePlayerReferences hfresh hkeeps

theorem run_rollsKept
    (run : Trace NoRolls (fun w e => FreshID w e ∧ KeepsRollers w e) (step im) h w) :
    World.RollsKept im w := by
  induction run with
  | @start s hstart =>
      obtain ⟨hnil, hplayers, hrolls⟩ := hstart
      have hnone (p : ActiveParty) (hp : p ∈ s.mPartyList) : False := by
        rw [hnil] at hp
        cases hp
      refine ⟨⟨hplayers, ?_, fun p hp => (hnone p hp).elim, fun p hp => (hnone p hp).elim⟩,
        fun id hid => absurd hid (hrolls id), fun id hid => absurd hid (hrolls id),
        fun p hp => (hnone p hp).elim⟩
      rw [hnil]
      exact List.nodup_nil
  | next _ hok hs ih => exact rollsKept_step ih hok.1 hok.2 hs

/-- In a run where nobody leaves with a roll open, every decision is fair. -/
theorem run_fair (run : Trace NoRolls (fun w e => FreshID w e ∧ KeepsRollers w e) (step im) h w)
    {creatureID lootTag : Int} {choice : Option LootChoice} {ch : World.Chosen}
    (hch : w.recordChoice creatureID lootTag choice = some (.ok ch))
    (hkeeps : ChoiceKeeps w creatureID choice ch) {rolled : Int → Int}
    (hdice : ∀ id, 1 ≤ rolled id ∧ rolled id ≤ 100) :
    Fair im ch.looting.party ch.looting.loot creatureID ch.lootTag.mItemId rolled := by
  have hkept := run_rollsKept run
  obtain ⟨party, hrec⟩ := recordChoice_recorded hkept hch
  obtain ⟨hid, hlist⟩ := Prod.mk.inj hrec.roster
  refine fair_of_present ?_ hrec.item hdice hkeeps.first
  intro id hrolled
  have hmember : w.IsMember id ∧ w.AllOnline id := by
    obtain hold | hnew := hrec.rolls _ id hrolled
    · exact ⟨hkept.listed id hold, hkept.online id hold⟩
    · exact World.newcomer hrec hkeeps hnew
  obtain ⟨⟨q, hq, m, hm, rfl⟩, honline⟩ := hmember
  -- Nobody of another party has rolled, so this is the party.
  have hsame : q.mPartyID = ch.looting.party.mPartyID := by
    by_contra hne
    exact hkeeps.apart q hq hne m hm hrolled
  obtain rfl : q = party :=
    List.inj_on_of_nodup_map hkept.keyed.parties hq hrec.mem (hsame.trans hid)
  rw [← hlist] at hm
  apply Present.of_mem hm rfl
  intro n hn
  rw [hlist] at hn
  exact honline q hq n hn

end Run

/-! Three players meet, and a ring is on offer to them. -/

def ringTrio : World :=
  { ringWorld with
    mPartyList := [], nextPartyID := 1, playerList := [ringLooter 1 0, ringLooter 2 0, ringLooter 3 0] }

def ringOffered : List LootEvent :=
  [.acceptInvite 2 1001, .acceptInvite 3 1001, .lootFlags 1 true false true, lootRing 1]

def ringRolling : World := (runAll (step ringItems) ringTrio ringOffered).getD {}

def ringNeeded : World := (step ringItems ringRolling (rollRing 2 1 .need)).getD {}

def ringGreeded : World := (step ringItems ringNeeded (rollRing 3 2 .greed)).getD {}

theorem noRolls_ringTrio : NoRolls ringTrio := by
  refine ⟨rfl, by unfold NodupKeys; decide, ?_⟩
  rintro id ⟨key, loot, itemID, hloot, hid⟩
  obtain ⟨-, hloot⟩ := Option.ite_none_right_eq_some.mp hloot
  obtain rfl := Option.some.inj hloot
  obtain hid | hid := hid
  · cases hid
  · cases hid

instance FreshID.decidable (w : World) : ∀ e, Decidable (FreshID w e)
  | .updateReferences creatureID newID _ =>
      inferInstanceAs (Decidable (∀ c ∈ w.playerList, c.creatureID = newID → newID = creatureID))
  | .item .. | .choice .. | .acceptInvite .. | .quit _ | .kick .. | .setLeader .. | .lootMode ..
  | .lootFlags .. | .removeReferences .. => inferInstanceAs (Decidable True)

/-- The check of one choice. -/
def choiceKeeps (w : World) (creatureID : Int) (choice : Option LootChoice) (ch : World.Chosen) :
    Bool :=
  (choice = some .need ∨ choice = some .greed →
    (∃ m ∈ ch.looting.party.mMemberList, m.mCreatureID = creatureID) ∧
      ∀ party ∈ w.mPartyList, ∀ m ∈ party.mMemberList, m.mCreatureID = creatureID →
        m.isOnlineAndValid = true) ∧
  (∀ q ∈ w.mPartyList, q.mPartyID ≠ ch.looting.party.mPartyID → ∀ m ∈ q.mMemberList,
    m.mCreatureID ∉ ch.looting.loot.needed ch.lootTag.mItemId ∧
      m.mCreatureID ∉ ch.looting.loot.greeded ch.lootTag.mItemId) ∧
  (FirstOffer ch.looting.party ch.looting.loot creatureID ch.lootTag.mItemId →
    creatureID ∈ ch.looting.loot.greeded ch.lootTag.mItemId →
      ch.looting.loot.needed ch.lootTag.mItemId = [])

/-- The check of a choice that has to be recorded first. -/
def recordKeeps (w : World) (creatureID lootTag : Int) (choice : Option LootChoice) : Bool :=
  match w.recordChoice creatureID lootTag choice with
  | some (.ok ch) => choiceKeeps w creatureID choice ch
  | _ => false

theorem choiceKeeps_of_record {w : World} {creatureID lootTag : Int} {choice : Option LootChoice}
    (h : recordKeeps w creatureID lootTag choice = true) :
    ∃ ch, w.recordChoice creatureID lootTag choice = some (.ok ch) ∧
      ChoiceKeeps w creatureID choice ch := by
  unfold recordKeeps at h
  split at h
  · rename_i ch hch
    obtain ⟨hchooser, hapart, hfirst⟩ := of_decide_eq_true h
    exact ⟨ch, hch, hchooser, fun q hq hne m hm => not_or.mpr (hapart q hq hne m hm), hfirst⟩
  · cases h

theorem run_fair_ring :
    ∃ ch, ringGreeded.recordChoice 1 3 (some .greed) = some (.ok ch) ∧
      Fair ringItems ch.looting.party ch.looting.loot 1 ch.lootTag.mItemId fun _ => 50 := by
  have hoffered : OkAll (fun w e => FreshID w e ∧ KeepsRollers w e) (step ringItems) ringTrio
      ringOffered :=
    ⟨⟨trivial, trivial⟩, fun _ _ => ⟨⟨trivial, trivial⟩, fun _ _ =>
      ⟨⟨trivial, trivial⟩, fun _ _ => ⟨⟨trivial, trivial⟩, fun _ _ => trivial⟩⟩⟩⟩
  have rolling := (Trace.start noRolls_ringTrio).runAll hoffered
    (eq_some_getD (by decide) {})
  have keeps {w : World} {creatureID lootTag : Int} {choice : LootChoice}
      (h : recordKeeps w creatureID lootTag (some choice) = true) :
      FreshID w (rollRing creatureID lootTag choice) ∧
        KeepsRollers w (rollRing creatureID lootTag choice) := by
    obtain ⟨ch, hch, hkeeps⟩ := choiceKeeps_of_record h
    refine ⟨trivial, fun ch' hch' => ?_⟩
    obtain rfl : ch = ch' := Except.ok.inj (Option.some.inj (hch.symm.trans hch'))
    exact hkeeps
  have hneed : FreshID ringRolling (rollRing 2 1 .need) ∧
      KeepsRollers ringRolling (rollRing 2 1 .need) := keeps (by decide)
  have hgreed : FreshID ringNeeded (rollRing 3 2 .greed) ∧
      KeepsRollers ringNeeded (rollRing 3 2 .greed) := keeps (by decide)
  have needed := rolling.next hneed (eq_some_getD (by decide) {})
  have greeded := needed.next hgreed (eq_some_getD (by decide) {})
  have hlast : recordKeeps ringGreeded 1 3 (some .greed) = true := by decide
  obtain ⟨ch, hch, hkeeps⟩ := choiceKeeps_of_record hlast
  exact ⟨ch, hch, run_fair greeded hch hkeeps fun _ => by decide⟩

/-- The one who needs the ring quits: when the third player is the last to choose, the winner
is looked up in vain. -/
theorem quitter_is_looked_up :
    ∃ h w ch, Trace NoRolls FreshID (step ringItems) h w ∧
      w.recordChoice 3 2 (some .greed) = some (.ok ch) ∧
        ¬Fair ringItems ch.looting.party ch.looting.loot 3 ch.lootTag.mItemId fun _ => 50 := by
  have hok : OkAll FreshID (step ringItems) ringTrio
      (ringOffered ++ [rollRing 2 1 .need, .quit 2]) := by decide
  have hrun : (runAll (step ringItems) ringTrio
      (ringOffered ++ [rollRing 2 1 .need, .quit 2])).isSome = true := by decide
  have run := (Trace.start noRolls_ringTrio).runAll hok (eq_some_getD hrun {})
  have hnone : (match ((runAll (step ringItems) ringTrio
      (ringOffered ++ [rollRing 2 1 .need, .quit 2])).getD {}).recordChoice 3 2 (some .greed) with
      | some (.ok ch) => (World.distribution ringItems ch.looting.party ch.looting.loot 3
          ch.lootTag.mItemId fun _ => 50).isNone
      | _ => false) = true := by decide
  split at hnone
  · rename_i ch hch
    refine ⟨_, _, ch, run, hch, ?_⟩
    rintro ⟨d, hd, -⟩
    rw [hd] at hnone
    cases hnone
  · cases hnone

end Loot

end Iceee
