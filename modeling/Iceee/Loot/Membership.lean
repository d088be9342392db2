import Iceee.Lib.Keyed
import Iceee.Loot.Queries

/-!
# Who is in which party

`Keyed` is what a search by ID relies on. Under it, each change of the parties is described
by the entries it leaves: a party that was written back, one that lost a member, one that is
gone; and the creatures it does not touch.
-/

namespace Iceee

open Lib

namespace Loot

/-- The IDs of creatures and parties, and the definitions of the members of a party, are
distinct. -/
structure World.Keyed (w : World) : Prop where
  players : NodupKeys CreatureInstance.creatureID w.playerList
  parties : NodupKeys ActiveParty.mPartyID w.mPartyList
  below : ∀ party ∈ w.mPartyList, party.mPartyID < w.nextPartyID
  distinct : ∀ party ∈ w.mPartyList, NodupKeys PartyMember.mCreatureDefID party.mMemberList

/-! ### Members -/

section Members

variable {party : ActiveParty} {m : PartyMember}

theorem mem_removeMember (h : NodupKeys PartyMember.mCreatureDefID party.mMemberList)
    {memberDefID : Int} :
    m ∈ (party.removeMember memberDefID).mMemberList ↔
      m ∈ party.mMemberList ∧ m.mCreatureDefID ≠ memberDefID :=
  h.mem_eraseP

theorem removeMember_sublist (party : ActiveParty) (memberDefID : Int) :
    (party.removeMember memberDefID).mMemberList.Sublist party.mMemberList :=
  List.eraseP_sublist

theorem hasMember_iff {memberDefID : Int} :
    party.hasMember memberDefID = true ↔ ∃ m ∈ party.mMemberList, m.mCreatureDefID = memberDefID := by
  simp [ActiveParty.hasMember]

theorem addMember_of_not (h : party.hasMember m.mCreatureDefID = false) :
    party.addMember m = { party with mMemberList := party.mMemberList ++ [m] } := by
  unfold ActiveParty.addMember
  rw [h]
  rfl

@[simp] theorem mMemberList_updateLeaderDropped (party : ActiveParty) (memberID : Int) :
    (party.updateLeaderDropped memberID).mMemberList = party.mMemberList := by
  unfold ActiveParty.updateLeaderDropped
  split
  · rfl
  · split <;> rfl

@[simp] theorem mPartyID_updateLeaderDropped (party : ActiveParty) (memberID : Int) :
    (party.updateLeaderDropped memberID).mPartyID = party.mPartyID := by
  unfold ActiveParty.updateLeaderDropped
  split
  · rfl
  · split <;> rfl

@[simp] theorem mPartyID_removeMember (party : ActiveParty) (memberDefID : Int) :
    (party.removeMember memberDefID).mPartyID = party.mPartyID := rfl

@[simp] theorem mMemberList_setLeader (party : ActiveParty) (newLeaderDefID : Int) :
    (party.setLeader newLeaderDefID).mMemberList = party.mMemberList := by
  unfold ActiveParty.setLeader
  split <;> rfl

@[simp] theorem mPartyID_setLeader (party : ActiveParty) (newLeaderDefID : Int) :
    (party.setLeader newLeaderDefID).mPartyID = party.mPartyID := by
  unfold ActiveParty.setLeader
  split <;> rfl

theorem mem_modifyMember (h : NodupKeys PartyMember.mCreatureDefID party.mMemberList)
    {memberDefID : Int} {f : PartyMember → PartyMember} :
    m ∈ (party.modifyMember memberDefID f).mMemberList ↔
      m ∈ party.mMemberList ∧ m.mCreatureDefID ≠ memberDefID ∨
        ∃ m₀ ∈ party.mMemberList, m₀.mCreatureDefID = memberDefID ∧ f m₀ = m :=
  h.mem_modify_findIdx

end Members

/-- The entry of a creature that joins a party. -/
def CreatureInstance.member (c : CreatureInstance) : PartyMember where
  mCreatureDefID := c.creatureDefID
  mCreatureID := c.creatureID
  mDisplayName := c.displayName

namespace World

variable {w : World} {party p : ActiveParty} {c : CreatureInstance}

/-! ### Creatures and parties -/

section Keyed

variable (h : w.Keyed)

include h

theorem getPartyByID_eq_some {partyID : Int} :
    w.getPartyByID partyID = some party ↔ party ∈ w.mPartyList ∧ party.mPartyID = partyID :=
  h.parties.find?_eq_some

theorem getCreature_eq_some {creatureID : Int} :
    w.getCreature creatureID = some c ↔ c ∈ w.playerList ∧ c.creatureID = creatureID :=
  h.players.find?_eq_some

theorem mem_setParty :
    p ∈ (w.setParty party).mPartyList ↔
      p ∈ w.mPartyList ∧ p.mPartyID ≠ party.mPartyID ∨
        (∃ q ∈ w.mPartyList, q.mPartyID = party.mPartyID) ∧ party = p := by
  refine h.parties.mem_modify_findIdx.trans (or_congr_right ?_)
  constructor
  · rintro ⟨q, hq, hid, hp⟩
    exact ⟨⟨q, hq, hid⟩, hp⟩
  · rintro ⟨⟨q, hq, hid⟩, hp⟩
    exact ⟨q, hq, hid, hp⟩

theorem Keyed.setPartyID (creatureID partyID : Int) : (w.setPartyID creatureID partyID).Keyed where
  players := h.players.modify _ fun _ => rfl
  parties := h.parties
  below := h.below
  distinct := h.distinct

theorem mem_setPartyID (hc : c ∈ w.playerList) {creatureID : Int} (hne : c.creatureID ≠ creatureID)
    (partyID : Int) : c ∈ (w.setPartyID creatureID partyID).playerList :=
  h.players.mem_modify_findIdx.mpr (.inl ⟨hc, hne⟩)

theorem Keyed.setParty (hparty : NodupKeys PartyMember.mCreatureDefID party.mMemberList) :
    (w.setParty party).Keyed where
  players := h.players
  parties := h.parties.replace fun _ _ => rfl
  below := by
    intro p hp
    obtain ⟨hp, -⟩ | ⟨⟨q, hq, hid⟩, rfl⟩ := (mem_setParty h).mp hp
    · exact h.below p hp
    · exact hid ▸ h.below q hq
  distinct := by
    intro p hp
    obtain ⟨hp, -⟩ | ⟨-, rfl⟩ := (mem_setParty h).mp hp
    · exact h.distinct p hp
    · exact hparty

theorem Keyed.removeMember (hparty : party ∈ w.mPartyList) (memberDefID : Int) :
    (w.removeMember party memberDefID).Keyed := by
  have hset : (w.setParty (party.removeMember memberDefID)).Keyed :=
    h.setParty ((h.distinct party hparty).sublist (removeMember_sublist party memberDefID))
  unfold World.removeMember
  split
  · exact hset.setPartyID _ 0
  · exact hset

/-- The members whose creatures are told that their party is gone. -/
theorem mem_disband_playerList (hc : c ∈ w.playerList)
    (hout : ∀ m ∈ party.mMemberList, m.creature ≠ some c.creatureID) :
    c ∈ (w.disband party).playerList := by
  have hfold (ids : List Int) (w : World) (h : w.Keyed) (hc : c ∈ w.playerList)
      (hout : c.creatureID ∉ ids) :
      c ∈ (ids.foldl (fun w id => w.setPartyID id 0) w).playerList := by
    induction ids generalizing w with
    | nil => exact hc
    | cons id rest ih =>
        rw [List.mem_cons, not_or] at hout
        exact ih _ (h.setPartyID id 0) (mem_setPartyID h hc hout.1 0) hout.2
  apply hfold _ w h hc
  rw [List.mem_filterMap]
  rintro ⟨m, hm, hid⟩
  exact hout m hm hid

theorem Keyed.foldl_setPartyID (ids : List Int) :
    (ids.foldl (fun w id => w.setPartyID id 0) w).Keyed ∧
      (ids.foldl (fun w id => w.setPartyID id 0) w).mPartyList = w.mPartyList := by
  induction ids generalizing w with
  | nil => exact ⟨h, rfl⟩
  | cons id rest ih => exact ih (h.setPartyID id 0)

theorem mem_disband :
    p ∈ (w.disband party).mPartyList ↔ p ∈ w.mPartyList ∧ p.mPartyID ≠ party.mPartyID := by
  obtain ⟨hkeyed, hlist⟩ := h.foldl_setPartyID (party.mMemberList.filterMap PartyMember.creature)
  unfold World.disband
  dsimp only
  rw [hlist]
  exact h.parties.mem_eraseP

theorem Keyed.disband (party : ActiveParty) : (w.disband party).Keyed := by
  obtain ⟨hkeyed, -⟩ := h.foldl_setPartyID (party.mMemberList.filterMap PartyMember.creature)
  exact
    { players := hkeyed.players
      parties := hkeyed.parties.sublist List.eraseP_sublist
      below := fun p hp => hkeyed.below p (List.mem_of_mem_eraseP hp)
      distinct := fun p hp => hkeyed.distinct p (List.mem_of_mem_eraseP hp) }

theorem mem_removeMember_playerList (hparty : party ∈ w.mPartyList) (hc : c ∈ w.playerList)
    {memberDefID : Int}
    (hout : ∀ m ∈ party.mMemberList, m.creature = some c.creatureID →
      m.mCreatureDefID ≠ memberDefID) :
    c ∈ (w.removeMember party memberDefID).playerList := by
  unfold World.removeMember
  split
  · rename_i id hid
    obtain ⟨m, hfind, hm⟩ := Option.bind_eq_some_iff.mp hid
    refine mem_setPartyID (w := w.setParty _) ?_ hc ?_ 0
    · exact h.setParty ((h.distinct party hparty).sublist (removeMember_sublist party memberDefID))
    · intro heq
      exact hout m (List.mem_of_find?_eq_some hfind) (heq ▸ hm)
        (by simpa using List.find?_some hfind)
  · exact hc

theorem mem_removeMember_parties (hparty : party ∈ w.mPartyList) {memberDefID : Int} :
    p ∈ (w.removeMember party memberDefID).mPartyList ↔
      p ∈ w.mPartyList ∧ p.mPartyID ≠ party.mPartyID ∨ party.removeMember memberDefID = p := by
  have hset : p ∈ (w.setParty (party.removeMember memberDefID)).mPartyList ↔
      p ∈ w.mPartyList ∧ p.mPartyID ≠ party.mPartyID ∨ party.removeMember memberDefID = p :=
    (mem_setParty h).trans (or_congr_right (and_iff_right ⟨party, hparty, rfl⟩))
  unfold World.removeMember
  split
  · exact hset
  · exact hset

section Drop

variable {partyID memberDefID droppedID : Int}

/-- The parties after a member was dropped. -/
theorem mem_dropMember (hparty : w.getPartyByID partyID = some party) :
    p ∈ (w.dropMember partyID memberDefID droppedID).mPartyList ↔
      p ∈ w.mPartyList ∧ p.mPartyID ≠ partyID ∨
        2 ≤ (party.removeMember memberDefID).mMemberList.length ∧
          (party.removeMember memberDefID).updateLeaderDropped droppedID = p := by
  obtain ⟨hmem, hid⟩ := (getPartyByID_eq_some h).mp hparty
  have hkeyed := h.removeMember hmem memberDefID
  unfold World.dropMember
  rw [hparty]
  dsimp only
  split
  · rename_i hsmall
    rw [mem_disband hkeyed, mem_removeMember_parties h hmem, mPartyID_removeMember, hid]
    constructor
    · rintro ⟨⟨hp, -⟩ | rfl, hne⟩
      · exact .inl ⟨hp, hne⟩
      · exact absurd hid hne
    · rintro (⟨hp, hne⟩ | ⟨hlarge, -⟩)
      · exact ⟨.inl ⟨hp, hne⟩, hne⟩
      · omega
  · rename_i hlarge
    rw [mem_setParty hkeyed, mem_removeMember_parties h hmem, mPartyID_updateLeaderDropped,
      mPartyID_removeMember, hid]
    constructor
    · rintro (⟨⟨hp, -⟩ | rfl, hne⟩ | ⟨-, heq⟩)
      · exact .inl ⟨hp, hne⟩
      · exact absurd hid hne
      · exact .inr ⟨by omega, heq⟩
    · rintro (⟨hp, hne⟩ | ⟨-, heq⟩)
      · exact .inl ⟨.inl ⟨hp, hne⟩, hne⟩
      · exact .inr ⟨⟨_, (mem_removeMember_parties h hmem).mpr (.inr rfl), hid⟩, heq⟩

theorem Keyed.dropMember (partyID memberDefID droppedID : Int) :
    (w.dropMember partyID memberDefID droppedID).Keyed := by
  unfold World.dropMember
  split
  · exact h
  · rename_i party hparty
    have hmem := ((getPartyByID_eq_some h).mp hparty).1
    have hkeyed := h.removeMember hmem memberDefID
    dsimp only
    split
    · exact hkeyed.disband _
    · apply hkeyed.setParty
      rw [mMemberList_updateLeaderDropped]
      exact (h.distinct party hmem).sublist (removeMember_sublist party memberDefID)

/-- Only the creatures of members who are dropped, or whose party ends, are told. -/
theorem mem_dropMember_playerList (hparty : w.getPartyByID partyID = some party)
    (hc : c ∈ w.playerList)
    (hout : ∀ m ∈ party.mMemberList, m.creature = some c.creatureID →
      m.mCreatureDefID ≠ memberDefID ∧ 2 ≤ (party.removeMember memberDefID).mMemberList.length) :
    c ∈ (w.dropMember partyID memberDefID droppedID).playerList := by
  have hmem := ((getPartyByID_eq_some h).mp hparty).1
  have hc' : c ∈ (w.removeMember party memberDefID).playerList :=
    mem_removeMember_playerList h hmem hc fun m hm hid => (hout m hm hid).1
  unfold World.dropMember
  rw [hparty]
  dsimp only
  split
  · rename_i hsmall
    apply mem_disband_playerList (h.removeMember hmem memberDefID) hc'
    intro m hm hid
    have hlarge := (hout m ((removeMember_sublist party memberDefID).subset hm) hid).2
    omega
  · exact hc'

end Drop

/-! ### New members -/

/-- The parties after a creature has joined one of them. -/
theorem mem_addMember (hparty : party ∈ w.mPartyList)
    (hnew : party.hasMember c.creatureDefID = false) :
    p ∈ (w.addMember party c).mPartyList ↔
      p ∈ w.mPartyList ∧ p.mPartyID ≠ party.mPartyID ∨
        { party with mMemberList := party.mMemberList ++ [c.member] } = p := by
  have hadd : (w.addMember party c).mPartyList =
      (w.setParty { party with mMemberList := party.mMemberList ++ [c.member] }).mPartyList := by
    unfold World.addMember
    rw [hnew, ← addMember_of_not (m := c.member) hnew]
    rfl
  rw [hadd, mem_setParty h]
  exact or_congr_right (and_iff_right ⟨party, hparty, rfl⟩)

theorem Keyed.addMember (hparty : party ∈ w.mPartyList) (c : CreatureInstance) :
    (w.addMember party c).Keyed := by
  unfold World.addMember
  split
  · exact h
  · rename_i hnew
    rw [Bool.not_eq_true] at hnew
    apply Keyed.setPartyID
    apply h.setParty
    rw [addMember_of_not hnew]
    apply nodupKeys_append_singleton.mpr ⟨h.distinct party hparty, ?_⟩
    intro m hm heq
    rw [hasMember_iff.mpr ⟨m, hm, heq⟩] at hnew
    cases hnew

theorem mem_addMember_playerList {c' : CreatureInstance} (hc : c' ∈ w.playerList)
    (hne : c'.creatureID ≠ c.creatureID) : c' ∈ (w.addMember party c).playerList := by
  unfold World.addMember
  split
  · exact hc
  · exact h.players.mem_modify_findIdx.mpr (.inl ⟨hc, hne⟩)

theorem mem_addMember_self (hc : c ∈ w.playerList) (hnew : party.hasMember c.creatureDefID = false) :
    { c with partyID := party.mPartyID } ∈ (w.addMember party c).playerList := by
  unfold World.addMember
  rw [hnew]
  exact h.players.mem_modify_findIdx.mpr (.inr ⟨c, hc, rfl, rfl⟩)

end Keyed

/-! ### References -/

theorem map_visitParties {β : Type*} {g : ActiveParty → β} {f : ActiveParty → ActiveParty}
    (hf : ∀ p, g (f p) = g p) (memberDefID : Int) (l : List ActiveParty) :
    (visitParties memberDefID f l).map g = l.map g := by
  induction l with
  | nil => rfl
  | cons p rest ih =>
      rw [visitParties, List.map_cons, List.map_cons, hf]
      split
      · rfl
      · rw [ih]

/-- A walk changes parties, or does not reach them. -/
theorem mem_visitParties {f : ActiveParty → ActiveParty} {memberDefID : Int} {l : List ActiveParty}
    (hp : p ∈ visitParties memberDefID f l) : p ∈ l ∨ ∃ q ∈ l, f q = p := by
  induction l with
  | nil => cases hp
  | cons q rest ih =>
      rw [visitParties, List.mem_cons] at hp
      obtain rfl | hp := hp
      · exact .inr ⟨q, List.mem_cons_self, rfl⟩
      · split at hp
        · exact .inl (List.mem_cons_of_mem q hp)
        · obtain hp | ⟨q', hq', heq⟩ := ih hp
          · exact .inl (List.mem_cons_of_mem q hp)
          · exact .inr ⟨q', List.mem_cons_of_mem q hq', heq⟩

/-- A walk keeps the parties it does not change. -/
theorem visitParties_of_mem {f : ActiveParty → ActiveParty} {memberDefID : Int}
    {l : List ActiveParty} (hp : p ∈ l) :
    p ∈ visitParties memberDefID f l ∨ f p ∈ visitParties memberDefID f l := by
  induction l with
  | nil => cases hp
  | cons q rest ih =>
      rw [visitParties, List.mem_cons, List.mem_cons]
      obtain rfl | hp := List.mem_cons.mp hp
      · exact .inr (.inl rfl)
      · split
        · exact .inl (.inr hp)
        · exact (ih hp).imp .inr .inr

/-- A walk for somebody who is in one party at most passes by the others only. -/
theorem mem_visitParties_of_pairwise {f : ActiveParty → ActiveParty} {memberDefID : Int}
    {l : List ActiveParty}
    (hl : l.Pairwise fun p q => p.hasMember memberDefID = true → q.hasMember memberDefID = false)
    (hp : p ∈ visitParties memberDefID f l) :
    p ∈ l ∧ p.hasMember memberDefID = false ∨ ∃ q ∈ l, f q = p := by
  induction l with
  | nil => cases hp
  | cons q rest ih =>
      obtain ⟨hq, hrest⟩ := List.pairwise_cons.mp hl
      rw [visitParties, List.mem_cons] at hp
      obtain rfl | hp := hp
      · exact .inr ⟨q, List.mem_cons_self, rfl⟩
      · split at hp
        · rename_i hhas
          exact .inl ⟨List.mem_cons_of_mem q hp, hq p hp hhas⟩
        · obtain ⟨hp, hnot⟩ | ⟨q', hq', heq⟩ := ih hrest hp
          · exact .inl ⟨List.mem_cons_of_mem q hp, hnot⟩
          · exact .inr ⟨q', List.mem_cons_of_mem q hq', heq⟩

theorem Keyed.visitParties (h : w.Keyed) {memberDefID : Int} {f : ActiveParty → ActiveParty}
    (hid : ∀ p, (f p).mPartyID = p.mPartyID)
    (hdistinct : ∀ p, NodupKeys PartyMember.mCreatureDefID p.mMemberList →
      NodupKeys PartyMember.mCreatureDefID (f p).mMemberList) :
    { w with mPartyList := World.visitParties memberDefID f w.mPartyList }.Keyed where
  players := h.players
  parties := by
    unfold NodupKeys
    rw [map_visitParties hid]
    exact h.parties
  below := by
    intro p hp
    obtain hp | ⟨q, hq, rfl⟩ := mem_visitParties hp
    · exact h.below p hp
    · rw [hid]
      exact h.below q hq
  distinct := by
    intro p hp
    obtain hp | ⟨q, hq, rfl⟩ := mem_visitParties hp
    · exact h.distinct p hp
    · exact hdistinct q (h.distinct q hq)

theorem Keyed.removePlayerReferences (h : w.Keyed) (memberDefID : Int) (disconnect : Bool) :
    (w.removePlayerReferences memberDefID disconnect).Keyed :=
  h.visitParties (fun _ => rfl) fun _ hp => hp.modify _ fun _ => rfl

/-- A new creature has an ID of its own. -/
theorem Keyed.modifyCreature (h : w.Keyed) (newID : Int) {creatureID : Int}
    {f : CreatureInstance → CreatureInstance} (hf : ∀ c, (f c).creatureID = newID)
    (hfree : ∀ c ∈ w.playerList, c.creatureID = newID → newID = creatureID) :
    (w.modifyCreature creatureID f).Keyed where
  players := h.players.rekey_findIdx hf hfree
  parties := h.parties
  below := h.below
  distinct := h.distinct

theorem Keyed.updatePlayerReferences (h : w.Keyed) {creatureID newID : Int}
    (hfree : ∀ c ∈ w.playerList, c.creatureID = newID → newID = creatureID) (actInst : Int) :
    (w.updatePlayerReferences creatureID newID actInst).Keyed := by
  unfold World.updatePlayerReferences
  split
  · exact h
  · refine Keyed.visitParties (h.modifyCreature newID ?_ hfree) ?_ ?_
    · intro c
      rfl
    · intro p
      rfl
    · intro p hp
      exact hp.modify _ fun _ => rfl

/-- A new party has nobody in it and a new ID. -/
theorem Keyed.newParty (h : w.Keyed) (hid : party.mPartyID = w.nextPartyID)
    (hnil : party.mMemberList = []) :
    { w with mPartyList := w.mPartyList ++ [party], nextPartyID := w.nextPartyID + 1 }.Keyed where
  players := h.players
  parties := by
    apply nodupKeys_append_singleton.mpr ⟨h.parties, ?_⟩
    intro p hp heq
    have := h.below p hp
    omega
  below := by
    intro p hp
    obtain hp | hp := List.mem_append.mp hp
    · have := h.below p hp
      dsimp only
      omega
    · rw [List.mem_singleton.mp hp]
      dsimp only
      omega
  distinct := by
    intro p hp
    obtain hp | hp := List.mem_append.mp hp
    · exact h.distinct p hp
    · rw [List.mem_singleton.mp hp, hnil]
      exact List.nodup_nil

theorem Keyed.addMemberTo (h : w.Keyed) (partyID : Int) (c : CreatureInstance) :
    (w.addMemberTo partyID c).Keyed := by
  unfold World.addMemberTo
  split
  · rename_i party hparty
    exact h.addMember ((getPartyByID_eq_some h).mp hparty).1 c
  · exact h

theorem Keyed.acceptInvite (h : w.Keyed) (memberID leaderDefID : Int) :
    (w.acceptInvite memberID leaderDefID).Keyed := by
  unfold World.acceptInvite
  split
  · split
    · rename_i party hparty
      exact h.addMember (List.mem_of_find?_eq_some hparty) _
    · apply Keyed.addMemberTo
      apply Keyed.addMemberTo
      exact h.newParty rfl rfl
  · exact h

theorem Keyed.doQuit (h : w.Keyed) (creatureID : Int) : (w.doQuit creatureID).Keyed := by
  unfold World.doQuit
  split
  · exact h
  · exact (h.setPartyID creatureID 0).dropMember _ _ _

theorem Keyed.modifyParty (h : w.Keyed) (creatureID : Int) {f : ActiveParty → ActiveParty}
    (hf : ∀ p, (f p).mMemberList = p.mMemberList) : (w.modifyParty creatureID f).Keyed := by
  unfold World.modifyParty
  split
  · exact h
  · rename_i party hbind
    obtain ⟨c, -, hparty⟩ := Option.bind_eq_some_iff.mp hbind
    apply h.setParty
    rw [hf]
    exact h.distinct party ((getPartyByID_eq_some h).mp hparty).1

theorem Keyed.doSetLeader (h : w.Keyed) (creatureID newLeaderID : Int) :
    (w.doSetLeader creatureID newLeaderID).Keyed := by
  apply h.modifyParty
  intro p
  split
  · rfl
  · split
    · exact mMemberList_setLeader p _
    · rfl

end World

end Loot

end Iceee
