import Mathlib

/-!
# Parties

The members of a party, its loot rules, and the tags under which items are on offer to
members.

## Implementation notes

A member points at the creature of the player; the pointer is null while the player is
away, and the creature's ID is the member's otherwise. Whether that creature has its
simulator is kept with the member. The table of tags is keyed by the tag number; the order
of its entries decides nothing that is kept here.
-/

namespace Iceee

/-! The loot modes. A client can store any number as the mode of its party. -/

namespace LootMode

def freeForAll : Int := 0
def roundRobin : Int := 1
def lootMaster : Int := 2

end LootMode

structure LootTag where
  lootTag : Int := 0
  mItemId : Int := 0
  mCreatureId : Int := 0
  mLootCreatureId : Int := 0
  deriving DecidableEq, Repr

/-- `LootTag::Valid`. -/
def LootTag.valid (t : LootTag) : Bool := t.lootTag > 0

structure PartyMember where
  mCreatureDefID : Int
  mCreatureID : Int
  mCreaturePtr : Bool := true
  simulatorPtr : Bool := true
  mSocket : Bool := true
  mDisplayName : String := ""
  deriving DecidableEq, Repr

/-- `IsOnlineAndValid`. -/
def PartyMember.isOnlineAndValid (m : PartyMember) : Bool :=
  m.mSocket && m.mCreaturePtr && m.simulatorPtr

theorem PartyMember.mCreaturePtr_of_isOnlineAndValid {m : PartyMember}
    (h : m.isOnlineAndValid = true) : m.mCreaturePtr = true :=
  (Bool.and_eq_true_iff.mp (Bool.and_eq_true_iff.mp h).1).2

/-- The creature a member points at. -/
def PartyMember.creature (m : PartyMember) : Option Int :=
  if m.mCreaturePtr then some m.mCreatureID else none

structure ActiveParty where
  mPartyID : Int := 0
  mLeaderDefID : Int := 0
  mLeaderID : Int := 0
  mLootMode : Int := LootMode.freeForAll
  needB4Greed : Bool := false
  mundane : Bool := false
  mNextToGetLoot : Nat := 0
  mLeaderName : String := ""
  mMemberList : List PartyMember := []
  lootTags : AList fun _ : Int => LootTag := ∅

namespace ActiveParty

variable (party : ActiveParty)

/-- The tags of the table. -/
def tags : List LootTag := party.lootTags.entries.map Sigma.snd

/-- `GetTag`; an invalid tag when there is none. -/
def getTag (itemId creatureId : Int) : LootTag :=
  (party.tags.find? fun t => t.mItemId == itemId && t.mCreatureId == creatureId).getD {}

/-- Keep the tags that do not match. -/
def removeTags (p : LootTag → Bool) : ActiveParty :=
  { party with
    lootTags :=
      ⟨party.lootTags.entries.filter fun e => !p e.2,
        party.lootTags.nodupKeys.sublist List.filter_sublist⟩ }

/-- `RemoveTagsForLootCreatureId`; 0 stands for any item or creature. -/
def removeTagsForLootCreatureId (lootCreatureId itemId creatureId : Int) : ActiveParty :=
  party.removeTags fun t =>
    t.mLootCreatureId == lootCreatureId && (itemId == 0 || t.mItemId == itemId) &&
      (creatureId == 0 || t.mCreatureId == creatureId)

/-- `RemoveCreatureTags`; -1 stands for any item. -/
def removeCreatureTags (itemId creatureId : Int) : ActiveParty :=
  party.removeTags fun t => (itemId == -1 || t.mItemId == itemId) && t.mCreatureId == creatureId

/-- `HasTags`. -/
def hasTags (lootCreatureID itemId : Int) : Bool :=
  party.tags.any fun t => t.mLootCreatureId == lootCreatureID && t.mItemId == itemId

/-- `HasMember`. -/
def hasMember (memberDefID : Int) : Bool :=
  party.mMemberList.any fun m => m.mCreatureDefID == memberDefID

/-- `AddMember`, the list only. -/
def addMember (m : PartyMember) : ActiveParty :=
  if party.hasMember m.mCreatureDefID then party
  else { party with mMemberList := party.mMemberList ++ [m] }

/-- `RemoveMember`, the list only. -/
def removeMember (memberDefID : Int) : ActiveParty :=
  { party with
    mMemberList := party.mMemberList.eraseP fun m => m.mCreatureDefID == memberDefID }

/-- `UpdateLeaderDropped`. -/
def updateLeaderDropped (memberID : Int) : ActiveParty :=
  match party.mMemberList with
  | [] => party
  | first :: _ =>
      if memberID = party.mLeaderID then
        { party with
          mLeaderDefID := first.mCreatureDefID
          mLeaderID := first.mCreatureID
          mLeaderName := first.mDisplayName }
      else party

/-- `GetMemberByID`. -/
def getMemberByID (memberID : Int) : Option PartyMember :=
  party.mMemberList.find? fun m => m.mCreatureID == memberID

/-- `GetOnlineMemberCount`. -/
def getOnlineMemberCount : Nat := party.mMemberList.countP PartyMember.isOnlineAndValid

/-- The loop of `GetNextLooter`, with the number of turns left. -/
def nextLooter : Nat → Nat → Option PartyMember × Nat
  | 0, next => (none, next)
  | turns + 1, next =>
      let next := if next ≥ party.mMemberList.length then 0 else next
      match party.mMemberList[next]? with
      | none => (none, next)
      | some m => if m.isOnlineAndValid then (some m, next + 1) else nextLooter turns (next + 1)

/-- `GetNextLooter`: the next member in turn who is online. -/
def getNextLooter : Option PartyMember × ActiveParty :=
  let (m, next) := party.nextLooter party.mMemberList.length party.mNextToGetLoot
  (m, { party with mNextToGetLoot := next })

/-- The member a loot master offer goes to: the leader, or else the first member online. -/
def lootMaster : Option PartyMember :=
  ((party.getMemberByID party.mLeaderID).filter PartyMember.isOnlineAndValid) <|>
    party.mMemberList.find? PartyMember.isOnlineAndValid

/-- `SetLeader`. -/
def setLeader (newLeaderDefID : Int) : ActiveParty :=
  match party.mMemberList.find? fun m => m.mCreatureDefID == newLeaderDefID with
  | some m =>
      { party with
        mLeaderDefID := m.mCreatureDefID
        mLeaderID := m.mCreatureID
        mLeaderName := m.mDisplayName }
  | none => party

/-- Change the first member with a definition ID. -/
def modifyMember (memberDefID : Int) (f : PartyMember → PartyMember) : ActiveParty :=
  { party with
    mMemberList :=
      party.mMemberList.modify
        (party.mMemberList.findIdx fun m => m.mCreatureDefID == memberDefID) f }

/-- `UpdatePlayerReferences`. -/
def updatePlayerReferences (memberID memberDefID : Int) : ActiveParty :=
  let leaderID := if party.mLeaderDefID = memberDefID then memberID else party.mLeaderID
  let party := { party with mLeaderID := leaderID }
  party.modifyMember memberDefID fun m =>
    { m with mCreatureID := memberID, mCreaturePtr := true, simulatorPtr := true, mSocket := true }

/-- `RemovePlayerReferences`. -/
def removePlayerReferences (memberDefID : Int) (disconnect : Bool) : ActiveParty :=
  (party.removeCreatureTags (-1) memberDefID).modifyMember memberDefID fun m =>
    { m with mCreaturePtr := false, mSocket := m.mSocket && !disconnect }

end ActiveParty

end Iceee
