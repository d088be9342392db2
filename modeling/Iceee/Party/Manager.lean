import Iceee.Lib.Trace
import Iceee.Loot.Queries

/-!
# The party manager

What the handlers, the scripts and the simulators ask of the party manager, one event each.

## Implementation notes

`DoKick` goes on reading the place of the entry it has erased. The next entry is there then;
`behind` is what lies behind the last one. A player who comes into the world has a creature
with a new ID before the references of his party are updated.
-/

namespace Iceee

/-- The ID at the place of a member that was erased. -/
def ActiveParty.erasedID (party : ActiveParty) (memberID memberDefID behind : Int) : Int :=
  let index := party.mMemberList.findIdx fun m => m.mCreatureID == memberID
  (((party.removeMember memberDefID).mMemberList[index]?).map PartyMember.mCreatureID).getD behind

namespace Loot

namespace World

variable (w : World)

/-- `DoKick`. -/
def kick (creatureID memberID behind : Int) : World :=
  match (w.getCreature creatureID).bind fun c => w.getPartyByID c.partyID with
  | none => w
  | some party =>
      match party.getMemberByID memberID with
      | none => w
      | some m => w.doKick creatureID memberID (party.erasedID memberID m.mCreatureDefID behind)

/-- The loop of `DoDisband` over a copy of the members. -/
def disbandLoop (partyID : Int) : World → List PartyMember → World
  | w, [] => w
  | w, m :: rest =>
      match w.getPartyByID partyID with
      | none => w
      | some party =>
          if m.mCreatureID ≠ party.mLeaderID then
            disbandLoop partyID
              ((w.removeMember party m.mCreatureDefID).setParty
                ((party.removeMember m.mCreatureDefID).updateLeaderDropped m.mCreatureID)) rest
          else disbandLoop partyID w rest

/-- `DoDisband`. The leader stays, so that the test for an empty party fails. -/
def doDisband (partyID : Int) : World :=
  match w.getPartyByID partyID with
  | none => w
  | some party =>
      let w := disbandLoop partyID w party.mMemberList
      match w.getPartyByID partyID with
      | none => w
      | some party =>
          if party.mMemberList.isEmpty then
            { w with mPartyList := w.mPartyList.eraseP fun p => p.mPartyID == partyID }
          else w

/-- A player comes into the world with a new creature. -/
def load (creatureID newID partyID : Int) : World :=
  w.modifyCreature creatureID fun c => { c with creatureID := newID, partyID }

/-- `UpdatePlayerReferences`. -/
def updateReferences (creatureID : Int) : World :=
  match w.getCreature creatureID with
  | none => w
  | some c => w.updatePlayerReferences creatureID creatureID c.actInst

end World

/-! ### Runs -/

inductive PartyEvent where
  | acceptInvite (memberID leaderDefID : Int)
  | quit (creatureID : Int)
  | kick (creatureID memberID behind : Int)
  | setLeader (creatureID newLeaderID : Int)
  | disband (partyID : Int)
  | load (creatureID newID partyID : Int)
  | updateReferences (creatureID : Int)
  | removeReferences (memberDefID : Int) (disconnect : Bool)
  deriving DecidableEq, Repr

def partyStep (w : World) : PartyEvent → Option World
  | .acceptInvite memberID leaderDefID => some (w.acceptInvite memberID leaderDefID)
  | .quit creatureID => some (w.doQuit creatureID)
  | .kick creatureID memberID behind => some (w.kick creatureID memberID behind)
  | .setLeader creatureID newLeaderID => some (w.doSetLeader creatureID newLeaderID)
  | .disband partyID => some (w.doDisband partyID)
  | .load creatureID newID partyID => some (w.load creatureID newID partyID)
  | .updateReferences creatureID => some (w.updateReferences creatureID)
  | .removeReferences memberDefID disconnect =>
      some (w.removePlayerReferences memberDefID disconnect)

end Loot

end Iceee
