import Iceee.Clan.Manager
import Iceee.Lib.Trace

/-!
# The clan queries

A character has the ID of his clan, and the clan has the list of its members. Seven handlers
change one of them, or both.

## Implementation notes

The store is ideal: it returns a clan as it was saved, and knows it from its creation to its
removal. `HasClan` of the source asks for a key that is never written, and a clan that is read lacks
its members (`Clan.Persistence`); neither is part of this model. The messages to the clients are
left out. The character data of a member is there when it is asked for.
-/

namespace Iceee.Clans

open Lib

/-- A query, with the configuration and what the databases of names answer. -/
structure Query where
  CreatureDefID : Int
  args : List Text := []
  clansEnabled : Bool := true
  ClanCost : Nat := 100000
  time : UInt64 := 0
  getCharacterByName : Text → Option Int := fun _ => none
  getIDByName : Text → Int := fun _ => -1

inductive Reply
  | ok
  | error (message : String)
  deriving DecidableEq, Repr

/-- The stored clans with the IDs of their names, and what the queries change of the characters. -/
structure World where
  clans : Int → Option Clan := fun _ => none
  clanNameToID : Text → Option Int := fun _ => none
  nextClanID : Int := 0
  clan : Int → Int := fun _ => 0
  copper : Int → Int := fun _ => 0

namespace World

variable (w : World)

def hasClan (id : Int) : Bool := (w.clans id).isSome

def getClan (id : Int) : Clan := (w.clans id).getD { mId := id }

def findClanID (name : Text) : Int := (w.clanNameToID name).getD (-1)

def saveClan (c : Clan) : World :=
  { w with
    clans := Function.update w.clans c.mId (some c)
    clanNameToID := Function.update w.clanNameToID c.mName (some c.mId) }

def removeClan (c : Clan) : World :=
  { w with
    clans := Function.update w.clans c.mId none
    clanNameToID := Function.update w.clanNameToID c.mName none }

/-- `CreateClan`, with the ID the clan gets. -/
def createClan (time : UInt64) (c : Clan) : World × Int :=
  let id := w.nextClanID + 1
  ({ w with nextClanID := id }.saveClan { c with mId := id, mCreated := time }, id)

/-- Set the clan of a character. -/
def setClan (character id : Int) : World :=
  { w with clan := Function.update w.clan character id }

/-- `AdjustCopper`. -/
def adjustCopper (character coinChange : Int) : World :=
  { w with
    copper := Function.update w.copper character (max 0 (w.copper character + coinChange)) }

/-! ### The handlers -/

/-- `ClanDisbandHandler`. -/
def disband (q : Query) : World × Reply :=
  let clanID := w.clan q.CreatureDefID
  if clanID = 0 then (w, .error "You are not in a clan.")
  else if !w.hasClan clanID then (w, .error "Your clan does not exist!")
  else
    let c := w.getClan clanID
    let member := c.getMember q.CreatureDefID
    if member.mRank ≠ Rank.LEADER then (w, .error "Must be the leader to set the MOTD!")
    else ((c.mMembers.foldl (fun w m => w.setClan m.mID 0) w).removeClan c, .ok)

/-- `ClanCreateHandler`. -/
def create (q : Query) : World × Reply :=
  if !q.clansEnabled then (w, .error "Clans are not enabled.")
  else
    match q.args with
    | [] => (w, .error "Invalid query->")
    | name :: _ =>
        if w.clan q.CreatureDefID > 0 then
          (w, .error "You may not create a clan, you are already part of one.")
        else if w.copper q.CreatureDefID < q.ClanCost then
          (w, .error "You do not have enough gold to create a clan.")
        else
          let w := w.adjustCopper q.CreatureDefID (-q.ClanCost)
          let clanID := w.findClanID name
          if clanID = -1 then
            let (w, id) := w.createClan q.time
              { mName := name, mMembers := [{ mID := q.CreatureDefID, mRank := Rank.LEADER }] }
            (w.setClan q.CreatureDefID id, .ok)
          else (w, .error "A clan with that name already exists.")

/-- `ClanInviteAcceptHandler`. -/
def inviteAccept (q : Query) : World × Reply :=
  if !q.clansEnabled then (w, .error "Clans are not enabled.")
  else
    match q.args with
    | [] => (w, .error "Invalid query->")
    | name :: _ =>
        if w.clan q.CreatureDefID ≠ 0 then (w, .error "You are already in a clan.")
        else
          let clanID := w.findClanID name
          if clanID = -1 then (w, .error "The clan does not exist!")
          else
            let c := w.getClan clanID
            if q.CreatureDefID ∉ c.mPendingMembers then (w, .error "No invite found!")
            else
              let member : ClanMember := { mID := q.CreatureDefID, mRank := Rank.INITIATE }
              let c :=
                { c with
                  mPendingMembers := c.mPendingMembers.erase q.CreatureDefID
                  mMembers := c.mMembers ++ [member] }
              ((w.setClan q.CreatureDefID clanID).saveClan c, .ok)

/-- `ClanInviteHandler`. -/
def invite (q : Query) : World × Reply :=
  if !q.clansEnabled then (w, .error "Clans are not enabled.")
  else
    match q.args with
    | [] => (w, .error "Invalid query->")
    | invitee :: _ =>
        let clanID := w.clan q.CreatureDefID
        if clanID = 0 then (w, .error "You are not in a clan.")
        else if !w.hasClan clanID then (w, .error "Your clan does not exist!")
        else
          let c := w.getClan clanID
          let member := c.getMember q.CreatureDefID
          if member.mRank < Rank.OFFICER then
            (w, .error "Must be at least an officer to invite a player!")
          else
            match q.getCharacterByName invitee with
            | none => (w, .error (String.ofList invitee ++ " is not online."))
            | some cd => (w.saveClan { c with mPendingMembers := c.mPendingMembers ++ [cd] }, .ok)

/-- `ClanRankHandler` from the lookup of the two members on. -/
def changeRank (q : Query) (c : Clan) (memberCDefID newRank : Int) : World × Reply :=
  let me := c.getMember q.CreatureDefID
  let them := c.getMember memberCDefID
  if me.mID = 0 then (w, .error "You are not in this clan.")
  else if them.mID = 0 then (w, .error "Player is not in your clan.")
  else if me.mID = them.mID then (w, .error "Cannot promote or demote yourself.")
  else if me.mRank < Rank.OFFICER then
    (w, .error "You must be at least an officer to promote or demote others.")
  else if me.mRank ≤ them.mRank then
    (w, .error "You must be of greater rank to promote or demote someone.")
  else if newRank > me.mRank then
    (w, .error "You cannot promote someone above your own rank.")
  else if newRank < Rank.INITIATE then (w, .error "Cannot demote below Initiate.")
  else if newRank < Rank.LEADER ∧ c.mMembers.length < 2 then
    (w, .error <| "Cannot demote, would leave clan without a leader. " ++
      "Disband instead if you want to leave.")
  else (w.saveClan (c.updateMember { them with mRank := newRank }), .ok)

/-- `ClanRankHandler`. -/
def rank (q : Query) : World × Reply :=
  let clanID := w.clan q.CreatureDefID
  if !q.clansEnabled then (w, .error "Clans are not enabled.")
  else if clanID = 0 then (w, .error "You are not in a clan.")
  else if !w.hasClan clanID then (w, .error "Your clan does not exist!")
  else
    match q.args with
    | memberName :: rankName :: _ =>
        let newRank := Rank.getIDByName rankName
        let memberCDefID := q.getIDByName memberName
        if memberCDefID = -1 then (w, .error "No such clan member.")
        else w.changeRank q (w.getClan clanID) memberCDefID newRank
    | _ => (w, .error "Invalid query->")

/-- `ClanRemoveHandler`. -/
def remove (q : Query) : World × Reply :=
  if !q.clansEnabled then (w, .error "Clans are not enabled.")
  else
    match q.args with
    | [] => (w, .error "Invalid query->")
    | memberName :: _ =>
        let clanID := w.clan q.CreatureDefID
        if clanID = 0 then (w, .error "You are not in a clan.")
        else if !w.hasClan clanID then (w, .error "Your clan does not exist!")
        else
          let c := w.getClan clanID
          let me := c.getMember q.CreatureDefID
          if me.mRank < Rank.OFFICER then
            (w, .error "Must be at least an officer to remove a clan me")
          else
            let memberCDefID := q.getIDByName memberName
            let them := c.getMember memberCDefID
            if memberCDefID = -1 then (w, .error "No such clan member.")
            else if memberCDefID = q.CreatureDefID then
              (w, .error "Cannot remove yourself from a clan.")
            else if them.mID = 0 then (w, .error "Player is not in your clan.")
            else ((w.setClan memberCDefID 0).saveClan (c.removeMember them), .ok)

/-- `ClanLeaveHandler`. The clan of the character stays. -/
def leave (q : Query) : World × Reply :=
  if !q.clansEnabled then (w, .error "Clans are not enabled.")
  else
    let clanID := w.clan q.CreatureDefID
    if clanID = 0 then (w, .error "You are not in a clan.")
    else if !w.hasClan clanID then (w, .error "Your clan does not exist!")
    else
      let c := w.getClan clanID
      let me := c.getMember q.CreatureDefID
      if me.mID = 0 then (w, .error "Player is not in your clan.")
      else (w.saveClan (c.removeMember me), .ok)

end World

/-- The queries of the clans. -/
inductive Handler
  | disband
  | create
  | inviteAccept
  | invite
  | rank
  | remove
  | leave
  deriving DecidableEq, Repr

/-- `handleQuery`. -/
def World.handleQuery (w : World) (q : Query) : Handler → World × Reply
  | .disband => w.disband q
  | .create => w.create q
  | .inviteAccept => w.inviteAccept q
  | .invite => w.invite q
  | .rank => w.rank q
  | .remove => w.remove q
  | .leave => w.leave q

/-- One query. -/
def step (w : World) (e : Handler × Query) : Option World := some (w.handleQuery e.2 e.1).1

end Iceee.Clans
