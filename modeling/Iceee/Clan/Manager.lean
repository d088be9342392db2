import Iceee.Cluster.Keys

/-!
# Clans

A clan is an entity of the cluster, with the members and their ranks in one list and the
invited characters in another. Its name leads to its ID through a key of its own.
-/

namespace Iceee.Clans

open Lib

namespace Rank

def UNKNOWN : Int := 0
def INITIATE : Int := 1
def MEMBER : Int := 2
def OFFICER : Int := 3
def LEADER : Int := 4

/-- `GetIDByName`. -/
def getIDByName (name : Text) : Int :=
  if name = "Leader".toList then LEADER
  else if name = "Officer".toList then OFFICER
  else if name = "Member".toList then MEMBER
  else INITIATE

end Rank

structure ClanMember where
  mID : Int := 0
  mRank : Int := Rank.MEMBER
  deriving DecidableEq, Repr

structure Clan where
  mId : Int := 0
  mName : Text := []
  mMOTD : Text := []
  mMembers : List ClanMember := []
  mPendingMembers : List Int := []
  mCreated : UInt64 := 0
  deriving DecidableEq, Repr

namespace Clan

/-! ### The entity -/

/-- `KEYPREFIX_CLAN` and the ID. -/
def entityKey (id : Int) : EntityKey where
  mCatalog := "Clan"
  mID := String.ofList (printInt id)

/-- A member in the list: `%d:%d`. -/
def printMember (member : ClanMember) : Text := printInt member.mID ++ ':' :: printInt member.mRank

/-- `WriteEntity`. -/
def writeEntity (clan : Clan) : ClusterEntityWriter :=
  ClusterEntityWriter.mk (entityKey clan.mId) "" []
  |>.value "Name" clan.mName
  |>.value "MOTD" clan.mMOTD
  |>.valueULong "Created" clan.mCreated
  |>.listValue "Member" (clan.mMembers.map printMember)
  |>.listValue "PendingMember" (clan.mPendingMembers.map printInt)

/-- A piece of the list of members; pieces without two fields are skipped. -/
def readMember (piece : Text) : Option ClanMember :=
  match split piece with
  | id :: rank :: _ => some { mID := parseInt id, mRank := parseInt rank }
  | _ => none

/-- `ReadEntity`. -/
def readEntity (rd : ClusterEntityReader) (client : Client) (clan : Clan) : Clan :=
  { clan with
    mName := rd.value client "Name" []
    mMOTD := rd.value client "MOTD" []
    mCreated := rd.valueULong client "Created"
    mMembers := clan.mMembers ++ (rd.listValue client "Member").filterMap readMember
    mPendingMembers := clan.mPendingMembers ++ (rd.listValue client "PendingMember").map parseInt }

/-! ### The members -/

variable (clan : Clan)

/-- `GetMember`: a character that is not listed gets a new member. -/
def getMember (id : Int) : ClanMember := (clan.mMembers.find? fun m => m.mID == id).getD {}

/-- `RemoveMember`: the first one with the ID. -/
def removeMember (member : ClanMember) : Clan :=
  { clan with mMembers := clan.mMembers.eraseP fun m => m.mID == member.mID }

/-- `UpdateMember`: the first one with the ID, if there is one. -/
def updateMember (member : ClanMember) : Clan :=
  { clan with
    mMembers :=
      clan.mMembers.modify (clan.mMembers.findIdx fun m => m.mID == member.mID) fun _ => member }

end Clan

/-! ### The manager -/

/-- The key that leads from a name to an ID. -/
def nameKey (name : Text) : String := "ClanNameToID" ++ ":" ++ String.ofList name

/-- The key that `HasClan` asks for. -/
def clanKey (id : Int) : String := "Clan" ++ ":" ++ String.ofList (printInt id)

/-- `LoadClan`. -/
def loadClan (st : KeyStore) (id : Int) (clan : Clan) : Clan :=
  Clan.readEntity { key := Clan.entityKey id } st.client { clan with mId := id }

/-- `GetClan`. -/
def getClan (st : KeyStore) (id : Int) : Clan := loadClan st id {}

/-- `HasClan`. -/
def hasClan (st : KeyStore) (id : Int) : Bool := st.hasKey (clanKey id)

/-- `FindClanID`. -/
def findClanID (st : KeyStore) (name : Text) : Int :=
  parseInt (st.getKey (nameKey name) "-1".toList)

/-- `SaveClan`. -/
def saveClan (st : KeyStore) (clan : Clan) : KeyStore :=
  (st.setKey (nameKey clan.mName) (printInt clan.mId)).writeEntity clan.writeEntity

/-- `RemoveClan`. -/
def removeClan (st : KeyStore) (clan : Clan) : KeyStore :=
  (st.removeKey (nameKey clan.mName)).removeEntity (Clan.entityKey clan.mId)

end Iceee.Clans
