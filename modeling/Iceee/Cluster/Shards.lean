import Iceee.Lib.Trace
import Iceee.Lib.Tally

/-!
# The shards of the cluster

What one shard keeps about the others: the shards it knows, the players in the cluster, the
players that are about to come to it, and which shard is the master.

## Implementation notes

An event reads the clock once. The subscriptions drop the messages of the shard itself. A
character that is not found is an input, and so are the addresses of a shard.
-/

namespace Iceee.Cluster

open Lib Std

def DEFAULT_SHARD_NAME : String := "Default shard name for ICEEE Earth Eternal server"

structure Shard where
  mName : String := ""
  mFullName : String := DEFAULT_SHARD_NAME
  mPlayers : Int := 0
  mLastSeen : Nat := 0
  mSimulatorPort : Int := 0
  mStartTime : Nat := 0
  mPing : Int := 0
  mSimulatorAddress : String := ""
  mHTTPAddress : String := ""
  mServerTime : Nat := 0
  mLocalTime : Nat := 0
  mTimeSet : Nat := 0
  deriving DecidableEq, Repr

/-- `SetTimes`. -/
def Shard.setTimes (s : Shard) (localTime serverTime now : Nat) : Shard :=
  { s with mTimeSet := now, mLocalTime := localTime, mServerTime := serverTime }

structure ShardPlayer where
  mID : Int := 0
  mZoneID : Int := 0
  mSimID : Nat := 0
  mShard : String := ""
  deriving DecidableEq, Repr

structure PendingShardPlayer where
  mToken : String
  mShardName : String
  mID : Int
  mReceived : Nat
  deriving DecidableEq, Repr

/-- The message `SERVER_CONFIGURATION`. -/
structure Configuration where
  shardName : String
  simulatorAddress : String
  simulatorPort : Int
  fullName : String
  players : Int
  launchTime : Nat
  utc : Nat
  time : Nat
  http : String
  deriving DecidableEq, Repr

/-- Where a shard is reached, from its configuration files. -/
structure Address where
  simAddress : String := ""
  simulatorPort : Int := 0
  http : String := ""
  deriving DecidableEq, Repr

structure ClusterManager where
  mShardName : String := "Default"
  mFullName : String := DEFAULT_SHARD_NAME
  mActivePlayers : TreeMap Int ShardPlayer := {}
  mActiveShards : TreeMap String Shard := {}
  mPending : List PendingShardPlayer := []
  mPingSentTime : Nat := 0
  mMasterShard : String := ""
  mMaster : Bool := false
  /-- Whether the auction timers were last started or cancelled. -/
  auctionTimers : Bool := false

namespace ClusterManager

variable (m : ClusterManager)

/-- `mActiveShards[shardName].mPlayers += d`. A shard that is not there is created. -/
def adjustPlayers (shardName : String) (d : Int) : ClusterManager :=
  let s := m.mActiveShards.getD shardName {}
  { m with mActiveShards := m.mActiveShards.insert shardName { s with mPlayers := s.mPlayers + d } }

/-- `IsShardActive`. -/
def isShardActive (shardName : String) : Bool := m.mActiveShards.contains shardName

/-! ### The master -/

/-- The loop of `FindMasterShard`, with `m` and `earliest`. -/
def earliestOf : List (String × Shard) → Shard → Nat → Shard
  | [], s, _ => s
  | (_, t) :: rest, s, earliest =>
      if t.mStartTime < earliest then earliestOf rest t t.mStartTime else earliestOf rest s earliest

/-- `FindMasterShard`. -/
def findMasterShard (now : Nat) : ClusterManager :=
  let s := earliestOf m.mActiveShards.toList {} (now + 10000)
  if m.mMasterShard ≠ s.mName then
    let mMaster : Bool := s.mName == m.mShardName
    -- `LoadItems` on the new master, `CancelAllTimers` elsewhere
    { m with mMasterShard := s.mName, mMaster, auctionTimers := mMaster }
  else m

/-- `Init`: the own shard is always active. -/
def init (address : Address) (localTime ms : Nat) : ClusterManager :=
  let shard : Shard :=
    { mName := m.mShardName, mSimulatorAddress := address.simAddress,
      mSimulatorPort := address.simulatorPort, mHTTPAddress := address.http,
      mFullName := m.mFullName, mStartTime := ms }
  { m with mActiveShards :=
      m.mActiveShards.insert m.mShardName (shard.setTimes localTime ms ms) }.findMasterShard ms

/-! ### Players -/

/-- `JoinedShard`. -/
def joinedShard (simID : Nat) (zoneID cdefID : Int) : ClusterManager :=
  let sp := m.mActivePlayers.getD cdefID {}
  let m := if sp.mID = 0 then m.adjustPlayers m.mShardName 1 else m
  let sp : ShardPlayer :=
    { mID := cdefID, mShard := m.mShardName, mZoneID := zoneID, mSimID := simID }
  { m with mActivePlayers := m.mActivePlayers.insert cdefID sp }

/-- `LeftShard`. -/
def leftShard (CDefID : Int) : ClusterManager :=
  if CDefID ∈ m.mActivePlayers then
    let m := m.adjustPlayers m.mShardName (-1)
    { m with mActivePlayers := m.mActivePlayers.erase CDefID }
  else m

/-- `JoinedOtherShard` for a character that this shard finds. -/
def joinedOtherShard (shardName : String) (cdefid zoneID : Int) (simID : Nat) : ClusterManager :=
  let sp : ShardPlayer := { mShard := shardName, mZoneID := zoneID, mSimID := simID, mID := cdefid }
  let m := match m.mActivePlayers[cdefid]? with
    | none => m.adjustPlayers shardName 1
    | some old => if old.mShard = shardName then m else m.adjustPlayers old.mShard (-1)
  { m with mActivePlayers := m.mActivePlayers.insert cdefid sp }

/-- Whether a player is about to come to this shard. -/
def isPending (cdefid : Int) : Bool := m.mPending.any (·.mID = cdefid)

/-- `LeftOtherShard`. -/
def leftOtherShard (shardName : String) (cdefid : Int) : ClusterManager :=
  if m.isPending cdefid then m
  else if cdefid ∈ m.mActivePlayers then
    let m := m.adjustPlayers shardName (-1)
    { m with mActivePlayers := m.mActivePlayers.erase cdefid }
  else m

/-- `TransferFromOtherShard`. -/
def transferFromOtherShard (cdefId : Int) (shardName token : String) (now : Nat) :
    ClusterManager :=
  let p : PendingShardPlayer :=
    { mID := cdefId, mToken := token, mShardName := shardName, mReceived := now }
  { m with mPending := m.mPending ++ [p] }

/-- `FindToken`. -/
def findToken (token : String) : ClusterManager :=
  match m.mPending.find? (·.mToken = token) with
  | none => m
  | some p =>
      let m :=
        if p.mID ∈ m.mActivePlayers then
          let m := m.adjustPlayers p.mShardName (-1)
          { m with mActivePlayers := m.mActivePlayers.erase p.mID }
        else m
      { m with mPending := m.mPending.eraseP (·.mToken = token) }

/-! ### Shards -/

/-- The players of a shard, as `ShardRemoved` collects them. -/
def playersOf (shardName : String) : List Int :=
  (m.mActivePlayers.toList.filter (·.2.mShard = shardName)).map (·.2.mID)

/-- `ShardRemoved`. -/
def shardRemoved (shardName : String) (now : Nat) : ClusterManager :=
  if m.isShardActive shardName then
    let m := (m.playersOf shardName).foldl (fun m cdefid => m.leftOtherShard shardName cdefid) m
    { m with mActiveShards := m.mActiveShards.erase shardName }.findMasterShard now
  else m

/-- `NewShard`. -/
def newShard (shardName : String) (now : Nat) : ClusterManager :=
  let m := if m.isShardActive shardName then m.shardRemoved shardName now else m
  { m with mActiveShards :=
      m.mActiveShards.insert shardName { mName := shardName, mLastSeen := now } }

/-- `ServerConfigurationReceived`. -/
def serverConfigurationReceived (cfg : Configuration) (now : Nat) : ClusterManager :=
  let m := if m.isShardActive cfg.shardName then m else m.newShard cfg.shardName now
  let s := m.mActiveShards.getD cfg.shardName {}
  let s := { s with
    mLastSeen := now
    mFullName := cfg.fullName
    mPlayers := cfg.players
    mSimulatorAddress := cfg.simulatorAddress
    mHTTPAddress := cfg.http
    mSimulatorPort := cfg.simulatorPort
    mStartTime := cfg.launchTime }
  let s := s.setTimes cfg.time cfg.utc now
  let s := { s with mPing := if m.mPingSentTime = 0 then 0 else now - m.mPingSentTime }
  { m with mActiveShards := m.mActiveShards.insert s.mName s }.findMasterShard now

/-- The message that `SendConfiguration` publishes first; the local players follow in messages
of their own. -/
def sendConfiguration (address : Address) (launchTime utc localTime : Nat) : Configuration where
  shardName := m.mShardName
  simulatorAddress := address.simAddress
  simulatorPort := address.simulatorPort
  fullName := m.mFullName
  players := (m.mActiveShards.getD m.mShardName {}).mPlayers
  launchTime := launchTime
  utc := utc
  time := localTime
  http := address.http

end ClusterManager

/-! ### Events -/

/-- What comes to the cluster manager of a shard, besides the configurations of the others. -/
inductive Event
  | joinedShard (simID : Nat) (zoneID cdefID : Int)
  | leftShard (CDefID : Int)
  | joinedOtherShard (shardName : String) (cdefid zoneID : Int) (simID : Nat) (found : Bool)
  | leftOtherShard (shardName : String) (cdefid : Int)
  | transferFromOtherShard (cdefId : Int) (shardName token : String) (now : Nat)
  | findToken (token : String)
  | newShard (shardName : String) (now : Nat)
  | shardRemoved (shardName : String) (now : Nat)
  deriving DecidableEq, Repr

/-- The shard a message came from. -/
def Event.sender : Event → Option String
  | joinedShard .. | leftShard .. | findToken .. => none
  | joinedOtherShard shardName .. | leftOtherShard shardName .. | newShard shardName ..
  | transferFromOtherShard _ shardName .. | shardRemoved shardName .. => some shardName

namespace ClusterManager

/-- What an event does. -/
def perform (m : ClusterManager) : Event → ClusterManager
  | .joinedShard simID zoneID cdefID => m.joinedShard simID zoneID cdefID
  | .leftShard CDefID => m.leftShard CDefID
  | .joinedOtherShard shardName cdefid zoneID simID found =>
      if found then m.joinedOtherShard shardName cdefid zoneID simID else m
  | .leftOtherShard shardName cdefid => m.leftOtherShard shardName cdefid
  | .transferFromOtherShard cdefId shardName token now =>
      m.transferFromOtherShard cdefId shardName token now
  | .findToken token => m.findToken token
  | .newShard shardName now => m.newShard shardName now
  | .shardRemoved shardName now => m.shardRemoved shardName now

/-- The subscriptions: a shard does not listen to itself. -/
def receive (m : ClusterManager) (ev : Event) : ClusterManager :=
  if ev.sender = some m.mShardName then m else m.perform ev

/-- A run of events. -/
def receiveAll (m : ClusterManager) (evs : List Event) : ClusterManager := evs.foldl receive m

end ClusterManager

end Iceee.Cluster
