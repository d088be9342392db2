import Iceee.Lib.Trace

/-!
# The packet manager

Packets are queued for a socket by any thread. The thread of the packet manager takes the
queue, sorts it into the data to send, one list of packets for each socket, and hands that to
the kernel as far as the kernel takes it.

## Implementation notes

The results of `send` are an input, in the order of the calls; when they run out the socket
blocks. A socket number stands for one connection. The counters of the statistics are left out,
except those that decide about a delay. The loop of `SendPackets2` takes a step for each entry, so
that packets are queued between.
-/

namespace Iceee.Packets

abbrev Packet := List UInt8

structure PendingSocket where
  mSocket : Int
  mPacketList : List Packet := []
  mForcedResumeTime : Nat := 0
  deriving DecidableEq, Repr

structure Config where
  ForceMaxPacketSize : Int := 1000
  DebugPacketSendTrigger : Nat := 128
  DebugPacketSendDelay : Nat := 0
  deriving DecidableEq, Repr

namespace PendingSocket

def DATA_ELEMENT_LIMIT : Nat := 1000

/-- The loop of `AddData` over the pieces of a packet. -/
def pieces (data : Packet) (CHUNK_SIZE : Nat) : Nat → Nat → List Packet
  | 0, _ => []
  | fuel + 1, pos =>
      if pos < data.length then
        (data.drop pos).take CHUNK_SIZE :: pieces data CHUNK_SIZE fuel (pos + CHUNK_SIZE)
      else []

/-- `AddData`. -/
def addData (cfg : Config) (data : Packet) (p : PendingSocket) : PendingSocket :=
  let CHUNK_SIZE :=
    if cfg.ForceMaxPacketSize > 0 then cfg.ForceMaxPacketSize.toNat else DATA_ELEMENT_LIMIT
  let fresh : List Packet :=
    if cfg.ForceMaxPacketSize > 0 then pieces data CHUNK_SIZE data.length 0 else [data]
  match p.mPacketList.getLast? with
  | none => { p with mPacketList := p.mPacketList ++ fresh }
  | some back =>
      if back.length + data.length ≤ CHUNK_SIZE then
        { p with mPacketList := p.mPacketList.dropLast ++ [back ++ data] }
      else { p with mPacketList := p.mPacketList ++ fresh }

end PendingSocket

/-- `GetPendingSocket` and `GetSendSocket`, and what is done with the entry they return. -/
def withSocket (socket : Int) (f : PendingSocket → PendingSocket) :
    List PendingSocket → List PendingSocket
  | [] => [f { mSocket := socket }]
  | p :: rest => if p.mSocket = socket then f p :: rest else p :: withSocket socket f rest

/-! ### Sending -/

/-- A result of `send`: a number of bytes, an error that asks to wait, or another error. -/
inductive SendResult
  | wrote (n : Nat)
  | wouldBlock
  | error
  deriving DecidableEq, Repr

/-- What `AttemptSend2` returns, with the bytes that went to the kernel before an error and
the results that were not used. -/
structure Attempt where
  res : Int
  written : Nat
  results : List SendResult

/-- `AttemptSend2`. -/
def attemptSend2 (length : Nat) : List SendResult → Nat → Attempt
  | [], written => { res := written, written, results := [] }
  | r :: results, written =>
      if written < length then
        match r with
        | .wouldBlock => { res := written, written, results }
        | .error => { res := -1, written, results }
        | .wrote n =>
            let r := min n (length - written)
            if r = 0 then { res := written, written, results }
            else attemptSend2 length results (written + r)
      else { res := written, written, results := r :: results }

inductive SendRes
  | SEND_SUCCESS
  | SEND_FAILED
  | SEND_DELAY
  | SEND_DATA
  deriving DecidableEq, Repr

/-- What the loop of `SendSocket` does: its result, the packets that are left, and the bytes
that went to the kernel. -/
structure Progress where
  res : SendRes
  mPacketList : List Packet
  handed : List UInt8

/-- The loop of `SendSocket`. -/
def sendLoop : List Packet → List SendResult → Progress
  | [], _ => { res := .SEND_SUCCESS, mPacketList := [], handed := [] }
  | packet :: rest, results =>
      let a := attemptSend2 packet.length results 0
      let handed := packet.take a.written
      if a.res = packet.length then
        let p := sendLoop rest a.results
        { p with handed := handed ++ p.handed }
      else if a.res = -1 then { res := .SEND_FAILED, mPacketList := packet :: rest, handed }
      else
        let packet := if a.res > 0 then packet.drop a.res.toNat else packet
        { res := .SEND_DELAY, mPacketList := packet :: rest, handed }

/-- The statistics that decide about a delay. -/
structure DebugPacketStatistics where
  mPartialEventCount : Nat := 0
  mLastErrorTime : Nat := 0
  deriving DecidableEq, Repr

/-- `UpdateHistory`. -/
def DebugPacketStatistics.updateHistory (g_ServerTime : Nat) (d : DebugPacketStatistics) :
    DebugPacketStatistics :=
  if d.mLastErrorTime = 0 then d
  else if g_ServerTime - d.mLastErrorTime > 10000 then {} else d

/-- Where the thread of the packet manager is: before `GetPackets2`, in it after the queue
was released, and before `SendPackets2`. -/
inductive Phase
  | take
  | sort
  | send
  deriving DecidableEq, Repr

structure PacketManager where
  mQueueData : List PendingSocket := []
  mTransition : List PendingSocket := []
  /-- The entries that the loop of `SendPackets2` left behind. -/
  visited : List PendingSocket := []
  mSendData : List PendingSocket := []
  mDebugData : Int → DebugPacketStatistics := fun _ => {}
  phase : Phase := .take
  /-- The bytes that went to the kernel for a socket. -/
  sent : Int → List UInt8 := fun _ => []
  /-- The sockets that were closed. -/
  disconnected : Int → Bool := fun _ => false

namespace PacketManager

variable (m : PacketManager)

/-- `AddOutgoingPacket2`, and `ExternalAddPacket` under the lock. -/
def addOutgoingPacket2 (socket : Int) (data : Packet) : PacketManager :=
  if data.length = 0 then m
  else
    { m with
      mQueueData := withSocket socket
        (fun p => { p with mPacketList := p.mPacketList ++ [data] }) m.mQueueData }

/-- `GetPackets2` up to the release of the lock. -/
def takeQueue : PacketManager :=
  if m.mQueueData.length = 0 then { m with phase := .send }
  else { m with mTransition := m.mQueueData, mQueueData := [], phase := .sort }

/-- The sorting of one entry. -/
def sortEntry (cfg : Config) (mSendData : List PendingSocket) (entry : PendingSocket) :
    List PendingSocket :=
  withSocket entry.mSocket
    (fun p => entry.mPacketList.foldl (fun p data => p.addData cfg data) p) mSendData

/-- The rest of `GetPackets2`. -/
def sortPackets (cfg : Config) : PacketManager :=
  { m with
    mSendData := m.mTransition.foldl (sortEntry cfg) m.mSendData, mTransition := []
    phase := .send }

/-- A partial send is counted, and may ask for a delay. -/
def countPartial (cfg : Config) (g_ServerTime : Nat) (p : PendingSocket) :
    PendingSocket × PacketManager :=
  let d := (m.mDebugData p.mSocket).updateHistory g_ServerTime
  let d : DebugPacketStatistics :=
    { mPartialEventCount := d.mPartialEventCount + 1, mLastErrorTime := g_ServerTime }
  let p :=
    if d.mPartialEventCount % cfg.DebugPacketSendTrigger = 0 ∧ cfg.DebugPacketSendDelay ≠ 0 then
      { p with mForcedResumeTime := g_ServerTime + cfg.DebugPacketSendDelay }
    else p
  (p, { m with mDebugData := Function.update m.mDebugData p.mSocket d })

/-- `SendSocket`. -/
def sendSocket (cfg : Config) (g_ServerTime : Nat) (results : List SendResult)
    (p : PendingSocket) : SendRes × PendingSocket × PacketManager :=
  if p.mPacketList.length = 0 then (.SEND_DATA, p, m)
  else if g_ServerTime < p.mForcedResumeTime then (.SEND_DELAY, p, m)
  else
    let r := sendLoop p.mPacketList results
    let p := { p with mPacketList := r.mPacketList }
    let m := { m with
      sent := Function.update m.sent p.mSocket (m.sent p.mSocket ++ r.handed) }
    match r.res with
    | .SEND_DELAY => (.SEND_DELAY, m.countPartial cfg g_ServerTime p)
    | res => (res, p, m)

/-- `DisconnectClient`. -/
def disconnectClient (socket : Int) : PacketManager :=
  { m with disconnected := Function.update m.disconnected socket true }

/-- The body of the loop of `SendPackets2`: what stays of an entry. -/
def sendEntry (cfg : Config) (g_ServerTime : Nat) (results : List SendResult)
    (p : PendingSocket) : List PendingSocket × PacketManager :=
  match m.sendSocket cfg g_ServerTime results p with
  | (.SEND_DELAY, p, m) => ([p], m)
  | (.SEND_FAILED, p, m) => ([], m.disconnectClient p.mSocket)
  | (_, _, m) => ([], m)

end PacketManager

/-- What happens: packets are queued at any time; the thread goes through its phases, and
sends the entries of the data one by one. -/
inductive Event
  | add (socket : Int) (data : Packet)
  | take
  | sort (cfg : Config)
  | send (cfg : Config) (g_ServerTime : Nat) (socket : Int) (results : List SendResult)
  | done
  deriving DecidableEq, Repr

/-- One event. The thread does what is next. -/
def step (m : PacketManager) : Event → Option PacketManager
  | .add socket data => some (m.addOutgoingPacket2 socket data)
  | .take => if m.phase = .take then some m.takeQueue else none
  | .sort cfg => if m.phase = .sort then some (m.sortPackets cfg) else none
  | .send cfg g_ServerTime socket results =>
      match m.phase, m.mSendData with
      | .send, p :: rest =>
          if p.mSocket = socket then
            let r := m.sendEntry cfg g_ServerTime results p
            some { r.2 with visited := m.visited ++ r.1, mSendData := rest }
          else none
      | _, _ => none
  | .done =>
      match m.phase, m.mSendData with
      | .send, [] => some { m with mSendData := m.visited, visited := [], phase := .take }
      | _, _ => none

end Iceee.Packets
