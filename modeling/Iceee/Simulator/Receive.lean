import Iceee.Lib.Framing

/-!
# Messages of a client

The bytes of a client come in pieces. `HandleReceivedMessage2` takes what has come, hands
the complete messages on and keeps the rest.

## Implementation notes

The bytes behind the end of the buffer are an input; what was read of them is recorded.
A message handler may change everything but the buffers and the connection. What was handed
on is recorded with its place in the whole stream.
-/

namespace Iceee.Simulator

open Lib

/-- A message: a type byte, a 16-bit length, and as many bytes. -/
structure Message where
  msgType : UInt8
  payload : List UInt8
  size_lt : payload.length < 65536

/-- What is handed on of a message: its type, where its payload starts, and its length. -/
structure Handed where
  msgType : UInt8
  start : Nat
  size : Nat
  deriving DecidableEq, Repr

/-- `HandleGameMsg` and `HandleLobbyMsg`, on the state they share, with the type of the
message and the bytes from the read position on. -/
structure Handlers (σ : Type*) where
  inGame : σ → Bool
  handleGameMsg : σ → UInt8 → List UInt8 → σ
  handleLobbyMsg : σ → UInt8 → List UInt8 → σ

structure SimulatorThread (σ : Type*) where
  recvData : List UInt8 := []
  procData : List UInt8 := []
  isConnected : Bool := true
  isThreadActive : Bool := true
  firstConnect : Bool := true
  LastRecv : Nat := 0
  PendingHeartbeatResponse : Nat := 0
  TotalMessageReceived : Nat := 0
  world : σ
  /-- How many bytes of the stream were trimmed. -/
  trimmed : Nat := 0
  handed : List Handed := []
  /-- Whether a header was read past the end of the buffer. -/
  readPast : Bool := false

namespace SimulatorThread

variable {σ : Type*} (H : Handlers σ) (beyond : Nat → UInt8)

/-- `readPtr[pos]`. -/
def byteAt (s : SimulatorThread σ) (pos : Nat) : UInt8 := s.procData.getD pos (beyond pos)

/-- `GetShort`. -/
def shortAt (s : SimulatorThread σ) (pos : Nat) : Nat :=
  (s.byteAt beyond pos).toNat * 256 + (s.byteAt beyond (pos + 1)).toNat

/-- `Disconnect`. -/
def disconnect (s : SimulatorThread σ) : SimulatorThread σ := { s with isThreadActive := false }

/-- The loop of `HandleReceivedMessage2`, with `ReadPos` and `remain`. -/
def messageLoop : Nat → SimulatorThread σ → Nat → Int → SimulatorThread σ × Int
  | 0, s, _, remain => (s, remain)
  | fuel + 1, s, ReadPos, remain =>
      if remain > 0 then
        let msgType := s.byteAt beyond ReadPos
        let msgSize := s.shortAt beyond (ReadPos + 1)
        let s := { s with
          firstConnect := false
          readPast := s.readPast || decide (s.procData.length < ReadPos + 3) }
        if (msgSize : Int) > remain - 3 then (s, remain)
        else
          let readPtr := s.procData.drop (ReadPos + 3)
          let world :=
            if H.inGame s.world then H.handleGameMsg s.world msgType readPtr
            else H.handleLobbyMsg s.world msgType readPtr
          let entry : Handed := { msgType, start := s.trimmed + ReadPos + 3, size := msgSize }
          messageLoop fuel { s with world, handed := s.handed ++ [entry] }
            (ReadPos + msgSize + 3) (remain - (msgSize + 3))
      else (s, remain)

/-- `HandleReceivedMessage2`. Each turn of the loop takes three bytes at least. -/
def handleReceivedMessage2 (g_ServerTime : Nat) (s : SimulatorThread σ) : SimulatorThread σ :=
  let s := { s with procData := s.procData ++ s.recvData, recvData := [] }
  if s.isConnected = false then s
  else if s.procData.length = 0 then s
  else
    let s := { s with
      LastRecv := g_ServerTime
      PendingHeartbeatResponse := 0
      TotalMessageReceived := s.TotalMessageReceived + 1 }
    let remain : Int := s.procData.length
    if remain < 3 then s.disconnect
    else
      let (s, remain) := messageLoop H beyond s.procData.length s 0 remain
      let offset := s.procData.length - remain.toNat
      let s := { s with trimmed := s.trimmed + offset }
      if remain = 0 then { s with procData := [] }
      else { s with procData := s.procData.drop offset }

/-- What happens to a client: a piece of the stream arrives, or the pending data is
processed. -/
inductive Event
  | receive (chunk : List UInt8)
  | handle (g_ServerTime : Nat)
  deriving DecidableEq, Repr

def step (s : SimulatorThread σ) : Event → SimulatorThread σ
  | .receive chunk => { s with recvData := s.recvData ++ chunk }
  | .handle g_ServerTime => s.handleReceivedMessage2 H beyond g_ServerTime

def run (s : SimulatorThread σ) (evs : List Event) : SimulatorThread σ :=
  evs.foldl (step H beyond) s

end SimulatorThread

/-! ### The framing of the stream -/

namespace Message

/-- A message as it is sent. -/
def encode (m : Message) : List UInt8 :=
  m.msgType :: UInt8.ofNat (m.payload.length / 256) :: UInt8.ofNat (m.payload.length % 256) ::
    m.payload

/-- The complete message at the front of some bytes. -/
def next : List UInt8 → Option (Message × Nat)
  | msgType :: hi :: lo :: rest =>
      let msgSize := hi.toNat * 256 + lo.toNat
      if msgSize ≤ rest.length then
        have size_lt : (rest.take msgSize).length < 65536 := by
          have h1 := hi.toNat_lt
          have h2 := lo.toNat_lt
          simp only [List.length_take]
          omega
        some ({ msgType, payload := rest.take msgSize, size_lt }, msgSize + 3)
      else none
  | _ => none

theorem length_encode (m : Message) : m.encode.length = m.payload.length + 3 := rfl

/-- A message that was cut off is the one that was written. -/
theorem eq_encode_of_next {xs : List UInt8} {m : Message} {n : Nat} (h : next xs = some (m, n)) :
    xs = m.encode ++ xs.drop n ∧ n = m.encode.length := by
  match xs, h with
  | msgType :: hi :: lo :: rest, h =>
      simp only [next, Option.ite_none_right_eq_some, Option.some.injEq, Prod.mk.injEq] at h
      obtain ⟨hle, rfl, rfl⟩ := h
      have hlo := lo.toNat_lt
      have hlen : (rest.take (hi.toNat * 256 + lo.toNat)).length = hi.toNat * 256 + lo.toNat :=
        List.length_take_of_le hle
      have hdiv : (hi.toNat * 256 + lo.toNat) / 256 = hi.toNat := by omega
      have hmod : (hi.toNat * 256 + lo.toNat) % 256 = lo.toNat := by omega
      rw [length_encode, hlen]
      have hdrop (k : Nat) : (msgType :: hi :: lo :: rest).drop (k + 3) = rest.drop k := rfl
      refine ⟨?_, rfl⟩
      simp only [encode, hlen, hdiv, hmod, UInt8.ofNat_toNat, hdrop, List.cons_append,
        List.take_append_drop]

theorem next_encode_append (m : Message) (ys : List UInt8) :
    next (m.encode ++ ys) = some (m, m.encode.length) := by
  obtain ⟨msgType, payload, hlt⟩ := m
  have hhi : (UInt8.ofNat (payload.length / 256)).toNat = payload.length / 256 := by
    rw [UInt8.toNat_ofNat']
    omega
  have hlo : (UInt8.ofNat (payload.length % 256)).toNat = payload.length % 256 := by
    rw [UInt8.toNat_ofNat']
    omega
  have hsize : payload.length / 256 * 256 + payload.length % 256 = payload.length := by omega
  simp only [encode, List.cons_append, next, hhi, hlo, hsize, List.length_append,
    Nat.le_add_right, if_true, List.take_left', List.length_cons]
  rfl

/-- How messages stand in a stream. -/
def framing : Framing UInt8 Message where
  next := next
  next_pos h := by
    rw [(eq_encode_of_next h).2]
    exact Nat.succ_pos _
  next_le {xs m n} h := by
    obtain ⟨hxs, hn⟩ := eq_encode_of_next h
    rw [hxs, List.length_append, hn]
    exact Nat.le_add_right _ _
  next_append {xs m n} ys h := by
    obtain ⟨hxs, hn⟩ := eq_encode_of_next h
    rw [hxs, List.append_assoc, hn]
    exact next_encode_append m _

end Message

/-- A message that was not received completely. -/
def Incomplete (tail : List UInt8) : Prop := Message.next tail = none

instance (tail : List UInt8) : Decidable (Incomplete tail) :=
  decidable_of_iff ((Message.next tail).isNone = true) Option.isNone_iff_eq_none

end Iceee.Simulator
