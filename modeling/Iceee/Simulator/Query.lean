import Iceee.Lib.Frames
import Iceee.Packet.ByteBuffer

/-!
# Queries of a client

One query object of a connection is used for all its queries. The two message handlers clear it and
read the message into it; then a query handler works with it, and may change it.

## Implementation notes

A text is the bytes in front of its NUL. What a query handler, and whatever else runs before the
next query, does to the query and to the receive buffer is an input of each step.

## Main result

* `isolated`: the query that a handler is given is the one that was sent last.
-/

namespace Iceee.Simulator

open Lib Packet

/-- `sizeof(Aux1)`. -/
def AUX1_SIZE : ℕ := 4096

structure SimulatorQuery where
  ID : BitVec 32
  name : List Byte
  args : List (List Byte)
  argCount : ℕ
  deriving DecidableEq

namespace SimulatorQuery

/-- `SimulatorQuery::Clear`. -/
def clear (_query : SimulatorQuery) : SimulatorQuery :=
  { ID := 0, name := [], args := [], argCount := 0 }

/-- `SimulatorQuery::ValidArgIndex`. -/
def validArgIndex (query : SimulatorQuery) (argIndex : ℕ) : Bool :=
  !decide (argIndex ≥ query.argCount)

/-- `SimulatorQuery::GetStringObject`; an access outside of `args` has no result. -/
def getStringObject (query : SimulatorQuery) (argIndex : ℕ) : Option (List Byte) :=
  if query.validArgIndex argIndex then query.args[argIndex]? else some []

end SimulatorQuery

/-- What reading a query changes in a `SimulatorThread`. -/
structure QueryReader where
  query : SimulatorQuery
  Aux1 : Memory
  ReadPos : ℕ

/-- The text that a buffer of `bufsize` bytes has at its start. -/
def cString (recbuf : Memory) (bufsize : ℕ) : List Byte :=
  (recbuf.read 0 bufsize).takeWhile (· ≠ 0)

namespace QueryReader

variable (readPtr : Memory)

/-- `GetStringUTF` into `Aux1`. -/
def getAux1 (sim : QueryReader) : QueryReader :=
  let (Aux1, ReadPos) := getStringUTF readPtr sim.ReadPos sim.Aux1 AUX1_SIZE sim.ReadPos
  { sim with Aux1 := Aux1, ReadPos := ReadPos }

/-- `query.args.push_back(Aux1)`. -/
def pushArg (sim : QueryReader) : QueryReader :=
  { sim with
    query := { sim.query with args := sim.query.args ++ [cString sim.Aux1 AUX1_SIZE] } }

/-- The loop over the arguments. -/
def readArgs : ℕ → QueryReader → QueryReader
  | 0, sim => sim
  | n + 1, sim => readArgs n (sim.getAux1 readPtr).pushArg

/-- The count is made to fit the list. -/
def fitArgCount (sim : QueryReader) : QueryReader :=
  if sim.query.argCount ≠ sim.query.args.length then
    { sim with query := { sim.query with argCount := sim.query.args.length % 2 ^ 32 } }
  else sim

/-- `SimulatorThread::ReadQueryFromMessage`. -/
def readQueryFromMessage (sim : QueryReader) : QueryReader :=
  let sim := if sim.query.ID ≠ 0 then { sim with query := sim.query.clear } else sim
  let (ID, ReadPos) := getInteger readPtr sim.ReadPos sim.ReadPos
  let sim := { sim with query := { sim.query with ID := ID }, ReadPos := ReadPos }
  let sim := sim.getAux1 readPtr
  let sim := { sim with query := { sim.query with name := cString sim.Aux1 AUX1_SIZE } }
  let (count, ReadPos) := getByte readPtr sim.ReadPos sim.ReadPos
  let sim :=
    { sim with query := { sim.query with argCount := count.toNat }, ReadPos := ReadPos }
  (sim.readArgs readPtr count.toNat).fitArgCount

/-- `GameQueryMessage::handleMessage` and `LobbyQueryMessage::handleMessage`, to where a query
handler is given the query. -/
def handleMessage (sim : QueryReader) : QueryReader :=
  readQueryFromMessage readPtr { sim with query := sim.query.clear }

end QueryReader

/-! ### The message of a query -/

/-- A query as a client sends it: as many arguments as a byte counts, and every text shorter than
the buffer it is received in. -/
structure QueryMessage where
  ID : BitVec 32
  name : List Byte
  args : List (List Byte)
  name_lt : name.length < AUX1_SIZE
  args_lt : ∀ arg ∈ args, arg.length < AUX1_SIZE
  count_lt : args.length < 256

namespace QueryMessage

/-- The texts have no NUL, as every text that `PutStringUTF` is given. -/
def Texts (message : QueryMessage) : Prop :=
  0 ∉ message.name ∧ ∀ arg ∈ message.args, 0 ∉ arg

/-- The bytes of a text. -/
def utf (text : List Byte) : List Byte := lengthPrefix text.length ++ text

/-- The bytes of a message. -/
def bytes (message : QueryMessage) : List Byte :=
  be 4 message.ID.toNat ++ (utf message.name ++
    (be 1 message.args.length ++ message.args.flatMap utf))

/-- What a text is where it is taken as one that ends at a NUL. -/
def upToNul (text : List Byte) : List Byte := text.takeWhile (· ≠ 0)

/-- The query that a message is read as. -/
def decoded (message : QueryMessage) : SimulatorQuery :=
  { ID := message.ID, name := upToNul message.name, args := message.args.map upToNul,
    argCount := message.args.length }

/-- The query that a message encodes. -/
def query (message : QueryMessage) : SimulatorQuery :=
  { ID := message.ID, name := message.name, args := message.args,
    argCount := message.args.length }

end QueryMessage

/-! ### What is written -/

section Writers

open QueryMessage

theorem writes_putStringUTF {text : List Byte} (hlen : text.length < AUX1_SIZE) :
    Writes (fun m p => putStringUTF m p text) (utf text) := by
  intro m p
  have hshort : text.length < 2 ^ 16 := hlen.trans (by decide)
  have hput := @putStringUTF_eq m p text hshort
  rwa [putStringReq_eq] at hput

end Writers

/-! ### What is read -/

namespace QueryReader

open QueryMessage

variable {readPtr : Memory} {sim : QueryReader} {text rest : List Byte}

/-- A text that fits is read up to its NUL, whatever was in the buffer. -/
theorem cString_write (recbuf : Memory) (htext : text.length < AUX1_SIZE) :
    cString (recbuf.write 0 (text ++ [0])) AUX1_SIZE = upToNul text := by
  obtain ⟨k, hk⟩ := Nat.exists_eq_add_of_lt htext
  have hread := Memory.read_write recbuf 0 (text ++ [0])
  have hsize : AUX1_SIZE = (text ++ [0]).length + k := by simp [hk]; omega
  unfold cString upToNul
  rw [hsize, Memory.read_add, hread, List.append_assoc, List.takeWhile_append]
  split
  · next hall =>
      have hself := (List.takeWhile_prefix fun b : Byte => b ≠ 0).eq_of_length hall
      rw [hself]
      exact List.append_nil text
  · rfl

/-- One text is read. -/
theorem getAux1_of_holds (h : readPtr.Holds sim.ReadPos (utf text))
    (htext : text.length < AUX1_SIZE) :
    sim.getAux1 readPtr = { sim with
      Aux1 := sim.Aux1.write 0 (text ++ [0])
      ReadPos := sim.ReadPos + (utf text).length } := by
  have hshort : text.length < 2 ^ 16 := htext.trans (by decide)
  have hput : putStringUTF readPtr sim.ReadPos text = (readPtr, (utf text).length) := by
    have hw := writes_putStringUTF htext readPtr sim.ReadPos
    rwa [h.write_eq] at hw
  have hget := @getStringUTF_putStringUTF readPtr sim.Aux1 sim.ReadPos sim.ReadPos AUX1_SIZE text
    hshort
  rw [hput, List.take_of_length_le (Nat.le_sub_one_of_lt htext)] at hget
  unfold getAux1
  rw [hget]

/-- The loop appends the arguments. -/
theorem readArgs_of_holds {args : List (List Byte)} {sim : QueryReader}
    (h : readPtr.Holds sim.ReadPos (args.flatMap utf))
    (hargs : ∀ arg ∈ args, arg.length < AUX1_SIZE) :
    (sim.readArgs readPtr args.length).query =
        { sim.query with args := sim.query.args ++ args.map upToNul } ∧
      (sim.readArgs readPtr args.length).ReadPos =
        sim.ReadPos + (args.flatMap utf).length := by
  induction args generalizing sim with
  | nil => simp [readArgs]
  | cons arg rest ih =>
      have harg := hargs arg List.mem_cons_self
      rw [List.flatMap_cons, Memory.holds_append] at h
      have hread := getAux1_of_holds h.1 harg
      obtain ⟨hquery, hpos⟩ := @ih (sim.getAux1 readPtr).pushArg
        (by rw [hread]; exact h.2) fun a ha => hargs a (List.mem_cons_of_mem _ ha)
      have hpush : (sim.getAux1 readPtr).pushArg.query =
          { sim.query with args := sim.query.args ++ [upToNul arg] } := by
        rw [hread]
        simp only [pushArg, cString_write _ harg]
      constructor
      · rw [List.length_cons, readArgs, hquery, hpush, List.map_cons, List.append_assoc]
        rfl
      · rw [List.length_cons, readArgs, hpos, hread, List.flatMap_cons, List.length_append]
        exact Nat.add_assoc _ _ _

/-- A count that fits stays. -/
theorem fitArgCount_of_eq (h : sim.query.argCount = sim.query.args.length) :
    sim.fitArgCount = sim := if_neg (not_not.mpr h)

/-- A query object that was cleared receives the message that the buffer has. -/
theorem readQueryFromMessage_of_holds {message : QueryMessage}
    (hclear : sim.query = sim.query.clear) (h : readPtr.Holds sim.ReadPos message.bytes) :
    (sim.readQueryFromMessage readPtr).query = message.decoded ∧
      (sim.readQueryFromMessage readPtr).ReadPos = sim.ReadPos + message.bytes.length := by
  have hcount := message.count_lt
  unfold QueryMessage.bytes at h
  rw [Memory.holds_append, Memory.holds_append, Memory.holds_append] at h
  obtain ⟨hid, hname, hbyte, hargs⟩ := h
  -- the three parts in front of the arguments
  have hint : getInteger readPtr sim.ReadPos sim.ReadPos = (message.ID, sim.ReadPos + 4) := by
    have hread : readPtr.read sim.ReadPos 4 = be 4 message.ID.toNat := by
      rw [← hid, length_be]
    refine Prod.ext (BitVec.eq_of_toNat_eq ?_) rfl
    rw [toNat_getInteger, hread, ofBe_be_of_lt message.ID.isLt]
  rw [length_be] at hname hbyte hargs
  have haux := @getAux1_of_holds readPtr
    { sim with query := { sim.query with ID := message.ID }, ReadPos := sim.ReadPos + 4 }
    message.name hname message.name_lt
  have hget : getByte readPtr (sim.ReadPos + 4 + (utf message.name).length)
      (sim.ReadPos + 4 + (utf message.name).length) =
        (BitVec.ofNat 8 message.args.length, sim.ReadPos + 4 + (utf message.name).length + 1) := by
    have hread : readPtr.read (sim.ReadPos + 4 + (utf message.name).length) 1 =
        be 1 message.args.length := by
      rw [← hbyte, length_be]
    refine Prod.ext (BitVec.eq_of_toNat_eq ?_) rfl
    rw [toNat_getByte, hread, ofBe_be, BitVec.toNat_ofNat]
    rfl
  have hn : (BitVec.ofNat 8 message.args.length).toNat = message.args.length := by
    rw [BitVec.toNat_ofNat]
    omega
  -- the arguments, behind them
  obtain ⟨hquery, hpos⟩ := @readArgs_of_holds readPtr message.args
    { sim with
      query := { sim.query with
        ID := message.ID, name := upToNul message.name, argCount := message.args.length }
      Aux1 := sim.Aux1.write 0 (message.name ++ [0])
      ReadPos := sim.ReadPos + 4 + (utf message.name).length + 1 } hargs message.args_lt
  have hzero : ¬ sim.query.ID ≠ 0 := by
    rw [hclear]
    exact not_not.mpr rfl
  unfold readQueryFromMessage
  rw [if_neg hzero]
  simp only [hint, haux, cString_write _ message.name_lt, hget, hn]
  rw [fitArgCount_of_eq (by rw [hquery, hclear]; simp [SimulatorQuery.clear]), hquery, hpos]
  constructor
  · rw [hclear]
    rfl
  · simp only [QueryMessage.bytes, List.length_append, length_be]
    omega

end QueryReader

/-! ### Runs -/

/-- A query message on a connection: where it is received, and what becomes of the query object and
of the receive buffer from then on until the next one is read. -/
structure Arrival where
  readPtr : Memory
  ReadPos : ℕ
  message : QueryMessage
  holds : readPtr.Holds ReadPos message.bytes
  handled : QueryReader → QueryReader

namespace Arrival

/-- What the query handler of a message is given. -/
def receive (arrival : Arrival) (sim : QueryReader) : QueryReader :=
  QueryReader.handleMessage arrival.readPtr { sim with ReadPos := arrival.ReadPos }

def step (sim : QueryReader) (arrival : Arrival) : QueryReader :=
  arrival.handled (arrival.receive sim)

variable (arrival : Arrival) (sim : QueryReader)

/-- Whatever was there before, the message is what is read. -/
theorem receive_spec :
    (arrival.receive sim).query = arrival.message.decoded ∧
      (arrival.receive sim).ReadPos = arrival.ReadPos + arrival.message.bytes.length :=
  QueryReader.readQueryFromMessage_of_holds rfl arrival.holds

end Arrival

/-- Texts without a NUL are read as they are. -/
theorem QueryMessage.Texts.decoded_eq {message : QueryMessage} (h : message.Texts) :
    message.decoded = message.query := by
  have hself : ∀ text : List Byte, 0 ∉ text → upToNul text = text := by
    intro text htext
    refine List.takeWhile_eq_self_iff.mpr fun b hb => ?_
    exact decide_eq_true fun hzero => htext (hzero ▸ hb)
  unfold QueryMessage.decoded QueryMessage.query
  rw [hself _ h.1, List.map_congr_left fun arg ha => hself arg (h.2 arg ha), List.map_id']

/-- The query that a handler is given is the last message; two connections on which the last
messages are the same, but not those before, give their handlers the same query. -/
theorem isolated {last last' : Arrival} (hsame : last'.message = last.message)
    (sim sim' : QueryReader) (earlier earlier' : List Arrival) :
    (last.message.Texts →
        (last.receive (earlier.foldl Arrival.step sim)).query = last.message.query) ∧
      (last'.receive (earlier'.foldl Arrival.step sim')).query =
        (last.receive (earlier.foldl Arrival.step sim)).query := by
  have hlast := (last.receive_spec (earlier.foldl Arrival.step sim)).1
  have hlast' := (last'.receive_spec (earlier'.foldl Arrival.step sim')).1
  refine ⟨fun htexts => hlast.trans htexts.decoded_eq, ?_⟩
  rw [hlast, hlast', hsame]

/-- A query without an ID, after another one and as the first. -/
theorem isolated_noID :
    let message (ID : BitVec 32) (arg : Byte) : QueryMessage :=
      { ID := ID, name := [0x61], args := [[arg]], name_lt := by decide,
        args_lt := by simp [AUX1_SIZE], count_lt := by simp }
    let arrival (ID : BitVec 32) (arg : Byte) : Arrival :=
      { readPtr := Memory.write (fun _ => 0) 0 (message ID arg).bytes, ReadPos := 0
        message := message ID arg, holds := Memory.holds_write _ _ _, handled := id }
    let sim : QueryReader := ⟨⟨0, [], [], 0⟩, fun _ => 0, 0⟩
    ((message 0 2).Texts →
        ((arrival 0 2).receive ([arrival 0 1].foldl Arrival.step sim)).query =
          (message 0 2).query) ∧
      ((arrival 0 2).receive ([].foldl Arrival.step sim)).query =
        ((arrival 0 2).receive ([arrival 0 1].foldl Arrival.step sim)).query := by
  intro message arrival sim
  exact @isolated (arrival 0 2) (arrival 0 2) rfl sim sim [arrival 0 1] []

end Iceee.Simulator
