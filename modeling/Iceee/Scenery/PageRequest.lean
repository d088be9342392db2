import Iceee.Simulator.Response
import Iceee.Lib.Text

/-!
# Requests for a page of scenery

A client is sent a message for each prop of a page and then, unless it did not ask, a response with
the IDs of the props. Both go through `prepBuf`, which is emptied when more than a chunk is in it.
What is in front of a message in the buffer is limited, the message itself is not.

## Main results

* `sendProps_spec`: what the loop over the props does.
* `sendRows_spec`: what the loop over the rows does.
* `response_iff`: when the packets are what they should be.

## Implementation notes

The floating-point numbers of a prop are given by their bits, its texts have one byte for each
character. The page of a request is an input. A write past the end of `prepBuf` has no result.
-/

namespace Iceee.Scenery

open Lib Packet Quest Simulator QueryMessage

/-- `MAX_SEND_CHUNK_SIZE` and `sizeof(prepBuf)`. -/
def MAX_SEND_CHUNK_SIZE : ℕ := 1000
def PREP_BUF_SIZE : ℕ := 4096

/-! ### Props -/

structure ExtraDataLink where
  propID : Int
  type : Int
  deriving DecidableEq, Repr

/-- The extra data of a spawn point, as far as it is sent. -/
structure CreatureSpawnDef where
  spawnPackage : Text := []
  dialog : Text := []
  sceneryName : Text := []
  innerRadius : Int := 0
  outerRadius : Int := 0
  link : List ExtraDataLink := []
  deriving DecidableEq, Repr

/-- A prop, as far as it is sent. -/
structure SceneryObject (F : Type*) where
  id : Int := 0
  asset : Text := []
  locationX : F
  locationY : F
  locationZ : F
  quatX : F
  quatY : F
  quatZ : F
  quatW : F
  scaleX : F
  scaleY : F
  scaleZ : F
  flags : Int := 0
  /-- Nothing without `hasExtraData`. -/
  extraData : Option CreatureSpawnDef := none
  deriving DecidableEq

/-! ### The message of a prop -/

def SCENERY_UPDATE_ASSET : BitVec 32 := 1
def SCENERY_UPDATE_LINKS : BitVec 32 := 2
def SCENERY_UPDATE_POSITION : BitVec 32 := 4
def SCENERY_UPDATE_ORIENTATION : BitVec 32 := 8
def SCENERY_UPDATE_SCALE : BitVec 32 := 16
def SCENERY_UPDATE_PROPERTIES : BitVec 32 := 32
def SCENERY_UPDATE_FLAGS : BitVec 32 := 64

def PROPERTY_INTEGER : BitVec 32 := 0
def PROPERTY_STRING : BitVec 32 := 2

/-- The bytes of a text. -/
def bytesOf (text : Text) : List Byte := text.map fun c => BitVec.ofNat 8 c.toNat

/-- `PutFloat`, which turns the four bytes round. -/
def floatWriter (val : BitVec 32) : Writer := fun buffer pos =>
  (buffer.write pos [(val >>> 24).setWidth 8, (val >>> 16).setWidth 8, (val >>> 8).setWidth 8,
    val.setWidth 8], 4)

namespace SceneryObject

variable (g_ProtocolVersion : ℕ) (so : SceneryObject (BitVec 32))

/-- The parts of a prop that its message has. -/
def updateMask : BitVec 32 :=
  let mask := SCENERY_UPDATE_ASSET ||| SCENERY_UPDATE_POSITION ||| SCENERY_UPDATE_ORIENTATION |||
    SCENERY_UPDATE_SCALE ||| SCENERY_UPDATE_FLAGS
  match so.extraData with
  | none => mask
  | some extraData =>
      let mask := if extraData.link.length > 0 then mask ||| SCENERY_UPDATE_LINKS else mask
      if extraData.spawnPackage.length > 0 then mask ||| SCENERY_UPDATE_PROPERTIES else mask

/-- The part under a bit of the mask. -/
def part (bit : BitVec 32) (ws : List Writer) : List Writer :=
  if so.updateMask &&& bit ≠ 0 then ws else []

/-- What the message has behind its size. -/
def updateParts : List Writer :=
  let extraData := so.extraData.getD {}
  integerWriter so.id :: byteWriter so.updateMask ::
    so.part SCENERY_UPDATE_ASSET (stringWriter (bytesOf so.asset) ::
      if 23 ≤ g_ProtocolVersion then [stringWriter []] else []) ++
    so.part SCENERY_UPDATE_POSITION
      [floatWriter so.locationX, floatWriter so.locationY, floatWriter so.locationZ] ++
    so.part SCENERY_UPDATE_ORIENTATION
      [floatWriter so.quatX, floatWriter so.quatY, floatWriter so.quatZ, floatWriter so.quatW] ++
    so.part SCENERY_UPDATE_SCALE
      [floatWriter so.scaleX, floatWriter so.scaleY, floatWriter so.scaleZ] ++
    so.part SCENERY_UPDATE_FLAGS [integerWriter so.flags] ++
    so.part SCENERY_UPDATE_LINKS (shortWriter (.ofNat 32 extraData.link.length) ::
      extraData.link.flatMap fun a => [integerWriter a.propID, byteWriter (.ofInt 32 a.type)]) ++
    so.part SCENERY_UPDATE_PROPERTIES
      [stringWriter (bytesOf extraData.sceneryName), integerWriter 4,
        stringWriter (bytesOf "innerRadius".toList), byteWriter PROPERTY_INTEGER,
        integerWriter extraData.innerRadius,
        stringWriter (bytesOf "package".toList), byteWriter PROPERTY_STRING,
        stringWriter (bytesOf extraData.spawnPackage),
        stringWriter (bytesOf "dialog".toList), byteWriter PROPERTY_STRING,
        stringWriter (bytesOf extraData.dialog),
        stringWriter (bytesOf "outerRadius".toList), byteWriter PROPERTY_INTEGER,
        integerWriter extraData.outerRadius]

/-- `PrepExt_UpdateScenery`. -/
def prepExt_UpdateScenery : Writer := messageWriter 41 (so.updateParts g_ProtocolVersion)

end SceneryObject

/-! ### The request -/

/-- A page, with the props in the order of the map. Their IDs are integers of 32 bits. -/
structure SceneryPage where
  mSceneryList : List (SceneryObject (BitVec 32))
  ids : ∀ so ∈ mSceneryList, -2 ^ 31 ≤ so.id ∧ so.id < 2 ^ 31

structure SceneryPageRequest where
  socket : Int
  queryID : Int
  skipQuery : Bool := false
  excludedProps : List Int := []
  deriving DecidableEq

/-- The first loop of `SendPageRequest`. -/
structure PropSending where
  prepBuf : Memory
  wpos : ℕ := 0
  queryRows : List (List Byte) := []
  outgoingPackets : List (Int × List Byte)

/-- The second loop of `SendPageRequest`. -/
structure RowSending where
  prepBuf : Memory
  wpos : ℕ
  data : List Byte := []

section Request

variable (g_ProtocolVersion : ℕ) (request : SceneryPageRequest)

/-- What is in the buffer becomes a packet. -/
def PropSending.push (s : PropSending) : PropSending :=
  { s with outgoingPackets := s.outgoingPackets ++ [(request.socket, s.prepBuf.read 0 s.wpos)] }

/-- One turn of the first loop. -/
def sendProp (s : PropSending) (so : SceneryObject (BitVec 32)) : Option PropSending :=
  if so.id ∈ request.excludedProps then some s
  else
    let queryRows :=
      if request.skipQuery then s.queryRows else s.queryRows ++ [bytesOf (printInt so.id)]
    let (prepBuf, n) := so.prepExt_UpdateScenery g_ProtocolVersion s.prepBuf s.wpos
    let s := { s with queryRows, prepBuf, wpos := s.wpos + n }
    if PREP_BUF_SIZE < s.wpos then none
    else if MAX_SEND_CHUNK_SIZE < s.wpos then some { s.push request with wpos := 0 }
    else some s

/-- One turn of the second loop. -/
def sendRow (s : RowSending) (row : List Byte) : Option RowSending :=
  let (prepBuf, n) := puts [byteWriter 1, stringWriter row] s.prepBuf s.wpos
  let wpos := s.wpos + n
  if PREP_BUF_SIZE < wpos then none
  else if MAX_SEND_CHUNK_SIZE < wpos then
    some { prepBuf, wpos := 0, data := s.data ++ prepBuf.read 0 wpos }
  else some { prepBuf, wpos, data := s.data }

/-- The response of `SendPageRequest`. -/
def sendRows (prepBuf : Memory) (queryRows : List (List Byte)) : Option (List Byte) := do
  let sizeReq := 6 + (queryRows.map fun row => 1 + putStringReq (upToNul row)).sum
  let (prepBuf, wpos) := puts [byteWriter 1, shortWriter (.ofNat 32 sizeReq),
    integerWriter request.queryID, shortWriter (.ofNat 32 queryRows.length)] prepBuf 0
  let s ← queryRows.foldlM sendRow { prepBuf, wpos }
  return if 0 < s.wpos then s.data ++ s.prepBuf.read 0 s.wpos else s.data

/-- `SendPageRequest`. -/
def sendPageRequest (page : Option SceneryPage) (prepBuf : Memory)
    (outgoingPackets : List (Int × List Byte)) : Option (List (Int × List Byte)) :=
  match page with
  | none =>
      let (prepBuf, wpos) :=
        messageWriter 1 [integerWriter request.queryID, shortWriter 0] prepBuf 0
      some (outgoingPackets ++ [(request.socket, prepBuf.read 0 wpos)])
  | some page => do
      let s ← page.mSceneryList.foldlM (sendProp g_ProtocolVersion request)
        { prepBuf, outgoingPackets }
      let s := if 0 < s.wpos then s.push request else s
      if request.skipQuery then some s.outgoingPackets
      else
        let data ← sendRows request s.prepBuf s.queryRows
        some (s.outgoingPackets ++ [(request.socket, data)])

end Request

/-! ### Writers whose bytes do not depend on the place -/

/-- The bytes that a writer writes. -/
def bytesBy (w : Writer) : List Byte := (w (fun _ => 0) 0).1.read 0 (w (fun _ => 0) 0).2

/-- The writer writes the same bytes everywhere. -/
def Uniform (w : Writer) : Prop := Writes w (bytesBy w)

section Uniform

variable {w : Writer} {ws : List Writer} {bytes : List Byte}

theorem bytesBy_eq (h : Writes w bytes) : bytesBy w = bytes := by
  rw [bytesBy, h]
  exact Memory.read_write (fun _ => 0) 0 bytes

theorem Uniform.of_writes (h : Writes w bytes) : Uniform w := by
  rw [Uniform, bytesBy_eq h]
  exact h

theorem Uniform.puts (h : ∀ w ∈ ws, Uniform w) : Uniform (puts ws) := by
  induction ws with
  | nil => exact .of_writes Writes.puts_nil
  | cons w ws ih =>
      have hrest := ih fun w hw => h w (List.mem_cons_of_mem _ hw)
      exact .of_writes (Writes.puts_cons (h w List.mem_cons_self) hrest)

theorem uniform_integerWriter (val : Int) : Uniform (integerWriter val) :=
  .of_writes (writes_integerWriter val)

theorem uniform_byteWriter (val : BitVec 32) : Uniform (byteWriter val) :=
  .of_writes (writes_byteWriter val)

theorem uniform_shortWriter (val : BitVec 32) : Uniform (shortWriter val) :=
  .of_writes (writes_shortWriter val)

theorem uniform_floatWriter (val : BitVec 32) : Uniform (floatWriter val) :=
  @Uniform.of_writes _ [_, _, _, _] fun _ _ => rfl

theorem uniform_stringWriter (text : List Byte) : Uniform (stringWriter text) := by
  obtain ⟨start, hstart⟩ : ∃ start, Writes (stringWriter text) (start ++ upToNul text) := by
    by_cases hshort : (upToNul text).length < 255
    · refine ⟨[(BitVec.ofNat 32 (upToNul text).length).setWidth 8], fun m p => ?_⟩
      rw [stringWriter, putStringUTF, if_pos hshort]
      rfl
    · refine ⟨[0xFF, ((BitVec.ofNat 32 (upToNul text).length &&& 0xFF00) >>> 8).setWidth 8,
        (BitVec.ofNat 32 (upToNul text).length &&& 0x00FF).setWidth 8], fun m p => ?_⟩
      rw [stringWriter, putStringUTF, if_neg hshort]
      rfl
  exact .of_writes hstart

end Uniform

namespace SceneryObject

variable {g_ProtocolVersion : ℕ} {so : SceneryObject (BitVec 32)}

theorem uniform_part {bit : BitVec 32} {ws : List Writer} (h : ∀ w ∈ ws, Uniform w) :
    ∀ w ∈ so.part bit ws, Uniform w := by
  intro w hw
  rw [part] at hw
  split_ifs at hw
  · exact h w hw
  · exact absurd hw List.not_mem_nil

theorem uniform_links (l : List ExtraDataLink) :
    ∀ w ∈ l.flatMap fun a => [integerWriter a.propID, byteWriter (.ofInt 32 a.type)],
      Uniform w := by
  intro w hw
  obtain ⟨a, -, hw⟩ := List.mem_flatMap.mp hw
  simp only [List.mem_cons, List.not_mem_nil, or_false] at hw
  rcases hw with rfl | rfl
  · exact uniform_integerWriter _
  · exact uniform_byteWriter _

theorem uniform_updateParts : ∀ w ∈ so.updateParts g_ProtocolVersion, Uniform w := by
  rw [updateParts]
  simp only [List.forall_mem_append, List.forall_mem_cons, List.cons_append]
  refine ⟨uniform_integerWriter _, uniform_byteWriter _, ⟨⟨⟨⟨⟨?_, ?_⟩, ?_⟩, ?_⟩, ?_⟩, ?_⟩, ?_⟩
  · refine uniform_part (List.forall_mem_cons.mpr ⟨uniform_stringWriter _, ?_⟩)
    split_ifs
    · exact List.forall_mem_singleton.mpr (uniform_stringWriter _)
    · exact List.forall_mem_nil _
  · exact uniform_part (by simp [uniform_floatWriter])
  · exact uniform_part (by simp [uniform_floatWriter])
  · exact uniform_part (by simp [uniform_floatWriter])
  · exact uniform_part (by simp [uniform_integerWriter])
  · exact uniform_part (List.forall_mem_cons.mpr ⟨uniform_shortWriter _, uniform_links _⟩)
  · exact uniform_part (by
      simp [uniform_stringWriter, uniform_integerWriter, uniform_byteWriter])

/-- What a message says of the prop. -/
def payload (g_ProtocolVersion : ℕ) (so : SceneryObject (BitVec 32)) : List Byte :=
  bytesBy (puts (so.updateParts g_ProtocolVersion))

theorem writes_updateParts :
    Writes (puts (so.updateParts g_ProtocolVersion)) (so.payload g_ProtocolVersion) :=
  Uniform.puts uniform_updateParts

/-- How much of the buffer a message takes, however long it is. -/
theorem snd_prepExt_UpdateScenery (buffer : Memory) (pos : ℕ) :
    (so.prepExt_UpdateScenery g_ProtocolVersion buffer pos).2 =
      (so.payload g_ProtocolVersion).length + 3 := by
  rw [prepExt_UpdateScenery, messageWriter]
  simp only [writes_header 41 writes_updateParts buffer pos, List.length_cons, List.length_append,
    length_be]
  omega

theorem writes_prepExt_UpdateScenery (h : (so.payload g_ProtocolVersion).length < 2 ^ 16) :
    Writes (so.prepExt_UpdateScenery g_ProtocolVersion) (frame 41 (so.payload g_ProtocolVersion)) :=
  writes_messageWriter 41 writes_updateParts h

end SceneryObject

/-! ### The loops -/

/-- Bytes behind others. -/
theorem holds_after {m : Memory} {pending bytes : List Byte} (h : m.Holds 0 pending) :
    (m.write pending.length bytes).Holds 0 (pending ++ bytes) := by
  have hwrite := Memory.write_write_append m 0 pending bytes
  rw [h.write_eq, Nat.zero_add] at hwrite
  rw [hwrite]
  exact Memory.holds_write _ _ _

/-- No message goes past the end of the buffer; the numbers are the sizes of the messages. -/
def StaysInBuffer : ℕ → List ℕ → Prop
  | _, [] => True
  | wpos, n :: rest => wpos + n ≤ PREP_BUF_SIZE ∧
      StaysInBuffer (if MAX_SEND_CHUNK_SIZE < wpos + n then 0 else wpos + n) rest

section Loops

variable {g_ProtocolVersion : ℕ} {request : SceneryPageRequest}

/-- The props that are not excluded. -/
def sent (request : SceneryPageRequest) (l : List (SceneryObject (BitVec 32))) :
    List (SceneryObject (BitVec 32)) :=
  l.filter fun so => so.id ∉ request.excludedProps

/-- The update messages of props. -/
def messages (g_ProtocolVersion : ℕ) (l : List (SceneryObject (BitVec 32))) :
    List (Byte × List Byte) :=
  l.map fun so => (41, so.payload g_ProtocolVersion)

/-- The sizes of the update messages. -/
def sizes (g_ProtocolVersion : ℕ) (l : List (SceneryObject (BitVec 32))) : List ℕ :=
  l.map fun so => (so.payload g_ProtocolVersion).length + 3

/-- The rows of the response. -/
def idRows (request : SceneryPageRequest) (l : List (SceneryObject (BitVec 32))) :
    List (List Byte) :=
  if request.skipQuery then [] else l.map fun so => bytesOf (printInt so.id)

/-- What is in the buffer between two turns. -/
structure Pending (s : PropSending) (pending : List Byte) : Prop where
  holds : s.prepBuf.Holds 0 pending
  wpos : s.wpos = pending.length

/-- The packets of a request. -/
def packets (request : SceneryPageRequest) (chunks : List (List Byte)) : List (Int × List Byte) :=
  chunks.map fun data => (request.socket, data)

/-- From one state of the loop to another, bytes were put behind those that were in the buffer; some
of all these are packets now, and the others are in the buffer. -/
structure Sent (request : SceneryPageRequest) (s s' : PropSending)
    (pending pending' bytes : List Byte) (rows : List (List Byte)) : Prop where
  buffered : Pending s' pending'
  queryRows : s'.queryRows = s.queryRows ++ rows
  exists_chunks : ∃ chunks, s'.outgoingPackets = s.outgoingPackets ++ packets request chunks ∧
    chunks.flatten ++ pending' = pending ++ bytes

theorem Sent.refl {s : PropSending} {pending : List Byte} (h : Pending s pending) :
    Sent request s s pending pending [] [] :=
  ⟨h, (List.append_nil _).symm, [], (List.append_nil _).symm, (List.append_nil _).symm⟩

theorem Sent.trans {s s' s'' : PropSending} {pending pending' pending'' bytes bytes' : List Byte}
    {rows rows' : List (List Byte)} (h : Sent request s s' pending pending' bytes rows)
    (h' : Sent request s' s'' pending' pending'' bytes' rows') :
    Sent request s s'' pending pending'' (bytes ++ bytes') (rows ++ rows') := by
  obtain ⟨chunks, hout, hbytes⟩ := h.exists_chunks
  obtain ⟨chunks', hout', hbytes'⟩ := h'.exists_chunks
  refine ⟨h'.buffered, ?_, chunks ++ chunks', ?_, ?_⟩
  · rw [h'.queryRows, h.queryRows, List.append_assoc]
  · rw [hout', hout, packets, packets, packets, List.map_append, List.append_assoc]
  · rw [List.flatten_append, List.append_assoc, hbytes', ← List.append_assoc, hbytes,
      List.append_assoc]

/-- One turn, of a prop that is not excluded and whose message fits. -/
theorem sendProp_of_fits {s : PropSending} {pending : List Byte} (h : Pending s pending)
    {so : SceneryObject (BitVec 32)} (hso : so.id ∉ request.excludedProps)
    (hfits : s.wpos + ((so.payload g_ProtocolVersion).length + 3) ≤ PREP_BUF_SIZE) :
    ∃ s' pending', sendProp g_ProtocolVersion request s so = some s' ∧
      s'.wpos = (if MAX_SEND_CHUNK_SIZE < s.wpos + ((so.payload g_ProtocolVersion).length + 3) then
        0 else s.wpos + ((so.payload g_ProtocolVersion).length + 3)) ∧
      Sent request s s' pending pending' (frame 41 (so.payload g_ProtocolVersion))
        (idRows request [so]) := by
  have hshort : (so.payload g_ProtocolVersion).length < 2 ^ 16 := by
    rw [PREP_BUF_SIZE] at hfits
    omega
  have hwrite := SceneryObject.writes_prepExt_UpdateScenery hshort s.prepBuf s.wpos
  rw [length_frame] at hwrite
  have hholds : Memory.Holds (s.prepBuf.write s.wpos (frame 41 (so.payload g_ProtocolVersion))) 0
      (pending ++ frame 41 (so.payload g_ProtocolVersion)) := by
    rw [h.wpos]
    exact holds_after h.holds
  have hlength : s.wpos + ((so.payload g_ProtocolVersion).length + 3) =
      (pending ++ frame 41 (so.payload g_ProtocolVersion)).length := by
    rw [List.length_append, length_frame, h.wpos]
  have hrows : (if request.skipQuery then s.queryRows
      else s.queryRows ++ [bytesOf (printInt so.id)]) = s.queryRows ++ idRows request [so] := by
    rw [idRows]
    split_ifs <;> simp
  simp only [sendProp, if_neg hso, hwrite, hrows, if_neg (not_lt.mpr hfits)]
  split_ifs with hflush
  · have hread := hholds
    rw [Memory.Holds, ← hlength] at hread
    refine ⟨_, [], rfl, rfl, ⟨rfl, rfl⟩, rfl,
      [pending ++ frame 41 (so.payload g_ProtocolVersion)], ?_, by simp⟩
    simp only [PropSending.push, hread, packets, List.map_cons, List.map_nil]
  · exact ⟨_, pending ++ frame 41 (so.payload g_ProtocolVersion), rfl, rfl, ⟨hholds, hlength⟩, rfl,
      [], by simp [packets], rfl⟩

/-- A message that does not fit has no result. -/
theorem sendProp_of_not_fits {s : PropSending} {so : SceneryObject (BitVec 32)}
    (hso : so.id ∉ request.excludedProps)
    (hfits : ¬s.wpos + ((so.payload g_ProtocolVersion).length + 3) ≤ PREP_BUF_SIZE) :
    sendProp g_ProtocolVersion request s so = none := by
  have hsize := @SceneryObject.snd_prepExt_UpdateScenery g_ProtocolVersion so s.prepBuf s.wpos
  simp only [sendProp, if_neg hso, hsize, if_pos (not_le.mp hfits)]

theorem idRows_append (l l' : List (SceneryObject (BitVec 32))) :
    idRows request (l ++ l') = idRows request l ++ idRows request l' := by
  simp only [idRows]
  split_ifs <;> simp

/-- The first loop sends a message for each prop that is not excluded, if none of them goes past the
end of the buffer. -/
theorem sendProps_spec {l : List (SceneryObject (BitVec 32))} {s : PropSending}
    {pending : List Byte} (h : Pending s pending) :
    (StaysInBuffer s.wpos (sizes g_ProtocolVersion (sent request l)) →
      ∃ s' pending', l.foldlM (sendProp g_ProtocolVersion request) s = some s' ∧
        Sent request s s' pending pending' (frames (messages g_ProtocolVersion (sent request l)))
          (idRows request (sent request l))) ∧
    (¬StaysInBuffer s.wpos (sizes g_ProtocolVersion (sent request l)) →
      l.foldlM (sendProp g_ProtocolVersion request) s = none) := by
  induction l generalizing s pending with
  | nil =>
      refine ⟨fun _ => ⟨s, pending, rfl, ?_⟩, fun hstays => absurd trivial hstays⟩
      have hnone : idRows request (sent request []) = [] := by
        rw [idRows]
        split_ifs <;> rfl
      rw [hnone]
      exact Sent.refl h
  | cons so l ih =>
      by_cases hso : so.id ∈ request.excludedProps
      · have hsent : sent request (so :: l) = sent request l := by simp [sent, hso]
        have hturn : sendProp g_ProtocolVersion request s so = some s := by
          rw [sendProp, if_pos hso]
        rw [hsent, List.foldlM_cons, hturn]
        exact ih h
      · have hsent : sent request (so :: l) = so :: sent request l := by simp [sent, hso]
        rw [hsent, sizes, List.map_cons, StaysInBuffer, List.foldlM_cons]
        by_cases hfits : s.wpos + ((so.payload g_ProtocolVersion).length + 3) ≤ PREP_BUF_SIZE
        · obtain ⟨s', pending', hturn, hwpos, hsend⟩ := sendProp_of_fits h hso hfits
          obtain ⟨hall, hnone⟩ := ih hsend.buffered
          rw [hwpos] at hall hnone
          rw [hturn]
          refine ⟨fun hstays => ?_, fun hstays => hnone fun hrest => hstays ⟨hfits, hrest⟩⟩
          obtain ⟨s'', pending'', hrun, hsend'⟩ := hall hstays.2
          have hrows : idRows request (so :: sent request l) =
              idRows request [so] ++ idRows request (sent request l) := idRows_append [so] _
          rw [hrows]
          exact ⟨s'', pending'', hrun, hsend.trans hsend'⟩
        · rw [sendProp_of_not_fits hso hfits]
          exact ⟨fun hstays => absurd hstays.1 hfits, fun _ => rfl⟩

/-- A row as the loops make it: the digits of a number. -/
structure IsIdRow (row : List Byte) : Prop where
  nul : 0 ∉ row
  length_le : row.length ≤ 11

theorem isIdRow_printInt {id : Int} (hid : -2 ^ 31 ≤ id ∧ id < 2 ^ 31) :
    IsIdRow (bytesOf (printInt id)) := by
  constructor
  · intro hzero
    obtain ⟨c, hc, hnul⟩ := List.mem_map.mp hzero
    have hsmall : ∀ n < 128, 0 < n → BitVec.ofNat 8 n ≠ 0 := by decide
    rcases mem_printInt hc with hdigit | rfl
    · rw [Char.isDigit, Bool.and_eq_true, decide_eq_true_eq, decide_eq_true_eq] at hdigit
      have hlow : 48 ≤ c.toNat := hdigit.1
      have hhigh : c.toNat ≤ 57 := hdigit.2
      exact hsmall c.toNat (by omega) (by omega) hnul
    · exact absurd hnul (by decide)
  · rw [bytesOf, List.length_map]
    exact length_printInt_le hid.1 hid.2

/-- What is in the buffer between two turns of the second loop. -/
structure RowPending (s : RowSending) (pending : List Byte) : Prop where
  holds : s.prepBuf.Holds 0 pending
  wpos : s.wpos = pending.length
  small : s.wpos ≤ MAX_SEND_CHUNK_SIZE

/-- One turn puts a row behind what there is. -/
theorem sendRow_spec {s : RowSending} {pending row : List Byte} (h : RowPending s pending)
    (hrow : IsIdRow row) :
    ∃ s' pending', sendRow s row = some s' ∧ RowPending s' pending' ∧
      s'.data ++ pending' = s.data ++ pending ++ QueryResponse.rowBytes [row] := by
  have hsmall := h.small
  have hlength := hrow.length_le
  have hwrite : Writes (puts [byteWriter 1, stringWriter row]) (QueryResponse.rowBytes [row]) := by
    have htexts : ∀ col ∈ [row], 0 ∉ col ∧ col.length < 2 ^ 16 :=
      List.forall_mem_singleton.mpr ⟨hrow.nul, by omega⟩
    exact @writes_rowWriter [row] (by simp) htexts
  have hsize : (QueryResponse.rowBytes [row]).length ≤ 15 := by
    rw [QueryResponse.rowBytes, List.flatMap_singleton, List.length_append, length_be, utf,
      ← putStringReq_eq, putStringReq]
    split_ifs <;> omega
  have hholds : Memory.Holds (s.prepBuf.write s.wpos (QueryResponse.rowBytes [row])) 0
      (pending ++ QueryResponse.rowBytes [row]) := by
    rw [h.wpos]
    exact holds_after h.holds
  have hwpos : s.wpos + (QueryResponse.rowBytes [row]).length =
      (pending ++ QueryResponse.rowBytes [row]).length := by
    rw [List.length_append, h.wpos]
  have hfits : ¬PREP_BUF_SIZE < s.wpos + (QueryResponse.rowBytes [row]).length := by
    rw [PREP_BUF_SIZE]
    rw [MAX_SEND_CHUNK_SIZE] at hsmall
    omega
  simp only [sendRow, hwrite s.prepBuf s.wpos, if_neg hfits]
  split_ifs with hflush
  · have hread := hholds
    rw [Memory.Holds, ← hwpos] at hread
    refine ⟨_, [], rfl, ⟨rfl, rfl, Nat.zero_le _⟩, ?_⟩
    simp only [hread, List.append_nil, List.append_assoc]
  · exact ⟨_, pending ++ QueryResponse.rowBytes [row], rfl, ⟨hholds, hwpos, not_lt.mp hflush⟩,
      (List.append_assoc _ _ _).symm⟩

/-- The second loop puts all rows behind what there is, wherever the packet is cut. -/
theorem foldlM_sendRow {rows : List (List Byte)} {s : RowSending} {pending : List Byte}
    (h : RowPending s pending) (hrows : ∀ row ∈ rows, IsIdRow row) :
    ∃ s' pending', rows.foldlM sendRow s = some s' ∧ RowPending s' pending' ∧
      s'.data ++ pending' =
        s.data ++ pending ++ rows.flatMap fun row => QueryResponse.rowBytes [row] := by
  induction rows generalizing s pending with
  | nil => exact ⟨s, pending, rfl, h, (List.append_nil _).symm⟩
  | cons row rows ih =>
      obtain ⟨s', pending', hturn, hpending, hdata⟩ := sendRow_spec h (hrows row List.mem_cons_self)
      obtain ⟨s'', pending'', hrun, hpending', hdata'⟩ :=
        ih hpending fun r hr => hrows r (List.mem_cons_of_mem _ hr)
      refine ⟨s'', pending'', ?_, hpending', ?_⟩
      · rw [List.foldlM_cons, hturn]
        exact hrun
      · rw [hdata', hdata, List.flatMap_cons, List.append_assoc]

/-- The response that the loops make. -/
def rowsResponse (request : SceneryPageRequest) (rows : List (List Byte)) : QueryResponse where
  mQueryID := request.queryID
  mResponse := rows.map fun row => [row]

/-- The size that is computed beforehand is that of what is written. -/
theorem sizeReq_eq {rows : List (List Byte)} (hrows : ∀ row ∈ rows, IsIdRow row) :
    6 + (rows.map fun row => 1 + putStringReq (upToNul row)).sum =
      (rowsResponse request rows).payload.length := by
  have hrow : ∀ row ∈ rows, 1 + putStringReq (upToNul row) =
      (QueryResponse.rowBytes [row]).length := by
    intro row hrow
    rw [upToNul_of_notMem (hrows row hrow).nul, putStringReq_eq, QueryResponse.rowBytes,
      List.flatMap_singleton]
    exact (@List.length_append _ (be 1 1) (utf row)).symm
  rw [List.map_congr_left hrow, QueryResponse.payload, rowsResponse, List.flatMap_map,
    List.length_append, List.length_append, length_be, length_be, List.length_flatMap]
  omega

theorem encodable_rowsResponse {rows : List (List Byte)} (hrows : ∀ row ∈ rows, IsIdRow row)
    (hsize : (rowsResponse request rows).payload.length < 2 ^ 16) :
    (rowsResponse request rows).Encodable := by
  have hcount : rows.length ≤ (rowsResponse request rows).payload.length := by
    have hsum : ∀ l : List (List Byte),
        l.length ≤ (l.map fun row => 1 + putStringReq (upToNul row)).sum := by
      intro l
      induction l with
      | nil => exact le_rfl
      | cons row l ih =>
          rw [List.length_cons, List.map_cons, List.sum_cons]
          omega
    have hrowsum := hsum rows
    rw [← sizeReq_eq hrows]
    omega
  refine ⟨?_, ?_, ?_, hsize⟩
  · rw [rowsResponse, List.length_map]
    omega
  · intro row hrow
    obtain ⟨text, -, rfl⟩ := List.mem_map.mp hrow
    simp
  · intro row hrow col hcol
    obtain ⟨text, htext, rfl⟩ := List.mem_map.mp hrow
    have hlength := (hrows text htext).length_le
    rw [List.mem_singleton.mp hcol]
    exact ⟨(hrows text htext).nul, by omega⟩

/-- The response that is sent in parts is the message of all of it. -/
theorem sendRows_spec {rows : List (List Byte)} (prepBuf : Memory)
    (hrows : ∀ row ∈ rows, IsIdRow row)
    (hsize : (rowsResponse request rows).payload.length < 2 ^ 16) :
    sendRows request prepBuf rows = some (frame 1 (rowsResponse request rows).payload) := by
  have hencodable := encodable_rowsResponse hrows hsize
  have hcount : rows.length < 2 ^ 16 := by
    have hlt := hencodable.rows
    rwa [rowsResponse, List.length_map] at hlt
  have hsizeReq : 6 + (rows.map fun row => 1 + putStringReq (upToNul row)).sum =
      (rowsResponse request rows).payload.length := sizeReq_eq hrows
  have hsizeWriter := writes_shortWriter (.ofNat 32 (rowsResponse request rows).payload.length)
  have hcountWriter := writes_shortWriter (.ofNat 32 rows.length)
  rw [toNat_count hsize] at hsizeWriter
  rw [toNat_count hcount] at hcountWriter
  set header := be 1 1 ++ (be 2 (rowsResponse request rows).payload.length ++
    (be 4 (BitVec.ofInt 32 request.queryID).toNat ++ (be 2 rows.length ++ []))) with hheader
  have hstart : Writes (puts [byteWriter 1,
      shortWriter (.ofNat 32 (rowsResponse request rows).payload.length),
      integerWriter request.queryID, shortWriter (.ofNat 32 rows.length)]) header :=
    (writes_byteWriter 1).puts_cons <| hsizeWriter.puts_cons <|
      (writes_integerWriter request.queryID).puts_cons <| hcountWriter.puts_cons Writes.puts_nil
  have hlength : header.length = 9 := by simp [hheader]
  have hpending : RowPending { prepBuf := prepBuf.write 0 header, wpos := header.length } header :=
    ⟨Memory.holds_write prepBuf 0 header, rfl, by simp [hlength, MAX_SEND_CHUNK_SIZE]⟩
  obtain ⟨s, pending, hrun, hlast, hdata⟩ := foldlM_sendRow hpending hrows
  have hframe : s.data ++ pending = frame 1 (rowsResponse request rows).payload := by
    rw [hdata, hheader, frame, QueryResponse.payload, rowsResponse, List.flatMap_map,
      List.length_map]
    simp [be]
  have hread : s.prepBuf.read 0 s.wpos = pending := by
    rw [hlast.wpos]
    exact hlast.holds
  simp only [sendRows, hsizeReq, hstart prepBuf 0, hrun, Option.bind_eq_bind, Option.bind_some]
  rw [← hframe, ← hread]
  split_ifs with hpos
  · rfl
  · have hempty : s.wpos = 0 := by omega
    rw [hempty]
    exact congrArg some (List.append_nil _).symm

end Loops

/-! ### The packets of a request -/

section Main

variable {g_ProtocolVersion : ℕ} {request : SceneryPageRequest} {page : SceneryPage}
  {r : QueryResponse}

/-- The response with a row for the ID of each prop that is not excluded. -/
def pageResponse (request : SceneryPageRequest) (page : SceneryPage) : QueryResponse :=
  rowsResponse request (idRows request (sent request page.mSceneryList))

/-- What `Write` wrote is read as the response, up to its end. -/
def Decodes (r : QueryResponse) : Prop :=
  ∀ buffer pos, decode (r.write buffer pos).1 pos =
    { type := 1
      size := BitVec.ofNat 16 ((r.write buffer pos).2 - 3)
      queryID := BitVec.ofInt 32 r.mQueryID
      rows := r.mResponse
      rpos := pos + (r.write buffer pos).2 }

/-- The packets are, in order, the update messages of the props that are not excluded and then, if
the query was not skipped, the response as `Write` writes it. -/
def Sends (g_ProtocolVersion : ℕ) (request : SceneryPageRequest) (page : SceneryPage)
    (prepBuf : Memory) (outgoingPackets : List (Int × List Byte)) : Prop :=
  ∃ chunks : List (List Byte),
    chunks.flatten = frames (messages g_ProtocolVersion (sent request page.mSceneryList)) ∧
    sendPageRequest g_ProtocolVersion request (some page) prepBuf outgoingPackets =
      some (outgoingPackets ++ packets request chunks ++
        if request.skipQuery then []
        else [(request.socket, bytesBy (pageResponse request page).write)])

theorem isIdRow_idRows : ∀ row ∈ idRows request (sent request page.mSceneryList), IsIdRow row := by
  intro row hrow
  rw [idRows] at hrow
  split_ifs at hrow
  · exact absurd hrow List.not_mem_nil
  · obtain ⟨so, hso, rfl⟩ := List.mem_map.mp hrow
    exact isIdRow_printInt (page.ids so (List.mem_filter.mp hso).1)

theorem decodes (hr : r.Encodable) : Decodes r := by
  intro buffer pos
  rw [QueryResponse.writes_write hr]
  have hdecode := QueryResponse.decode_of_holds hr (Memory.holds_write buffer pos _)
  rwa [length_frame] at hdecode

/-- The packets are right where the loop over the props has a result. -/
theorem sends_of_stays (hsize : (pageResponse request page).payload.length < 2 ^ 16)
    (hstays : StaysInBuffer 0 (sizes g_ProtocolVersion (sent request page.mSceneryList)))
    (prepBuf : Memory) (outgoingPackets : List (Int × List Byte)) :
    Sends g_ProtocolVersion request page prepBuf outgoingPackets := by
  have hstart : Pending { prepBuf, outgoingPackets } [] := ⟨rfl, rfl⟩
  obtain ⟨s, pending, hrun, hsent⟩ := (sendProps_spec hstart).1 hstays
  obtain ⟨chunks, hout, hbytes⟩ := hsent.exists_chunks
  have hrows : s.queryRows = idRows request (sent request page.mSceneryList) := hsent.queryRows
  have hlast : ∃ rest, (if 0 < s.wpos then s.push request else s).outgoingPackets =
      outgoingPackets ++ packets request (chunks ++ rest) ∧ rest.flatten = pending := by
    have hread : s.prepBuf.read 0 s.wpos = pending := by
      rw [hsent.buffered.wpos]
      exact hsent.buffered.holds
    split_ifs with hpos
    · refine ⟨[pending], ?_, by simp⟩
      rw [PropSending.push, hread, hout, packets, packets, List.map_append, List.append_assoc]
      rfl
    · have hempty : pending = [] := by
        rw [← List.length_eq_zero_iff, ← hsent.buffered.wpos]
        omega
      exact ⟨[], by rw [List.append_nil, hout], hempty.symm⟩
  obtain ⟨rest, hpackets, hrest⟩ := hlast
  have hsame : (if 0 < s.wpos then s.push request else s).queryRows = s.queryRows := by
    split_ifs <;> rfl
  refine ⟨chunks ++ rest, ?_, ?_⟩
  · rw [List.flatten_append, hrest, hbytes, List.nil_append]
  · simp only [sendPageRequest, hrun, Option.bind_eq_bind, Option.bind_some, hpackets, hsame, hrows]
    by_cases hskip : request.skipQuery
    · rw [if_pos hskip, if_pos hskip, List.append_nil]
    · have hresponse := encodable_rowsResponse isIdRow_idRows hsize
      have hwritten := bytesBy_eq (QueryResponse.writes_write hresponse)
      rw [if_neg hskip, if_neg hskip, sendRows_spec _ isIdRow_idRows hsize, pageResponse, hwritten]
      rfl

/-- Responses are read as they were written, and the packets of a request are the update messages
and that response, exactly where no update message goes past the end of the buffer. -/
theorem response_iff (hr : r.Encodable)
    (hsize : (pageResponse request page).payload.length < 2 ^ 16) (prepBuf : Memory)
    (outgoingPackets : List (Int × List Byte)) :
    Decodes r ∧ Sends g_ProtocolVersion request page prepBuf outgoingPackets ↔
      StaysInBuffer 0 (sizes g_ProtocolVersion (sent request page.mSceneryList)) := by
  constructor
  · rintro ⟨-, chunks, -, hresult⟩
    by_contra hstays
    have hstart : Pending { prepBuf, outgoingPackets } [] := ⟨rfl, rfl⟩
    have hnone := (sendProps_spec hstart).2 hstays
    rw [sendPageRequest, hnone] at hresult
    exact absurd hresult nofun
  · intro hstays
    exact ⟨decodes hr, sends_of_stays hsize hstays prepBuf outgoingPackets⟩

/-- A prop with this name of its asset, and nothing else. -/
def plainProp (asset : Text) : SceneryObject (BitVec 32) where
  id := 1
  asset := asset
  locationX := 0
  locationY := 0
  locationZ := 0
  quatX := 0
  quatY := 0
  quatZ := 0
  quatW := 0
  scaleX := 0
  scaleY := 0
  scaleZ := 0

/-- A page with one prop. -/
def plainPage (asset : Text) : SceneryPage where
  mSceneryList := [plainProp asset]
  ids := List.forall_mem_singleton.mpr (by simp [plainProp])

theorem response_iff_plain :
    Decodes { mQueryID := 7, mResponse := [[[97], []], []] } ∧
        Sends 33 { socket := 5, queryID := 7 } (plainPage ['a']) (fun _ => 0) [] ↔
      StaysInBuffer 0
        (sizes 33 (sent { socket := 5, queryID := 7 } (plainPage ['a']).mSceneryList)) :=
  response_iff ⟨by decide, by decide, by decide, by decide⟩ (by decide) (fun _ => 0) []

/-- A text takes as much of a message as it is long. -/
theorem le_length_bytesBy_puts {w : Writer} {ws : List Writer} (h : ∀ w ∈ ws, Uniform w)
    (hw : w ∈ ws) : (bytesBy w).length ≤ (bytesBy (puts ws)).length := by
  induction ws with
  | nil => exact absurd hw List.not_mem_nil
  | cons v ws ih =>
      have hrest : ∀ w ∈ ws, Uniform w := fun w hw => h w (List.mem_cons_of_mem _ hw)
      have hall := bytesBy_eq (Writes.puts_cons (h v List.mem_cons_self) (Uniform.puts hrest))
      rw [hall, List.length_append]
      rcases List.mem_cons.mp hw with rfl | hw
      · exact Nat.le_add_right _ _
      · exact (ih hrest hw).trans (Nat.le_add_left _ _)

theorem length_le_bytesBy_stringWriter (text : List Byte) :
    (upToNul text).length ≤ (bytesBy (stringWriter text)).length := by
  by_cases hshort : (upToNul text).length < 255
  · simp only [bytesBy, stringWriter, putStringUTF, if_pos hshort, Memory.length_read]
    omega
  · simp only [bytesBy, stringWriter, putStringUTF, if_neg hshort, Memory.length_read]
    omega

/-- The message of a prop is longer than the name of the asset. -/
theorem SceneryObject.length_asset_le (so : SceneryObject (BitVec 32)) :
    (upToNul (bytesOf so.asset)).length ≤ (so.payload g_ProtocolVersion).length := by
  have hbit : so.updateMask &&& SCENERY_UPDATE_ASSET ≠ 0 := by
    rw [updateMask]
    split
    · decide
    · split_ifs <;> decide
  have hmem : stringWriter (bytesOf so.asset) ∈ so.updateParts g_ProtocolVersion := by
    rw [updateParts]
    iterate 6 apply List.mem_append_left
    apply List.mem_cons_of_mem
    apply List.mem_cons_of_mem
    rw [part, if_pos hbit]
    exact List.mem_cons_self
  exact (length_le_bytesBy_stringWriter _).trans (le_length_bytesBy_puts uniform_updateParts hmem)

/-- The message of a prop whose asset has a name of 4095 characters goes past the end of the
buffer. -/
theorem long_asset_overflows :
    (pageResponse { socket := 5, queryID := 7 }
        (plainPage (List.replicate 4095 'a'))).payload.length < 2 ^ 16 ∧
      ¬Sends 33 { socket := 5, queryID := 7 } (plainPage (List.replicate 4095 'a'))
        (fun _ => 0) [] := by
  refine ⟨by decide, ?_⟩
  rintro ⟨chunks, -, hresult⟩
  have hname : upToNul (bytesOf (List.replicate 4095 'a')) = List.replicate 4095 97 := by
    rw [bytesOf, List.map_replicate]
    apply upToNul_of_notMem
    intro hzero
    exact absurd (List.eq_of_mem_replicate hzero) (by decide)
  have hlength : (upToNul (bytesOf (List.replicate 4095 'a'))).length ≤
      ((plainProp (List.replicate 4095 'a')).payload 33).length :=
    SceneryObject.length_asset_le (plainProp (List.replicate 4095 'a'))
  have hnone : sendProp 33 { socket := 5, queryID := 7 }
      { prepBuf := fun _ => 0, outgoingPackets := [] } (plainProp (List.replicate 4095 'a')) =
        none := by
    apply sendProp_of_not_fits List.not_mem_nil
    rw [hname, List.length_replicate] at hlength
    rw [PREP_BUF_SIZE]
    omega
  rw [sendPageRequest, plainPage, List.foldlM_cons, hnone] at hresult
  exact absurd hresult nofun

end Main

end Iceee.Scenery
