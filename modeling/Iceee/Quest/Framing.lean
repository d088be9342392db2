import Iceee.Quest.Acts
import Iceee.Quest.Messages

/-!
# Framing of the messages about quests

A buffer is `Framed` when it was given whole messages and the status messages among them are right.
What a status message should name is one of the `Marking`s of the event: the quest, an objective
that is marked, and the flag it has then.

## Main results

* `Framed.put`: one more message.
* `Framed.applyOutcome`: the messages about the objectives that are completed with another one.
-/

namespace Iceee.Quest

open Lib Packet

/-! ### What a status message should name -/

/-- The quest, the objective and the flag that a status message names. -/
structure Status where
  questID : BitVec 32
  objectiveIndex : ℕ
  complete : Byte
  deriving DecidableEq

/-- A message about a quest that starts as a status message does. -/
def statusOf (message : Byte × List Byte) : Option Status :=
  match message.2 with
  | a :: b :: c :: d :: event :: objective :: flag :: _ =>
      if message.1 = 7 ∧ event = 0 then
        some
          { questID := BitVec.ofNat 32 (ofBe [a, b, c, d])
            objectiveIndex := objective.toNat
            complete := flag }
      else none
  | _ => none

/-- What an event does to the objectives of an act: the quest before and after, and the objective
that the event is about. -/
structure Marking where
  before : QuestReference
  after : QuestReference
  obj : Fin MAXOBJECTIVES

/-- The status is that of the quest and of an objective that was marked, as it is after that. -/
def Marking.Names (mk : Marking) (st : Status) : Prop :=
  st.questID = .ofInt 32 mk.before.questID ∧
    ∃ i : Fin MAXOBJECTIVES, st.objectiveIndex = i ∧
      (i = mk.obj ∨ mk.before.objComplete i = false ∧ mk.after.objComplete i = true) ∧
        st.complete = if mk.after.objComplete i then 1 else 0

namespace QuestReference

variable (qr : QuestReference) (qd : QuestDefinition)

def objectiveMarkings (type : ObjectiveType) (targetCDefID : Int) : List Marking :=
  match qd.getAct qr.curAct with
  | none => []
  | some act =>
      match act.getObjective type targetCDefID with
      | none => []
      | some obj =>
          if qr.objComplete obj then []
          else [⟨qr, (qr.countObjective act obj).applyOutcome 3 (act.objective obj) obj, obj⟩]

def doneMarking (qo : QuestObjective) (obj : Fin MAXOBJECTIVES) : Marking :=
  ⟨qr, (qr.markDone obj).applyOutcome MAXOBJECTIVES qo obj, obj⟩

def travelMarkings (l : Location) : List Marking :=
  match qd.getAct qr.curAct with
  | none => []
  | some act =>
      match qr.travelLoop act l (List.finRange MAXOBJECTIVES) with
      | none => []
      | some r => [qr.doneMarking (act.objective r) r]

def talkMarkings (creatureDefID : Int) : List Marking :=
  match qd.getAct qr.curAct with
  | none => []
  | some act =>
      match (List.finRange MAXOBJECTIVES).find? fun a =>
        (act.objective a).type = .talk ∧ (act.objective a).myCreatureDefID = creatureDefID with
      | none => []
      | some objective => [qr.doneMarking (act.objective objective) objective]

def emoteMarkings (act : QuestAct) (e : Emote) :
    List (Fin MAXOBJECTIVES) → QuestReference → List Marking
  | [], _ => []
  | obj :: rest, qr =>
      if (act.objective obj).answers e then
        match qd.getAct qr.curAct with
        | none => []
        | some cur =>
            let mk := qr.doneMarking (cur.objective obj) obj
            mk :: emoteMarkings act e rest
              (if mk.after.checkCompletedAct act then mk.after.advanceAct qd else mk.after)
      else emoteMarkings act e rest qr

end QuestReference

/-- What an event does to the objectives of one quest. -/
def questMarkings (qr : QuestReference) (qd : QuestDefinition) : QuestEvent → List Marking
  | .objective type targetCDefID =>
      if qr.complete then [] else qr.objectiveMarkings qd type targetCDefID
  | .travel l => qr.travelMarkings qd l
  | .talk creatureDefID => qr.talkMarkings qd creatureDefID
  | .emote e =>
      match qd.getAct qr.curAct with
      | none => []
      | some act => QuestReference.emoteMarkings qd act e (List.finRange MAXOBJECTIVES) qr

/-- The quests that an event comes to: a talk is for the first one that has the creature. -/
def questsOf (defs : QuestDefinitionContainer) (activeQuests : List QuestReference) :
    QuestEvent → List QuestReference
  | .talk creatureDefID =>
      (activeQuests.find? fun qr => (defs.getQuestDefPtrByID qr.questID).any fun qd =>
        qr.hasCreatureReturn qd creatureDefID == some true).toList
  | _ => activeQuests

/-- What an event does to the objectives of the active quests. -/
def eventMarkings (defs : QuestDefinitionContainer) (activeQuests : List QuestReference)
    (event : QuestEvent) : List Marking :=
  (questsOf defs activeQuests event).flatMap fun qr =>
    match defs.getQuestDefPtrByID qr.questID with
    | none => []
    | some qd => questMarkings qr qd event

/-! ### Texts that are short enough -/

/-- The texts of a quest that are sent have less than 255 bytes, and its counts are those of an
`int`. -/
structure ShortTexts (qd : QuestDefinition) : Prop where
  activateText : ∀ act ∈ qd.actList, ∀ obj, (act.objective obj).activateText.length < 255
  description : ∀ act ∈ qd.actList, ∀ obj,
    ("Objective complete: " ++ (act.objective obj).description).length < 255
  data2 : ∀ act ∈ qd.actList, ∀ obj,
    -2 ^ 31 ≤ (act.objective obj).data2 ∧ (act.objective obj).data2 < 2 ^ 31

theorem length_countText_lt {counter data2 : Int} (hcount : -2 ^ 31 ≤ counter)
    (hcount' : counter < 2 ^ 31) (hlow : -2 ^ 31 ≤ data2) (hhigh : data2 < 2 ^ 31) :
    (countText counter data2).length < 255 := by
  have h := length_printInt_le hcount hcount'
  have h' := length_printInt_le hlow hhigh
  have hof : " of ".toList.length = 4 := by decide
  simp only [countText, String.length_ofList, List.length_append, hof]
  omega

/-! ### The bytes of a message -/

/-- The length of a text in front of it. -/
def textPayload (text : String) : List Byte :=
  lengthPrefix (textBytes text).length ++ textBytes text

/-- The payload of a message about a status and nothing else. -/
def Status.payload (st : Status) (text : String) : List Byte :=
  be 4 st.questID.toNat ++
    (0 :: BitVec.ofNat 8 st.objectiveIndex :: st.complete :: textPayload text)

section Bytes

variable {parts : List Writer} {payload : List Byte} {val : BitVec 32}

theorem writes_byteWriter (val : BitVec 32) : Writes (byteWriter val) (be 1 val.toNat) :=
  fun buffer pos => putByte_eq buffer pos val

theorem writes_shortWriter (val : BitVec 32) : Writes (shortWriter val) (be 2 val.toNat) :=
  fun buffer pos => putShort_eq buffer pos val

theorem writes_integerWriter (val : Int) :
    Writes (integerWriter val) (be 4 (BitVec.ofInt 32 val).toNat) :=
  fun buffer pos => putInteger_eq buffer pos _

@[simp] theorem length_textBytes (text : String) : (textBytes text).length = text.length := by
  rw [textBytes, List.length_map, String.length_toList]

theorem length_textPayload {text : String} (hshort : text.length < 255) :
    (textPayload text).length = text.length + 1 := by
  simp [textPayload, lengthPrefix, hshort, Nat.add_comm]

theorem writes_textWriter {text : String} (hshort : text.length < 255) :
    Writes (textWriter text) (textPayload text) := by
  intro buffer pos
  have hlength : (textBytes text).length < 2 ^ 16 := by
    rw [length_textBytes]
    omega
  rw [textWriter, putStringUTF_eq hlength, putStringReq_eq]
  rfl

/-- The length that is put behind the type of a message. -/
theorem setSize_frame (buffer : Memory) (pos k : ℕ) (type : Byte)
    (hlength : payload.length < 2 ^ 16) :
    setSize (buffer.write pos (type :: (be 2 k ++ payload))) pos 1 payload.length =
      buffer.write pos (frame type payload) := by
  have hsize : (BitVec.ofNat 32 payload.length).toNat = payload.length := by
    rw [BitVec.toNat_ofNat]
    omega
  have hpatch := @Memory.write_write_patch buffer pos [type] payload (be 2 k)
    (be 2 payload.length) (by simp)
  rw [setSize, putShort_eq, hsize]
  exact hpatch

theorem writes_header (type : BitVec 32) (hparts : Writes (puts parts) payload) :
    Writes (puts (byteWriter type :: shortWriter 0 :: parts))
      (BitVec.ofNat 8 type.toNat :: (be 2 0 ++ payload)) :=
  (writes_byteWriter type).puts_cons ((writes_shortWriter 0).puts_cons hparts)

theorem writes_messageWriter (type : BitVec 32) (hparts : Writes (puts parts) payload)
    (hlength : payload.length < 2 ^ 16) :
    Writes (messageWriter type parts) (frame (BitVec.ofNat 8 type.toNat) payload) := by
  intro buffer pos
  have hall : (BitVec.ofNat 8 type.toNat :: (be 2 0 ++ payload)).length = payload.length + 3 := by
    simp
    omega
  simp only [messageWriter, writes_header type hparts buffer pos, hall, Nat.add_sub_cancel,
    setSize_frame buffer pos 0 _ hlength, length_frame]

/-- The payload of a status message. -/
def statusPayload (questID : Int) (i : Fin MAXOBJECTIVES) (complete : Bool) (text : String) :
    List Byte :=
  be 4 (BitVec.ofInt 32 questID).toNat ++
    (0 :: BitVec.ofNat 8 i :: (if complete then 1 else 0) :: textPayload text)

theorem writes_statusParts (questID : Int) (i : Fin MAXOBJECTIVES) (complete : Bool)
    {text : String} (hshort : text.length < 255) :
    Writes (puts (statusParts questID i complete text))
      (statusPayload questID i complete text) := by
  have hi : (BitVec.ofNat 32 i).toNat = i := by
    have hlt : i.val < 4 := i.isLt
    rw [BitVec.toNat_ofNat]
    omega
  have htext := (writes_textWriter hshort).puts_cons Writes.puts_nil
  have hflag := (writes_byteWriter (if complete then 1 else 0)).puts_cons htext
  have hindex := (writes_byteWriter (.ofNat 32 i)).puts_cons hflag
  have hevent := (writes_byteWriter EVENTMSG_STATUS).puts_cons hindex
  have hall := (writes_integerWriter questID).puts_cons hevent
  rw [hi, List.append_nil] at hall
  cases complete <;> exact hall

theorem statusOf_statusPayload (questID : Int) (i : Fin MAXOBJECTIVES) (complete : Bool)
    (text : String) (extra : List Byte) :
    statusOf (7, statusPayload questID i complete text ++ extra) =
      some ⟨.ofInt 32 questID, i, if complete then 1 else 0⟩ := by
  unfold statusPayload
  generalize BitVec.ofInt 32 questID = id
  obtain ⟨a, b, c, d, hbe⟩ : ∃ a b c d, be 4 id.toNat = [a, b, c, d] := ⟨_, _, _, _, rfl⟩
  have hid : BitVec.ofNat 32 (ofBe [a, b, c, d]) = id := by
    rw [← hbe, ofBe_be_of_lt id.isLt, BitVec.ofNat_toNat, BitVec.setWidth_eq]
  have hi : (BitVec.ofNat 8 i).toNat = i := by
    have hlt : i.val < 4 := i.isLt
    rw [BitVec.toNat_ofNat]
    omega
  simp only [statusOf, hbe, List.cons_append, List.nil_append, hid, hi, and_self, if_true]

/-- Nothing comes behind the text of a payload. -/
theorem textPayload_append_eq {text text' : String} {extra : List Byte}
    (hshort : text.length < 255) (hshort' : text'.length < 255)
    (h : textPayload text ++ extra = textPayload text') : extra = [] := by
  have hcons : ∀ {t : String}, t.length < 255 →
      textPayload t = BitVec.ofNat 8 t.length :: textBytes t := by
    intro t ht
    simp [textPayload, lengthPrefix, ht, be]
  rw [hcons hshort, hcons hshort', List.cons_append, List.cons.injEq] at h
  have hnat := congrArg BitVec.toNat h.1
  rw [BitVec.toNat_ofNat, BitVec.toNat_ofNat] at hnat
  have hlength := congrArg List.length h.2
  rw [List.length_append, length_textBytes, length_textBytes] at hlength
  exact List.eq_nil_of_length_eq_zero (by omega)

theorem length_statusPayload (questID : Int) (i : Fin MAXOBJECTIVES) (complete : Bool)
    {text : String} (hshort : text.length < 255) :
    (statusPayload questID i complete text).length = text.length + 8 := by
  simp [statusPayload, length_textPayload hshort]
  omega

end Bytes

/-! ### Whole messages in a buffer -/

/-- From `pos` on the buffer was given whole messages, and what the status messages among them name
is right with their payloads. -/
def Framed (buffer : Memory) (pos : ℕ) (Right : Status → List Byte → Prop)
    (r : Memory × ℕ) : Prop :=
  ∃ messages, r = (buffer.write pos (frames messages), (frames messages).length) ∧
    ∀ message ∈ messages, message.2.length < 2 ^ 16 ∧ ∀ st ∈ statusOf message, Right st message.2

/-- What a quest has put into the buffer. -/
def Sending.sent (s : Sending) : Memory × ℕ := (s.buffer, s.wpos)

section Framed

variable {buffer : Memory} {pos : ℕ} {Right : Status → List Byte → Prop} {s : Sending}

theorem Framed.nil : Framed buffer pos Right (buffer, 0) := by
  refine ⟨[], ?_, fun message hmem => ?_⟩
  · rw [frames, List.flatMap_nil, Memory.write_nil]
    rfl
  · cases hmem

/-- Messages behind messages. -/
theorem Framed.append {r r' : Memory × ℕ} (h : Framed buffer pos Right r)
    (h' : Framed r.1 (pos + r.2) Right r') : Framed buffer pos Right (r'.1, r.2 + r'.2) := by
  obtain ⟨messages, rfl, hall⟩ := h
  obtain ⟨messages', rfl, hall'⟩ := h'
  refine ⟨messages ++ messages', ?_, fun message hmem => ?_⟩
  · simp only [Memory.write_write_append, frames_append, List.length_append]
  · rcases List.mem_append.mp hmem with hmem | hmem
    · exact hall message hmem
    · exact hall' message hmem

/-- One more message. -/
theorem Framed.put {w : Writer} {type : Byte} {payload : List Byte}
    (h : Framed buffer pos Right s.sent) (hw : Writes w (frame type payload))
    (hlength : payload.length < 2 ^ 16)
    (hright : ∀ st ∈ statusOf (type, payload), Right st payload) :
    Framed buffer pos Right (s.put pos w).sent := by
  refine h.append ⟨[(type, payload)], ?_, fun message hmem => ?_⟩
  · rw [frames_singleton]
    exact hw _ _
  · cases List.mem_singleton.mp hmem
    exact ⟨hlength, hright⟩

theorem Framed.put_status {questID : Int} {i : Fin MAXOBJECTIVES} {complete : Bool} {text : String}
    (h : Framed buffer pos Right s.sent) (hshort : text.length < 255)
    (hright : Right ⟨.ofInt 32 questID, i, if complete then 1 else 0⟩
      (statusPayload questID i complete text)) :
    Framed buffer pos Right
      (s.put pos (prepExt_QuestStatusMessage questID i complete text)).sent := by
  have hlength : (statusPayload questID i complete text).length < 2 ^ 16 := by
    rw [length_statusPayload questID i complete hshort]
    omega
  have hstatus := statusOf_statusPayload questID i complete text []
  rw [List.append_nil] at hstatus
  refine h.put (writes_messageWriter 7 (writes_statusParts questID i complete hshort) hlength)
    hlength fun st hst => ?_
  cases hstatus.symm.trans hst
  exact hright

/-- The writer writes one message, which is not about a status. -/
def Quiet (w : Writer) : Prop :=
  ∃ type payload, Writes w (frame type payload) ∧ payload.length < 2 ^ 16 ∧
    statusOf (type, payload) = none

theorem quiet_messageWriter {type : BitVec 32} {parts : List Writer} {payload : List Byte}
    (hparts : Writes (puts parts) payload) (hlength : payload.length < 2 ^ 16)
    (hnone : statusOf (BitVec.ofNat 8 type.toNat, payload) = none) :
    Quiet (messageWriter type parts) :=
  ⟨_, payload, writes_messageWriter type hparts hlength, hlength, hnone⟩

theorem Framed.put_quiet {w : Writer} (h : Framed buffer pos Right s.sent) (hw : Quiet w) :
    Framed buffer pos Right (s.put pos w).sent := by
  obtain ⟨type, payload, hwrites, hlength, hnone⟩ := hw
  refine h.put hwrites hlength fun st hst => ?_
  cases hnone.symm.trans hst

theorem quiet_info {text : String} (hshort : text.length < 255) :
    Quiet (prepExt_SendInfoMessage text INFOMSG_INFO) := by
  have hparts := (writes_textWriter hshort).puts_cons
    ((writes_byteWriter INFOMSG_INFO).puts_cons Writes.puts_nil)
  refine quiet_messageWriter hparts ?_ ?_
  · simp [length_textPayload hshort]
    omega
  · unfold statusOf
    split
    · have htype : BitVec.ofNat 8 (0 : BitVec 32).toNat ≠ 7 := by decide
      exact if_neg fun hboth => htype hboth.1
    · rfl

theorem quiet_completeQuest (qd : QuestDefinition) : Quiet (completeQuest qd) :=
  quiet_messageWriter ((writes_integerWriter qd.questID).puts_cons
    ((writes_byteWriter EVENTMSG_QUESTCOMPLETED).puts_cons Writes.puts_nil)) (by simp) rfl

theorem quiet_questJournal (cid : Int) (qd : QuestDefinition) : Quiet (questJournal cid qd) :=
  quiet_messageWriter ((writes_integerWriter qd.questID).puts_cons
    ((writes_byteWriter EVENTMSG_JOURNAL).puts_cons
      ((writes_integerWriter cid).puts_cons Writes.puts_nil))) (by simp) rfl

theorem quiet_actCompleted (qr : QuestReference) : Quiet (actCompleted qr) :=
  quiet_messageWriter ((writes_integerWriter qr.questID).puts_cons
    ((writes_byteWriter EVENTMSG_ACTCOMPLETED).puts_cons
      ((writes_integerWriter qr.curAct).puts_cons Writes.puts_nil))) (by simp) rfl

/-- The act may advance. -/
theorem Framed.advance (h : Framed buffer pos Right s.sent) (qd : QuestDefinition) (p : Prop)
    [Decidable p] : Framed buffer pos Right (if p then s.advanceAct pos qd else s).sent := by
  split
  · exact h.put_quiet (quiet_actCompleted s.qr)
  · exact h

/-- A message about each of the other objectives. -/
theorem Framed.completeOthers {questID : Int} {text : String} (hshort : text.length < 255)
    {message : Fin MAXOBJECTIVES → Sending → Sending}
    (hmessage : ∀ i (s : Sending), s.qr.objComplete i = true →
      message i s = s.put pos (prepExt_QuestStatusMessage questID i true text))
    {obj : Fin MAXOBJECTIVES} {others : List (Fin MAXOBJECTIVES)}
    (h : Framed buffer pos Right s.sent)
    (hright : ∀ i ∈ others, i ≠ obj → s.qr.objComplete i = false →
      Right ⟨.ofInt 32 questID, i, 1⟩ (statusPayload questID i true text)) :
    Framed buffer pos Right (s.completeOthers message obj others).sent := by
  induction others generalizing s with
  | nil => exact h
  | cons i rest ih =>
      rw [Sending.completeOthers]
      by_cases hi : i ≠ obj ∧ s.qr.objComplete i = false
      · have hset : (s.qr.markComplete i).objComplete i = true := Function.update_self _ _ _
        have hmark := hright i List.mem_cons_self hi.1 hi.2
        rw [if_pos hi, hmessage i { s with qr := s.qr.markComplete i } hset]
        refine ih (Framed.put_status (s := { s with qr := s.qr.markComplete i }) h hshort hmark)
          fun j hj hobj hopen => hright j (List.mem_cons_of_mem _ hj) hobj ?_
        have hji : j ≠ i := by
          rintro rfl
          cases hset.symm.trans hopen
        exact (Function.update_of_ne hji _ _).symm.trans hopen
      · rw [if_neg hi]
        exact ih h fun j hj => hright j (List.mem_cons_of_mem _ hj)

theorem Framed.applyOutcome {questID : Int} {text : String} (hshort : text.length < 255)
    {message : Fin MAXOBJECTIVES → Sending → Sending}
    (hmessage : ∀ i (s : Sending), s.qr.objComplete i = true →
      message i s = s.put pos (prepExt_QuestStatusMessage questID i true text))
    {bound : ℕ} {qo : QuestObjective} {obj : Fin MAXOBJECTIVES}
    (h : Framed buffer pos Right s.sent)
    (hright : -1 < qo.outcome → ∀ i : Fin MAXOBJECTIVES, i ≠ obj → i.val < bound →
      s.qr.objComplete i = false →
        Right ⟨.ofInt 32 questID, i, 1⟩ (statusPayload questID i true text)) :
    Framed buffer pos Right (s.applyOutcome message bound qo obj).sent := by
  unfold Sending.applyOutcome
  split
  · rename_i hout
    exact h.completeOthers hshort hmessage fun i hi hobj hopen =>
      hright hout i hobj (mem_take_finRange.mp hi) hopen
  · exact h

end Framed

/-! ### What is marked is named -/

section Names

variable {qr : QuestReference} {obj i : Fin MAXOBJECTIVES} {bound : ℕ} {qo : QuestObjective}

theorem objComplete_applyOutcome_of_lt (hout : -1 < qo.outcome) (hi : i ≠ obj)
    (hlt : i.val < bound) : (qr.applyOutcome bound qo obj).objComplete i = true := by
  unfold QuestReference.applyOutcome
  rw [if_pos hout]
  exact if_pos ⟨hi, hlt⟩

theorem objComplete_applyOutcome_self :
    (qr.applyOutcome bound qo obj).objComplete obj = qr.objComplete obj := by
  unfold QuestReference.applyOutcome
  split
  · exact if_neg fun h => h.1 rfl
  · rfl

theorem objComplete_countObjective_of_ne {act : QuestAct} (hi : i ≠ obj) :
    (qr.countObjective act obj).objComplete i = qr.objComplete i := by
  unfold QuestReference.countObjective
  dsimp only
  split
  · exact Function.update_of_ne hi _ _
  · rfl

/-- The objective that the event is about, with the flag that it has after its count. -/
theorem names_self {before counted : QuestReference} :
    Marking.Names ⟨before, counted.applyOutcome bound qo obj, obj⟩
      ⟨.ofInt 32 before.questID, obj, if counted.objComplete obj then 1 else 0⟩ :=
  ⟨rfl, obj, rfl, .inl rfl, by rw [objComplete_applyOutcome_self]⟩

/-- Another objective of the act. -/
theorem names_other {before counted : QuestReference} (hout : -1 < qo.outcome) (hi : i ≠ obj)
    (hlt : i.val < bound) (hopen : before.objComplete i = false) :
    Marking.Names ⟨before, counted.applyOutcome bound qo obj, obj⟩
      ⟨.ofInt 32 before.questID, i, 1⟩ := by
  have hset := @objComplete_applyOutcome_of_lt counted obj i bound qo hout hi hlt
  exact ⟨rfl, i, rfl, .inr ⟨hopen, hset⟩, by rw [hset]; rfl⟩

end Names

end Iceee.Quest
