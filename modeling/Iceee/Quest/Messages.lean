import Iceee.Lib.Frames
import Iceee.Lib.Text
import Iceee.Packet.ByteBuffer
import Iceee.Quest.Progress

/-!
# Messages about quests

The four functions that bring an event to the active quests also fill a buffer with messages for
the client. A message is written with no length, which is put in its place when the message is at
its end. `CheckQuestTalk` puts the lengths of all status messages into the first one.

## Implementation notes

The characters of a text are one byte each. Positions are those of the buffer that a function is
called with. The calls of quest scripts are left out.

## Main results

* `fst_sendEvent`: the quests are those of `questStep`.
-/

namespace Iceee.Quest

open Lib Packet

/-! ### Single messages -/

/-- The bytes of a text. -/
def textBytes (text : String) : List Byte := text.toList.map fun c => BitVec.ofNat 8 c.toNat

def EVENTMSG_STATUS : BitVec 32 := 0
def EVENTMSG_ACTCOMPLETED : BitVec 32 := 1
def EVENTMSG_QUESTCOMPLETED : BitVec 32 := 2
def EVENTMSG_JOURNAL : BitVec 32 := 3

/-- `INFOMSG_INFO`. -/
def INFOMSG_INFO : BitVec 32 := 0

def byteWriter (val : BitVec 32) : Writer := fun buffer pos => putByte buffer pos val

def shortWriter (val : BitVec 32) : Writer := fun buffer pos => putShort buffer pos val

def integerWriter (val : Int) : Writer := fun buffer pos => putInteger buffer pos (.ofInt 32 val)

def textWriter (text : String) : Writer := fun buffer pos =>
  putStringUTF buffer pos (textBytes text)

/-- `PutShort(&buffer[i], size)`. -/
def setSize (buffer : Memory) (pos i size : ℕ) : Memory :=
  (putShort buffer (pos + i) (BitVec.ofNat 32 size)).1

/-- A type and no length yet, the other parts of the message, then the length. -/
def messageWriter (type : BitVec 32) (parts : List Writer) : Writer := fun buffer pos =>
  let (buffer, wpos) := puts (byteWriter type :: shortWriter 0 :: parts) buffer pos
  (setSize buffer pos 1 (wpos - 3), wpos)

/-- The parts of a status message. -/
def statusParts (questID : Int) (objectiveIndex : Fin MAXOBJECTIVES) (complete : Bool)
    (message : String) : List Writer :=
  [integerWriter questID, byteWriter EVENTMSG_STATUS, byteWriter (.ofNat 32 objectiveIndex),
    byteWriter (if complete then 1 else 0), textWriter message]

/-- `PrepExt_QuestStatusMessage`. -/
def prepExt_QuestStatusMessage (questID : Int) (objectiveIndex : Fin MAXOBJECTIVES)
    (complete : Bool) (message : String) : Writer :=
  messageWriter 7 (statusParts questID objectiveIndex complete message)

/-- `PrepExt_SendInfoMessage`. -/
def prepExt_SendInfoMessage (message : String) (eventID : BitVec 32) : Writer :=
  messageWriter 0 [textWriter message, byteWriter eventID]

/-- `QuestReference::QuestJournal`. -/
def questJournal (cid : Int) (qdef : QuestDefinition) : Writer :=
  messageWriter 7 [integerWriter qdef.questID, byteWriter EVENTMSG_JOURNAL, integerWriter cid]

/-- `QuestReference::CompleteQuest`. -/
def completeQuest (qdef : QuestDefinition) : Writer :=
  messageWriter 7 [integerWriter qdef.questID, byteWriter EVENTMSG_QUESTCOMPLETED]

/-- The message of `AdvanceAct`. -/
def actCompleted (qr : QuestReference) : Writer :=
  messageWriter 7
    [integerWriter qr.questID, byteWriter EVENTMSG_ACTCOMPLETED, integerWriter qr.curAct]

/-! ### A quest and its part of the buffer -/

/-- A quest, the buffer, and how much of it the quest has filled. -/
structure Sending where
  qr : QuestReference
  buffer : Memory
  wpos : ℕ := 0

namespace Sending

/-- `wpos += Put(&buffer[wpos])`. -/
def put (s : Sending) (pos : ℕ) (w : Writer) : Sending :=
  let (buffer, n) := w s.buffer (pos + s.wpos)
  { s with buffer, wpos := s.wpos + n }

/-- `PutShort(&buffer[i], size)`. -/
def setSize (s : Sending) (pos i size : ℕ) : Sending :=
  { s with buffer := Quest.setSize s.buffer pos i size }

/-- A status message without its length. -/
def putStatus (s : Sending) (pos : ℕ) (questID : Int) (objectiveIndex : Fin MAXOBJECTIVES)
    (complete : Bool) (message : String) : Sending :=
  s.put pos <| puts <|
    byteWriter 7 :: shortWriter 0 :: statusParts questID objectiveIndex complete message

/-- A status message that gets its own length. -/
def putSized (pos : ℕ) (questID : Int) (i : Fin MAXOBJECTIVES) (s : Sending) : Sending :=
  let tsize := s.wpos
  let s := s.putStatus pos questID i (s.qr.objComplete i) ""
  s.setSize pos (tsize + 1) (s.wpos - tsize - 3)

/-- A status message whose length is counted in that of the first one. -/
def putUnsized (pos : ℕ) (questID : Int) (i : Fin MAXOBJECTIVES) (s : Sending) : Sending :=
  let s := s.putStatus pos questID i (s.qr.objComplete i) ""
  s.setSize pos 1 (s.wpos - 3)

/-- A status message by `PrepExt_QuestStatusMessage`. -/
def putPrepared (pos : ℕ) (questID : Int) (i : Fin MAXOBJECTIVES) (s : Sending) : Sending :=
  s.put pos (prepExt_QuestStatusMessage questID i true "Complete")

/-- The loop that completes the other objectives, with a message about each. -/
def completeOthers (message : Fin MAXOBJECTIVES → Sending → Sending) (obj : Fin MAXOBJECTIVES) :
    List (Fin MAXOBJECTIVES) → Sending → Sending
  | [], s => s
  | i :: rest, s =>
      completeOthers message obj rest <|
        if i ≠ obj ∧ s.qr.objComplete i = false then
          message i { s with qr := s.qr.markComplete i }
        else s

/-- An objective with an outcome completes the other ones whose index is below `bound`. -/
def applyOutcome (message : Fin MAXOBJECTIVES → Sending → Sending) (bound : ℕ)
    (qo : QuestObjective) (obj : Fin MAXOBJECTIVES) (s : Sending) : Sending :=
  if -1 < qo.outcome then
    let s := s.completeOthers message obj ((List.finRange MAXOBJECTIVES).take bound)
    { s with qr := { s.qr with outcome := qo.outcome } }
  else s

/-- `AdvanceAct`. -/
def advanceAct (s : Sending) (pos : ℕ) (qd : QuestDefinition) : Sending :=
  let s := s.put pos (actCompleted s.qr)
  { s with qr := s.qr.advanceAct qd }

end Sending

/-! ### The functions -/

section Functions

variable (qr : QuestReference) (qd : QuestDefinition) (buffer : Memory) (pos : ℕ)

/-- `"%d of %d"`. -/
def countText (counter data2 : Int) : String :=
  String.ofList (printInt counter ++ " of ".toList ++ printInt data2)

/-- `QuestReference::CheckQuestObjective`. -/
def sendQuestObjective (cid : Int) (type : ObjectiveType) (targetCDefID : Int) : Sending :=
  match qd.getAct qr.curAct with
  | none => { qr, buffer }
  | some act =>
      match act.getObjective type targetCDefID with
      | none => { qr, buffer }
      | some obj =>
          if qr.objComplete obj then { qr, buffer }
          else
            let qo := act.objective obj
            let qr := qr.countObjective act obj
            let writeStr :=
              if qo.data2 ≤ qr.objCounter obj then "Complete"
              else countText (qr.objCounter obj) qo.data2
            let s : Sending := { qr, buffer }
            let s := s.putStatus pos qr.questID obj (qr.objComplete obj) writeStr
            let s := s.setSize pos 1 (s.wpos - 3)
            let s := s.applyOutcome (Sending.putSized pos qr.questID) 3 qo obj
            if s.qr.objComplete obj ∧ s.qr.checkCompletedAct act then
              if s.qr.curAct < qd.actCount - 1 then s.advanceAct pos qd
              else (s.put pos (completeQuest qd)).put pos (questJournal cid qd)
            else s

/-- One turn of the loop of `CheckTravelLocations`. -/
def sendTravelLocation (l : Location) : Option Sending :=
  match qd.getAct qr.curAct with
  | none => none
  | some act =>
      match qr.travelLoop act l (List.finRange MAXOBJECTIVES) with
      | none => some { qr, buffer }
      | some r =>
          let qo := act.objective r
          let s : Sending := { qr := qr.markDone r, buffer }
          let s := s.put pos (prepExt_QuestStatusMessage qd.questID r true "Complete")
          let s := s.applyOutcome (Sending.putPrepared pos qd.questID) MAXOBJECTIVES qo r
          let resPtr :=
            if qo.activateText ≠ "" then qo.activateText
            else "Objective complete: " ++ qo.description
          let s := s.put pos (prepExt_SendInfoMessage resPtr INFOMSG_INFO)
          some (if s.qr.checkCompletedAct act then s.advanceAct pos qd else s)

/-- `CheckQuestTalk` for the quest that was found. -/
def sendQuestTalk (creatureDefID creatureInstID : Int) : Option Sending :=
  match qd.getAct qr.curAct with
  | none => none
  | some act =>
      match (List.finRange MAXOBJECTIVES).find? fun a =>
        (act.objective a).type = .talk ∧ (act.objective a).myCreatureDefID = creatureDefID with
      | none => some { qr, buffer }
      | some objective =>
          let qo := act.objective objective
          let s : Sending := { qr := qr.markDone objective, buffer }
          let s := s.putStatus pos qd.questID objective true "Complete"
          let s := s.setSize pos 1 (s.wpos - 3)
          let s := s.applyOutcome (Sending.putUnsized pos qd.questID) MAXOBJECTIVES qo objective
          let s :=
            if s.qr.curAct = qd.actCount - 1 ∧ s.qr.checkCompletedAct act then
              (s.put pos (completeQuest qd)).put pos (questJournal creatureInstID qd)
            else s.advanceAct pos qd
          some (if qd.actCount - 1 < s.qr.curAct then
            { s with qr := { s.qr with curAct := wrap16 (qd.actCount - 1) } }
          else s)

/-- The loop of `FilterEmote` over the objectives. -/
def sendEmoteLoop (act : QuestAct) (e : Emote) :
    List (Fin MAXOBJECTIVES) → Sending → Option Sending
  | [], s => some s
  | obj :: rest, s =>
      if (act.objective obj).answers e then
        let s := { s with qr := s.qr.markDone obj }
        let s := s.put pos (prepExt_QuestStatusMessage qd.questID obj true "Complete")
        match qd.getAct s.qr.curAct with
        | none => none
        | some cur =>
            let s := s.applyOutcome (Sending.putPrepared pos qd.questID) MAXOBJECTIVES
              (cur.objective obj) obj
            let resultText := "Objective complete: " ++ (act.objective obj).description
            let s := s.put pos (prepExt_SendInfoMessage resultText INFOMSG_INFO)
            sendEmoteLoop act e rest (if s.qr.checkCompletedAct act then s.advanceAct pos qd else s)
      else sendEmoteLoop act e rest s

/-- One turn of the outer loop of `FilterEmote`. -/
def sendEmote (e : Emote) : Option Sending :=
  match qd.getAct qr.curAct with
  | none => some { qr, buffer }
  | some act => sendEmoteLoop qd pos act e (List.finRange MAXOBJECTIVES) { qr, buffer }

end Functions

/-! ### The active quests -/

section Quests

variable (defs : QuestDefinitionContainer)

/-- `CheckQuestTalk`. -/
def sendTalk (creatureDefID creatureInstID : Int) (buffer : Memory) (pos : ℕ) :
    List QuestReference → Option (List QuestReference × Memory × ℕ)
  | [] => some ([], buffer, 0)
  | qr :: rest =>
      let skip := (sendTalk creatureDefID creatureInstID buffer pos rest).map fun r =>
        (qr :: r.1, r.2)
      match defs.getQuestDefPtrByID qr.questID with
      | none => skip
      | some qd =>
          match qr.hasCreatureReturn qd creatureDefID with
          | none => none
          | some false => skip
          | some true => (sendQuestTalk qr qd buffer pos creatureDefID creatureInstID).map fun s =>
              (s.qr :: rest, s.buffer, s.wpos)

/-- Every active quest whose definition is known, one behind the other in the buffer. -/
def sendEach (f : QuestReference → QuestDefinition → Memory → ℕ → Option Sending)
    (buffer : Memory) (pos : ℕ) : List QuestReference → Option (List QuestReference × Memory × ℕ)
  | [] => some ([], buffer, 0)
  | qr :: rest =>
      match defs.getQuestDefPtrByID qr.questID with
      | none => (sendEach f buffer pos rest).map fun r => (qr :: r.1, r.2)
      | some qd =>
          (f qr qd buffer pos).bind fun s =>
            (sendEach f s.buffer (pos + s.wpos) rest).map fun r =>
              (s.qr :: r.1, r.2.1, s.wpos + r.2.2)

/-- One event for the active quests of a player: the quests, the buffer, and the number of bytes
that were written into it. `cid` is the player, or the creature that is talked to. -/
def sendEvent (cid : Int) (buffer : Memory) (pos : ℕ) (activeQuests : List QuestReference) :
    QuestEvent → Option (List QuestReference × Memory × ℕ)
  | .objective type targetCDefID =>
      sendEach defs (fun qr qd buffer pos =>
        some (if qr.complete then { qr, buffer }
          else sendQuestObjective qr qd buffer pos cid type targetCDefID)) buffer pos activeQuests
  | .travel l =>
      sendEach defs (fun qr qd buffer pos => sendTravelLocation qr qd buffer pos l) buffer pos
        activeQuests
  | .talk creatureDefID => sendTalk defs creatureDefID cid buffer pos activeQuests
  | .emote e =>
      sendEach defs (fun qr qd buffer pos => sendEmote qr qd buffer pos e) buffer pos activeQuests

end Quests

/-! ### The quests are those of the model without messages -/

section State

theorem mem_take_finRange {n bound : ℕ} {i : Fin n} :
    i ∈ (List.finRange n).take bound ↔ i.val < bound := by
  rw [List.mem_take_iff_getElem]
  constructor
  · rintro ⟨k, hk, rfl⟩
    simpa using (lt_min_iff.mp hk).1
  · intro hi
    exact ⟨i, lt_min hi (by simp), by simp⟩

namespace Sending

variable {message : Fin MAXOBJECTIVES → Sending → Sending} {obj : Fin MAXOBJECTIVES}

@[simp] theorem qr_put (s : Sending) (pos : ℕ) (w : Writer) : (s.put pos w).qr = s.qr := rfl

@[simp] theorem qr_setSize (s : Sending) (pos i size : ℕ) : (s.setSize pos i size).qr = s.qr := rfl

@[simp] theorem qr_putStatus (s : Sending) (pos : ℕ) (questID : Int) (i : Fin MAXOBJECTIVES)
    (complete : Bool) (text : String) :
    (s.putStatus pos questID i complete text).qr = s.qr := rfl

@[simp] theorem qr_advanceAct (s : Sending) (pos : ℕ) (qd : QuestDefinition) :
    (s.advanceAct pos qd).qr = s.qr.advanceAct qd := rfl

theorem qr_completeOthers (hmessage : ∀ i s, (message i s).qr = s.qr)
    (others : List (Fin MAXOBJECTIVES)) (s : Sending) :
    (s.completeOthers message obj others).qr =
      { s.qr with objComplete := fun i =>
          if i ≠ obj ∧ i ∈ others then true else s.qr.objComplete i } := by
  induction others generalizing s with
  | nil => simp [completeOthers]
  | cons j rest ih =>
      rw [completeOthers, ih]
      by_cases hj : j ≠ obj ∧ s.qr.objComplete j = false
      · rw [if_pos hj, hmessage]
        simp only [QuestReference.markComplete, QuestReference.mk.injEq, true_and, and_true]
        funext i
        by_cases hij : i = j
        · subst hij
          simp [hj.1]
        · simp [hij]
      · rw [if_neg hj]
        simp only [QuestReference.mk.injEq, true_and, and_true]
        funext i
        by_cases hij : i = j
        · subst hij
          by_cases hobj : i = obj
          · simp [hobj]
          · have hset : s.qr.objComplete i = true := eq_true_of_ne_false fun h => hj ⟨hobj, h⟩
            simp [hset]
        · simp [hij]

theorem qr_applyOutcome (hmessage : ∀ i s, (message i s).qr = s.qr) (bound : ℕ)
    (qo : QuestObjective) (s : Sending) :
    (s.applyOutcome message bound qo obj).qr = s.qr.applyOutcome bound qo obj := by
  unfold applyOutcome QuestReference.applyOutcome
  split
  · have hqr := @qr_completeOthers message obj hmessage
      ((List.finRange MAXOBJECTIVES).take bound) s
    simp only [hqr, mem_take_finRange]
  · rfl

end Sending

variable {qr : QuestReference} {qd : QuestDefinition} {buffer : Memory} {pos : ℕ}

theorem qr_sendQuestObjective (cid : Int) (type : ObjectiveType) (targetCDefID : Int) :
    (sendQuestObjective qr qd buffer pos cid type targetCDefID).qr =
      qr.checkQuestObjective qd type targetCDefID := by
  unfold sendQuestObjective QuestReference.checkQuestObjective
  cases qd.getAct qr.curAct with
  | none => rfl
  | some act =>
      dsimp only
      cases act.getObjective type targetCDefID with
      | none => rfl
      | some obj =>
          dsimp only
          by_cases hdone : qr.objComplete obj
          · rw [if_pos hdone, if_pos hdone]
          · rw [if_neg hdone, if_neg hdone]
            have hqr := @Sending.qr_applyOutcome
              (Sending.putSized pos (qr.countObjective act obj).questID) obj (fun _ _ => rfl) 3
              (act.objective obj)
            simp only [apply_ite Sending.qr, Sending.qr_advanceAct, Sending.qr_put, hqr,
              Sending.qr_setSize, Sending.qr_putStatus, ite_and]

theorem qr_sendTravelLocation (l : Location) :
    (sendTravelLocation qr qd buffer pos l).map Sending.qr = qr.checkTravelLocation qd l := by
  unfold sendTravelLocation QuestReference.checkTravelLocation
  cases qd.getAct qr.curAct with
  | none => rfl
  | some act =>
      dsimp only
      cases qr.travelLoop act l (List.finRange MAXOBJECTIVES) with
      | none => rfl
      | some r =>
          have hqr := @Sending.qr_applyOutcome (Sending.putPrepared pos qd.questID) r
            (fun _ _ => rfl) MAXOBJECTIVES (act.objective r)
          simp only [Option.map_some, hqr, Sending.qr_put]
          split_ifs <;> simp [hqr]

theorem qr_sendQuestTalk (creatureDefID creatureInstID : Int) :
    (sendQuestTalk qr qd buffer pos creatureDefID creatureInstID).map Sending.qr =
      qr.checkQuestTalk qd creatureDefID := by
  unfold sendQuestTalk QuestReference.checkQuestTalk
  cases qd.getAct qr.curAct with
  | none => rfl
  | some act =>
      dsimp only
      cases (List.finRange MAXOBJECTIVES).find? fun a =>
        (act.objective a).type = .talk ∧ (act.objective a).myCreatureDefID = creatureDefID with
      | none => rfl
      | some objective =>
          have hqr := @Sending.qr_applyOutcome (Sending.putUnsized pos qd.questID) objective
            (fun _ _ => rfl) MAXOBJECTIVES (act.objective objective)
          simp only [Option.map_some, hqr, Sending.qr_setSize, Sending.qr_putStatus]
          split_ifs <;> simp_all

theorem qr_sendEmoteLoop (act : QuestAct) (e : Emote) (objectives : List (Fin MAXOBJECTIVES))
    (s : Sending) :
    (sendEmoteLoop qd pos act e objectives s).map Sending.qr =
      QuestReference.emoteLoop qd act e objectives s.qr := by
  induction objectives generalizing s with
  | nil => rfl
  | cons obj rest ih =>
      unfold sendEmoteLoop QuestReference.emoteLoop
      by_cases hanswers : (act.objective obj).answers e
      · rw [if_pos hanswers, if_pos hanswers]
        simp only [Sending.qr_put]
        cases qd.getAct (s.qr.markDone obj).curAct with
        | none => rfl
        | some cur =>
            have hqr := @Sending.qr_applyOutcome (Sending.putPrepared pos qd.questID) obj
              (fun _ _ => rfl) MAXOBJECTIVES (cur.objective obj)
            simp only [ih, apply_ite Sending.qr, Sending.qr_advanceAct, Sending.qr_put, hqr]
      · rw [if_neg hanswers, if_neg hanswers, ih]

theorem qr_sendEmote (e : Emote) :
    (sendEmote qr qd buffer pos e).map Sending.qr = qr.filterEmote qd e := by
  unfold sendEmote QuestReference.filterEmote
  cases qd.getAct qr.curAct with
  | none => rfl
  | some act => exact qr_sendEmoteLoop act e _ _

variable {defs : QuestDefinitionContainer}

theorem fst_sendTalk (creatureDefID creatureInstID : Int) (activeQuests : List QuestReference) :
    (sendTalk defs creatureDefID creatureInstID buffer pos activeQuests).map Prod.fst =
      talkLoop defs creatureDefID activeQuests := by
  induction activeQuests with
  | nil => rfl
  | cons qr rest ih =>
      have hskip : ((sendTalk defs creatureDefID creatureInstID buffer pos rest).map fun r =>
          (qr :: r.1, r.2)).map Prod.fst =
          (talkLoop defs creatureDefID rest).map (qr :: ·) := by
        rw [← ih, Option.map_map, Option.map_map]
        rfl
      unfold sendTalk talkLoop
      cases defs.getQuestDefPtrByID qr.questID with
      | none => exact hskip
      | some qd =>
          dsimp only
          cases qr.hasCreatureReturn qd creatureDefID with
          | none => rfl
          | some found =>
              cases found with
              | false => exact hskip
              | true =>
                  dsimp only
                  rw [← @qr_sendQuestTalk qr qd buffer pos creatureDefID creatureInstID,
                    Option.map_map, Option.map_map]
                  rfl

theorem fst_sendEach {f : QuestReference → QuestDefinition → Memory → ℕ → Option Sending}
    {g : QuestReference → QuestDefinition → Option QuestReference}
    (hf : ∀ qr qd buffer pos, (f qr qd buffer pos).map Sending.qr = g qr qd)
    (activeQuests : List QuestReference) :
    (sendEach defs f buffer pos activeQuests).map Prod.fst = eachQuest defs g activeQuests := by
  induction activeQuests generalizing buffer pos with
  | nil => rfl
  | cons qr rest ih =>
      unfold sendEach eachQuest
      cases defs.getQuestDefPtrByID qr.questID with
      | none =>
          dsimp only
          rw [← @ih buffer pos, Option.map_map, Option.map_map]
          rfl
      | some qd =>
          dsimp only
          rw [← hf qr qd buffer pos]
          cases f qr qd buffer pos with
          | none => rfl
          | some s =>
              simp only [Option.bind_some, Option.map_some]
              rw [← @ih s.buffer (pos + s.wpos), Option.map_map, Option.map_map]
              rfl

/-- The quests after an event are those of the model without messages. -/
theorem fst_sendEvent (cid : Int) (activeQuests : List QuestReference) (event : QuestEvent) :
    (sendEvent defs cid buffer pos activeQuests event).map Prod.fst =
      questStep defs activeQuests event := by
  cases event with
  | objective type targetCDefID =>
      refine fst_sendEach (fun qr qd buffer pos => ?_) activeQuests
      rw [Option.map_some, apply_ite Sending.qr, qr_sendQuestObjective]
  | travel l =>
      refine fst_sendEach (fun qr qd buffer pos => ?_) activeQuests
      exact qr_sendTravelLocation l
  | talk creatureDefID => exact fst_sendTalk creatureDefID cid activeQuests
  | emote e =>
      refine fst_sendEach (fun qr qd buffer pos => ?_) activeQuests
      exact qr_sendEmote e

end State

end Iceee.Quest
