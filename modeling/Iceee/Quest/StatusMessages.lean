import Iceee.Quest.Framing

/-!
# Status messages of an event

The bytes of every event are whole messages, and the status messages among them name what the event
marks. A talk that completes other objectives puts the messages about these into the payload of the
first one, which is then more than a status message.

## Main result

* `quest_framing_iff`: the events whose status messages are nothing else.
-/

namespace Iceee.Quest

open Lib Packet

/-! ### The functions -/

/-- What may be named by the messages of an event is right, in a message of its own. -/
def Allowed (markings : List Marking) (Right : Status → List Byte → Prop) : Prop :=
  ∀ mk ∈ markings, ∀ st, mk.Names st → ∀ text, text.length < 255 → Right st (st.payload text)

section Functions

variable {qr : QuestReference} {qd : QuestDefinition} {buffer : Memory} {pos : ℕ}
  {Right : Status → List Byte → Prop}

/-- A message whose length is put where it starts is one message more. -/
theorem setSize_putStatus (s : Sending) (questID : Int) (i : Fin MAXOBJECTIVES) (complete : Bool)
    (text : String) :
    (s.putStatus pos questID i complete text).setSize pos (s.wpos + 1)
        ((s.putStatus pos questID i complete text).wpos - s.wpos - 3) =
      s.put pos (prepExt_QuestStatusMessage questID i complete text) := by
  have hplace : pos + (s.wpos + 1) = pos + s.wpos + 1 := (Nat.add_assoc _ _ _).symm
  simp only [Sending.setSize, Sending.putStatus, Sending.put, prepExt_QuestStatusMessage,
    messageWriter, setSize, Nat.add_sub_cancel_left, hplace]

theorem putSized_eq {s : Sending} {i : Fin MAXOBJECTIVES} (questID : Int)
    (hset : s.qr.objComplete i = true) :
    s.putSized pos questID i = s.put pos (prepExt_QuestStatusMessage questID i true "") := by
  rw [Sending.putSized, hset]
  exact setSize_putStatus s questID i true ""

theorem framed_start : Framed buffer pos Right (Sending.sent { qr, buffer }) := Framed.nil

theorem setSize_putStatus_first (questID : Int) (i : Fin MAXOBJECTIVES) (complete : Bool)
    (text : String) :
    (Sending.putStatus { qr, buffer } pos questID i complete text).setSize pos 1
        ((Sending.putStatus { qr, buffer } pos questID i complete text).wpos - 3) =
      Sending.put { qr, buffer } pos (prepExt_QuestStatusMessage questID i complete text) :=
  setSize_putStatus { qr, buffer } questID i complete text

theorem mem_of_getAct {curAct : Int} {act : QuestAct} (h : qd.getAct curAct = some act) :
    act ∈ qd.actList := by
  unfold QuestDefinition.getAct at h
  split at h
  · exact List.mem_of_getElem? h
  · cases h

theorem objCounter_countObjective (act : QuestAct) (obj : Fin MAXOBJECTIVES) :
    (qr.countObjective act obj).objCounter obj = wrap16 (qr.objCounter obj + 1) := by
  unfold QuestReference.countObjective
  dsimp only
  split <;> exact Function.update_self _ _ _

theorem wrap16_bounds (x : Int) : -2 ^ 31 ≤ wrap16 x ∧ wrap16 x < 2 ^ 31 := by
  have hlow : -((2 ^ 16 : ℕ) / 2 : Int) ≤ x.bmod (2 ^ 16) := Int.le_bmod (by decide)
  have hhigh : x.bmod (2 ^ 16) < ((2 ^ 16 : ℕ) + 1 : Int) / 2 := Int.bmod_lt (by decide)
  unfold wrap16
  omega

/-- The text of a status message of `CheckQuestObjective`. -/
theorem length_writeStr {act : QuestAct} (hshort : ShortTexts qd) (hmem : act ∈ qd.actList)
    (obj : Fin MAXOBJECTIVES) :
    (if (act.objective obj).data2 ≤ (qr.countObjective act obj).objCounter obj then "Complete"
      else countText ((qr.countObjective act obj).objCounter obj)
        (act.objective obj).data2).length < 255 := by
  split
  · decide
  · obtain ⟨hlow, hhigh⟩ := hshort.data2 act hmem obj
    rw [objCounter_countObjective]
    exact length_countText_lt (wrap16_bounds _).1 (wrap16_bounds _).2 hlow hhigh

theorem framed_sendQuestObjective (hshort : ShortTexts qd) (cid : Int) (type : ObjectiveType)
    (targetCDefID : Int)
    (hright : Allowed (qr.objectiveMarkings qd type targetCDefID) Right) :
    Framed buffer pos Right
      (sendQuestObjective qr qd buffer pos cid type targetCDefID).sent := by
  unfold QuestReference.objectiveMarkings at hright
  unfold sendQuestObjective
  cases hact : qd.getAct qr.curAct with
  | none => exact framed_start
  | some act =>
      rw [hact] at hright
      dsimp only at hright ⊢
      cases hobj : act.getObjective type targetCDefID with
      | none => exact framed_start
      | some obj =>
          rw [hobj] at hright
          dsimp only at hright ⊢
          by_cases hdone : qr.objComplete obj
          · rw [if_pos hdone]
            exact framed_start
          rw [if_neg hdone] at hright ⊢
          have hnames := hright _ (List.mem_singleton_self _)
          have htext := @length_writeStr qr qd act hshort (mem_of_getAct hact) obj
          have hid := questID_countObjective qr act obj
          have hcounted : ∀ {i}, i ≠ obj →
              (qr.countObjective act obj).objComplete i = qr.objComplete i :=
            objComplete_countObjective_of_ne
          rw [hid, setSize_putStatus_first]
          generalize qr.countObjective act obj = counted at *
          have hfirst : Framed buffer pos Right
              (Sending.put { qr := counted, buffer } pos (prepExt_QuestStatusMessage qr.questID obj
                (counted.objComplete obj) _)).sent :=
            framed_start.put_status htext (hnames _ names_self _ htext)
          have hall := @Framed.applyOutcome _ _ _ _ qr.questID "" (by decide)
            (Sending.putSized pos qr.questID) (fun i s => putSized_eq qr.questID) 3
            (act.objective obj) obj hfirst fun hout i hi hlt hopen =>
              hnames _ (names_other hout hi hlt (by rw [← hcounted hi]; exact hopen)) _ (by decide)
          revert hall
          generalize Sending.applyOutcome _ _ _ _ _ = s
          intro hall
          split_ifs
          · exact hall.put_quiet (quiet_actCompleted s.qr)
          · exact (hall.put_quiet (quiet_completeQuest qd)).put_quiet (quiet_questJournal cid qd)
          · exact hall

/-- The objectives that an objective with an outcome completes along with it. -/
theorem framed_doneOthers {obj : Fin MAXOBJECTIVES} {qo : QuestObjective} {s : Sending}
    (hqr : s.qr = qr.markDone obj) (hid : qr.questID = qd.questID)
    (h : Framed buffer pos Right s.sent)
    (hright : ∀ st, (qr.doneMarking qo obj).Names st →
      ∀ text, text.length < 255 → Right st (st.payload text)) :
    Framed buffer pos Right
      (s.applyOutcome (Sending.putPrepared pos qd.questID) MAXOBJECTIVES qo obj).sent := by
  refine @Framed.applyOutcome _ _ _ _ qd.questID "Complete" (by decide)
    (Sending.putPrepared pos qd.questID) (fun i s _ => rfl) MAXOBJECTIVES qo obj h
    fun hout i hi hlt hopen => ?_
  rw [← hid]
  refine hright _ (names_other hout hi hlt ?_) _ (by decide)
  have hkept : (qr.markDone obj).objComplete i = qr.objComplete i := Function.update_of_ne hi _ _
  rw [← hkept, ← hqr]
  exact hopen

/-- The status message about an objective that is done at once. -/
theorem framed_done {obj : Fin MAXOBJECTIVES} {qo : QuestObjective} {s : Sending}
    (hid : qr.questID = qd.questID) (h : Framed buffer pos Right s.sent)
    (hright : ∀ st, (qr.doneMarking qo obj).Names st →
      ∀ text, text.length < 255 → Right st (st.payload text)) :
    Framed buffer pos Right
      (s.put pos (prepExt_QuestStatusMessage qd.questID obj true "Complete")).sent := by
  have hset : (qr.markDone obj).objComplete obj = true := Function.update_self _ _ _
  have hself := @names_self obj MAXOBJECTIVES qo qr (qr.markDone obj)
  rw [hset] at hself
  rw [← hid]
  exact h.put_status (by decide) (hright _ hself _ (by decide))

theorem framed_sendTravelLocation (hshort : ShortTexts qd) (hid : qr.questID = qd.questID)
    {l : Location} {s : Sending} (hs : sendTravelLocation qr qd buffer pos l = some s)
    (hright : Allowed (qr.travelMarkings qd l) Right) :
    Framed buffer pos Right s.sent := by
  unfold QuestReference.travelMarkings at hright
  unfold sendTravelLocation at hs
  cases hact : qd.getAct qr.curAct with
  | none =>
      rw [hact] at hs
      cases hs
  | some act =>
      rw [hact] at hs hright
      dsimp only at hs hright
      cases hr : qr.travelLoop act l (List.finRange MAXOBJECTIVES) with
      | none =>
          rw [hr] at hs
          cases hs
          exact framed_start
      | some r =>
          rw [hr] at hs hright
          dsimp only at hs hright
          have hnames := hright _ (List.mem_singleton_self _)
          have hfirst := @framed_done qr qd buffer pos Right r (act.objective r)
            { qr := qr.markDone r, buffer } hid framed_start hnames
          have hothers := framed_doneOthers rfl hid hfirst hnames
          have htext : (if (act.objective r).activateText ≠ "" then (act.objective r).activateText
              else "Objective complete: " ++ (act.objective r).description).length < 255 := by
            split
            · exact hshort.activateText act (mem_of_getAct hact) r
            · exact hshort.description act (mem_of_getAct hact) r
          cases hs
          exact (hothers.put_quiet (quiet_info htext)).advance qd _

/-! ### Emotes -/

theorem questID_sent_advance {s : Sending} (p : Prop) [Decidable p] :
    (if p then s.advanceAct pos qd else s).qr.questID = s.qr.questID := by
  split
  · rw [Sending.qr_advanceAct]
    unfold QuestReference.advanceAct
    dsimp only
    split <;> rfl
  · rfl

theorem framed_sendEmoteLoop (hshort : ShortTexts qd) {act : QuestAct} (hmem : act ∈ qd.actList)
    {e : Emote} {objectives : List (Fin MAXOBJECTIVES)} {s s' : Sending}
    (hid : s.qr.questID = qd.questID)
    (hs : sendEmoteLoop qd pos act e objectives s = some s')
    (hright : Allowed (QuestReference.emoteMarkings qd act e objectives s.qr) Right)
    (h : Framed buffer pos Right s.sent) : Framed buffer pos Right s'.sent := by
  induction objectives generalizing s with
  | nil =>
      cases hs
      exact h
  | cons obj rest ih =>
      unfold sendEmoteLoop at hs
      unfold QuestReference.emoteMarkings at hright
      by_cases hanswers : (act.objective obj).answers e
      · rw [if_pos hanswers] at hs hright
        have hfirst := @framed_done s.qr qd buffer pos Right obj
        have hothers := @framed_doneOthers s.qr qd buffer pos Right obj
        simp only [Sending.qr_put, curAct_markDone] at hs
        cases hact : qd.getAct s.qr.curAct with
        | none =>
            rw [hact] at hs
            cases hs
        | some cur =>
            rw [hact] at hs hright
            dsimp only at hs hright
            have hnames := hright _ List.mem_cons_self
            have hdone :=
              @hfirst (cur.objective obj) { s with qr := s.qr.markDone obj } hid h hnames
            have hall := hothers rfl hid hdone hnames
            have hinfo := hall.put_quiet (quiet_info (hshort.description act hmem obj))
            have hqr := @Sending.qr_applyOutcome (Sending.putPrepared pos qd.questID) obj
              (fun _ _ => rfl) MAXOBJECTIVES (cur.objective obj)
            refine ih ((questID_sent_advance _).trans ?_) hs (fun mk hmk => ?_)
              (hinfo.advance qd _)
            · rw [Sending.qr_put, hqr, questID_applyOutcome]
              exact hid
            · simp only [apply_ite Sending.qr, Sending.qr_advanceAct, Sending.qr_put, hqr] at hmk
              exact hright mk (List.mem_cons_of_mem _ hmk)
      · rw [if_neg hanswers] at hs hright
        exact ih hid hs hright h

theorem framed_sendEmote (hshort : ShortTexts qd) (hid : qr.questID = qd.questID) {e : Emote}
    {s : Sending} (hs : sendEmote qr qd buffer pos e = some s)
    (hright : Allowed (questMarkings qr qd (.emote e)) Right) :
    Framed buffer pos Right s.sent := by
  unfold questMarkings at hright
  unfold sendEmote at hs
  cases hact : qd.getAct qr.curAct with
  | none =>
      rw [hact] at hs
      cases hs
      exact framed_start
  | some act =>
      rw [hact] at hs hright
      exact framed_sendEmoteLoop hshort (mem_of_getAct hact) hid hs hright framed_start

/-! ### Talks -/

/-- One message was put into the buffer, with a payload that starts with `first` and goes on with
`n` bytes. -/
def Swelled (buffer : Memory) (pos : ℕ) (first : List Byte) (n : ℕ) (s : Sending) : Prop :=
  ∃ extra, s.sent = (buffer.write pos (frame 7 (first ++ extra)), (first ++ extra).length + 3) ∧
    extra.length = n

section Swelled

variable {first : List Byte} {n : ℕ} {s : Sending}

/-- The first message, before others are added to it. -/
theorem Swelled.start {questID : Int} {i : Fin MAXOBJECTIVES} {complete : Bool} {text : String}
    (hshort : text.length < 255) :
    Swelled buffer pos (statusPayload questID i complete text) 0
      (Sending.put { qr, buffer } pos (prepExt_QuestStatusMessage questID i complete text)) := by
  have hlength : (statusPayload questID i complete text).length < 2 ^ 16 := by
    rw [length_statusPayload questID i complete hshort]
    omega
  have hwrites := writes_messageWriter 7 (writes_statusParts questID i complete hshort) hlength
    buffer pos
  have hput : prepExt_QuestStatusMessage questID i complete text buffer pos =
      (buffer.write pos (frame 7 (statusPayload questID i complete text)),
        (frame 7 (statusPayload questID i complete text)).length) := hwrites
  refine ⟨[], ?_, rfl⟩
  simp only [Sending.sent, Sending.put, Nat.add_zero, hput, Nat.zero_add, length_frame,
    List.append_nil]

/-- A status message is added to the payload of the first message. -/
theorem Swelled.putUnsized (h : Swelled buffer pos first n s)
    (hfits : first.length + n + 11 < 2 ^ 16) (questID : Int) (i : Fin MAXOBJECTIVES) :
    Swelled buffer pos first (n + 11) (s.putUnsized pos questID i) := by
  obtain ⟨extra, hs, hle⟩ := h
  -- the message that is added, with its header
  have hstatus := writes_statusParts questID i (s.qr.objComplete i)
    (show "".length < 255 by decide)
  have hlength := length_statusPayload questID i (s.qr.objComplete i)
    (show "".length < 255 by decide)
  generalize statusPayload questID i (s.qr.objComplete i) "" = payload at hstatus hlength
  have hadded := (writes_header 7 hstatus).after buffer pos (frame 7 (first ++ extra))
  have hpayload : payload.length = 8 := hlength
  generalize haddedBytes : BitVec.ofNat 8 (7 : BitVec 32).toNat :: (be 2 0 ++ payload) = added
    at hadded
  have hnew : added.length = 11 := by
    rw [← haddedBytes]
    simp [hpayload]
  obtain ⟨hbuffer, hwpos⟩ := Prod.mk.inj hs
  refine ⟨extra ++ added, ?_, ?_⟩
  · have hput : puts (byteWriter 7 :: shortWriter 0 ::
        statusParts questID i (s.qr.objComplete i) "") s.buffer (pos + s.wpos) =
        (buffer.write pos (frame 7 (first ++ extra) ++ added), added.length) := by
      rw [hbuffer, hwpos, ← @length_frame 7]
      exact hadded
    have hfits' : (first ++ extra ++ added).length < 2 ^ 16 := by
      simp only [List.length_append]
      omega
    have hsize := setSize_frame buffer pos (first ++ extra).length 7 hfits'
    have hframe : frame 7 (first ++ extra) ++ added =
        7 :: (be 2 (first ++ extra).length ++ (first ++ extra ++ added)) := by
      simp [frame]
    have hend : s.wpos + added.length - 3 = (first ++ extra ++ added).length := by
      rw [List.length_append, hwpos]
      omega
    have htotal : s.wpos + added.length = (first ++ extra ++ added).length + 3 := by
      rw [List.length_append, hwpos]
      omega
    calc (s.putUnsized pos questID i).sent
      _ = (setSize (buffer.write pos (frame 7 (first ++ extra) ++ added)) pos 1
            (s.wpos + added.length - 3), s.wpos + added.length) := by
          simp only [Sending.sent, Sending.putUnsized, Sending.setSize, Sending.putStatus,
            Sending.put, hput]
      _ = (buffer.write pos (frame 7 (first ++ extra ++ added)),
            (first ++ extra ++ added).length + 3) := by
          rw [hframe, hend, hsize, htotal]
      _ = _ := by rw [List.append_assoc]
  · rw [List.length_append, hnew, hle]

/-- The payload grows exactly where another objective is completed too. -/
theorem Swelled.completeOthers {obj : Fin MAXOBJECTIVES} {others : List (Fin MAXOBJECTIVES)}
    {questID : Int} (h : Swelled buffer pos first n s)
    (hfits : first.length + n + 11 * others.length < 2 ^ 16) :
    ∃ n',
      Swelled buffer pos first n' (s.completeOthers (Sending.putUnsized pos questID) obj others) ∧
      n ≤ n' ∧ n' ≤ n + 11 * others.length ∧
      (n' = n ↔ ∀ i ∈ others, i = obj ∨ s.qr.objComplete i = true) := by
  induction others generalizing n s with
  | nil => exact ⟨n, h, le_rfl, Nat.le_add_right _ _, fun _ i hi => (nomatch hi), fun _ => rfl⟩
  | cons i rest ih =>
      rw [List.length_cons] at hfits ⊢
      rw [Sending.completeOthers]
      by_cases hi : i ≠ obj ∧ s.qr.objComplete i = false
      · have hgrown := Swelled.putUnsized (s := { s with qr := s.qr.markComplete i }) h (by omega)
          questID i
        obtain ⟨n', hall, hlow, hhigh, -⟩ := ih hgrown (by omega)
        rw [if_pos hi]
        refine ⟨n', hall, by omega, by omega, fun heq => by omega, fun hdone => ?_⟩
        rcases hdone i List.mem_cons_self with hobj | hset
        · exact (hi.1 hobj).elim
        · cases hi.2.symm.trans hset
      · obtain ⟨n', hall, hlow, hhigh, hiff⟩ := ih h (by omega)
        rw [if_neg hi]
        refine ⟨n', hall, hlow, by omega, hiff.trans ?_⟩
        have hfirst : i = obj ∨ s.qr.objComplete i = true := by
          by_cases hobj : i = obj
          · exact .inl hobj
          · exact .inr (eq_true_of_ne_false fun hopen => hi ⟨hobj, hopen⟩)
        rw [List.forall_mem_cons]
        exact ⟨fun hrest => ⟨hfirst, hrest⟩, fun hboth => hboth.2⟩

theorem Swelled.applyOutcome {obj : Fin MAXOBJECTIVES} {qo : QuestObjective} {questID : Int}
    (h : Swelled buffer pos first 0 s) (hfits : first.length < 2 ^ 15) :
    ∃ n, Swelled buffer pos first n
        (s.applyOutcome (Sending.putUnsized pos questID) MAXOBJECTIVES qo obj) ∧ n ≤ 44 ∧
      (n = 0 ↔ (-1 < qo.outcome → ∀ i, i = obj ∨ s.qr.objComplete i = true)) := by
  unfold Sending.applyOutcome
  split
  · rename_i hout
    have hfour : ((List.finRange MAXOBJECTIVES).take MAXOBJECTIVES).length = 4 := rfl
    obtain ⟨n, hall, -, hhigh, hiff⟩ := @Swelled.completeOthers _ _ _ _ _ obj
      ((List.finRange MAXOBJECTIVES).take MAXOBJECTIVES) questID h (by omega)
    refine ⟨n, hall, by omega, hiff.trans ?_⟩
    constructor
    · intro hdone _ i
      exact hdone i (mem_take_finRange.mpr i.isLt)
    · intro hdone i _
      exact hdone hout i
  · rename_i hout
    exact ⟨0, h, by omega, fun _ h => (hout h).elim, fun _ => rfl⟩

end Swelled

/-! ### Messages behind the first one -/

/-- These messages were put into the buffer; all but the first are about no status. -/
def Sends (buffer : Memory) (pos : ℕ) (first : Byte × List Byte) (r : Memory × ℕ) : Prop :=
  ∃ rest, r = (buffer.write pos (frames (first :: rest)), (frames (first :: rest)).length) ∧
    ∀ message ∈ rest, message.2.length < 2 ^ 16 ∧ statusOf message = none

section Sends

variable {first : Byte × List Byte} {s : Sending}

theorem Sends.put_quiet {w : Writer} (h : Sends buffer pos first s.sent) (hw : Quiet w) :
    Sends buffer pos first (s.put pos w).sent := by
  obtain ⟨type, payload, hwrites, hlength, hnone⟩ := hw
  obtain ⟨rest, hs, hrest⟩ := h
  obtain ⟨hbuffer, hwpos⟩ := Prod.mk.inj hs
  have hput : w s.buffer (pos + s.wpos) =
      (buffer.write pos (frames (first :: rest) ++ frame type payload),
        (frame type payload).length) := by
    rw [hbuffer, hwpos]
    exact hwrites.after buffer pos _
  have hframes : frames (first :: (rest ++ [(type, payload)])) =
      frames (first :: rest) ++ frame type payload := by
    rw [← List.cons_append, frames_append, frames_singleton]
  refine ⟨rest ++ [(type, payload)], ?_, fun message hmem => ?_⟩
  · rw [hframes, List.length_append, ← hwpos]
    simp only [Sending.sent, Sending.put, hput]
  · rcases List.mem_append.mp hmem with hmem | hmem
    · exact hrest message hmem
    · cases List.mem_singleton.mp hmem
      exact ⟨hlength, hnone⟩

theorem Swelled.sends {payload : List Byte} {n : ℕ} (h : Swelled buffer pos payload n s) :
    ∃ extra : List Byte, extra.length = n ∧ Sends buffer pos (7, payload ++ extra) s.sent := by
  obtain ⟨extra, hs, hlength⟩ := h
  refine ⟨extra, hlength, [], ?_, fun message hmem => (nomatch hmem)⟩
  rw [hs, frames_singleton, length_frame]

end Sends

/-- The objective of a talk has no outcome, or the other objectives are complete already. -/
def TalksAlone (qr : QuestReference) (qd : QuestDefinition) (creatureDefID : Int) : Prop :=
  ∀ act, qd.getAct qr.curAct = some act → ∀ objective,
    ((List.finRange MAXOBJECTIVES).find? fun a => (act.objective a).type = .talk ∧
      (act.objective a).myCreatureDefID = creatureDefID) = some objective →
    -1 < (act.objective objective).outcome → ∀ i, i = objective ∨ qr.objComplete i = true

/-- The messages of a talk: the first one is about the objective of the talk, and goes on where
others are completed with it. -/
theorem sends_sendQuestTalk (hid : qr.questID = qd.questID) {creatureDefID creatureInstID : Int}
    {s : Sending} (hs : sendQuestTalk qr qd buffer pos creatureDefID creatureInstID = some s) :
    (s.sent = (buffer, 0) ∧ TalksAlone qr qd creatureDefID) ∨
      ∃ mk ∈ qr.talkMarkings qd creatureDefID, ∃ objective : Fin MAXOBJECTIVES,
        ∃ extra : List Byte,
        mk.Names ⟨.ofInt 32 qr.questID, objective, 1⟩ ∧ extra.length ≤ 44 ∧
        (extra = [] ↔ TalksAlone qr qd creatureDefID) ∧
        Sends buffer pos (7, statusPayload qr.questID objective true "Complete" ++ extra)
          s.sent := by
  unfold QuestReference.talkMarkings
  unfold sendQuestTalk at hs
  cases hact : qd.getAct qr.curAct with
  | none =>
      rw [hact] at hs
      cases hs
  | some act =>
      rw [hact] at hs
      dsimp only at hs ⊢
      cases hfind : (List.finRange MAXOBJECTIVES).find? fun a =>
        (act.objective a).type = .talk ∧ (act.objective a).myCreatureDefID = creatureDefID with
      | none =>
          rw [hfind] at hs
          cases hs
          refine .inl ⟨rfl, fun act' hact' objective hobjective => ?_⟩
          cases hact.symm.trans hact'
          cases hfind.symm.trans hobjective
      | some objective =>
          rw [hfind] at hs
          dsimp only at hs ⊢
          have hself := @names_self objective MAXOBJECTIVES (act.objective objective) qr
            (qr.markDone objective)
          have hset : (qr.markDone objective).objComplete objective = true :=
            Function.update_self _ _ _
          rw [hset] at hself
          have halone : (-1 < (act.objective objective).outcome →
              ∀ i, i = objective ∨ (qr.markDone objective).objComplete i = true) ↔
                TalksAlone qr qd creatureDefID := by
            constructor
            · intro h act' hact' objective' hobjective hout i
              cases hact.symm.trans hact'
              cases hfind.symm.trans hobjective
              rcases h hout i with hi | hi
              · exact .inl hi
              · exact objComplete_markComplete hi
            · intro h hout i
              rcases h act hact objective hfind hout i with hi | hi
              · exact .inl hi
              · by_cases hobj : i = objective
                · exact .inl hobj
                · exact .inr ((Function.update_of_ne hobj _ _).trans hi)
          rw [setSize_putStatus_first, ← hid] at hs
          obtain ⟨n, hgrown, hle, hiff⟩ := @Swelled.applyOutcome _ _ _ _ objective
            (act.objective objective) qr.questID (@Swelled.start (qr.markDone objective) buffer pos
              qr.questID objective true "Complete" (by decide))
            (by rw [length_statusPayload _ _ _ (by decide)]; decide)
          obtain ⟨extra, hlength, hsends⟩ := hgrown.sends
          have hextra : extra = [] ↔ TalksAlone qr qd creatureDefID := by
            rw [← List.length_eq_zero_iff, hlength, hiff]
            exact halone
          refine .inr
            ⟨_, List.mem_singleton_self _, objective, extra, hself, hlength ▸ hle, hextra, ?_⟩
          revert hsends hs
          generalize Sending.applyOutcome _ _ _ _ _ = grown
          intro hs hsends
          have hlast : Sends buffer pos
              (7, statusPayload qr.questID objective true "Complete" ++ extra)
              (if grown.qr.curAct = qd.actCount - 1 ∧ grown.qr.checkCompletedAct act then
                (grown.put pos (completeQuest qd)).put pos (questJournal creatureInstID qd)
              else grown.advanceAct pos qd).sent := by
            split
            · exact (hsends.put_quiet (quiet_completeQuest qd)).put_quiet
                (quiet_questJournal creatureInstID qd)
            · exact hsends.put_quiet (quiet_actCompleted grown.qr)
          generalize (if grown.qr.curAct = qd.actCount - 1 ∧ grown.qr.checkCompletedAct act then
            (grown.put pos (completeQuest qd)).put pos (questJournal creatureInstID qd)
            else grown.advanceAct pos qd) = last at hlast hs
          cases hs
          split
          · exact hlast
          · exact hlast

end Functions

/-! ### All quests -/

section Quests

variable {defs : QuestDefinitionContainer} {buffer : Memory} {pos : ℕ}
  {Right : Status → List Byte → Prop} {activeQuests : List QuestReference}

theorem framed_sendEach {f : QuestReference → QuestDefinition → Memory → ℕ → Option Sending}
    (hf : ∀ qr ∈ activeQuests, ∀ qd, defs.getQuestDefPtrByID qr.questID = some qd →
      ∀ buffer pos s, f qr qd buffer pos = some s → Framed buffer pos Right s.sent)
    {r : List QuestReference × Memory × ℕ} (h : sendEach defs f buffer pos activeQuests = some r) :
    Framed buffer pos Right r.2 := by
  induction activeQuests generalizing buffer pos r with
  | nil =>
      cases h
      exact Framed.nil
  | cons qr rest ih =>
      have hf' := fun other hmem => hf other (List.mem_cons_of_mem qr hmem)
      unfold sendEach at h
      cases hqd : defs.getQuestDefPtrByID qr.questID with
      | none =>
          rw [hqd] at h
          obtain ⟨r', hr', rfl⟩ := Option.map_eq_some_iff.mp h
          exact ih hf' (r := r') hr'
      | some qd =>
          rw [hqd] at h
          obtain ⟨s, hs, h⟩ := Option.bind_eq_some_iff.mp h
          obtain ⟨r', hr', rfl⟩ := Option.map_eq_some_iff.mp h
          exact (hf qr List.mem_cons_self qd hqd buffer pos s hs).append (ih hf' (r := r') hr')

theorem allowed_of_quest {event : QuestEvent} {qr : QuestReference} {qd : QuestDefinition}
    (hmem : qr ∈ questsOf defs activeQuests event)
    (hqd : defs.getQuestDefPtrByID qr.questID = some qd)
    (h : Allowed (eventMarkings defs activeQuests event) Right) :
    Allowed (questMarkings qr qd event) Right := by
  intro mk hmk
  refine h mk (List.mem_flatMap.mpr ⟨qr, hmem, ?_⟩)
  rw [hqd]
  exact hmk

/-- Events that are no talks. -/
theorem framed_sendEvent {cid : Int} {event : QuestEvent} (htalk : ∀ c, event ≠ .talk c)
    (hshort : ∀ id qd, defs.getQuestDefPtrByID id = some qd → ShortTexts qd)
    (hright : Allowed (eventMarkings defs activeQuests event) Right)
    {r : List QuestReference × Memory × ℕ}
    (h : sendEvent defs cid buffer pos activeQuests event = some r) :
    Framed buffer pos Right r.2 := by
  cases event with
  | objective type targetCDefID =>
      refine framed_sendEach (fun qr hmem qd hqd buffer pos s hs => ?_) h
      have hall := allowed_of_quest hmem hqd hright
      simp only [questMarkings] at hall
      cases hs
      split
      · exact framed_start
      · rename_i hopen
        rw [if_neg hopen] at hall
        exact framed_sendQuestObjective (hshort _ qd hqd) cid type targetCDefID hall
  | travel l =>
      refine framed_sendEach (fun qr hmem qd hqd buffer pos s hs => ?_) h
      exact framed_sendTravelLocation (hshort _ qd hqd) (defs.keyed _ _ hqd).symm hs
        (allowed_of_quest hmem hqd hright)
  | talk creatureDefID => exact (htalk creatureDefID rfl).elim
  | emote e =>
      refine framed_sendEach (fun qr hmem qd hqd buffer pos s hs => ?_) h
      exact framed_sendEmote (hshort _ qd hqd) (defs.keyed _ _ hqd).symm hs
        (allowed_of_quest hmem hqd hright)

/-- A talk comes to the first quest that has the creature, or to none. -/
theorem sendTalk_cases {creatureDefID creatureInstID : Int}
    {r : List QuestReference × Memory × ℕ}
    (h : sendTalk defs creatureDefID creatureInstID buffer pos activeQuests = some r) :
    (questsOf defs activeQuests (.talk creatureDefID) = [] ∧ r.2 = (buffer, 0)) ∨
      ∃ qr qd s, questsOf defs activeQuests (.talk creatureDefID) = [qr] ∧
        defs.getQuestDefPtrByID qr.questID = some qd ∧
        sendQuestTalk qr qd buffer pos creatureDefID creatureInstID = some s ∧ r.2 = s.sent := by
  induction activeQuests generalizing r with
  | nil =>
      cases h
      exact .inl ⟨rfl, rfl⟩
  | cons qr rest ih =>
      unfold sendTalk at h
      cases hqd : defs.getQuestDefPtrByID qr.questID with
      | none =>
          have hskip : questsOf defs (qr :: rest) (.talk creatureDefID) =
              questsOf defs rest (.talk creatureDefID) := by
            simp [questsOf, hqd]
          rw [hqd] at h
          obtain ⟨r', hr', rfl⟩ := Option.map_eq_some_iff.mp h
          rw [hskip]
          exact ih (r := r') hr'
      | some qd =>
          rw [hqd] at h
          dsimp only at h
          cases hfound : qr.hasCreatureReturn qd creatureDefID with
          | none =>
              rw [hfound] at h
              cases h
          | some found =>
              rw [hfound] at h
              cases found with
              | false =>
                  have hskip : questsOf defs (qr :: rest) (.talk creatureDefID) =
                      questsOf defs rest (.talk creatureDefID) := by
                    simp [questsOf, hqd, hfound]
                  obtain ⟨r', hr', rfl⟩ := Option.map_eq_some_iff.mp h
                  rw [hskip]
                  exact ih (r := r') hr'
              | true =>
                  have htaken : questsOf defs (qr :: rest) (.talk creatureDefID) = [qr] := by
                    simp [questsOf, hqd, hfound]
                  obtain ⟨s, hs, rfl⟩ := Option.map_eq_some_iff.mp h
                  exact .inr ⟨qr, qd, s, htaken, hqd, hs, rfl⟩

/-- The bytes are whole messages, and a status message among them names something that was marked,
in a payload that is that of a status message. -/
def WellFramed (markings : List Marking) (bytes : List Byte) : Prop :=
  ∃ messages, unframe bytes = some messages ∧ ∀ message ∈ messages, ∀ st ∈ statusOf message,
    (∃ mk ∈ markings, mk.Names st) ∧
      ∃ text : String, text.length < 255 ∧ message.2 = st.payload text

/-- No talk completes other objectives than its own. -/
def Unmerged (defs : QuestDefinitionContainer) (activeQuests : List QuestReference)
    (event : QuestEvent) : Prop :=
  ∀ creatureDefID, event = .talk creatureDefID → ∀ qr ∈ questsOf defs activeQuests event,
    ∀ qd, defs.getQuestDefPtrByID qr.questID = some qd → TalksAlone qr qd creatureDefID

theorem Framed.unframe {r : Memory × ℕ} (h : Framed buffer pos Right r) :
    ∃ messages, Lib.unframe (r.1.read pos r.2) = some messages ∧
      ∀ message ∈ messages, ∀ st ∈ statusOf message, Right st message.2 := by
  obtain ⟨messages, rfl, hall⟩ := h
  refine ⟨messages, ?_, fun message hmem => (hall message hmem).2⟩
  rw [Memory.read_write]
  exact unframe_frames fun message hmem => (hall message hmem).1

theorem Sends.unframe {first : Byte × List Byte} {r : Memory × ℕ}
    (h : Sends buffer pos first r) (hlength : first.2.length < 2 ^ 16) :
    ∃ rest, Lib.unframe (r.1.read pos r.2) = some (first :: rest) ∧
      ∀ message ∈ rest, statusOf message = none := by
  obtain ⟨rest, rfl, hrest⟩ := h
  refine ⟨rest, ?_, fun message hmem => (hrest message hmem).2⟩
  rw [Memory.read_write]
  refine unframe_frames fun message hmem => ?_
  rcases List.mem_cons.mp hmem with rfl | hmem
  · exact hlength
  · exact (hrest message hmem).1

/-- A payload that goes on behind the text is not that of a status message. -/
theorem eq_nil_of_payload {questID : Int} {i : Fin MAXOBJECTIVES} {st : Status} {text : String}
    {extra : List Byte} (hshort : text.length < 255)
    (hst : statusOf (7, statusPayload questID i true "Complete" ++ extra) = some st)
    (h : statusPayload questID i true "Complete" ++ extra = st.payload text) : extra = [] := by
  cases (statusOf_statusPayload questID i true "Complete" extra).symm.trans hst
  rw [statusPayload, Status.payload, List.append_assoc, List.append_cancel_left_eq] at h
  simp only [List.cons_append, List.cons.injEq, true_and] at h
  exact textPayload_append_eq (show "Complete".length < 255 by decide) hshort h

/-- The messages of a talk. -/
theorem talk_messages {creatureDefID creatureInstID : Int} {r : List QuestReference × Memory × ℕ}
    (h : sendTalk defs creatureDefID creatureInstID buffer pos activeQuests = some r) :
    (Lib.unframe (r.2.1.read pos r.2.2) = some [] ∧
        Unmerged defs activeQuests (.talk creatureDefID)) ∨
      ∃ mk ∈ eventMarkings defs activeQuests (.talk creatureDefID), ∃ (questID : Int)
        (objective : Fin MAXOBJECTIVES) (extra : List Byte),
        mk.Names ⟨.ofInt 32 questID, objective, 1⟩ ∧
        (extra = [] ↔ Unmerged defs activeQuests (.talk creatureDefID)) ∧
        ∃ rest, Lib.unframe (r.2.1.read pos r.2.2) =
            some ((7, statusPayload questID objective true "Complete" ++ extra) :: rest) ∧
          ∀ message ∈ rest, statusOf message = none := by
  have hempty : ∀ {r : Memory × ℕ}, r = (buffer, 0) →
      Lib.unframe (r.1.read pos r.2) = some [] := by
    rintro _ rfl
    exact Lib.unframe.eq_1
  rcases sendTalk_cases h with ⟨hqr, hnone⟩ | ⟨qr, qd, s, hqr, hqd, hs, hsent⟩
  · refine .inl ⟨hempty hnone, fun c _ qr hmem => ?_⟩
    rw [hqr] at hmem
    cases hmem
  have hunmerged : TalksAlone qr qd creatureDefID ↔
      Unmerged defs activeQuests (.talk creatureDefID) := by
    constructor
    · rintro halone c heq qr' hmem qd' hqd'
      cases heq
      rw [hqr] at hmem
      cases List.mem_singleton.mp hmem
      cases hqd.symm.trans hqd'
      exact halone
    · intro h
      exact h creatureDefID rfl qr (hqr ▸ List.mem_singleton_self qr) qd hqd
  rw [hsent, ← hunmerged]
  rcases sends_sendQuestTalk (defs.keyed _ _ hqd).symm hs with
    ⟨hnone, halone⟩ | ⟨mk, hmk, objective, extra, hname, hle, hiff, hsends⟩
  · exact .inl ⟨hempty hnone, halone⟩
  · have hlength :
        (statusPayload qr.questID objective true "Complete" ++ extra).length < 2 ^ 16 := by
      have htext : "Complete".length = 8 := rfl
      rw [List.length_append, length_statusPayload _ _ _ (by decide), htext]
      omega
    refine .inr ⟨mk, ?_, qr.questID, objective, extra, hname, hiff, hsends.unframe hlength⟩
    simp only [eventMarkings, hqr, List.flatMap_singleton, hqd]
    exact hmk

theorem talk_wellFramed_iff {creatureDefID creatureInstID : Int}
    {r : List QuestReference × Memory × ℕ}
    (h : sendTalk defs creatureDefID creatureInstID buffer pos activeQuests = some r) :
    WellFramed (eventMarkings defs activeQuests (.talk creatureDefID)) (r.2.1.read pos r.2.2) ↔
      Unmerged defs activeQuests (.talk creatureDefID) := by
  rcases talk_messages h with
    ⟨hnone, halone⟩ | ⟨mk, hmk, questID, i, extra, hname, hiff, rest, hall, hrest⟩
  · exact ⟨fun _ => halone, fun _ => ⟨[], hnone, fun message hmem => (nomatch hmem)⟩⟩
  · have hstatus := statusOf_statusPayload questID i true "Complete" extra
    rw [← hiff]
    constructor
    · rintro ⟨messages, hmessages, hexact⟩
      cases hall.symm.trans hmessages
      obtain ⟨-, text, htext, hpayload⟩ := hexact _ List.mem_cons_self _ hstatus
      exact eq_nil_of_payload htext hstatus hpayload
    · rintro rfl
      refine ⟨_, hall, fun message hmem st hst => ?_⟩
      rcases List.mem_cons.mp hmem with rfl | hmem
      · cases hstatus.symm.trans hst
        exact ⟨⟨mk, hmk, hname⟩, "Complete", by decide, List.append_nil _⟩
      · cases (hrest message hmem).symm.trans hst

variable {cid : Int} {event : QuestEvent} {activeQuests' : List QuestReference} {buffer' : Memory}
  {wpos : ℕ}

/-- The status messages of an event are status messages and nothing else exactly where no talk
completes other objectives than its own. -/
theorem quest_framing_iff
    (hshort : ∀ id qd, defs.getQuestDefPtrByID id = some qd → ShortTexts qd)
    (h : sendEvent defs cid buffer pos activeQuests event = some (activeQuests', buffer', wpos)) :
    WellFramed (eventMarkings defs activeQuests event) (buffer'.read pos wpos) ↔
      Unmerged defs activeQuests event := by
  by_cases htalk : ∃ c, event = .talk c
  · obtain ⟨creatureDefID, rfl⟩ := htalk
    exact talk_wellFramed_iff h
  · have hframed := @framed_sendEvent defs buffer pos
      (fun st payload => (∃ mk ∈ eventMarkings defs activeQuests event, mk.Names st) ∧
        ∃ text : String, text.length < 255 ∧ payload = st.payload text) activeQuests cid event
      (fun c hc => htalk ⟨c, hc⟩) hshort
      (fun mk hmk st hst text htext => ⟨⟨mk, hmk, hst⟩, text, htext, rfl⟩) _ h
    exact ⟨fun _ c hc => (htalk ⟨c, hc⟩).elim, fun _ => hframed.unframe⟩

/-- The messages of a wave. -/
theorem quest_framing_iff_wave :
    ∃ r, sendEvent greetingDefs 3 (fun _ => 0) 0 [{ questID := 7 }] (.emote ⟨"wave", 0, 0, 5⟩) =
        some r ∧
      (WellFramed (eventMarkings greetingDefs [{ questID := 7 }] (.emote ⟨"wave", 0, 0, 5⟩))
          (r.2.1.read 0 r.2.2) ↔
        Unmerged greetingDefs [{ questID := 7 }] (.emote ⟨"wave", 0, 0, 5⟩)) := by
  have hshort : ∀ id qd, greetingDefs.getQuestDefPtrByID id = some qd → ShortTexts qd := by
    intro id qd h
    have hqd : (if id = 7 then some greeting else none) = some qd := h
    rw [Option.ite_none_right_eq_some, Option.some.injEq] at hqd
    rw [← hqd.2]
    exact ⟨by decide, by decide, by decide⟩
  have hstep : ((sendEvent greetingDefs 3 (fun _ => 0) 0 [{ questID := 7 }]
      (.emote ⟨"wave", 0, 0, 5⟩)).map Prod.fst).isSome := by
    rw [fst_sendEvent]
    decide
  obtain ⟨r, hr⟩ := Option.isSome_iff_exists.mp (Option.isSome_map ▸ hstep)
  exact ⟨r, hr, quest_framing_iff hshort hr⟩

/-- A quest to say farewell, with an outcome. -/
def farewell : QuestDefinition where
  questID := 9
  actList := [⟨![{ type := .talk, myCreatureDefID := 4, outcome := 0 }, {}, {}, {}]⟩,
    ⟨![bandit, {}, {}, {}]⟩]

def farewellDefs : QuestDefinitionContainer := .single farewell

/-- The messages about the other objectives are in the payload of the first one. -/
theorem farewell_merged :
    ∃ r, sendEvent farewellDefs 3 (fun _ => 0) 0 [{ questID := 9 }] (.talk 4) = some r ∧
      ¬WellFramed (eventMarkings farewellDefs [{ questID := 9 }] (.talk 4))
        (r.2.1.read 0 r.2.2) := by
  have hstep : ((sendEvent farewellDefs 3 (fun _ => 0) 0 [{ questID := 9 }]
      (.talk 4)).map Prod.fst).isSome := by
    rw [fst_sendEvent]
    decide
  obtain ⟨r, hr⟩ := Option.isSome_iff_exists.mp (Option.isSome_map ▸ hstep)
  refine ⟨r, hr, fun hframed => ?_⟩
  have halone := (talk_wellFramed_iff hr).mp hframed 4 rfl { questID := 9 }
    (by decide) farewell rfl _ rfl 0 rfl (by decide) 1
  cases halone with
  | inl hfirst => exact absurd hfirst (by decide)
  | inr hset => exact absurd hset (by decide)

end Quests

end Iceee.Quest
