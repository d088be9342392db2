import Iceee.Lib.Trace
import Iceee.Quest.Progress

/-!
# When an act advances

`Conforms` is what an event may do to a quest: it completes the objectives it matches, and
moves to the next act, with all its objectives open, when those of the current one are
complete. The four functions do that under a condition each: `CheckQuestObjective` does not
compare the type of the objective, `CheckQuestTalk` does not ask for the other objectives,
and `FilterEmote` goes on with the old act after the quest has advanced.
-/

namespace Iceee.Quest

open Lib

/-- The event is what the objective asks for. -/
def QuestEvent.Matches (qo : QuestObjective) : QuestEvent → Prop
  | .objective type targetCDefID => qo.type = type ∧ qo.hasObjectiveCDef type targetCDefID
  | .travel l => qo.type = .travel ∧ 4 ≤ qo.data1.length ∧ qo.reached l
  | .talk creatureDefID => qo.type = .talk ∧ qo.myCreatureDefID = creatureDefID
  | .emote e => qo.answers e

/-- The objective of the act that the event is for; an emote is for all that match it. -/
def QuestEvent.Chosen (qr : QuestReference) (act : QuestAct) (b : Fin MAXOBJECTIVES) :
    QuestEvent → Prop
  | .objective type targetCDefID =>
      act.getObjective type targetCDefID = some b ∧
        (act.objective b).data2 ≤ wrap16 (qr.objCounter b + 1)
  | .travel l => qr.travelLoop act l (List.finRange MAXOBJECTIVES) = some b
  | .talk creatureDefID =>
      ((List.finRange MAXOBJECTIVES).find? fun a => (act.objective a).type = .talk ∧
        (act.objective a).myCreatureDefID = creatureDefID) = some b
  | .emote _ => True

/-- The event completes the objective. -/
def Completes (e : QuestEvent) (qr : QuestReference) (act : QuestAct) (b : Fin MAXOBJECTIVES) :
    Prop := e.Matches (act.objective b) ∧ e.Chosen qr act b

/-- The event completes the objective, or another one of the act that has an outcome. -/
def CompletedBy (e : QuestEvent) (qr : QuestReference) (act : QuestAct)
    (b : Fin MAXOBJECTIVES) : Prop :=
  Completes e qr act b ∨ ∃ obj, Completes e qr act obj ∧ -1 < (act.objective obj).outcome

/-- The current act is one of the quest. -/
def InActs (qd : QuestDefinition) (qr : QuestReference) : Prop :=
  0 ≤ qr.curAct ∧ qr.curAct < qd.actCount

/-- What one event may do to a quest. -/
structure Conforms (qd : QuestDefinition) (e : QuestEvent) (qr qr' : QuestReference) : Prop where
  questID : qr'.questID = qr.questID
  inActs : InActs qd qr'
  atMostOne : qr'.curAct = qr.curAct ∨ qr'.curAct = qr.curAct + 1
  done : qr'.curAct ≠ qr.curAct → ∀ act, qd.getAct qr.curAct = some act →
    ∀ b, (act.objective b).type ≠ .none → qr.objComplete b = true ∨ CompletedBy e qr act b
  marked : ∀ b, qr'.objComplete b = true → qr.objComplete b = true ∨
    ∃ act, qd.getAct qr.curAct = some act ∧ CompletedBy e qr act b
  clear : qr'.curAct ≠ qr.curAct → ∀ b, qr'.objComplete b = false ∧ qr'.objCounter b = 0

/-- When the four functions conform. -/
def Fits (qd : QuestDefinition) (qr : QuestReference) : QuestEvent → Prop
  | .objective type targetCDefID =>
      ∀ act ∈ qd.getAct qr.curAct, ∀ obj ∈ act.getObjective type targetCDefID,
        qr.objComplete obj = false →
          (act.objective obj).type = type ∧
            (-1 < (act.objective obj).outcome →
              (act.objective obj).data2 ≤ wrap16 (qr.objCounter obj + 1))
  | .travel _ => True
  | .talk creatureDefID =>
      qr.curAct = qd.actCount - 1 ∨
      ∀ act ∈ qd.getAct qr.curAct, ∀ obj, (act.objective obj).type = .talk →
        (act.objective obj).myCreatureDefID = creatureDefID →
          -1 < (act.objective obj).outcome ∨
            ∀ b, (act.objective b).type ≠ .none → b = obj ∨ qr.objComplete b = true
  | .emote e =>
      qr.curAct = qd.actCount - 1 ∨
      ∀ act ∈ qd.getAct qr.curAct, ∀ obj, (act.objective obj).answers e = true →
        (-1 < (act.objective obj).outcome ∨ ∀ b, (act.objective b).type ≠ .none →
          (b ≤ obj ∧ (act.objective b).answers e = true) ∨ qr.objComplete b = true) →
        ∀ later, obj < later → (act.objective later).answers e = false

/-! ### The pieces -/

section Pieces

variable {qd : QuestDefinition} {qr : QuestReference} {act : QuestAct} {e : QuestEvent}

theorem wrap16_eq {x : Int} (hlo : 0 ≤ x) (hhi : x < 2 ^ 15) : wrap16 x = x := by
  unfold wrap16
  apply Int.bmod_eq_of_le <;> omega

theorem InActs.exists_act (h : InActs qd qr) : ∃ act, qd.getAct qr.curAct = some act := by
  obtain ⟨hlo, hhi⟩ := h
  have hlt : qr.curAct.toNat < qd.actList.length := by
    unfold QuestDefinition.actCount at hhi
    omega
  refine ⟨qd.actList[qr.curAct.toNat], ?_⟩
  unfold QuestDefinition.getAct
  rw [if_pos hlo, List.getElem?_eq_getElem hlt]

theorem advanceAct_last (hsize : qd.actCount < 2 ^ 15) (h : InActs qd qr)
    (hlast : qr.curAct = qd.actCount - 1) : qr.advanceAct qd = qr := by
  obtain ⟨hlo, hhi⟩ := h
  have hnext : wrap16 (qr.curAct + 1) = qr.curAct + 1 := wrap16_eq (by omega) (by omega)
  have hback : wrap16 (qd.actCount - 1) = qr.curAct := by
    rw [← hlast]
    exact wrap16_eq hlo (by omega)
  unfold QuestReference.advanceAct
  dsimp only
  rw [if_pos (by omega), hback]

theorem advanceAct_inner (hsize : qd.actCount < 2 ^ 15) (h : InActs qd qr)
    (hinner : qr.curAct < qd.actCount - 1) :
    qr.advanceAct qd =
      { qr.clearObjectiveData with curAct := qr.curAct + 1, complete := false } := by
  obtain ⟨hlo, hhi⟩ := h
  have hnext : wrap16 (qr.curAct + 1) = qr.curAct + 1 := wrap16_eq (by omega) (by omega)
  unfold QuestReference.advanceAct
  dsimp only
  rw [if_neg (by omega), hnext]

theorem checkCompletedAct_iff :
    qr.checkCompletedAct act ↔
      ∀ b, (act.objective b).type ≠ .none → qr.objComplete b = true := by
  unfold QuestReference.checkCompletedAct
  dsimp only
  rw [decide_eq_true_eq, List.countP_eq_length_filter, List.countP_eq_length_filter]
  have hsub : ((List.finRange MAXOBJECTIVES).filter fun b =>
      (act.objective b).type ≠ .none ∧ qr.objComplete b = true) =
      ((List.finRange MAXOBJECTIVES).filter fun b => (act.objective b).type ≠ .none).filter
        fun b => qr.objComplete b := by
    rw [List.filter_filter]
    apply List.filter_congr
    intro b _
    simp [Bool.and_comm]
  rw [hsub]
  constructor
  · intro hle b hb
    have hall := List.length_filter_eq_length_iff.mp (le_antisymm (List.length_filter_le _ _) hle)
    exact hall b (List.mem_filter.mpr ⟨List.mem_finRange b, by simpa using hb⟩)
  · intro hall
    apply le_of_eq
    rw [eq_comm, List.length_filter_eq_length_iff]
    intro b hb
    exact hall b (by simpa using (List.mem_filter.mp hb).2)

theorem objComplete_markComplete {obj b : Fin MAXOBJECTIVES}
    (h : (qr.markComplete obj).objComplete b = true) : b = obj ∨ qr.objComplete b = true := by
  by_cases heq : b = obj
  · exact .inl heq
  · have hkept : (qr.markComplete obj).objComplete b = qr.objComplete b :=
      Function.update_of_ne heq _ _
    exact .inr (hkept ▸ h)

theorem objComplete_applyOutcome {bound : Nat} {qo : QuestObjective} {obj b : Fin MAXOBJECTIVES}
    (h : (qr.applyOutcome bound qo obj).objComplete b = true) :
    qr.objComplete b = true ∨ -1 < qo.outcome := by
  unfold QuestReference.applyOutcome at h
  by_cases hout : -1 < qo.outcome
  · exact .inr hout
  · rw [if_neg hout] at h
    exact .inl h

@[simp] theorem curAct_markDone (qr : QuestReference) (obj : Fin MAXOBJECTIVES) :
    (qr.markDone obj).curAct = qr.curAct := rfl

@[simp] theorem curAct_applyOutcome (qr : QuestReference) (bound : Nat) (qo : QuestObjective)
    (obj : Fin MAXOBJECTIVES) : (qr.applyOutcome bound qo obj).curAct = qr.curAct := by
  unfold QuestReference.applyOutcome
  split <;> rfl

@[simp] theorem curAct_countObjective (qr : QuestReference) (act : QuestAct)
    (obj : Fin MAXOBJECTIVES) : (qr.countObjective act obj).curAct = qr.curAct := by
  unfold QuestReference.countObjective
  dsimp only
  split <;> rfl

theorem objComplete_countObjective {obj b : Fin MAXOBJECTIVES}
    (h : (qr.countObjective act obj).objComplete b = true) :
    (b = obj ∧ (act.objective obj).data2 ≤ wrap16 (qr.objCounter obj + 1)) ∨
      qr.objComplete b = true := by
  unfold QuestReference.countObjective at h
  dsimp only at h
  split at h
  · rename_i hcount
    exact (objComplete_markComplete h).imp_left fun heq => ⟨heq, hcount⟩
  · exact .inr h

/-- A quest after some objectives of its act were completed by the event. -/
structure Marked (qd : QuestDefinition) (e : QuestEvent) (qr : QuestReference) (act : QuestAct)
    (qr' : QuestReference) : Prop where
  inActs : InActs qd qr
  current : qd.getAct qr.curAct = some act
  questID : qr'.questID = qr.questID
  curAct : qr'.curAct = qr.curAct
  flags : ∀ b, qr'.objComplete b = true → qr.objComplete b = true ∨ CompletedBy e qr act b

theorem conforms_refl (h : InActs qd qr) : Conforms qd e qr qr where
  questID := rfl
  inActs := h
  atMostOne := .inl rfl
  done := fun hne => absurd rfl hne
  marked := fun _ => .inl
  clear := fun hne => absurd rfl hne

theorem Marked.conforms {qr' : QuestReference} (h : Marked qd e qr act qr') :
    Conforms qd e qr qr' where
  questID := h.questID
  inActs := by
    unfold InActs
    rw [h.curAct]
    exact h.inActs
  atMostOne := .inl h.curAct
  done := fun hne => absurd h.curAct hne
  marked := fun b hb => (h.flags b hb).imp_right fun hby => ⟨act, h.current, hby⟩
  clear := fun hne => absurd h.curAct hne

/-- The act may advance when its objectives are complete, and nothing happens in the last
one. -/
theorem Marked.advance {qr' : QuestReference} (h : Marked qd e qr act qr')
    (hsize : qd.actCount < 2 ^ 15)
    (hdone : qr.curAct < qd.actCount - 1 → ∀ b, (act.objective b).type ≠ .none →
      qr.objComplete b = true ∨ CompletedBy e qr act b) :
    Conforms qd e qr (qr'.advanceAct qd) := by
  have hin' : InActs qd qr' := by
    unfold InActs
    rw [h.curAct]
    exact h.inActs
  by_cases hinner : qr.curAct < qd.actCount - 1
  · rw [advanceAct_inner hsize hin' (h.curAct ▸ hinner)]
    have hcur : qr'.curAct + 1 = qr.curAct + 1 := by rw [h.curAct]
    constructor
    case questID => exact h.questID
    case inActs =>
      obtain ⟨hlo, -⟩ := h.inActs
      unfold InActs
      dsimp only
      rw [hcur]
      omega
    case atMostOne => exact .inr hcur
    case done =>
      intro _ act' hact'
      rw [h.current, Option.some.injEq] at hact'
      rw [← hact']
      exact hdone hinner
    case marked =>
      intro b hb
      exact absurd hb (by simp [QuestReference.clearObjectiveData])
    case clear =>
      intro _ b
      exact ⟨rfl, rfl⟩
  · have hlast : qr'.curAct = qd.actCount - 1 := by
      obtain ⟨-, hhi⟩ := h.inActs
      rw [h.curAct]
      omega
    rw [advanceAct_last hsize hin' hlast]
    exact h.conforms

theorem Marked.done {qr' : QuestReference} (h : Marked qd e qr act qr')
    (hcompleted : qr'.checkCompletedAct act = true) (b : Fin MAXOBJECTIVES)
    (hb : (act.objective b).type ≠ .none) :
    qr.objComplete b = true ∨ CompletedBy e qr act b :=
  h.flags b (checkCompletedAct_iff.mp hcompleted b hb)

/-- Nothing but the flags of the objectives changes. -/
theorem marked_of_flags {qr' : QuestReference} (hin : InActs qd qr)
    (hact : qd.getAct qr.curAct = some act) (hid : qr'.questID = qr.questID)
    (hcur : qr'.curAct = qr.curAct)
    (hflags : ∀ b, qr'.objComplete b = true →
      qr.objComplete b = true ∨ CompletedBy e qr act b) : Marked qd e qr act qr' :=
  ⟨hin, hact, hid, hcur, hflags⟩

@[simp] theorem questID_applyOutcome (qr : QuestReference) (bound : Nat) (qo : QuestObjective)
    (obj : Fin MAXOBJECTIVES) : (qr.applyOutcome bound qo obj).questID = qr.questID := by
  unfold QuestReference.applyOutcome
  split <;> rfl

@[simp] theorem questID_countObjective (qr : QuestReference) (act : QuestAct)
    (obj : Fin MAXOBJECTIVES) : (qr.countObjective act obj).questID = qr.questID := by
  unfold QuestReference.countObjective
  dsimp only
  split <;> rfl

/-- An objective that is done at once, with its outcome. -/
theorem Marked.markDone {qr' : QuestReference} (h : Marked qd e qr act qr')
    {obj : Fin MAXOBJECTIVES} (hobj : Completes e qr act obj) :
    Marked qd e qr act
      ((qr'.markDone obj).applyOutcome MAXOBJECTIVES (act.objective obj) obj) where
  inActs := h.inActs
  current := h.current
  questID := by rw [questID_applyOutcome]; exact h.questID
  curAct := by rw [curAct_applyOutcome]; exact h.curAct
  flags := by
    intro b hb
    obtain hb | hout := objComplete_applyOutcome hb
    · obtain rfl | hb := objComplete_markComplete hb
      · exact .inr (.inl hobj)
      · exact h.flags b hb
    · exact .inr (.inr ⟨obj, hobj, hout⟩)

end Pieces

/-! ### The four functions -/

section Functions

variable {qd : QuestDefinition} {qr : QuestReference}

theorem checkQuestObjective_conforms (hsize : qd.actCount < 2 ^ 15) (hin : InActs qd qr)
    {type : ObjectiveType} {targetCDefID : Int}
    (hfits : Fits qd qr (.objective type targetCDefID)) :
    Conforms qd (.objective type targetCDefID) qr
      (qr.checkQuestObjective qd type targetCDefID) := by
  obtain ⟨act, hact⟩ := hin.exists_act
  unfold QuestReference.checkQuestObjective
  rw [hact]
  dsimp only
  cases hobj : act.getObjective type targetCDefID with
  | none => exact conforms_refl hin
  | some obj =>
      dsimp only
      by_cases hcomplete : qr.objComplete obj = true
      · rw [if_pos hcomplete]
        exact conforms_refl hin
      · rw [if_neg hcomplete]
        obtain ⟨htype, hout⟩ := hfits act hact obj hobj (Bool.eq_false_iff.mpr hcomplete)
        have hcdef : (act.objective obj).hasObjectiveCDef type targetCDefID = true :=
          List.find?_some (p := fun a => (act.objective a).hasObjectiveCDef type targetCDefID) hobj
        have hcompletes (hcount : (act.objective obj).data2 ≤ wrap16 (qr.objCounter obj + 1)) :
            Completes (.objective type targetCDefID) qr act obj :=
          ⟨⟨htype, hcdef⟩, hobj, hcount⟩
        have hmarked : Marked qd (.objective type targetCDefID) qr act
            ((qr.countObjective act obj).applyOutcome 3 (act.objective obj) obj) := by
          apply marked_of_flags hin hact
          · simp
          · simp
          · intro b hb
            obtain hb | houtcome := objComplete_applyOutcome hb
            · obtain ⟨rfl, hcount⟩ | hb := objComplete_countObjective hb
              · exact .inr (.inl (hcompletes hcount))
              · exact .inl hb
            · exact .inr (.inr ⟨obj, hcompletes (hout houtcome), houtcome⟩)
        split
        · rename_i hcond
          exact hmarked.advance hsize fun _ => hmarked.done hcond.2.1
        · exact hmarked.conforms

/-- The travel objective that is found is there, and reached. -/
theorem travelLoop_some {act : QuestAct} {l : Location} {r : Fin MAXOBJECTIVES}
    {objectives : List (Fin MAXOBJECTIVES)} (h : qr.travelLoop act l objectives = some r) :
    QuestEvent.Matches (act.objective r) (.travel l) := by
  induction objectives with
  | nil => cases h
  | cons i rest ih =>
      rw [QuestReference.travelLoop] at h
      split at h
      · exact ih h
      · split at h
        · rename_i htype
          split at h
          · cases h
          · rename_i hlen
            split at h
            · rename_i hreached
              obtain rfl := Option.some.inj h
              exact ⟨htype, not_lt.mp hlen, hreached⟩
            · exact ih h
        · exact ih h

theorem checkTravelLocation_conforms (hsize : qd.actCount < 2 ^ 15) (hin : InActs qd qr)
    (l : Location) :
    ∃ qr', qr.checkTravelLocation qd l = some qr' ∧ Conforms qd (.travel l) qr qr' := by
  obtain ⟨act, hact⟩ := hin.exists_act
  unfold QuestReference.checkTravelLocation
  rw [hact]
  dsimp only
  cases hr : qr.travelLoop act l (List.finRange MAXOBJECTIVES) with
  | none => exact ⟨qr, rfl, conforms_refl hin⟩
  | some r =>
      have hsame : Marked qd (.travel l) qr act qr :=
        marked_of_flags hin hact rfl rfl fun _ => .inl
      have hobj : Completes (.travel l) qr act r := ⟨travelLoop_some hr, hr⟩
      have hmarked := hsame.markDone hobj
      refine ⟨_, rfl, ?_⟩
      split
      · rename_i hcompleted
        exact hmarked.advance hsize fun _ => hmarked.done hcompleted
      · exact hmarked.conforms

theorem checkQuestTalk_conforms (hsize : qd.actCount < 2 ^ 15) (hin : InActs qd qr)
    {creatureDefID : Int} (hfits : Fits qd qr (.talk creatureDefID)) :
    ∃ qr', qr.checkQuestTalk qd creatureDefID = some qr' ∧
      Conforms qd (.talk creatureDefID) qr qr' := by
  obtain ⟨act, hact⟩ := hin.exists_act
  unfold QuestReference.checkQuestTalk
  rw [hact]
  dsimp only
  cases hobjective : (List.finRange MAXOBJECTIVES).find? fun a =>
      (act.objective a).type = .talk ∧ (act.objective a).myCreatureDefID = creatureDefID with
  | none => exact ⟨qr, rfl, conforms_refl hin⟩
  | some objective =>
      have hfound := List.find?_some hobjective
      rw [decide_eq_true_eq] at hfound
      have hcompletes : Completes (.talk creatureDefID) qr act objective := ⟨hfound, hobjective⟩
      have hsame : Marked qd (.talk creatureDefID) qr act qr :=
        marked_of_flags hin hact rfl rfl fun _ => .inl
      have hmarked := hsame.markDone hcompletes
      have hdone : qr.curAct < qd.actCount - 1 → ∀ b, (act.objective b).type ≠ .none →
          qr.objComplete b = true ∨ CompletedBy (.talk creatureDefID) qr act b := by
        intro hinner b hb
        obtain hlast | hothers := hfits
        · exact absurd hlast hinner.ne
        · obtain hout | hall := hothers act hact objective hfound.1 hfound.2
          · exact .inr (.inr ⟨objective, hcompletes, hout⟩)
          · obtain rfl | hcomplete := hall b hb
            · exact .inr (.inl hcompletes)
            · exact .inl hcomplete
      have hclamp {qr' : QuestReference} (h : Conforms qd (.talk creatureDefID) qr qr') :
          Conforms qd (.talk creatureDefID) qr
            (if qd.actCount - 1 < qr'.curAct then { qr' with curAct := wrap16 (qd.actCount - 1) }
              else qr') := by
        rw [if_neg (not_lt.mpr (Int.le_sub_one_of_lt h.inActs.2))]
        exact h
      refine ⟨_, rfl, hclamp ?_⟩
      split
      · exact hmarked.conforms
      · exact hmarked.advance hsize hdone

/-! ### Emotes -/

/-- Objectives that do not answer are passed over. -/
theorem emoteLoop_of_not {act : QuestAct} {m : Emote} {objectives : List (Fin MAXOBJECTIVES)}
    (h : ∀ obj ∈ objectives, (act.objective obj).answers m = false) (qr : QuestReference) :
    QuestReference.emoteLoop qd act m objectives qr = some qr := by
  induction objectives with
  | nil => rfl
  | cons obj rest ih =>
      rw [QuestReference.emoteLoop, h obj List.mem_cons_self]
      exact ih fun obj' hobj' => h obj' (List.mem_cons_of_mem _ hobj')

/-- In the last act nothing advances. -/
theorem emoteLoop_last (hsize : qd.actCount < 2 ^ 15) {act : QuestAct} {m : Emote}
    (hlast : qr.curAct = qd.actCount - 1) (objectives : List (Fin MAXOBJECTIVES))
    {qr' : QuestReference} (h : Marked qd (.emote m) qr act qr') :
    ∃ qr'', QuestReference.emoteLoop qd act m objectives qr' = some qr'' ∧
      Conforms qd (.emote m) qr qr'' := by
  induction objectives generalizing qr' with
  | nil => exact ⟨qr', rfl, h.conforms⟩
  | cons obj rest ih =>
      rw [QuestReference.emoteLoop]
      split
      · rename_i hanswers
        have hobj : Completes (.emote m) qr act obj := ⟨hanswers, trivial⟩
        have hmarked := h.markDone hobj
        have hact : qd.getAct (qr'.markDone obj).curAct = some act := by
          rw [curAct_markDone, h.curAct]
          exact h.current
        have hin' : InActs qd ((qr'.markDone obj).applyOutcome MAXOBJECTIVES (act.objective obj)
            obj) := by
          unfold InActs
          rw [hmarked.curAct]
          exact h.inActs
        dsimp only
        rw [hact]
        dsimp only
        rw [advanceAct_last hsize hin' (hmarked.curAct.trans hlast), ite_self]
        exact ih hmarked
      · exact ih h

/-- In the other acts the objectives behind the one that completes the act do not answer.
The induction is on the objectives that are left; what is complete so far was, or answered. -/
theorem emoteLoop_inner (hsize : qd.actCount < 2 ^ 15) {act : QuestAct} {m : Emote}
    (hfits : ∀ obj, (act.objective obj).answers m = true →
      (-1 < (act.objective obj).outcome ∨ ∀ b, (act.objective b).type ≠ .none →
        (b ≤ obj ∧ (act.objective b).answers m = true) ∨ qr.objComplete b = true) →
      ∀ later, obj < later → (act.objective later).answers m = false)
    (pre objectives : List (Fin MAXOBJECTIVES))
    (hlist : pre ++ objectives = List.finRange MAXOBJECTIVES) {qr' : QuestReference}
    (h : Marked qd (.emote m) qr act qr')
    (hplain : ∀ b, qr'.objComplete b = true →
      qr.objComplete b = true ∨ (b ∈ pre ∧ (act.objective b).answers m = true)) :
    ∃ qr'', QuestReference.emoteLoop qd act m objectives qr' = some qr'' ∧
      Conforms qd (.emote m) qr qr'' := by
  induction objectives generalizing pre qr' with
  | nil => exact ⟨qr', rfl, h.conforms⟩
  | cons obj rest ih =>
      have hsorted : (pre ++ obj :: rest).Pairwise (· < ·) :=
        hlist ▸ List.pairwise_lt_finRange MAXOBJECTIVES
      obtain ⟨-, hright, hcross⟩ := List.pairwise_append.mp hsorted
      have hbefore (b : Fin MAXOBJECTIVES) (hb : b ∈ pre) : b ≤ obj :=
        (hcross b hb obj List.mem_cons_self).le
      have hnext : (pre ++ [obj]) ++ rest = List.finRange MAXOBJECTIVES := by
        rw [List.append_assoc, List.singleton_append, hlist]
      rw [QuestReference.emoteLoop]
      by_cases hanswers : (act.objective obj).answers m = true
      · rw [if_pos hanswers]
        have hobj : Completes (.emote m) qr act obj := ⟨hanswers, trivial⟩
        have hmarked := h.markDone hobj
        have hact : qd.getAct (qr'.markDone obj).curAct = some act := by
          rw [curAct_markDone, h.curAct]
          exact h.current
        have hmark (b : Fin MAXOBJECTIVES) (hb : (qr'.markDone obj).objComplete b = true) :
            qr.objComplete b = true ∨
              (b ∈ pre ++ [obj] ∧ (act.objective b).answers m = true) := by
          obtain rfl | hb := objComplete_markComplete hb
          · exact .inr ⟨by simp, hanswers⟩
          · exact (hplain b hb).imp_right fun hb => ⟨List.mem_append_left _ hb.1, hb.2⟩
        dsimp only
        rw [hact]
        dsimp only
        -- Once the act is complete no further objective answers.
        have hstop (hover : -1 < (act.objective obj).outcome ∨
            (qr'.markDone obj).checkCompletedAct act = true) :
            ∀ later ∈ rest, (act.objective later).answers m = false := by
          intro later hlater
          refine hfits obj hanswers (hover.imp_right ?_) later
            (List.rel_of_pairwise_cons hright hlater)
          intro hcompleted b hb
          obtain hb | ⟨hmem, hb⟩ := hmark b (checkCompletedAct_iff.mp hcompleted b hb)
          · exact .inr hb
          · refine .inl ⟨?_, hb⟩
            obtain hmem | hmem := List.mem_append.mp hmem
            · exact hbefore b hmem
            · exact (List.mem_singleton.mp hmem).le
        by_cases hout : -1 < (act.objective obj).outcome
        · rw [emoteLoop_of_not (hstop (.inl hout))]
          refine ⟨_, rfl, ?_⟩
          split
          · rename_i hcompleted
            exact hmarked.advance hsize fun _ => hmarked.done hcompleted
          · exact hmarked.conforms
        · have hsame : (qr'.markDone obj).applyOutcome MAXOBJECTIVES (act.objective obj) obj =
              qr'.markDone obj := if_neg hout
          rw [hsame] at hmarked ⊢
          by_cases hcompleted : (qr'.markDone obj).checkCompletedAct act = true
          · rw [if_pos hcompleted, emoteLoop_of_not (hstop (.inr hcompleted))]
            exact ⟨_, rfl, hmarked.advance hsize fun _ => hmarked.done hcompleted⟩
          · rw [if_neg hcompleted]
            exact ih (pre ++ [obj]) hnext hmarked hmark
      · rw [if_neg hanswers]
        exact ih (pre ++ [obj]) hnext h fun b hb =>
          (hplain b hb).imp_right fun hb => ⟨List.mem_append_left _ hb.1, hb.2⟩

theorem filterEmote_conforms (hsize : qd.actCount < 2 ^ 15) (hin : InActs qd qr) {m : Emote}
    (hfits : Fits qd qr (.emote m)) :
    ∃ qr', qr.filterEmote qd m = some qr' ∧ Conforms qd (.emote m) qr qr' := by
  obtain ⟨act, hact⟩ := hin.exists_act
  have hsame : Marked qd (.emote m) qr act qr :=
    marked_of_flags hin hact rfl rfl fun _ => .inl
  unfold QuestReference.filterEmote
  rw [hact]
  obtain hlast | hinner := hfits
  · exact emoteLoop_last hsize hlast _ hsame
  · exact emoteLoop_inner hsize (hinner act hact) [] _ rfl hsame fun _ => .inl

end Functions

/-! ### The active quests -/

section Active

variable {defs : QuestDefinitionContainer} {e : QuestEvent} {s s' : List QuestReference}

/-- Every quest has an act, and an act after the last one has a number of 16 bits. -/
def Sized (defs : QuestDefinitionContainer) : Prop :=
  ∀ id qd, defs.getQuestDefPtrByID id = some qd → 0 < qd.actCount ∧ qd.actCount < 2 ^ 15

/-- The quest `CheckQuestTalk` is for. -/
def talkTarget (defs : QuestDefinitionContainer) (creatureDefID : Int) (s : List QuestReference) :
    Option (QuestReference × QuestDefinition) :=
  s.findSome? fun qr => (defs.getQuestDefPtrByID qr.questID).bind fun qd =>
    if qr.hasCreatureReturn qd creatureDefID = some true then some (qr, qd) else none

/-- When an event conforms for all quests it reaches. -/
def FitsAll (defs : QuestDefinitionContainer) (s : List QuestReference) (e : QuestEvent) : Prop :=
  match e with
  | .talk creatureDefID => ∀ t ∈ talkTarget defs creatureDefID s, Fits t.2 t.1 e
  | _ => ∀ qr ∈ s, ∀ qd ∈ defs.getQuestDefPtrByID qr.questID, Fits qd qr e

instance (qd : QuestDefinition) (qr : QuestReference) : ∀ e, Decidable (Fits qd qr e)
  | .objective .. => inferInstanceAs (Decidable (∀ act ∈ _, ∀ obj ∈ _, _ → _ ∧ _))
  | .travel _ => inferInstanceAs (Decidable True)
  | .talk _ => inferInstanceAs (Decidable (_ ∨ ∀ act ∈ _, ∀ _ : Fin _, _ → _ → _))
  | .emote _ => inferInstanceAs (Decidable (_ ∨ ∀ act ∈ _, ∀ _ : Fin _, _ → _ → ∀ _ : Fin _, _ → _))

instance (defs : QuestDefinitionContainer) (s : List QuestReference) :
    ∀ e, Decidable (FitsAll defs s e)
  | .talk _ => inferInstanceAs (Decidable (∀ t ∈ _, _))
  | .objective .. | .travel _ | .emote _ =>
      inferInstanceAs (Decidable (∀ qr ∈ s, ∀ qd ∈ _, Fits qd qr _))

/-- The quests whose definition is known are in one of their acts. -/
def AllInActs (defs : QuestDefinitionContainer) (s : List QuestReference) : Prop :=
  ∀ qr ∈ s, ∀ qd, defs.getQuestDefPtrByID qr.questID = some qd → InActs qd qr

/-- What one event may do to the active quests. -/
def AllConform (defs : QuestDefinitionContainer) (e : QuestEvent) (s s' : List QuestReference) :
    Prop :=
  s.Forall₂ (fun qr qr' => qr'.questID = qr.questID ∧
    ∀ qd, defs.getQuestDefPtrByID qr.questID = some qd → Conforms qd e qr qr') s'

/-- Quests that were just joined. -/
def Joined (s : List QuestReference) : Prop :=
  ∀ qr ∈ s, qr.curAct = 0 ∧ ∀ b, qr.objComplete b = false ∧ qr.objCounter b = 0

theorem AllInActs.of_cons {qr : QuestReference} (h : AllInActs defs (qr :: s)) :
    AllInActs defs s := fun qr' hqr' => h qr' (List.mem_cons_of_mem _ hqr')

theorem allConform_refl (h : AllInActs defs s) : AllConform defs e s s := by
  unfold AllConform
  rw [List.forall₂_same]
  exact fun qr hqr => ⟨rfl, fun qd hqd => conforms_refl (h qr hqr qd hqd)⟩

theorem allInActs_of_allConform (h : AllConform defs e s s') : AllInActs defs s' := by
  intro qr' hqr' qd hqd
  obtain ⟨i, hi⟩ := List.mem_iff_getElem?.mp hqr'
  obtain ⟨hlt', hget'⟩ := List.getElem?_eq_some_iff.mp hi
  have hlen : s.length = s'.length := h.length_eq
  obtain ⟨hid, hconforms⟩ := h.get (hlen ▸ hlt') hlt'
  simp only [List.get_eq_getElem, hget'] at hid hconforms
  exact (hconforms qd (hid ▸ hqd)).inActs

/-- A function that conforms for each quest conforms for all. -/
theorem eachQuest_conforms {f : QuestReference → QuestDefinition → Option QuestReference}
    (h : ∀ qr ∈ s, ∀ qd, defs.getQuestDefPtrByID qr.questID = some qd →
      ∃ qr', f qr qd = some qr' ∧ Conforms qd e qr qr') :
    ∃ s', eachQuest defs f s = some s' ∧ AllConform defs e s s' := by
  induction s with
  | nil => exact ⟨[], rfl, .nil⟩
  | cons qr rest ih =>
      obtain ⟨rest', hrest, hconform⟩ := ih fun qr' hqr' => h qr' (List.mem_cons_of_mem _ hqr')
      rw [eachQuest, hrest]
      cases hqd : defs.getQuestDefPtrByID qr.questID with
      | none => exact ⟨qr :: rest', rfl, .cons ⟨rfl, fun qd hqd' => by simp [hqd] at hqd'⟩ hconform⟩
      | some qd =>
          obtain ⟨qr', hf, hqr'⟩ := h qr List.mem_cons_self qd hqd
          refine ⟨qr' :: rest', by simp [hf], .cons ⟨hqr'.questID, ?_⟩ hconform⟩
          intro qd' hqd'
          rw [hqd, Option.some.injEq] at hqd'
          exact hqd' ▸ hqr'

/-- A talk is for one quest. -/
theorem talkLoop_conforms (hsized : Sized defs) (hin : AllInActs defs s) {creatureDefID : Int}
    (hfits : FitsAll defs s (.talk creatureDefID)) :
    ∃ s', talkLoop defs creatureDefID s = some s' ∧
      AllConform defs (.talk creatureDefID) s s' := by
  induction s with
  | nil => exact ⟨[], rfl, .nil⟩
  | cons qr rest ih =>
      have hhead : qr ∈ qr :: rest := List.mem_cons_self
      rw [talkLoop]
      cases hqd : defs.getQuestDefPtrByID qr.questID with
      | none =>
          obtain ⟨rest', hrest, hconform⟩ := ih hin.of_cons fun t ht =>
            hfits t (by rw [talkTarget, List.findSome?_cons, hqd]; exact ht)
          rw [hrest]
          exact ⟨qr :: rest', rfl, .cons ⟨rfl, fun qd hqd' => by simp [hqd] at hqd'⟩ hconform⟩
      | some qd =>
          have hqr := hin qr hhead qd hqd
          have hsize := (hsized _ qd hqd).2
          have hreturn : ∃ found, qr.hasCreatureReturn qd creatureDefID = some found := by
            obtain ⟨act, hact⟩ := hqr.exists_act
            have hlast : InActs qd { qr with curAct := qd.actCount - 1 } := by
              have hpos := (hsized _ qd hqd).1
              constructor <;> dsimp only <;> omega
            obtain ⟨last, hlast⟩ := hlast.exists_act
            unfold QuestReference.hasCreatureReturn
            rw [hact, hlast]
            split <;> exact ⟨_, rfl⟩
          obtain ⟨found, hfound⟩ := hreturn
          dsimp only
          rw [hfound]
          cases found with
          | false =>
              obtain ⟨rest', hrest, hconform⟩ := ih hin.of_cons fun t ht =>
                hfits t (by
                  rw [talkTarget, List.findSome?_cons, hqd, Option.bind_some, hfound,
                    if_neg (by simp)]
                  exact ht)
              rw [hrest]
              refine ⟨qr :: rest', rfl, .cons ⟨rfl, ?_⟩ hconform⟩
              intro qd' hqd'
              rw [hqd, Option.some.injEq] at hqd'
              exact hqd' ▸ conforms_refl hqr
          | true =>
              have htarget : talkTarget defs creatureDefID (qr :: rest) = some (qr, qd) := by
                rw [talkTarget, List.findSome?_cons, hqd]
                simp [hfound]
              obtain ⟨qr', htalk, hqr'⟩ :=
                checkQuestTalk_conforms hsize hqr (hfits (qr, qd) htarget)
              refine ⟨qr' :: rest, by simp [htalk], .cons ⟨hqr'.questID, ?_⟩ ?_⟩
              · intro qd' hqd'
                rw [hqd, Option.some.injEq] at hqd'
                exact hqd' ▸ hqr'
              · exact allConform_refl hin.of_cons

theorem questStep_conforms (hsized : Sized defs) (hin : AllInActs defs s)
    (hfits : FitsAll defs s e) :
    ∃ s', questStep defs s e = some s' ∧ AllConform defs e s s' := by
  cases e with
  | objective type targetCDefID =>
      apply eachQuest_conforms
      intro qr hqr qd hqd
      refine ⟨_, rfl, ?_⟩
      split
      · exact conforms_refl (hin qr hqr qd hqd)
      · exact checkQuestObjective_conforms (hsized _ qd hqd).2 (hin qr hqr qd hqd)
          (hfits qr hqr qd hqd)
  | travel l =>
      apply eachQuest_conforms
      intro qr hqr qd hqd
      exact checkTravelLocation_conforms (hsized _ qd hqd).2 (hin qr hqr qd hqd) l
  | talk creatureDefID => exact talkLoop_conforms hsized hin hfits
  | emote m =>
      apply eachQuest_conforms
      intro qr hqr qd hqd
      exact filterEmote_conforms (hsized _ qd hqd).2 (hin qr hqr qd hqd) (hfits qr hqr qd hqd)

/-- In a run of events that fit, from quests just joined, every quest stays in its acts and
the next event that fits conforms. -/
theorem run_conforms (hsized : Sized defs) {h : List (List QuestReference × QuestEvent)}
    (run : Trace Joined (FitsAll defs) (questStep defs) h s) :
    AllInActs defs s ∧ ∀ e, FitsAll defs s e →
      ∃ s', questStep defs s e = some s' ∧ AllConform defs e s s' := by
  have hin : AllInActs defs s := by
    have hreach : Reach Joined (FitsAll defs) (questStep defs) s := ⟨h, run⟩
    refine hreach.invariant ?_ ?_
    · intro s hjoined qr hqr qd hqd
      have hcur := (hjoined qr hqr).1
      have hpos := (hsized _ qd hqd).1
      constructor <;> omega
    · intro s e s' hin hfits hs
      obtain ⟨t, ht, hconform⟩ := questStep_conforms hsized hin hfits
      rw [hs, Option.some.injEq] at ht
      exact allInActs_of_allConform (ht ▸ hconform)
  exact ⟨hin, fun e hfits => questStep_conforms hsized hin hfits⟩

end Active

/-! A quest to greet somebody by waving, in one of two ways, and then to kill a bandit; and one to
kill a bandit and to wave, and then to kill another. -/

def wave (outcome : Int) : QuestObjective where
  type := .emote
  data1 := [0, 0, 0, 5]
  data2 := 10
  activateText := "wave"
  outcome := outcome

def bandit : QuestObjective := { type := .kill, data1 := [50], data2 := 1 }

def greeting : QuestDefinition where
  questID := 7
  actList := [⟨![wave 1, wave 2, {}, {}]⟩, ⟨![bandit, bandit, {}, {}]⟩]

def ambush : QuestDefinition where
  questID := 8
  actList := [⟨![bandit, wave (-1), {}, {}]⟩, ⟨![bandit, {}, {}, {}]⟩]

/-- One quest, under its ID. -/
def QuestDefinitionContainer.single (qd : QuestDefinition) : QuestDefinitionContainer where
  getQuestDefPtrByID := fun id => if id = qd.questID then some qd else none
  keyed := by
    intro id qd' h
    rw [Option.ite_none_right_eq_some, Option.some.injEq] at h
    rw [h.1, ← h.2]

def greetingDefs : QuestDefinitionContainer := .single greeting

/-- After the bandit and the wave the second act has begun. -/
def ambushed : List QuestReference :=
  (runAll (questStep (.single ambush)) [{ questID := 8 }]
    [.objective .kill 50, .emote ⟨"wave", 0, 0, 5⟩]).getD []

theorem run_conforms_ambushed : ambushed.map QuestReference.curAct = [1] ∧
    AllInActs (.single ambush) ambushed ∧ ∀ e, FitsAll (.single ambush) ambushed e →
      ∃ s', questStep (.single ambush) ambushed e = some s' ∧
        AllConform (.single ambush) e ambushed s' := by
  have hsized : Sized (.single ambush) := by
    intro id qd h
    have hqd : (if id = 8 then some ambush else none) = some qd := h
    rw [Option.ite_none_right_eq_some, Option.some.injEq] at hqd
    rw [← hqd.2]
    decide
  have start : Trace Joined (FitsAll (.single ambush)) (questStep (.single ambush)) []
      [{ questID := 8 }] := by
    apply Trace.start
    intro qr hqr
    rw [List.mem_singleton.mp hqr]
    exact ⟨rfl, fun _ => ⟨rfl, rfl⟩⟩
  have hsome : runAll (questStep (.single ambush)) [{ questID := 8 }]
      [.objective .kill 50, .emote ⟨"wave", 0, 0, 5⟩] = some ambushed := eq_some_getD (by decide) []
  exact ⟨by decide, run_conforms hsized (start.runAll (by decide) hsome)⟩

/-- One wave answers both objectives of the first act: the second one is then marked in the
act with the bandits. -/
theorem wave_marks_next_act :
    ∃ h s e s', Trace Joined (fun _ _ => True) (questStep greetingDefs) h s ∧
      questStep greetingDefs s e = some s' ∧ ¬AllConform greetingDefs e s s' := by
  have start : Trace Joined (fun _ _ => True) (questStep greetingDefs) [] [{ questID := 7 }] := by
    apply Trace.start
    intro qr hqr
    rw [List.mem_singleton.mp hqr]
    exact ⟨rfl, fun _ => ⟨rfl, rfl⟩⟩
  refine ⟨_, _, .emote ⟨"wave", 0, 0, 5⟩, _, start, eq_some_getD (by decide) [], ?_⟩
  intro hconform
  have hnext : ((questStep greetingDefs [{ questID := 7 }] (.emote ⟨"wave", 0, 0, 5⟩)).getD []).map
      (fun qr => (qr.curAct, qr.objComplete 1)) = [(1, true)] := by
    decide
  obtain ⟨qr', rest, ⟨-, hquest⟩, -, hlist⟩ := List.forall₂_cons_left_iff.mp hconform
  rw [hlist, List.map_cons, List.cons.injEq, Prod.mk.injEq] at hnext
  obtain ⟨⟨hact, hmarked⟩, -⟩ := hnext
  have hclear := (hquest greeting rfl).clear (by rw [hact]; decide) 1
  rw [hmarked] at hclear
  exact absurd hclear.1 (by decide)

end Iceee.Quest
