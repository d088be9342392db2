import Iceee.Quest.Journal

/-!
# Where a quest is

Every operation keeps the three lists free of duplicates and apart from each other, and a
quest that does not repeat stays in one of them. `Good` says so of one operation; the
operations are then joined by `Good.trans`.
-/

namespace Iceee.Quest

open Lib

variable {defs : QuestDefinitionContainer} {j j' : QuestJournal}

/-- The list has a reference to the quest. -/
def Has (itemList : QuestReferenceContainer) (questID : Int) : Prop :=
  questID ∈ itemList.map QuestReference.questID

namespace QuestReferenceContainer

variable {itemList : QuestReferenceContainer} {questID : Int}

theorem isSome_hasQuestID : (itemList.hasQuestID questID).isSome ↔ Has itemList questID := by
  unfold hasQuestID Has
  rw [List.find?_isSome]
  simp

theorem isNone_hasQuestID : (itemList.hasQuestID questID).isNone ↔ ¬Has itemList questID := by
  rw [← isSome_hasQuestID, Option.not_isSome_iff_eq_none, Option.isNone_iff_eq_none]

theorem has_of_hasQuestID {item : QuestReference} (h : itemList.hasQuestID questID = some item) :
    item.questID = questID ∧ Has itemList questID := by
  constructor
  · simpa using List.find?_some h
  · rw [← isSome_hasQuestID, h]
    rfl

theorem has_append {item : QuestReference} {id : Int} :
    Has (itemList ++ [item]) id ↔ Has itemList id ∨ id = item.questID := by
  simp [Has]

theorem map_removeQuestID (itemList : QuestReferenceContainer) (questID : Int) :
    (itemList.removeQuestID questID).map QuestReference.questID =
      (itemList.map QuestReference.questID).erase questID := by
  unfold removeQuestID
  induction itemList with
  | nil => rfl
  | cons qr rest ih =>
      by_cases h : qr.questID = questID
      · rw [List.eraseP_cons_of_pos (by simpa using h), List.map_cons, h, List.erase_cons_head]
      · rw [List.eraseP_cons_of_neg (by simpa using h), List.map_cons, List.map_cons,
          List.erase_cons_tail (by simpa using h), ih]

theorem has_removeQuestID (h : NodupKeys QuestReference.questID itemList) {id : Int} :
    Has (itemList.removeQuestID questID) id ↔ Has itemList id ∧ id ≠ questID := by
  unfold Has
  rw [map_removeQuestID, List.Nodup.mem_erase_iff h, and_comm]

theorem nodupKeys_removeQuestID (h : NodupKeys QuestReference.questID itemList) :
    NodupKeys QuestReference.questID (itemList.removeQuestID questID) :=
  h.sublist List.eraseP_sublist

theorem nodupKeys_append {item : QuestReference} (h : NodupKeys QuestReference.questID itemList)
    (hnew : ¬Has itemList item.questID) :
    NodupKeys QuestReference.questID (itemList ++ [item]) := by
  rw [nodupKeys_append_singleton]
  refine ⟨h, ?_⟩
  intro qr hqr heq
  exact hnew (heq ▸ List.mem_map_of_mem hqr)

end QuestReferenceContainer

open QuestReferenceContainer

/-- A quest with the `Repeat` flag. -/
def Repeating (defs : QuestDefinitionContainer) (questID : Int) : Prop :=
  ∃ qdef ∈ defs.getQuestDefPtrByID questID, qdef.repeats = true

/-- A quest without the flag. -/
def NonRepeating (defs : QuestDefinitionContainer) (questID : Int) : Prop :=
  ∃ qdef ∈ defs.getQuestDefPtrByID questID, qdef.repeats = false

theorem NonRepeating.not_repeating {questID : Int} (h : NonRepeating defs questID) :
    ¬Repeating defs questID := by
  obtain ⟨qdef, hqdef, hfalse⟩ := h
  rintro ⟨qdef', hqdef', htrue⟩
  rw [Option.mem_unique hqdef hqdef', htrue] at hfalse
  exact absurd hfalse (by decide)

/-- The quest is in one of the three lists. -/
def Listed (j : QuestJournal) (questID : Int) : Prop :=
  Has j.availableQuests questID ∨ Has j.activeQuests questID ∨ Has j.completedQuests questID

/-- No list has a quest twice, no quest is active and completed, and a quest that does not
repeat is in one list at most. -/
structure Partitioned (defs : QuestDefinitionContainer) (j : QuestJournal) : Prop where
  available : NodupKeys QuestReference.questID j.availableQuests
  active : NodupKeys QuestReference.questID j.activeQuests
  completed : NodupKeys QuestReference.questID j.completedQuests
  disjoint : ∀ id, Has j.activeQuests id → ¬Has j.completedQuests id
  one : ∀ id, ¬Repeating defs id → Has j.availableQuests id →
    ¬Has j.activeQuests id ∧ ¬Has j.completedQuests id

/-- What the operations rely on besides: only quests that do not repeat are completed. -/
structure Inv (defs : QuestDefinitionContainer) (j : QuestJournal) : Prop
    extends Partitioned defs j where
  once : ∀ id, Has j.completedQuests id → NonRepeating defs id

/-- The invariant after an operation, which lost no quest that does not repeat. -/
structure Good (defs : QuestDefinitionContainer) (j j' : QuestJournal) : Prop where
  inv : Inv defs j'
  kept : ∀ id, NonRepeating defs id → Listed j id → Listed j' id

theorem Good.refl (h : Inv defs j) : Good defs j j := ⟨h, fun _ _ hl => hl⟩

theorem Good.trans {j'' : QuestJournal} (h : Good defs j j') (h' : Good defs j' j'') :
    Good defs j j'' :=
  ⟨h'.inv, fun id hid hl => h'.kept id hid (h.kept id hid hl)⟩

theorem inv_empty : Inv defs {} := by
  constructor
  · constructor <;> simp [NodupKeys, Has]
  · simp [Has]

theorem addPendingQuest_good (h : Inv defs j) (newItem : QuestReference) :
    Good defs j (j.addPendingQuest defs newItem) := by
  unfold QuestJournal.addPendingQuest
  by_cases hcompleted : (j.completedQuests.hasQuestID newItem.questID).isSome
  · rw [if_pos hcompleted]
    exact .refl h
  rw [if_neg hcompleted]
  rw [isSome_hasQuestID] at hcompleted
  split
  · exact .refl h
  rename_i hactive
  by_cases havailable : (j.availableQuests.hasQuestID newItem.questID).isSome
  · rw [if_pos havailable]
    exact .refl h
  rw [if_neg havailable]
  rw [isSome_hasQuestID] at hactive havailable
  -- An active quest is added only when it repeats.
  have hfree : ¬Repeating defs newItem.questID → ¬Has j.activeQuests newItem.questID := by
    intro hrepeat hhas
    refine hactive ⟨hhas, ?_⟩
    intro qdef hqdef
    rw [Bool.eq_false_iff]
    intro htrue
    exact hrepeat ⟨qdef, hqdef, htrue⟩
  constructor
  · constructor
    · constructor
      · exact nodupKeys_append h.available havailable
      · exact h.active
      · exact h.completed
      · exact h.disjoint
      · intro id hid hhas
        obtain hhas | rfl := has_append.mp hhas
        · exact h.one id hid hhas
        · exact ⟨hfree hid, hcompleted⟩
    · exact h.once
  · intro id _ hl
    exact hl.imp_left fun hhas => has_append.mpr (.inl hhas)

theorem questJoin_good (h : Inv defs j) (questID : Int) :
    Good defs j (j.questJoin defs questID) := by
  unfold QuestJournal.questJoin
  by_cases hcompleted : (j.completedQuests.hasQuestID questID).isSome
  · rw [if_pos hcompleted]
    exact .refl h
  by_cases hactive : (j.activeQuests.hasQuestID questID).isSome
  · rw [if_neg hcompleted, if_pos hactive]
    exact .refl h
  rw [if_neg hcompleted, if_neg hactive]
  rw [isSome_hasQuestID] at hcompleted hactive
  cases hitem : j.availableQuests.hasQuestID questID with
  | none => exact .refl h
  | some item =>
      obtain ⟨rfl, havailable⟩ := has_of_hasQuestID hitem
      -- What stays available was available, and a quest that does not repeat leaves.
      have hstays (id : Int) : Has (if ∃ qDef ∈ defs.getQuestDefPtrByID item.questID,
          qDef.repeats = true then j.availableQuests
          else j.availableQuests.removeQuestID item.questID) id →
          Has j.availableQuests id ∧ (¬Repeating defs id → id ≠ item.questID) := by
        intro hhas
        split at hhas
        · rename_i hrepeat
          refine ⟨hhas, ?_⟩
          rintro hid rfl
          exact hid hrepeat
        · obtain ⟨hhas, hne⟩ := (has_removeQuestID h.available).mp hhas
          exact ⟨hhas, fun _ => hne⟩
      constructor
      · constructor
        · constructor
          · dsimp only
            split
            · exact h.available
            · exact nodupKeys_removeQuestID h.available
          · exact nodupKeys_append h.active hactive
          · exact h.completed
          · intro id hhas
            obtain hhas | rfl := has_append.mp hhas
            · exact h.disjoint id hhas
            · exact hcompleted
          · intro id hid hhas
            obtain ⟨hhas, hne⟩ := hstays id hhas
            obtain ⟨hnactive, hncompleted⟩ := h.one id hid hhas
            refine ⟨?_, hncompleted⟩
            intro hhas'
            obtain hhas' | heq := has_append.mp hhas'
            · exact hnactive hhas'
            · exact hne hid heq
        · exact h.once
      · rintro id - (hhas | hhas | hhas)
        · by_cases heq : id = item.questID
          · exact .inr (.inl (has_append.mpr (.inr heq)))
          · refine .inl ?_
            dsimp only
            split
            · exact hhas
            · exact (has_removeQuestID h.available).mpr ⟨hhas, heq⟩
        · exact .inr (.inl (has_append.mpr (.inl hhas)))
        · exact .inr (.inr hhas)

/-- Delaying a quest moves none. -/
theorem Good.delayed (h : Good defs j j') (delayedRepeat : List QuestRepeatDelay) :
    Good defs j { j' with delayedRepeat } :=
  ⟨⟨h.inv.toPartitioned.rec fun a b c d e => ⟨a, b, c, d, e⟩, h.inv.once⟩, h.kept⟩

/-- An active quest that repeats leaves the active ones. -/
theorem drop_good (h : Inv defs j) {questID : Int} (hrepeats : ¬NonRepeating defs questID) :
    Good defs j { j with activeQuests := j.activeQuests.removeQuestID questID } := by
  have hleaves (id : Int) :
      Has (j.activeQuests.removeQuestID questID) id ↔ Has j.activeQuests id ∧ id ≠ questID :=
    has_removeQuestID h.active
  constructor
  · constructor
    · constructor
      · exact h.available
      · exact nodupKeys_removeQuestID h.active
      · exact h.completed
      · intro id hhas
        exact h.disjoint id ((hleaves id).mp hhas).1
      · intro id hid hhas
        obtain ⟨hnactive, hncompleted⟩ := h.one id hid hhas
        exact ⟨fun hhas' => hnactive ((hleaves id).mp hhas').1, hncompleted⟩
    · exact h.once
  · rintro id hid (hhas | hhas | hhas)
    · exact .inl hhas
    · refine .inr (.inl ((hleaves id).mpr ⟨hhas, ?_⟩))
      rintro rfl
      exact hrepeats hid
    · exact .inr (.inr hhas)

/-- An active quest becomes completed, or is only finished when it repeats. -/
theorem finish_good (h : Inv defs j) {item : QuestReference}
    (hitem : j.activeQuests.hasQuestID item.questID = some item) {qdef : QuestDefinition}
    (hqdef : defs.getQuestDefPtrByID item.questID = some qdef) :
    Good defs j
      { j with
        completedQuests :=
          if qdef.repeats then j.completedQuests else j.completedQuests ++ [item]
        activeQuests := j.activeQuests.removeQuestID item.questID } := by
  obtain ⟨-, hactive⟩ := has_of_hasQuestID hitem
  have hleaves (id : Int) :
      Has (j.activeQuests.removeQuestID item.questID) id ↔
        Has j.activeQuests id ∧ id ≠ item.questID := has_removeQuestID h.active
  by_cases hrepeat : qdef.repeats = true
  · simp only [hrepeat, if_true]
    exact drop_good h fun hid => hid.not_repeating ⟨qdef, hqdef, hrepeat⟩
  · have hnon : NonRepeating defs item.questID := ⟨qdef, hqdef, Bool.eq_false_iff.mpr hrepeat⟩
    rw [if_neg hrepeat]
    constructor
    · constructor
      · constructor
        · exact h.available
        · exact nodupKeys_removeQuestID h.active
        · exact nodupKeys_append h.completed (h.disjoint _ hactive)
        · intro id hhas hhas'
          obtain ⟨hhas, hne⟩ := (hleaves id).mp hhas
          obtain hhas' | heq := has_append.mp hhas'
          · exact h.disjoint id hhas hhas'
          · exact hne heq
        · intro id hid hhas
          obtain ⟨hnactive, hncompleted⟩ := h.one id hid hhas
          refine ⟨fun hhas' => hnactive ((hleaves id).mp hhas').1, ?_⟩
          intro hhas'
          obtain hhas' | rfl := has_append.mp hhas'
          · exact hncompleted hhas'
          · exact hnactive hactive
      · intro id hhas
        obtain hhas | rfl := has_append.mp hhas
        · exact h.once id hhas
        · exact hnon
    · rintro id - (hhas | hhas | hhas)
      · exact .inl hhas
      · by_cases heq : id = item.questID
        · exact .inr (.inr (has_append.mpr (.inr heq)))
        · exact .inr (.inl ((hleaves id).mpr ⟨hhas, heq⟩))
      · exact .inr (.inr (has_append.mpr (.inl hhas)))

theorem questComplete_good (h : Inv defs j) (now : Nat) (questID : Int) :
    Good defs j (j.questComplete defs now questID) := by
  unfold QuestJournal.questComplete
  cases hitem : j.activeQuests.hasQuestID questID with
  | none => exact .refl h
  | some item =>
      obtain ⟨rfl, -⟩ := has_of_hasQuestID hitem
      dsimp only
      cases hqdef : defs.getQuestDefPtrByID item.questID with
      | none => exact .refl h
      | some qdef =>
          have hfinish := finish_good h hitem hqdef
          dsimp only
          by_cases hrepeat : qdef.repeats = true
          · simp only [hrepeat, if_true] at hfinish ⊢
            exact hfinish
          · simp only [hrepeat, Bool.false_eq_true, if_false] at hfinish ⊢
            split
            · exact hfinish.delayed _
            · exact hfinish

theorem questLeave_good (h : Inv defs j) (questID : Int) :
    Good defs j (j.questLeave defs questID) := by
  unfold QuestJournal.questLeave
  cases hitem : j.activeQuests.hasQuestID questID with
  | none => exact .refl h
  | some item =>
      obtain ⟨rfl, hactive⟩ := has_of_hasQuestID hitem
      have hleaves (id : Int) :
          Has (j.activeQuests.removeQuestID item.questID) id ↔
            Has j.activeQuests id ∧ id ≠ item.questID := has_removeQuestID h.active
      by_cases hnon : NonRepeating defs item.questID
      · have hcond : ∃ qDef ∈ defs.getQuestDefPtrByID item.questID, qDef.repeats = false := hnon
        simp only [hcond, if_true]
        have hout : ¬Has j.availableQuests item.questID := fun hhas =>
          (h.one _ hnon.not_repeating hhas).1 hactive
        constructor
        · constructor
          · constructor
            · exact nodupKeys_append h.available hout
            · exact nodupKeys_removeQuestID h.active
            · exact h.completed
            · intro id hhas
              exact h.disjoint id ((hleaves id).mp hhas).1
            · intro id hid hhas
              obtain hhas | rfl := has_append.mp hhas
              · obtain ⟨hnactive, hncompleted⟩ := h.one id hid hhas
                exact ⟨fun hhas' => hnactive ((hleaves id).mp hhas').1, hncompleted⟩
              · exact ⟨fun hhas' => ((hleaves _).mp hhas').2 rfl, h.disjoint _ hactive⟩
          · exact h.once
        · rintro id - (hhas | hhas | hhas)
          · exact .inl (has_append.mpr (.inl hhas))
          · by_cases heq : id = item.questID
            · exact .inl (has_append.mpr (.inr heq))
            · exact .inr (.inl ((hleaves id).mpr ⟨hhas, heq⟩))
          · exact .inr (.inr hhas)
      · have hcond : ¬∃ qDef ∈ defs.getQuestDefPtrByID item.questID, qDef.repeats = false := hnon
        simp only [hcond, if_false]
        exact drop_good h hnon

/-- A completed quest becomes available, in a list `available` that has it once more, and
leaves the completed ones. -/
theorem restore_good (h : Inv defs j) {questID : Int}
    {available completed : QuestReferenceContainer}
    (havailable : NodupKeys QuestReference.questID available)
    (hhasAvailable : ∀ id, Has available id → Has j.availableQuests id ∨
      id = questID ∧ ¬Has j.activeQuests questID)
    (hstays : ∀ id, Has j.availableQuests id → Has available id)
    (hcomes : NonRepeating defs questID → Has available questID ∨ Has j.activeQuests questID)
    (hcompleted : NodupKeys QuestReference.questID completed)
    (hhasCompleted : ∀ id, Has completed id ↔ Has j.completedQuests id ∧ id ≠ questID) :
    Good defs j { j with availableQuests := available, completedQuests := completed } := by
  constructor
  · constructor
    · constructor
      · exact havailable
      · exact h.active
      · exact hcompleted
      · intro id hhas hhas'
        exact h.disjoint id hhas ((hhasCompleted id).mp hhas').1
      · intro id hid hhas
        obtain hhas | ⟨rfl, hnactive⟩ := hhasAvailable id hhas
        · obtain ⟨hnactive, hncompleted⟩ := h.one id hid hhas
          exact ⟨hnactive, fun hhas' => hncompleted ((hhasCompleted id).mp hhas').1⟩
        · exact ⟨hnactive, fun hhas' => ((hhasCompleted _).mp hhas').2 rfl⟩
    · intro id hhas
      exact h.once id ((hhasCompleted id).mp hhas).1
  · rintro id hid (hhas | hhas | hhas)
    · exact .inl (hstays id hhas)
    · exact .inr (.inl hhas)
    · by_cases heq : id = questID
      · subst heq
        exact (hcomes hid).imp_right .inl
      · exact .inr (.inr ((hhasCompleted id).mpr ⟨hhas, heq⟩))

theorem clearCompleted_good (h : Inv defs j) (questID : Int) :
    Good defs j (j.clearCompleted defs questID) := by
  unfold QuestJournal.clearCompleted
  cases hitem : j.completedQuests.hasQuestID questID with
  | none => exact .refl h
  | some item =>
      obtain ⟨rfl, hcompleted⟩ := has_of_hasQuestID hitem
      have hnon := h.once _ hcompleted
      have hdef : (defs.getQuestDefPtrByID item.questID).isSome := by
        obtain ⟨qdef, hqdef, -⟩ := hnon
        rw [Option.mem_def.mp hqdef]
        rfl
      dsimp only
      rw [if_pos hdef]
      apply restore_good h
      · apply nodupKeys_append h.available
        intro hhas
        exact (h.one _ hnon.not_repeating hhas).2 hcompleted
      · intro id hhas
        refine (has_append.mp hhas).imp_right ?_
        rintro rfl
        exact ⟨rfl, fun hhas' => h.disjoint _ hhas' hcompleted⟩
      · intro id hhas
        exact has_append.mpr (.inl hhas)
      · intro _
        exact .inl (has_append.mpr (.inr rfl))
      · exact nodupKeys_removeQuestID h.completed
      · exact fun id => has_removeQuestID h.completed

theorem makeAvailable_of_free {questID : Int} (hactive : ¬Has j.activeQuests questID)
    (havailable : ¬Has j.availableQuests questID) :
    j.makeAvailable questID =
      { j with availableQuests := j.availableQuests ++ [{ questID }] } :=
  if_pos ⟨isNone_hasQuestID.mpr hactive, isNone_hasQuestID.mpr havailable⟩

theorem makeAvailable_of_busy {questID : Int}
    (h : Has j.availableQuests questID ∨ Has j.activeQuests questID) :
    j.makeAvailable questID = j := by
  unfold QuestJournal.makeAvailable
  apply if_neg
  rintro ⟨hactive, havailable⟩
  obtain h | h := h
  · exact isNone_hasQuestID.mp havailable h
  · exact isNone_hasQuestID.mp hactive h

theorem completedQuests_makeAvailable (j : QuestJournal) (questID : Int) :
    (j.makeAvailable questID).completedQuests = j.completedQuests := by
  unfold QuestJournal.makeAvailable
  split <;> rfl

/-- A known quest is made available and leaves the completed ones. -/
theorem makeAvailable_good (h : Inv defs j) (questID : Int) {completed : QuestReferenceContainer}
    (hcompleted : NodupKeys QuestReference.questID completed)
    (hhasCompleted : ∀ id, Has completed id ↔ Has j.completedQuests id ∧ id ≠ questID) :
    Good defs j { j.makeAvailable questID with completedQuests := completed } := by
  by_cases hbusy : Has j.availableQuests questID ∨ Has j.activeQuests questID
  · rw [makeAvailable_of_busy hbusy]
    exact restore_good h h.available (fun _ => .inl) (fun _ => id) (fun _ => hbusy) hcompleted
      hhasCompleted
  · rw [not_or] at hbusy
    rw [makeAvailable_of_free hbusy.2 hbusy.1]
    refine restore_good h ?_ ?_ ?_ ?_ hcompleted hhasCompleted
    · exact nodupKeys_append h.available hbusy.1
    · intro id hhas
      refine (has_append.mp hhas).imp_right ?_
      rintro rfl
      exact ⟨rfl, hbusy.2⟩
    · intro id hhas
      exact has_append.mpr (.inl hhas)
    · intro _
      exact .inl (has_append.mpr (.inr rfl))

theorem restoreQuest_good (h : Inv defs j) (questID : Int) :
    Good defs j (j.restoreQuest defs questID) := by
  unfold QuestJournal.restoreQuest
  cases defs.getQuestDefPtrByID questID with
  | none => exact .refl h
  | some qdef =>
      dsimp only
      rw [completedQuests_makeAvailable]
      exact makeAvailable_good h questID (nodupKeys_removeQuestID h.completed)
        fun id => has_removeQuestID h.completed

theorem checkDelays_good (now : Nat → Nat) (n : Nat) (delays : List QuestRepeatDelay)
    (h : Inv defs j) : Good defs j (QuestJournal.checkDelays defs now n delays j).1 := by
  induction delays generalizing n j with
  | nil => exact .refl h
  | cons delay rest ih =>
      rw [QuestJournal.checkDelays]
      split
      · have hrestore := restoreQuest_good h delay.questID
        exact hrestore.trans (ih (n + 1) hrestore.inv)
      · exact ih (n + 1) h

theorem checkRepeatDelay_good (h : Inv defs j) (now : Nat → Nat) :
    Good defs j (j.checkRepeatDelay defs now) :=
  (checkDelays_good now 0 j.delayedRepeat h).delayed _

/-- The entry between `pre` and `rest` is the only one with its ID. -/
theorem has_middle {pre rest : QuestReferenceContainer} {qr : QuestReference}
    (h : NodupKeys QuestReference.questID (pre ++ qr :: rest)) (id : Int) :
    Has (pre ++ rest) id ↔ Has (pre ++ qr :: rest) id ∧ id ≠ qr.questID := by
  unfold NodupKeys at h
  unfold Has
  rw [List.map_append, List.map_cons, List.nodup_middle, List.nodup_cons] at h
  rw [List.map_append, List.map_append, List.map_cons, List.perm_middle.mem_iff, List.mem_cons]
  constructor
  · intro hmem
    refine ⟨.inr hmem, ?_⟩
    rintro rfl
    exact h.1 hmem
  · rintro ⟨heq | hmem, hne⟩
    · exact absurd heq hne
    · exact hmem

theorem removeOld_good (rest : List QuestReference) (j : QuestJournal)
    (pre : QuestReferenceContainer) (h : Inv defs { j with completedQuests := pre ++ rest }) :
    Good defs { j with completedQuests := pre ++ rest }
      { (QuestJournal.removeOld defs rest j).1 with
        completedQuests := pre ++ (QuestJournal.removeOld defs rest j).2 } := by
  induction rest generalizing j pre with
  | nil => exact .refl h
  | cons qr rest ih =>
      rw [QuestJournal.removeOld]
      by_cases hdel : j.delThis defs qr.questID = true
      · rw [if_pos hdel]
        have hcompleted : Has (pre ++ qr :: rest) qr.questID := by simp [Has]
        have hdef : (defs.getQuestDefPtrByID qr.questID).isSome := by
          obtain ⟨qdef, hqdef, -⟩ := h.once _ hcompleted
          rw [Option.mem_def.mp hqdef]
          rfl
        rw [if_pos hdef]
        have hmove := makeAvailable_good h qr.questID
          (h.completed.sublist ((List.sublist_cons_self qr rest).append_left pre))
          (has_middle h.completed)
        have hsame : ({ ({ j with completedQuests := pre ++ qr :: rest } : QuestJournal).makeAvailable
              qr.questID with completedQuests := pre ++ rest } : QuestJournal) =
            { j.makeAvailable qr.questID with completedQuests := pre ++ rest } := by
          unfold QuestJournal.makeAvailable
          dsimp only
          split <;> rfl
        rw [hsame] at hmove
        exact hmove.trans (ih (j.makeAvailable qr.questID) pre hmove.inv)
      · rw [if_neg hdel]
        have hrest := ih j (pre ++ [qr])
        rw [List.append_assoc, List.singleton_append] at hrest
        have hkept := hrest h
        rw [List.append_assoc, List.singleton_append] at hkept
        exact hkept

theorem journalStep_good (h : Inv defs j) (e : JournalEvent) :
    Good defs j (journalStep defs j e) := by
  cases e with
  | addPendingQuest newItem => exact addPendingQuest_good h newItem
  | questJoin questID => exact questJoin_good h questID
  | questComplete now questID => exact questComplete_good h now questID
  | questLeave questID => exact questLeave_good h questID
  | questClear questID =>
      have hleave := questLeave_good h questID
      exact hleave.trans (clearCompleted_good hleave.inv questID)
  | checkRepeatDelay now => exact checkRepeatDelay_good h now
  | removeOldRepeatQuests => exact removeOld_good j.completedQuests j [] h

/-- The journal after some operations on an empty one. -/
def journalAfter (defs : QuestDefinitionContainer) (events : List JournalEvent) : QuestJournal :=
  events.foldl (journalStep defs) {}

/-- After any operations on an empty journal the three lists are free of duplicates, no quest
is active and completed, a quest that does not repeat is in one list at most, and the next
operation loses none of these. -/
theorem partitioned_journalAfter (defs : QuestDefinitionContainer) (events : List JournalEvent) :
    Partitioned defs (journalAfter defs events) ∧
      ∀ e id, NonRepeating defs id → Listed (journalAfter defs events) id →
        Listed (journalStep defs (journalAfter defs events) e) id := by
  have hinv : Inv defs (journalAfter defs events) := by
    induction events using List.reverseRecOn with
    | nil => exact inv_empty
    | append_singleton events e ih =>
        unfold journalAfter at ih ⊢
        rw [List.foldl_append]
        exact (journalStep_good ih e).inv
  exact ⟨hinv.toPartitioned, fun e => (journalStep_good hinv e).kept⟩

/-- Joining a quest, leaving it and joining it again. -/
example : ((journalAfter ⟨fun id => if id = 7 then some { questID := 7 } else none, by
      intro id qd h
      split at h
      · rename_i heq
        rw [heq, ← Option.some.inj h]
      · cases h⟩
    [.addPendingQuest { questID := 7 }, .questJoin 7, .questLeave 7, .questJoin 7]).activeQuests.map
      QuestReference.questID) = [7] := by
  decide

end Iceee.Quest
