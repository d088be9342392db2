import Iceee.Lib.Neighbours
import Iceee.Quest.Journal

/-!
# Cleaning up a loaded quest list

`RemoveInvalidEntries` erases the entries that cannot be used one by one, and then drops the entries
whose quest is that of the entry before. The sort that would bring equal quests together does
nothing.

## Main results

* `removeInvalidEntries_iff`: every quest is left once exactly where its entries stood together.
-/

namespace Iceee.Quest

open Lib

variable (defs : QuestDefinitionContainer)

/-- `TestInvalid`. -/
def QuestReference.testInvalid (qr : QuestReference) : Bool :=
  match defs.getQuestDefPtrByID qr.questID with
  | none => true
  | some qdef => qr.curAct < 0 ∨ (qdef.actList.length : Int) ≤ qr.curAct

namespace QuestReferenceContainer

/-- `GetInvalidEntry`. -/
def getInvalidEntry (itemList : QuestReferenceContainer) : Option Nat :=
  itemList.findIdx? (·.testInvalid defs)

/-- `RemoveIndex`. -/
def removeIndex (itemList : QuestReferenceContainer) (index : Nat) : QuestReferenceContainer :=
  if itemList.length ≤ index then itemList else itemList.eraseIdx index

theorem length_removeIndex_lt {itemList : QuestReferenceContainer} {index : Nat}
    (h : getInvalidEntry defs itemList = some index) :
    (removeIndex itemList index).length < itemList.length := by
  obtain ⟨hlt, -⟩ := List.findIdx?_eq_some_iff_getElem.mp h
  unfold removeIndex
  rw [if_neg (not_le.mpr hlt), List.length_eraseIdx_of_lt hlt]
  omega

/-- The loop of `RemoveInvalidEntries`. -/
def removeInvalidLoop (itemList : QuestReferenceContainer) : QuestReferenceContainer :=
  match _h : getInvalidEntry defs itemList with
  | some index => removeInvalidLoop (removeIndex itemList index)
  | none => itemList
termination_by itemList.length
decreasing_by
  exact length_removeIndex_lt defs _h

/-- `testEquivalenceByQuestID`. -/
def testEquivalenceByQuestID (a b : QuestReference) : Bool := a.questID = b.questID

/-- `RemoveInvalidEntries`; `std::unique` compares with the entry that was kept last. -/
def removeInvalidEntries (itemList : QuestReferenceContainer) : QuestReferenceContainer :=
  (removeInvalidLoop defs itemList).destutter fun a b => ¬testEquivalenceByQuestID a b

/-- Every quest with an entry that can be used is left once, and nothing else is. -/
structure Cleaned (itemList left : QuestReferenceContainer) : Prop where
  once : (left.map QuestReference.questID).Nodup
  all : ∀ qr ∈ itemList, ¬qr.testInvalid defs → ∃ qr' ∈ left, qr'.questID = qr.questID
  only : ∀ qr ∈ left, qr ∈ itemList ∧ ¬qr.testInvalid defs

/-- The entries that can be used. -/
def valid (itemList : QuestReferenceContainer) : QuestReferenceContainer :=
  itemList.filter fun qr => !qr.testInvalid defs

section

variable {defs} {itemList : QuestReferenceContainer}

/-- Without the entry that was found, the same entries can be used. -/
theorem valid_removeIndex {index : Nat} (h : getInvalidEntry defs itemList = some index) :
    valid defs (removeIndex itemList index) = valid defs itemList := by
  obtain ⟨hlt, hinvalid, -⟩ := List.findIdx?_eq_some_iff_getElem.mp h
  have hsplit : itemList = itemList.take index ++ itemList[index] :: itemList.drop (index + 1) := by
    rw [List.getElem_cons_drop, List.take_append_drop]
  unfold removeIndex valid
  rw [if_neg (not_le.mpr hlt), List.eraseIdx_eq_take_drop_succ]
  conv_rhs => rw [hsplit]
  rw [List.filter_append, List.filter_append, List.filter_cons_of_neg (by simp [hinvalid])]

/-- The loop leaves the entries that can be used. -/
theorem removeInvalidLoop_eq (itemList : QuestReferenceContainer) :
    removeInvalidLoop defs itemList = valid defs itemList := by
  fun_induction removeInvalidLoop defs itemList with
  | case1 itemList index h ih => exact ih.trans (valid_removeIndex h)
  | case2 itemList h =>
      have hall := List.findIdx?_eq_none_iff.mp h
      exact (List.filter_eq_self.mpr fun qr hqr => by simp [hall qr hqr]).symm

/-- Of the entries that can be used, those are left whose quest is not that of the entry before. -/
theorem map_removeInvalidEntries (itemList : QuestReferenceContainer) :
    (removeInvalidEntries defs itemList).map QuestReference.questID =
      ((valid defs itemList).map QuestReference.questID).destutter (· ≠ ·) := by
  unfold removeInvalidEntries
  rw [removeInvalidLoop_eq]
  refine List.map_destutter fun a _ b _ => ?_
  simp [testEquivalenceByQuestID]

theorem removeInvalidEntries_sublist (itemList : QuestReferenceContainer) :
    (removeInvalidEntries defs itemList).Sublist (valid defs itemList) := by
  unfold removeInvalidEntries
  rw [removeInvalidLoop_eq]
  exact List.destutter_sublist _ _

/-- The list is cleaned exactly where the entries of each quest that can be used stood together. -/
theorem removeInvalidEntries_iff (itemList : QuestReferenceContainer) :
    Cleaned defs itemList (removeInvalidEntries defs itemList) ↔
      Grouped ((valid defs itemList).map QuestReference.questID) := by
  have hmap := @map_removeInvalidEntries defs itemList
  constructor
  · intro h
    exact nodup_destutter_iff.mp (hmap ▸ h.once)
  · intro h
    refine ⟨?_, ?_, ?_⟩
    · rw [hmap]
      exact nodup_destutter_iff.mpr h
    · intro qr hqr hvalid
      have hmem : qr ∈ valid defs itemList := List.mem_filter.mpr ⟨hqr, by simpa using hvalid⟩
      have hleft : qr.questID ∈
          (removeInvalidEntries defs itemList).map QuestReference.questID := by
        rw [hmap, mem_destutter_ne]
        exact List.mem_map_of_mem hmem
      exact List.mem_map.mp hleft
    · intro qr hqr
      have hmem := (removeInvalidEntries_sublist itemList).subset hqr
      simpa [valid] using hmem

end

/-- Two quests of one act. -/
def pairOfQuests : QuestDefinitionContainer where
  getQuestDefPtrByID id :=
    if id = 1 ∨ id = 2 then some { questID := id, actList := [{}] } else none
  keyed id qd h := by
    split at h
    · exact (Option.some.inj h) ▸ rfl
    · cases h

/-- A quest that comes again after another one is left twice. -/
theorem removeInvalidEntries_twice :
    ¬Cleaned pairOfQuests [{ questID := 1 }, { questID := 2 }, { questID := 1 }]
      (removeInvalidEntries pairOfQuests
        [{ questID := 1 }, { questID := 2 }, { questID := 1 }]) := by
  intro h
  exact absurd h.once (by decide +kernel)

end QuestReferenceContainer

end Iceee.Quest
