import Iceee.Cluster.Faithful

/-!
# Lists in the cluster

`ListValue` of the writer puts a separator in front of a piece only when the text it has so
far is not empty. Empty pieces at the front leave the text empty and are lost.
-/

namespace Iceee

open Lib

theorem valueOf_listValue (w : ClusterEntityWriter) (key : String) (pieces : List Text) :
    valueOf (w.listValue key pieces).mStringValues w.mSection key = some (joinEscaped pieces) := by
  unfold ClusterEntityWriter.listValue ClusterEntityWriter.value
  rw [valueOf_append]
  simp [valueOf]

/-- A list is read back from the section it was written in, whatever else is written with it
and whatever the store had before, exactly when its first element is not empty. -/
theorem listValue_eq_iff (w : ClusterEntityWriter) (client : Client) (key : String)
    (pieces : List Text) (later : List ClusterEntityStringValue)
    (hlater : valueOf later w.mSection key = none) :
    ClusterEntityReader.listValue { key := w.key, mSection := w.mSection }
        (ClusterEntityWriter.finish
          { key := w.key, mSection := w.mSection,
            mStringValues := (w.listValue key pieces).mStringValues ++ later } client) key =
      pieces ↔ pieces.head? ≠ some [] := by
  have hval : valueOf ((w.listValue key pieces).mStringValues ++ later) w.mSection key =
      some (joinEscaped pieces) := by
    rw [valueOf_append, hlater, Option.none_or, valueOf_listValue]
  have hsec : ∃ v ∈ (w.listValue key pieces).mStringValues ++ later,
      EntityKey.sectionName v.sec = EntityKey.sectionName w.mSection := by
    by_contra hnone
    rw [ClusterEntityWriter.valueOf_eq_none hnone] at hval
    simp at hval
  unfold ClusterEntityReader.listValue
  rw [ClusterEntityReader.value_eq (ClusterEntityReader.fresh_new _ _ _),
    ClusterEntityWriter.field_finish_of_mem _ _ hsec, hval]
  exact parseEscaped_joinEscaped_iff pieces

/-- The theorem at a list with commas, backslashes and an empty element behind. -/
theorem listValue_eq_iff_names :
    ClusterEntityReader.listValue { key := ⟨"Clan", "7"⟩, mSection := "" }
        (ClusterEntityWriter.finish
          { key := ⟨"Clan", "7"⟩, mSection := "",
            mStringValues :=
              ((ClusterEntityWriter.mk ⟨"Clan", "7"⟩ "" []).listValue "Members"
                [['a', ',', '\\'], [], ['b']]).mStringValues ++ [⟨"", "Name", ['x']⟩] } {})
        "Members" = [['a', ',', '\\'], [], ['b']] ↔
      [['a', ',', '\\'], [], ['b']].head? ≠ some [] :=
  listValue_eq_iff (ClusterEntityWriter.mk ⟨"Clan", "7"⟩ "" []) {} "Members"
    [['a', ',', '\\'], [], ['b']] [⟨"", "Name", ['x']⟩] (by decide)

/-- The empty name in front is lost. -/
theorem leading_empty_element_lost :
    ClusterEntityReader.listValue { key := ⟨"Clan", "7"⟩, mSection := "" }
        (ClusterEntityWriter.finish
          ((ClusterEntityWriter.mk ⟨"Clan", "7"⟩ "" []).listValue "Members" [[], ['a']]) {})
        "Members" ≠ [[], ['a']] := by
  decide

end Iceee
