import Iceee.Lib.Machine
import Iceee.Util.ConfigString
import Iceee.Util.Split
import Iceee.VirtualItem.RollStats

/-!
# The modifiers of a virtual item

The modifiers are a text of pairs, `stat=amount&stat=amount`, in which a stat may have several
amounts. `MergeStats` adds them up.

## Main results

* `pairsOf_mergeStats`: the merged text has the merged pairs.
* `amountOf_mergeLists`: a stat has the sum of its amounts.
-/

namespace Iceee.VirtualItem

open Lib Util
open Util.ConfigString (modifyOrAppend filter_modifyOrAppend filter_modifyOrAppend_of_ne
  forall_mem_modifyOrAppend)

/-- The loop over the pairs: pieces without a `=` are passed over. -/
def pairsOf (mods : Text) : List (Text × Text) :=
  (split mods ['&']).filterMap fun piece =>
    match split piece ['='] with
    | key :: value :: _ => some (key, value)
    | _ => none

/-- The amounts of a stat. -/
def amounts (pairs : List (Text × Text)) (stat : Text) : List Int :=
  (pairs.filter (·.1 == stat)).map fun pair => atoi pair.2

/-- Add one pair to the merged ones. -/
def mergePair (merged : List (Text × Text)) (pair : Text × Text) : List (Text × Text) :=
  modifyOrAppend (·.1 == pair.1)
    (fun entry => (entry.1, printInt (wrap32 (atoi entry.2 + atoi pair.2)))) pair merged

/-- The keys and the values that `MergeStats` collects. -/
def mergeLists (output input : List (Text × Text)) : List (Text × Text) :=
  input.foldl mergePair output

/-- The text of a list of pairs. -/
def textOf (pairs : List (Text × Text)) : Text :=
  join (pairs.map fun pair => pair.1 ++ ['='] ++ pair.2) ['&']

/-- `MergeStats`. -/
def mergeStats (input output : Text) : Text :=
  textOf (mergeLists (pairsOf output) (pairsOf input))

/-- The amount that stands for a stat in a list of pairs. -/
def amountOf (pairs : List (Text × Text)) (stat : Text) : Int :=
  ((pairs.find? (·.1 == stat)).map fun pair => atoi pair.2).getD 0

/-! ### Texts of pairs -/

/-- Neither part has a delimiter in it. -/
def Plain (pair : Text × Text) : Prop :=
  ('&' ∉ pair.1 ∧ '=' ∉ pair.1) ∧ '&' ∉ pair.2 ∧ '=' ∉ pair.2

theorem split_join_char {pieces : List Text} {c : Char} (hne : pieces ≠ [])
    (hfree : ∀ piece ∈ pieces, c ∉ piece) : split (join pieces [c]) [c] = pieces := by
  rw [split_singleton, join]
  exact List.splitOn_intercalate c hfree hne

theorem plain_of_mem_pairsOf {mods : Text} {pair : Text × Text} (h : pair ∈ pairsOf mods) :
    Plain pair := by
  obtain ⟨piece, hpiece, hpair⟩ := List.mem_filterMap.mp h
  have hamp : '&' ∉ piece := notMem_of_mem_split hpiece
  split at hpair
  · next key value rest hsplit =>
      obtain rfl := Option.some.inj hpair
      have hpart (part : Text) (hpart : part ∈ split piece ['=']) : '&' ∉ part ∧ '=' ∉ part :=
        ⟨fun hmem => hamp ((infix_of_mem_split hpart).subset hmem), notMem_of_mem_split hpart⟩
      exact ⟨hpart key (by rw [hsplit]; simp), hpart value (by rw [hsplit]; simp)⟩
  · cases hpair

theorem notMem_printInt {c : Char} (hdigit : c.isDigit = false) (hminus : c ≠ '-') (i : Int) :
    c ∉ printInt i := by
  intro h
  rcases mem_printInt h with hc | hc
  · rw [hdigit] at hc
    cases hc
  · exact hminus hc

theorem split_pair {pair : Text × Text} (h : Plain pair) :
    split (pair.1 ++ ['='] ++ pair.2) ['='] = [pair.1, pair.2] := by
  have hjoin : pair.1 ++ ['='] ++ pair.2 = join [pair.1, pair.2] ['='] := by
    rw [join_cons (List.cons_ne_nil _ _), join_singleton, List.append_assoc]
  rw [hjoin, split_join_char (List.cons_ne_nil _ _)]
  simpa using ⟨h.1.2, h.2.2⟩

/-- A text of plain pairs has these pairs. -/
theorem pairsOf_textOf {pairs : List (Text × Text)} (h : ∀ pair ∈ pairs, Plain pair) :
    pairsOf (textOf pairs) = pairs := by
  cases pairs with
  | nil =>
      rw [show textOf [] = [] from rfl, pairsOf, split_of_find_none rfl]
      simp [split_of_find_none (show find ['='] [] = none from rfl)]
  | cons first rest =>
      rw [pairsOf, textOf, split_join_char (by simp)]
      · rw [List.filterMap_map]
        calc (first :: rest).filterMap _ = (first :: rest).filterMap some :=
              List.filterMap_congr fun pair hpair => by
                simp only [Function.comp_apply, split_pair (h pair hpair)]
          _ = first :: rest := List.filterMap_some
      · refine List.forall_mem_map.mpr fun pair hpair => ?_
        have hplain := h pair hpair
        simpa using ⟨hplain.1.1, hplain.2.1⟩

theorem pairsOf_nil : pairsOf [] = [] := @pairsOf_textOf [] (by simp)

theorem pairsOf_append (output t : Text) :
    pairsOf (output ++ ['&'] ++ t) = pairsOf output ++ pairsOf t := by
  have hsplit : split (output ++ ['&'] ++ t) ['&'] = split output ['&'] ++ split t ['&'] := by
    rw [split_singleton, split_singleton, split_singleton, List.append_assoc,
      List.singleton_append, List.splitOn_append_cons_self]
  rw [pairsOf, hsplit, List.filterMap_append]
  rfl

/-- An amount that is appended is read behind the others. -/
theorem pairsOf_appendStat {stat : Text} (hamp : '&' ∉ stat) (heq : '=' ∉ stat) (output : Text)
    (value : Int) :
    pairsOf (appendStat output stat value) = pairsOf output ++ [(stat, printInt value)] := by
  have hplain : ∀ pair ∈ [(stat, printInt value)], Plain pair := by
    simpa using ⟨⟨hamp, heq⟩, notMem_printInt (by decide) (by decide) value,
      notMem_printInt (by decide) (by decide) value⟩
  have htext : textOf [(stat, printInt value)] = stat ++ ['='] ++ printInt value :=
    join_singleton _ _
  have hpair : pairsOf (stat ++ ['='] ++ printInt value) = [(stat, printInt value)] := by
    rw [← htext, pairsOf_textOf hplain]
  by_cases hempty : output = []
  · subst hempty
    rw [pairsOf_nil, List.nil_append, ← hpair]
    rfl
  · rw [appendStat, if_neg hempty, ← hpair, ← pairsOf_append]
    simp only [List.append_assoc]

/-! ### Merged pairs -/

theorem plain_mergeLists {output input : List (Text × Text)}
    (houtput : ∀ pair ∈ output, Plain pair) (hinput : ∀ pair ∈ input, Plain pair) :
    ∀ pair ∈ mergeLists output input, Plain pair := by
  induction input generalizing output with
  | nil => exact houtput
  | cons pair input ih =>
      obtain ⟨hpair, hinput⟩ := List.forall_mem_cons.mp hinput
      refine ih (forall_mem_modifyOrAppend houtput (fun entry hentry => ?_) hpair) hinput
      exact ⟨hentry.1, notMem_printInt (by decide) (by decide) _,
        notMem_printInt (by decide) (by decide) _⟩

/-- `MergeStats` writes the pairs that it has collected. -/
theorem pairsOf_mergeStats (input output : Text) :
    pairsOf (mergeStats input output) = mergeLists (pairsOf output) (pairsOf input) :=
  pairsOf_textOf (plain_mergeLists (fun _ => plain_of_mem_pairsOf) fun _ => plain_of_mem_pairsOf)

section Merge

variable (merged : List (Text × Text)) (pair : Text × Text)

theorem filter_mergePair_self : (mergePair merged pair).filter (·.1 == pair.1) =
    if merged.filter (·.1 == pair.1) = [] then [pair]
    else (merged.filter (·.1 == pair.1)).modifyHead fun entry =>
      (entry.1, printInt (wrap32 (atoi entry.2 + atoi pair.2))) := by
  rw [mergePair, filter_modifyOrAppend]
  · exact fun _ => rfl
  · exact beq_self_eq_true _

theorem filter_mergePair_of_ne {stat : Text} (h : pair.1 ≠ stat) :
    (mergePair merged pair).filter (·.1 == stat) = merged.filter (·.1 == stat) := by
  rw [mergePair, filter_modifyOrAppend_of_ne]
  · intro entry hentry
    rw [eq_of_beq hentry]
    exact beq_false_of_ne h
  · exact fun _ => rfl
  · exact beq_self_eq_true _

end Merge

theorem amounts_append (pairs more : List (Text × Text)) (stat : Text) :
    amounts (pairs ++ more) stat = amounts pairs stat ++ amounts more stat := by
  rw [amounts, List.filter_append, List.map_append]
  rfl

/-- The amounts that were appended are the amounts of the text. -/
theorem amounts_appendStats (stat : Text) {rolled : List (Text × Int)}
    (hrolled : ∀ pair ∈ rolled, ('&' ∉ pair.1 ∧ '=' ∉ pair.1) ∧ InInt32 pair.2) (output : Text) :
    amounts (pairsOf (appendStats output rolled)) stat =
      amounts (pairsOf output) stat ++ (rolled.filter (·.1 == stat)).map Prod.snd := by
  induction rolled generalizing output with
  | nil => simp [appendStats]
  | cons pair rolled ih =>
      obtain ⟨⟨⟨hamp, heq⟩, hint⟩, hrest⟩ := List.forall_mem_cons.mp hrolled
      have hcons : appendStats output (pair :: rolled) =
          appendStats (appendStat output pair.1 pair.2) rolled := rfl
      have hone : amounts [(pair.1, printInt pair.2)] stat =
          ([pair].filter (·.1 == stat)).map Prod.snd := by
        by_cases hstat : pair.1 = stat
        · simp [amounts, hstat, atoi_printInt hint]
        · simp [amounts, hstat]
      rw [hcons, ih hrest, pairsOf_appendStat hamp heq, amounts_append, hone, List.append_assoc,
        ← List.map_append, ← List.filter_append, List.singleton_append]

/-- A stat is merged into one entry, with the sum of its amounts. -/
theorem filter_mergeLists (pairs : List (Text × Text)) (stat : Text) :
    (amounts pairs stat = [] ∧ (mergeLists [] pairs).filter (·.1 == stat) = []) ∨
      ∃ value, (mergeLists [] pairs).filter (·.1 == stat) = [(stat, value)] ∧
        atoi value = wrap32 (amounts pairs stat).sum := by
  induction pairs using List.reverseRecOn with
  | nil => exact .inl ⟨rfl, rfl⟩
  | append_singleton pairs pair ih =>
      have hlast : mergeLists [] (pairs ++ [pair]) = mergePair (mergeLists [] pairs) pair := by
        rw [mergeLists, List.foldl_append]
        rfl
      rw [hlast, amounts_append]
      by_cases hstat : pair.1 = stat
      · subst hstat
        have hone : amounts [pair] pair.1 = [atoi pair.2] := by simp [amounts]
        rw [hone, filter_mergePair_self]
        rcases ih with ⟨hnone, hempty⟩ | ⟨value, hentry, hvalue⟩
        · refine .inr ⟨pair.2, by rw [if_pos hempty], ?_⟩
          rw [hnone, List.nil_append, List.sum_singleton, wrap32_eq (atoi_inInt32 _)]
        · refine .inr ⟨printInt (wrap32 (atoi value + atoi pair.2)), ?_, ?_⟩
          · rw [hentry, if_neg (List.cons_ne_nil _ _)]
            rfl
          · rw [atoi_printInt (wrap32_inInt32 _), hvalue, wrap32_add_wrap32, List.sum_append,
              List.sum_singleton]
      · have hnone : amounts [pair] stat = [] := by simp [amounts, hstat]
        rw [hnone, List.append_nil, filter_mergePair_of_ne _ _ hstat]
        exact ih

/-- Merged, a stat has the sum of its amounts. -/
theorem amountOf_mergeLists (pairs : List (Text × Text)) (stat : Text) :
    amountOf (mergeLists [] pairs) stat = wrap32 (amounts pairs stat).sum := by
  rw [amountOf, ← List.head?_filter]
  rcases filter_mergeLists pairs stat with ⟨hnone, hempty⟩ | ⟨value, hentry, hvalue⟩
  · rw [hempty, hnone]
    rfl
  · rw [hentry]
    exact hvalue

end Iceee.VirtualItem
