import Iceee.Lib.Text

/-!
# Splitting and joining texts

`Util::Split` searches for the whole delimiter and goes on one character after the start of what it
found. With a delimiter of several characters the rest of it ends up in the next piece.
-/

namespace Iceee.Util

open Lib

/-- `std::string::find` for a delimiter that is not empty. -/
def find (delim : Text) : Text → Option Nat
  | [] => none
  | c :: t => if delim <+: c :: t then some 0 else (find delim t).map (· + 1)

theorem find_lt {delim source : Text} {fpos : Nat} (h : find delim source = some fpos) :
    fpos < source.length := by
  induction source generalizing fpos with
  | nil => cases h
  | cons c t ih =>
      unfold find at h
      split at h
      · obtain rfl := Option.some.inj h
        exact Nat.zero_lt_succ _
      · obtain ⟨i, hi, rfl⟩ := Option.map_eq_some_iff.mp h
        exact Nat.succ_lt_succ (ih hi)

/-- `Split`, of what is left of the source from `pos` on. -/
def split (source delim : Text) : List Text :=
  match h : find delim source with
  | some fpos => source.take fpos :: split (source.drop (fpos + 1)) delim
  | none => [source]
termination_by source.length
decreasing_by
  have hlt := find_lt h
  rw [List.length_drop]
  omega

/-- `Join`. -/
def join (src : List Text) (delim : Text) : Text := delim.intercalate src

/-! ### Where a delimiter is found -/

section Find

variable {delim source : Text} {fpos : Nat}

theorem find_prefix (h : find delim source = some fpos) : delim <+: source.drop fpos := by
  induction source generalizing fpos with
  | nil => cases h
  | cons c t ih =>
      unfold find at h
      split at h
      · rename_i hhere
        obtain rfl := Option.some.inj h
        exact hhere
      · obtain ⟨i, hi, rfl⟩ := Option.map_eq_some_iff.mp h
        exact ih hi

/-- A delimiter that is not empty is found where it occurs. -/
theorem find_eq_none_iff (hd : delim ≠ []) : find delim source = none ↔ ¬delim <:+: source := by
  induction source with
  | nil => simpa [find] using hd
  | cons c t ih =>
      rw [List.infix_cons_iff, find]
      split
      · rename_i hhere
        simp [hhere]
      · rename_i hlater
        rw [Option.map_eq_none_iff, ih]
        simp [hlater]

/-- What is found of a single character comes after none of it. -/
theorem notMem_take_of_find {c : Char} (h : find [c] source = some fpos) :
    c ∉ source.take fpos := by
  induction source generalizing fpos with
  | nil => cases h
  | cons d t ih =>
      unfold find at h
      split at h
      · obtain rfl := Option.some.inj h
        exact List.not_mem_nil
      · rename_i hhere
        obtain ⟨i, hi, rfl⟩ := Option.map_eq_some_iff.mp h
        rw [List.take_succ_cons, List.mem_cons, not_or]
        refine ⟨?_, ih hi⟩
        rintro rfl
        exact hhere (List.cons_prefix_cons.mpr ⟨rfl, List.nil_prefix⟩)

end Find

/-! ### What is split and joined -/

theorem split_of_find {source delim : Text} {fpos : Nat} (h : find delim source = some fpos) :
    split source delim = source.take fpos :: split (source.drop (fpos + 1)) delim := by
  rw [split]
  split
  · rename_i i hi
    obtain rfl := Option.some.inj (h.symm.trans hi)
    rfl
  · rename_i hnone
    rw [hnone] at h
    cases h

theorem split_of_find_none {source delim : Text} (h : find delim source = none) :
    split source delim = [source] := by
  rw [split]
  split
  · rename_i i hi
    rw [h] at hi
    cases hi
  · rfl

@[simp] theorem split_nil (delim : Text) : split [] delim = [[]] := split_of_find_none rfl

theorem split_ne_nil (source delim : Text) : split source delim ≠ [] := by
  rw [split]
  split <;> exact List.cons_ne_nil _ _

@[simp] theorem join_singleton (x delim : Text) : join [x] delim = x := List.intercalate_singleton

theorem join_cons {l : List Text} (hl : l ≠ []) (x delim : Text) :
    join (x :: l) delim = x ++ (delim ++ join l delim) := by
  obtain ⟨y, rest, rfl⟩ := List.exists_cons_of_ne_nil hl
  unfold join
  rw [List.intercalate_cons_cons, List.append_assoc]

theorem join_ne_nil {x : Text} (hx : x ≠ []) (l : List Text) (delim : Text) :
    join (x :: l) delim ≠ [] := by
  rcases eq_or_ne l [] with rfl | hl
  · rwa [join_singleton]
  · rw [join_cons hl]
    exact List.append_ne_nil_of_left_ne_nil hx _

/-- What is joined again is longer by all but one of the characters of each delimiter. -/
theorem length_join_split (source delim : Text) :
    (join (split source delim) delim).length + ((split source delim).length - 1) =
      source.length + ((split source delim).length - 1) * delim.length := by
  induction hn : source.length using Nat.strong_induction_on generalizing source with
  | _ n ih =>
      cases hfind : find delim source with
      | none =>
          rw [split_of_find_none hfind, join_singleton]
          simp [hn]
      | some fpos =>
          have hlt := find_lt hfind
          have hrest := ih (source.drop (fpos + 1)).length
            (by rw [List.length_drop]; omega) (source.drop (fpos + 1)) rfl
          have hne := split_ne_nil (source.drop (fpos + 1)) delim
          have hpos := List.length_pos_iff.mpr hne
          rw [split_of_find hfind, join_cons hne]
          rw [List.length_drop] at hrest
          simp only [List.length_append, List.length_take, List.length_cons]
          obtain ⟨k, hk⟩ := Nat.exists_eq_add_of_lt hpos
          rw [hk] at hrest ⊢
          simp only [Nat.zero_add, Nat.add_sub_cancel] at hrest ⊢
          rw [Nat.add_mul, Nat.one_mul, Nat.min_eq_left hlt.le]
          omega

/-- With a delimiter of one character the source is split at each place of that character. -/
theorem split_singleton (source : Text) (c : Char) : split source [c] = source.splitOn c := by
  induction hn : source.length using Nat.strong_induction_on generalizing source with
  | _ n ih =>
      cases hfind : find [c] source with
      | none =>
          have hnot : c ∉ source := by
            intro hmem
            have hinfix := (find_eq_none_iff (List.cons_ne_nil c [])).mp hfind
            exact hinfix ((List.singleton_infix_iff c _).mpr hmem)
          rw [split_of_find_none hfind, List.splitOn_eq_singleton hnot]
      | some fpos =>
          have hlt := find_lt hfind
          have hrest := ih (source.drop (fpos + 1)).length
            (by rw [List.length_drop]; omega) (source.drop (fpos + 1)) rfl
          have hsource : source = source.take fpos ++ c :: source.drop (fpos + 1) := by
            obtain ⟨post, hpost⟩ := find_prefix hfind
            have hdrop : source.drop (fpos + 1) = post := by
              rw [← List.drop_drop, ← hpost]
              rfl
            rw [hdrop]
            exact ((List.take_append_drop fpos source).symm.trans (by rw [← hpost]; rfl))
          rw [split_of_find hfind, hrest]
          conv_rhs => rw [hsource]
          exact (List.splitOn_append_cons_self_of_not_mem (notMem_take_of_find hfind) _).symm

/-- The pieces are parts of the source. -/
theorem infix_of_mem_split {source delim part : Text} (hpart : part ∈ split source delim) :
    part <:+: source := by
  induction hn : source.length using Nat.strong_induction_on generalizing source with
  | _ n ih =>
      cases hfind : find delim source with
      | none =>
          rw [split_of_find_none hfind, List.mem_singleton] at hpart
          exact hpart ▸ List.infix_rfl
      | some fpos =>
          have hlt := find_lt hfind
          rw [split_of_find hfind, List.mem_cons] at hpart
          rcases hpart with rfl | hpart
          · exact (List.take_prefix fpos source).isInfix
          · exact (ih _ (by rw [List.length_drop]; omega) hpart rfl).trans
              (List.drop_suffix (fpos + 1) source).isInfix

/-- A delimiter of one character is in no piece. -/
theorem notMem_of_mem_split {source part : Text} {c : Char} (hpart : part ∈ split source [c]) :
    c ∉ part := by
  induction hn : source.length using Nat.strong_induction_on generalizing source with
  | _ n ih =>
      cases hfind : find [c] source with
      | none =>
          have hnot := (find_eq_none_iff (List.cons_ne_nil c [])).mp hfind
          rw [split_of_find_none hfind, List.mem_singleton] at hpart
          rw [hpart]
          exact fun hmem => hnot ((List.singleton_infix_iff c _).mpr hmem)
      | some fpos =>
          have hlt := find_lt hfind
          rw [split_of_find hfind, List.mem_cons] at hpart
          rcases hpart with rfl | hpart
          · exact notMem_take_of_find hfind
          · exact ih _ (by rw [List.length_drop]; omega) hpart rfl

/-- Joining what was split gives the source back exactly for a delimiter of one character, or one
that does not occur. -/
theorem join_split_iff {delim : Text} (hd : delim ≠ []) (source : Text) :
    join (split source delim) delim = source ↔ delim.length = 1 ∨ ¬delim <:+: source := by
  constructor
  · intro heq
    have hlength := length_join_split source delim
    rw [heq, Nat.add_left_cancel_iff] at hlength
    rcases Nat.eq_zero_or_pos ((split source delim).length - 1) with hzero | hpos
    · refine .inr fun hinfix => ?_
      have hfound := mt (find_eq_none_iff hd).mp (not_not.mpr hinfix)
      obtain ⟨fpos, hfind⟩ := Option.ne_none_iff_exists'.mp hfound
      have hrest := List.length_pos_iff.mpr (split_ne_nil (source.drop (fpos + 1)) delim)
      rw [split_of_find hfind, List.length_cons] at hzero
      omega
    · exact .inl (Nat.eq_of_mul_eq_mul_left hpos (hlength.symm.trans (Nat.mul_one _).symm))
  · rintro (hone | hnot)
    · obtain ⟨c, rfl⟩ := List.length_eq_one_iff.mp hone
      rw [split_singleton]
      exact List.intercalate_splitOn c
    · rw [split_of_find_none ((find_eq_none_iff hd).mpr hnot), join_singleton]

/-- Splitting what was joined of pieces without the delimiter gives them back exactly for a
delimiter of one character, or a single piece. -/
theorem split_join_iff {delim : Text} (hd : delim ≠ []) {l : List Text} (hl : l ≠ [])
    (hfree : ∀ x ∈ l, ¬delim <:+: x) :
    split (join l delim) delim = l ↔ delim.length = 1 ∨ l.length = 1 := by
  constructor
  · intro heq
    have hagain : join (split (join l delim) delim) delim = join l delim := by rw [heq]
    refine ((join_split_iff hd _).mp hagain).imp_right fun hnot => ?_
    by_contra hmany
    obtain ⟨x, rest, rfl⟩ := List.exists_cons_of_ne_nil hl
    have hrest : rest ≠ [] := by
      rintro rfl
      exact hmany rfl
    exact hnot ⟨x, join rest delim, by rw [join_cons hrest, List.append_assoc]⟩
  · rintro (hone | hone)
    · obtain ⟨c, rfl⟩ := List.length_eq_one_iff.mp hone
      rw [split_singleton]
      exact List.splitOn_intercalate c
        (fun x hx hmem => hfree x hx ((List.singleton_infix_iff c _).mpr hmem)) hl
    · obtain ⟨x, rfl⟩ := List.length_eq_one_iff.mp hone
      have hnot := hfree x List.mem_cons_self
      rw [join_singleton, split_of_find_none ((find_eq_none_iff hd).mpr hnot)]

/-- When `Split` and `Join` are inverse to each other. -/
theorem split_join_inverse_iff {delim : Text} (hd : delim ≠ []) {l : List Text} (hl : l ≠ [])
    (hfree : ∀ x ∈ l, ¬delim <:+: x) (source : Text) :
    (split (join l delim) delim = l ↔ delim.length = 1 ∨ l.length = 1) ∧
      (join (split source delim) delim = source ↔ delim.length = 1 ∨ ¬delim <:+: source) :=
  ⟨split_join_iff hd hl hfree, join_split_iff hd source⟩

/-- A delimiter of one character and two pieces. -/
theorem split_join_witness :
    (split (join ["a".toList, "b".toList] "|".toList) "|".toList = ["a".toList, "b".toList] ↔
        "|".toList.length = 1 ∨ ["a".toList, "b".toList].length = 1) ∧
      (join (split "a|b".toList "|".toList) "|".toList = "a|b".toList ↔
        "|".toList.length = 1 ∨ ¬"|".toList <:+: "a|b".toList) :=
  split_join_inverse_iff (by decide) (by decide) (by decide) _

/-- The second colon is left in front of the second piece. -/
theorem split_join_colons :
    split (join ["x".toList, "y".toList] "::".toList) "::".toList ≠ ["x".toList, "y".toList] ∧
      join (split "x::y".toList "::".toList) "::".toList ≠ "x::y".toList := by
  constructor <;> decide +kernel

example : split "x::y".toList "::".toList = ["x".toList, ":y".toList] := by decide +kernel

end Iceee.Util
