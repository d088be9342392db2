import Iceee.Reader.Line

/-!
# Lines are broken exactly

What is to hold of a line that is broken: only entries of the tables are written, the blocks are in
the line and in order, none but the rest of the line has a delimiter in it, and the block after the
last one is there and is empty.

## Main results

* `breakUntilLoop_spec`, `breakLoop_spec`: what the loops leave behind.
* `breaking_exact_iff`: when each function does what is to hold.
-/

namespace Iceee.Reader

open Lib

/-! ### What is to hold -/

/-- The number of blocks of a text that is broken at its delimiters, up to one that stops. -/
def blockCount (del : Text) (stops : Char → Bool) : Text → ℕ
  | [] => 0
  | c :: rest =>
      if c ∈ del then
        if stops c then 1 + min 1 rest.length else 1 + blockCount del stops rest
      else max 1 (blockCount del stops rest)

/-- The characters of a block. -/
def slice (text : Text) (start length : ℕ) : Text := (text.drop start).take length

/-- A text is broken exactly; the block that has the rest may have delimiters in it. -/
structure Exact (text del : Text) (rest : ℕ → Prop) (r : ℕ × Blocks) : Prop where
  bounds : ∀ i ∈ r.2.written, i < BLOCKCOUNT
  inside : ∀ i < r.1, r.2.BlockPos i + r.2.BlockLen i ≤ text.length
  ordered : ∀ i j, i < j → j < r.1 → r.2.BlockPos i + r.2.BlockLen i ≤ r.2.BlockPos j
  clean : ∀ i < r.1, ¬rest i → ∀ c ∈ slice text (r.2.BlockPos i) (r.2.BlockLen i), c ∉ del
  last : r.1 < BLOCKCOUNT ∧ r.2.BlockLen r.1 = 0

/-- A block that stands behind a delimiter that stops. -/
def AfterStop (text : Text) (final : Char) (r : ℕ × Blocks) (i : ℕ) : Prop :=
  ∃ p, r.2.BlockPos i = p + 1 ∧ text[p]? = some final

/-! ### The next delimiter -/

section Strpbrk

variable {text del : Text} {start cpos : ℕ}

theorem strpbrk_clean (h : strpbrk text start del = some cpos) :
    ∀ c ∈ slice text start (cpos - start), c ∉ del := by
  obtain ⟨i, hi, rfl⟩ := Option.map_eq_some_iff.mp h
  obtain ⟨hlt, -, hbefore⟩ := List.findIdx?_eq_some_iff_getElem.mp hi
  intro c hc
  rw [slice, Nat.add_sub_cancel_left] at hc
  obtain ⟨j, hj, rfl⟩ := List.mem_take_iff_getElem.mp hc
  have hnot := hbefore j (by omega)
  simpa using hnot

theorem strpbrk_mem (h : strpbrk text start del = some cpos) :
    ∃ c ∈ del, text[cpos]? = some c ∧
      text.drop start = slice text start (cpos - start) ++ c :: text.drop (cpos + 1) := by
  obtain ⟨hle, hlt⟩ := strpbrk_eq_some h
  obtain ⟨i, hi, rfl⟩ := Option.map_eq_some_iff.mp h
  obtain ⟨hi', hmem, -⟩ := List.findIdx?_eq_some_iff_getElem.mp hi
  rw [List.getElem_drop] at hmem
  refine ⟨text[start + i], of_decide_eq_true hmem, List.getElem?_eq_getElem hlt, ?_⟩
  rw [slice, Nat.add_sub_cancel_left, ← List.drop_eq_getElem_cons hlt, ← List.drop_drop,
    List.take_append_drop]

theorem strpbrk_eq_none (h : strpbrk text start del = none) : ∀ c ∈ text.drop start, c ∉ del := by
  intro c hc
  have hnot := List.findIdx?_eq_none_iff.mp (Option.map_eq_none_iff.mp h) c hc
  simpa using hnot

end Strpbrk

/-! ### The number of blocks -/

section Count

variable {text del : Text} {stops : Char → Bool} {start cpos : ℕ}

theorem blockCount_pos {c : Char} {rest : Text} : 0 < blockCount del stops (c :: rest) := by
  rw [blockCount]
  split
  · split
    · exact Nat.add_pos_left Nat.one_pos _
    · exact Nat.add_pos_left Nat.one_pos _
  · exact lt_max_of_lt_left Nat.one_pos

/-- A text without delimiters is one block. -/
theorem blockCount_of_clean {u : Text} (hu : ∀ c ∈ u, c ∉ del) :
    blockCount del stops u = min 1 u.length := by
  induction u with
  | nil => rfl
  | cons c rest ih =>
    obtain ⟨hc, hrest⟩ := List.forall_mem_cons.mp hu
    rw [blockCount, if_neg hc, ih hrest, List.length_cons]
    omega

/-- What stands before the first delimiter belongs to its block. -/
theorem blockCount_append {u v : Text} {c : Char} (hu : ∀ c ∈ u, c ∉ del) :
    blockCount del stops (u ++ c :: v) = blockCount del stops (c :: v) := by
  induction u with
  | nil => rfl
  | cons a rest ih =>
    obtain ⟨ha, hrest⟩ := List.forall_mem_cons.mp hu
    rw [List.cons_append, blockCount, if_neg ha, ih hrest]
    exact max_eq_right blockCount_pos

theorem blockCount_drop_eq_zero (hstart : start ≤ text.length) :
    blockCount del stops (text.drop start) = 0 ↔ ¬start < text.length := by
  rcases hdrop : text.drop start with - | ⟨c, rest⟩
  · refine iff_of_true rfl (Nat.not_lt.mpr ?_)
    exact List.drop_eq_nil_iff.mp hdrop
  · refine iff_of_false blockCount_pos.ne' (not_not_intro ?_)
    refine Nat.lt_of_le_of_ne hstart fun heq => ?_
    rw [heq, List.drop_length] at hdrop
    exact absurd hdrop.symm (List.cons_ne_nil c rest)

theorem blockCount_of_none (h : strpbrk text start del = none) :
    blockCount del stops (text.drop start) = min 1 (text.length - start) := by
  rw [blockCount_of_clean (strpbrk_eq_none h), List.length_drop]

theorem blockCount_of_some (h : strpbrk text start del = some cpos) :
    blockCount del stops (text.drop start) =
      if text[cpos]?.any stops then 1 + min 1 (text.length - (cpos + 1))
      else 1 + blockCount del stops (text.drop (cpos + 1)) := by
  obtain ⟨c, hc, hget, hdrop⟩ := strpbrk_mem h
  rw [hdrop, blockCount_append (strpbrk_clean h), blockCount, if_pos hc, hget, List.length_drop]
  rfl

end Count

/-! ### Blocks that are held -/

/-- The blocks that a loop has written so far, up to a place of the text. -/
structure Held (text del : Text) (b : Blocks) (n cpos : ℕ) : Prop where
  bounds : ∀ i ∈ b.written, i < n
  ends : ∀ i < n, b.BlockPos i + b.BlockLen i ≤ cpos
  ordered : ∀ i j, i < j → j < n → b.BlockPos i + b.BlockLen i ≤ b.BlockPos j
  clean : ∀ i < n, ∀ c ∈ slice text (b.BlockPos i) (b.BlockLen i), c ∉ del

namespace Held

variable {text del : Text} {b : Blocks} {n cpos : ℕ}

theorem start (text del : Text) (BlockPos BlockLen : ℕ → ℕ) :
    Held text del ⟨BlockPos, BlockLen, []⟩ 0 0 where
  bounds _ hi := absurd hi List.not_mem_nil
  ends i hi := absurd hi (Nat.not_lt_zero i)
  ordered _ j _ hj := absurd hj (Nat.not_lt_zero j)
  clean i hi := absurd hi (Nat.not_lt_zero i)

theorem mono (h : Held text del b n cpos) {cpos' : ℕ} (hle : cpos ≤ cpos') :
    Held text del b n cpos' :=
  { h with ends := fun i hi => (h.ends i hi).trans hle }

/-- The next block is one behind the others without a delimiter. -/
theorem setBlock (h : Held text del b n cpos) (length : ℕ)
    (hclean : ∀ c ∈ slice text cpos length, c ∉ del) {cpos' : ℕ} (hle : cpos + length ≤ cpos') :
    Held text del (b.setBlock n cpos length) (n + 1) cpos' where
  bounds i hi := by
    rcases List.mem_cons.mp hi with rfl | hi
    · exact Nat.lt_succ_self i
    · exact Nat.lt_succ_of_lt (h.bounds i hi)
  ends i hi := by
    simp only [Blocks.setBlock, Function.update_apply]
    split
    · exact hle
    · next hne =>
      have hend := h.ends i (Nat.lt_of_le_of_ne (Nat.le_of_lt_succ hi) hne)
      omega
  ordered i j hij hj := by
    simp only [Blocks.setBlock, Function.update_apply]
    have hi : i ≠ n := by omega
    rw [if_neg hi, if_neg hi]
    split
    · exact h.ends i (by omega)
    · exact h.ordered i j hij (by omega)
  clean i hi := by
    simp only [Blocks.setBlock, Function.update_apply]
    split
    · exact hclean
    · next hne => exact h.clean i (Nat.lt_of_le_of_ne (Nat.le_of_lt_succ hi) hne)

/-- The blocks of a loop with an empty one behind them. -/
theorem exact (h : Held text del b n cpos) (hcpos : cpos ≤ text.length) (hn : n < BLOCKCOUNT)
    (rest : ℕ → Prop) (start : ℕ) : Exact text del rest (n, b.setBlock n start 0) where
  bounds i hi := by
    rcases List.mem_cons.mp hi with rfl | hi
    · exact hn
    · exact (h.bounds i hi).trans hn
  inside i hi := by
    simp only [Blocks.setBlock, Function.update_of_ne (Nat.ne_of_lt hi)]
    exact (h.ends i hi).trans hcpos
  ordered i j hij hj := by
    simp only [Blocks.setBlock, Function.update_of_ne (Nat.ne_of_lt hj),
      Function.update_of_ne (Nat.ne_of_lt (hij.trans hj))]
    exact h.ordered i j hij hj
  clean i hi _ := by
    simp only [Blocks.setBlock, Function.update_of_ne (Nat.ne_of_lt hi)]
    exact h.clean i hi
  last := ⟨hn, Function.update_self ..⟩

/-- The blocks of a loop with the rest of the text and an empty one behind them. -/
theorem exact_rest (h : Held text del b n cpos) (hcpos : cpos ≤ text.length)
    (hn : n + 1 < BLOCKCOUNT) (start : ℕ) (rest : ℕ → Prop)
    (hrest : rest n ∨ ∀ c ∈ text.drop cpos, c ∉ del) :
    Exact text del rest
      (n + 1, (b.setBlock n cpos (text.length - cpos)).setBlock (n + 1) start 0) where
  bounds i hi := by
    rcases List.mem_cons.mp hi with rfl | hi
    · exact hn
    · rcases List.mem_cons.mp hi with rfl | hi
      · exact (Nat.lt_succ_self i).trans hn
      · exact (h.bounds i hi).trans ((Nat.lt_succ_self n).trans hn)
  inside i hi := by
    simp only [Blocks.setBlock, Function.update_of_ne (Nat.ne_of_lt hi), Function.update_apply]
    split
    · omega
    · next hne => exact (h.ends i (Nat.lt_of_le_of_ne (Nat.le_of_lt_succ hi) hne)).trans hcpos
  ordered i j hij hj := by
    have hin : i ≠ n := by omega
    have hin' : i ≠ n + 1 := by omega
    simp only [Blocks.setBlock, Function.update_of_ne (Nat.ne_of_lt hj),
      Function.update_of_ne hin', Function.update_of_ne hin, Function.update_apply]
    split
    · exact h.ends i (by omega)
    · exact h.ordered i j hij (by omega)
  clean i hi hnot := by
    simp only [Blocks.setBlock, Function.update_of_ne (Nat.ne_of_lt hi), Function.update_apply]
    split
    · next heq =>
      intro c hc
      exact (hrest.resolve_left (heq ▸ hnot)) c (List.mem_of_mem_take hc)
    · next hne => exact h.clean i (Nat.lt_of_le_of_ne (Nat.le_of_lt_succ hi) hne)
  last := ⟨hn, Function.update_self ..⟩

end Held

/-! ### `FileReader` -/

namespace FileReader

variable {text del : Text} {b : Blocks}

theorem skip_le (start : ℕ) (hstart : start ≤ text.length) :
    skip text del start ≤ text.length := by
  fun_induction skip text del start with
  | case1 => exact hstart
  | case2 _ hlt _ _ _ ih => exact ih hlt
  | case3 => exact hstart
  | case4 => exact hstart

/-- The loop of `MultiBreak` stays below the limit of the blocks. -/
theorem multiBreakLoop_spec (start curBlock : ℕ) (b : Blocks)
    (hheld : Held text del b curBlock start) (hstart : start ≤ text.length)
    (hblock : curBlock + 1 < BLOCKCOUNT) :
    Held text del (multiBreakLoop text del start curBlock b).2
        (multiBreakLoop text del start curBlock b).1 text.length ∧
      (multiBreakLoop text del start curBlock b).1 < BLOCKCOUNT := by
  fun_induction multiBreakLoop text del start curBlock b with
  | case1 start curBlock b hlt cpos hcpos b₁ hlimit =>
    obtain ⟨hle, hend⟩ := strpbrk_eq_some hcpos
    exact ⟨hheld.setBlock _ (strpbrk_clean hcpos) (by omega), hblock⟩
  | case2 start curBlock b hlt cpos hcpos b₁ hlimit ih =>
    obtain ⟨hle, hend⟩ := strpbrk_eq_some hcpos
    have hskip := le_skip text del (cpos + 1)
    exact ih (hheld.setBlock _ (strpbrk_clean hcpos) (by omega)) (skip_le (cpos + 1) hend)
      (by omega)
  | case3 start curBlock b hlt hnone =>
    refine ⟨hheld.setBlock _ (fun c hc => ?_) (by omega), hblock⟩
    exact strpbrk_eq_none hnone c (List.mem_of_mem_take hc)
  | case4 start curBlock b hlt => exact ⟨hheld.mono hstart, by omega⟩

/-- The loop of `BreakUntil`: the blocks so far, the blocks that are left, and what is behind. -/
theorem breakUntilLoop_spec (final : Char) (cpos count : ℕ) (b : Blocks)
    (hheld : Held text del b count cpos) (hcpos : cpos ≤ text.length) :
    ∃ cpos' count' b', breakUntilLoop text del final cpos count b = (cpos', count', b') ∧
      Held text del b' count' cpos' ∧ cpos' ≤ text.length ∧
      count + blockCount del (fun c => c = final) (text.drop cpos) =
        count' + min 1 (text.length - cpos') ∧
      ((∃ p, cpos' = p + 1 ∧ text[p]? = some final) ∨ ∀ c ∈ text.drop cpos', c ∉ del) := by
  fun_induction breakUntilLoop text del final cpos count b with
  | case1 cpos count b spos hspos b₁ hfinal =>
    obtain ⟨hle, hlt⟩ := strpbrk_eq_some hspos
    refine ⟨spos + 1, count + 1, b₁, rfl, hheld.setBlock _ (strpbrk_clean hspos) (by omega), hlt, ?_,
      Or.inl ⟨spos, rfl, hfinal⟩⟩
    rw [blockCount_of_some hspos, hfinal]
    simp only [Option.any_some, decide_true, if_true]
    omega
  | case2 cpos count b spos hspos b₁ hfinal hmore ih =>
    obtain ⟨hle, hlt⟩ := strpbrk_eq_some hspos
    obtain ⟨c, hc, hget, -⟩ := strpbrk_mem hspos
    obtain ⟨cpos', count', b', hloop, hheld', hcpos', hcount, hrest⟩ :=
      ih (hheld.setBlock _ (strpbrk_clean hspos) (by omega)) hlt
    refine ⟨cpos', count', b', hloop, hheld', hcpos', ?_, hrest⟩
    have hne : c ≠ final := fun heq => hfinal (heq ▸ hget)
    rw [blockCount_of_some hspos, hget, ← hcount]
    simp only [Option.any_some, hne, decide_false, Bool.false_eq_true, if_false]
    omega
  | case3 cpos count b spos hspos b₁ hfinal hmore =>
    obtain ⟨hle, hlt⟩ := strpbrk_eq_some hspos
    have hend : text.drop (spos + 1) = [] := List.drop_eq_nil_iff.mpr (by omega)
    refine ⟨spos + 1, count + 1, b₁, rfl, hheld.setBlock _ (strpbrk_clean hspos) (by omega), hlt, ?_,
      Or.inr fun c hc => absurd (hend ▸ hc) List.not_mem_nil⟩
    rw [blockCount_of_some hspos, hend, blockCount]
    split
    · omega
    · omega
  | case4 cpos count b hnone =>
    refine ⟨cpos, count, b, rfl, hheld, hcpos, ?_, Or.inr (strpbrk_eq_none hnone)⟩
    rw [blockCount_of_none hnone]

/-- `BreakUntil` is exact exactly if the line has fewer blocks than the tables. -/
theorem breakUntil_exact_iff (final : Char) (BlockPos BlockLen : ℕ → ℕ) :
    Exact text del (AfterStop text final (breakUntil text del final ⟨BlockPos, BlockLen, []⟩))
        (breakUntil text del final ⟨BlockPos, BlockLen, []⟩) ↔
      blockCount del (fun c => c = final) text < BLOCKCOUNT := by
  obtain ⟨cpos, count, b, hloop, hheld, hcpos, hcount, hrest⟩ := breakUntilLoop_spec final 0 0
    ⟨BlockPos, BlockLen, []⟩ (Held.start text del BlockPos BlockLen)
    (Nat.zero_le _)
  rw [Nat.zero_add, List.drop_zero] at hcount
  rcases Nat.lt_or_ge cpos text.length with hmore | hend
  · -- the rest of the line is a block of its own
    have hresult : breakUntil text del final ⟨BlockPos, BlockLen, []⟩ =
        (count + 1, (b.setBlock count cpos (text.length - cpos)).setBlock (count + 1)
          ((b.setBlock count cpos (text.length - cpos)).BlockPos count +
            (b.setBlock count cpos (text.length - cpos)).BlockLen count) 0) := by
      unfold breakUntil
      rw [hloop]
      simp only [if_pos hmore, Nat.add_sub_cancel, if_pos (Nat.succ_pos count)]
    have hblocks : blockCount del (fun c => c = final) text = count + 1 := by
      clear hrest
      omega
    rw [hblocks, hresult]
    refine ⟨fun h => h.last.1, fun hfew => ?_⟩
    refine hheld.exact_rest hcpos hfew _ _ (hrest.imp_left fun ⟨p, hp, hfinal⟩ => ⟨p, ?_, hfinal⟩)
    simp only [Blocks.setBlock]
    rw [Function.update_of_ne (Nat.ne_of_lt (Nat.lt_succ_self count)), Function.update_self]
    exact hp
  · have hblocks : blockCount del (fun c => c = final) text = count := by
      clear hrest
      omega
    have hresult : ∃ start, breakUntil text del final ⟨BlockPos, BlockLen, []⟩ =
        (count, b.setBlock count start 0) := by
      unfold breakUntil
      rw [hloop]
      simp only [if_neg (Nat.not_lt.mpr hend)]
      split
      · exact ⟨_, rfl⟩
      · next hzero => exact ⟨0, by rw [Nat.eq_zero_of_not_pos hzero]⟩
    obtain ⟨start, hresult⟩ := hresult
    rw [hblocks, hresult]
    exact ⟨fun h => h.last.1, fun hfew => hheld.exact hcpos hfew _ start⟩

/-- No block, and an empty one behind it. -/
theorem exact_nil {rest : ℕ → Prop} {BlockPos BlockLen : ℕ → ℕ} (h : BlockLen 0 = 0) :
    Exact text del rest (0, ⟨BlockPos, BlockLen, []⟩) where
  bounds _ hi := absurd hi List.not_mem_nil
  inside i hi := absurd hi (Nat.not_lt_zero i)
  ordered _ j _ hj := absurd hj (Nat.not_lt_zero j)
  clean i hi := absurd hi (Nat.not_lt_zero i)
  last := ⟨Nat.zero_lt_succ 63, h⟩

/-- `MultiBreak` is exact exactly if there is a line, or the first length was zero. -/
theorem multiBreak_exact_iff (delimiter : Option Text) (BlockPos BlockLen : ℕ → ℕ) :
    Exact text (breakSet delimiter) (fun _ => False)
        (multiBreak text delimiter ⟨BlockPos, BlockLen, []⟩) ↔
      (text = [] → BlockLen 0 = 0) := by
  unfold multiBreak
  split
  · next hempty =>
    constructor
    · exact fun h _ => h.last.2
    · exact fun h => exact_nil (h hempty)
  · next hline =>
    refine iff_of_true ?_ fun h => absurd h hline
    obtain ⟨hheld, hlimit⟩ := multiBreakLoop_spec 0 0 ⟨BlockPos, BlockLen, []⟩
      (Held.start text (breakSet delimiter) BlockPos BlockLen) (Nat.zero_le _)
      (by decide)
    exact hheld.exact (le_refl _) hlimit _ 0

/-- `SingleBreak` is exact exactly if there is a line with a delimiter, or the length of the block
behind the last one was zero. -/
theorem singleBreak_exact_iff (delimiter : Option Text) (BlockPos BlockLen : ℕ → ℕ) :
    Exact text (breakSet delimiter) (fun i => i = 1)
        ((singleBreak text delimiter ⟨BlockPos, BlockLen, []⟩).1,
          (singleBreak text delimiter ⟨BlockPos, BlockLen, []⟩).2.1) ↔
      (text = [] → BlockLen 0 = 0) ∧
        (text ≠ [] → (∀ c ∈ text, c ∉ breakSet delimiter) → BlockLen 1 = 0) := by
  have hstart := Held.start text (breakSet delimiter) BlockPos BlockLen
  unfold singleBreak
  split
  · next hempty =>
    constructor
    · exact fun h => ⟨fun _ => h.last.2, fun hline => absurd hempty hline⟩
    · exact fun h => exact_nil (h.1 hempty)
  · next hline =>
    cases hfound : strpbrk text 0 (breakSet delimiter) with
    | some cpos =>
      obtain ⟨-, hlt⟩ := strpbrk_eq_some hfound
      obtain ⟨c, hc, hget, -⟩ := strpbrk_mem hfound
      refine iff_of_true ?_ ⟨fun h => absurd h hline, fun _ hclean => ?_⟩
      · have hheld := hstart.setBlock cpos (strpbrk_clean hfound)
          (show 0 + cpos ≤ cpos + 1 by omega)
        have hexact := hheld.exact_rest hlt (by decide) 0 (fun i => i = 1) (Or.inl rfl)
        rwa [← Nat.sub_sub] at hexact
      · exact absurd hc (hclean c (List.mem_of_getElem? hget))
    | none =>
      have hclean : ∀ c ∈ text, c ∉ breakSet delimiter := strpbrk_eq_none hfound
      have hstale : Function.update BlockLen 0 text.length 1 = BlockLen 1 :=
        Function.update_of_ne one_ne_zero ..
      constructor
      · exact fun h => ⟨fun hempty => absurd hempty hline, fun _ _ => hstale.symm.trans h.last.2⟩
      · intro h
        refine ⟨fun i hi => ?_, fun i hi => ?_, fun i j hij hj => ?_, fun i hi _ c hc => ?_, ?_⟩
        · have hle : i ≤ 1 := by
            rcases List.mem_cons.mp hi with rfl | hi
            · exact le_refl 1
            · rcases List.mem_cons.mp hi with rfl | hi
              · exact le_refl 1
              · exact (List.mem_singleton.mp hi).le.trans (Nat.zero_le 1)
          exact Nat.lt_of_le_of_lt hle (by decide)
        · obtain rfl := Nat.lt_one_iff.mp hi
          exact (Nat.zero_add text.length).le
        · exact absurd (Nat.lt_one_iff.mp hj) (Nat.ne_zero_of_lt hij)
        · exact hclean c (List.mem_of_mem_drop (List.mem_of_mem_take hc))
        · exact ⟨Nat.one_lt_ofNat, hstale.trans (h.2 hline hclean)⟩

end FileReader

/-! ### `FileReader3` -/

namespace FileReader3

variable {text del : Text}

theorem setBlock_of_lt {block : ℕ} (h : block < BLOCKCOUNT) (start length : ℕ) (b : Blocks) :
    setBlock block start length b = b.setBlock block start length := if_neg (Nat.not_le.mpr h)

/-- The loops of `MultiBreak` and `BreakUntil`: what is left over is no block where nothing is
behind, and one block below the limit. -/
theorem breakLoop_spec (stops : Char → Bool) (rounds first count : ℕ) (b : Blocks)
    (hheld : Held text del b count first) (hfirst : first ≤ text.length) (hrounds : count + rounds = BLOCKCOUNT - 1) :
    ∃ first' count' b' left, breakLoop text del stops rounds first count b = (first', count', b') ∧
      Held text del b' count' first' ∧ first' ≤ text.length ∧ count' < BLOCKCOUNT ∧
      count + blockCount del stops (text.drop first) = count' + left ∧
      (left = 0 ↔ ¬first' < text.length) ∧
      (count' + 1 < BLOCKCOUNT → left ≤ 1 ∧
        ((∃ p c, first' = p + 1 ∧ text[p]? = some c ∧ stops c = true) ∨
          ∀ c ∈ text.drop first', c ∉ del)) := by
  induction rounds generalizing first count b with
  | zero =>
    refine ⟨first, count, b, _, rfl, hheld, hfirst, ?_, rfl, blockCount_drop_eq_zero hfirst,
      fun hlimit => ?_⟩
    · exact hrounds.trans_lt (by decide)
    · exact absurd hrounds (Nat.ne_of_lt (Nat.lt_sub_of_add_lt hlimit))
  | succ rounds ih =>
    have hlimit : count < BLOCKCOUNT := by
      have hsize : BLOCKCOUNT - 1 < BLOCKCOUNT := by decide
      omega
    rw [breakLoop]
    cases hfound : strpbrk text first del with
    | none =>
      refine ⟨first, count, b, _, rfl, hheld, hfirst, hlimit, rfl, blockCount_drop_eq_zero hfirst,
        fun _ => ⟨?_, Or.inr (strpbrk_eq_none hfound)⟩⟩
      rw [blockCount_of_none hfound]
      exact min_le_left _ _
    | some second =>
      obtain ⟨hle, hlt⟩ := strpbrk_eq_some hfound
      obtain ⟨c, hc, hget, -⟩ := strpbrk_mem hfound
      have hheld' := hheld.setBlock _ (strpbrk_clean hfound)
        (show first + (second - first) ≤ second + 1 by omega)
      dsimp only
      rw [setBlock_of_lt hlimit, blockCount_of_some hfound, hget]
      cases hstops : stops c with
      | true =>
        simp only [Option.any_some, hstops, if_true]
        refine ⟨second + 1, count + 1, _, min 1 (text.length - (second + 1)), rfl, hheld', hlt, ?_,
          by omega, by omega, fun _ => ⟨min_le_left _ _, Or.inl ⟨second, c, rfl, hget, hstops⟩⟩⟩
        have hsize : BLOCKCOUNT - 1 < BLOCKCOUNT := by decide
        omega
      | false =>
        simp only [Option.any_some, hstops, Bool.false_eq_true, if_false]
        rw [← Nat.add_assoc]
        exact ih (second + 1) (count + 1) _ hheld' hlt (by omega)

/-- What is behind the loops is exact exactly if the line has fewer blocks than the tables. -/
theorem finish_exact_iff {first count total : ℕ} {b : Blocks} (left : ℕ)
    (rest : ℕ → Blocks → Prop)
    (hheld : Held text del b count first) (hfirst : first ≤ text.length)
    (hcount : count < BLOCKCOUNT) (htotal : total = count + left)
    (hleft : left = 0 ↔ ¬first < text.length)
    (hrest : count + 1 < BLOCKCOUNT → left ≤ 1 ∧
      ((∀ start, rest count ((b.setBlock count first (text.length - first)).setBlock (count + 1)
        start 0)) ∨ ∀ c ∈ text.drop first, c ∉ del)) :
    Exact text del (fun i => rest i (finish text (first, count, b)).2)
        (finish text (first, count, b)) ↔ total < BLOCKCOUNT := by
  unfold finish
  rcases Nat.lt_or_ge first text.length with hmore | hend
  · simp only [if_pos hmore]
    have hleft' : left ≠ 0 := fun hzero => hleft.mp hzero hmore
    rcases Nat.lt_or_ge (count + 1) BLOCKCOUNT with hfew | hmany
    · obtain ⟨hone, hbehind⟩ := hrest hfew
      rw [setBlock_of_lt hcount, setBlock_of_lt hfew]
      refine iff_of_true (hheld.exact_rest hfirst hfew 0 _ (hbehind.imp_left fun h => h 0)) ?_
      omega
    · refine iff_of_false (fun h => ?_) (by omega)
      exact absurd h.last.1 (Nat.not_lt.mpr hmany)
  · simp only [if_neg (Nat.not_lt.mpr hend)]
    rw [setBlock_of_lt hcount]
    refine iff_of_true (hheld.exact hfirst hcount _ 0) ?_
    rw [htotal, hleft.mpr (Nat.not_lt.mpr hend)]
    exact hcount

/-- `MultiBreak` is exact exactly if the line has fewer blocks than the tables. -/
theorem multiBreak_exact_iff (BlockPos BlockLen : ℕ → ℕ) :
    Exact text del (fun _ => False) (multiBreak text del ⟨BlockPos, BlockLen, []⟩) ↔
      blockCount del (fun _ => false) text < BLOCKCOUNT := by
  obtain ⟨first, count, b, left, hloop, hheld, hfirst, hcount, htotal, hleft, hrest⟩ :=
    breakLoop_spec (fun _ => false) (BLOCKCOUNT - 1) 0 0 ⟨BlockPos, BlockLen, []⟩
      (Held.start text del BlockPos BlockLen) (Nat.zero_le _) (Nat.zero_add _)
  rw [Nat.zero_add, List.drop_zero] at htotal
  unfold multiBreak
  rw [hloop]
  refine finish_exact_iff left (fun _ _ => False) hheld hfirst hcount htotal hleft
    fun hfew => ⟨(hrest hfew).1, Or.inr ?_⟩
  refine (hrest hfew).2.resolve_left ?_
  rintro ⟨_, _, -, -, hstops⟩
  exact Bool.false_ne_true hstops

/-- So is `BreakUntil`. -/
theorem breakUntil_exact_iff (final : Char) (BlockPos BlockLen : ℕ → ℕ) :
    Exact text del (AfterStop text final (breakUntil text del final ⟨BlockPos, BlockLen, []⟩))
        (breakUntil text del final ⟨BlockPos, BlockLen, []⟩) ↔
      blockCount del (fun c => c = final) text < BLOCKCOUNT := by
  obtain ⟨first, count, b, left, hloop, hheld, hfirst, hcount, htotal, hleft, hrest⟩ :=
    breakLoop_spec (fun c => c = final) (BLOCKCOUNT - 1) 0 0 ⟨BlockPos, BlockLen, []⟩
      (Held.start text del BlockPos BlockLen) (Nat.zero_le _) (Nat.zero_add _)
  rw [Nat.zero_add, List.drop_zero] at htotal
  unfold breakUntil
  rw [hloop]
  refine finish_exact_iff left (fun i b => AfterStop text final (0, b) i) hheld hfirst hcount
    htotal hleft fun hfew => ⟨(hrest hfew).1, (hrest hfew).2.imp_left ?_⟩
  rintro ⟨p, c, hp, hget, hstops⟩ start
  refine ⟨p, ?_, of_decide_eq_true hstops ▸ hget⟩
  simp only [Blocks.setBlock]
  rw [Function.update_of_ne (Nat.ne_of_lt (Nat.lt_succ_self count)), Function.update_self]
  exact hp

/-- `SingleBreak` is exact. -/
theorem singleBreak_exact (BlockPos BlockLen : ℕ → ℕ) :
    Exact text del (fun i => i = 1) (singleBreak text del ⟨BlockPos, BlockLen, []⟩) := by
  have hstart := Held.start text del BlockPos BlockLen
  unfold singleBreak
  split
  · next second hfound =>
    obtain ⟨-, hlt⟩ := strpbrk_eq_some hfound
    have hheld := hstart.setBlock second (strpbrk_clean hfound)
      (show 0 + second ≤ second + 1 by omega)
    rw [setBlock_of_lt (by decide)]
    refine (finish_exact_iff (min 1 (text.length - (second + 1))) (fun i _ => i = 1)
      hheld hlt (by decide) rfl (by omega) fun _ => ⟨min_le_left _ _, Or.inl fun _ => rfl⟩).mpr ?_
    exact Nat.lt_of_le_of_lt (Nat.add_le_add_left (min_le_left _ _) 1) (by decide)
  · next hfound =>
    refine (finish_exact_iff (min 1 (text.length - 0)) (fun i _ => i = 1)
      hstart (Nat.zero_le _) (by decide) rfl (by omega)
      fun _ => ⟨min_le_left _ _, Or.inr (strpbrk_eq_none hfound)⟩).mpr ?_
    exact Nat.lt_of_le_of_lt (Nat.add_le_add_left (min_le_left _ _) 0) (by decide)

/-! ### Trailing white space -/

/-- What `RemoveTrailingWhitespace` takes away. -/
def isWhite (c : Char) : Prop := c = '\r' ∨ c = '\n' ∨ c = ' ' ∨ c = '\t'

theorem before_succ {pos : ℕ} (h : pos < BUFFERSIZE) : before (pos + 1) = pos := by
  unfold before SIZE
  unfold BUFFERSIZE at h
  omega

/-- As long as there is a character that stays, the loop stops there. -/
theorem trailingLoop_touches {len j : ℕ} (hlen : len < BUFFERSIZE) (rounds pos : ℕ)
    (buffer : ℕ → Char) (hj : j ≤ pos) (hpos : pos < len) (hstays : ¬isWhite (buffer j)) :
    ∀ i ∈ (trailingLoop rounds pos buffer).1, i < len := by
  induction rounds generalizing pos buffer with
  | zero => exact fun i hi => absurd hi List.not_mem_nil
  | succ rounds ih =>
    rw [trailingLoop]
    split
    · next hwhite =>
      have hne : j ≠ pos := fun heq => hstays (heq ▸ hwhite)
      obtain ⟨k, rfl⟩ : ∃ k, pos = k + 1 := ⟨pos - 1, by omega⟩
      rw [before_succ (by omega)]
      refine List.forall_mem_cons.mpr ⟨hpos, ih k _ (by omega) (by omega) ?_⟩
      rw [Function.update_of_ne hne]
      exact hstays
    · exact List.forall_mem_singleton.mpr hpos

/-- Otherwise it goes on before the start of the buffer. -/
theorem trailingLoop_wraps (p : ℕ) (hp : p < BUFFERSIZE) (buffer : ℕ → Char)
    (hwhite : ∀ i < p, isWhite (buffer i)) :
    SIZE - 1 ∈ (trailingLoop (p + 1) (before p) buffer).1 := by
  induction p generalizing buffer with
  | zero =>
    have hbefore : before 0 = SIZE - 1 := by decide
    rw [hbefore, trailingLoop]
    split
    · exact List.mem_cons_self
    · exact List.mem_singleton_self _
  | succ p ih =>
    rw [before_succ (by omega), trailingLoop]
    split
    · refine List.mem_cons_of_mem _ (ih (by omega) _ fun i hi => ?_)
      rw [Function.update_of_ne (Nat.ne_of_lt hi)]
      exact hwhite i (Nat.lt_succ_of_lt hi)
    · next hstays => exact absurd (hwhite p (Nat.lt_succ_self p)) hstays

/-- `RemoveTrailingWhitespace` stays in the line exactly if a character of the line stays. -/
theorem removeTrailingWhitespace_iff (d : Buffer) :
    (∀ rounds, ∀ i ∈ (removeTrailingWhitespace d rounds).1, i < d.len) ↔
      ∃ c ∈ d.line, ¬isWhite c := by
  have hline : (∃ c ∈ d.line, ¬isWhite c) ↔ ∃ i < d.len, ¬isWhite (d.DataBuffer i) := by
    simp only [Buffer.line, List.mem_map, List.mem_range, exists_exists_and_eq_and]
  rw [hline]
  constructor
  · intro h
    by_contra hall
    push Not at hall
    have hwrap := h (d.len + 1) _ (trailingLoop_wraps d.len d.fits d.DataBuffer hall)
    have hfits := d.fits
    unfold BUFFERSIZE at hfits
    unfold SIZE at hwrap
    omega
  · intro ⟨j, hj, hstays⟩ rounds
    obtain ⟨k, hk⟩ : ∃ k, d.len = k + 1 := ⟨d.len - 1, by omega⟩
    have hfits := d.fits
    unfold removeTrailingWhitespace
    rw [hk] at hj hfits ⊢
    rw [before_succ (by omega)]
    exact trailingLoop_touches hfits rounds k _ (by omega) (Nat.lt_succ_self k) hstays

end FileReader3

/-- The loop of the other reader counts down to the start. -/
theorem FileReader.trailingLoop_touches (pos : ℕ) (buffer : ℕ → Char) :
    ∀ i ∈ (FileReader.trailingLoop pos buffer).1, i < pos := by
  induction pos generalizing buffer with
  | zero => exact fun i hi => absurd hi List.not_mem_nil
  | succ pos ih =>
    rw [FileReader.trailingLoop]
    split
    · refine List.forall_mem_cons.mpr ⟨Nat.lt_succ_self pos, fun i hi => ?_⟩
      exact Nat.lt_succ_of_lt (ih _ i hi)
    · exact List.forall_mem_singleton.mpr (Nat.lt_succ_self pos)

/-! ### All of it -/

/-- What each of the functions does exactly, for a line, the delimiters, and what is left in the
tables of the lines before. -/
theorem breaking_exact_iff (d : Buffer) (delimiter : Option Text) (del early : Text) (final : Char)
    (BlockPos BlockLen : ℕ → ℕ) :
    (∀ i ∈ (FileReader.removeTrailingWhitespace d).1, i < d.len) ∧
    ((∀ rounds, ∀ i ∈ (FileReader3.removeTrailingWhitespace d rounds).1, i < d.len) ↔
      ∃ c ∈ d.line, ¬FileReader3.isWhite c) ∧
    (Exact d.line (FileReader.breakSet delimiter) (fun i => i = 1)
        ((FileReader.singleBreak d.line delimiter ⟨BlockPos, BlockLen, []⟩).1,
          (FileReader.singleBreak d.line delimiter ⟨BlockPos, BlockLen, []⟩).2.1) ↔
      (d.line = [] → BlockLen 0 = 0) ∧
        (d.line ≠ [] → (∀ c ∈ d.line, c ∉ FileReader.breakSet delimiter) → BlockLen 1 = 0)) ∧
    (Exact d.line (FileReader.breakSet delimiter) (fun _ => False)
        (FileReader.multiBreak d.line delimiter ⟨BlockPos, BlockLen, []⟩) ↔
      (d.line = [] → BlockLen 0 = 0)) ∧
    (Exact d.line early
        (AfterStop d.line final
          (FileReader.breakUntil d.line early final ⟨BlockPos, BlockLen, []⟩))
        (FileReader.breakUntil d.line early final ⟨BlockPos, BlockLen, []⟩) ↔
      blockCount early (fun c => c = final) d.line < BLOCKCOUNT) ∧
    Exact d.line del (fun i => i = 1)
      (FileReader3.singleBreak d.line del ⟨BlockPos, BlockLen, []⟩) ∧
    (Exact d.line del (fun _ => False)
        (FileReader3.multiBreak d.line del ⟨BlockPos, BlockLen, []⟩) ↔
      blockCount del (fun _ => false) d.line < BLOCKCOUNT) ∧
    (Exact d.line early
        (AfterStop d.line final
          (FileReader3.breakUntil d.line early final ⟨BlockPos, BlockLen, []⟩))
        (FileReader3.breakUntil d.line early final ⟨BlockPos, BlockLen, []⟩) ↔
      blockCount early (fun c => c = final) d.line < BLOCKCOUNT) :=
  ⟨FileReader.trailingLoop_touches d.len d.DataBuffer, FileReader3.removeTrailingWhitespace_iff d,
    FileReader.singleBreak_exact_iff delimiter BlockPos BlockLen,
    FileReader.multiBreak_exact_iff delimiter BlockPos BlockLen,
    FileReader.breakUntil_exact_iff final BlockPos BlockLen,
    FileReader3.singleBreak_exact BlockPos BlockLen,
    FileReader3.multiBreak_exact_iff BlockPos BlockLen,
    FileReader3.breakUntil_exact_iff final BlockPos BlockLen⟩

/-- The buffer with an empty line. -/
def emptyLine : Buffer where
  DataBuffer _ := NUL
  len := 0
  fits := by decide
  filled i hi := absurd hi (Nat.not_lt_zero i)
  ends := rfl

/-- On an empty line the byte before the buffer is looked at. On a line without a delimiter, the
block behind the last one keeps the length it had before. -/
theorem empty_line_touches :
    (FileReader3.removeTrailingWhitespace emptyLine 1).1 = [2 ^ 64 - 1] ∧
      ¬Exact ['a'] (FileReader.breakSet none) (fun i => i = 1)
        ((FileReader.singleBreak ['a'] none ⟨fun _ => 0, fun _ => 1, []⟩).1,
          (FileReader.singleBreak ['a'] none ⟨fun _ => 0, fun _ => 1, []⟩).2.1) :=
  ⟨by decide, fun h => absurd h.last.2 (by decide)⟩

end Iceee.Reader
