import Iceee.Lib.Text

/-!
# Breaking a line

Both readers keep a line of a file in a buffer and break it into blocks: the positions and lengths
are written to two tables of fixed size, which still hold the blocks of the lines before.

## Implementation notes

Bytes are characters. The tables go on without an end, and the indices that are written are kept, so
that a write behind the end of a table can be told; a read from the buffer at an index that wrapped
around is one behind its end.
-/

namespace Iceee.Reader

open Lib

/-- `BUFFERSIZE`. -/
def BUFFERSIZE : ℕ := 4096

/-- `MULTIBLOCKCOUNT` of `FileReader`, and `BLOCKCOUNT` of `FileReader3`. -/
def BLOCKCOUNT : ℕ := 64

/-- The end of a string. -/
def NUL : Char := Char.ofNat 0

/-- A buffer with a line in it, and whatever is around it. -/
structure Buffer where
  DataBuffer : ℕ → Char
  len : ℕ
  fits : len < BUFFERSIZE
  filled : ∀ i < len, DataBuffer i ≠ NUL
  ends : DataBuffer len = NUL

/-- The line in the buffer. -/
def Buffer.line (d : Buffer) : Text := (List.range d.len).map d.DataBuffer

/-- `BlockPos` and `BlockLen`, with the indices that were written to. -/
structure Blocks where
  BlockPos : ℕ → ℕ
  BlockLen : ℕ → ℕ
  written : List ℕ := []

namespace Blocks

variable (b : Blocks)

def setPos (block start : ℕ) : Blocks :=
  { b with BlockPos := Function.update b.BlockPos block start, written := block :: b.written }

/-- A position and a length. -/
def setBlock (block start length : ℕ) : Blocks where
  BlockPos := Function.update b.BlockPos block start
  BlockLen := Function.update b.BlockLen block length
  written := block :: b.written

end Blocks

/-- `strpbrk` from a place of the line on. -/
def strpbrk (text : Text) (start : ℕ) (del : Text) : Option ℕ :=
  ((text.drop start).findIdx? fun c => decide (c ∈ del)).map fun i => start + i

theorem strpbrk_eq_some {text del : Text} {start cpos : ℕ}
    (h : strpbrk text start del = some cpos) : start ≤ cpos ∧ cpos < text.length := by
  obtain ⟨i, hi, rfl⟩ := Option.map_eq_some_iff.mp h
  obtain ⟨hlt, -⟩ := List.findIdx?_eq_some_iff_findIdx_eq.mp hi
  rw [List.length_drop] at hlt
  omega

/-! ### `FileReader` -/

namespace FileReader

/-- `Default_Break`, where there is no delimiter. -/
def breakSet (delimiter : Option Text) : Text := delimiter.getD ['=']

/-- The loop of `RemoveTrailingWhitespace`, with the number of bytes that are left: the bytes that
are touched, and the buffer afterwards. -/
def trailingLoop : ℕ → (ℕ → Char) → List ℕ × (ℕ → Char)
  | 0, buffer => ([], buffer)
  | pos + 1, buffer =>
      if buffer pos = ' ' ∨ buffer pos = '\t' then
        let rest := trailingLoop pos (Function.update buffer pos NUL)
        (pos :: rest.1, rest.2)
      else ([pos], buffer)

/-- `RemoveTrailingWhitespace`. -/
def removeTrailingWhitespace (d : Buffer) : List ℕ × (ℕ → Char) := trailingLoop d.len d.DataBuffer

/-- `SingleBreak`, with the line afterwards. -/
def singleBreak (text : Text) (delimiter : Option Text) (b : Blocks) : ℕ × Blocks × Text :=
  if text = [] then (0, b, text)
  else
    match strpbrk text 0 (breakSet delimiter) with
    | some cpos =>
        let b := b.setBlock 0 0 cpos
        let b := b.setBlock 1 (cpos + 1) (text.length - cpos - 1)
        (2, b.setBlock 2 0 0, text.set cpos NUL)
    | none =>
        let b := b.setBlock 0 0 text.length
        (1, (b.setPos 1 0).setPos 1 0, text)

/-- The inner loop of `MultiBreak`, to the start of the next block. -/
def skip (text del : Text) (start : ℕ) : ℕ :=
  if start < text.length then
    match strpbrk text start del with
    | some cpos => if cpos ≠ start then start else skip text del (start + 1)
    | none => start
  else start
termination_by text.length - start

theorem le_skip (text del : Text) (start : ℕ) : start ≤ skip text del start := by
  fun_induction skip text del start with
  | case1 => exact le_refl _
  | case2 _ _ _ _ _ ih => exact Nat.le_of_succ_le ih
  | case3 => exact le_refl _
  | case4 => exact le_refl _

/-- The loop of `MultiBreak`. After the last block nothing is left, so that the loop ends. -/
def multiBreakLoop (text del : Text) (start curBlock : ℕ) (b : Blocks) : ℕ × Blocks :=
  if start < text.length then
    match h : strpbrk text start del with
    | some cpos =>
        let b := b.setBlock curBlock start (cpos - start)
        if curBlock + 1 ≥ BLOCKCOUNT - 1 then (curBlock + 1, b)
        else multiBreakLoop text del (skip text del (cpos + 1)) (curBlock + 1) b
    | none => (curBlock + 1, b.setBlock curBlock start (text.length - start))
  else (curBlock, b)
termination_by text.length - start
decreasing_by
  have hle := le_skip text del (cpos + 1)
  have hcpos := strpbrk_eq_some h
  omega

/-- `MultiBreak`. -/
def multiBreak (text : Text) (delimiter : Option Text) (b : Blocks) : ℕ × Blocks :=
  if text = [] then (0, b)
  else
    let r := multiBreakLoop text (breakSet delimiter) 0 0 b
    (r.1, r.2.setBlock r.1 0 0)

/-- The loop of `BreakUntil`: the place after the last break, and the number of blocks. -/
def breakUntilLoop (text early : Text) (final : Char) (cpos count : ℕ) (b : Blocks) :
    ℕ × ℕ × Blocks :=
  match h : strpbrk text cpos early with
  | some spos =>
      let b := b.setBlock count cpos (spos - cpos)
      if text[spos]? = some final then (spos + 1, count + 1, b)
      else if spos + 1 < text.length then breakUntilLoop text early final (spos + 1) (count + 1) b
      else (spos + 1, count + 1, b)
  | none => (cpos, count, b)
termination_by text.length - cpos
decreasing_by
  have hspos := strpbrk_eq_some h
  omega

/-- `BreakUntil`. -/
def breakUntil (text early : Text) (final : Char) (b : Blocks) : ℕ × Blocks :=
  let (cpos, count, b) := breakUntilLoop text early final 0 0 b
  let (count, b) :=
    if cpos < text.length then (count + 1, b.setBlock count cpos (text.length - cpos))
    else (count, b)
  if count > 0 then
    (count, b.setBlock count (b.BlockPos (count - 1) + b.BlockLen (count - 1)) 0)
  else (count, b.setBlock 0 0 0)

end FileReader

/-! ### `FileReader3` -/

namespace FileReader3

/-- A position before the start of the buffer wraps around. -/
def SIZE : ℕ := 2 ^ 64

/-- `pos--` of a `size_t`. -/
def before (pos : ℕ) : ℕ := (pos + (SIZE - 1)) % SIZE

/-- The loop of `RemoveTrailingWhitespace`, for a number of rounds: a position is never less than
zero. -/
def trailingLoop : ℕ → ℕ → (ℕ → Char) → List ℕ × (ℕ → Char)
  | 0, _, buffer => ([], buffer)
  | rounds + 1, pos, buffer =>
      if buffer pos = '\r' ∨ buffer pos = '\n' ∨ buffer pos = ' ' ∨ buffer pos = '\t' then
        let rest := trailingLoop rounds (before pos) (Function.update buffer pos NUL)
        (pos :: rest.1, rest.2)
      else ([pos], buffer)

/-- `RemoveTrailingWhitespace`, for a number of rounds. -/
def removeTrailingWhitespace (d : Buffer) (rounds : ℕ) : List ℕ × (ℕ → Char) :=
  trailingLoop rounds (before d.len) d.DataBuffer

/-- `SetBlock`. -/
def setBlock (block start length : ℕ) (b : Blocks) : Blocks :=
  if block ≥ BLOCKCOUNT then b else b.setBlock block start length

/-- The loops of `MultiBreak` and of `BreakUntil`, with the number of rounds that are left: the
start of the rest, and the number of blocks. -/
def breakLoop (text del : Text) (stops : Char → Bool) : ℕ → ℕ → ℕ → Blocks → ℕ × ℕ × Blocks
  | 0, first, blockCount, b => (first, blockCount, b)
  | rounds + 1, first, blockCount, b =>
      match strpbrk text first del with
      | some second =>
          let b := setBlock blockCount first (second - first) b
          if text[second]?.any stops then (second + 1, blockCount + 1, b)
          else breakLoop text del stops rounds (second + 1) (blockCount + 1) b
      | none => (first, blockCount, b)

/-- The rest of the line, and an empty block. -/
def finish (text : Text) (r : ℕ × ℕ × Blocks) : ℕ × Blocks :=
  let (first, blockCount, b) := r
  let (blockCount, b) :=
    if first < text.length then (blockCount + 1, setBlock blockCount first (text.length - first) b)
    else (blockCount, b)
  (blockCount, setBlock blockCount 0 0 b)

/-- `MultiBreak`. -/
def multiBreak (text delim : Text) (b : Blocks) : ℕ × Blocks :=
  finish text (breakLoop text delim (fun _ => false) (BLOCKCOUNT - 1) 0 0 b)

/-- `BreakUntil`. -/
def breakUntil (text early : Text) (final : Char) (b : Blocks) : ℕ × Blocks :=
  finish text (breakLoop text early (fun c => c = final) (BLOCKCOUNT - 1) 0 0 b)

/-- `SingleBreak`. -/
def singleBreak (text delim : Text) (b : Blocks) : ℕ × Blocks :=
  match strpbrk text 0 delim with
  | some second => finish text (second + 1, 1, setBlock 0 0 second b)
  | none => finish text (0, 0, b)

end FileReader3

end Iceee.Reader
