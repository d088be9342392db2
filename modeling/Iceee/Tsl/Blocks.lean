import Iceee.Tsl.Machine

/-!
# The blocks of TSL scripts

The lines `if`, `else`, `endif` and `recompare` of properly nested blocks, and the instructions that
they are compiled to.

## Main results

* `exists_block_of_nested`: the lines of a nested script are those of a block.
* `emits_compileBlock`: the jumps that `endif` fills in are those of the code of the block.
-/

namespace Iceee.Tsl

open Lib

/-! ### Blocks -/

/-- Lines in which every `if` is closed. -/
inductive Block where
  | done
  | line (line : Line) (rest : Block)
  | recompare (line : Line) (rest : Block)
  | ifThen (head : Line) (body : Block) (tail : Line) (rest : Block)
  | ifElse (head : Line) (yes : Block) (middle : Line) (no : Block) (tail : Line) (rest : Block)

namespace Block

def lines : Block → List Line
  | done => []
  | line l rest => l :: rest.lines
  | recompare l rest => l :: rest.lines
  | ifThen head body tail rest => head :: (body.lines ++ tail :: rest.lines)
  | ifElse head yes middle no tail rest =>
      head :: (yes.lines ++ middle :: (no.lines ++ tail :: rest.lines))

end Block

namespace Command

/-- The lines that say nothing about blocks. -/
def isPlain : Command → Bool
  | ifStatement _ | endif | elseStatement | recompare => false
  | _ => true

/-- The operands of an `if` that is accepted. -/
def comparison : Command → Option (String × ComparisonType × String)
  | ifStatement (left :: cmp :: right :: _) =>
      if resolveComparisonType cmp = .inv then none
      else some (left, resolveComparisonType cmp, right)
  | _ => none

theorem eq_of_comparison {command : Command} {left right : String} {cmp : ComparisonType}
    (h : command.comparison = some (left, cmp, right)) :
    ∃ token rest, command = ifStatement (left :: token :: right :: rest) ∧
      cmp = resolveComparisonType token ∧ resolveComparisonType token ≠ .inv := by
  unfold comparison at h
  split at h
  · rename_i l token r rest
    split at h
    · cases h
    · rename_i hvalid
      cases h
      exact ⟨token, rest, rfl, rfl, hvalid⟩
  · cases h

end Command

/-- Every line of a block is what its place says. -/
def Block.Shaped (g : Dialect) : Block → Prop
  | done => True
  | line l rest => (g.command l.tokens).isPlain ∧ rest.Shaped g
  | recompare l rest => g.command l.tokens = .recompare ∧ rest.Shaped g
  | ifThen head body tail rest =>
      (g.command head.tokens).comparison.isSome ∧ body.Shaped g ∧
        g.command tail.tokens = .endif ∧ rest.Shaped g
  | ifElse head yes middle no tail rest =>
      (g.command head.tokens).comparison.isSome ∧ yes.Shaped g ∧
        g.command middle.tokens = .elseStatement ∧ no.Shaped g ∧
          g.command tail.tokens = .endif ∧ rest.Shaped g

/-- Whether the lines are what their places say can be read off them. -/
instance Block.decidableShaped (g : Dialect) : (p : Block) → Decidable (p.Shaped g)
  | done => inferInstanceAs (Decidable True)
  | line _ rest => have := rest.decidableShaped g; inferInstanceAs (Decidable (_ ∧ _))
  | recompare _ rest => have := rest.decidableShaped g; inferInstanceAs (Decidable (_ ∧ _))
  | ifThen _ body _ rest =>
      have := body.decidableShaped g
      have := rest.decidableShaped g
      inferInstanceAs (Decidable (_ ∧ _ ∧ _ ∧ _))
  | ifElse _ yes _ no _ rest =>
      have := yes.decidableShaped g
      have := no.decidableShaped g
      have := rest.decidableShaped g
      inferInstanceAs (Decidable (_ ∧ _ ∧ _ ∧ _ ∧ _ ∧ _))

/-! ### Nesting -/

/-- Every `if` is closed, and has at most one `else`. The list has the open ones, and whether their
`else` was seen. -/
def nested (g : Dialect) : List Bool → List Line → Bool
  | opened, [] => opened.isEmpty
  | opened, line :: rest =>
      match g.command line.tokens with
      | .ifStatement args =>
          (Command.ifStatement args).comparison.isSome && nested g (false :: opened) rest
      | .elseStatement =>
          match opened with
          | false :: outer => nested g (true :: outer) rest
          | _ => false
      | .endif =>
          match opened with
          | _ :: outer => nested g outer rest
          | [] => false
      | _ => nested g opened rest

section Nesting

variable {g : Dialect}

theorem nested_else {seen : Bool} {outer : List Bool} {line : Line} {rest : List Line}
    (hcommand : g.command line.tokens = .elseStatement)
    (h : nested g (seen :: outer) (line :: rest) = true) :
    seen = false ∧ nested g (true :: outer) rest = true := by
  simp only [nested, hcommand] at h
  cases seen with
  | true => cases h
  | false => exact ⟨rfl, h⟩

theorem nested_endif {seen : Bool} {outer : List Bool} {line : Line} {rest : List Line}
    (hcommand : g.command line.tokens = .endif)
    (h : nested g (seen :: outer) (line :: rest) = true) : nested g outer rest = true := by
  simpa only [nested, hcommand] using h

/-- A line of a nested script goes on with the block, opens a block or closes one. -/
theorem nested_cons {opened : List Bool} {line : Line} {rest : List Line}
    (h : nested g opened (line :: rest) = true) :
    ((g.command line.tokens).isPlain ∧ nested g opened rest = true) ∨
      (g.command line.tokens = .recompare ∧ nested g opened rest = true) ∨
      ((g.command line.tokens).comparison.isSome ∧ nested g (false :: opened) rest = true) ∨
      g.command line.tokens = .elseStatement ∨ g.command line.tokens = .endif := by
  cases hcommand : g.command line.tokens <;> simp only [nested, hcommand] at h
  case ifStatement args =>
    obtain ⟨hhead, hrest⟩ := Bool.and_eq_true_iff.mp h
    exact .inr (.inr (.inl ⟨hhead, hrest⟩))
  case elseStatement => exact .inr (.inr (.inr (.inl rfl)))
  case endif => exact .inr (.inr (.inr (.inr rfl)))
  case recompare => exact .inr (.inl ⟨rfl, h⟩)
  all_goals exact .inl ⟨rfl, h⟩

/-- A block up to the line that closes what is around it. -/
theorem exists_block (n : Nat) (opened : List Bool) (lines : List Line) (hn : lines.length ≤ n)
    (h : nested g opened lines = true) :
    ∃ (p : Block) (rest : List Line), p.Shaped g ∧ lines = p.lines ++ rest ∧
      nested g opened rest = true ∧
      (rest = [] ∨ ∃ line later, rest = line :: later ∧
        (g.command line.tokens = .elseStatement ∨ g.command line.tokens = .endif)) := by
  induction n generalizing opened lines with
  | zero =>
      obtain rfl := List.eq_nil_of_length_eq_zero (Nat.le_zero.mp hn)
      exact ⟨.done, [], trivial, rfl, h, .inl rfl⟩
  | succ n ih =>
      cases lines with
      | nil => exact ⟨.done, [], trivial, rfl, h, .inl rfl⟩
      | cons line lines =>
          have hshort : lines.length ≤ n := Nat.le_of_succ_le_succ hn
          rcases nested_cons h with ⟨hplain, hrest⟩ | ⟨hcommand, hrest⟩ | ⟨hhead, hbody⟩ |
            hcommand | hcommand
          · obtain ⟨p, rest, hp, heq, hlater, hend⟩ := ih opened lines hshort hrest
            exact ⟨.line line p, rest, ⟨hplain, hp⟩, congrArg _ heq, hlater, hend⟩
          · obtain ⟨p, rest, hp, heq, hlater, hend⟩ := ih opened lines hshort hrest
            exact ⟨.recompare line p, rest, ⟨hcommand, hp⟩, congrArg _ heq, hlater, hend⟩
          · obtain ⟨body, rest, hbodyShaped, rfl, hlater, hend⟩ :=
              ih (false :: opened) lines hshort hbody
            rw [List.length_append] at hshort
            rcases hend with rfl | ⟨middle, later, rfl, hmiddle | htail⟩
            · cases hlater
            · -- the block of the `else`
              rw [List.length_cons] at hshort
              obtain ⟨_, hno⟩ := nested_else hmiddle hlater
              obtain ⟨no, rest, hnoShaped, rfl, hlater, hend⟩ :=
                ih (true :: opened) later (by omega) hno
              rw [List.length_append] at hshort
              rcases hend with rfl | ⟨tail, later, rfl, hagain | htail⟩
              · cases hlater
              · exact Bool.noConfusion (nested_else hagain hlater).1
              · rw [List.length_cons] at hshort
                obtain ⟨p, rest, hp, rfl, hlater, hend⟩ :=
                  ih opened later (by omega) (nested_endif htail hlater)
                exact ⟨.ifElse line body middle no tail p, rest,
                  ⟨hhead, hbodyShaped, hmiddle, hnoShaped, htail, hp⟩, by simp [Block.lines],
                  hlater, hend⟩
            · rw [List.length_cons] at hshort
              obtain ⟨p, rest, hp, rfl, hlater, hend⟩ :=
                ih opened later (by omega) (nested_endif htail hlater)
              exact ⟨.ifThen line body middle p, rest, ⟨hhead, hbodyShaped, htail, hp⟩,
                by simp [Block.lines], hlater, hend⟩
          · exact ⟨.done, line :: lines, trivial, rfl, h, .inr ⟨line, lines, rfl, .inl hcommand⟩⟩
          · exact ⟨.done, line :: lines, trivial, rfl, h, .inr ⟨line, lines, rfl, .inr hcommand⟩⟩

/-- The lines of a nested script are those of a block. -/
theorem exists_block_of_nested {lines : List Line} (h : nested g [] lines = true) :
    ∃ p : Block, p.Shaped g ∧ p.lines = lines := by
  obtain ⟨p, rest, hp, rfl, hlater, hend⟩ := exists_block lines.length [] lines le_rfl h
  rcases hend with rfl | ⟨line, later, rfl, hcommand | hcommand⟩
  · exact ⟨p, hp, (List.append_nil _).symm⟩
  · simp only [nested, hcommand] at hlater
    cases hlater
  · simp only [nested, hcommand] at hlater
    cases hlater

end Nesting

/-! ### Code -/

/-- An operand of an `if`, as `ResolveOperandType` sees it. -/
inductive Operand where
  | var (index : Int)
  | int (value : Int)
  | float (value : Int)
  | app (index : Int)
  deriving DecidableEq, Repr

namespace Operand

/-- The instruction that pushes an operand. -/
def push : Operand → OpData
  | var index => { opCode := .pushVar, param1 := index }
  | int value => { opCode := .pushInt, param1 := value }
  | float value => { opCode := .pushFloat, param1 := value }
  | app index => { opCode := .pushAppVar, param1 := index }

/-- The value of an operand. The machine does not know `OP_PUSHFLOAT`. -/
def value (d : ScriptDef) (host : Host) (m : ScriptMachine) : Operand → Option Int
  | var index => some (m.getVarValue index)
  | int value => some value
  | float _ => none
  | app index => some (m.appProperty d host index)

end Operand

def ScriptDef.operand (d : ScriptDef) (token : String) : Operand :=
  match (d.resolveOperandType token).2 with
  | (.appInt, index) => .app index
  | (.var, index) => .var index
  | (.float, value) => .float value
  | (_, value) => .int value

structure Condition where
  left : Operand
  cmp : ComparisonType
  right : Operand
  deriving DecidableEq, Repr

/-- A block with its operands resolved. -/
inductive Code where
  | done
  | ops (ops : List OpData) (rest : Code)
  | again (rest : Code)
  | ifThen (c : Condition) (body rest : Code)
  | ifElse (c : Condition) (yes no rest : Code)
  deriving DecidableEq

namespace Code

/-- The number of instructions. -/
def size : Code → Nat
  | done => 0
  | ops l rest => l.length + rest.size
  | again rest => 1 + rest.size
  | ifThen _ body rest => 3 + body.size + rest.size
  | ifElse _ yes no rest => 3 + yes.size + (1 + no.size) + rest.size

/-- The instructions of a block at `base`. The innermost open `if` compares at `block`. -/
def instructions : Nat → Nat → Code → List OpData
  | _, _, done => []
  | base, block, ops l rest => l ++ instructions (base + l.length) block rest
  | base, block, again rest =>
      { opCode := .jmp, param1 := (block : Int) - 2 } :: instructions (base + 1) block rest
  | base, block, ifThen c body rest =>
      [c.right.push, c.left.push,
        { opCode := .cmp, param1 := c.cmp.code, param2 := (body.size : Int) + 1 }] ++
      (instructions (base + 3) (base + 2) body ++
        instructions (base + 3 + body.size) block rest)
  | base, block, ifElse c yes no rest =>
      [c.right.push, c.left.push,
        { opCode := .cmp, param1 := c.cmp.code, param2 := (yes.size : Int) + 2 }] ++
      (instructions (base + 3) (base + 2) yes ++
        ({ opCode := .jmp, param1 := (base + 3 + yes.size + 1 + no.size : Nat) } ::
          (instructions (base + 3 + yes.size + 1) (base + 2) no ++
            instructions (base + 3 + yes.size + 1 + no.size) block rest)))

theorem length_instructions (c : Code) (base block : Nat) :
    (c.instructions base block).length = c.size := by
  induction c generalizing base block with
  | done => rfl
  | ops l rest ih => simp [instructions, size, ih]
  | again rest ih => simp [instructions, size, ih, Nat.add_comm]
  | ifThen c body rest ihbody ihrest =>
      simp only [instructions, size, List.length_append, List.length_cons, List.length_nil, ihbody,
        ihrest]
      omega
  | ifElse c yes no rest ihyes ihno ihrest =>
      simp only [instructions, size, List.length_append, List.length_cons, List.length_nil, ihyes,
        ihno, ihrest]
      omega

end Code

namespace Compilation

variable (g : Dialect) (s : Compilation)

/-- The condition of a line `if`. -/
def condition (head : Line) : Condition :=
  match (g.command head.tokens).comparison with
  | some (left, cmp, right) =>
      { left := (s.addQuoted head).d.operand left
        cmp := cmp
        right := ((s.addQuoted head).d.resolveOperandType left).1.operand right }
  | none => ⟨.int 0, .inv, .int 0⟩

/-- The lines of a block are compiled. -/
def compileBlock (p : Block) : Compilation := p.lines.foldl (compileRead g) s

/-- The instructions that a line adds. -/
def added (line : Line) : List OpData := (s.compileRead g line).d.instr.drop s.d.instr.length

/-- A block with the operands and the instructions that it has when it is compiled. Without an open
`if` a line `recompare` does nothing. -/
def elaborate : Compilation → Block → Code
  | _, .done => .done
  | s, .line l rest => .ops (s.added g l) (elaborate (s.compileRead g l) rest)
  | s, .recompare l rest =>
      if s.getLastUnresolvedBlock.isSome then .again (elaborate (s.compileRead g l) rest)
      else elaborate (s.compileRead g l) rest
  | s, .ifThen head body tail rest =>
      let s₁ := s.compileRead g head
      .ifThen (s.condition g head) (elaborate s₁ body)
        (elaborate ((s₁.compileBlock g body).compileRead g tail) rest)
  | s, .ifElse head yes middle no tail rest =>
      let s₁ := s.compileRead g head
      let s₂ := (s₁.compileBlock g yes).compileRead g middle
      .ifElse (s.condition g head) (elaborate s₁ yes) (elaborate s₂ no)
        (elaborate ((s₂.compileBlock g no).compileRead g tail) rest)

end Compilation

/-! ### Jumps that are filled in later -/

/-- What the lines of a block leave: instructions at the end, and blocks that are closed. -/
structure Emits (s s' : Compilation) (code : List OpData) : Prop where
  instr : s'.d.instr = s.d.instr ++ code
  curInst : s'.d.curInst = s'.d.instr.length
  blocks : ∃ closed : List BlockData, (∀ b ∈ closed, b.mResolved = true) ∧
    s'.compileData.mBlockData = closed ++ s.compileData.mBlockData

namespace Emits

variable {s s' s'' : Compilation} {xs ys : List OpData}

theorem refl (h : s.d.curInst = s.d.instr.length) : Emits s s [] where
  instr := (List.append_nil _).symm
  curInst := h
  blocks := ⟨[], by simp, rfl⟩

theorem trans (h : Emits s s' xs) (h' : Emits s' s'' ys) : Emits s s'' (xs ++ ys) where
  instr := by rw [h'.instr, h.instr, List.append_assoc]
  curInst := h'.curInst
  blocks := by
    obtain ⟨closed, hclosed, heq⟩ := h.blocks
    obtain ⟨closed', hclosed', heq'⟩ := h'.blocks
    refine ⟨closed' ++ closed, fun b hb => ?_, by rw [heq', heq, List.append_assoc]⟩
    exact (List.mem_append.mp hb).elim (hclosed' b) (hclosed b)

/-- The innermost open block is the one before. -/
theorem getLastUnresolvedBlock (h : Emits s s' xs) :
    s'.getLastUnresolvedBlock = s.getLastUnresolvedBlock := by
  obtain ⟨closed, hclosed, heq⟩ := h.blocks
  have hnone : closed.find? (!·.mResolved) = none := by
    rw [List.find?_eq_none]
    intro b hb
    simp [hclosed b hb]
  rw [Compilation.getLastUnresolvedBlock, heq, List.find?_append, hnone, Option.none_or]
  rfl

end Emits

namespace ScriptDef

/-- The instructions so far. -/
def code (d : ScriptDef) : List OpData × Nat := (d.instr, d.curInst)

variable (d : ScriptDef)

@[simp] theorem code_createString (name : String) : (d.createString name).1.code = d.code := by
  unfold createString
  split <;> rfl

@[simp] theorem code_createVariable (name : String) : (d.createVariable name).1.code = d.code := by
  unfold createVariable
  split <;> rfl

@[simp] theorem code_createIntArray (name : String) : (d.createIntArray name).1.code = d.code := by
  unfold createIntArray
  split <;> rfl

@[simp] theorem code_createLabel (name : String) (targInst : Int) :
    (d.createLabel name targInst).1.code = d.code := by
  unfold createLabel
  split
  · rfl
  · dsimp only
    split <;> split <;> rfl

@[simp] theorem code_resolveOperandType (token : String) :
    (d.resolveOperandType token).1.code = d.code := by
  unfold resolveOperandType
  split
  · exact d.code_createString token
  · split
    · rfl
    · split <;> rfl

theorem code_resolveOperand (paramType : OpCodeParamType) (token : Option String) :
    (d.resolveOperand paramType token).1.code = d.code := by
  unfold resolveOperand
  split
  · rfl
  · split <;> simp

/-- Instructions are pushed. -/
def Grows (d d' : ScriptDef) (ops : List OpData) : Prop :=
  d'.instr = d.instr ++ ops ∧ d'.curInst = d.curInst + ops.length

variable {d} {d' d'' : ScriptDef} {xs ys : List OpData}

theorem Grows.of_code (h : d'.code = d.code) : d.Grows d' [] := by
  obtain ⟨hinstr, hcur⟩ := Prod.mk.inj h
  exact ⟨by rw [hinstr, List.append_nil], hcur⟩

theorem Grows.trans (h : d.Grows d' xs) (h' : d'.Grows d'' ys) : d.Grows d'' (xs ++ ys) :=
  ⟨by rw [h'.1, h.1, List.append_assoc], by rw [h'.2, h.2, List.length_append, Nat.add_assoc]⟩

theorem grows_pushOpCode (d : ScriptDef) (op : OpData) : d.Grows (d.pushOpCode op) [op] :=
  ⟨rfl, rfl⟩

theorem grows_compileParam (d : ScriptDef) (paramType : OpCodeParamType) (token : Option String) :
    ∃ ops, d.Grows (d.compileParam paramType token).1 ops := by
  have hcode := Grows.of_code (d.code_resolveOperand paramType token)
  unfold compileParam
  dsimp only
  split
  · exact ⟨_, hcode.trans (grows_pushOpCode _ _)⟩
  · exact ⟨_, hcode⟩

theorem grows_compileParams (types : List OpCodeParamType) (tokens : List String) (d : ScriptDef) :
    ∃ ops, d.Grows (compileParams types tokens d).1 ops := by
  induction types generalizing tokens d with
  | nil => exact ⟨[], .of_code rfl⟩
  | cons paramType types ih =>
      obtain ⟨ops, hops⟩ := grows_compileParam d paramType tokens.head?
      obtain ⟨ops', hops'⟩ := ih tokens.tail (d.compileParam paramType tokens.head?).1
      exact ⟨ops ++ ops', hops.trans hops'⟩

end ScriptDef

namespace Compilation

variable {g : Dialect} {s : Compilation}

theorem grows_foldl_pushOpCode (ops : List OpData) (s : Compilation) :
    s.d.Grows (ops.foldl pushOpCode s).d ops ∧
      (ops.foldl pushOpCode s).compileData = s.compileData := by
  induction ops generalizing s with
  | nil => exact ⟨.of_code rfl, rfl⟩
  | cons op ops ih =>
      obtain ⟨hgrows, hdata⟩ := ih (s.pushOpCode op)
      exact ⟨(ScriptDef.grows_pushOpCode s.d op).trans hgrows, hdata⟩

theorem grows_compileInstruction (opname : String) (args : List String) :
    (∃ ops, s.d.Grows (s.compileInstruction g opname args).d ops) ∧
      (s.compileInstruction g opname args).compileData.mBlockData = s.compileData.mBlockData := by
  unfold compileInstruction
  dsimp only
  obtain ⟨ops, hops⟩ := ScriptDef.grows_compileParams
    (g.getInstructionDataByName opname).paramType args s.d
  split
  · exact ⟨⟨[], .of_code rfl⟩, rfl⟩
  · by_cases hlabel : .label ∈ (g.getInstructionDataByName opname).paramType
    · rw [if_pos hlabel]
      exact ⟨⟨_, hops.trans (ScriptDef.grows_pushOpCode _ _)⟩, rfl⟩
    · rw [if_neg hlabel]
      exact ⟨⟨_, hops.trans (ScriptDef.grows_pushOpCode _ _)⟩, rfl⟩

theorem setMetaDataBase_grows (tokens : List String) :
    (s.setMetaDataBase tokens).d.code = s.d.code ∧
      (s.setMetaDataBase tokens).compileData.mBlockData = s.compileData.mBlockData := by
  unfold setMetaDataBase
  split <;> exact ⟨rfl, rfl⟩

/-- A line that says nothing about blocks leaves them alone. -/
theorem grows_execute {command : Command} (hplain : command.isPlain) :
    (∃ ops, s.d.Grows (s.execute g command).d ops) ∧
      (s.execute g command).compileData.mBlockData = s.compileData.mBlockData := by
  cases command with
  | empty => exact ⟨⟨[], .of_code rfl⟩, rfl⟩
  | label name => exact ⟨⟨[], .of_code (s.d.code_createLabel name s.d.curInst)⟩, rfl⟩
  | ifStatement args => cases hplain
  | endif => cases hplain
  | elseStatement => cases hplain
  | recompare => cases hplain
  | metaData tokens =>
      obtain ⟨hcode, hblocks⟩ := s.setMetaDataBase_grows tokens
      exact ⟨⟨[], .of_code hcode⟩, hblocks⟩
  | advanced ops =>
      obtain ⟨hgrows, hdata⟩ := grows_foldl_pushOpCode ops s
      exact ⟨⟨ops, hgrows⟩, congrArg ScriptCompiler.mBlockData hdata⟩
  | instruction opname args => exact grows_compileInstruction opname args

theorem emits_line {line : Line} (hs : s.d.curInst = s.d.instr.length)
    (hplain : (g.command line.tokens).isPlain) :
    Emits s (s.compileRead g line) (s.added g line) := by
  obtain ⟨⟨ops, hinstr, hcur⟩, hblocks⟩ := grows_execute (g := g) (s := s.addQuoted line) hplain
  have hinstr' : (s.compileRead g line).d.instr = s.d.instr ++ ops := hinstr
  have hadded : s.added g line = ops := by rw [added, hinstr', List.drop_left]
  refine ⟨by rw [hadded, hinstr'], ?_, [], by simp, hblocks⟩
  rw [hinstr', List.length_append, ← hs]
  exact hcur

/-! ### The lines of a block -/

theorem convertParamTypeToPushType_resolveOperandType (d : ScriptDef) (token : String) :
    (convertParamTypeToPushType (d.resolveOperandType token).2.1).map
        (fun op => ({ opCode := op, param1 := (d.resolveOperandType token).2.2 } : OpData)) =
      some (d.operand token).push := by
  unfold ScriptDef.operand ScriptDef.resolveOperandType
  split
  · rfl
  · split
    · rfl
    · split <;> rfl

/-- The line `if` pushes its operands, the right one first, and the comparison. -/
theorem compileRead_if {head : Line} (hhead : (g.command head.tokens).comparison.isSome) :
    ∃ (jumpCount : Int) (d : ScriptDef), d.code = s.d.code ∧
      s.compileRead g head =
        { d := ((d.pushOpCode (s.condition g head).right.push).pushOpCode
            (s.condition g head).left.push).pushOpCode
              { opCode := .cmp, param1 := (s.condition g head).cmp.code, param2 := jumpCount }
          compileData := { s.compileData with
            mBlockData := ⟨s.d.curInst + 2, 0, false, false⟩ :: s.compileData.mBlockData } } := by
  obtain ⟨⟨left, cmp, right⟩, hcomparison⟩ := Option.isSome_iff_exists.mp hhead
  obtain ⟨token, rest, hcommand, rfl, hvalid⟩ := Command.eq_of_comparison hcomparison
  have hcondition : s.condition g head =
      ⟨(s.addQuoted head).d.operand left, resolveComparisonType token,
        ((s.addQuoted head).d.resolveOperandType left).1.operand right⟩ := by
    rw [condition, hcomparison]
  have hleft := convertParamTypeToPushType_resolveOperandType (s.addQuoted head).d left
  have hright := convertParamTypeToPushType_resolveOperandType
    ((s.addQuoted head).d.resolveOperandType left).1 right
  obtain ⟨opleft, hopleft, hpushleft⟩ := Option.map_eq_some_iff.mp hleft
  obtain ⟨opright, hopright, hpushright⟩ := Option.map_eq_some_iff.mp hright
  have hcode : (((s.addQuoted head).d.resolveOperandType left).1.resolveOperandType right).1.code =
      s.d.code := by
    rw [ScriptDef.code_resolveOperandType, ScriptDef.code_resolveOperandType]
    rfl
  refine ⟨if rest[1]? = some "else" then atoi "else".toList else 2, _, hcode, ?_⟩
  rw [compileRead, hcommand, execute, compileIf, hcondition]
  simp only [if_neg hvalid, hopleft, hopright, hpushleft, hpushright, Option.elim_some,
    Option.isSome_some, and_self, if_true]
  have hcur := congrArg Prod.snd hcode
  simp only [ScriptDef.code] at hcur
  simp only [openBlock, pushOpCode, ScriptDef.pushOpCode, hcur]
  rfl

theorem modify_of_length {α : Type*} {i : Nat} {pre post : List α} {x : α} (f : α → α)
    (h : i = pre.length) : (pre ++ x :: post).modify i f = pre ++ f x :: post := by
  subst h
  induction pre with
  | nil => rfl
  | cons a pre ih => simpa using ih

/-- The last block that is open stands behind those that were closed since. -/
theorem blocks_modifyLastUnresolvedBlock {closed rest : List BlockData} {block : BlockData}
    (f : BlockData → BlockData) (hclosed : ∀ b ∈ closed, b.mResolved = true)
    (hopen : block.mResolved = false) (heq : s.compileData.mBlockData = closed ++ block :: rest) :
    (s.modifyLastUnresolvedBlock f).compileData.mBlockData = closed ++ f block :: rest := by
  have hindex : (closed ++ block :: rest).findIdx (!·.mResolved) = closed.length := by
    have hnone : ∀ b ∈ closed, (!b.mResolved) = false := fun b hb => by simp [hclosed b hb]
    rw [List.findIdx_append, List.findIdx_eq_length_of_false hnone, if_neg (lt_irrefl _),
      List.findIdx_cons, hopen]
    simp
  simp only [modifyLastUnresolvedBlock, heq]
  exact modify_of_length f hindex

/-- The last block that is open. -/
theorem getLastUnresolvedBlock_eq {closed rest : List BlockData} {block : BlockData}
    (hclosed : ∀ b ∈ closed, b.mResolved = true) (hopen : block.mResolved = false)
    (heq : s.compileData.mBlockData = closed ++ block :: rest) :
    s.getLastUnresolvedBlock = some block := by
  have hnone : closed.find? (!·.mResolved) = none := by
    rw [List.find?_eq_none]
    intro b hb
    simp [hclosed b hb]
  rw [getLastUnresolvedBlock, heq, List.find?_append, hnone, Option.none_or,
    List.find?_cons_of_pos (by simp [hopen])]

/-- Behind a line `if` its block is the innermost one. -/
theorem opens_if {head : Line} (hs : s.d.curInst = s.d.instr.length)
    (hhead : (g.command head.tokens).comparison.isSome) :
    (s.compileRead g head).d.curInst = s.d.curInst + 3 ∧
      (∀ b, (s.compileRead g head).getLastUnresolvedBlock = some b →
        b.mInstIndex = s.d.curInst + 2) ∧
      (s.compileRead g head).d.curInst = (s.compileRead g head).d.instr.length := by
  obtain ⟨jumpCount, d, hcode, hread⟩ := compileRead_if (s := s) hhead
  obtain ⟨hinstr, hcur⟩ := Prod.mk.inj hcode
  rw [hread]
  refine ⟨by rw [← hcur]; rfl, fun b hb => ?_, ?_⟩
  · cases hb
    rfl
  · simp only [ScriptDef.pushOpCode, hinstr, hcur, hs, List.length_append, List.length_singleton]

/-- The block of a line `if` stands behind those that were closed since. -/
theorem blocks_of_emits {head : Line} {s' : Compilation} {code : List OpData}
    (hhead : (g.command head.tokens).comparison.isSome)
    (hemits : Emits (s.compileRead g head) s' code) :
    ∃ closed : List BlockData, (∀ b ∈ closed, b.mResolved = true) ∧
      s'.compileData.mBlockData =
        closed ++ ⟨s.d.curInst + 2, 0, false, false⟩ :: s.compileData.mBlockData := by
  obtain ⟨_, _, _, hread⟩ := compileRead_if (s := s) hhead
  obtain ⟨closed, hclosed, hblocks⟩ := hemits.blocks
  rw [hread] at hblocks
  exact ⟨closed, hclosed, hblocks⟩

/-- The line `else` pushes the jump behind the block, for now to the next instruction. -/
theorem compileRead_else {middle : Line} {closed rest : List BlockData} {block : BlockData}
    (hmiddle : g.command middle.tokens = .elseStatement)
    (hclosed : ∀ b ∈ closed, b.mResolved = true) (hopen : block.mResolved = false)
    (heq : s.compileData.mBlockData = closed ++ block :: rest) :
    (s.compileRead g middle).d.instr =
        s.d.instr ++ [{ opCode := .jmp, param1 := s.d.curInst + 1 }] ∧
      (s.compileRead g middle).d.curInst = s.d.curInst + 1 ∧
      (s.compileRead g middle).compileData.mBlockData =
        closed ++ { block with mInstIndexElse := s.d.curInst, mUseElse := true } :: rest := by
  have hlast := getLastUnresolvedBlock_eq (s := s.addQuoted middle) hclosed hopen heq
  have helse : s.compileRead g middle =
      ((s.addQuoted middle).modifyLastUnresolvedBlock fun block =>
        { block with mInstIndexElse := s.d.curInst, mUseElse := true }).pushOpCode
          { opCode := .jmp, param1 := s.d.curInst + 1 } := by
    rw [compileRead, hmiddle, execute, compileElse, hlast]
    rfl
  rw [helse]
  exact ⟨rfl, rfl,
    blocks_modifyLastUnresolvedBlock (s := s.addQuoted middle) _ hclosed hopen heq⟩

/-- The code of an `if` up to the end of the lines behind it: the comparison stands behind the
operands, with a distance that is not known yet. -/
theorem instr_of_if {head : Line} {s₂ : Compilation} {body : List OpData}
    (hs : s.d.curInst = s.d.instr.length) (hhead : (g.command head.tokens).comparison.isSome)
    (hbody : Emits (s.compileRead g head) s₂ body) :
    s.d.curInst + 2 =
        (s.d.instr ++ [(s.condition g head).right.push, (s.condition g head).left.push]).length ∧
      ∃ jumpCount, s₂.d.instr =
        (s.d.instr ++ [(s.condition g head).right.push, (s.condition g head).left.push]) ++
          { opCode := .cmp, param1 := (s.condition g head).cmp.code, param2 := jumpCount } ::
            body := by
  obtain ⟨jumpCount, d, hcode, hread⟩ := compileRead_if (s := s) hhead
  have hinstr := hbody.instr
  rw [hread] at hinstr
  constructor
  · rw [List.length_append, hs, List.length_cons, List.length_singleton]
  · refine ⟨jumpCount, ?_⟩
    rw [hinstr]
    simp only [ScriptDef.pushOpCode, (Prod.mk.inj hcode).1, List.append_assoc, List.cons_append,
      List.nil_append]

/-- What is left of the lines of an `if` without `else`: the comparison jumps behind the block. -/
theorem emits_ifThen {head tail : Line} {s₂ : Compilation} {body : List OpData}
    (hs : s.d.curInst = s.d.instr.length) (hhead : (g.command head.tokens).comparison.isSome)
    (htail : g.command tail.tokens = .endif) (hbody : Emits (s.compileRead g head) s₂ body) :
    Emits s (s₂.compileRead g tail)
      ([(s.condition g head).right.push, (s.condition g head).left.push,
        { opCode := .cmp, param1 := (s.condition g head).cmp.code,
          param2 := (body.length : Int) + 1 }] ++ body) := by
  obtain ⟨hindex, jumpCount, hinstr₂⟩ := instr_of_if hs hhead hbody
  obtain ⟨closed, hclosed, hblocks⟩ := blocks_of_emits hhead hbody
  have hcur₂ := hbody.curInst
  set pushes := [(s.condition g head).right.push, (s.condition g head).left.push]
  have hlast := getLastUnresolvedBlock_eq (s := s₂.addQuoted tail) hclosed rfl hblocks
  have hdone : s₂.compileRead g tail =
      ((s₂.addQuoted tail).patch (s.d.curInst + 2) fun op =>
        { op with param2 := (s₂.d.curInst : Int) - (s.d.curInst + 2 : Nat) }).closeBlock := by
    rw [compileRead, htail, execute, compileEndif, hlast]
    rfl
  have hcode₃ : (s₂.compileRead g tail).d.instr = s.d.instr ++ (pushes ++
      { opCode := .cmp, param1 := (s.condition g head).cmp.code,
        param2 := (body.length : Int) + 1 } :: body) := by
    rw [hdone]
    change s₂.d.instr.modify (s.d.curInst + 2) _ = _
    rw [hcur₂, hinstr₂, modify_of_length _ hindex, hindex, List.append_assoc]
    congr 4
    rw [List.length_append, List.length_cons]
    omega
  refine ⟨by rw [hcode₃]; rfl, ?_, closed ++ [⟨s.d.curInst + 2, 0, true, false⟩], ?_, ?_⟩
  · rw [hdone]
    change s₂.d.curInst = (s₂.d.instr.modify (s.d.curInst + 2) _).length
    rw [List.length_modify, hcur₂]
  · exact List.forall_mem_append.mpr ⟨hclosed, by simp⟩
  · rw [hdone, List.append_assoc]
    exact blocks_modifyLastUnresolvedBlock _ hclosed rfl hblocks

/-- The lines of an `if` with `else`: the comparison jumps behind the `else`, and the first block
ends with a jump behind the second. -/
theorem emits_ifElse {head middle tail : Line} {s₂ s₄ : Compilation} {yes no : List OpData}
    (hs : s.d.curInst = s.d.instr.length) (hhead : (g.command head.tokens).comparison.isSome)
    (hmiddle : g.command middle.tokens = .elseStatement)
    (htail : g.command tail.tokens = .endif) (hyes : Emits (s.compileRead g head) s₂ yes)
    (hno : Emits (s₂.compileRead g middle) s₄ no) :
    Emits s (s₄.compileRead g tail)
      ([(s.condition g head).right.push, (s.condition g head).left.push,
        { opCode := .cmp, param1 := (s.condition g head).cmp.code,
          param2 := (yes.length : Int) + 2 }] ++ (yes ++
        { opCode := .jmp, param1 := (s.d.curInst + 3 + yes.length + 1 + no.length : Nat) } ::
          no)) := by
  obtain ⟨hindex, jumpCount, hinstr₂⟩ := instr_of_if hs hhead hyes
  obtain ⟨closed, hclosed, hblocks⟩ := blocks_of_emits hhead hyes
  have hcur₂ := hyes.curInst
  set pushes := [(s.condition g head).right.push, (s.condition g head).left.push]
  set cmp : OpData := { opCode := .cmp, param1 := (s.condition g head).cmp.code }
  -- the line `else`
  obtain ⟨hinstr₃, -, hblocks₃⟩ := compileRead_else hmiddle hclosed rfl hblocks
  obtain ⟨closed', hclosed', hblocks'⟩ := hno.blocks
  have hinstr₄ := hno.instr
  have hcur₄ := hno.curInst
  rw [hinstr₃, List.append_assoc, List.singleton_append] at hinstr₄
  have hall : ∀ b ∈ closed' ++ closed, b.mResolved = true :=
    List.forall_mem_append.mpr ⟨hclosed', hclosed⟩
  rw [hblocks₃, ← List.append_assoc] at hblocks'
  -- the line `endif`
  have hlast₄ := getLastUnresolvedBlock_eq (s := s₄.addQuoted tail) hall rfl hblocks'
  have hdone : s₄.compileRead g tail =
      (((s₄.addQuoted tail).patch (s.d.curInst + 2) fun op =>
        { op with param2 := (s₂.d.curInst : Int) - (s.d.curInst + 2 : Nat) + 1 }).patch
          s₂.d.curInst fun op => { op with param1 := s₄.d.curInst }).closeBlock := by
    rw [compileRead, htail, execute, compileEndif, hlast₄]
    rfl
  have hcode₅ : (s₄.compileRead g tail).d.instr = s.d.instr ++ (pushes ++
      { cmp with param2 := (yes.length : Int) + 2 } :: (yes ++
        { opCode := .jmp, param1 := (s.d.curInst + 3 + yes.length + 1 + no.length : Nat) } ::
          no)) := by
    rw [hdone]
    change (s₄.d.instr.modify (s.d.curInst + 2) _).modify s₂.d.curInst _ = _
    have hlength : s₂.d.curInst = s.d.curInst + 2 + (yes.length + 1) := by
      rw [hcur₂, hinstr₂, List.length_append, ← hindex, List.length_cons]
    have hjump : s₄.d.curInst = s.d.curInst + 3 + yes.length + 1 + no.length := by
      rw [hcur₄, hinstr₄, List.length_append, ← hcur₂, List.length_cons, hlength]
      omega
    rw [hinstr₄, hinstr₂, List.append_assoc, List.cons_append, modify_of_length _ hindex,
      ← List.cons_append, ← List.append_assoc, modify_of_length, hjump, hlength]
    · simp only [List.append_assoc, List.cons_append]
      congr 4
      push_cast
      omega
    · rw [List.length_append, ← hindex, List.length_cons, hlength]
  refine ⟨by rw [hcode₅]; rfl, ?_,
    (closed' ++ closed) ++ [⟨s.d.curInst + 2, s₂.d.curInst, true, true⟩], ?_, ?_⟩
  · rw [hdone]
    change s₄.d.curInst = ((s₄.d.instr.modify (s.d.curInst + 2) _).modify s₂.d.curInst _).length
    rw [List.length_modify, List.length_modify, hcur₄]
  · exact List.forall_mem_append.mpr ⟨hall, by simp⟩
  · rw [hdone, List.append_assoc (closed' ++ closed)]
    exact blocks_modifyLastUnresolvedBlock _ hall rfl hblocks'

theorem emits_recompare {line : Line} (hs : s.d.curInst = s.d.instr.length)
    (hline : g.command line.tokens = .recompare) :
    Emits s (s.compileRead g line) (s.getLastUnresolvedBlock.elim [] fun block =>
      [{ opCode := .jmp, param1 := (block.mInstIndex : Int) - 2 }]) := by
  have hread : s.compileRead g line = (s.addQuoted line).compileRecompare := by
    rw [compileRead, hline]
    rfl
  have hsame : (s.addQuoted line).getLastUnresolvedBlock = s.getLastUnresolvedBlock := rfl
  rw [hread, compileRecompare, hsame]
  cases hlast : s.getLastUnresolvedBlock with
  | none => exact ⟨(List.append_nil _).symm, hs, [], by simp, rfl⟩
  | some block =>
      refine ⟨rfl, ?_, [], by simp, rfl⟩
      change s.d.curInst + 1 = (s.d.instr ++ [_]).length
      rw [List.length_append, hs]
      rfl

theorem compileBlock_ifElse (s : Compilation) (head middle tail : Line) (yes no rest : Block) :
    s.compileBlock g (.ifElse head yes middle no tail rest) =
      ((((((s.compileRead g head).compileBlock g yes).compileRead g middle).compileBlock g
        no).compileRead g tail).compileBlock g rest) := by
  simp only [compileBlock, Block.lines, List.foldl_cons, List.foldl_append]

theorem compileBlock_ifThen (s : Compilation) (head tail : Line) (body rest : Block) :
    s.compileBlock g (.ifThen head body tail rest) =
      ((((s.compileRead g head).compileBlock g body).compileRead g tail).compileBlock g rest) := by
  simp only [compileBlock, Block.lines, List.foldl_cons, List.foldl_append]

/-- The jumps that are filled in at `endif` are those of the structured code. -/
theorem emits_compileBlock {p : Block} {block : Nat} (hshaped : p.Shaped g)
    (hs : s.d.curInst = s.d.instr.length)
    (hblock : ∀ b, s.getLastUnresolvedBlock = some b → b.mInstIndex = block) :
    Emits s (s.compileBlock g p) ((elaborate g s p).instructions s.d.curInst block) := by
  induction p generalizing s block with
  | done => exact .refl hs
  | line l rest ih =>
      obtain ⟨hplain, hrest⟩ := hshaped
      have hline := emits_line hs hplain
      have hcur : (s.compileRead g l).d.curInst = s.d.curInst + (s.added g l).length := by
        rw [hline.curInst, hline.instr, List.length_append, hs]
      have hlater := ih hrest hline.curInst (by rwa [hline.getLastUnresolvedBlock])
      rw [hcur] at hlater
      exact hline.trans hlater
  | recompare l rest ih =>
      obtain ⟨hcommand, hrest⟩ := hshaped
      have hline := emits_recompare hs hcommand
      have hlater := ih hrest hline.curInst (by rwa [hline.getLastUnresolvedBlock])
      rw [hline.curInst, hline.instr, List.length_append, ← hs] at hlater
      rw [elaborate]
      cases hlast : s.getLastUnresolvedBlock with
      | none =>
          rw [hlast] at hline hlater
          exact hline.trans hlater
      | some b =>
          rw [hlast] at hline hlater
          rw [Option.isSome_some, if_pos rfl, Code.instructions, ← hblock b hlast]
          rw [← hblock b hlast] at hlater
          exact hline.trans hlater
  | ifThen head body tail rest ihbody ihrest =>
      obtain ⟨hhead, hbody, htail, hrest⟩ := hshaped
      obtain ⟨hcur₁, hlast₁, hs₁⟩ := opens_if hs hhead
      have hemits := ihbody hbody hs₁ hlast₁
      have hall := emits_ifThen hs hhead htail hemits
      have hlater := ihrest hrest hall.curInst (by rwa [hall.getLastUnresolvedBlock])
      have hcur := hall.curInst
      rw [hall.instr, List.length_append, ← hs, List.length_append,
        Code.length_instructions] at hcur
      rw [hcur₁, Code.length_instructions] at hall
      rw [hcur, show s.d.curInst + (([_, _, _] : List OpData).length + _) = s.d.curInst + 3 + _ from
        (Nat.add_assoc _ 3 _).symm] at hlater
      rw [compileBlock_ifThen, elaborate, Code.instructions, ← List.append_assoc]
      exact hall.trans hlater
  | ifElse head yes middle no tail rest ihyes ihno ihrest =>
      obtain ⟨hhead, hyes, hmiddle, hno, htail, hrest⟩ := hshaped
      obtain ⟨hcur₁, hlast₁, hs₁⟩ := opens_if hs hhead
      have hemits := ihyes hyes hs₁ hlast₁
      set s₂ := (s.compileRead g head).compileBlock g yes
      obtain ⟨closed, hclosed, hblocks⟩ := blocks_of_emits hhead hemits
      obtain ⟨hinstr₃, hcur₃, hblocks₃⟩ := compileRead_else hmiddle hclosed rfl hblocks
      have hs₃ : (s₂.compileRead g middle).d.curInst =
          (s₂.compileRead g middle).d.instr.length := by
        rw [hcur₃, hinstr₃, List.length_append, List.length_singleton, hemits.curInst]
      have hcur₂ : s₂.d.curInst = s.d.curInst + 3 +
          (elaborate g (s.compileRead g head) yes).size := by
        rw [hemits.curInst, hemits.instr, List.length_append, ← hs₁, hcur₁,
          Code.length_instructions]
      have hlast₃ : ∀ b, (s₂.compileRead g middle).getLastUnresolvedBlock = some b →
          b.mInstIndex = s.d.curInst + 2 := by
        intro b hb
        rw [getLastUnresolvedBlock_eq hclosed rfl hblocks₃] at hb
        cases hb
        rfl
      have hemits' := ihno hno hs₃ hlast₃
      have hall := emits_ifElse hs hhead hmiddle htail hemits hemits'
      have hlater := ihrest hrest hall.curInst (by rwa [hall.getLastUnresolvedBlock])
      have hcur := hall.curInst
      rw [hall.instr] at hcur
      simp only [List.length_append, List.length_cons, List.length_nil, Code.length_instructions,
        ← hs] at hcur
      rw [hcur₁, hcur₃, hcur₂, Code.length_instructions, Code.length_instructions] at hall
      rw [hcur.trans (by omega : _ = s.d.curInst + 3 +
        (elaborate g (s.compileRead g head) yes).size + 1 +
          (elaborate g (s₂.compileRead g middle) no).size)] at hlater
      rw [compileBlock_ifElse, elaborate, Code.instructions]
      simpa only [List.append_assoc, List.cons_append] using hall.trans hlater

end Compilation

end Iceee.Tsl
