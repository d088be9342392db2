import Iceee.Lib.Text

/-!
# The compiler of TSL scripts

`CompileLine` turns a source line into instructions. The jump of an `if` and the one in
front of an `else` get their targets at the `endif`.

## Implementation notes

What a derived class adds is a `Dialect`: its table of opcodes and the commands it compiles
itself. Speeds, flags, log messages and the line numbers of blocks are left out, and
`mBlockData` has the newest block first. A label that does not exist is read as offset 0.
-/

namespace Iceee.Tsl

open Lib

/-- `CoreOpCodes`; a derived class counts its own from `OP_MAXCOREOPCODE` on. -/
inductive OpCode where
  | nop | end_ | goto | resetGoto | print | printVar | printAppVar | printIntArr | wait
  | inc | dec | set | copyVar | getAppVar | call | return_
  | iarrAppend | iarrDelete | iarrValue | iarrClear | iarrSize | queueEvent | execQueue
  | pushVar | pushInt | pushFloat | pushAppVar | pop | cmp | jmp
  | ext (n : Nat)
  deriving DecidableEq, Repr

inductive OpCodeParamType where
  | none | label | str | int | float | var | appInt | intStk | intArr
  deriving DecidableEq, Repr

inductive ComparisonType where
  | inv | eq | neq | lt | lte | gt | gte
  deriving DecidableEq, Repr

structure OpCodeInfo where
  name : String
  opCode : OpCode
  paramType : List OpCodeParamType
  deriving DecidableEq, Repr

structure OpData where
  opCode : OpCode
  param1 : Int := 0
  param2 : Int := 0
  param3 : Int := 0
  deriving DecidableEq, Repr

def defCoreOpCode : List OpCodeInfo :=
  [⟨"nop", .nop, []⟩, ⟨"end", .end_, []⟩, ⟨"goto", .goto, [.label]⟩,
    ⟨"reset_goto", .resetGoto, [.label]⟩, ⟨"print", .print, [.str]⟩,
    ⟨"printvar", .printVar, [.var]⟩, ⟨"printappvar", .printAppVar, [.str]⟩,
    ⟨"printintarr", .printIntArr, [.intArr]⟩, ⟨"wait", .wait, [.int]⟩, ⟨"inc", .inc, [.var]⟩,
    ⟨"dec", .dec, [.var]⟩, ⟨"set", .set, [.var, .int]⟩, ⟨"copyvar", .copyVar, [.var, .var]⟩,
    ⟨"getappvar", .getAppVar, [.str, .var]⟩, ⟨"call", .call, [.label]⟩,
    ⟨"return", .return_, []⟩, ⟨"iarrappend", .iarrAppend, [.intArr, .intStk]⟩,
    ⟨"iarrdelete", .iarrDelete, [.intArr, .intStk]⟩,
    ⟨"iarrvalue", .iarrValue, [.intArr, .intStk, .var]⟩,
    ⟨"iarrclear", .iarrClear, [.intArr]⟩, ⟨"iarrsize", .iarrSize, [.intArr, .var]⟩,
    ⟨"queue_event", .queueEvent, [.str, .int]⟩, ⟨"exec_queue", .execQueue, []⟩,
    ⟨"pushvar", .pushVar, [.var]⟩, ⟨"pushint", .pushInt, [.int]⟩, ⟨"pop", .pop, [.var]⟩,
    ⟨"_pushappvar", .pushAppVar, []⟩, ⟨"_cmp", .cmp, []⟩, ⟨"_jmp", .jmp, []⟩]

/-- An entry of the table of a derived class: a name, a number and parameters. -/
structure ExtOpCode where
  name : String
  number : Nat
  paramType : List OpCodeParamType
  deriving DecidableEq, Repr

/-- What a derived class adds to the compiler. -/
structure Dialect where
  extended : List ExtOpCode := []
  /-- `HandleAdvancedCommand`: the instructions of the commands that it knows. -/
  handleAdvancedCommand : List String → Option (List OpData) := fun _ => .none

namespace Dialect

variable (g : Dialect)

def table : List OpCodeInfo :=
  defCoreOpCode ++ g.extended.map fun info => ⟨info.name, .ext info.number, info.paramType⟩

def getInstructionData (opcode : OpCode) : OpCodeInfo :=
  (g.table.find? (·.opCode = opcode)).getD ⟨"nop", .nop, []⟩

def getInstructionDataByName (name : String) : OpCodeInfo :=
  (g.table.find? (·.name = name)).getD ⟨"nop", .nop, []⟩

end Dialect

structure LabelDef where
  name : String
  /-- Minus one until the label is defined. -/
  instrOffset : Int
  deriving DecidableEq, Repr

inductive CallStyle where
  | call | goto
  deriving DecidableEq, Repr

structure ScriptDef where
  instr : List OpData := []
  stringList : List String := []
  label : List LabelDef := []
  varName : List String := []
  curInst : Nat := 0
  mIntArray : List String := []
  queueExternalJumps : Bool := false
  queueCallStyle : CallStyle := .call
  deriving DecidableEq, Repr

structure BlockData where
  mInstIndex : Nat
  mInstIndexElse : Nat := 0
  mResolved : Bool := false
  mUseElse : Bool := false
  deriving DecidableEq, Repr

structure ScriptCompiler where
  mBlockData : List BlockData := []
  mSymbols : String → Option String := fun _ => .none
  mPendingLabelReference : List Nat := []

/-! ### Tokens -/

/-- The loop of `Tokenize`: the tokens of a line, and which of them were quoted. `word` is
the token that has started, `quote` that it is a quoted one. A quote that is not closed is
dropped, as is what stands directly in front of a quote. -/
def tokenizeLoop : Text → Option Text → Bool → List (String × Bool)
  | [], some word, false => [(String.ofList word.reverse, false)]
  | [], _, _ => []
  | '"' :: rest, _, false => tokenizeLoop rest (some []) true
  | '"' :: rest, word, true =>
      (String.ofList (word.getD []).reverse, true) :: tokenizeLoop rest .none false
  | c :: rest, some word, false =>
      if c = ' ' ∨ c = '\t' then
        (String.ofList word.reverse, false) :: tokenizeLoop rest .none false
      else tokenizeLoop rest (some (c :: word)) false
  | c :: rest, .none, false =>
      if c = ' ' ∨ c = '\t' then tokenizeLoop rest .none false
      else tokenizeLoop rest (some [c]) false
  | c :: rest, word, true => tokenizeLoop rest (some (c :: word.getD [])) true

/-- A line as `Tokenize` reads it. -/
structure Line where
  tokens : List String
  quoted : List String := []
  deriving DecidableEq, Repr

def tokenize (line : Text) : Line where
  tokens := (tokenizeLoop line .none false).map Prod.fst
  quoted := ((tokenizeLoop line .none false).filter Prod.snd).map Prod.fst

/-- `CheckSymbolReplacements`. -/
def checkSymbolReplacements (symbols : String → Option String) (tokens : List String) :
    List String :=
  tokens.map fun token => (symbols token).getD token

/-! ### Operands -/

/-- The number `atof` finds: digits with a point and an exponent. -/
def atof (t : Text) : ℚ :=
  let t := t.dropWhile Char.isWhitespace
  let sign : ℚ := if t.head? = some '-' then -1 else 1
  let t := if t.head? = some '-' ∨ t.head? = some '+' then t.tail else t
  let whole := t.takeWhile Char.isDigit
  let t := t.dropWhile Char.isDigit
  let fraction := if t.head? = some '.' then t.tail.takeWhile Char.isDigit else []
  let t := if t.head? = some '.' then t.tail.dropWhile Char.isDigit else t
  let exponent := if t.head? = some 'e' ∨ t.head? = some 'E' then parseSigned t.tail else 0
  sign * parseNat (whole ++ fraction) * 10 ^ (exponent - fraction.length)

/-- `int value = atof(token)`. -/
def truncate (q : ℚ) : Int := q.num.tdiv q.den

def resolveComparisonType (token : String) : ComparisonType :=
  if token = "=" then .eq
  else if token = "!=" then .neq
  else if token = "<" then .lt
  else if token = "<=" then .lte
  else if token = ">" then .gt
  else if token = ">=" then .gte
  else .inv

/-- The number of a comparison in `param1`. -/
def ComparisonType.code : ComparisonType → Int
  | .inv => 0
  | .eq => 1
  | .neq => 2
  | .lt => 3
  | .lte => 4
  | .gt => 5
  | .gte => 6

def convertParamTypeToPushType : OpCodeParamType → Option OpCode
  | .int => some .pushInt
  | .float => some .pushFloat
  | .var => some .pushVar
  | .appInt => some .pushAppVar
  | _ => .none

namespace ScriptDef

variable (d : ScriptDef)

def pushOpCode (op : OpData) : ScriptDef :=
  { d with instr := d.instr ++ [op], curInst := d.curInst + 1 }

def getVariableIndex (name : String) : Option Nat := d.varName.findIdx? (· = name)

def createVariable (name : String) : ScriptDef × Int :=
  match d.getVariableIndex name with
  | some i => (d, i)
  | .none => ({ d with varName := d.varName ++ [name] }, d.varName.length)

def getStringIndex (name : String) : Option Nat := d.stringList.findIdx? (· = name)

def createString (name : String) : ScriptDef × Int :=
  match d.getStringIndex name with
  | some i => (d, i)
  | .none => ({ d with stringList := d.stringList ++ [name] }, d.stringList.length)

/-- `CreateIntArray` returns the last array, also when the name is that of another one. -/
def createIntArray (name : String) : ScriptDef × Int :=
  let d := if name ∈ d.mIntArray then d else { d with mIntArray := d.mIntArray ++ [name] }
  (d, (d.mIntArray.length : Int) - 1)

def getLabelIndex (name : String) : Option Nat := d.label.findIdx? (·.name = name)

def createLabel (name : String) (targInst : Int) : ScriptDef × Int :=
  if name = "" then (d, -1)
  else
    let d := if (d.getLabelIndex name).isSome then d
      else { d with label := d.label ++ [⟨name, targInst⟩] }
    let r := (d.getLabelIndex name).getD 0
    let d := if 0 ≤ targInst then
        { d with label := d.label.modify r fun l => { l with instrOffset := targInst } }
      else d
    (d, r)

/-- `ResolveOperandType`: the kind of the operand and its value. -/
def resolveOperandType (token : String) : ScriptDef × OpCodeParamType × Int :=
  if token.toList.head? = some '@' then
    ((d.createString token).1, .appInt, (d.createString token).2)
  else
    match d.getVariableIndex token with
    | some i => (d, .var, i)
    | .none =>
        if '.' ∈ token.toList then (d, .float, truncate (atof token.toList))
        else (d, .int, atoi token.toList)

/-- `ResolveOperand`: the value, and the type of the push that is needed. -/
def resolveOperand (paramType : OpCodeParamType) (token : Option String) :
    ScriptDef × Int × OpCodeParamType :=
  match token with
  | .none => (d, 0, .none)
  | some token =>
      match paramType with
      | .label => ((d.createLabel token (-1)).1, (d.createLabel token (-1)).2, .none)
      | .str => ((d.createString token).1, (d.createString token).2, .none)
      | .float => (d, truncate (atof token.toList), .none)
      | .int => (d, atoi token.toList, .none)
      | .var => ((d.createVariable token).1, (d.createVariable token).2, .none)
      | .intArr => ((d.createIntArray token).1, (d.createIntArray token).2, .none)
      | .intStk =>
          ((d.resolveOperandType token).1, (d.resolveOperandType token).2.2,
            (d.resolveOperandType token).2.1)
      | _ => (d, 0, .none)

/-- One turn of the loop over the parameters of an instruction. -/
def compileParam (paramType : OpCodeParamType) (token : Option String) : ScriptDef × Int :=
  let r := d.resolveOperand paramType token
  match convertParamTypeToPushType r.2.2 with
  | some op => (r.1.pushOpCode { opCode := op, param1 := r.2.1 }, 0)
  | .none => (r.1, r.2.1)

/-- The loop over the parameters of an instruction. -/
def compileParams : List OpCodeParamType → List String → ScriptDef → ScriptDef × List Int
  | [], _, d => (d, [])
  | paramType :: rest, tokens, d =>
      let r := d.compileParam paramType tokens.head?
      let r' := compileParams rest tokens.tail r.1
      (r'.1, r.2 :: r'.2)

end ScriptDef

/-! ### Lines -/

/-- What a line asks for. -/
inductive Command where
  | empty
  | label (name : String)
  | ifStatement (args : List String)
  | endif
  | elseStatement
  | recompare
  | metaData (tokens : List String)
  | advanced (ops : List OpData)
  | instruction (opname : String) (args : List String)
  deriving DecidableEq, Repr

/-- The tests of `CompileLine`, in their order. -/
def Dialect.command (g : Dialect) : List String → Command
  | [] => .empty
  | opname :: args =>
      if opname.toList.head? = some ':' then .label (String.ofList opname.toList.tail)
      else if opname = "if" then .ifStatement args
      else if opname = "endif" then .endif
      else if opname = "else" then .elseStatement
      else if opname = "recompare" then .recompare
      else if opname.toList.head? = some '#' then .metaData (opname :: args)
      else
        match g.handleAdvancedCommand (opname :: args) with
        | some ops => .advanced ops
        | .none => .instruction opname args

/-- The script and what is needed while it is compiled. -/
structure Compilation where
  d : ScriptDef := {}
  compileData : ScriptCompiler := {}

namespace Compilation

variable (g : Dialect) (s : Compilation)

def pushOpCode (op : OpData) : Compilation := { s with d := s.d.pushOpCode op }

def openBlock (instructionIndex : Nat) : Compilation :=
  { s with compileData := { s.compileData with
      mBlockData := ⟨instructionIndex, 0, false, false⟩ :: s.compileData.mBlockData } }

def getLastUnresolvedBlock : Option BlockData := s.compileData.mBlockData.find? (!·.mResolved)

/-- Change the last block that is not resolved. -/
def modifyLastUnresolvedBlock (f : BlockData → BlockData) : Compilation :=
  { s with compileData := { s.compileData with
      mBlockData := s.compileData.mBlockData.modify
        (s.compileData.mBlockData.findIdx (!·.mResolved)) f } }

def closeBlock : Compilation :=
  s.modifyLastUnresolvedBlock fun block => { block with mResolved := true }

/-- Change an instruction that was pushed before. -/
def patch (index : Nat) (f : OpData → OpData) : Compilation :=
  { s with d := { s.d with instr := s.d.instr.modify index f } }

/-- The line `if`, with its arguments. -/
def compileIf : List String → Compilation
  | left :: cmp :: right :: rest =>
      let l := s.d.resolveOperandType left
      let r := l.1.resolveOperandType right
      let s := { s with d := r.1 }
      if resolveComparisonType cmp = .inv then s
      else
        let pushRight := convertParamTypeToPushType r.2.1
        let pushLeft := convertParamTypeToPushType l.2.1
        let s := pushRight.elim s fun op => s.pushOpCode { opCode := op, param1 := r.2.2 }
        let s := pushLeft.elim s fun op => s.pushOpCode { opCode := op, param1 := l.2.2 }
        if pushRight.isSome ∧ pushLeft.isSome then
          let jumpCount := if rest[1]? = some "else" then atoi "else".toList else 2
          (s.openBlock s.d.curInst).pushOpCode
            { opCode := .cmp, param1 := (resolveComparisonType cmp).code, param2 := jumpCount }
        else s
  | _ => s

def compileEndif : Compilation :=
  match s.getLastUnresolvedBlock with
  | .none => s
  | some block =>
      let s :=
        if block.mUseElse then
          (s.patch block.mInstIndex fun op =>
            { op with param2 := (block.mInstIndexElse : Int) - block.mInstIndex + 1 }).patch
              block.mInstIndexElse fun op => { op with param1 := s.d.curInst }
        else
          s.patch block.mInstIndex fun op =>
            { op with param2 := (s.d.curInst : Int) - block.mInstIndex }
      s.closeBlock

def compileElse : Compilation :=
  match s.getLastUnresolvedBlock with
  | .none => s
  | some _ =>
      (s.modifyLastUnresolvedBlock fun block =>
        { block with mInstIndexElse := s.d.curInst, mUseElse := true }).pushOpCode
          { opCode := .jmp, param1 := s.d.curInst + 1 }

def compileRecompare : Compilation :=
  match s.getLastUnresolvedBlock with
  | .none => s
  | some block => s.pushOpCode { opCode := .jmp, param1 := (block.mInstIndex : Int) - 2 }

/-- `SetMetaDataBase`, as far as it goes into the instructions and the event queue. -/
def setMetaDataBase (tokens : List String) : Compilation :=
  match tokens with
  | "#symbol" :: key :: value :: _ =>
      { s with compileData := { s.compileData with
          mSymbols := Function.update s.compileData.mSymbols key (some value) } }
  | "#queue_jumps" :: rest =>
      { s with d := { s.d with
          queueExternalJumps := true
          queueCallStyle := if rest.head? = some "goto" then .goto else .call } }
  | _ => s

/-- A line that names an instruction of the tables. -/
def compileInstruction (opname : String) (args : List String) : Compilation :=
  let opinfo := g.getInstructionDataByName opname
  if opinfo.opCode = .nop then s
  else
    let r := s.d.compileParams opinfo.paramType args
    let s := { s with d := r.1 }
    let s := if .label ∈ opinfo.paramType then
        { s with compileData := { s.compileData with
            mPendingLabelReference := s.compileData.mPendingLabelReference ++ [s.d.curInst] } }
      else s
    s.pushOpCode ⟨opinfo.opCode, r.2.getD 0 0, r.2.getD 1 0, r.2.getD 2 0⟩

/-- What `CompileLine` does with the command of a line. -/
def execute : Command → Compilation
  | .empty => s
  | .label name => { s with d := (s.d.createLabel name s.d.curInst).1 }
  | .ifStatement args => s.compileIf args
  | .endif => s.compileEndif
  | .elseStatement => s.compileElse
  | .recompare => s.compileRecompare
  | .metaData tokens => s.setMetaDataBase tokens
  | .advanced ops => ops.foldl pushOpCode s
  | .instruction opname args => s.compileInstruction g opname args

/-- The quoted tokens of a line go to the strings. -/
def addQuoted (line : Line) : Compilation :=
  { s with d := { s.d with stringList := s.d.stringList ++ line.quoted } }

/-- A line that was read. -/
def compileRead (line : Line) : Compilation :=
  (s.addQuoted line).execute g (g.command line.tokens)

/-- What a line reads as, with the symbols that are known. -/
def read (line : Text) : Line :=
  { tokenize line with
    tokens := checkSymbolReplacements s.compileData.mSymbols (tokenize line).tokens }

def compileLine (line : Text) : Compilation := s.compileRead g (s.read line)

/-- Replace a label index by the offset of the label. -/
def labelOffset (labels : List LabelDef) (index : Int) : Int :=
  ((labels[index.toNat]?).map LabelDef.instrOffset).getD 0

/-- The turn of the loop of `FinalizeCompile` for one instruction. -/
def resolveLabels (labels : List LabelDef) (op : OpData) : OpData :=
  let paramType := (g.getInstructionData op.opCode).paramType
  { op with
    param1 := if paramType[0]? = some .label then labelOffset labels op.param1 else op.param1
    param2 := if paramType[1]? = some .label then labelOffset labels op.param2 else op.param2
    param3 := if paramType[2]? = some .label then labelOffset labels op.param3 else op.param3 }

def finalizeCompile : ScriptDef :=
  let labels := s.d.label.map fun l => if l.instrOffset = -1 then { l with instrOffset := 0 } else l
  { s.d with
    label := labels
    instr := s.compileData.mPendingLabelReference.foldl
      (fun instr index => instr.modify index (resolveLabels g labels)) s.d.instr }

end Compilation

/-- `CompileFromSource`, from the lines of the file. -/
def compileSource (g : Dialect) (lines : List Text) : ScriptDef :=
  (lines.foldl (Compilation.compileLine g) {}).finalizeCompile g

end Iceee.Tsl
