import Iceee.Tsl.Blocks

/-!
# Structured control flow of TSL scripts

What a block of a script means, and that the machine runs its instructions so. `recompare` makes a
block a loop: the condition of the innermost open `if` is evaluated again.

## Implementation notes

The clock may move on before each instruction. An instruction has a meaning here when it goes on to
the next one wherever it stands, so that a block ends at its last line or at a `recompare`. The
operands of a condition need two places on the stack.

## Main results

* `steps_of_exec`: the machine runs the instructions of a block as the block says.
* `steps_compileSource`: so does the compiled script, from its first instruction to its end.
-/

namespace Iceee.Tsl

open Lib

/-! ### The meaning of a block -/

/-- The instruction has a label, which is resolved when all lines are compiled. -/
def TakesLabel (g : Dialect) (op : OpData) : Prop :=
  .label ∈ (g.getInstructionData op.opCode).paramType

instance (g : Dialect) (op : OpData) : Decidable (TakesLabel g op) :=
  inferInstanceAs (Decidable (_ ∈ _))

/-- How a block ends: at its last line, or at a line `recompare` for a block around it. -/
inductive Outcome where
  | normal
  | again
  deriving DecidableEq, Repr

section Meaning

variable (g : Dialect) (d : ScriptDef) (host : Host)

open ScriptMachine

/-- The condition is decided at the time `now`. The right operand is read before the left one. -/
def Condition.Decides (c : Condition) (m : ScriptMachine) (holds : Bool) (now : Nat) : Prop :=
  ∃ t₁ t₂ left right, m.Wakes t₁ ∧ t₁ ≤ t₂ ∧ t₂ ≤ now ∧
    c.right.value d host (m.wake t₁) = some right ∧ c.left.value d host (m.wake t₂) = some left ∧
      m.varStack.length < MAX_STACK_SIZE ∧ c.cmp.holds left right = holds

/-- Instructions are run one after another. -/
inductive Straight : List OpData → ScriptMachine → ScriptMachine → Prop
  | nil {m} : Straight [] m m
  | cons {op ops m m₁ m₂ now} (hwakes : m.Wakes now) (hlabel : ¬TakesLabel g op)
      (hgoes : GoesOn d host op (m.wake now) m₁) (rest : Straight ops m₁ m₂) :
      Straight (op :: ops) m m₂

/-- What a block does with the machine, whatever `curInst` is. -/
inductive Exec : Code → ScriptMachine → Outcome → ScriptMachine → Prop
  | done {m} : Exec .done m .normal m
  | ops {ops rest m m₁ m₂ o} (hops : Straight g d host ops m m₁) (hrest : Exec rest m₁ o m₂) :
      Exec (.ops ops rest) m o m₂
  | again {rest m now} (hwakes : m.Wakes now) : Exec (.again rest) m .again (m.wake now)
  | ifTrue {c body rest m m₁ m₂ now o} (hc : c.Decides d host m true now)
      (hbody : Exec body (m.wake now) .normal m₁) (hrest : Exec rest m₁ o m₂) :
      Exec (.ifThen c body rest) m o m₂
  | ifFalse {c body rest m m₂ now o} (hc : c.Decides d host m false now)
      (hrest : Exec rest (m.wake now) o m₂) : Exec (.ifThen c body rest) m o m₂
  | ifAgain {c body rest m m₁ m₂ now o} (hc : c.Decides d host m true now)
      (hbody : Exec body (m.wake now) .again m₁) (hagain : Exec (.ifThen c body rest) m₁ o m₂) :
      Exec (.ifThen c body rest) m o m₂
  | elseTrue {c yes no rest m m₁ m₂ now later o} (hc : c.Decides d host m true now)
      (hyes : Exec yes (m.wake now) .normal m₁) (hwakes : m₁.Wakes later)
      (hrest : Exec rest (m₁.wake later) o m₂) : Exec (.ifElse c yes no rest) m o m₂
  | elseFalse {c yes no rest m m₁ m₂ now o} (hc : c.Decides d host m false now)
      (hno : Exec no (m.wake now) .normal m₁) (hrest : Exec rest m₁ o m₂) :
      Exec (.ifElse c yes no rest) m o m₂
  | elseAgain {c yes no rest m m₁ m₂ now holds o} (hc : c.Decides d host m holds now)
      (hbranch : Exec (if holds then yes else no) (m.wake now) .again m₁)
      (hagain : Exec (.ifElse c yes no rest) m₁ o m₂) : Exec (.ifElse c yes no rest) m o m₂

/-- The instructions stand at `base`, where those with a label may have changed. -/
def CodeAt (base : Nat) (code : List OpData) : Prop :=
  ∀ i op, code[i]? = some op → ¬TakesLabel g op → d.instr[base + i]? = some op

end Meaning

/-! ### The machine runs the code of a block -/

section Simulation

variable {g : Dialect} {d : ScriptDef} {host : Host} {m m' : ScriptMachine} {c : Condition}
  {now base : Nat}

open ScriptMachine

theorem codeAt_append {xs ys : List OpData} :
    CodeAt g d base (xs ++ ys) ↔ CodeAt g d base xs ∧ CodeAt g d (base + xs.length) ys := by
  constructor
  · intro h
    refine ⟨fun i op hi hlabel => ?_, fun i op hi hlabel => ?_⟩
    · refine h i op ?_ hlabel
      rw [List.getElem?_append_left (List.getElem?_eq_some_iff.mp hi).1, hi]
    · rw [Nat.add_assoc]
      refine h (xs.length + i) op ?_ hlabel
      rw [List.getElem?_append_right (Nat.le_add_right _ _), Nat.add_sub_cancel_left, hi]
  · rintro ⟨hxs, hys⟩ i op hi hlabel
    rcases Nat.lt_or_ge i xs.length with hlt | hge
    · rw [List.getElem?_append_left hlt] at hi
      exact hxs i op hi hlabel
    · rw [List.getElem?_append_right hge] at hi
      have h := hys _ op hi hlabel
      rwa [Nat.add_assoc, Nat.add_sub_cancel' hge] at h

theorem codeAt_cons {op : OpData} {code : List OpData} :
    CodeAt g d base (op :: code) ↔
      (¬TakesLabel g op → d.instr[base]? = some op) ∧ CodeAt g d (base + 1) code := by
  rw [← List.singleton_append, codeAt_append]
  refine and_congr ⟨fun h => h 0 op rfl, fun h i op' hi hlabel => ?_⟩ Iff.rfl
  cases i with
  | zero =>
      cases hi
      exact h hlabel
  | succ i => cases hi

theorem getInstructionData_core {op : OpCode} {info : OpCodeInfo}
    (h : defCoreOpCode.find? (·.opCode = op) = some info) : g.getInstructionData op = info := by
  rw [Dialect.getInstructionData, Dialect.table, List.find?_append, h]
  rfl

theorem not_takesLabel_cmp {p₁ p₂ : Int} :
    ¬TakesLabel g { opCode := .cmp, param1 := p₁, param2 := p₂ } := by
  rw [TakesLabel, getInstructionData_core rfl]
  decide

theorem not_takesLabel_jmp {target : Int} : ¬TakesLabel g { opCode := .jmp, param1 := target } := by
  rw [TakesLabel, getInstructionData_core rfl]
  decide

theorem not_takesLabel_push {operand : Operand} {value : Int}
    (h : operand.value d host m = some value) : ¬TakesLabel g operand.push := by
  cases operand with
  | float _ => cases h
  | var _ => rw [TakesLabel, getInstructionData_core rfl]; decide
  | int _ => rw [TakesLabel, getInstructionData_core rfl]; decide
  | app _ => rw [TakesLabel, getInstructionData_core rfl]; decide

/-- The instruction of an operand pushes its value. -/
theorem goesOn_push {operand : Operand} {value : Int} (h : operand.value d host m = some value)
    (hroom : m.varStack.length ≤ MAX_STACK_SIZE) :
    GoesOn d host operand.push m { m with varStack := m.varStack ++ [value] } := by
  intro k
  have hpush : (m.setCurInst k).pushVarStack value =
      ({ m with varStack := m.varStack ++ [value] } : ScriptMachine).setCurInst k :=
    if_neg (Nat.not_lt.mpr hroom)
  refine ⟨false, ?_⟩
  rw [← hpush]
  cases operand with
  | float _ => cases h
  | var _ => cases h; rfl
  | int _ => cases h; rfl
  | app _ => cases h; rfl

theorem popVarStack_eq {values : List Int} {value : Int} (h : m.varStack = values ++ [value]) :
    m.popVarStack = (value, { m with varStack := values }) := by
  rw [popVarStack, h, List.getLast?_append, List.dropLast_concat]
  rfl

/-- Both operands are pushed and compared, and nothing else is changed. -/
theorem steps_condition {holds : Bool} {jump : Int} (hc : c.Decides d host m holds now)
    (hcode : CodeAt g d base [c.right.push, c.left.push,
      { opCode := .cmp, param1 := c.cmp.code, param2 := jump }]) :
    Steps d host (m.setCurInst base)
      ((m.wake now).setCurInst (base + 2 + wrapAdvance (if holds then 1 else jump))) := by
  obtain ⟨t₁, t₂, left, right, ⟨hexecuting, hclock, hfire⟩, h₁₂, h₂, hright, hleft, hroom,
    hholds⟩ := hc
  obtain ⟨hfirst, hcode⟩ := codeAt_cons.mp hcode
  obtain ⟨hsecond, hcode⟩ := codeAt_cons.mp hcode
  obtain ⟨hthird, -⟩ := codeAt_cons.mp hcode
  have hpush₁ := goesOn_push (m := m.wake t₁) hright (Nat.le_of_lt hroom)
  have hstep₁ := step_of_goesOn ⟨hexecuting, hclock, hfire⟩
    (hfirst (not_takesLabel_push hright)) hpush₁
  set m₁ : ScriptMachine := { m.wake t₁ with varStack := (m.wake t₁).varStack ++ [right] }
  have hleft₁ : c.left.value d host (m₁.wake t₂) = some left := by
    rw [← hleft]
    cases c.left <;> rfl
  have hroom₁ : (m₁.wake t₂).varStack.length ≤ MAX_STACK_SIZE := by
    change (m.varStack ++ [right]).length ≤ _
    rw [List.length_append]
    exact hroom
  have hstep₂ := step_of_goesOn (m := m₁) ⟨hexecuting, h₁₂, hfire.trans h₁₂⟩
    (hsecond (not_takesLabel_push hleft)) (goesOn_push hleft₁ hroom₁)
  set m₂ : ScriptMachine :=
    { m₁.wake t₂ with varStack := (m₁.wake t₂).varStack ++ [left] } with hm₂
  have hpop : ((m₂.wake now).setCurInst (base + 1 + 1 : Nat)).perform d host
      { opCode := .cmp, param1 := c.cmp.code, param2 := jump } =
        some ⟨(m.wake now).setCurInst (base + 1 + 1 : Nat), if holds then 1 else jump, false⟩ := by
    have hleft₂ : ((m₂.wake now).setCurInst (base + 1 + 1 : Nat)).popVarStack =
        (left, (m₁.wake now).setCurInst (base + 1 + 1 : Nat)) := popVarStack_eq rfl
    have hright₂ : ((m₁.wake now).setCurInst (base + 1 + 1 : Nat)).popVarStack =
        (right, (m.wake now).setCurInst (base + 1 + 1 : Nat)) := popVarStack_eq rfl
    simp only [perform, hleft₂, hright₂, ComparisonType.ofCode_code, hholds]
  have hstep₃ := step_of_perform (m := m₂) ⟨hexecuting, h₂, (hfire.trans h₁₂).trans h₂⟩
    (hthird not_takesLabel_cmp) hpop
  refine .head hstep₁ (.head hstep₂ (.single ?_))
  have hpos : ((base + 1 + 1 : Nat) : Int) = base + 2 := by push_cast; ring
  rw [← hpos]
  exact hstep₃

theorem wrapAdvance_eq {n : Nat} (h : n < 2 ^ 15) : wrapAdvance n = n := by
  unfold wrapAdvance
  apply Int.bmod_eq_of_le <;> omega

/-- Where a block ends, when it stands at `base` and the innermost open `if` compares at `block`. -/
def Outcome.target (base block : Nat) (c : Code) : Outcome → Int
  | .normal => (base + c.size : Nat)
  | .again => (block : Int) - 2

theorem steps_of_straight {ops : List OpData} (hops : Straight g d host ops m m')
    (hcode : CodeAt g d base ops) :
    Steps d host (m.setCurInst base) (m'.setCurInst (base + ops.length : Nat)) := by
  induction hops generalizing base with
  | nil => exact .refl
  | cons hwakes hlabel hgoes _ ih =>
      obtain ⟨hfirst, hrest⟩ := codeAt_cons.mp hcode
      refine .head (step_of_goesOn hwakes (hfirst hlabel) hgoes) ?_
      have hlater := ih hrest
      rwa [Nat.add_right_comm, Nat.add_assoc] at hlater

theorem codeAt_ifThen {body rest : Code} {block : Nat}
    (h : CodeAt g d base ((Code.ifThen c body rest).instructions base block)) :
    CodeAt g d base [c.right.push, c.left.push,
        { opCode := .cmp, param1 := c.cmp.code, param2 := (body.size : Int) + 1 }] ∧
      CodeAt g d (base + 3) (body.instructions (base + 3) (base + 2)) ∧
        CodeAt g d (base + 3 + body.size) (rest.instructions (base + 3 + body.size) block) := by
  obtain ⟨hhead, hblocks⟩ := codeAt_append.mp h
  obtain ⟨hbody, hrest⟩ := codeAt_append.mp hblocks
  rw [Code.length_instructions] at hrest
  exact ⟨hhead, hbody, hrest⟩

theorem codeAt_ifElse {yes no rest : Code} {block : Nat}
    (h : CodeAt g d base ((Code.ifElse c yes no rest).instructions base block)) :
    CodeAt g d base [c.right.push, c.left.push,
        { opCode := .cmp, param1 := c.cmp.code, param2 := (yes.size : Int) + 2 }] ∧
      CodeAt g d (base + 3) (yes.instructions (base + 3) (base + 2)) ∧
        d.instr[base + 3 + yes.size]? = some
            { opCode := .jmp, param1 := (base + 3 + yes.size + 1 + no.size : Nat) } ∧
          CodeAt g d (base + 3 + yes.size + 1)
              (no.instructions (base + 3 + yes.size + 1) (base + 2)) ∧
            CodeAt g d (base + 3 + yes.size + 1 + no.size)
              (rest.instructions (base + 3 + yes.size + 1 + no.size) block) := by
  obtain ⟨hhead, hblocks⟩ := codeAt_append.mp h
  obtain ⟨hyes, hblocks⟩ := codeAt_append.mp hblocks
  rw [Code.length_instructions] at hblocks
  obtain ⟨hjump, hblocks⟩ := codeAt_cons.mp hblocks
  obtain ⟨hno, hrest⟩ := codeAt_append.mp hblocks
  rw [Code.length_instructions] at hrest
  exact ⟨hhead, hyes, hjump not_takesLabel_jmp, hno, hrest⟩

theorem Outcome.target_eq {rest : Code} {base' block : Nat} (o : Outcome) (base : Nat) (code : Code)
    (h : base' + rest.size = base + code.size) :
    o.target base' block rest = o.target base block code := by
  cases o with
  | normal => exact congrArg _ h
  | again => rfl

/-- The condition of an `if` goes on, or jumps over `n` instructions. -/
theorem steps_branch {holds : Bool} {n : Nat} (hc : c.Decides d host m holds now)
    (hcode : CodeAt g d base [c.right.push, c.left.push,
      { opCode := .cmp, param1 := c.cmp.code, param2 := (n : Int) + 1 }]) (hn : n + 1 < 2 ^ 15) :
    Steps d host (m.setCurInst base)
      ((m.wake now).setCurInst (base + 3 + if holds then 0 else n : Nat)) := by
  have hsteps := steps_condition hc hcode
  have hjump : wrapAdvance (if holds then 1 else (n : Int) + 1) =
      (1 + if holds then 0 else n : Nat) := by
    cases holds with
    | true => exact wrapAdvance_eq (by norm_num)
    | false => rw [if_neg (by simp), if_neg (by simp), Nat.add_comm]; exact wrapAdvance_eq hn
  rwa [hjump, show (base : Int) + 2 + (1 + if holds then 0 else n : Nat) =
    (base + 3 + if holds then 0 else n : Nat) by push_cast; ring] at hsteps

/-- The machine does with the instructions of a block what the block says. -/
theorem steps_of_exec {code : Code} {o : Outcome} {block : Nat}
    (hexec : Exec g d host code m o m') (hcode : CodeAt g d base (code.instructions base block))
    (hsize : code.size < 2 ^ 15) :
    Steps d host (m.setCurInst base) (m'.setCurInst (o.target base block code)) := by
  induction hexec generalizing base block with
  | done => exact .refl
  | @ops ops rest _ _ _ _ hops _ ih =>
      obtain ⟨hfirst, hrest⟩ := codeAt_append.mp hcode
      rw [Code.size] at hsize
      refine (steps_of_straight hops hfirst).trans ?_
      have hlater := ih hrest (by omega)
      rwa [Outcome.target_eq _ base (.ops ops rest) (by rw [Code.size, Nat.add_assoc])] at hlater
  | again hwakes =>
      exact .single (step_jmp hwakes ((codeAt_cons.mp hcode).1 not_takesLabel_jmp))
  | @ifTrue c body rest _ _ _ _ _ hc _ _ ihbody ihrest =>
      obtain ⟨hhead, hbody, hrest⟩ := codeAt_ifThen hcode
      rw [Code.size] at hsize
      have hlater := ihrest hrest (by omega)
      rw [Outcome.target_eq _ base (.ifThen c body rest) (by rw [Code.size]; omega)] at hlater
      exact ((steps_branch hc hhead (by omega)).trans (ihbody hbody (by omega))).trans hlater
  | @ifFalse c body rest _ _ _ _ hc _ ihrest =>
      obtain ⟨hhead, _, hrest⟩ := codeAt_ifThen hcode
      rw [Code.size] at hsize
      have hlater := ihrest hrest (by omega)
      rw [Outcome.target_eq _ base (.ifThen c body rest) (by rw [Code.size]; omega)] at hlater
      exact (steps_branch hc hhead (by omega)).trans hlater
  | ifAgain hc _ _ ihbody ihagain =>
      -- `recompare` jumps to the first push in front of the comparison
      have hlater := ihagain hcode hsize
      obtain ⟨hhead, hbody, _⟩ := codeAt_ifThen hcode
      rw [Code.size] at hsize
      have hbranch := ihbody hbody (by omega)
      rw [show Outcome.again.target _ (base + 2) _ = (base : Int) by
        simp [Outcome.target]] at hbranch
      exact ((steps_branch hc hhead (by omega)).trans hbranch).trans hlater
  | @elseTrue c yes no rest _ _ _ _ _ _ hc _ hwakes _ ihyes ihrest =>
      obtain ⟨hhead, hyes, hjump, _, hrest⟩ := codeAt_ifElse hcode
      rw [Code.size] at hsize
      have hlater := ihrest hrest (by omega)
      rw [Outcome.target_eq _ base (.ifElse c yes no rest) (by rw [Code.size]; omega)] at hlater
      have hhead' := steps_branch (n := yes.size + 1) hc (by exact_mod_cast hhead) (by omega)
      exact ((hhead'.trans (ihyes hyes (by omega))).trans (.single (step_jmp hwakes hjump))).trans
        hlater
  | @elseFalse c yes no rest _ _ _ _ _ hc _ _ ihno ihrest =>
      obtain ⟨hhead, _, _, hno, hrest⟩ := codeAt_ifElse hcode
      rw [Code.size] at hsize
      have hlater := ihrest hrest (by omega)
      rw [Outcome.target_eq _ base (.ifElse c yes no rest) (by rw [Code.size]; omega)] at hlater
      have hhead' := steps_branch (n := yes.size + 1) hc (by exact_mod_cast hhead) (by omega)
      exact (hhead'.trans (ihno hno (by omega))).trans hlater
  | @elseAgain c yes no rest _ _ _ _ holds _ hc _ _ ihbranch ihagain =>
      have hlater := ihagain hcode hsize
      obtain ⟨hhead, hyes, _, hno, _⟩ := codeAt_ifElse hcode
      rw [Code.size] at hsize
      have hhead' := steps_branch (n := yes.size + 1) hc (by exact_mod_cast hhead) (by omega)
      have hback : ∀ b' code', Outcome.again.target b' (base + 2) code' = (base : Int) := by
        simp [Outcome.target]
      cases holds with
      | true =>
          have hbranch := ihbranch hyes (by simpa using by omega)
          rw [hback] at hbranch
          exact (hhead'.trans hbranch).trans hlater
      | false =>
          have hbranch := ihbranch hno (by simpa using by omega)
          rw [hback] at hbranch
          exact (hhead'.trans hbranch).trans hlater

end Simulation

/-! ### Whole scripts -/

/-- The lines of a script, each read with the symbols that the ones before have defined. -/
def linesRead (g : Dialect) : Compilation → List Text → List Line
  | _, [] => []
  | s, text :: texts => s.read text :: linesRead g (s.compileLine g text) texts

section Scripts

variable {g : Dialect} {host : Host} {m m' : ScriptMachine} {texts : List Text}

open Compilation ScriptMachine

theorem foldl_compileLine (s : Compilation) (texts : List Text) :
    texts.foldl (compileLine g) s = (linesRead g s texts).foldl (compileRead g) s := by
  induction texts generalizing s with
  | nil => rfl
  | cons text texts ih => exact ih (s.compileLine g text)

theorem resolveLabels_eq {labels : List LabelDef} {op : OpData} (h : ¬TakesLabel g op) :
    resolveLabels g labels op = op := by
  have hnone (i : Nat) :
      ¬(g.getInstructionData op.opCode).paramType[i]? = some OpCodeParamType.label := fun hi =>
    h (List.mem_of_getElem? hi)
  simp only [resolveLabels, if_neg (hnone _)]

/-- Labels are filled in where an instruction has one. -/
theorem getElem?_finalizeCompile {s : Compilation} {i : Nat} {op : OpData}
    (hop : s.d.instr[i]? = some op) (hlabel : ¬TakesLabel g op) :
    (s.finalizeCompile g).instr[i]? = some op := by
  unfold finalizeCompile
  dsimp only
  generalize s.d.instr = instr at hop
  induction s.compileData.mPendingLabelReference generalizing instr with
  | nil => exact hop
  | cons index rest ih =>
      refine ih _ ?_
      rw [List.getElem?_modify, hop]
      split
      · exact congrArg some (resolveLabels_eq hlabel)
      · rfl

theorem length_finalizeCompile (s : Compilation) :
    (s.finalizeCompile g).instr.length = s.d.instr.length := by
  unfold finalizeCompile
  dsimp only
  generalize s.d.instr = instr
  induction s.compileData.mPendingLabelReference generalizing instr with
  | nil => rfl
  | cons index rest ih => rw [List.foldl_cons, ih, List.length_modify]

/-- The instructions of a script of nested blocks do what the blocks say: they run from the first
instruction to behind the last one. -/
theorem steps_compileSource {p : Block} (hshaped : p.Shaped g)
    (hlines : p.lines = linesRead g {} texts) (hsize : (elaborate g {} p).size < 2 ^ 15)
    (hexec : Exec g (compileSource g texts) host (elaborate g {} p) m .normal m') :
    Steps (compileSource g texts) host (m.setCurInst 0)
      (m'.setCurInst (compileSource g texts).instr.length) := by
  have hemits : Emits {} (compileBlock g {} p) ((elaborate g {} p).instructions 0 0) :=
    emits_compileBlock hshaped rfl fun b hb => by cases hb
  have hsource : compileSource g texts = (compileBlock g {} p).finalizeCompile g := by
    rw [compileSource, foldl_compileLine, compileBlock, hlines]
  have hlength : (compileSource g texts).instr.length = (elaborate g {} p).size := by
    rw [hsource, length_finalizeCompile, hemits.instr, List.nil_append, Code.length_instructions]
  have hcode : CodeAt g (compileSource g texts) 0 ((elaborate g {} p).instructions 0 0) := by
    intro i op hop hlabel
    rw [hsource, Nat.zero_add]
    refine getElem?_finalizeCompile ?_ hlabel
    rw [hemits.instr]
    exact hop
  have hsteps := steps_of_exec hexec hcode hsize
  rw [hlength]
  simpa [Outcome.target] using hsteps

/-- A loop that counts to two. -/
def countToTwo : List Text :=
  ["set x 0", "if x < 2", "inc x", "recompare", "endif"].map String.toList

/-- The lines of the loop as a block. -/
def countToTwoBlock : Block :=
  .line ⟨["set", "x", "0"], []⟩ (.ifThen ⟨["if", "x", "<", "2"], []⟩
    (.line ⟨["inc", "x"], []⟩ (.recompare ⟨["recompare"], []⟩ .done)) ⟨["endif"], []⟩ .done)

theorem steps_compileSource_countToTwo :
    Steps (compileSource {} countToTwo) {} { vars := [7] } { vars := [2], curInst := 6 } := by
  have hcode : elaborate {} {} countToTwoBlock =
      .ops [{ opCode := .set }] (.ifThen ⟨.var 0, .lt, .int 2⟩
        (.ops [{ opCode := .inc }] (.again .done)) .done) := by
    decide
  have hwakes (n : Int) : ScriptMachine.Wakes { vars := [n] } 0 := ⟨rfl, le_rfl, le_rfl⟩
  have hset : GoesOn (compileSource {} countToTwo) {} { opCode := .set } { vars := [7] }
      { vars := [0] } := fun _ => ⟨false, rfl⟩
  have hinc₀ : GoesOn (compileSource {} countToTwo) {} { opCode := .inc } { vars := [0] }
      { vars := [1] } := fun _ => ⟨false, rfl⟩
  have hinc₁ : GoesOn (compileSource {} countToTwo) {} { opCode := .inc } { vars := [1] }
      { vars := [2] } := fun _ => ⟨false, rfl⟩
  have hdecides (n : Int) : Condition.Decides (compileSource {} countToTwo) {}
      ⟨.var 0, .lt, .int 2⟩ { vars := [n] } (n < 2) 0 :=
    ⟨0, 0, n, 2, hwakes n, le_rfl, le_rfl, rfl, rfl, Nat.zero_lt_succ 15, rfl⟩
  have hexec : Exec {} (compileSource {} countToTwo) {} (elaborate {} {} countToTwoBlock)
      { vars := [7] } .normal { vars := [2] } := by
    rw [hcode]
    refine .ops (.cons (hwakes 7) (by decide) hset .nil) ?_
    refine .ifAgain (hdecides 0) (.ops (.cons (hwakes 0) (by decide) hinc₀ .nil)
      (.again (hwakes 1))) ?_
    refine .ifAgain (hdecides 1) (.ops (.cons (hwakes 1) (by decide) hinc₁ .nil)
      (.again (hwakes 2))) ?_
    exact .ifFalse (hdecides 2) .done
  have hlength : (compileSource {} countToTwo).instr.length = 6 := by decide
  have hlines : countToTwoBlock.lines = linesRead {} {} countToTwo := by decide
  have hsteps := steps_compileSource (p := countToTwoBlock) (by decide) hlines (by decide) hexec
  rwa [hlength] at hsteps

end Scripts

end Iceee.Tsl
