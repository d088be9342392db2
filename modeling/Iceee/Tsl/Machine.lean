import Iceee.Lib.Machine
import Iceee.Tsl.Player

/-!
# The virtual machine of TSL scripts

`RunSingleInstruction` runs the instruction at `curInst` on the variables, the arrays and the two
stacks, and then moves `curInst` on by `advance`, which is a 16-bit number.

## Implementation notes

What a derived class adds is a `Host`: its instructions, each with the advance that it leaves, and
the properties of the application, which may change with time. A result of `none` is an access
outside of a list. `mActive` is true, and processing times and log messages are left out.
-/

namespace Iceee.Tsl

open Lib

def MAX_ARRAY_DATA_SIZE : Nat := 64

/-- The player with its variables and arrays, and the clock. -/
structure ScriptMachine extends ScriptPlayer where
  vars : List Int := []
  intArray : List (List Int) := []
  g_ServerTime : Nat := 0
  deriving DecidableEq, Repr

/-- What a derived class adds to the player. -/
structure Host where
  getApplicationPropertyAsInteger : Nat → String → Int := fun _ _ => 0
  /-- `RunImplementationCommands`, with the value of `advance` that it leaves. -/
  runImplementationCommands : Nat → OpData → ScriptMachine → ScriptMachine × Int :=
    fun _ _ m => (m, 1)

namespace ScriptMachine

variable (d : ScriptDef) (host : Host) (m : ScriptMachine)

/-- `FullReset`. -/
def fullReset (now : Nat) : ScriptMachine where
  vars := List.replicate d.varName.length 0
  intArray := List.replicate d.mIntArray.length []
  g_ServerTime := now

/-- A change of the player alone. -/
def withPlayer (f : ScriptPlayer → ScriptPlayer) : ScriptMachine :=
  { m with toScriptPlayer := f m.toScriptPlayer }

/-- `PushVarStack`; nothing is pushed on a full stack. -/
def pushVarStack (value : Int) : ScriptMachine :=
  if MAX_STACK_SIZE < m.varStack.length then m else { m with varStack := m.varStack ++ [value] }

/-- `PopVarStack`; an empty stack gives 0. -/
def popVarStack : Int × ScriptMachine :=
  (m.varStack.getLast?.getD 0, { m with varStack := m.varStack.dropLast })

/-- `PopCallStack`. -/
def popCallStack : Int × ScriptMachine :=
  (m.callStack.getLast?.getD 0, { m with callStack := m.callStack.dropLast })

/-- `GetVarValue`; an index out of range reads 0. -/
def getVarValue (index : Int) : Int :=
  if 0 ≤ index then m.vars[index.toNat]?.getD 0 else 0

/-- `SetVar`; an index out of range changes nothing. -/
def setVar (index value : Int) : ScriptMachine :=
  if 0 ≤ index then { m with vars := m.vars.set index.toNat value } else m

/-- `vars[index]++` and `vars[index]--`. -/
def addVar (index change : Int) : Option ScriptMachine :=
  if 0 ≤ index ∧ index < m.vars.length then
    some (m.setVar index (wrap32 (m.getVarValue index + change)))
  else none

/-- `GetStringPtr`. -/
def getStringPtr (index : Int) : String :=
  if 0 ≤ index then d.stringList[index.toNat]?.getD "<null>" else "<null>"

/-- The array of an index that `VerifyIntArrayIndex` accepts. -/
def array (index : Int) : List Int :=
  if 0 ≤ index then m.intArray[index.toNat]?.getD [] else []

/-- Change the array of an index that `VerifyIntArrayIndex` accepts. -/
def modifyArray (index : Int) (f : List Int → List Int) : ScriptMachine :=
  if 0 ≤ index then { m with intArray := m.intArray.modify index.toNat f } else m

/-- `IntArray::Append`. -/
def append (value : Int) (data : List Int) : List Int :=
  if MAX_ARRAY_DATA_SIZE ≤ data.length then data else data ++ [value]

/-- `IntArray::RemoveByIndex`. -/
def removeByIndex (index : Int) (data : List Int) : List Int :=
  if 0 ≤ index then data.eraseIdx index.toNat else data

/-- `IntArray::GetValueByIndex`. -/
def getValueByIndex (index : Int) (data : List Int) : Int :=
  if 0 ≤ index then data[index.toNat]?.getD 0 else 0

/-- An application property, now. -/
def appProperty (index : Int) : Int :=
  host.getApplicationPropertyAsInteger m.g_ServerTime (getStringPtr d index)

end ScriptMachine

/-- The comparison that `OP_CMP` makes. -/
def ComparisonType.holds (left right : Int) : ComparisonType → Bool
  | .inv => false
  | .eq => left = right
  | .neq => left ≠ right
  | .lt => left < right
  | .lte => left ≤ right
  | .gt => left > right
  | .gte => left ≥ right

/-- The comparison of a number in `param1`. -/
def ComparisonType.ofCode (code : Int) : ComparisonType :=
  if code = 1 then .eq
  else if code = 2 then .neq
  else if code = 3 then .lt
  else if code = 4 then .lte
  else if code = 5 then .gt
  else if code = 6 then .gte
  else .inv

@[simp] theorem ComparisonType.ofCode_code (cmp : ComparisonType) : ofCode cmp.code = cmp := by
  cases cmp <;> rfl

/-- What an instruction leaves: the machine, `advance` and `breakScript`. -/
structure Performed where
  machine : ScriptMachine
  advance : Int := 1
  breakScript : Bool := false

namespace ScriptMachine

variable (d : ScriptDef) (host : Host) (m : ScriptMachine)

/-- The switch of `RunSingleInstruction`. -/
def perform (instr : OpData) : Option Performed :=
  match instr.opCode with
  | .end_ => some { machine := m.withPlayer .endExecution, breakScript := true }
  | .goto | .jmp => some { machine := { m with curInst := instr.param1 }, advance := 0 }
  | .resetGoto =>
      some
        { machine := m.withPlayer (·.resetGoto m.g_ServerTime instr.param1)
          advance := 0 }
  | .print | .printVar | .printAppVar | .printIntArr | .nop => some { machine := m }
  | .wait =>
      some
        { machine := { m with nextFire := ((m.g_ServerTime + instr.param1) % 2 ^ 64).toNat }
          breakScript := true }
  | .pushVar => some { machine := m.pushVarStack (m.getVarValue instr.param1) }
  | .pushAppVar => some { machine := m.pushVarStack (m.appProperty d host instr.param1) }
  | .pushInt => some { machine := m.pushVarStack instr.param1 }
  | .pushFloat => some { machine := m }
  | .pop => some { machine := m.popVarStack.2.setVar instr.param1 m.popVarStack.1 }
  | .cmp =>
      let left := m.popVarStack
      let right := left.2.popVarStack
      let result := (ComparisonType.ofCode instr.param1).holds left.1 right.1
      some { machine := right.2, advance := if result then 1 else instr.param2 }
  | .inc => (m.addVar instr.param1 1).map fun m => { machine := m }
  | .dec => (m.addVar instr.param1 (-1)).map fun m => { machine := m }
  | .set => some { machine := m.setVar instr.param1 instr.param2 }
  | .copyVar => some { machine := m.setVar instr.param2 (m.getVarValue instr.param1) }
  | .getAppVar =>
      some { machine := m.setVar instr.param2 (m.appProperty d host instr.param1) }
  | .call => some { machine := m.withPlayer (·.call instr.param1), advance := 0 }
  | .return_ =>
      some { machine := { m.popCallStack.2 with curInst := m.popCallStack.1 }, advance := 0 }
  | .iarrAppend =>
      some { machine := m.popVarStack.2.modifyArray instr.param1 (append m.popVarStack.1) }
  | .iarrDelete =>
      some { machine := m.popVarStack.2.modifyArray instr.param1 (removeByIndex m.popVarStack.1) }
  | .iarrValue =>
      let index := m.popVarStack
      some
        { machine :=
            if 0 ≤ instr.param1 ∧ instr.param1 < m.intArray.length then
              index.2.setVar instr.param3 (getValueByIndex index.1 (m.array instr.param1))
            else index.2 }
  | .iarrClear => some { machine := m.modifyArray instr.param1 fun _ => [] }
  | .iarrSize => some { machine := m.setVar instr.param2 (m.array instr.param1).length }
  | .queueEvent =>
      some
        { machine := m.withPlayer
            (·.queueEvent m.g_ServerTime (getStringPtr d instr.param1)
              (instr.param2 % 2 ^ 64).toNat) }
  | .execQueue =>
      (m.toScriptPlayer.execQueue d m.g_ServerTime).map fun r =>
        { machine := { m with toScriptPlayer := r.1 }, advance := r.2 }
  | .ext n =>
      some
        { machine := (host.runImplementationCommands n instr m).1
          advance := (host.runImplementationCommands n instr m).2 }

/-- `short advance`. -/
def wrapAdvance (advance : Int) : Int := advance.bmod (2 ^ 16)

/-- `RunSingleInstruction`, and whether the script is interrupted. -/
def runSingleInstruction : Option (ScriptMachine × Bool) :=
  if !m.mExecuting then some (m, true)
  else if d.instr.length ≤ m.curInst then some ({ m with mExecuting := false }, true)
  else if m.g_ServerTime < m.nextFire then some (m, true)
  else if m.curInst < 0 then none
  else
    (d.instr[m.curInst.toNat]?).bind fun instr =>
      (m.perform d host instr).map fun r =>
        ({ r.machine with curInst := r.machine.curInst + wrapAdvance r.advance }, r.breakScript)

/-! ### Runs -/

/-- The machine at another instruction. -/
def setCurInst (curInst : Int) : ScriptMachine := { m with curInst := curInst }

/-- The machine at a later time. -/
def wake (now : Nat) : ScriptMachine := { m with g_ServerTime := now }

/-- The machine may run an instruction at the time `now`. -/
def Wakes (now : Nat) : Prop := m.mExecuting = true ∧ m.g_ServerTime ≤ now ∧ m.nextFire ≤ now

/-- An instruction is run, now or later. -/
def Step (m m' : ScriptMachine) : Prop :=
  ∃ now, m.Wakes now ∧ ∃ interrupted,
    (m.wake now).runSingleInstruction d host = some (m', interrupted)

/-- Any number of instructions. -/
abbrev Steps : ScriptMachine → ScriptMachine → Prop := Relation.ReflTransGen (Step d host)

/-- The instruction goes on to the next one, wherever it stands. -/
def GoesOn (instr : OpData) (m m' : ScriptMachine) : Prop :=
  ∀ k : Int, ∃ interrupted,
    (m.setCurInst k).perform d host instr = some ⟨m'.setCurInst k, 1, interrupted⟩

end ScriptMachine

/-! ### Single steps -/

namespace ScriptMachine

variable {d : ScriptDef} {host : Host} {m m' : ScriptMachine} {now k : Nat} {instr : OpData}

@[simp] theorem setCurInst_setCurInst (m : ScriptMachine) (i j : Int) :
    (m.setCurInst i).setCurInst j = m.setCurInst j := rfl

@[simp] theorem wake_setCurInst (m : ScriptMachine) (i : Int) (now : Nat) :
    (m.setCurInst i).wake now = (m.wake now).setCurInst i := rfl

/-- The instruction that stands at `curInst` is run. -/
theorem runSingleInstruction_eq (hwakes : m.Wakes now) (hinstr : d.instr[k]? = some instr) :
    ((m.wake now).setCurInst k).runSingleInstruction d host =
      (((m.wake now).setCurInst k).perform d host instr).map fun r =>
        (r.machine.setCurInst (r.machine.curInst + wrapAdvance r.advance), r.breakScript) := by
  obtain ⟨hexecuting, _, hfire⟩ := hwakes
  obtain ⟨hlt, rfl⟩ := List.getElem?_eq_some_iff.mp hinstr
  have hrunning : ((m.wake now).setCurInst k).mExecuting = true := hexecuting
  have hlength : ¬(d.instr.length : Int) ≤ ((m.wake now).setCurInst k).curInst := by
    simp only [setCurInst]
    omega
  have htime : ¬((m.wake now).setCurInst k).g_ServerTime < ((m.wake now).setCurInst k).nextFire :=
    Nat.not_lt.mpr hfire
  have hnonneg : ¬((m.wake now).setCurInst k).curInst < 0 := by
    simp only [setCurInst]
    omega
  have hcur : ((m.wake now).setCurInst k).curInst.toNat = k := Int.toNat_natCast k
  rw [runSingleInstruction, hrunning, if_neg (by simp), if_neg hlength, if_neg htime,
    if_neg hnonneg, hcur, hinstr, Option.bind_some]
  rfl

theorem step_of_perform {r : Performed} (hwakes : m.Wakes now) (hinstr : d.instr[k]? = some instr)
    (hperform : ((m.wake now).setCurInst k).perform d host instr = some r) :
    Step d host (m.setCurInst k)
      (r.machine.setCurInst (r.machine.curInst + wrapAdvance r.advance)) := by
  refine ⟨now, hwakes, r.breakScript, ?_⟩
  rw [wake_setCurInst, runSingleInstruction_eq hwakes hinstr, hperform, Option.map_some]

theorem step_of_goesOn (hwakes : m.Wakes now) (hinstr : d.instr[k]? = some instr)
    (hgoes : GoesOn d host instr (m.wake now) m') :
    Step d host (m.setCurInst k) (m'.setCurInst (k + 1 : Nat)) := by
  obtain ⟨interrupted, hperform⟩ := hgoes k
  exact step_of_perform hwakes hinstr hperform

theorem step_jmp {target : Int} (hwakes : m.Wakes now)
    (hinstr : d.instr[k]? = some { opCode := .jmp, param1 := target }) :
    Step d host (m.setCurInst k) ((m.wake now).setCurInst target) := by
  have hperform : ((m.wake now).setCurInst k).perform d host { opCode := .jmp, param1 := target } =
      some ⟨(m.wake now).setCurInst target, 0, false⟩ := rfl
  have hstep := step_of_perform hwakes hinstr hperform
  rwa [setCurInst_setCurInst, show ((m.wake now).setCurInst target).curInst + wrapAdvance 0 = target
    from add_zero target] at hstep

end ScriptMachine

end Iceee.Tsl
