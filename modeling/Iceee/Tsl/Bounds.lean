import Iceee.Tsl.EventQueue
import Iceee.Tsl.Machine

/-!
# The memory of the virtual machine

Whatever a script does, its stacks, its arrays and its event queue keep within their sizes. Only
three things reach outside of a list.
-/

namespace Iceee.Tsl

open Lib

variable (d : ScriptDef) (host : Host)

/-- A stack is pushed on while it is not above its size. -/
structure ScriptPlayer.Bounded (p : ScriptPlayer) : Prop where
  varStack : p.varStack.length ≤ MAX_STACK_SIZE + 1
  callStack : p.callStack.length ≤ MAX_STACK_SIZE + 1
  queue : p.scriptEventQueue.length ≤ MAX_QUEUE_SIZE

/-- The sizes that nothing exceeds. -/
structure Bounded (m : ScriptMachine) : Prop where
  vars : m.vars.length = d.varName.length
  arrays : m.intArray.length = d.mIntArray.length
  array : ∀ data ∈ m.intArray, data.length ≤ MAX_ARRAY_DATA_SIZE
  player : m.toScriptPlayer.Bounded

inductive MachineOp where
  | run
  | jumpToLabel (name : String)
  | queueEvent (labelName : String) (fireDelay : Nat)
  | wait (ms : Nat)

/-- `RunSingleInstruction`, the calls from outside, and the clock. -/
def machineStep (m : ScriptMachine) : MachineOp → Option ScriptMachine
  | .run => (m.runSingleInstruction d host).map Prod.fst
  | .jumpToLabel name => some (m.withPlayer (·.jumpToLabel d m.g_ServerTime name))
  | .queueEvent labelName fireDelay =>
      some (m.withPlayer (·.queueEvent m.g_ServerTime labelName fireDelay))
  | .wait ms => some (m.wake (m.g_ServerTime + ms))

/-- An instruction that changes a variable names one, and an event that is taken names a label, or
the jump clears the queue under the loop. -/
def InBounds (m : ScriptMachine) (instr : OpData) : Prop :=
  match instr.opCode with
  | .inc | .dec => 0 ≤ instr.param1 ∧ instr.param1 < m.vars.length
  | .execQueue => ∀ i event, m.toScriptPlayer.firstDue m.g_ServerTime = some (i, event) →
      (d.getLabelIndex event.mLabel).isSome ∨ d.queueExternalJumps = true
  | _ => True

/-- The instruction that is run, if there is one, is there and in bounds. -/
def Ready (m : ScriptMachine) : MachineOp → Prop
  | .run => m.running m.g_ServerTime → m.curInst < d.instr.length →
      0 ≤ m.curInst ∧ ∀ instr ∈ d.instr[m.curInst.toNat]?, InBounds d m instr
  | _ => True

variable {d host} {m : ScriptMachine} {p : ScriptPlayer} {now : Nat}

namespace ScriptPlayer

theorem Bounded.call (h : p.Bounded) (target : Int) : (p.call target).Bounded := by
  rw [ScriptPlayer.call, pushCallStack]
  split
  · exact { h with }
  · next hroom =>
      refine { h with callStack := ?_ }
      rw [List.length_append, List.length_singleton]
      omega

theorem Bounded.resetGoto (h : p.Bounded) (target : Int) : (p.resetGoto now target).Bounded :=
  ⟨Nat.zero_le _, Nat.zero_le _, h.queue⟩

theorem Bounded.endExecution (h : p.Bounded) : p.endExecution.Bounded :=
  { h with queue := Nat.zero_le _ }

theorem Bounded.performJumpRequest (h : p.Bounded) (name : String) (callStyle : CallStyle) :
    (p.performJumpRequest d now name callStyle).Bounded := by
  rw [ScriptPlayer.performJumpRequest]
  split
  · have hexecuting : ({ p with mExecuting := true } : ScriptPlayer).Bounded := { h with }
    cases callStyle with
    | goto => exact hexecuting.resetGoto _
    | call => exact hexecuting.call _
  · split
    · exact h
    · exact h.endExecution

theorem Bounded.queueEvent (h : p.Bounded) (labelName : String) (fireDelay : Nat) :
    (p.queueEvent now labelName fireDelay).Bounded := by
  rw [ScriptPlayer.queueEvent]
  split
  · exact h
  · next hroom =>
      dsimp only
      split
      · exact { h with queue := (List.length_modify _ _ _).trans_le h.queue }
      · refine { h with queue := ?_ }
        rw [List.length_append, List.length_singleton]
        omega

theorem Bounded.jumpToLabel (h : p.Bounded) (name : String) : (p.jumpToLabel d now name).Bounded := by
  rw [ScriptPlayer.jumpToLabel]
  split
  · exact h.queueEvent _ _
  · exact h.performJumpRequest _ _

theorem Bounded.execQueue (h : p.Bounded) {r : ScriptPlayer × Int}
    (hr : p.execQueue d now = some r) : r.1.Bounded := by
  rw [ScriptPlayer.execQueue] at hr
  split at hr
  · next i event _ =>
      have hjump : (p.performJumpRequest d now event.mLabel d.queueCallStyle).Bounded :=
        h.performJumpRequest _ _
      rw [eraseEvent] at hr
      split at hr
      · cases hr
        exact { hjump with queue := (List.length_eraseIdx_le _ _).trans hjump.queue }
      · cases hr
  · cases hr
    exact h

end ScriptPlayer

theorem Bounded.setVar (h : Bounded d m) (index value : Int) : Bounded d (m.setVar index value) := by
  rw [ScriptMachine.setVar]
  split
  · exact { h with vars := List.length_set.trans h.vars }
  · exact h

theorem Bounded.pushVarStack (h : Bounded d m) (value : Int) : Bounded d (m.pushVarStack value) := by
  rw [ScriptMachine.pushVarStack]
  split
  · exact h
  · next hroom =>
      refine { h with player := { h.player with varStack := ?_ } }
      rw [List.length_append, List.length_singleton]
      omega

theorem Bounded.popVarStack (h : Bounded d m) : Bounded d m.popVarStack.2 :=
  { h with player := { h.player with
      varStack := (List.length_dropLast ▸ Nat.sub_le _ _).trans h.player.varStack } }

theorem Bounded.modifyArray (h : Bounded d m) (index : Int) {f : List Int → List Int}
    (hf : ∀ data, data.length ≤ MAX_ARRAY_DATA_SIZE → (f data).length ≤ MAX_ARRAY_DATA_SIZE) :
    Bounded d (m.modifyArray index f) := by
  rw [ScriptMachine.modifyArray]
  split
  · refine { h with arrays := (List.length_modify _ _ _).trans h.arrays, array := ?_ }
    intro data hdata
    obtain ⟨i, hi⟩ := List.mem_iff_getElem?.mp hdata
    rw [List.getElem?_modify] at hi
    obtain ⟨old, hold, heq⟩ := Option.map_eq_some_iff.mp hi
    have hbound := h.array old (List.mem_of_getElem? hold)
    split at heq <;> subst heq
    · exact hf old hbound
    · exact hbound
  · exact h

theorem Bounded.addVar (h : Bounded d m) {index change : Int} {m' : ScriptMachine}
    (hs : m.addVar index change = some m') : Bounded d m' := by
  obtain ⟨-, hs⟩ := Option.ite_none_right_eq_some.mp hs
  exact Option.some.inj hs ▸ h.setVar _ _

theorem length_append_le {data : List Int} (h : data.length ≤ MAX_ARRAY_DATA_SIZE) (value : Int) :
    (ScriptMachine.append value data).length ≤ MAX_ARRAY_DATA_SIZE := by
  rw [ScriptMachine.append]
  split
  · exact h
  · next hroom =>
      rw [List.length_append, List.length_singleton]
      omega

theorem length_removeByIndex_le {data : List Int} (h : data.length ≤ MAX_ARRAY_DATA_SIZE)
    (index : Int) : (ScriptMachine.removeByIndex index data).length ≤ MAX_ARRAY_DATA_SIZE := by
  rw [ScriptMachine.removeByIndex]
  split
  · exact (List.length_eraseIdx_le _ _).trans h
  · exact h

variable (hhost : ∀ n instr m, Bounded d m → Bounded d (host.runImplementationCommands n instr m).1)

include hhost in
/-- One instruction. -/
theorem Bounded.perform (h : Bounded d m) {instr : OpData} {r : Performed}
    (hr : m.perform d host instr = some r) : Bounded d r.machine := by
  obtain ⟨opCode, param1, param2, param3⟩ := instr
  cases opCode with
  | inc | dec =>
      obtain ⟨m', hm', rfl⟩ := Option.map_eq_some_iff.mp hr
      exact h.addVar hm'
  | execQueue =>
      obtain ⟨taken, htaken, rfl⟩ := Option.map_eq_some_iff.mp hr
      exact { h with player := h.player.execQueue htaken }
  | ext n =>
      obtain rfl := Option.some.inj hr
      exact hhost n _ m h
  | end_ =>
      obtain rfl := Option.some.inj hr
      exact { h with player := h.player.endExecution }
  | resetGoto =>
      obtain rfl := Option.some.inj hr
      exact { h with player := h.player.resetGoto _ }
  | call =>
      obtain rfl := Option.some.inj hr
      exact { h with player := h.player.call _ }
  | queueEvent =>
      obtain rfl := Option.some.inj hr
      exact { h with player := h.player.queueEvent _ _ }
  | return_ =>
      obtain rfl := Option.some.inj hr
      exact { h with player := { h.player with
        callStack := (List.length_dropLast ▸ Nat.sub_le _ _).trans h.player.callStack } }
  | pushVar | pushAppVar | pushInt =>
      obtain rfl := Option.some.inj hr
      exact h.pushVarStack _
  | pop =>
      obtain rfl := Option.some.inj hr
      exact h.popVarStack.setVar _ _
  | cmp =>
      obtain rfl := Option.some.inj hr
      exact h.popVarStack.popVarStack
  | set | copyVar | getAppVar | iarrSize =>
      obtain rfl := Option.some.inj hr
      exact h.setVar _ _
  | iarrAppend =>
      obtain rfl := Option.some.inj hr
      exact h.popVarStack.modifyArray _ fun _ hdata => length_append_le hdata _
  | iarrDelete =>
      obtain rfl := Option.some.inj hr
      exact h.popVarStack.modifyArray _ fun _ hdata => length_removeByIndex_le hdata _
  | iarrClear =>
      obtain rfl := Option.some.inj hr
      exact h.modifyArray _ fun _ _ => Nat.zero_le _
  | iarrValue =>
      obtain rfl := Option.some.inj hr
      dsimp only
      split
      · exact h.popVarStack.setVar _ _
      · exact h.popVarStack
  | _ =>
      obtain rfl := Option.some.inj hr
      exact { h with player := { h.player with } }

include hhost in
/-- The step lemma. -/
theorem Bounded.step (h : Bounded d m) {op : MachineOp} {m' : ScriptMachine}
    (hs : machineStep d host m op = some m') : Bounded d m' := by
  cases op with
  | run =>
      obtain ⟨r, hr, rfl⟩ := Option.map_eq_some_iff.mp hs
      rw [ScriptMachine.runSingleInstruction] at hr
      split_ifs at hr
      · cases hr
        exact h
      · cases hr
        exact { h with player := { h.player with } }
      · cases hr
        exact h
      · obtain ⟨instr, -, hrun⟩ := Option.bind_eq_some_iff.mp hr
        obtain ⟨performed, hperformed, rfl⟩ := Option.map_eq_some_iff.mp hrun
        have hkept := h.perform hhost hperformed
        exact { hkept with player := { hkept.player with } }
  | jumpToLabel name =>
      obtain rfl := Option.some.inj hs
      exact { h with player := h.player.jumpToLabel _ }
  | queueEvent labelName fireDelay =>
      obtain rfl := Option.some.inj hs
      exact { h with player := h.player.queueEvent _ _ }
  | wait ms =>
      obtain rfl := Option.some.inj hs
      exact { h with }

theorem isSome_perform_iff {instr : OpData} :
    (m.perform d host instr).isSome ↔ InBounds d m instr := by
  obtain ⟨opCode, param1, param2, param3⟩ := instr
  cases opCode with
  | inc | dec => simp [ScriptMachine.perform, ScriptMachine.addVar, InBounds]
  | execQueue =>
      rw [InBounds, ScriptMachine.perform, Option.isSome_map]
      cases hdue : m.toScriptPlayer.firstDue m.g_ServerTime with
      | none => simp [execQueue_of_none hdue]
      | some t =>
          obtain ⟨i, event⟩ := t
          by_cases hjump : (d.getLabelIndex event.mLabel).isSome ∨ d.queueExternalJumps = true
          · obtain ⟨p', hp', -⟩ := execQueue_of_canJump hdue hjump
            simp [hp', hjump]
          · simp [execQueue_of_not_canJump hdue hjump, hjump]
  | _ => exact iff_of_true rfl trivial

theorem isSome_machineStep_iff {op : MachineOp} :
    (machineStep d host m op).isSome ↔ Ready d m op := by
  cases op with
  | run =>
      rw [machineStep, Option.isSome_map, ScriptMachine.runSingleInstruction, Ready,
        ScriptPlayer.running, decide_eq_true_iff]
      split_ifs with hexecuting hlength htime hneg
      · exact iff_of_true rfl fun hrunning => absurd hrunning.1 (by simpa using hexecuting)
      · exact iff_of_true rfl fun _ hlt => absurd hlength (not_le.mpr hlt)
      · exact iff_of_true rfl fun hrunning => absurd htime (not_lt.mpr hrunning.2)
      · refine iff_of_false Bool.false_ne_true fun hready => ?_
        have hrunning := hready ⟨by simpa using hexecuting, not_lt.mp htime⟩ (not_le.mp hlength)
        exact absurd hneg (not_lt.mpr hrunning.1)
      · have hlt : m.curInst.toNat < d.instr.length := by omega
        have hexecuting : m.mExecuting = true := by simpa using hexecuting
        rw [List.getElem?_eq_getElem hlt, Option.bind_some, Option.isSome_map, isSome_perform_iff]
        simp [hexecuting, not_lt.mp htime, not_le.mp hlength, not_lt.mp hneg]
  | _ => exact iff_of_true rfl trivial

instance {op : MachineOp} : Decidable (Ready d m op) :=
  decidable_of_iff _ (@isSome_machineStep_iff d {} m op)

theorem Bounded.fullReset (d : ScriptDef) (now : Nat) :
    Bounded d (ScriptMachine.fullReset d now) where
  vars := List.length_replicate
  arrays := List.length_replicate
  array _ hdata := (List.eq_of_mem_replicate hdata) ▸ Nat.zero_le _
  player := ⟨Nat.zero_le _, Nat.zero_le _, Nat.zero_le _⟩

/-- A loop that counts. -/
def counter : ScriptDef where
  instr := [{ opCode := .inc }, { opCode := .goto }]
  varName := ["count"]

end Iceee.Tsl
