import Iceee.Lib.Trace
import Iceee.Tsl.Script

/-!
# The player of a TSL script, and its event queue

A script queues labels with the time from which on they may be jumped to, and `exec_queue` jumps to
the first one that may. A definition can have external jumps queued as well.

## Implementation notes

A result of `none` is an erasure at an index that the queue does not have. Variables and arrays are
left out. An instruction that leaves the queue alone may do anything else, and any instruction may
follow any other one. The clock does not wrap.
-/

namespace Iceee.Tsl

def MAX_STACK_SIZE : Nat := 16

def MAX_QUEUE_SIZE : Nat := 32

structure ScriptEvent where
  mLabel : String
  mFireTime : Nat
  deriving DecidableEq, Repr

/-- The player after `FullReset`. -/
structure ScriptPlayer where
  curInst : Int := 0
  mExecuting : Bool := true
  nextFire : Nat := 0
  varStack : List Int := []
  callStack : List Int := []
  scriptEventQueue : List ScriptEvent := []
  deriving DecidableEq, Repr

namespace ScriptPlayer

variable (d : ScriptDef) (g_ServerTime : Nat) (p : ScriptPlayer)

/-- `PushCallStack`; nothing is pushed on a full stack. -/
def pushCallStack (value : Int) : ScriptPlayer :=
  if MAX_STACK_SIZE < p.callStack.length then p else { p with callStack := p.callStack ++ [value] }

/-- `Call`. -/
def call (targetInstructionIndex : Int) : ScriptPlayer :=
  { p.pushCallStack (p.curInst + 1) with curInst := targetInstructionIndex }

/-- `ResetGoto`. -/
def resetGoto (targetInstructionIndex : Int) : ScriptPlayer :=
  { p with
    callStack := []
    varStack := []
    curInst := targetInstructionIndex
    nextFire := g_ServerTime }

/-- `EndExecution`. -/
def endExecution : ScriptPlayer := { p with mExecuting := false, scriptEventQueue := [] }

/-- `PerformJumpRequest`. A script without an event queue ends when the label does not exist. -/
def performJumpRequest (name : String) (callStyle : CallStyle) : ScriptPlayer :=
  match (d.getLabelIndex name).bind (d.label[·]?) with
  | some label =>
      let p := { p with mExecuting := true }
      match callStyle with
      | .goto => p.resetGoto g_ServerTime label.instrOffset
      | .call => p.call label.instrOffset
  | none => if d.queueExternalJumps then p else p.endExecution

/-- `QueueEvent`. A label that is in the queue keeps its place. -/
def queueEvent (labelName : String) (fireDelay : Nat) : ScriptPlayer :=
  if MAX_QUEUE_SIZE ≤ p.scriptEventQueue.length then p
  else
    let fireTime := (g_ServerTime + fireDelay) % 2 ^ 64
    match p.scriptEventQueue.findIdx? (·.mLabel = labelName) with
    | some i =>
        { p with
          scriptEventQueue :=
            p.scriptEventQueue.modify i fun event => { event with mFireTime := fireTime } }
    | none => { p with scriptEventQueue := p.scriptEventQueue ++ [⟨labelName, fireTime⟩] }

/-- `JumpToLabel`. -/
def jumpToLabel (name : String) : ScriptPlayer :=
  if d.queueExternalJumps then p.queueEvent g_ServerTime name 0
  else p.performJumpRequest d g_ServerTime name .goto

/-- `erase` at an index. -/
def eraseEvent (i : Nat) : Option ScriptPlayer :=
  if i < p.scriptEventQueue.length then
    some { p with scriptEventQueue := p.scriptEventQueue.eraseIdx i }
  else none

/-- The event that the loop of `ExecQueue` stops at. -/
def firstDue : Option (Nat × ScriptEvent) :=
  (p.scriptEventQueue.findIdx? (·.mFireTime ≤ g_ServerTime)).bind fun i =>
    (p.scriptEventQueue[i]?).map (i, ·)

/-- `ExecQueue`, and how far the instruction advances. -/
def execQueue : Option (ScriptPlayer × Int) :=
  match p.firstDue g_ServerTime with
  | some (i, event) =>
      ((p.performJumpRequest d g_ServerTime event.mLabel d.queueCallStyle).eraseEvent i).map (·, 0)
  | none => some (p, 1)

/-- `RunSingleInstruction` goes on to the instruction. -/
def running : Bool := p.mExecuting ∧ p.nextFire ≤ g_ServerTime

end ScriptPlayer

/-! ### Runs -/

/-- The player and the clock. -/
structure TslWorld where
  player : ScriptPlayer := {}
  g_ServerTime : Nat := 0
  deriving DecidableEq, Repr

inductive TslOp where
  | queueEvent (labelName : String) (fireDelay : Nat)
  | jumpToLabel (name : String)
  | execQueue
  | endScript
  | clearQueue
  | other (curInst : Int) (nextFire : Nat) (varStack callStack : List Int)
  | wait (ms : Nat)
  deriving DecidableEq, Repr

/-- The instructions `queue_event`, `exec_queue` and `end`, the calls from outside, the other
instructions, and the clock. -/
def tslStep (d : ScriptDef) (w : TslWorld) : TslOp → Option TslWorld
  | .queueEvent labelName fireDelay =>
      some { w with player := w.player.queueEvent w.g_ServerTime labelName fireDelay }
  | .jumpToLabel name => some { w with player := w.player.jumpToLabel d w.g_ServerTime name }
  | .execQueue =>
      if w.player.running w.g_ServerTime then
        (w.player.execQueue d w.g_ServerTime).map fun r =>
          { w with player := { r.1 with curInst := r.1.curInst + r.2 } }
      else some w
  | .endScript =>
      some { w with player := { w.player.endExecution with curInst := w.player.curInst + 1 } }
  | .clearQueue => some { w with player := { w.player with scriptEventQueue := [] } }
  | .other curInst nextFire varStack callStack =>
      some { w with player := { w.player with curInst, nextFire, varStack, callStack } }
  | .wait ms => some { w with g_ServerTime := w.g_ServerTime + ms }

end Iceee.Tsl
