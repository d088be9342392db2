import Iceee.Lib.Trace

/-!
# The event queue of a Squirrel script

A `NutPlayer` keeps its events in `mQueue`. While one of them executes, additions,
insertions and removals go to three side lists, which `ExecQueue` applies afterwards.

## Implementation notes

An event is named by the address `new` gave it, and an address is not given twice. Every
caller of `QueueAdd` and `QueueInsert` passes a new event. The virtual machine is never
suspended. What a callback does is a list of calls on the player, given with the tick that
executes it, together with its result and the outcome of the conditions.

`deleted`, `added`, `withdrawn`, `runs`, `requested` and `fault` are not kept by the code.
They record which events were deleted, accepted, removed or cleared, which callbacks ran
with which result (the last one first), that a halt was requested, and that a deleted event
was dereferenced or deleted again, or an end iterator erased.
-/

namespace Iceee.Squirrel

def MAX_QUEUE_SIZE : Nat := 128

abbrev EventPtr := Nat

/-- `HaltCallback`, or a call of a script function or of native code. -/
inductive Callback where
  | halt
  | call (script : Bool)
  deriving DecidableEq, Repr

structure NutScriptEvent where
  /-- Minus one as `unsigned long`. -/
  mId : Nat := 2 ^ 64 - 1
  mCancelled : Bool := false
  mCallback : Callback
  deriving DecidableEq, Repr

structure NutPlayer where
  mActive : Bool := true
  mHalting : Bool := false
  mRunning : Bool := false
  mHalted : Bool := false
  mClear : Bool := false
  mNextId : Nat := 1
  mExecutingEvent : Option EventPtr := none
  mQueue : List EventPtr := []
  mQueueAdd : List EventPtr := []
  mQueueInsert : List EventPtr := []
  mQueueRemove : List EventPtr := []
  /-- The address of the next event. -/
  next : EventPtr := 0
  heap : EventPtr → NutScriptEvent := fun _ => { mCallback := .call false }
  deleted : List EventPtr := []
  added : List EventPtr := []
  withdrawn : List EventPtr := []
  runs : List (EventPtr × Bool) := []
  requested : Bool := false
  fault : Bool := false

instance : Inhabited NutPlayer := ⟨{}⟩

namespace NutPlayer

variable (s : NutPlayer)

/-- `new NutScriptEvent`, at the address `next`. -/
def new (cb : Callback) : NutPlayer :=
  { s with
    heap := Function.update s.heap s.next { mCallback := cb }
    next := s.next + 1 }

/-- Dereference the events `ps`. -/
def touch (ps : List EventPtr) : NutPlayer :=
  { s with fault := s.fault || ps.any fun p => decide (p ∈ s.deleted) }

def delete (p : EventPtr) : NutPlayer :=
  { s with
    fault := s.fault || decide (p ∈ s.deleted)
    deleted := p :: s.deleted }

def deleteAll (ps : List EventPtr) : NutPlayer := ps.foldl delete s

/-- `evt->mId = mNextId++`. -/
def number (evt : EventPtr) : NutPlayer :=
  { s.touch [evt] with
    heap := Function.update s.heap evt { s.heap evt with mId := s.mNextId }
    mNextId := s.mNextId + 1 }

/-- The events in `mQueueInsert`, `mQueue` and `mQueueAdd`, in the order of a merge. -/
def pending : List EventPtr := s.mQueueInsert ++ s.mQueue ++ s.mQueueAdd

/-- The last branch of `ClearQueue`. -/
def freeQueues : NutPlayer :=
  { s.deleteAll (s.mQueue ++ s.mQueueAdd ++ s.mQueueInsert) with
    mQueue := []
    mQueueAdd := []
    mQueueInsert := []
    mQueueRemove := []
    withdrawn := s.pending ++ s.withdrawn }

def clearQueue : NutPlayer × Nat :=
  if s.mHalting then (s, 0)
  else if s.mExecutingEvent.isSome then ({ s with mClear := true }, 0)
  else (s.freeQueues, s.mQueue.length + s.mQueueAdd.length + s.mQueueInsert.length)

def queueInsert (evt : EventPtr) : NutPlayer × Int :=
  if s.mHalting || !s.mActive then (s, -1)
  else
    let t := s.number evt
    if t.mExecutingEvent.isSome then
      if MAX_QUEUE_SIZE ≤ t.mQueueInsert.length then (t, -1)
      else
        ({ t with mQueueInsert := evt :: t.mQueueInsert, added := evt :: t.added }, s.mNextId)
    else if MAX_QUEUE_SIZE ≤ t.mQueue.length then (t, -1)
    else ({ t with mQueue := evt :: t.mQueue, added := evt :: t.added }, s.mNextId)

def queueAdd (evt : EventPtr) : NutPlayer × Int :=
  if s.mHalting || !s.mActive then (s, -1)
  else
    let t := s.number evt
    if t.mExecutingEvent.isSome then
      if t.mExecutingEvent = some evt then (t, s.mNextId)
      else if MAX_QUEUE_SIZE ≤ t.mQueueAdd.length then (t, -1)
      else
        ({ t with mQueueAdd := t.mQueueAdd ++ [evt], added := evt :: t.added }, s.mNextId)
    else if MAX_QUEUE_SIZE ≤ t.mQueue.length then (t, -1)
    else ({ t with mQueue := t.mQueue ++ [evt], added := evt :: t.added }, s.mNextId)

/-- Record that `evt` is removed, if it is in a queue. -/
def withdraw (evt : EventPtr) : NutPlayer :=
  { s with withdrawn := if evt ∈ s.pending then evt :: s.withdrawn else s.withdrawn }

def queueClear : NutPlayer :=
  if s.mExecutingEvent.isSome then
    let cleared := s.mQueue.filter fun nse => s.mExecutingEvent ≠ some nse
    { s with
      mQueueRemove := s.mQueueRemove ++ cleared
      withdrawn := cleared ++ s.withdrawn }
  else s.clearQueue.1

/-- `mQueueAdd.erase(find(mQueueAdd.begin(), mQueueAdd.end(), evt))`. -/
def eraseAdded (evt : EventPtr) : NutPlayer :=
  { s with
    mQueueAdd := s.mQueueAdd.erase evt
    fault := s.fault || decide (evt ∉ s.mQueueAdd) }

/-- `QueueRemove`. The last two branches erase from `mQueueAdd`. -/
def queueRemove (evt : EventPtr) : NutPlayer :=
  if s.mExecutingEvent.isSome then
    if s.mExecutingEvent = some evt then s
    else { s.withdraw evt with mQueueRemove := evt :: s.mQueueRemove }
  else
    let s := { s.withdraw evt with mQueue := s.mQueue.erase evt }
    let s := if evt ∈ s.mQueueAdd then s.eraseAdded evt else s
    let s := if evt ∈ s.mQueueInsert then s.eraseAdded evt else s
    if evt ∈ s.mQueueRemove then s.eraseAdded evt else s

def getEvent (id : Nat) : Option EventPtr :=
  s.mQueue.find? fun nse => (s.heap nse).mId = id

def cancel (id : Nat) : NutPlayer :=
  match s.getEvent id with
  | some nse => (s.touch (s.mQueue.takeWhile (· ≠ nse) ++ [nse])).queueRemove nse
  | none => s.touch s.mQueue

def haltEvent (immediate : Bool) : NutPlayer :=
  let t := s.new .halt
  { (if immediate then (t.queueInsert s.next).1 else (t.queueAdd s.next).1) with
    mHalting := true
    requested := true }

def halt : NutPlayer := s.haltEvent false

/-- `RunFunction`, where `body` is what the function does. -/
def runFunction (body : NutPlayer → NutPlayer) : NutPlayer :=
  if s.mActive then { body { s with mRunning := true } with mRunning := false } else s

/-- The end of `HaltVM`, after `on_halt`. -/
def shut : NutPlayer :=
  { ({ s with mActive := false, mExecutingEvent := none, mHalting := false }).clearQueue.1 with
    mHalted := true }

/-- `HaltVM`, where `onHalt` is what the function `on_halt` does. -/
def haltVM (onHalt : NutPlayer → NutPlayer) : NutPlayer :=
  if s.mActive then (s.runFunction onHalt).shut else s

/-- The loop of `HaltExecution` over the halt events in the queue. -/
def cancelHalts : NutPlayer :=
  { s.touch s.mQueue with
    heap := fun p =>
      if p ∈ s.mQueue ∧ (s.heap p).mCallback = .halt then { s.heap p with mCancelled := true }
      else s.heap p }

def haltExecution (onHalt : NutPlayer → NutPlayer) : NutPlayer :=
  if s.mHalting || !s.mActive then s
  else if s.mRunning then s.cancelHalts.clearQueue.1.haltEvent true
  else ({ s with mHalting := true, requested := true }).haltVM onHalt

/-- `Execute` of a callback, where `body` is what it does (`on_halt` for a halt). -/
def execute (body : NutPlayer → NutPlayer) : Callback → NutPlayer
  | .halt => s.haltVM body
  | .call true => { body { s with mRunning := true } with mRunning := s.mRunning }
  | .call false => body s

/-- What `Execute` returns: a halt is always done. -/
def outcome (res : Bool) : Callback → Bool
  | .halt => true
  | .call _ => res

/-- `ExecEvent` after the callback: queue the event again or delete it. -/
def finish (nse : EventPtr) (index : Nat) (res : Bool) : NutPlayer :=
  if s.mActive ∧ ¬ s.mHalting ∧ index < s.mQueue.length then
    if res then ({ s with mQueue := s.mQueue.eraseIdx index }).delete nse
    else { s with mQueueAdd := s.mQueueAdd ++ [nse], mQueue := s.mQueue.eraseIdx index }
  else s

def execEvent (nse : EventPtr) (index : Nat) (body : NutPlayer → NutPlayer) (res : Bool) :
    NutPlayer :=
  let cb := (s.heap nse).mCallback
  if (s.heap nse).mCancelled then s.finish nse index true
  else
    let t := s.execute body cb
    { t with runs := (nse, outcome res cb) :: t.runs }.finish nse index (outcome res cb)

/-- Apply a removal that was put off. -/
def applyRemove (nse : EventPtr) : NutPlayer :=
  { s with
    mQueue := s.mQueue.filter (· ≠ nse)
    mQueueAdd := s.mQueueAdd.filter (· ≠ nse)
    mQueueInsert := s.mQueueInsert.filter (· ≠ nse) }.delete nse

/-- Apply the changes that were put off. -/
def applyChanges : NutPlayer :=
  let t := s.mQueueRemove.foldl applyRemove s
  { t with
    mQueue := t.mQueueInsert ++ t.mQueue ++ t.mQueueAdd
    mQueueAdd := []
    mQueueInsert := []
    mQueueRemove := [] }

/-- The end of `ExecQueue`. -/
def settle : NutPlayer :=
  let s := { s with mExecutingEvent := none }
  if s.mClear then { s.clearQueue.1 with mClear := false } else s.applyChanges

/-- The event the loop of `ExecQueue` executes: the first one that is ready. -/
def pick (ready : EventPtr → Bool) : Option Nat :=
  if s.mClear ∨ ¬ s.mActive then none else s.mQueue.findIdx? ready

/-- The loop of `ExecQueue` up to the event at `index`, which it is about to execute. -/
def start (index : Nat) : NutPlayer :=
  { s.touch (s.mQueue.take (index + 1)) with mExecutingEvent := s.mQueue[index]? }

def execQueue (ready : EventPtr → Bool) (body : NutPlayer → NutPlayer) (res : Bool) : NutPlayer :=
  if s.mExecutingEvent.isSome then s
  else
    match s.pick ready with
    | some index => ((s.start index).execEvent (s.mQueue.getD index 0) index body res).settle
    | none => (if s.mClear then s else s.touch s.mQueue).settle

def tick (ready : EventPtr → Bool) (body : NutPlayer → NutPlayer) (res : Bool) : NutPlayer :=
  if s.mActive then s.execQueue ready body res else s

end NutPlayer

/-- A call on the player, from outside or by a callback. -/
inductive Act where
  | queueAdd (script : Bool)
  | queueInsert (script : Bool)
  | queueRemove (evt : EventPtr)
  | cancel (id : Nat)
  | queueClear
  | halt
  | haltExecution (onHalt : List Act)
  /-- The server calls a function of the script. -/
  | runFunction (body : List Act)
  /-- The body is what the callback does that is executed, `on_halt` for a halt. -/
  | tick (ready : EventPtr → Bool) (body : List Act) (res : Bool)

open NutPlayer in
mutual

def perform : Act → NutPlayer → NutPlayer
  | .queueAdd script, s => ((s.new (.call script)).queueAdd s.next).1
  | .queueInsert script, s => ((s.new (.call script)).queueInsert s.next).1
  | .queueRemove evt, s => s.queueRemove evt
  | .cancel id, s => s.cancel id
  | .queueClear, s => s.queueClear
  | .halt, s => s.halt
  | .haltExecution onHalt, s => s.haltExecution (performAll onHalt)
  | .runFunction body, s => s.runFunction (performAll body)
  | .tick ready body res, s => s.tick ready (performAll body) res

def performAll : List Act → NutPlayer → NutPlayer
  | [], s => s
  | a :: rest, s => performAll rest (perform a s)

end

def step (s : NutPlayer) (a : Act) : Option NutPlayer := some (perform a s)

/-- An active player without events. -/
def Fresh (s : NutPlayer) : Prop := s = {}

end Iceee.Squirrel
