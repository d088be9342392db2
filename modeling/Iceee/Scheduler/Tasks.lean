import Iceee.Lib.Trace

/-!
# The scheduler

`Scheduler` keeps its tasks sorted by due time and caches the due time of the first one.
`Schedule` and `RunScheduledTasks` refresh the cache; `Cancel` does not.

## Implementation notes

There are two readings of time: `g_ServerTime`, which the main loop refreshes, and the
platform clock, which `RunScheduledTasks` reads at every turn of its loop. `sort` is not
stable: a step that sorts is given the order that was left. The counter of task IDs does
not overflow. `log` records what was scheduled, cancelled and submitted, oldest first; the
code does not keep it.
-/

namespace Iceee.Scheduling

variable {τ : Type}

def MAX_TASKS_PER_CYCLE : Nat := 5

structure ScheduledTimerTask (τ : Type) where
  mWhen : Nat
  mTaskId : Nat
  mTask : τ
  deriving DecidableEq, Repr

/-- What happened to a task. -/
inductive Entry (τ : Type) where
  | scheduled (t : ScheduledTimerTask τ)
  | cancelled (id : Nat)
  | submitted (t : ScheduledTimerTask τ) (now : Nat)
  deriving DecidableEq, Repr

structure Scheduler (τ : Type) where
  mRunning : Bool := false
  mNextRun : Nat := 0
  mNextTaskId : Nat := 0
  scheduled : List (ScheduledTimerTask τ) := []
  serverTime : Nat := 0
  clock : Nat := 0
  log : List (Entry τ) := []
  deriving DecidableEq, Repr

/-- When the first task is due, or 0. -/
def due : List (ScheduledTimerTask τ) → Nat
  | [] => 0
  | t :: _ => t.mWhen

/-- What `sort` with `ScheduledTaskSort` may leave of a list. -/
def IsSort (tasks order : List (ScheduledTimerTask τ)) : Prop :=
  order.Perm tasks ∧ order.Pairwise fun l1 l2 => l1.mWhen ≤ l2.mWhen

instance [DecidableEq τ] (tasks order : List (ScheduledTimerTask τ)) :
    Decidable (IsSort tasks order) := inferInstanceAs (Decidable (_ ∧ _))

namespace Scheduler

variable (s : Scheduler τ)

/-- The due time `Schedule` gives: not before the next turn of the main loop. -/
def adjust (mainSleep time : Nat) : Nat :=
  if time ≤ s.serverTime then (s.serverTime + mainSleep) % 2 ^ 64 else time

/-- The task `Schedule` appends. -/
def newTask (mainSleep : Nat) (task : τ) (time : Nat) : ScheduledTimerTask τ where
  mWhen := s.adjust mainSleep time
  mTaskId := s.mNextTaskId
  mTask := task

/-- `Schedule`, where `order` is what `sort` left. -/
def schedule [DecidableEq τ] (mainSleep : Nat) (task : τ) (time : Nat)
    (order : List (ScheduledTimerTask τ)) : Option (Scheduler τ) :=
  let t := s.newTask mainSleep task time
  if IsSort (s.scheduled ++ [t]) order then
    some
      { s with
        mNextTaskId := s.mNextTaskId + 1
        scheduled := order
        mNextRun := due order
        log := s.log ++ [.scheduled t] }
  else none

/-- `ScheduleIn`. -/
def scheduleIn [DecidableEq τ] (mainSleep : Nat) (task : τ) (wait : Nat)
    (order : List (ScheduledTimerTask τ)) : Option (Scheduler τ) :=
  s.schedule mainSleep task ((wait + s.serverTime) % 2 ^ 64) order

/-- `Cancel`: erase the first task with the ID. -/
def cancel (id : Nat) : Scheduler τ :=
  { s with
    scheduled := s.scheduled.eraseP fun it => it.mTaskId = id
    log := if id < s.mNextTaskId then s.log ++ [.cancelled id] else s.log }

/-- Submit the first task. -/
def submit (t : ScheduledTimerTask τ) (rest : List (ScheduledTimerTask τ)) (now : Nat) :
    Scheduler τ :=
  { s with
    scheduled := rest
    mNextRun := due rest
    log := s.log ++ [.submitted t now] }

/-- The loop of `RunScheduledTasks` over the readings of the clock it may make. -/
def runLoop : List Nat → Scheduler τ → Scheduler τ
  | [], s => s
  | now :: nows, s =>
      match s.scheduled with
      | [] => s
      | t :: rest =>
          if s.mRunning ∧ 0 < s.mNextRun then
            if s.mNextRun < now then runLoop nows ({ s with clock := now }.submit t rest now)
            else { s with clock := now }
          else s

/-- `RunScheduledTasks`: the readings of a clock that does not go back. -/
def runScheduledTasks (nows : List Nat) : Option (Scheduler τ) :=
  if nows.length = MAX_TASKS_PER_CYCLE ∧ nows.Pairwise (· ≤ ·) ∧ ∀ now ∈ nows, s.clock ≤ now then
    some (runLoop nows s)
  else none

end Scheduler

inductive Event (τ : Type) where
  /-- The main loop sets `g_ServerTime`. -/
  | refresh (now : Nat)
  | schedule (task : τ) (time : Nat) (order : List (ScheduledTimerTask τ))
  | scheduleIn (task : τ) (wait : Nat) (order : List (ScheduledTimerTask τ))
  | cancel (id : Nat)
  | run (nows : List Nat)
  deriving DecidableEq, Repr

def step [DecidableEq τ] (mainSleep : Nat) (s : Scheduler τ) : Event τ → Option (Scheduler τ)
  | .refresh now => if s.clock ≤ now then some { s with serverTime := now, clock := now } else none
  | .schedule task time order => s.schedule mainSleep task time order
  | .scheduleIn task wait order => s.scheduleIn mainSleep task wait order
  | .cancel id => some (s.cancel id)
  | .run nows => s.runScheduledTasks nows

end Iceee.Scheduling
