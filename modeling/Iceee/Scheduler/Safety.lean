import Iceee.Scheduler.Tasks

/-!
# What the scheduler submits

`Inv` ties the cache to the list and the log to both. Every operation keeps it, except a
`Cancel` that takes the first task away, and a `Schedule` while `g_ServerTime` is behind the
clock. The invariant has `Safe` as its consequence.
-/

namespace Iceee.Scheduling

open Lib

variable {τ : Type} {s : Scheduler τ} {mainSleep : Nat}

/-- The submitted tasks and the time they were submitted at. -/
def submissions (log : List (Entry τ)) : List (ScheduledTimerTask τ × Nat) :=
  log.filterMap fun
    | .submitted t now => some (t, now)
    | _ => none

/-- The time of the last submission, or 0. -/
def Scheduler.lastSubmission (s : Scheduler τ) : Nat :=
  ((submissions s.log).getLast?.map Prod.snd).getD 0

@[simp] theorem submissions_append (l l' : List (Entry τ)) :
    submissions (l ++ l') = submissions l ++ submissions l' := List.filterMap_append

@[simp] theorem submissions_scheduled (t : ScheduledTimerTask τ) :
    submissions [.scheduled t] = [] := rfl

@[simp] theorem submissions_cancelled (id : Nat) :
    submissions [(.cancelled id : Entry τ)] = [] := rfl

@[simp] theorem submissions_submitted (t : ScheduledTimerTask τ) (now : Nat) :
    submissions [.submitted t now] = [(t, now)] := rfl

theorem mem_submissions {log : List (Entry τ)} {t : ScheduledTimerTask τ} {now : Nat} :
    (t, now) ∈ submissions log ↔ .submitted t now ∈ log := by
  unfold submissions
  rw [List.mem_filterMap]
  constructor
  · rintro ⟨entry, hmem, hentry⟩
    cases entry with
    | scheduled t => simp at hentry
    | cancelled id => simp at hentry
    | submitted t' now' =>
        simp only [Option.some.injEq, Prod.mk.injEq] at hentry
        obtain ⟨rfl, rfl⟩ := hentry
        exact hmem
  · intro hmem
    exact ⟨_, hmem, rfl⟩

/-- Tasks are submitted once, in order, not early and not after a cancellation, and the cache has
the time of the first task that waits. -/
structure Safe (s : Scheduler τ) : Prop where
  once : ((submissions s.log).map (·.1.mTaskId)).Nodup
  known : ∀ t now, .submitted t now ∈ s.log → .scheduled t ∈ s.log
  notCancelled : s.log.Pairwise fun a b =>
    ∀ id t now, a = .cancelled id → b = .submitted t now → t.mTaskId ≠ id
  notEarly : ∀ t now, .submitted t now ∈ s.log → t.mWhen ≤ now
  ordered : (submissions s.log).Pairwise fun a b => a.1.mWhen ≤ b.1.mWhen
  nextRun : s.mNextRun = due s.scheduled

/-- When a step does not upset the cache or the order. -/
def Timely (mainSleep : Nat) (s : Scheduler τ) : Event τ → Prop
  | .refresh _ | .run _ => True
  | .schedule .. | .scheduleIn .. =>
      s.lastSubmission ≤ s.serverTime ∧ s.serverTime + mainSleep < 2 ^ 64
  | .cancel id => ∀ t ∈ s.scheduled.head?, t.mTaskId = id → due s.scheduled.tail = t.mWhen

instance (mainSleep : Nat) (s : Scheduler τ) : ∀ e, Decidable (Timely mainSleep s e)
  | .refresh _ => inferInstanceAs (Decidable True)
  | .run _ => inferInstanceAs (Decidable True)
  | .schedule .. => inferInstanceAs (Decidable (_ ∧ _))
  | .scheduleIn .. => inferInstanceAs (Decidable (_ ∧ _))
  | .cancel id => inferInstanceAs (Decidable
      (∀ t ∈ s.scheduled.head?, t.mTaskId = id → due s.scheduled.tail = t.mWhen))

/-- The first state: no task, and `g_ServerTime` just read from the clock. -/
def Start (s : Scheduler τ) : Prop :=
  ∃ running now, s = { mRunning := running, serverTime := now, clock := now }

/-- The cache and the log fit the list of tasks. -/
structure Inv (s : Scheduler τ) : Prop where
  safe : Safe s
  sorted : s.scheduled.Pairwise fun l1 l2 => l1.mWhen ≤ l2.mWhen
  ids : (s.scheduled.map (·.mTaskId)).Nodup
  fresh : ∀ t, .scheduled t ∈ s.log → t.mTaskId < s.mNextTaskId
  listed : ∀ t ∈ s.scheduled, .scheduled t ∈ s.log
  unsubmitted : ∀ t ∈ s.scheduled, ∀ t' now, .submitted t' now ∈ s.log → t'.mTaskId ≠ t.mTaskId
  uncancelled : ∀ t ∈ s.scheduled, .cancelled t.mTaskId ∉ s.log
  cancelledFresh : ∀ id, .cancelled id ∈ s.log → id < s.mNextTaskId
  later : ∀ t ∈ s.scheduled, ∀ t' now, .submitted t' now ∈ s.log → t'.mWhen ≤ t.mWhen
  past : ∀ t now, .submitted t now ∈ s.log → t.mWhen ≤ now ∧ now ≤ s.lastSubmission
  clocked : s.lastSubmission ≤ s.clock

theorem inv_start (h : Start s) : Inv s := by
  obtain ⟨running, now, rfl⟩ := h
  have hsafe : Safe { mRunning := running, serverTime := now, clock := now : Scheduler τ } := by
    constructor <;> simp [submissions, due]
  constructor <;> simp [submissions, Scheduler.lastSubmission, hsafe]

theorem lastSubmission_submit (s : Scheduler τ) (t : ScheduledTimerTask τ)
    (rest : List (ScheduledTimerTask τ)) (now : Nat) :
    (s.submit t rest now).lastSubmission = now := by
  unfold Scheduler.lastSubmission Scheduler.submit
  simp

theorem mem_log_submit {t : ScheduledTimerTask τ} {rest : List (ScheduledTimerTask τ)} {now : Nat}
    {entry : Entry τ} :
    entry ∈ (s.submit t rest now).log ↔ entry ∈ s.log ∨ entry = .submitted t now := by
  unfold Scheduler.submit
  simp

/-- The first task is submitted once the clock is past the cached time. -/
theorem inv_submit (h : Inv s) {t : ScheduledTimerTask τ} {rest : List (ScheduledTimerTask τ)}
    (hs : s.scheduled = t :: rest) {now : Nat} (hnow : s.mNextRun < now) (hclock : s.clock ≤ now) :
    Inv ({ s with clock := now }.submit t rest now) := by
  have hwhen : t.mWhen < now := by
    have hnext := h.safe.nextRun
    rw [hs] at hnext
    exact lt_of_eq_of_lt hnext.symm hnow
  have hmem : t ∈ s.scheduled := by simp [hs]
  have hrest {t' : ScheduledTimerTask τ} (ht' : t' ∈ rest) : t' ∈ s.scheduled := by simp [hs, ht']
  have hsorted := h.sorted
  have hids := h.ids
  rw [hs] at hsorted hids
  rw [List.map_cons, List.nodup_cons] at hids
  constructor
  case safe =>
    constructor
    case once =>
      change ((submissions (s.log ++ [.submitted t now])).map (·.1.mTaskId)).Nodup
      rw [submissions_append, submissions_submitted, List.map_append, List.map_singleton,
        List.nodup_append]
      refine ⟨h.safe.once, List.nodup_singleton _, ?_⟩
      intro id hid id' hid'
      obtain ⟨⟨t', now'⟩, hmem', rfl⟩ := List.mem_map.mp hid
      rw [List.mem_singleton.mp hid']
      exact h.unsubmitted t hmem t' now' (mem_submissions.mp hmem')
    case known =>
      intro t' now' hlog
      rw [mem_log_submit] at hlog ⊢
      obtain hlog | hlog := hlog
      · exact .inl (h.safe.known t' now' hlog)
      · cases hlog
        exact .inl (h.listed t hmem)
    case notCancelled =>
      change (s.log ++ [Entry.submitted t now]).Pairwise _
      rw [List.pairwise_append]
      refine ⟨h.safe.notCancelled, List.pairwise_singleton _ _, ?_⟩
      intro a ha b hb id t' now' hcancel hsubmit hid
      rw [List.mem_singleton.mp hb] at hsubmit
      cases hsubmit
      rw [hcancel, ← hid] at ha
      exact h.uncancelled t hmem ha
    case notEarly =>
      intro t' now' hlog
      obtain hlog | hlog := mem_log_submit.mp hlog
      · exact h.safe.notEarly t' now' hlog
      · cases hlog
        exact hwhen.le
    case ordered =>
      change (submissions (s.log ++ [.submitted t now])).Pairwise _
      rw [submissions_append, submissions_submitted, List.pairwise_append]
      refine ⟨h.safe.ordered, List.pairwise_singleton _ _, ?_⟩
      intro a ha b hb
      rw [List.mem_singleton.mp hb]
      exact h.later t hmem a.1 a.2 (mem_submissions.mp ha)
    case nextRun => rfl
  case sorted => exact hsorted.of_cons
  case ids => exact hids.2
  case fresh =>
    intro t' hlog
    obtain hlog | hlog := mem_log_submit.mp hlog
    · exact h.fresh t' hlog
    · cases hlog
  case listed =>
    intro t' ht'
    exact mem_log_submit.mpr (.inl (h.listed t' (hrest ht')))
  case unsubmitted =>
    intro t' ht' t'' now' hlog
    obtain hlog | hlog := mem_log_submit.mp hlog
    · exact h.unsubmitted t' (hrest ht') t'' now' hlog
    · cases hlog
      intro heq
      exact hids.1 (heq ▸ List.mem_map_of_mem ht')
  case uncancelled =>
    intro t' ht' hlog
    obtain hlog | hlog := mem_log_submit.mp hlog
    · exact h.uncancelled t' (hrest ht') hlog
    · cases hlog
  case cancelledFresh =>
    intro id hlog
    obtain hlog | hlog := mem_log_submit.mp hlog
    · exact h.cancelledFresh id hlog
    · cases hlog
  case later =>
    intro t' ht' t'' now' hlog
    obtain hlog | hlog := mem_log_submit.mp hlog
    · exact h.later t' (hrest ht') t'' now' hlog
    · cases hlog
      exact List.rel_of_pairwise_cons hsorted ht'
  case past =>
    intro t' now' hlog
    rw [lastSubmission_submit]
    obtain hlog | hlog := mem_log_submit.mp hlog
    · obtain ⟨hpast, hlast⟩ := h.past t' now' hlog
      exact ⟨hpast, (hlast.trans h.clocked).trans hclock⟩
    · cases hlog
      exact ⟨hwhen.le, le_rfl⟩
  case clocked =>
    rw [lastSubmission_submit]
    exact le_rfl

/-- A new reading of the clock. -/
theorem inv_clock (h : Inv s) {now : Nat} (hclock : s.clock ≤ now) (time : Nat) :
    Inv { s with clock := now, serverTime := time } :=
  { h with
    safe := ⟨h.safe.once, h.safe.known, h.safe.notCancelled, h.safe.notEarly, h.safe.ordered,
      h.safe.nextRun⟩
    clocked := h.clocked.trans hclock }

theorem inv_runLoop (nows : List Nat) (h : Inv s) (hnows : nows.Pairwise (· ≤ ·))
    (hclock : ∀ now ∈ nows, s.clock ≤ now) : Inv (Scheduler.runLoop nows s) := by
  induction nows generalizing s with
  | nil => exact h
  | cons now nows ih =>
      have hnow : s.clock ≤ now := hclock now List.mem_cons_self
      have hlater : ∀ now' ∈ nows, now ≤ now' := fun _ => List.rel_of_pairwise_cons hnows
      rw [Scheduler.runLoop]
      cases hs : s.scheduled with
      | nil => exact h
      | cons t rest =>
          dsimp only
          by_cases hrun : s.mRunning ∧ 0 < s.mNextRun
          · rw [if_pos hrun]
            by_cases hdue : s.mNextRun < now
            · rw [if_pos hdue]
              exact ih (inv_submit h hs hdue hnow) hnows.of_cons hlater
            · rw [if_neg hdue]
              have hread := inv_clock h hnow s.serverTime
              rw [hs] at hread
              exact hread
          · rw [if_neg hrun]
            exact h

theorem serverTime_le_adjust (hwrap : s.serverTime + mainSleep < 2 ^ 64) (time : Nat) :
    s.serverTime ≤ s.adjust mainSleep time := by
  unfold Scheduler.adjust
  split
  · rw [Nat.mod_eq_of_lt hwrap]
    exact Nat.le_add_right _ _
  · omega

/-- A task that is scheduled while `g_ServerTime` is not behind goes after all submitted ones. -/
theorem inv_schedule [DecidableEq τ] (h : Inv s) {s' : Scheduler τ} {task : τ} {time : Nat}
    {order : List (ScheduledTimerTask τ)} (hlast : s.lastSubmission ≤ s.serverTime)
    (hwrap : s.serverTime + mainSleep < 2 ^ 64)
    (hs : s.schedule mainSleep task time order = some s') : Inv s' := by
  unfold Scheduler.schedule at hs
  dsimp only at hs
  generalize ht : s.newTask mainSleep task time = t at hs
  have hid : t.mTaskId = s.mNextTaskId := by rw [← ht]; rfl
  have hwhen : s.serverTime ≤ t.mWhen := by
    rw [← ht]
    exact serverTime_le_adjust hwrap time
  rw [Option.ite_none_right_eq_some] at hs
  obtain ⟨⟨hperm, hsorted⟩, hs⟩ := hs
  obtain rfl := Option.some.inj hs
  have hold {t' : ScheduledTimerTask τ} (ht' : t' ∈ order) : t' ∈ s.scheduled ∨ t' = t := by
    have hmem := hperm.mem_iff.mp ht'
    simpa using hmem
  have hsubs : submissions (s.log ++ [.scheduled t]) = submissions s.log := by simp
  have hlog {entry : Entry τ} (hmem : entry ∈ s.log ++ [.scheduled t]) :
      entry ∈ s.log ∨ entry = .scheduled t := by simpa using hmem
  have hlastSubmission : (⟨s.mRunning, due order, s.mNextTaskId + 1, order, s.serverTime, s.clock,
      s.log ++ [.scheduled t]⟩ : Scheduler τ).lastSubmission = s.lastSubmission := by
    unfold Scheduler.lastSubmission
    rw [hsubs]
  constructor
  case safe =>
    constructor
    case once => exact hsubs ▸ h.safe.once
    case known =>
      intro t' now hnew
      obtain hmem | hmem := hlog hnew
      · exact List.mem_append_left _ (h.safe.known t' now hmem)
      · cases hmem
    case notCancelled =>
      rw [List.pairwise_append]
      refine ⟨h.safe.notCancelled, List.pairwise_singleton _ _, ?_⟩
      intro a ha b hb id t' now _ hsubmit
      rw [List.mem_singleton.mp hb] at hsubmit
      cases hsubmit
    case notEarly =>
      intro t' now hnew
      obtain hmem | hmem := hlog hnew
      · exact h.safe.notEarly t' now hmem
      · cases hmem
    case ordered => exact hsubs ▸ h.safe.ordered
    case nextRun => rfl
  case sorted => exact hsorted
  case ids =>
    have hids : (order.map (·.mTaskId)).Perm ((s.scheduled ++ [t]).map (·.mTaskId)) :=
      hperm.map _
    rw [hids.nodup_iff, List.map_append, List.map_singleton, List.nodup_append]
    refine ⟨h.ids, List.nodup_singleton _, ?_⟩
    intro id hmem id' hmem'
    obtain ⟨t', ht', rfl⟩ := List.mem_map.mp hmem
    rw [List.mem_singleton.mp hmem', hid]
    exact (h.fresh t' (h.listed t' ht')).ne
  case fresh =>
    intro t' hnew
    obtain hmem | hmem := hlog hnew
    · exact (h.fresh t' hmem).trans (Nat.lt_succ_self _)
    · cases hmem
      exact hid ▸ Nat.lt_succ_self _
  case listed =>
    intro t' ht'
    obtain ht' | rfl := hold ht'
    · exact List.mem_append_left _ (h.listed t' ht')
    · simp
  case unsubmitted =>
    intro t' ht' t'' now hnew
    obtain hmem | hmem := hlog hnew
    · obtain ht' | rfl := hold ht'
      · exact h.unsubmitted t' ht' t'' now hmem
      · rw [hid]
        exact (h.fresh t'' (h.safe.known t'' now hmem)).ne
    · cases hmem
  case uncancelled =>
    intro t' ht' hnew
    obtain hmem | hmem := hlog hnew
    · obtain ht' | rfl := hold ht'
      · exact h.uncancelled t' ht' hmem
      · rw [hid] at hmem
        exact absurd (h.cancelledFresh _ hmem) (lt_irrefl _)
    · cases hmem
  case cancelledFresh =>
    intro id hnew
    obtain hmem | hmem := hlog hnew
    · exact (h.cancelledFresh id hmem).trans (Nat.lt_succ_self _)
    · cases hmem
  case later =>
    intro t' ht' t'' now hnew
    obtain hmem | hmem := hlog hnew
    · obtain ht' | rfl := hold ht'
      · exact h.later t' ht' t'' now hmem
      · obtain ⟨hpast, hnow⟩ := h.past t'' now hmem
        calc t''.mWhen ≤ now := hpast
          _ ≤ s.lastSubmission := hnow
          _ ≤ s.serverTime := hlast
          _ ≤ t'.mWhen := hwhen
    · cases hmem
  case past =>
    intro t' now hnew
    rw [hlastSubmission]
    obtain hmem | hmem := hlog hnew
    · exact h.past t' now hmem
    · cases hmem
  case clocked =>
    rw [hlastSubmission]
    exact h.clocked

/-- Erasing the first task with an ID erases every task with it. -/
theorem ne_of_mem_eraseP {tasks : List (ScheduledTimerTask τ)}
    (hids : (tasks.map (·.mTaskId)).Nodup) {id : Nat} {t : ScheduledTimerTask τ}
    (ht : t ∈ tasks.eraseP fun it => it.mTaskId = id) : t.mTaskId ≠ id := by
  induction tasks with
  | nil => simp at ht
  | cons t' rest ih =>
      rw [List.map_cons, List.nodup_cons] at hids
      by_cases hid : t'.mTaskId = id
      · rw [List.eraseP_cons_of_pos (by simpa using hid)] at ht
        intro heq
        rw [hid, ← heq] at hids
        exact hids.1 (List.mem_map_of_mem ht)
      · rw [List.eraseP_cons_of_neg (by simpa using hid)] at ht
        obtain rfl | ht := List.mem_cons.mp ht
        · exact hid
        · exact ih hids.2 ht

/-- A cancelled task that is not the first one leaves the cache right. -/
theorem due_eraseP {id : Nat} (h : Timely mainSleep s (.cancel id)) :
    due (s.scheduled.eraseP fun it => it.mTaskId = id) = due s.scheduled := by
  unfold Timely at h
  dsimp only at h
  cases hs : s.scheduled with
  | nil => rfl
  | cons t rest =>
      rw [hs] at h
      by_cases hid : t.mTaskId = id
      · rw [List.eraseP_cons_of_pos (by simpa using hid)]
        exact h t rfl hid
      · rw [List.eraseP_cons_of_neg (by simpa using hid)]
        rfl

theorem inv_cancel (h : Inv s) {id : Nat} (ht : Timely mainSleep s (.cancel id)) :
    Inv (s.cancel id) := by
  have hsub : (s.scheduled.eraseP fun it => it.mTaskId = id).Sublist s.scheduled :=
    List.eraseP_sublist
  have hlog {entry : Entry τ} (hmem : entry ∈ (s.cancel id).log) :
      entry ∈ s.log ∨ entry = .cancelled id ∧ id < s.mNextTaskId := by
    unfold Scheduler.cancel at hmem
    dsimp only at hmem
    split at hmem
    · rename_i hid
      simp only [List.mem_append, List.mem_singleton] at hmem
      exact hmem.imp_right fun heq => ⟨heq, hid⟩
    · exact .inl hmem
  have hkept {entry : Entry τ} (hmem : entry ∈ s.log) : entry ∈ (s.cancel id).log := by
    unfold Scheduler.cancel
    dsimp only
    split
    · exact List.mem_append_left _ hmem
    · exact hmem
  have hsubmitted {t : ScheduledTimerTask τ} {now : Nat}
      (hmem : .submitted t now ∈ (s.cancel id).log) : .submitted t now ∈ s.log := by
    obtain hmem | ⟨heq, -⟩ := hlog hmem
    · exact hmem
    · cases heq
  have hsubs : submissions (s.cancel id).log = submissions s.log := by
    unfold Scheduler.cancel
    dsimp only
    split
    · simp
    · rfl
  have hlast : (s.cancel id).lastSubmission = s.lastSubmission := by
    unfold Scheduler.lastSubmission
    rw [hsubs]
  constructor
  case safe =>
    constructor
    case once => exact hsubs ▸ h.safe.once
    case known =>
      intro t now hmem
      exact hkept (h.safe.known t now (hsubmitted hmem))
    case notCancelled =>
      unfold Scheduler.cancel
      dsimp only
      split
      · rw [List.pairwise_append]
        refine ⟨h.safe.notCancelled, List.pairwise_singleton _ _, ?_⟩
        intro a ha b hb id' t now _ hsubmit
        rw [List.mem_singleton.mp hb] at hsubmit
        cases hsubmit
      · exact h.safe.notCancelled
    case notEarly =>
      intro t now hmem
      exact h.safe.notEarly t now (hsubmitted hmem)
    case ordered => exact hsubs ▸ h.safe.ordered
    case nextRun => exact h.safe.nextRun.trans (due_eraseP ht).symm
  case sorted => exact h.sorted.sublist hsub
  case ids => exact h.ids.sublist (hsub.map _)
  case fresh =>
    intro t hmem
    obtain hmem | ⟨heq, -⟩ := hlog hmem
    · exact h.fresh t hmem
    · cases heq
  case listed =>
    intro t hmem
    exact hkept (h.listed t (hsub.subset hmem))
  case unsubmitted =>
    intro t hmem t' now hsubmit
    exact h.unsubmitted t (hsub.subset hmem) t' now (hsubmitted hsubmit)
  case uncancelled =>
    intro t hmem hcancel
    obtain hcancel | ⟨heq, -⟩ := hlog hcancel
    · exact h.uncancelled t (hsub.subset hmem) hcancel
    · cases heq
      exact ne_of_mem_eraseP h.ids hmem rfl
  case cancelledFresh =>
    intro id' hmem
    obtain hmem | ⟨heq, hid⟩ := hlog hmem
    · exact h.cancelledFresh id' hmem
    · cases heq
      exact hid
  case later =>
    intro t hmem t' now hsubmit
    exact h.later t (hsub.subset hmem) t' now (hsubmitted hsubmit)
  case past =>
    intro t now hmem
    rw [hlast]
    exact h.past t now (hsubmitted hmem)
  case clocked =>
    rw [hlast]
    exact h.clocked

variable [DecidableEq τ]

theorem inv_step (h : Inv s) {e : Event τ} (ht : Timely mainSleep s e) {s' : Scheduler τ}
    (hs : step mainSleep s e = some s') : Inv s' := by
  cases e with
  | refresh now =>
      simp only [step, Option.ite_none_right_eq_some, Option.some.injEq] at hs
      obtain ⟨hclock, rfl⟩ := hs
      exact inv_clock h hclock now
  | schedule task time order => exact inv_schedule h ht.1 ht.2 hs
  | scheduleIn task wait order => exact inv_schedule h ht.1 ht.2 hs
  | cancel id =>
      obtain rfl := Option.some.inj hs
      exact inv_cancel h ht
  | run nows =>
      simp only [step, Scheduler.runScheduledTasks, Option.ite_none_right_eq_some,
        Option.some.injEq] at hs
      obtain ⟨⟨-, hnows, hclock⟩, rfl⟩ := hs
      exact inv_runLoop nows h hnows hclock

/-- In a run without a `Cancel` of the first task and without a `Schedule` behind the clock,
every task is submitted at most once, when it is due, in order and never after it was
cancelled, and the cache is right. -/
theorem safe_of_timely {h : List (Scheduler τ × Event τ)}
    (run : Trace Start (Timely mainSleep) (step mainSleep) h s) : Safe s := by
  have hreach : Reach Start (Timely mainSleep) (step mainSleep) s := ⟨h, run⟩
  exact (hreach.invariant (fun _ => inv_start) fun _ _ _ hinv hok hs => inv_step hinv hok hs).safe

/-! Two tasks, of which one is cancelled before the main loop comes round at 101. -/

def started : Scheduler Unit := { mRunning := true, serverTime := 50, clock := 50 }

def soon : ScheduledTimerTask Unit := { mWhen := 100, mTaskId := 0, mTask := () }

def late : ScheduledTimerTask Unit := { mWhen := 1000, mTaskId := 1, mTask := () }

/-- Schedule both, cancel the task with the ID, run the main loop. -/
def cancelling (id : Nat) : List (Event Unit) :=
  [.schedule () 100 [soon], .schedule () 1000 [soon, late], .cancel id,
    .run (.replicate MAX_TASKS_PER_CYCLE 101)]

theorem safe_of_timely_cancelling : Safe ((runAll (step 1) started (cancelling 1)).getD {}) := by
  have start : Trace Start (Timely 1) (step 1) [] started := .start ⟨true, 50, rfl⟩
  exact safe_of_timely (start.runAll (by decide : OkAll _ _ started (cancelling 1))
    (eq_some_getD (by decide) {}))

/-- The task of time 1000 is submitted at 101, since the cancelled one was due at 100. -/
theorem late_task_submitted_early :
    ∃ h s, Trace Start (fun _ _ => True) (step 1) h s ∧ ¬Safe (s : Scheduler Unit) := by
  have start : Trace Start (fun _ _ => True) (step 1) [] started := .start ⟨true, 50, rfl⟩
  have run := start.runAll (okAll_true started (cancelling 0))
    (eq_some_getD (by decide) {})
  refine ⟨_, _, run, ?_⟩
  intro hsafe
  exact absurd (hsafe.notEarly late 101 (by decide)) (by decide)

end Iceee.Scheduling
