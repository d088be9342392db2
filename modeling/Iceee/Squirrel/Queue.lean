import Iceee.Squirrel.Calls

/-!
# The events of a Squirrel script over its runs

`finish` leaves an event that executed in the queue when the player is halting. What runs
while a halt is pending, or asks for one, therefore runs again, and the halt behind it is
not reached. In a run without such a tick, where no event is removed twice and no halt
event is removed, the queue does what it is for.
-/

namespace Iceee.Squirrel

namespace NutPlayer

variable {s t : NutPlayer}

/-! ## A tick -/

/-- `finish` of the event that executes, on a player that is not halting. -/
theorem finish_eq {e : EventPtr} {index : Nat} {out : Bool} (hactive : s.mActive = true)
    (hhalting : s.mHalting = false) (hindex : index < s.mQueue.length)
    (he : s.mQueue[index] = e) (hnodup : s.mQueue.Nodup) (hlive : e ∉ s.deleted) :
    s.finish e index out =
      { s with
        mQueue := s.mQueue.erase e
        mQueueAdd := if out then s.mQueueAdd else s.mQueueAdd ++ [e]
        deleted := if out then e :: s.deleted else s.deleted } := by
  have herase : s.mQueue.eraseIdx index = s.mQueue.erase e := by
    rw [← he, hnodup.erase_getElem index hindex]
  have hfinish : s.mActive = true ∧ ¬ s.mHalting = true ∧ index < s.mQueue.length :=
    ⟨hactive, by rw [hhalting]; exact Bool.false_ne_true, hindex⟩
  rw [finish, if_pos hfinish, herase]
  cases out with
  | false => rfl
  | true =>
      have hdelete : ({ s with mQueue := s.mQueue.erase e } : NutPlayer).delete e =
          { s with mQueue := s.mQueue.erase e, deleted := e :: s.deleted } := delete_eq hlive
      rw [if_pos rfl, hdelete, if_pos rfl, if_pos rfl]

/-- `settle` with removals that free each event once. -/
theorem settle_eq (hclear : s.mClear = false) (hnodup : s.mQueueRemove.Nodup)
    (hlive : ∀ p ∈ s.mQueueRemove, p ∉ s.deleted) :
    s.settle =
      { s with
        mExecutingEvent := none
        mQueue := s.pending.filter (· ∉ s.mQueueRemove)
        mQueueAdd := []
        mQueueInsert := []
        mQueueRemove := []
        deleted := s.mQueueRemove.reverse ++ s.deleted } := by
  generalize ht : ({ s with mExecutingEvent := none } : NutPlayer) = t
  have hremove : t.mQueueRemove = s.mQueueRemove := by rw [← ht]
  have hfold := foldl_applyRemove (s := t) (hremove ▸ hnodup)
    (by rw [← ht]; exact hlive)
  have hsettle : s.settle = t.applyChanges := by
    rw [← ht]
    simp [settle, hclear]
  rw [hsettle, applyChanges, hfold, ← ht]
  simp [pending, List.filter_append]

/-- The event that executed leaves its place, and goes to the end when it is not done. -/
def requeue (s : NutPlayer) (e : EventPtr) (out : Bool) : List EventPtr :=
  s.mQueueInsert ++ s.mQueue.erase e ++ if out then s.mQueueAdd else s.mQueueAdd ++ [e]

theorem Ledger.requeue_perm (h : Ledger s) {e : EventPtr} (he : e ∈ s.mQueue) (out : Bool) :
    (s.requeue e out).Perm (if out then s.pending.erase e else s.pending) := by
  have hinsert : e ∉ s.mQueueInsert := by
    intro hmem
    exact List.disjoint_of_nodup_append h.nodup.of_append_left hmem he
  have herase : s.pending.erase e = s.mQueueInsert ++ s.mQueue.erase e ++ s.mQueueAdd := by
    rw [pending, List.erase_append_left _ (List.mem_append_right _ he),
      List.erase_append_right _ hinsert]
  cases out with
  | true =>
      rw [if_pos rfl, herase]
      exact .refl _
  | false =>
      have hpend : e ∈ s.pending := mem_pending.mpr (.inr (.inl he))
      rw [requeue, if_neg Bool.false_ne_true, if_neg Bool.false_ne_true, ← List.append_assoc,
        ← herase]
      exact (List.perm_append_singleton _ _).trans (List.perm_cons_erase hpend).symm

theorem Ledger.requeue_nodup (h : Ledger s) {e : EventPtr} (he : e ∈ s.mQueue) (out : Bool) :
    (s.requeue e out).Nodup := by
  rw [(h.requeue_perm he out).nodup_iff]
  cases out with
  | true => exact h.nodup.erase e
  | false => exact h.nodup

theorem Ledger.mem_requeue (h : Ledger s) {e p : EventPtr} (he : e ∈ s.mQueue) {out : Bool} :
    p ∈ s.requeue e out ↔ p ∈ s.pending ∧ (out = true → p ≠ e) := by
  rw [(h.requeue_perm he out).mem_iff]
  cases out with
  | true => simp [h.nodup.mem_erase_iff, and_comm]
  | false => simp

/-- The ordinary event that executes is done, or queued again, and the changes its callback
made are applied. -/
theorem Sound.settled (h : Sound s) {e : EventPtr} {index : Nat} {out : Bool}
    {runs : List (EventPtr × Bool)} (hexec : s.mExecutingEvent = some e)
    (hhalting : s.mHalting = false) (hindex : index < s.mQueue.length)
    (he : s.mQueue[index] = e)
    (hruns : out = true ∧ (s.heap e).mCancelled = true ∧ runs = s.runs ∨
      runs = (e, out) :: s.runs) :
    Sound (({ s with runs := runs }).finish e index out).settle ∧
      (({ s with runs := runs }).finish e index out).settle.mExecutingEvent = none ∧
      (({ s with runs := runs }).finish e index out).settle.mHalting = false := by
  obtain ⟨hqueue, hactive⟩ := h.executing e hexec
  obtain ⟨hremoveNodup, hremove⟩ := h.removed hhalting
  have hpend : e ∈ s.pending := mem_pending.mpr (.inr (.inl hqueue))
  have hqueueNodup : s.mQueue.Nodup := h.nodup.of_append_left.of_append_right
  have hnot : e ∉ s.mQueueRemove := fun hmem => (hremove e hmem).2.2 hexec
  have hlive : ∀ p ∈ s.mQueueRemove, p ∉ if out then e :: s.deleted else s.deleted := by
    intro p hp hdel
    have hold : p ∉ s.deleted := h.live p (hremove p hp).1
    cases out with
    | false => exact hold hdel
    | true =>
        obtain rfl | hdel := List.mem_cons.mp hdel
        · exact hnot hp
        · exact hold hdel
  generalize hu : ({ s with runs := runs }).finish e index out = u
  have hfinish : u =
      { s with
        runs := runs
        mQueue := s.mQueue.erase e
        mQueueAdd := if out then s.mQueueAdd else s.mQueueAdd ++ [e]
        deleted := if out then e :: s.deleted else s.deleted } := by
    rw [← hu]
    exact finish_eq hactive hhalting hindex he hqueueNodup (h.live e hpend)
  have hsettle := settle_eq (s := u) (by rw [hfinish]; exact h.noClear)
    (by rw [hfinish]; exact hremoveNodup) (by rw [hfinish]; exact hlive)
  generalize u.settle = t at hsettle ⊢
  subst hfinish
  have htpending : t.pending = (s.requeue e out).filter (· ∉ s.mQueueRemove) := by
    rw [hsettle]
    simp [pending, requeue]
  have hmem (p : EventPtr) :
      p ∈ t.pending ↔ (p ∈ s.pending ∧ (out = true → p ≠ e)) ∧ p ∉ s.mQueueRemove := by
    rw [htpending, List.mem_filter, h.mem_requeue hqueue, decide_eq_true_iff]
  have htruns : t.runs = runs := by rw [hsettle]
  have htheap : t.heap = s.heap := by rw [hsettle]
  have htwithdrawn : t.withdrawn = s.withdrawn := by rw [hsettle]
  have hfinished : out = true → t.Excused e := by
    rintro rfl
    obtain ⟨-, hcancelled, -⟩ | hruns := hruns
    · exact .inr (.inl (htheap ▸ hcancelled))
    · exact .inl (htruns ▸ hruns ▸ List.mem_cons_self)
  refine ⟨?_, by rw [hsettle], by rw [hsettle]; exact hhalting⟩
  constructor
  case toLedger =>
    refine h.toLedger.drop (by rw [hsettle]) (by rw [hsettle]) ?_ ?_ ?_ ?_ ?_ ?_ ?_
    · rw [htpending]
      exact (h.requeue_nodup hqueue out).filter _
    · exact fun p hp => ((hmem p).mp hp).1.1
    · intro p hp
      have hdeleted : t.deleted =
          s.mQueueRemove.reverse ++ if out then e :: s.deleted else s.deleted := by rw [hsettle]
      rw [hdeleted, List.mem_append, List.mem_reverse] at hp
      obtain hp | hp := hp
      · exact .inr ⟨(hremove p hp).1, fun hmem' => ((hmem p).mp hmem').2 hp⟩
      · cases out with
        | false => exact .inl hp
        | true =>
            obtain rfl | hp := List.mem_cons.mp hp
            · exact .inr ⟨hpend, fun hmem' => ((hmem p).mp hmem').1.2 rfl rfl⟩
            · exact .inl hp
    · intro p hp
      rw [htruns] at hp
      obtain ⟨-, -, hruns⟩ | hruns := hruns
      · exact .inl (hruns ▸ hp)
      · rw [hruns] at hp
        obtain heq | hp := List.mem_cons.mp hp
        · obtain ⟨rfl, rfl⟩ := Prod.mk.inj heq
          exact .inr ⟨hpend, fun hmem' => ((hmem p).mp hmem').1.2 rfl rfl⟩
        · exact .inl hp
    · rw [htruns]
      obtain ⟨-, -, hruns⟩ | hruns := hruns
      · exact hruns ▸ h.once
      · rw [hruns]
        refine List.pairwise_cons.mpr ⟨?_, h.once⟩
        rintro ⟨p, done⟩ hp hdone
        obtain rfl : done = true := hdone
        rintro rfl
        exact (h.ran _ hp).1 hpend
    · intro p hp
      refine hp.imp ?_ (Or.imp ?_ ?_)
      · intro hran
        rw [htruns]
        obtain ⟨-, -, hruns⟩ | hruns := hruns
        · exact hruns ▸ hran
        · exact hruns ▸ List.mem_cons_of_mem _ hran
      · exact fun hcancelled => htheap ▸ hcancelled
      · exact fun hwithdrawn => htwithdrawn ▸ hwithdrawn
    · intro p hp hout
      by_cases hr : p ∈ s.mQueueRemove
      · exact .inr (.inr (htwithdrawn ▸ (hremove p hr).2.1))
      · have hdone : out = true ∧ p = e := by
          by_contra hcontra
          exact hout ((hmem p).mpr ⟨⟨hp, fun ho heq => hcontra ⟨ho, heq⟩⟩, hr⟩)
        exact hdone.2 ▸ hfinished hdone.1
  case noFault => rw [hsettle]; exact h.noFault
  case noClear => rw [hsettle]; exact h.noClear
  case idle => rw [hsettle]; exact fun _ => ⟨rfl, rfl, rfl⟩
  case executing => rw [hsettle]; exact fun e he => absurd he.symm (Option.some_ne_none e)
  case removed => rw [hsettle]; exact fun _ => ⟨List.nodup_nil, List.forall_mem_nil _⟩
  case noHalt =>
    intro _ p hp
    rw [htheap]
    exact h.noHalt hhalting p ((hmem p).mp hp).1.1
  case asked => rw [hsettle]; exact h.asked

/-- Without changes that were put off, `settle` does nothing. -/
theorem Sound.settle_idle (h : Sound s) (hnone : s.mExecutingEvent = none) : s.settle = s := by
  obtain ⟨hadd, hinsert, hremove⟩ := h.idle hnone
  rw [settle_eq h.noClear (hremove ▸ List.nodup_nil) (by rw [hremove]; exact nofun)]
  have hpending : s.pending.filter (· ∉ s.mQueueRemove) = s.mQueue := by
    simp [pending, hadd, hinsert, hremove]
  rw [hpending]
  cases s
  simp_all

/-- The halt event is recorded when everything is freed. -/
theorem Sound.log (h : Sound s) {e : EventPtr} (hpending : s.pending = []) (hknown : e < s.next)
    (hnew : (e, true) ∉ s.runs) : Sound { s with runs := (e, true) :: s.runs } := by
  constructor
  case toLedger =>
    refine ⟨h.nodup, h.live, h.knownPending, h.knownDeleted, h.knownAdded, ?_, ?_, ?_⟩
    · intro p hp
      obtain heq | hp := List.mem_cons.mp hp
      · obtain ⟨rfl, -⟩ := Prod.mk.inj heq
        refine ⟨fun hmem => ?_, hknown⟩
        change p ∈ s.pending at hmem
        rw [hpending] at hmem
        cases hmem
      · exact h.ran p hp
    · refine List.pairwise_cons.mpr ⟨?_, h.once⟩
      rintro ⟨p, done⟩ hp hdone
      obtain rfl : done = true := hdone
      rintro rfl
      exact hnew hp
    · intro p hp
      exact (h.kept p hp).imp_right (Or.imp_left fun hran => List.mem_cons_of_mem _ hran)
  case noFault => exact h.noFault
  case noClear => exact h.noClear
  case idle => exact h.idle
  case executing => exact h.executing
  case removed => exact h.removed
  case noHalt => exact h.noHalt
  case asked => exact h.asked

/-- The event at `index` of the queue. -/
def eventAt (s : NutPlayer) (index : Nat) : NutScriptEvent := s.heap (s.mQueue.getD index 0)

/-- While a halt is pending, only the halt event executes. -/
def Executable (s : NutPlayer) (index : Nat) : Prop :=
  s.mHalting = true →
    (s.eventAt index).mCallback = .halt ∧ (s.eventAt index).mCancelled = false

instance (s : NutPlayer) (index : Nat) : Decidable (s.Executable index) :=
  inferInstanceAs (Decidable (_ → _ ∧ _))

/-- The state in which the callback of the event at `index` does its first call. -/
def enter (s : NutPlayer) (index : Nat) : NutPlayer :=
  match (s.eventAt index).mCallback with
  | .call false => s.start index
  | _ => { s.start index with mRunning := true }

theorem Sound.start_eq (h : Sound s) {index : Nat} (hindex : index < s.mQueue.length) :
    s.start index = { s with mExecutingEvent := some s.mQueue[index] } := by
  have hscan : ∀ p ∈ s.mQueue.take (index + 1), p ∉ s.deleted := by
    intro p hp
    exact h.live p (mem_pending.mpr (.inr (.inl (List.mem_of_mem_take hp))))
  rw [start, touch_eq_self hscan, List.getElem?_eq_getElem hindex]

/-- An event starts to execute. -/
theorem Sound.start (h : Sound s) (hactive : s.mActive = true) (hnone : s.mExecutingEvent = none)
    {index : Nat} (hindex : index < s.mQueue.length) : Sound (s.start index) := by
  obtain ⟨-, -, hremove⟩ := h.idle hnone
  rw [h.start_eq hindex]
  constructor
  case toLedger =>
    exact ⟨h.nodup, h.live, h.knownPending, h.knownDeleted, h.knownAdded, h.ran, h.once, h.kept⟩
  case noFault => exact h.noFault
  case noClear => exact h.noClear
  case idle => exact nofun
  case executing =>
    intro e he
    obtain rfl := Option.some.inj he
    exact ⟨List.getElem_mem hindex, hactive⟩
  case removed =>
    dsimp only
    rw [hremove]
    exact fun _ => ⟨List.nodup_nil, nofun⟩
  case noHalt => exact h.noHalt
  case asked => exact h.asked

theorem Sound.enter (h : Sound s) (hactive : s.mActive = true) (hnone : s.mExecutingEvent = none)
    {index : Nat} (hindex : index < s.mQueue.length) : Sound (s.enter index) := by
  have hstart := h.start hactive hnone hindex
  unfold NutPlayer.enter
  split
  · exact hstart
  · exact hstart.running true

/-- The outcome of a tick that executes an ordinary event. -/
theorem Keeps.settled (hsound : Sound t) {e : EventPtr} {index : Nat} {out : Bool}
    {runs : List (EventPtr × Bool)} (hnone : s.mExecutingEvent = none)
    (hexec : t.mExecutingEvent = some e) (hhalting : t.mHalting = false)
    (hindex : index < t.mQueue.length) (he : t.mQueue[index] = e)
    (hruns : out = true ∧ (t.heap e).mCancelled = true ∧ runs = t.runs ∨
      runs = (e, out) :: t.runs) :
    Keeps s (({ t with runs := runs }).finish e index out).settle := by
  obtain ⟨hsettled, hidle, hopen⟩ := hsound.settled hexec hhalting hindex he hruns
  constructor
  case sound => exact hsettled
  case within => exact fun hsome => absurd hnone hsome
  case idle => exact fun _ => hidle
  case awaits => exact fun _ _ htrue => nomatch hopen.symm.trans htrue

/-- The halt event executes: everything is freed, and the tick ends. -/
theorem keeps_haltVM (h : Sound t) {e : EventPtr} {index : Nat} {out : Bool}
    (hnone : s.mExecutingEvent = none) (he : e ∈ t.mQueue) :
    Keeps s
      ((({ t.shut with runs := (e, true) :: t.shut.runs }).finish e index out).settle) := by
  have hpend : e ∈ t.pending := mem_pending.mpr (.inr (.inl he))
  have hshut := h.shut
  obtain ⟨hactive, hidle, hempty, hruns, hnext⟩ := shut_frame (s := t)
  have hlog : Sound { t.shut with runs := (e, true) :: t.shut.runs } := by
    refine hshut.log hempty (hnext ▸ h.knownPending e hpend) ?_
    rw [hruns]
    exact fun hran => (h.ran e hran).1 hpend
  have hfinish : ({ t.shut with runs := (e, true) :: t.shut.runs } : NutPlayer).finish e index out
      = { t.shut with runs := (e, true) :: t.shut.runs } := by
    rw [finish, if_neg]
    exact fun htrue => nomatch hactive.symm.trans htrue.1
  rw [hfinish, hlog.settle_idle hidle]
  constructor
  case sound => exact hlog
  case within => exact fun hsome => absurd hnone hsome
  case idle => exact fun _ => hidle
  case awaits => exact fun _ _ _ htrue => nomatch hactive.symm.trans htrue

theorem pick_lt {ready : EventPtr → Bool} {index : Nat} (hpick : s.pick ready = some index) :
    index < s.mQueue.length := by
  unfold pick at hpick
  split at hpick
  · cases hpick
  · exact (List.findIdx?_eq_some_iff_getElem.mp hpick).1

/-- A tick keeps the invariant when the body of the callback does. -/
theorem keeps_tick (h : Sound s) {ready : EventPtr → Bool} {body : NutPlayer → NutPlayer}
    {res : Bool}
    (hbody : s.mActive = true → s.mExecutingEvent = none → ∀ index, s.pick ready = some index →
      s.Executable index ∧ ((s.eventAt index).mCancelled = false →
        Keeps (s.enter index) (body (s.enter index)))) :
    Keeps s (s.tick ready body res) := by
  unfold tick
  split
  case isFalse => exact Keeps.refl h
  rename_i hactive
  unfold execQueue
  split
  case isTrue => exact Keeps.refl h
  rename_i hexec
  have hnone : s.mExecutingEvent = none := Option.not_isSome_iff_eq_none.mp hexec
  have hlive : ∀ p ∈ s.mQueue, p ∉ s.deleted :=
    fun p hp => h.live p (mem_pending.mpr (.inr (.inl hp)))
  cases hpick : s.pick ready with
  | none =>
      dsimp only
      rw [touch_eq_self hlive, if_neg (by rw [h.noClear]; exact Bool.false_ne_true),
        h.settle_idle hnone]
      exact Keeps.refl h
  | some index =>
      have hindex := pick_lt hpick
      obtain ⟨hexecutable, hkeeps⟩ := hbody hactive hnone index hpick
      have hget : s.mQueue.getD index 0 = s.mQueue[index] := List.getD_eq_getElem _ _ hindex
      have hstart := h.start_eq hindex
      have hsound := h.start hactive hnone hindex
      have hmem : s.mQueue[index] ∈ s.mQueue := List.getElem_mem hindex
      unfold Executable at hexecutable
      unfold enter at hkeeps
      unfold eventAt at hexecutable hkeeps
      rw [hget] at hexecutable hkeeps
      dsimp only
      rw [hget]
      generalize he : s.mQueue[index] = e at *
      rw [hstart] at hsound hkeeps ⊢
      unfold execEvent
      dsimp only
      cases hcancelled : (s.heap e).mCancelled with
      | true =>
          have hhalting : s.mHalting = false := by
            by_contra hne
            have hcb := (hexecutable (Bool.eq_true_of_not_eq_false hne)).2
            exact nomatch hcancelled.symm.trans hcb
          rw [if_pos rfl]
          exact Keeps.settled hsound hnone rfl hhalting hindex he (.inl ⟨rfl, hcancelled, rfl⟩)
      | false =>
          rw [if_neg Bool.false_ne_true]
          have hrun := hkeeps hcancelled
          cases hcb : (s.heap e).mCallback with
          | halt =>
              rw [hcb] at hrun
              obtain ⟨-, hqueue, -, -⟩ := hrun.within (Option.some_ne_none e)
              have hexecute : ({ s with mExecutingEvent := some e } : NutPlayer).execute body .halt
                  = ({ body { s with mExecutingEvent := some e, mRunning := true } with
                        mRunning := false } : NutPlayer).shut := by
                simp [execute, haltVM, runFunction, hactive]
              rw [hexecute]
              refine keeps_haltVM (hrun.sound.running false) hnone ?_
              exact (congrArg (e ∈ ·) hqueue).mpr hmem
          | call script =>
              have hhalting : s.mHalting = false := by
                by_contra hne
                have hhalt := (hexecutable (Bool.eq_true_of_not_eq_false hne)).1
                exact nomatch hcb.symm.trans hhalt
              cases script with
              | true =>
                  rw [hcb] at hrun
                  obtain ⟨hsame, hqueue, -, hopen⟩ := hrun.within (Option.some_ne_none e)
                  have hindex' := hindex
                  rw [← hqueue] at hindex'
                  refine Keeps.settled (hrun.sound.running s.mRunning) hnone hsame
                    (hopen.trans hhalting) hindex' ?_ (.inr rfl)
                  exact (List.getElem_of_eq hqueue hindex').trans he
              | false =>
                  rw [hcb] at hrun
                  obtain ⟨hsame, hqueue, -, hopen⟩ := hrun.within (Option.some_ne_none e)
                  have hindex' := hindex
                  rw [← hqueue] at hindex'
                  refine Keeps.settled hrun.sound hnone hsame (hopen.trans hhalting) hindex' ?_
                    (.inr rfl)
                  exact (List.getElem_of_eq hqueue hindex').trans he

end NutPlayer

/-! ## Runs -/

open NutPlayer

mutual

/-- The call neither executes an ordinary event while a halt is pending, nor asks for a halt
while an event executes, nor removes an event twice or the halt event. -/
def orderly : Act → NutPlayer → Bool
  | .queueAdd _, _ => true
  | .queueInsert _, _ => true
  | .queueRemove evt, s => decide (s.Removable evt)
  | .cancel id, s => (s.getEvent id).all fun nse => decide (s.Removable nse)
  | .queueClear, s => decide s.Clearable
  | .halt, s => decide s.Haltable
  | .haltExecution onHalt, s =>
      (s.mHalting || !s.mActive) || (s.mExecutingEvent.isNone && (s.mRunning ||
        orderlyAll onHalt { s with mHalting := true, requested := true, mRunning := true }))
  | .runFunction body, s => !s.mActive || orderlyAll body { s with mRunning := true }
  | .tick ready body _, s =>
      !s.mActive || s.mExecutingEvent.isSome || (s.pick ready).all fun index =>
        decide (s.Executable index) &&
          ((s.eventAt index).mCancelled || orderlyAll body (s.enter index))

def orderlyAll : List Act → NutPlayer → Bool
  | [], _ => true
  | a :: rest, s => orderly a s && orderlyAll rest (perform a s)

end

/-- `HaltExecution`, given what the calls of `on_halt` keep. -/
theorem keeps_haltExecution {s : NutPlayer} (h : Sound s) {onHalt : List Act}
    (hbody : ∀ u, Sound u → orderlyAll onHalt u = true → Keeps u (performAll onHalt u))
    (ho : orderly (.haltExecution onHalt) s = true) :
    Keeps s (s.haltExecution (performAll onHalt)) := by
  unfold haltExecution
  split
  · exact Keeps.refl h
  rename_i hrefused
  have hopen : ¬ s.Refuses := refuses_iff.not.mpr hrefused
  rw [orderly, Bool.or_eq_true, Bool.and_eq_true, Option.isNone_iff_eq_none] at ho
  obtain ⟨hnone, hrest⟩ := ho.resolve_left hrefused
  split
  · exact keeps_haltExecution_running h hopen hnone
  · rename_i hrunning
    have hon := (Bool.or_eq_true _ _).mp hrest |>.resolve_left hrunning
    have hactive : s.mActive = true := by
      by_contra hne
      exact hopen (.inr (Bool.eq_false_iff.mpr hne))
    have hkeeps := hbody _ (h.halting.running true) hon
    have hvm : ({ s with mHalting := true, requested := true } : NutPlayer).haltVM
        (performAll onHalt) =
          ({ performAll onHalt { s with mHalting := true, requested := true, mRunning := true }
            with mRunning := false } : NutPlayer).shut := by
      simp [haltVM, runFunction, hactive]
    rw [hvm]
    exact Keeps.shut (hkeeps.sound.running false) hnone

mutual

/-- Every orderly call keeps the invariant; for what a callback does, by induction. -/
theorem keeps_perform : ∀ (a : Act) (s : NutPlayer), Sound s → orderly a s = true →
    Keeps s (perform a s)
  | .queueAdd script, s, h, _ => keeps_queueAdd h script
  | .queueInsert script, s, h, _ => keeps_queueInsert h script
  | .queueRemove evt, s, h, ho => keeps_queueRemove h (of_decide_eq_true ho)
  | .cancel id, s, h, ho => by
      refine keeps_cancel h ?_
      intro nse hget
      rw [orderly, hget, Option.all_some] at ho
      exact of_decide_eq_true ho
  | .queueClear, s, h, ho => keeps_queueClear h (of_decide_eq_true ho)
  | .halt, s, h, ho => keeps_halt h (of_decide_eq_true ho)
  | .haltExecution onHalt, s, h, ho => keeps_haltExecution h (keeps_performAll onHalt) ho
  | .runFunction body, s, h, ho => by
      rw [perform, runFunction]
      split
      · rename_i hactive
        rw [orderly, Bool.or_eq_true] at ho
        have hon := ho.resolve_left (by rw [hactive]; exact Bool.false_ne_true)
        exact (keeps_performAll body _ (h.running true) hon).running
      · exact Keeps.refl h
  | .tick ready body res, s, h, ho => by
      refine keeps_tick h ?_
      intro hactive hnone index hpick
      rw [orderly, hactive, hnone, hpick] at ho
      simp only [Bool.not_true, Option.isSome_none, Bool.or_self, Bool.false_or, Option.all_some,
        Bool.and_eq_true, decide_eq_true_eq, Bool.or_eq_true] at ho
      refine ⟨ho.1, ?_⟩
      intro hcancelled
      have hon := ho.2.resolve_left (by rw [hcancelled]; exact Bool.false_ne_true)
      exact keeps_performAll body _ (h.enter hactive hnone (pick_lt hpick)) hon

theorem keeps_performAll : ∀ (as : List Act) (s : NutPlayer), Sound s → orderlyAll as s = true →
    Keeps s (performAll as s)
  | [], s, h, _ => Keeps.refl h
  | a :: rest, s, h, ho => by
      rw [orderlyAll, Bool.and_eq_true] at ho
      have hfirst := keeps_perform a s h ho.1
      exact hfirst.trans (keeps_performAll rest _ hfirst.sound ho.2)

end

theorem step_eq {s s' : NutPlayer} {a : Act} (hs : step s a = some s') : perform a s = s' :=
  Option.some.inj hs

/-- Between the calls from outside no event executes, and a pending halt is waited for. -/
structure Idle (s : NutPlayer) : Prop where
  sound : Sound s
  idle : s.mExecutingEvent = none
  awaits : Awaits s

theorem idle_fresh {s : NutPlayer} (h : Fresh s) : Idle s := by
  subst h
  refine ⟨⟨⟨List.nodup_nil, nofun, nofun, nofun, nofun, nofun, List.Pairwise.nil, nofun⟩, rfl, rfl,
    fun _ => ⟨rfl, rfl, rfl⟩, nofun, fun _ => ⟨List.nodup_nil, nofun⟩, fun _ => nofun, nofun⟩,
    rfl, nofun⟩

theorem run_idle {h : List (NutPlayer × Act)} {s : NutPlayer}
    (run : Lib.Trace Fresh (fun s a => orderly a s = true) step h s) : Idle s := by
  induction run with
  | start hfresh => exact idle_fresh hfresh
  | next run ho hs ih =>
      have hkeeps := keeps_perform _ _ ih.sound ho
      rw [step_eq hs] at hkeeps
      exact ⟨hkeeps.sound, hkeeps.idle ih.idle, hkeeps.awaits ih.idle ih.awaits⟩

namespace NutPlayer

variable {s : NutPlayer}

theorem foldl_applyRemove_mActive (rs : List EventPtr) :
    (rs.foldl applyRemove s).mActive = s.mActive := by
  induction rs generalizing s with
  | nil => rfl
  | cons r rest ih => exact ih

theorem clearQueue_mActive : s.clearQueue.1.mActive = s.mActive := by
  obtain ⟨deleted, fault, hfree⟩ :=
    deleteAll_frame (s := s) (s.mQueue ++ s.mQueueAdd ++ s.mQueueInsert)
  unfold clearQueue
  split
  · rfl
  split
  · rfl
  · rw [freeQueues, hfree]

theorem settle_mActive : s.settle.mActive = s.mActive := by
  unfold settle
  dsimp only
  split
  · exact clearQueue_mActive
  · exact foldl_applyRemove_mActive _

/-- The tick that executes a halt event ends the player, whatever `on_halt` does. -/
theorem tick_halt {ready : EventPtr → Bool} {onHalt : NutPlayer → NutPlayer} {res : Bool}
    {index : Nat} (hnone : s.mExecutingEvent = none) (hpick : s.pick ready = some index)
    (hcb : (s.eventAt index).mCallback = .halt)
    (hcancelled : (s.eventAt index).mCancelled = false) :
    (s.tick ready onHalt res).mActive = false := by
  unfold tick
  split
  case isFalse hinactive => exact Bool.eq_false_iff.mpr hinactive
  rename_i hactive
  unfold execQueue
  rw [hnone, if_neg (by exact Bool.false_ne_true), hpick]
  dsimp only
  rw [settle_mActive]
  have hevent : (s.start index).heap (s.mQueue.getD index 0) = s.eventAt index := rfl
  have hstart : (s.start index).mActive = true := hactive
  unfold execEvent
  simp only [hevent, hcb, hcancelled]
  have hoff : ((s.start index).runFunction onHalt).shut.mActive = false := shut_frame.1
  rw [if_neg Bool.false_ne_true, execute, haltVM, if_pos hstart, finish, if_neg]
  · exact hoff
  · exact fun htrue => nomatch hoff.symm.trans htrue.1

end NutPlayer

/-- What the queue is for. -/
structure Promises (s : NutPlayer) : Prop where
  /-- A callback that was done does not run again. -/
  ranOnce : RanOnce s.runs
  /-- An event that was added is queued once, until there is an excuse. -/
  queued : ∀ p ∈ s.added, s.Excused p ∨ s.pending.count p = 1
  /-- No deleted event was or can be referenced. -/
  unreferenced : s.fault = false ∧ ∀ p ∈ s.deleted, p ∉ s.pending
  /-- After a halt was requested, the first tick in which the halt event is ready and no event
  before it is makes the player inactive. -/
  halts : s.requested = true → s.mActive = true →
    ∃ before halt after, s.mQueue = before ++ halt :: after ∧
      (s.heap halt).mCallback = .halt ∧
      ∀ ready onHalt res, (∀ p ∈ before, ready p = false) → ready halt = true →
        (perform (.tick ready onHalt res) s).mActive = false

theorem Idle.halts {s : NutPlayer} (h : Idle s) (hrequested : s.requested = true)
    (hactive : s.mActive = true) :
    ∃ before halt after, s.mQueue = before ++ halt :: after ∧
      (s.heap halt).mCallback = .halt ∧
      ∀ ready onHalt res, (∀ p ∈ before, ready p = false) → ready halt = true →
        (perform (.tick ready onHalt res) s).mActive = false := by
  have hhalting := h.sound.asked hrequested hactive
  obtain ⟨halt, hmem, hcb, hcancelled⟩ := h.awaits hhalting hactive
  obtain ⟨before, after, hqueue⟩ := List.append_of_mem hmem
  refine ⟨before, halt, after, hqueue, hcb, ?_⟩
  intro ready onHalt res hbefore hready
  have hpick : s.pick ready = some before.length := by
    rw [pick, if_neg (by simp [h.sound.noClear, hactive]), hqueue, List.findIdx?_append,
      List.findIdx?_eq_none_iff.mpr hbefore, List.findIdx?_cons, hready]
    simp
  have hevent : s.eventAt before.length = s.heap halt := by
    rw [eventAt, hqueue, List.getD_append_right _ _ _ _ le_rfl, Nat.sub_self]
    rfl
  rw [perform]
  exact tick_halt h.idle hpick (hevent ▸ hcb) (hevent ▸ hcancelled)

/-- In every state of a run of orderly calls the queue does what it is for. -/
theorem run_promises {h : List (NutPlayer × Act)} {s : NutPlayer}
    (run : Lib.Trace Fresh (fun s a => orderly a s = true) step h s) : Promises s := by
  have hidle := run_idle run
  have hsound := hidle.sound
  constructor
  case ranOnce => exact hsound.once
  case queued =>
    intro p hp
    obtain hpend | hexcused := hsound.kept p hp
    · exact .inr (List.count_eq_one_of_mem hsound.nodup hpend)
    · exact .inl hexcused
  case unreferenced =>
    exact ⟨hsound.noFault, fun p hdeleted hpend => hsound.live p hpend hdeleted⟩
  case halts => exact hidle.halts

/-- One event, and a halt behind it. -/
def haltBehind : List Act :=
  [.queueAdd true, .halt, .tick (fun _ => true) [] true, .tick (fun _ => true) [] true]

/-- The event is done and runs again, and the player stays active. -/
theorem done_event_runs_again :
    (performAll haltBehind {}).runs = [(0, true), (0, true)] ∧
      (performAll haltBehind {}).mActive = true ∧ ¬ Promises (performAll haltBehind {}) := by
  have hruns : (performAll haltBehind {}).runs = [(0, true), (0, true)] := by decide
  refine ⟨hruns, by decide, ?_⟩
  intro h
  have hran := h.ranOnce
  rw [hruns] at hran
  exact absurd hran (by decide)

/-- Events that queue, remove and repeat, and a halt when only a later event is left. -/
def farewell : List Act :=
  [.queueAdd true, .queueAdd false, .queueAdd true,
    .tick (· == 0) [.queueInsert true, .queueRemove 1, .queueAdd false, .queueRemove 4] false,
    .tick (· == 3) [] true, .cancel 3, .halt, .tick (· == 5) [.queueAdd true] true]

theorem run_promises_farewell :
    (performAll farewell {}).mActive = false ∧ (performAll farewell {}).deleted = [5, 0, 3, 1, 4] ∧
      Promises ((Lib.runAll step {} farewell).getD {}) := by
  have hok : Lib.OkAll (fun s a => orderly a s = true) step {} farewell := by decide
  have hrun : (Lib.runAll step {} farewell).isSome = true := rfl
  refine ⟨by decide, by decide, ?_⟩
  have hstart : Fresh {} := rfl
  exact run_promises ((Lib.Trace.start hstart).runAll hok (Lib.eq_some_getD hrun {}))

end Iceee.Squirrel
