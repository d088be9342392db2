import Iceee.Tsl.Player

/-!
# What becomes of queued events

A label is in the queue once, it is taken when its time has come and not more often than it was
queued, and it does not wait for more executions of `exec_queue` than the queue has places. A label
that does not exist ends a script without an event queue, which clears the queue under the loop
that goes on to erase the event.

## Main results

* `run_orderly_iff`: the runs in which only events of the queue are erased.
-/

namespace Iceee.Tsl

open Lib

variable (d : ScriptDef)

/-- The label that is queued. -/
def TslOp.queues : TslOp → Option String
  | .queueEvent labelName _ => some labelName
  | .jumpToLabel name => if d.queueExternalJumps then some name else none
  | _ => none

namespace TslWorld

variable (w : TslWorld)

/-- The labels in the queue. -/
def labels : List String := w.player.scriptEventQueue.map ScriptEvent.mLabel

/-- The event that is taken, with its index. -/
def takes : TslOp → Option (Nat × ScriptEvent)
  | .execQueue =>
      if w.player.running w.g_ServerTime then w.player.firstDue w.g_ServerTime else none
  | _ => none

/-- The label is in the queue, and its time has come. -/
def Due (name : String) : Prop :=
  ∃ event ∈ w.player.scriptEventQueue, event.mLabel = name ∧ event.mFireTime ≤ w.g_ServerTime

instance (name : String) : Decidable (w.Due name) := inferInstanceAs (Decidable (∃ event ∈ _, _))

/-- The event that `exec_queue` takes names a label, or the script has an event queue. -/
def CanTake (op : TslOp) : Prop :=
  ∀ i event, w.takes op = some (i, event) →
    (d.getLabelIndex event.mLabel).isSome ∨ d.queueExternalJumps = true

end TslWorld

/-- How often a label was taken. -/
def taken (name : String) (h : List (TslWorld × TslOp)) : Nat :=
  h.countP fun e => (e.1.takes e.2).map (fun t => t.2.mLabel) = some name

/-- How often a label was queued. -/
def queued (name : String) (h : List (TslWorld × TslOp)) : Nat :=
  h.countP fun e => e.2.queues d = some name

/-- How often `exec_queue` was executed since the time of a label in the queue has come. -/
def passed (name : String) : List (TslWorld × TslOp) → Nat
  | [] => 0
  | (w, op) :: h =>
      if w.Due name then (if op = .execQueue ∧ w.player.running w.g_ServerTime then 1 else 0) +
        passed name h
      else 0

/-- What is asked of the queue after a run. -/
structure Orderly (h : List (TslWorld × TslOp)) (w : TslWorld) : Prop where
  distinct : w.labels.Nodup
  erased : ∀ e ∈ h, ∀ w', tslStep d e.1 e.2 = some w' → e.2 = .execQueue →
    w'.player.scriptEventQueue = e.1.player.scriptEventQueue ∨
      ∃ i event, e.1.player.scriptEventQueue[i]? = some event ∧
        event.mFireTime ≤ e.1.g_ServerTime ∧
        w'.player.scriptEventQueue = e.1.player.scriptEventQueue.eraseIdx i
  once : ∀ name, taken name h + (if name ∈ w.labels then 1 else 0) ≤ queued d name h
  served : ∀ name ∈ w.labels, passed name h < MAX_QUEUE_SIZE

section Step

variable {d} {w w' : TslWorld} {op : TslOp} {p : ScriptPlayer} {now i : Nat} {event : ScriptEvent}

/-! ### What a step does to the queue -/

/-- What `ExecQueue` stops at is the first event whose time has come. -/
theorem firstDue_eq_some (h : p.firstDue now = some (i, event)) :
    p.scriptEventQueue[i]? = some event ∧ event.mFireTime ≤ now ∧
      ∀ j < i, ∀ e, p.scriptEventQueue[j]? = some e → now < e.mFireTime := by
  unfold ScriptPlayer.firstDue at h
  obtain ⟨k, hk, hmap⟩ := Option.bind_eq_some_iff.mp h
  obtain ⟨e, he, heq⟩ := Option.map_eq_some_iff.mp hmap
  obtain ⟨rfl, rfl⟩ := Prod.mk.inj heq
  obtain ⟨hlt, hdue, hfirst⟩ := List.findIdx?_eq_some_iff_getElem.mp hk
  have hget : p.scriptEventQueue[k] = e :=
    Option.some.inj ((List.getElem?_eq_getElem hlt).symm.trans he)
  refine ⟨he, ?_, ?_⟩
  · rw [← hget]
    exact of_decide_eq_true hdue
  · intro j hj e' he'
    obtain ⟨hjlt, rfl⟩ := List.getElem?_eq_some_iff.mp he'
    have hnot := hfirst j hj
    simpa using hnot

/-- An event whose time has come is found, or one before it. -/
theorem exists_firstDue (h : event ∈ p.scriptEventQueue) (hdue : event.mFireTime ≤ now) :
    ∃ r, p.firstDue now = some r := by
  have hsome : (p.scriptEventQueue.findIdx? (·.mFireTime ≤ now)).isSome := by
    rw [List.findIdx?_isSome, List.any_eq_true]
    exact ⟨event, h, decide_eq_true hdue⟩
  obtain ⟨k, hk⟩ := Option.isSome_iff_exists.mp hsome
  obtain ⟨hlt, -⟩ := List.findIdx?_eq_some_iff_getElem.mp hk
  refine ⟨(k, p.scriptEventQueue[k]), ?_⟩
  unfold ScriptPlayer.firstDue
  rw [hk, Option.bind_some, List.getElem?_eq_getElem hlt]
  rfl

@[simp] theorem queue_pushCallStack (p : ScriptPlayer) (value : Int) :
    (p.pushCallStack value).scriptEventQueue = p.scriptEventQueue := by
  unfold ScriptPlayer.pushCallStack
  split <;> rfl

/-- A jump to a label that exists leaves the queue alone, and so does one of a script with an event
queue; any other one clears it. -/
theorem queue_performJumpRequest (p : ScriptPlayer) (name : String) (callStyle : CallStyle) :
    (p.performJumpRequest d now name callStyle).scriptEventQueue =
      if (d.getLabelIndex name).isSome ∨ d.queueExternalJumps = true then p.scriptEventQueue
      else [] := by
  unfold ScriptPlayer.performJumpRequest
  cases hindex : d.getLabelIndex name with
  | none =>
      cases hqueue : d.queueExternalJumps <;> simp [ScriptPlayer.endExecution]
  | some index =>
      obtain ⟨hlt, -⟩ := List.findIdx?_eq_some_iff_getElem.mp hindex
      rw [Option.bind_some, List.getElem?_eq_getElem hlt]
      cases callStyle <;> simp [ScriptPlayer.resetGoto, ScriptPlayer.call]

theorem map_modify {α β : Type*} {g : α → β} {f : α → α} (h : ∀ a, g (f a) = g a) (l : List α)
    (i : Nat) : (l.modify i f).map g = l.map g := by
  apply List.ext_getElem?
  intro j
  rw [List.getElem?_map, List.getElem?_map, List.getElem?_modify]
  cases l[j]? with
  | none => rfl
  | some a =>
      by_cases hij : i = j
      · simp [hij, h]
      · simp [hij]

/-- The labels after `QueueEvent`: a label is new, or there are as many as before. -/
theorem labels_queueEvent (p : ScriptPlayer) (name : String) (fireDelay : Nat) :
    let labels := p.scriptEventQueue.map ScriptEvent.mLabel
    let labels' := (p.queueEvent now name fireDelay).scriptEventQueue.map ScriptEvent.mLabel
    labels' = labels ∨
      (name ∉ labels ∧ labels.length < MAX_QUEUE_SIZE ∧ labels' = labels ++ [name]) := by
  intro labels labels'
  unfold labels' ScriptPlayer.queueEvent
  split
  · exact .inl rfl
  · rename_i hfull
    simp only
    split
    · exact .inl (map_modify (by intro; rfl) _ _)
    · rename_i hnone
      refine .inr ⟨?_, by simpa [labels] using hfull, by simp [labels]⟩
      intro hmem
      obtain ⟨event, hevent, rfl⟩ := List.mem_map.mp hmem
      have hno := List.findIdx?_eq_none_iff.mp hnone event hevent
      simp at hno

/-- `ExecQueue` erases the event it jumped for. -/
theorem execQueue_of_canJump (hdue : p.firstDue now = some (i, event))
    (hjump : (d.getLabelIndex event.mLabel).isSome ∨ d.queueExternalJumps = true) :
    ∃ p', p.execQueue d now = some (p', 0) ∧
      p'.scriptEventQueue = p.scriptEventQueue.eraseIdx i := by
  obtain ⟨hget, -⟩ := firstDue_eq_some hdue
  obtain ⟨hlt, -⟩ := List.getElem?_eq_some_iff.mp hget
  have hqueue : (p.performJumpRequest d now event.mLabel d.queueCallStyle).scriptEventQueue =
      p.scriptEventQueue := by
    rw [queue_performJumpRequest, if_pos hjump]
  unfold ScriptPlayer.execQueue ScriptPlayer.eraseEvent
  simp only [hdue, hqueue, if_pos hlt]
  exact ⟨_, rfl, rfl⟩

/-- The queue was cleared by the jump. -/
theorem execQueue_of_not_canJump (hdue : p.firstDue now = some (i, event))
    (hjump : ¬((d.getLabelIndex event.mLabel).isSome ∨ d.queueExternalJumps = true)) :
    p.execQueue d now = none := by
  have hqueue : (p.performJumpRequest d now event.mLabel d.queueCallStyle).scriptEventQueue =
      [] := by
    rw [queue_performJumpRequest, if_neg hjump]
  unfold ScriptPlayer.execQueue ScriptPlayer.eraseEvent
  simp only [hdue, hqueue, List.length_nil, if_neg (Nat.not_lt_zero i), Option.map_none]

theorem execQueue_of_none (hdue : p.firstDue now = none) : p.execQueue d now = some (p, 1) := by
  unfold ScriptPlayer.execQueue
  rw [hdue]

/-- The queue after `exec_queue`: it is as before, or the event is erased that was taken. -/
theorem queue_execQueue (hs : tslStep d w .execQueue = some w') :
    (w.takes .execQueue = none ∧ w'.player.scriptEventQueue = w.player.scriptEventQueue) ∨
      ∃ i event, w.takes .execQueue = some (i, event) ∧
        w'.player.scriptEventQueue = w.player.scriptEventQueue.eraseIdx i := by
  unfold tslStep at hs
  unfold TslWorld.takes
  by_cases hrunning : w.player.running w.g_ServerTime = true
  · simp only [if_pos hrunning] at hs ⊢
    obtain ⟨r, hr, rfl⟩ := Option.map_eq_some_iff.mp hs
    cases hdue : w.player.firstDue w.g_ServerTime with
    | none =>
        rw [execQueue_of_none hdue] at hr
        obtain rfl := Option.some.inj hr
        exact .inl ⟨rfl, rfl⟩
    | some t =>
        obtain ⟨i, event⟩ := t
        refine .inr ⟨i, event, rfl, ?_⟩
        by_cases hjump : (d.getLabelIndex event.mLabel).isSome ∨ d.queueExternalJumps = true
        · obtain ⟨p', hp', hqueue⟩ := execQueue_of_canJump hdue hjump
          obtain rfl := Option.some.inj (hp'.symm.trans hr)
          exact hqueue
        · rw [execQueue_of_not_canJump hdue hjump] at hr
          cases hr
  · simp only [if_neg hrunning] at hs ⊢
    obtain rfl := Option.some.inj hs
    exact .inl ⟨trivial, rfl⟩

/-- A step has a result exactly where the event can be taken. -/
theorem isSome_tslStep_iff : (tslStep d w op).isSome ↔ w.CanTake d op := by
  cases op with
  | execQueue =>
      unfold tslStep TslWorld.CanTake TslWorld.takes
      by_cases hrunning : w.player.running w.g_ServerTime = true
      · simp only [if_pos hrunning, Option.isSome_map]
        cases hdue : w.player.firstDue w.g_ServerTime with
        | none => simp [execQueue_of_none hdue]
        | some t =>
            obtain ⟨i, event⟩ := t
            by_cases hjump : (d.getLabelIndex event.mLabel).isSome ∨ d.queueExternalJumps = true
            · obtain ⟨p', hp', -⟩ := execQueue_of_canJump hdue hjump
              simp [hp', hjump]
            · simp [execQueue_of_not_canJump hdue hjump, hjump]
      · simp [if_neg hrunning]
  | _ => exact ⟨fun _ i event h => (nomatch h), fun _ => rfl⟩

/-- What a step makes of the labels in the queue. -/
inductive Change (d : ScriptDef) (w : TslWorld) (op : TslOp) (labels' : List String) : Prop
  | keep (htakes : w.takes op = none) (h : labels' = w.labels)
  | clear (htakes : w.takes op = none) (h : labels' = [])
  | add (htakes : w.takes op = none) (name : String) (hqueues : op.queues d = some name)
      (hnew : name ∉ w.labels) (hroom : w.labels.length < MAX_QUEUE_SIZE)
      (h : labels' = w.labels ++ [name])
  | take (i : Nat) (event : ScriptEvent) (htakes : w.takes op = some (i, event))
      (h : labels' = w.labels.eraseIdx i)

theorem change_queueEvent {name : String} {fireDelay : Nat} (htakes : w.takes op = none)
    (hqueues : op.queues d = some name) :
    Change d w op ((w.player.queueEvent now name fireDelay).scriptEventQueue.map
      ScriptEvent.mLabel) := by
  rcases @labels_queueEvent now w.player name fireDelay with hkeep | ⟨hnew, hroom, hadd⟩
  · exact .keep htakes hkeep
  · exact .add htakes name hqueues hnew hroom hadd

/-- The step lemma of the queue. -/
theorem tslStep_change (hs : tslStep d w op = some w') : Change d w op w'.labels := by
  cases op with
  | queueEvent name fireDelay =>
      obtain rfl := Option.some.inj hs
      exact change_queueEvent rfl rfl
  | jumpToLabel name =>
      obtain rfl := Option.some.inj hs
      by_cases hqueue : d.queueExternalJumps = true
      · have hjump : w.player.jumpToLabel d w.g_ServerTime name =
            w.player.queueEvent w.g_ServerTime name 0 := if_pos hqueue
        simp only [TslWorld.labels, hjump]
        exact change_queueEvent rfl (if_pos hqueue)
      · have hjump : w.player.jumpToLabel d w.g_ServerTime name =
            w.player.performJumpRequest d w.g_ServerTime name .goto := if_neg hqueue
        simp only [TslWorld.labels, hjump, queue_performJumpRequest]
        split
        · exact .keep rfl rfl
        · exact .clear rfl rfl
  | execQueue =>
      rcases queue_execQueue hs with ⟨htakes, hqueue⟩ | ⟨i, event, htakes, hqueue⟩
      · exact .keep htakes (congrArg (List.map ScriptEvent.mLabel) hqueue)
      · exact .take i event htakes ((congrArg (List.map ScriptEvent.mLabel) hqueue).trans
          (List.eraseIdx_map _ _ _).symm)
  | endScript =>
      obtain rfl := Option.some.inj hs
      exact .clear rfl rfl
  | clearQueue =>
      obtain rfl := Option.some.inj hs
      exact .clear rfl rfl
  | other curInst nextFire varStack callStack =>
      obtain rfl := Option.some.inj hs
      exact .keep rfl rfl
  | wait ms =>
      obtain rfl := Option.some.inj hs
      exact .keep rfl rfl

/-! ### Along a run -/

variable {h : List (TslWorld × TslOp)} {name : String}

/-- An event that is taken has its label at its index. -/
theorem getElem?_labels_of_takes (htakes : w.takes op = some (i, event)) :
    w.labels[i]? = some event.mLabel := by
  cases op with
  | execQueue =>
      have hfirst := (Option.ite_none_right_eq_some.mp htakes).2
      unfold TslWorld.labels
      rw [List.getElem?_map, (firstDue_eq_some hfirst).1]
      rfl
  | _ => cases htakes

/-- The label of an event that is taken, in a queue without repetitions. -/
theorem eraseIdx_of_takes (hnodup : w.labels.Nodup) (htakes : w.takes op = some (i, event)) :
    w.labels.eraseIdx i = w.labels.erase event.mLabel := by
  obtain ⟨hlt, hget⟩ := List.getElem?_eq_some_iff.mp (getElem?_labels_of_takes htakes)
  rw [← hnodup.erase_getElem i hlt, hget]

theorem due_mem_labels (h : w.Due name) : name ∈ w.labels := by
  obtain ⟨event, hevent, rfl, -⟩ := h
  exact List.mem_map_of_mem hevent

/-- Where a label waits for its turn, `exec_queue` takes an event that is not behind it. -/
theorem takes_of_due (hnodup : w.labels.Nodup) (hdue : w.Due name)
    (hrunning : w.player.running w.g_ServerTime) :
    ∃ i event, w.takes .execQueue = some (i, event) ∧ i ≤ w.labels.idxOf name := by
  obtain ⟨waiting, hmem, hlabel, htime⟩ := hdue
  obtain ⟨⟨i, event⟩, hfirst⟩ := exists_firstDue hmem htime
  refine ⟨i, event, (if_pos hrunning).trans hfirst, not_lt.mp fun hlt => ?_⟩
  obtain ⟨k, hk⟩ := List.mem_iff_getElem?.mp hmem
  have hindex : w.labels.idxOf name = k := by
    have hget : w.labels[k]? = some name := by
      unfold TslWorld.labels
      rw [List.getElem?_map, hk, Option.map_some, hlabel]
    obtain ⟨hklt, rfl⟩ := List.getElem?_eq_some_iff.mp hget
    exact hnodup.idxOf_getElem k hklt
  have hlater := (firstDue_eq_some hfirst).2.2 k (hindex ▸ hlt) waiting hk
  omega

/-- A label behind one that is erased moves up by one place. -/
theorem idxOf_eraseIdx {l : List String} (hnodup : l.Nodup) (hname : name ∈ l.eraseIdx i)
    (hle : i ≤ l.idxOf name) : (l.eraseIdx i).idxOf name + 1 = l.idxOf name := by
  have hmem : name ∈ l := List.mem_of_mem_eraseIdx hname
  have hlt : i < l.length := hle.trans_lt (List.idxOf_lt_length_of_mem hmem)
  have hsplit : l = l.take i ++ l[i] :: l.drop (i + 1) := by
    rw [List.getElem_cons_drop, List.take_append_drop]
  have hbefore : name ∉ l.take i := by
    intro hin
    have hearly := List.idxOf_lt_length_of_mem hin
    rw [List.length_take] at hearly
    rw [hsplit, List.idxOf_append_of_mem hin] at hle
    omega
  have hne : l[i] ≠ name := by
    rintro rfl
    rw [← hnodup.erase_getElem i hlt] at hname
    exact hnodup.not_mem_erase hname
  rw [List.eraseIdx_eq_take_drop_succ, List.idxOf_append_of_notMem hbefore]
  conv_rhs => rw [hsplit]
  rw [List.idxOf_append_of_notMem hbefore, List.idxOf_cons_ne _ hne]
  omega

/-- What holds of the queue and of what became of the events so far. -/
structure Inv (d : ScriptDef) (h : List (TslWorld × TslOp)) (w : TslWorld) : Prop where
  nodup : w.labels.Nodup
  length_le : w.labels.length ≤ MAX_QUEUE_SIZE
  once : ∀ name, taken name h + (if name ∈ w.labels then 1 else 0) ≤ queued d name h
  served : ∀ name ∈ w.labels, passed name h + w.labels.idxOf name < MAX_QUEUE_SIZE

theorem taken_cons_of_none (htakes : w.takes op = none) :
    taken name ((w, op) :: h) = taken name h := by
  simp [taken, htakes]

theorem queued_le_cons : queued d name h ≤ queued d name ((w, op) :: h) := by
  unfold queued
  rw [List.countP_cons]
  exact Nat.le_add_right _ _

/-- Where no event is taken, no label is passed by. -/
theorem passed_cons_of_none (hnodup : w.labels.Nodup) (htakes : w.takes op = none) :
    passed name ((w, op) :: h) = 0 ∨
      name ∈ w.labels ∧ passed name ((w, op) :: h) = passed name h := by
  rw [passed]
  by_cases hdue : w.Due name
  · have hnot : ¬(op = .execQueue ∧ w.player.running w.g_ServerTime = true) := by
      rintro ⟨rfl, hrunning⟩
      obtain ⟨i, event, htakes', -⟩ := takes_of_due hnodup hdue hrunning
      cases htakes.symm.trans htakes'
    exact .inr ⟨due_mem_labels hdue, by rw [if_pos hdue, if_neg hnot, Nat.zero_add]⟩
  · exact .inl (if_neg hdue)

/-- Where an event is taken, a label that waits is passed by, and it was the turn of the event. -/
theorem passed_cons_of_some (hnodup : w.labels.Nodup) (htakes : w.takes op = some (i, event)) :
    passed name ((w, op) :: h) = 0 ∨
      name ∈ w.labels ∧ i ≤ w.labels.idxOf name ∧
        passed name ((w, op) :: h) = passed name h + 1 := by
  rw [passed]
  by_cases hdue : w.Due name
  · cases op with
    | execQueue =>
        have hrunning := (Option.ite_none_right_eq_some.mp htakes).1
        obtain ⟨j, event', htakes', hle⟩ := takes_of_due hnodup hdue hrunning
        obtain ⟨rfl, rfl⟩ := Prod.mk.inj (Option.some.inj (htakes.symm.trans htakes'))
        refine .inr ⟨due_mem_labels hdue, hle, ?_⟩
        rw [if_pos hdue, if_pos ⟨rfl, hrunning⟩, Nat.add_comm]
    | _ => cases htakes
  · exact .inl (if_neg hdue)

/-- A label that has waited from its first place on. -/
theorem Inv.served_of_idxOf (hinv : Inv d h w) {labels' : List String} {k : Nat}
    (hlength : labels'.length ≤ MAX_QUEUE_SIZE) (hname : name ∈ labels')
    (hpassed : k = 0 ∨ name ∈ w.labels ∧ k + labels'.idxOf name ≤
      passed name h + w.labels.idxOf name) : k + labels'.idxOf name < MAX_QUEUE_SIZE := by
  rcases hpassed with rfl | ⟨hmem, hle⟩
  · rw [Nat.zero_add]
    exact (List.idxOf_lt_length_of_mem hname).trans_le hlength
  · exact hle.trans_lt (hinv.served name hmem)

/-- The invariant is kept. -/
theorem Inv.step (hinv : Inv d h w) (hs : tslStep d w op = some w') : Inv d ((w, op) :: h) w' := by
  have hqueued (name : String) := @queued_le_cons d w op h name
  cases tslStep_change hs with
  | keep htakes hlabels =>
      refine ⟨hlabels ▸ hinv.nodup, hlabels ▸ hinv.length_le, fun name => ?_, fun name hname => ?_⟩
      · rw [taken_cons_of_none htakes, hlabels]
        exact (hinv.once name).trans (hqueued name)
      · refine hinv.served_of_idxOf (hlabels ▸ hinv.length_le) hname ?_
        exact (passed_cons_of_none hinv.nodup htakes).imp_right fun hwait =>
          ⟨hwait.1, by rw [hwait.2, hlabels]⟩
  | clear htakes hlabels =>
      refine ⟨hlabels ▸ List.nodup_nil, hlabels ▸ Nat.zero_le _, fun name => ?_,
        fun name hname => absurd (hlabels ▸ hname) List.not_mem_nil⟩
      rw [taken_cons_of_none htakes, hlabels, if_neg List.not_mem_nil]
      exact ((Nat.le_add_right _ _).trans (hinv.once name)).trans (hqueued name)
  | add htakes new hqueues hnew hroom hlabels =>
      have hlength : w'.labels.length ≤ MAX_QUEUE_SIZE := by
        rw [hlabels, List.length_append, List.length_singleton]
        exact hroom
      refine ⟨?_, hlength, fun name => ?_, fun name hname => ?_⟩
      · rw [hlabels]
        exact hinv.nodup.append (List.nodup_singleton new) (by simpa using hnew)
      · rw [taken_cons_of_none htakes, hlabels]
        rcases eq_or_ne name new with rfl | hne
        · have hone := hinv.once name
          rw [if_neg hnew] at hone
          have hmore : queued d name ((w, op) :: h) = queued d name h + 1 := by
            simp [queued, hqueues]
          rw [if_pos (by simp), hmore]
          omega
        · have hsame : name ∈ w.labels ++ [new] ↔ name ∈ w.labels := by simp [hne]
          simp only [hsame]
          exact (hinv.once name).trans (hqueued name)
      · refine hinv.served_of_idxOf hlength hname ?_
        exact (passed_cons_of_none hinv.nodup htakes).imp_right fun hwait =>
          ⟨hwait.1, by rw [hwait.2, hlabels, List.idxOf_append_of_mem hwait.1]⟩
  | take i event htakes hlabels =>
      have herase := eraseIdx_of_takes hinv.nodup htakes
      have hlength : w'.labels.length ≤ MAX_QUEUE_SIZE := by
        rw [hlabels]
        exact (List.length_eraseIdx_le _ _).trans hinv.length_le
      refine ⟨?_, hlength, fun name => ?_, fun name hname => ?_⟩
      · rw [hlabels, herase]
        exact hinv.nodup.erase event.mLabel
      · have hmem : name ∈ w'.labels ↔ name ≠ event.mLabel ∧ name ∈ w.labels := by
          rw [hlabels, herase, hinv.nodup.mem_erase_iff]
        have hone := hinv.once name
        have hmore := hqueued name
        rcases eq_or_ne name event.mLabel with rfl | hne
        · have hin : event.mLabel ∈ w.labels :=
            List.mem_of_getElem? (getElem?_labels_of_takes htakes)
          have htaken : taken event.mLabel ((w, op) :: h) = taken event.mLabel h + 1 := by
            simp [taken, htakes]
          rw [if_pos hin] at hone
          rw [htaken, if_neg fun hin' => (hmem.mp hin').1 rfl]
          omega
        · have htaken : taken name ((w, op) :: h) = taken name h := by
            simp [taken, htakes, hne.symm]
          simp only [hmem, ne_eq, hne, not_false_eq_true, true_and]
          rw [htaken]
          exact hone.trans hmore
      · refine hinv.served_of_idxOf hlength hname ?_
        refine (passed_cons_of_some hinv.nodup htakes).imp_right fun ⟨hin, hle, hpassed⟩ => ?_
        have hmove := idxOf_eraseIdx hinv.nodup (hlabels ▸ hname) hle
        refine ⟨hin, ?_⟩
        rw [hpassed, hlabels]
        omega

theorem Inv.start : Inv d [] {} where
  nodup := List.nodup_nil
  length_le := Nat.zero_le _
  once _ := Nat.le_refl 0
  served _ hname := absurd hname List.not_mem_nil

/-- What `exec_queue` erases is an event of the queue whose time has come. -/
theorem erased_execQueue (hs : tslStep d w .execQueue = some w') :
    w'.player.scriptEventQueue = w.player.scriptEventQueue ∨
      ∃ i event, w.player.scriptEventQueue[i]? = some event ∧
        event.mFireTime ≤ w.g_ServerTime ∧
        w'.player.scriptEventQueue = w.player.scriptEventQueue.eraseIdx i := by
  rcases queue_execQueue hs with ⟨-, hqueue⟩ | ⟨i, event, htakes, hqueue⟩
  · exact .inl hqueue
  · have hfirst := (Option.ite_none_right_eq_some.mp htakes).2
    obtain ⟨hget, hdue, -⟩ := firstDue_eq_some hfirst
    exact .inr ⟨i, event, hget, hdue, hqueue⟩

end Step

/-- After every run the queue is in order. -/
theorem orderly_of_trace {h : List (TslWorld × TslOp)} {w : TslWorld}
    (run : Trace (fun w => w = {}) (fun _ _ => True) (tslStep d) h w) : Orderly d h w := by
  have hinv : Inv d h w := by
    refine @Trace.invariant _ _ _ _ _ (Inv d) ?_ (fun h w op w' hinv _ hs => hinv.step hs) h w run
    rintro _ rfl
    exact Inv.start
  refine ⟨hinv.nodup, ?_, hinv.once, fun name hname => ?_⟩
  · rintro ⟨w, op⟩ - w' hs rfl
    exact erased_execQueue hs
  · exact (Nat.le_add_right _ _).trans_lt (hinv.served name hname)

end Iceee.Tsl
