import Iceee.Squirrel.Player

/-!
# The invariant of the event queue

`Ledger` relates the queues to what is recorded of the events. `Sound` adds what holds of
the flags and the side lists, also between two calls of one callback.
-/

namespace Iceee.Squirrel

namespace NutPlayer

variable {s t : NutPlayer}

/-- `p` ran and was done, was cancelled, or was removed or cleared. -/
def Excused (s : NutPlayer) (p : EventPtr) : Prop :=
  (p, true) ∈ s.runs ∨ (s.heap p).mCancelled = true ∨ p ∈ s.withdrawn

/-- No callback runs after it was done. -/
def RanOnce (runs : List (EventPtr × Bool)) : Prop :=
  runs.Pairwise fun later earlier => earlier.2 = true → later.1 ≠ earlier.1

instance (runs : List (EventPtr × Bool)) : Decidable (RanOnce runs) :=
  inferInstanceAs (Decidable (List.Pairwise _ runs))

/-- What the records say about the queues. -/
structure Ledger (s : NutPlayer) : Prop where
  nodup : s.pending.Nodup
  live : ∀ p ∈ s.pending, p ∉ s.deleted
  knownPending : ∀ p ∈ s.pending, p < s.next
  knownDeleted : ∀ p ∈ s.deleted, p < s.next
  knownAdded : ∀ p ∈ s.added, p < s.next
  ran : ∀ p, (p, true) ∈ s.runs → p ∉ s.pending ∧ p < s.next
  once : RanOnce s.runs
  kept : ∀ p ∈ s.added, p ∈ s.pending ∨ s.Excused p

/-- The invariant, between the calls of a callback as well. -/
structure Sound (s : NutPlayer) : Prop extends Ledger s where
  noFault : s.fault = false
  noClear : s.mClear = false
  idle : s.mExecutingEvent = none →
    s.mQueueAdd = [] ∧ s.mQueueInsert = [] ∧ s.mQueueRemove = []
  executing : ∀ e, s.mExecutingEvent = some e → e ∈ s.mQueue ∧ s.mActive = true
  removed : s.mHalting = false → s.mQueueRemove.Nodup ∧
    ∀ p ∈ s.mQueueRemove, p ∈ s.pending ∧ p ∈ s.withdrawn ∧ s.mExecutingEvent ≠ some p
  noHalt : s.mHalting = false → ∀ p ∈ s.pending, (s.heap p).mCallback ≠ .halt
  asked : s.requested = true → s.mActive = true → s.mHalting = true

/-- An active player that is halting has a halt event in its queue. -/
def Awaits (s : NutPlayer) : Prop :=
  s.mHalting = true → s.mActive = true →
    ∃ h ∈ s.mQueue, (s.heap h).mCallback = .halt ∧ (s.heap h).mCancelled = false

/-! ## Closed forms -/

theorem touch_eq_self {ps : List EventPtr} (h : ∀ p ∈ ps, p ∉ s.deleted) : s.touch ps = s := by
  have hany : (ps.any fun p => decide (p ∈ s.deleted)) = false := by
    rw [List.any_eq_false]
    intro p hp
    simpa using h p hp
  rw [touch, hany, Bool.or_false]

theorem delete_eq {p : EventPtr} (h : p ∉ s.deleted) :
    s.delete p = { s with deleted := p :: s.deleted } := by
  rw [delete, decide_eq_false h, Bool.or_false]

theorem deleteAll_eq {ps : List EventPtr} (hnodup : ps.Nodup) (h : ∀ p ∈ ps, p ∉ s.deleted) :
    s.deleteAll ps = { s with deleted := ps.reverse ++ s.deleted } := by
  induction ps generalizing s with
  | nil => rfl
  | cons p rest ih =>
      rw [List.nodup_cons] at hnodup
      have hrest : ∀ q ∈ rest, q ∉ p :: s.deleted := by
        intro q hq hmem
        obtain rfl | hmem := List.mem_cons.mp hmem
        · exact hnodup.1 hq
        · exact h q (List.mem_cons_of_mem _ hq) hmem
      have hfirst := delete_eq (h p List.mem_cons_self)
      rw [deleteAll, List.foldl_cons, hfirst]
      refine (ih hnodup.2 hrest).trans ?_
      simp

theorem foldl_applyRemove {rs : List EventPtr} (hnodup : rs.Nodup)
    (h : ∀ p ∈ rs, p ∉ s.deleted) :
    rs.foldl applyRemove s =
      { s with
        mQueue := s.mQueue.filter (· ∉ rs)
        mQueueAdd := s.mQueueAdd.filter (· ∉ rs)
        mQueueInsert := s.mQueueInsert.filter (· ∉ rs)
        deleted := rs.reverse ++ s.deleted } := by
  induction rs generalizing s with
  | nil => simp
  | cons r rest ih =>
      rw [List.nodup_cons] at hnodup
      have hrest : ∀ q ∈ rest, q ∉ r :: s.deleted := by
        intro q hq hmem
        obtain rfl | hmem := List.mem_cons.mp hmem
        · exact hnodup.1 hq
        · exact h q (List.mem_cons_of_mem _ hq) hmem
      have hfirst : s.applyRemove r =
          { s with
            mQueue := s.mQueue.filter (· ≠ r)
            mQueueAdd := s.mQueueAdd.filter (· ≠ r)
            mQueueInsert := s.mQueueInsert.filter (· ≠ r)
            deleted := r :: s.deleted } := delete_eq (h r List.mem_cons_self)
      rw [List.foldl_cons, hfirst]
      refine (ih hnodup.2 hrest).trans ?_
      simp [List.filter_filter, Bool.and_comm]

theorem mem_pending {p : EventPtr} :
    p ∈ s.pending ↔ p ∈ s.mQueueInsert ∨ p ∈ s.mQueue ∨ p ∈ s.mQueueAdd := by
  simp [pending]

/-- `freeQueues` frees every pending event once. -/
theorem Ledger.freeQueues_eq (h : Ledger s) :
    s.freeQueues =
      { s with
        mQueue := []
        mQueueAdd := []
        mQueueInsert := []
        mQueueRemove := []
        deleted := (s.mQueue ++ s.mQueueAdd ++ s.mQueueInsert).reverse ++ s.deleted
        withdrawn := s.pending ++ s.withdrawn } := by
  have hperm : (s.mQueue ++ s.mQueueAdd ++ s.mQueueInsert).Perm s.pending := by
    rw [pending, List.append_assoc s.mQueueInsert]
    exact List.perm_append_comm
  have hlive : ∀ p ∈ s.mQueue ++ s.mQueueAdd ++ s.mQueueInsert, p ∉ s.deleted :=
    fun p hp => h.live p (hperm.mem_iff.mp hp)
  rw [freeQueues, deleteAll_eq (hperm.nodup_iff.mpr h.nodup) hlive]

/-! ## Changes of the queues -/

/-- Pending events leave the queues, each with an excuse. -/
theorem Ledger.drop (h : Ledger s) (hnext : t.next = s.next) (hadded : t.added = s.added)
    (hnodup : t.pending.Nodup) (hsub : t.pending ⊆ s.pending)
    (hdeleted : ∀ p ∈ t.deleted, p ∈ s.deleted ∨ p ∈ s.pending ∧ p ∉ t.pending)
    (hran : ∀ p, (p, true) ∈ t.runs → (p, true) ∈ s.runs ∨ p ∈ s.pending ∧ p ∉ t.pending)
    (honce : RanOnce t.runs) (hmono : ∀ p, s.Excused p → t.Excused p)
    (hexcused : ∀ p ∈ s.pending, p ∉ t.pending → t.Excused p) : Ledger t := by
  constructor
  case nodup => exact hnodup
  case live =>
    intro p hp hmem
    obtain hmem | ⟨-, hout⟩ := hdeleted p hmem
    · exact h.live p (hsub hp) hmem
    · exact hout hp
  case knownPending => exact fun p hp => hnext ▸ h.knownPending p (hsub hp)
  case knownDeleted =>
    intro p hp
    obtain hp | ⟨hp, -⟩ := hdeleted p hp
    · exact hnext ▸ h.knownDeleted p hp
    · exact hnext ▸ h.knownPending p hp
  case knownAdded => exact fun p hp => hnext ▸ h.knownAdded p (hadded ▸ hp)
  case ran =>
    intro p hp
    obtain hp | ⟨hp, hout⟩ := hran p hp
    · exact ⟨fun hmem => (h.ran p hp).1 (hsub hmem), hnext ▸ (h.ran p hp).2⟩
    · exact ⟨hout, hnext ▸ h.knownPending p hp⟩
  case once => exact honce
  case kept =>
    intro p hp
    by_cases hmem : p ∈ t.pending
    · exact .inl hmem
    · obtain hold | hold := h.kept p (hadded ▸ hp)
      · exact .inr (hexcused p hold hmem)
      · exact .inr (hmono p hold)

/-- A new event enters a queue. -/
theorem Ledger.grow (h : Ledger s) (hpending : t.pending.Perm (s.next :: s.pending))
    (hnext : t.next = s.next + 1) (hdeleted : t.deleted = s.deleted)
    (hadded : t.added = s.next :: s.added) (hruns : t.runs = s.runs)
    (hmono : ∀ p < s.next, s.Excused p → t.Excused p) : Ledger t := by
  have hmem (p : EventPtr) : p ∈ t.pending ↔ p = s.next ∨ p ∈ s.pending := by
    rw [hpending.mem_iff, List.mem_cons]
  have hnew : s.next ∉ s.pending := fun hp => lt_irrefl _ (h.knownPending _ hp)
  constructor
  case nodup => exact hpending.nodup_iff.mpr (List.nodup_cons.mpr ⟨hnew, h.nodup⟩)
  case live =>
    intro p hp hdel
    rw [hdeleted] at hdel
    obtain rfl | hp := (hmem p).mp hp
    · exact lt_irrefl _ (h.knownDeleted _ hdel)
    · exact h.live p hp hdel
  case knownPending =>
    intro p hp
    rw [hnext]
    obtain rfl | hp := (hmem p).mp hp
    · exact Nat.lt_succ_self _
    · exact (h.knownPending p hp).trans (Nat.lt_succ_self _)
  case knownDeleted =>
    intro p hp
    exact hnext ▸ (h.knownDeleted p (hdeleted ▸ hp)).trans (Nat.lt_succ_self _)
  case knownAdded =>
    intro p hp
    rw [hnext]
    rw [hadded] at hp
    obtain rfl | hp := List.mem_cons.mp hp
    · exact Nat.lt_succ_self _
    · exact (h.knownAdded p hp).trans (Nat.lt_succ_self _)
  case ran =>
    intro p hp
    rw [hruns] at hp
    obtain ⟨hout, hlt⟩ := h.ran p hp
    refine ⟨?_, hnext ▸ hlt.trans (Nat.lt_succ_self _)⟩
    intro hp'
    obtain rfl | hp' := (hmem p).mp hp'
    · exact lt_irrefl _ hlt
    · exact hout hp'
  case once => exact hruns ▸ h.once
  case kept =>
    intro p hp
    rw [hadded] at hp
    obtain rfl | hp := List.mem_cons.mp hp
    · exact .inl ((hmem _).mpr (.inl rfl))
    · exact (h.kept p hp).imp (fun hold => (hmem p).mpr (.inr hold))
        (hmono p (h.knownAdded p hp))

end NutPlayer

end Iceee.Squirrel
