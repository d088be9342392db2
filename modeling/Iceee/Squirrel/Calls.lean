import Iceee.Squirrel.Ledger

/-!
# The calls on a player

What each call keeps, and the condition under which it does.
-/

namespace Iceee.Squirrel

namespace NutPlayer

variable {s t : NutPlayer}

/-- The player after `new`, and possibly `number`, of an event. -/
def alloc (s : NutPlayer) (ev : NutScriptEvent) (id : Nat) : NutPlayer :=
  { s with
    heap := Function.update s.heap s.next ev
    next := s.next + 1
    mNextId := id }

variable {ev : NutScriptEvent} {id : Nat}

theorem alloc_heap {p : EventPtr} (hp : p < s.next) : (s.alloc ev id).heap p = s.heap p :=
  Function.update_of_ne hp.ne _ _

@[simp] theorem alloc_heap_next : (s.alloc ev id).heap s.next = ev := Function.update_self ..

theorem excused_alloc {p : EventPtr} (hp : p < s.next) (h : s.Excused p) :
    (s.alloc ev id).Excused p := by
  unfold Excused
  rw [alloc_heap hp]
  exact h

theorem Sound.number_new (h : Sound s) (cb : Callback) :
    (s.new cb).number s.next =
      s.alloc { mId := s.mNextId, mCallback := cb } (s.mNextId + 1) := by
  have hlive : ∀ p ∈ [s.next], p ∉ (s.new cb).deleted := by
    intro p hp
    rw [List.mem_singleton.mp hp]
    exact fun hmem => lt_irrefl _ (h.knownDeleted _ hmem)
  rw [number, touch_eq_self hlive]
  simp [new, alloc]

theorem Sound.alloc (h : Sound s) : Sound (s.alloc ev id) := by
  constructor
  case toLedger =>
    constructor
    case nodup => exact h.nodup
    case live => exact h.live
    case knownPending => exact fun p hp => (h.knownPending p hp).trans (Nat.lt_succ_self _)
    case knownDeleted => exact fun p hp => (h.knownDeleted p hp).trans (Nat.lt_succ_self _)
    case knownAdded => exact fun p hp => (h.knownAdded p hp).trans (Nat.lt_succ_self _)
    case ran => exact fun p hp => ⟨(h.ran p hp).1, (h.ran p hp).2.trans (Nat.lt_succ_self _)⟩
    case once => exact h.once
    case kept => exact fun p hp => (h.kept p hp).imp_right (excused_alloc (h.knownAdded p hp))
  case noFault => exact h.noFault
  case noClear => exact h.noClear
  case idle => exact h.idle
  case executing => exact h.executing
  case removed => exact h.removed
  case noHalt =>
    intro hhalting p hp
    rw [alloc_heap (h.knownPending p hp)]
    exact h.noHalt hhalting p hp
  case asked => exact h.asked

theorem Sound.halting (h : Sound s) :
    Sound { s with mHalting := true, requested := true } := by
  constructor
  case toLedger =>
    exact ⟨h.nodup, h.live, h.knownPending, h.knownDeleted, h.knownAdded, h.ran, h.once, h.kept⟩
  case noFault => exact h.noFault
  case noClear => exact h.noClear
  case idle => exact h.idle
  case executing => exact h.executing
  case removed => exact fun hfalse => nomatch hfalse
  case noHalt => exact fun hfalse => nomatch hfalse
  case asked => exact fun _ _ => rfl

theorem Sound.running (h : Sound s) (b : Bool) : Sound { s with mRunning := b } := by
  constructor
  case toLedger =>
    exact ⟨h.nodup, h.live, h.knownPending, h.knownDeleted, h.knownAdded, h.ran, h.once, h.kept⟩
  case noFault => exact h.noFault
  case noClear => exact h.noClear
  case idle => exact h.idle
  case executing => exact h.executing
  case removed => exact h.removed
  case noHalt => exact h.noHalt
  case asked => exact h.asked

/-- A new event enters a queue, as an ordinary event or as the halt that is waited for. -/
theorem Sound.place (h : Sound s) {q a i : List EventPtr} {halting requested : Bool}
    (hpending : (i ++ q ++ a).Perm (s.next :: s.pending))
    (hidle : s.mExecutingEvent = none → a = [] ∧ i = [])
    (hexecuting : s.mExecutingEvent ≠ none → q = s.mQueue)
    (hopen : halting = false → s.mHalting = false ∧ ev.mCallback ≠ .halt)
    (hasked : requested = true → s.mActive = true → halting = true) :
    Sound { s.alloc ev id with
      added := s.next :: s.added
      mQueue := q
      mQueueAdd := a
      mQueueInsert := i
      mHalting := halting
      requested := requested } := by
  have hmem {p : EventPtr} (hp : p ∈ i ++ q ++ a) : p = s.next ∨ p ∈ s.pending :=
    List.mem_cons.mp (hpending.mem_iff.mp hp)
  constructor
  case toLedger =>
    refine h.toLedger.grow hpending rfl rfl rfl rfl ?_
    intro p hp hex
    have hkept : (s.alloc ev id).Excused p := excused_alloc hp hex
    exact hkept
  case noFault => exact h.noFault
  case noClear => exact h.noClear
  case idle => exact fun hnone => ⟨(hidle hnone).1, (hidle hnone).2, (h.idle hnone).2.2⟩
  case executing =>
    intro e he
    have hq : q = s.mQueue := hexecuting (by rw [show s.mExecutingEvent = some e from he]; simp)
    obtain ⟨hin, hactive⟩ := h.executing e he
    exact ⟨hq ▸ hin, hactive⟩
  case removed =>
    intro hhalting
    obtain ⟨hnodup, hold⟩ := h.removed (hopen hhalting).1
    refine ⟨hnodup, ?_⟩
    intro p hp
    obtain ⟨hin, hrest⟩ := hold p hp
    exact ⟨hpending.mem_iff.mpr (List.mem_cons_of_mem _ hin), hrest⟩
  case noHalt =>
    intro hhalting p hp
    obtain ⟨hold, hcb⟩ := hopen hhalting
    obtain rfl | hp := hmem hp
    · have hnew : ((s.alloc ev id).heap s.next).mCallback = ev.mCallback := by simp
      exact hnew ▸ hcb
    · have hsame : (s.alloc ev id).heap p = s.heap p := alloc_heap (h.knownPending p hp)
      exact (congrArg NutScriptEvent.mCallback hsame) ▸ h.noHalt hold p hp
  case asked => exact hasked

/-! ## The calls -/

/-- What a call keeps. While an event executes, the queue itself does not change. -/
structure Keeps (s t : NutPlayer) : Prop where
  sound : Sound t
  within : s.mExecutingEvent ≠ none → t.mExecutingEvent = s.mExecutingEvent ∧
    t.mQueue = s.mQueue ∧ t.mActive = s.mActive ∧ t.mHalting = s.mHalting
  idle : s.mExecutingEvent = none → t.mExecutingEvent = none
  awaits : s.mExecutingEvent = none → Awaits s → Awaits t

theorem Keeps.refl (h : Sound s) : Keeps s s :=
  ⟨h, fun _ => ⟨rfl, rfl, rfl, rfl⟩, fun hnone => hnone, fun _ hawaits => hawaits⟩

theorem Keeps.trans {u : NutPlayer} (hst : Keeps s t) (htu : Keeps t u) : Keeps s u := by
  constructor
  case sound => exact htu.sound
  case within =>
    intro hexec
    obtain ⟨he, hq, ha, hh⟩ := hst.within hexec
    obtain ⟨he', hq', ha', hh'⟩ := htu.within (he ▸ hexec)
    exact ⟨he'.trans he, hq'.trans hq, ha'.trans ha, hh'.trans hh⟩
  case idle => exact fun hnone => htu.idle (hst.idle hnone)
  case awaits =>
    exact fun hnone hawaits => htu.awaits (hst.idle hnone) (hst.awaits hnone hawaits)

theorem Keeps.alloc (h : Sound s) : Keeps s (s.alloc ev id) := by
  constructor
  case sound => exact h.alloc
  case within => exact fun _ => ⟨rfl, rfl, rfl, rfl⟩
  case idle => exact fun hnone => hnone
  case awaits =>
    intro _ hawaits hhalting hactive
    obtain ⟨p, hp, hcb⟩ := hawaits hhalting hactive
    have hlt : p < s.next := h.knownPending p (mem_pending.mpr (.inr (.inl hp)))
    refine ⟨p, hp, ?_⟩
    rw [alloc_heap hlt]
    exact hcb

/-- An ordinary event enters a queue of a player that is not halting. -/
theorem Keeps.place (h : Sound s) {q a i : List EventPtr} {script : Bool} {mId : Nat}
    (hhalting : s.mHalting = false) (hpending : (i ++ q ++ a).Perm (s.next :: s.pending))
    (hidle : s.mExecutingEvent = none → a = [] ∧ i = [])
    (hexecuting : s.mExecutingEvent ≠ none → q = s.mQueue) :
    Keeps s { s.alloc { mId := mId, mCallback := .call script } id with
      added := s.next :: s.added
      mQueue := q
      mQueueAdd := a
      mQueueInsert := i } := by
  constructor
  case sound =>
    refine h.place hpending hidle hexecuting ?_ h.asked
    exact fun _ => ⟨hhalting, nofun⟩
  case within => exact fun hexec => ⟨rfl, hexecuting hexec, rfl, rfl⟩
  case idle => exact fun hnone => hnone
  case awaits =>
    intro _ _ htrue
    rw [show s.mHalting = true from htrue] at hhalting
    cases hhalting

theorem keeps_queueAdd (h : Sound s) (script : Bool) :
    Keeps s ((s.new (.call script)).queueAdd s.next).1 := by
  unfold queueAdd
  split
  · exact Keeps.alloc h
  rename_i hopen
  have hhalting : s.mHalting = false := by
    have hopen' : ¬ (s.mHalting || !s.mActive) = true := hopen
    simp_all
  rw [h.number_new]
  dsimp only
  split
  · rename_i hexec
    have hne : s.mExecutingEvent ≠ none := Option.isSome_iff_ne_none.mp hexec
    split
    · exact Keeps.alloc h
    split
    · exact Keeps.alloc h
    · refine Keeps.place h hhalting ?_ (fun hnone => absurd hnone hne) fun _ => rfl
      rw [pending, ← List.append_assoc]
      exact List.perm_append_singleton _ _
  · rename_i hexec
    have hnone : s.mExecutingEvent = none := Option.not_isSome_iff_eq_none.mp hexec
    obtain ⟨hadd, hinsert, -⟩ := h.idle hnone
    split
    · exact Keeps.alloc h
    · have hpending : (s.mQueueInsert ++ (s.mQueue ++ [s.next]) ++ s.mQueueAdd).Perm
          (s.next :: s.pending) := by
        rw [pending, hadd, hinsert]
        simp only [List.nil_append, List.append_nil]
        exact List.perm_append_singleton _ _
      exact Keeps.place h hhalting hpending (fun _ => ⟨hadd, hinsert⟩) (absurd hnone)

theorem keeps_queueInsert (h : Sound s) (script : Bool) :
    Keeps s ((s.new (.call script)).queueInsert s.next).1 := by
  unfold queueInsert
  split
  · exact Keeps.alloc h
  rename_i hopen
  have hhalting : s.mHalting = false := by
    have hopen' : ¬ (s.mHalting || !s.mActive) = true := hopen
    simp_all
  rw [h.number_new]
  dsimp only
  split
  · rename_i hexec
    have hne : s.mExecutingEvent ≠ none := Option.isSome_iff_ne_none.mp hexec
    split
    · exact Keeps.alloc h
    · exact Keeps.place h hhalting (.refl _) (fun hnone => absurd hnone hne) fun _ => rfl
  · rename_i hexec
    have hnone : s.mExecutingEvent = none := Option.not_isSome_iff_eq_none.mp hexec
    obtain ⟨hadd, hinsert, -⟩ := h.idle hnone
    split
    · exact Keeps.alloc h
    · have hpending : (s.mQueueInsert ++ (s.next :: s.mQueue) ++ s.mQueueAdd).Perm
          (s.next :: s.pending) := by
        rw [pending, hadd, hinsert]
        exact .refl _
      exact Keeps.place h hhalting hpending (fun _ => ⟨hadd, hinsert⟩) (absurd hnone)

/-- Removing `evt` frees it once, and it is not the halt event of a pending halt. -/
def Removable (s : NutPlayer) (evt : EventPtr) : Prop :=
  (s.mExecutingEvent = none → evt ∈ s.mQueue → (s.heap evt).mCallback ≠ .halt) ∧
    (s.mExecutingEvent ≠ none → s.mExecutingEvent ≠ some evt → s.mHalting = false →
      evt ∈ s.pending ∧ evt ∉ s.mQueueRemove)

instance (s : NutPlayer) (evt : EventPtr) : Decidable (s.Removable evt) :=
  inferInstanceAs (Decidable (_ ∧ _))

theorem mem_withdraw {evt p : EventPtr} :
    p ∈ (s.withdraw evt).withdrawn ↔ p ∈ s.withdrawn ∨ p = evt ∧ evt ∈ s.pending := by
  unfold withdraw
  dsimp only
  split
  · rename_i hmem
    rw [List.mem_cons, or_comm]
    simp [hmem]
  · rename_i hmem
    simp [hmem]

theorem excused_withdraw {evt p : EventPtr} (h : s.Excused p) : (s.withdraw evt).Excused p :=
  h.imp_right (Or.imp_right fun hp => mem_withdraw.mpr (.inl hp))

/-- A removal is put off while an event executes. -/
theorem keeps_queueRemove_executing (h : Sound s) {evt : EventPtr}
    (hexec : s.mExecutingEvent ≠ none) (hne : s.mExecutingEvent ≠ some evt)
    (hr : s.Removable evt) :
    Keeps s { s.withdraw evt with mQueueRemove := evt :: s.mQueueRemove } := by
  constructor
  case sound =>
    constructor
    case toLedger =>
      refine ⟨h.nodup, h.live, h.knownPending, h.knownDeleted, h.knownAdded, h.ran, h.once, ?_⟩
      intro p hp
      have hkept : p ∈ s.pending ∨ (s.withdraw evt).Excused p :=
        (h.kept p hp).imp_right excused_withdraw
      exact hkept
    case noFault => exact h.noFault
    case noClear => exact h.noClear
    case idle => exact fun hnone => absurd hnone hexec
    case executing => exact h.executing
    case removed =>
      intro hhalting
      obtain ⟨hnodup, hold⟩ := h.removed hhalting
      obtain ⟨hin, hnew⟩ := hr.2 hexec hne hhalting
      refine ⟨List.nodup_cons.mpr ⟨hnew, hnodup⟩, ?_⟩
      intro p hp
      obtain rfl | hp := List.mem_cons.mp hp
      · exact ⟨hin, mem_withdraw.mpr (.inr ⟨rfl, hin⟩), hne⟩
      · obtain ⟨hpend, hwith, hnot⟩ := hold p hp
        exact ⟨hpend, mem_withdraw.mpr (.inl hwith), hnot⟩
    case noHalt => exact h.noHalt
    case asked => exact h.asked
  case within => exact fun _ => ⟨rfl, rfl, rfl, rfl⟩
  case idle => exact fun hnone => hnone
  case awaits => exact fun hnone => absurd hnone hexec

/-- Outside of a callback an event is erased at once, and is not deleted. -/
theorem keeps_queueRemove_idle (h : Sound s) {evt : EventPtr}
    (hnone : s.mExecutingEvent = none) (hr : s.Removable evt) :
    Keeps s { s.withdraw evt with mQueue := s.mQueue.erase evt } := by
  obtain ⟨hadd, hinsert, hremove⟩ := h.idle hnone
  have hpending : s.pending = s.mQueue := by
    rw [pending, hadd, hinsert, List.nil_append, List.append_nil]
  have hnodup : s.mQueue.Nodup := hpending ▸ h.nodup
  generalize ht : ({ s.withdraw evt with mQueue := s.mQueue.erase evt } : NutPlayer) = t
  have htpending : t.pending = s.mQueue.erase evt := by
    rw [← ht]
    change s.mQueueInsert ++ s.mQueue.erase evt ++ s.mQueueAdd = _
    rw [hadd, hinsert, List.nil_append, List.append_nil]
  have htq : t.mQueue = s.mQueue.erase evt := by rw [← ht]
  have hsub : t.pending ⊆ s.pending := by
    rw [htpending, hpending]
    exact List.erase_subset
  have hexcused (p : EventPtr) (hp : (s.withdraw evt).Excused p) : t.Excused p := ht ▸ hp
  have htheap : t.heap = s.heap := by rw [← ht]; rfl
  have htnone : t.mExecutingEvent = none := by rw [← ht]; exact hnone
  constructor
  case sound =>
    constructor
    case toLedger =>
      refine h.toLedger.drop (by rw [← ht]; rfl) (by rw [← ht]; rfl) ?_ hsub ?_ ?_ ?_ ?_ ?_
      · exact htpending ▸ hnodup.erase evt
      · intro p hp
        rw [← ht] at hp
        exact .inl hp
      · intro p hp
        rw [← ht] at hp
        exact .inl hp
      · rw [← ht]
        exact h.once
      · exact fun p hp => hexcused p (excused_withdraw hp)
      · intro p hp hout
        rw [htpending, hnodup.mem_erase_iff] at hout
        have heq : p = evt := by
          by_contra hne
          exact hout ⟨hne, hpending ▸ hp⟩
        subst heq
        exact hexcused p (.inr (.inr (mem_withdraw.mpr (.inr ⟨rfl, hp⟩))))
    case noFault => rw [← ht]; exact h.noFault
    case noClear => rw [← ht]; exact h.noClear
    case idle => rw [← ht]; exact fun _ => ⟨hadd, hinsert, hremove⟩
    case executing =>
      intro e he
      rw [htnone] at he
      cases he
    case removed =>
      have hempty : t.mQueueRemove = [] := by rw [← ht]; exact hremove
      rw [hempty]
      exact fun _ => ⟨List.nodup_nil, List.forall_mem_nil _⟩
    case noHalt =>
      intro hhalting p hp
      rw [htheap]
      exact h.noHalt (by rw [← hhalting, ← ht]; rfl) p (hsub hp)
    case asked => rw [← ht]; exact h.asked
  case within => exact fun hexec => absurd hnone hexec
  case idle => exact fun _ => htnone
  case awaits =>
    intro _ hawaits hhalting hactive
    obtain ⟨p, hp, hcb, hcancelled⟩ := hawaits (by rw [← hhalting, ← ht]; rfl)
      (by rw [← hactive, ← ht]; rfl)
    have hne : p ≠ evt := by
      rintro rfl
      exact hr.1 hnone hp hcb
    refine ⟨p, ?_, ?_⟩
    · rw [htq, hnodup.mem_erase_iff]
      exact ⟨hne, hp⟩
    · rw [htheap]
      exact ⟨hcb, hcancelled⟩

theorem keeps_queueRemove (h : Sound s) {evt : EventPtr} (hr : s.Removable evt) :
    Keeps s (s.queueRemove evt) := by
  unfold queueRemove
  split
  · rename_i hexec
    have hsome : s.mExecutingEvent ≠ none := Option.isSome_iff_ne_none.mp hexec
    split
    · exact Keeps.refl h
    · rename_i hne
      exact keeps_queueRemove_executing h hsome hne hr
  · rename_i hexec
    have hnone : s.mExecutingEvent = none := Option.not_isSome_iff_eq_none.mp hexec
    obtain ⟨hadd, hinsert, hremove⟩ := h.idle hnone
    have hkeeps := keeps_queueRemove_idle h hnone hr
    simpa [withdraw, hadd, hinsert, hremove] using hkeeps

theorem keeps_cancel (h : Sound s) {id : Nat}
    (hr : ∀ nse, s.getEvent id = some nse → s.Removable nse) : Keeps s (s.cancel id) := by
  have hlive : ∀ p ∈ s.mQueue, p ∉ s.deleted :=
    fun p hp => h.live p (mem_pending.mpr (.inr (.inl hp)))
  unfold cancel
  cases hget : s.getEvent id with
  | none =>
      dsimp only
      rw [touch_eq_self hlive]
      exact Keeps.refl h
  | some nse =>
      have hnse : nse ∈ s.mQueue := List.mem_of_find?_eq_some hget
      have hscan : ∀ p ∈ s.mQueue.takeWhile (· ≠ nse) ++ [nse], p ∉ s.deleted := by
        intro p hp
        obtain hp | hp := List.mem_append.mp hp
        · exact hlive p (List.takeWhile_subset _ hp)
        · exact hlive p (List.mem_singleton.mp hp ▸ hnse)
      dsimp only
      rw [touch_eq_self hscan]
      exact keeps_queueRemove h (hr nse hget)

/-- No event the callback clears was removed by it before. -/
def Clearable (s : NutPlayer) : Prop :=
  s.mExecutingEvent ≠ none → s.mHalting = false →
    ∀ p ∈ s.mQueue, s.mExecutingEvent ≠ some p → p ∉ s.mQueueRemove

instance (s : NutPlayer) : Decidable s.Clearable := inferInstanceAs (Decidable (_ → _ → _))

theorem freeQueues_pending : s.freeQueues.pending = [] := rfl

theorem Ledger.freed (h : Ledger s) : Ledger s.freeQueues := by
  have hwithdrawn (p : EventPtr) : p ∈ s.freeQueues.withdrawn ↔ p ∈ s.pending ∨ p ∈ s.withdrawn :=
    List.mem_append
  rw [h.freeQueues_eq] at hwithdrawn ⊢
  refine h.drop rfl rfl List.nodup_nil (List.nil_subset _) ?_ ?_ h.once ?_ ?_
  · intro p hp
    obtain hp | hp := List.mem_append.mp hp
    · refine .inr ⟨mem_pending.mpr ?_, List.not_mem_nil⟩
      simp only [List.mem_reverse, List.mem_append] at hp
      tauto
    · exact .inl hp
  · exact fun p hp => .inl hp
  · exact fun p hp => hp.imp_right (Or.imp_right fun hw => (hwithdrawn p).mpr (.inr hw))
  · exact fun p hp _ => .inr (.inr ((hwithdrawn p).mpr (.inl hp)))

/-- What freeing every event keeps. -/
theorem Ledger.emptied (h : Ledger s) (hfault : s.fault = false) (hclear : s.mClear = false)
    (hnone : s.mExecutingEvent = none)
    (hasked : s.requested = true → s.mActive = true → s.mHalting = true) :
    Sound s.freeQueues := by
  have hledger := h.freed
  have hpending := freeQueues_pending (s := s)
  rw [h.freeQueues_eq] at hledger hpending ⊢
  constructor
  case toLedger => exact hledger
  case noFault => exact hfault
  case noClear => exact hclear
  case idle => exact fun _ => ⟨rfl, rfl, rfl⟩
  case executing => exact fun e he => nomatch hnone.symm.trans he
  case removed => exact fun _ => ⟨List.nodup_nil, nofun⟩
  case noHalt =>
    intro _ p hp
    rw [hpending] at hp
    cases hp
  case asked => exact hasked

theorem keeps_queueClear (h : Sound s) (hc : s.Clearable) : Keeps s s.queueClear := by
  unfold queueClear
  split
  · rename_i hexec
    have hsome : s.mExecutingEvent ≠ none := Option.isSome_iff_ne_none.mp hexec
    generalize hcleared :
      (s.mQueue.filter fun nse => s.mExecutingEvent ≠ some nse) = cleared
    have hmem {p : EventPtr} (hp : p ∈ cleared) :
        p ∈ s.mQueue ∧ s.mExecutingEvent ≠ some p := by
      rw [← hcleared] at hp
      simpa using hp
    have hqueue : s.mQueue.Nodup :=
      h.nodup.of_append_left.of_append_right
    constructor
    case sound =>
      constructor
      case toLedger =>
        refine ⟨h.nodup, h.live, h.knownPending, h.knownDeleted, h.knownAdded, h.ran, h.once, ?_⟩
        intro p hp
        refine (h.kept p hp).imp_right ?_
        exact Or.imp_right (Or.imp_right fun hw => List.mem_append_right _ hw)
      case noFault => exact h.noFault
      case noClear => exact h.noClear
      case idle => exact fun hnone => absurd hnone hsome
      case executing => exact h.executing
      case removed =>
        intro hhalting
        obtain ⟨hnodup, hold⟩ := h.removed hhalting
        have hdisjoint : s.mQueueRemove.Disjoint cleared := by
          intro p hp hp'
          exact hc hsome hhalting p (hmem hp').1 (hmem hp').2 hp
        refine ⟨hnodup.append (hcleared ▸ hqueue.filter _) hdisjoint, ?_⟩
        intro p hp
        obtain hp | hp := List.mem_append.mp hp
        · obtain ⟨hpend, hwith, hnot⟩ := hold p hp
          exact ⟨hpend, List.mem_append_right _ hwith, hnot⟩
        · obtain ⟨hin, hnot⟩ := hmem hp
          exact ⟨mem_pending.mpr (.inr (.inl hin)), List.mem_append_left _ hp, hnot⟩
      case noHalt => exact h.noHalt
      case asked => exact h.asked
    case within => exact fun _ => ⟨rfl, rfl, rfl, rfl⟩
    case idle => exact fun hnone => hnone
    case awaits => exact fun hnone => absurd hnone hsome
  · rename_i hexec
    have hnone : s.mExecutingEvent = none := Option.not_isSome_iff_eq_none.mp hexec
    unfold clearQueue
    split
    · exact Keeps.refl h
    · rename_i hhalting
      have hsound := h.emptied h.noFault h.noClear hnone h.asked
      dsimp only
      constructor
      case sound => exact hsound
      case within => exact fun hsome => absurd hnone hsome
      case idle =>
        intro _
        rw [h.freeQueues_eq]
        exact hnone
      case awaits =>
        intro _ _ htrue
        rw [h.freeQueues_eq] at htrue
        exact absurd htrue hhalting

/-! ## Halts -/

/-- The callback does not ask for the halt, and there is room for the halt event. -/
def Haltable (s : NutPlayer) : Prop :=
  s.mActive = true → s.mHalting = false →
    s.mExecutingEvent = none ∧ s.mQueue.length < MAX_QUEUE_SIZE

instance (s : NutPlayer) : Decidable s.Haltable := inferInstanceAs (Decidable (_ → _ → _))

/-- A halt of a player that is not halting yet, where the halt event went to `q`. -/
theorem Keeps.haltPlaced (h : Sound s) {q : List EventPtr} {mId : Nat}
    (hnone : s.mExecutingEvent = none) (hq : q.Perm (s.next :: s.mQueue)) :
    Keeps s { s.alloc { mId := mId, mCallback := .halt } id with
      added := s.next :: s.added
      mQueue := q
      mHalting := true
      requested := true } := by
  obtain ⟨hadd, hinsert, -⟩ := h.idle hnone
  have hpending : (s.mQueueInsert ++ q ++ s.mQueueAdd).Perm (s.next :: s.pending) := by
    rw [pending, hadd, hinsert]
    simpa only [List.nil_append, List.append_nil] using hq
  constructor
  case sound =>
    refine h.place hpending (fun _ => ⟨hadd, hinsert⟩) (absurd hnone) ?_ fun _ _ => rfl
    exact fun hfalse => absurd hfalse Bool.true_eq_false.mp
  case within => exact fun hsome => absurd hnone hsome
  case idle => exact fun _ => hnone
  case awaits =>
    intro _ _ _ _
    refine ⟨s.next, hq.mem_iff.mpr List.mem_cons_self, ?_⟩
    have hnew : (s.alloc { mId := mId, mCallback := .halt } id).heap s.next =
        { mId := mId, mCallback := .halt } := alloc_heap_next
    refine ⟨congrArg NutScriptEvent.mCallback hnew, ?_⟩
    exact congrArg NutScriptEvent.mCancelled hnew

/-- A halt that is refused is remembered all the same. -/
theorem Keeps.haltRefused (h : Sound s) (hrefused : s.mHalting = true ∨ s.mActive = false) :
    Keeps s { s.alloc { mCallback := .halt } id with mHalting := true, requested := true } := by
  have hkeeps : Keeps s (s.alloc { mCallback := .halt } id) := Keeps.alloc h
  have hhalting : s.mActive = true → s.mHalting = true := by
    intro hactive
    obtain hrefused | hrefused := hrefused
    · exact hrefused
    · exact nomatch hactive.symm.trans hrefused
  constructor
  case sound => exact hkeeps.sound.halting
  case within =>
    intro hsome
    obtain ⟨e, he⟩ := Option.ne_none_iff_exists'.mp hsome
    exact ⟨rfl, rfl, rfl, (hhalting (h.executing e he).2).symm⟩
  case idle => exact hkeeps.idle
  case awaits =>
    intro hnone hawaits _ hactive
    exact hkeeps.awaits hnone hawaits (hhalting hactive) hactive

/-- `QueueAdd` and `QueueInsert` take nothing from a player that is halting or not active. -/
def Refuses (s : NutPlayer) : Prop := s.mHalting = true ∨ s.mActive = false

theorem refuses_iff : s.Refuses ↔ (s.mHalting || !s.mActive) = true := by
  rw [Refuses, Bool.or_eq_true, Bool.not_eq_true']

theorem queueAdd_of_refuses (h : s.Refuses) (evt : EventPtr) : s.queueAdd evt = (s, -1) := by
  rw [queueAdd, if_pos (refuses_iff.mp h)]

theorem Sound.queueAdd_new (h : Sound s) (hopen : ¬ s.Refuses) (cb : Callback)
    (hnone : s.mExecutingEvent = none) (hroom : s.mQueue.length < MAX_QUEUE_SIZE) :
    ((s.new cb).queueAdd s.next).1 =
      { s.alloc { mId := s.mNextId, mCallback := cb } (s.mNextId + 1) with
        added := s.next :: s.added
        mQueue := s.mQueue ++ [s.next] } := by
  have hopen' : ¬ ((s.new cb).mHalting || !(s.new cb).mActive) = true := refuses_iff.not.mp hopen
  rw [queueAdd, if_neg hopen', h.number_new]
  simp [NutPlayer.alloc, hnone, Nat.not_le.mpr hroom]

theorem Sound.queueInsert_new (h : Sound s) (hopen : ¬ s.Refuses) (cb : Callback)
    (hnone : s.mExecutingEvent = none) (hroom : s.mQueue.length < MAX_QUEUE_SIZE) :
    ((s.new cb).queueInsert s.next).1 =
      { s.alloc { mId := s.mNextId, mCallback := cb } (s.mNextId + 1) with
        added := s.next :: s.added
        mQueue := s.next :: s.mQueue } := by
  have hopen' : ¬ ((s.new cb).mHalting || !(s.new cb).mActive) = true := refuses_iff.not.mp hopen
  rw [queueInsert, if_neg hopen', h.number_new]
  simp [NutPlayer.alloc, hnone, Nat.not_le.mpr hroom]

theorem keeps_halt (h : Sound s) (hh : s.Haltable) : Keeps s s.halt := by
  by_cases hrefuses : s.Refuses
  · have heq : s.halt =
        { s.alloc { mCallback := .halt } s.mNextId with mHalting := true, requested := true } := by
      have hnew : (s.new .halt).Refuses := hrefuses
      simp only [halt, haltEvent, Bool.false_eq_true, if_false]
      rw [queueAdd_of_refuses hnew]
      rfl
    rw [heq]
    exact Keeps.haltRefused h hrefuses
  · have hopen : s.mHalting = false ∧ s.mActive = true := by
      simpa [Refuses] using hrefuses
    obtain ⟨hnone, hroom⟩ := hh hopen.2 hopen.1
    have heq := h.queueAdd_new hrefuses .halt hnone hroom
    simp only [halt, haltEvent, Bool.false_eq_true, if_false]
    rw [heq]
    exact Keeps.haltPlaced h hnone (List.perm_append_singleton _ _)

theorem Keeps.running {b b' : Bool} (h : Keeps { s with mRunning := b } t) :
    Keeps s { t with mRunning := b' } :=
  ⟨h.sound.running b', h.within, h.idle, h.awaits⟩

/-- After `HaltVM` nothing is left to keep. -/
theorem Sound.shut (h : Sound s) : Sound s.shut := by
  generalize hu :
    ({ s with mActive := false, mExecutingEvent := none, mHalting := false } : NutPlayer) = u
  have hledger : Ledger u := by
    rw [← hu]
    exact ⟨h.nodup, h.live, h.knownPending, h.knownDeleted, h.knownAdded, h.ran, h.once, h.kept⟩
  have hfreed : Sound u.freeQueues := by
    refine hledger.emptied ?_ ?_ ?_ ?_
    · rw [← hu]; exact h.noFault
    · rw [← hu]; exact h.noClear
    · rw [← hu]
    · rw [← hu]; exact fun _ hfalse => nomatch hfalse
  have hshut : s.shut = { u.freeQueues with mHalted := true } := by
    rw [← hu]
    simp [NutPlayer.shut, clearQueue]
  rw [hshut]
  exact ⟨⟨hfreed.nodup, hfreed.live, hfreed.knownPending, hfreed.knownDeleted, hfreed.knownAdded,
    hfreed.ran, hfreed.once, hfreed.kept⟩, hfreed.noFault, hfreed.noClear, hfreed.idle,
    hfreed.executing, hfreed.removed, hfreed.noHalt, hfreed.asked⟩

theorem deleteAll_frame (ps : List EventPtr) :
    ∃ deleted fault, s.deleteAll ps = { s with deleted := deleted, fault := fault } := by
  induction ps generalizing s with
  | nil => exact ⟨_, _, rfl⟩
  | cons p rest ih =>
      obtain ⟨deleted, fault, heq⟩ := ih (s := s.delete p)
      exact ⟨deleted, fault, heq⟩

theorem shut_frame :
    s.shut.mActive = false ∧ s.shut.mExecutingEvent = none ∧ s.shut.pending = [] ∧
      s.shut.runs = s.runs ∧ s.shut.next = s.next := by
  generalize hu :
    ({ s with mActive := false, mExecutingEvent := none, mHalting := false } : NutPlayer) = u
  obtain ⟨deleted, fault, hfree⟩ :=
    deleteAll_frame (s := u) (u.mQueue ++ u.mQueueAdd ++ u.mQueueInsert)
  have hshut : s.shut = { u.freeQueues with mHalted := true } := by
    rw [← hu]
    simp [NutPlayer.shut, clearQueue]
  rw [hshut, freeQueues, hfree, ← hu]
  exact ⟨rfl, rfl, rfl, rfl, rfl⟩

theorem Keeps.shut (h : Sound t) (hnone : s.mExecutingEvent = none) : Keeps s t.shut := by
  constructor
  case sound => exact h.shut
  case within => exact fun hsome => absurd hnone hsome
  case idle => exact fun _ => shut_frame.2.1
  case awaits => exact fun _ _ _ hactive => nomatch shut_frame.1.symm.trans hactive

/-- No halt event is in the queue of a player that is not halting. -/
theorem Sound.cancelHalts_eq (h : Sound s) (hhalting : s.mHalting = false) :
    s.cancelHalts = s := by
  have hqueue {p : EventPtr} (hp : p ∈ s.mQueue) : p ∈ s.pending :=
    mem_pending.mpr (.inr (.inl hp))
  have hheap : (fun p => if p ∈ s.mQueue ∧ (s.heap p).mCallback = .halt
      then { s.heap p with mCancelled := true } else s.heap p) = s.heap := by
    funext p
    exact if_neg fun hp => h.noHalt hhalting p (hqueue hp.1) hp.2
  rw [cancelHalts, touch_eq_self fun p hp => h.live p (hqueue hp), hheap]

/-- `HaltExecution` in a script function that no event executes. -/
theorem keeps_haltExecution_running (h : Sound s) (hopen : ¬ s.Refuses)
    (hnone : s.mExecutingEvent = none) : Keeps s (s.cancelHalts.clearQueue.1.haltEvent true) := by
  have hhalting : s.mHalting = false := by
    rw [Refuses, not_or, Bool.not_eq_true] at hopen
    exact hopen.1
  have hclear : s.queueClear = s.freeQueues := by
    simp [queueClear, clearQueue, hnone, hhalting]
  have hcleared : s.clearQueue.1 = s.freeQueues := by simp [clearQueue, hnone, hhalting]
  have hkeeps : Keeps s s.freeQueues :=
    hclear ▸ keeps_queueClear h fun hsome => absurd hnone hsome
  have hfreed := h.freeQueues_eq
  rw [h.cancelHalts_eq hhalting, hcleared]
  refine hkeeps.trans ?_
  have hidle : s.freeQueues.mExecutingEvent = none := hkeeps.idle hnone
  have hopen' : ¬ s.freeQueues.Refuses := by
    rw [Refuses, hfreed]
    exact hopen
  have hroom : s.freeQueues.mQueue.length < MAX_QUEUE_SIZE := by
    rw [hfreed]
    exact Nat.succ_pos _
  have hinsert := hkeeps.sound.queueInsert_new hopen' .halt hidle hroom
  simp only [haltEvent, if_true]
  rw [hinsert]
  exact Keeps.haltPlaced hkeeps.sound hidle (.refl _)

end NutPlayer

end Iceee.Squirrel
