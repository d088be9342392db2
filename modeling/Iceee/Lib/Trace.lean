import Mathlib

/-!
# Runs of a partial step function

A run is recorded as the list of states and inputs it went through, newest
first. Every step carries a side condition read in the state before it, so a
guarded run and an unrestricted run are two instances of one definition.
-/

namespace Iceee.Lib

variable {S A : Type*}

/-- `Trace init ok step h s`: from a state in `init`, the steps listed in `h` all met
`ok` and ended in `s`. A step without a result has no continuation. -/
inductive Trace (init : S → Prop) (ok : S → A → Prop) (step : S → A → Option S) :
    List (S × A) → S → Prop
  | start {s} (h : init s) : Trace init ok step [] s
  | next {h s a s'} (run : Trace init ok step h s) (hok : ok s a) (hs : step s a = some s') :
      Trace init ok step ((s, a) :: h) s'

/-- The states some run ends in. -/
def Reach (init : S → Prop) (ok : S → A → Prop) (step : S → A → Option S) (s : S) : Prop :=
  ∃ h, Trace init ok step h s

variable {init : S → Prop} {ok ok' : S → A → Prop} {step : S → A → Option S}

theorem Reach.start {s : S} (h : init s) : Reach init ok step s := ⟨[], .start h⟩

theorem Reach.next {s s' : S} {a : A} (h : Reach init ok step s) (hok : ok s a)
    (hs : step s a = some s') : Reach init ok step s' := by
  obtain ⟨l, run⟩ := h
  exact ⟨_, run.next hok hs⟩

/-- What holds at the start and is kept by every admitted step holds along the run,
where the statement may also speak about the recorded history. -/
theorem Trace.invariant {Inv : List (S × A) → S → Prop}
    (h0 : ∀ s, init s → Inv [] s)
    (hstep : ∀ h s a s', Inv h s → ok s a → step s a = some s' → Inv ((s, a) :: h) s')
    {h s} (run : Trace init ok step h s) : Inv h s := by
  induction run with
  | start h => exact h0 _ h
  | next _ hok hs ih => exact hstep _ _ _ _ ih hok hs

/-- A run whose steps lower a measure is not longer than the measure was at its start. -/
theorem Trace.length_add_le {measure : S → Nat} {most : Nat}
    (h0 : ∀ s, init s → measure s ≤ most)
    (hstep : ∀ s a s', ok s a → step s a = some s' → measure s' < measure s)
    {h s} (run : Trace init ok step h s) : h.length + measure s ≤ most := by
  induction run with
  | start h => simpa using h0 _ h
  | next _ hok hs ih =>
      have hlower := hstep _ _ _ hok hs
      rw [List.length_cons]
      omega

/-- Every recorded step met the side condition. -/
theorem Trace.ok_of_mem {h : List (S × A)} {s : S} (run : Trace init ok step h s) {e : S × A}
    (he : e ∈ h) : ok e.1 e.2 := by
  induction run with
  | start _ => cases he
  | next _ hok _ ih =>
      rcases List.mem_cons.mp he with rfl | he
      · exact hok
      · exact ih he

/-- The invariant rule for reached states. -/
theorem Reach.invariant {Inv : S → Prop} (h0 : ∀ s, init s → Inv s)
    (hstep : ∀ s a s', Inv s → ok s a → step s a = some s' → Inv s')
    {s} (h : Reach init ok step s) : Inv s := by
  obtain ⟨l, run⟩ := h
  induction run with
  | start h => exact h0 _ h
  | next _ hok hs ih => exact hstep _ _ _ ih hok hs

/-- Where a step that meets the side condition keeps the invariant and is proper, and a proper step
that ends in a safe state met it, a run is safe and takes proper steps only exactly when all its
steps met the side condition. -/
theorem Trace.sound_iff {Inv Safe : S → Prop} {Proper : S → A → S → Prop}
    (h0 : ∀ s, init s → Inv s) (hsafe : ∀ s, Inv s → Safe s)
    (hkeep : ∀ s a s', Inv s → ok s a → step s a = some s' → Inv s' ∧ Proper s a s')
    (hmet : ∀ s a s', Inv s → step s a = some s' → Safe s' → Proper s a s' → ok s a)
    {h s} (run : Trace init ok' step h s) :
    (Safe s ∧ ∀ e ∈ h, Safe e.1 ∧ ∀ s', step e.1 e.2 = some s' → Proper e.1 e.2 s') ↔
      ∀ e ∈ h, ok e.1 e.2 := by
  -- the invariant is only there where all the steps so far met the condition
  suffices hrun : ((Safe s ∧ ∀ e ∈ h, Safe e.1 ∧ ∀ s', step e.1 e.2 = some s' →
      Proper e.1 e.2 s') ↔ ∀ e ∈ h, ok e.1 e.2) ∧ ((∀ e ∈ h, ok e.1 e.2) → Inv s) from hrun.1
  induction run with
  | start h => simpa using ⟨hsafe _ (h0 _ h), h0 _ h⟩
  | @next h s a s' run _ hs ih =>
      obtain ⟨hiff, hinv⟩ := ih
      simp only [List.forall_mem_cons]
      have hkept (hok : ok s a ∧ ∀ e ∈ h, ok e.1 e.2) : Inv s' ∧ Proper s a s' :=
        hkeep s a s' (hinv hok.2) hok.1 hs
      refine ⟨⟨?_, ?_⟩, fun hok => (hkept hok).1⟩
      · intro ⟨hsafe', ⟨hsafe₀, hproper⟩, hall⟩
        have hok := hiff.mp ⟨hsafe₀, hall⟩
        exact ⟨hmet s a s' (hinv hok) hs hsafe' (hproper s' hs), hok⟩
      · intro hok
        obtain ⟨hinv', hproper⟩ := hkept hok
        obtain ⟨hsafe₀, hrest⟩ := hiff.mpr hok.2
        refine ⟨hsafe s' hinv', ⟨hsafe₀, fun t ht => ?_⟩, hrest⟩
        obtain rfl : s' = t := Option.some.inj (hs.symm.trans ht)
        exact hproper

/-- Where a step that meets the side condition keeps an invariant that makes the state safe, and a
step that does not ends in a state that is not safe, a run is safe throughout exactly when all its
steps met the side condition. -/
theorem Trace.safe_iff {Inv Safe : S → Prop} (h0 : ∀ s, init s → Inv s)
    (hsafe : ∀ s, Inv s → Safe s)
    (hkeep : ∀ s a s', Inv s → ok s a → step s a = some s' → Inv s')
    (hbreak : ∀ s a s', Inv s → ¬ok s a → step s a = some s' → ¬Safe s')
    {h s} (run : Trace init ok' step h s) :
    (Safe s ∧ ∀ e ∈ h, Safe e.1) ↔ ∀ e ∈ h, ok e.1 e.2 := by
  have hsound := @Trace.sound_iff S A init ok ok' step Inv Safe (fun _ _ _ => True) h0 hsafe
    (fun s a s' hinv hok hs => ⟨hkeep s a s' hinv hok hs, trivial⟩)
    (fun s a s' hinv hs hsafe' _ => by_contra fun hbad => hbreak s a s' hinv hbad hs hsafe') h s run
  simpa using hsound

/-- Where a step out of the invariant keeps it and is proper exactly when the side condition holds,
a run keeps the invariant and takes proper steps only exactly when all its steps met the
condition. -/
theorem Trace.proper_iff {Inv : S → Prop} {Proper : S → A → S → Prop} (h0 : ∀ s, init s → Inv s)
    (hstep : ∀ s a s', Inv s → step s a = some s' → (Inv s' ∧ Proper s a s' ↔ ok s a))
    {h s} (run : Trace init ok' step h s) :
    (Inv s ∧ ∀ e ∈ h, Inv e.1 ∧ ∀ s', step e.1 e.2 = some s' → Proper e.1 e.2 s') ↔
      ∀ e ∈ h, ok e.1 e.2 := by
  induction run with
  | start h => simpa using h0 _ h
  | @next h s a s' run _ hs ih =>
      simp only [List.forall_mem_cons]
      constructor
      · intro ⟨hinv', ⟨hinv, hproper⟩, hall⟩
        exact ⟨(hstep s a s' hinv hs).mp ⟨hinv', hproper s' hs⟩, ih.mp ⟨hinv, hall⟩⟩
      · intro ⟨hok, hall⟩
        obtain ⟨hinv, hrest⟩ := ih.mpr hall
        obtain ⟨hinv', hproper⟩ := (hstep s a s' hinv hs).mpr hok
        refine ⟨hinv', ⟨hinv, fun t ht => ?_⟩, hrest⟩
        obtain rfl : s' = t := Option.some.inj (hs.symm.trans ht)
        exact hproper

/-- Run a list of inputs in order; `none` once a step has no result. -/
def runAll (step : S → A → Option S) : S → List A → Option S
  | s, [] => some s
  | s, a :: rest => (step s a).bind (runAll step · rest)

/-- Whether every input of the list meets the side condition when its turn comes. -/
def OkAll (ok : S → A → Prop) (step : S → A → Option S) : S → List A → Prop
  | _, [] => True
  | s, a :: rest => ok s a ∧ ∀ s' ∈ step s a, OkAll ok step s' rest

instance OkAll.decidable [∀ s a, Decidable (ok s a)] :
    ∀ (s : S) (as : List A), Decidable (OkAll ok step s as)
  | _, [] => inferInstanceAs (Decidable True)
  | s, a :: rest =>
      have : ∀ s', Decidable (OkAll ok step s' rest) := fun s' => OkAll.decidable s' rest
      inferInstanceAs (Decidable (ok s a ∧ ∀ s' ∈ step s a, OkAll ok step s' rest))

/-- Name the result of a computation that is known to succeed. -/
theorem eq_some_getD {α : Type*} {o : Option α} (h : o.isSome = true) (d : α) :
    o = some (o.getD d) := by
  obtain ⟨a, rfl⟩ := Option.isSome_iff_exists.mp h
  rfl

/-- The history of running a list of inputs, on top of an earlier one. -/
def logAll (step : S → A → Option S) : List (S × A) → S → List A → List (S × A)
  | h, _, [] => h
  | h, s, a :: rest =>
      match step s a with
      | some s' => logAll step ((s, a) :: h) s' rest
      | none => h

/-- A list of inputs whose steps are admitted and succeed extends a run. -/
theorem Trace.runAll {h : List (S × A)} {s s' : S} {as : List A}
    (run : Trace init ok step h s) (hok : OkAll ok step s as)
    (hr : Lib.runAll step s as = some s') : Trace init ok step (logAll step h s as) s' := by
  induction as generalizing h s with
  | nil =>
      simp only [Lib.runAll, Option.some.injEq] at hr
      exact hr ▸ run
  | cons a rest ih =>
      simp only [Lib.runAll, Option.bind_eq_some_iff] at hr
      obtain ⟨t, ht, hrest⟩ := hr
      simp only [logAll, ht]
      exact ih (run.next hok.1 ht) (hok.2 t ht) hrest

/-- A step function that always has a result. -/
theorem runAll_total (f : S → A → S) (s : S) (as : List A) :
    runAll (fun s a => some (f s a)) s as = some (as.foldl f s) := by
  induction as generalizing s with
  | nil => rfl
  | cons a rest ih =>
      rw [List.foldl_cons, ← ih]
      rfl

/-- Where a step has a result exactly when its side condition holds, a list of inputs succeeds
exactly when all its steps met the condition. -/
theorem exists_runAll_iff (hstep : ∀ s a, (step s a).isSome ↔ ok s a) (s : S) (as : List A) :
    (∃ s', runAll step s as = some s') ↔ OkAll ok step s as := by
  induction as generalizing s with
  | nil => exact ⟨fun _ => trivial, fun _ => ⟨s, rfl⟩⟩
  | cons a rest ih =>
      cases hs : step s a with
      | none =>
          have hnot : ¬ok s a := fun hok => by simpa [hs] using (hstep s a).mpr hok
          exact ⟨fun ⟨s', hs'⟩ => by simp [runAll, hs] at hs', fun hok => absurd hok.1 hnot⟩
      | some t =>
          have hok : ok s a := (hstep s a).mp (by rw [hs]; rfl)
          have hrun : runAll step s (a :: rest) = runAll step t rest := by simp [runAll, hs]
          rw [hrun, ih t]
          refine ⟨fun hrest => ⟨hok, fun s' hs' => ?_⟩, fun hall => hall.2 t hs⟩
          obtain rfl : t = s' := Option.some.inj (hs.symm.trans hs')
          exact hrest

/-- Without a side condition every list of inputs is admitted. -/
theorem okAll_true (s : S) (as : List A) : OkAll (fun _ _ => True) step s as := by
  induction as generalizing s with
  | nil => trivial
  | cons a rest ih => exact ⟨trivial, fun t _ => ih t⟩

/-- Without a side condition, every list of inputs that succeeds is a run. -/
theorem reach_of_runAll {s s' : S} {as : List A} (h : init s)
    (hr : Lib.runAll step s as = some s') : Reach init (fun _ _ => True) step s' :=
  ⟨_, (Trace.start h).runAll (okAll_true s as) hr⟩

end Iceee.Lib
