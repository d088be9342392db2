import Iceee.Ability.EventText

/-!
# The chances of a running event

`CheckActivationChance` keeps the last roll with the number of its block, to roll once for all the
functions of a block. It joins the two tests by "or" where they are to be compared, so that
only the block with the number zero is rolled once; any other is rolled function by function.

## Main results

* `atomic_iff`: the event lists whose blocks pass or fail as a whole.
* `events_exact_iff`: the event lists that are both read and run as they were meant.

## Implementation notes

The random numbers and the functions an event calls are parameters. Called functions leave the
roll alone, since only `CheckActivationChance` and `ResetState` write it, except when they remove a
buff: the ability behind the buff is then activated on the same calculator. `reenters` names the
functions that may do so.
-/

namespace Iceee.Ability

open Lib

/-- The part of the calculator that decides about chances, and the rest of the server. -/
structure AbilityCalculator (σ : Type) where
  mChanceRoll : UInt8
  mChanceRollID : UInt8
  rest : σ

/-- What an event calls: the random numbers from 1 to 100, and the functions by their names. -/
structure Surroundings (reenters : Text → Bool) (σ : Type) where
  randInt : σ → UInt8 × σ
  mFunctionMap : Text → Option (AbilityFunction2 → AbilityCalculator σ → AbilityCalculator σ × Int)
  randInt_range : ∀ s, 1 ≤ (randInt s).1 ∧ (randInt s).1 ≤ 100
  roll_le : ∀ {name call}, mFunctionMap name = some call → ∀ f c, c.mChanceRoll ≤ 100 →
    (call f c).1.mChanceRoll ≤ 100
  keeps : ∀ {name call}, mFunctionMap name = some call → reenters name = false → ∀ f c,
    (call f c).1.mChanceRoll = c.mChanceRoll ∧ (call f c).1.mChanceRollID = c.mChanceRollID

def abilitySuccess : Int := 0

variable {reenters : Text → Bool} {σ : Type} (env : Surroundings reenters σ)

/-- `CheckActivationChance`. -/
def checkActivationChance (requiredChance chanceGroupID : UInt8) (c : AbilityCalculator σ) :
    Bool × AbilityCalculator σ :=
  if requiredChance = 0 then (true, c)
  else
    let rolled : AbilityCalculator σ :=
      if c.mChanceRoll = 0 ∨ (chanceGroupID ≠ 0 ∨ c.mChanceRollID ≠ 0) then
        let roll := env.randInt c.rest
        { mChanceRoll := roll.1, mChanceRollID := chanceGroupID, rest := roll.2 }
      else c
    (decide (rolled.mChanceRoll ≤ requiredChance), rolled)

/-- `ResetState`, as far as the roll goes. -/
def AbilityCalculator.resetState (c : AbilityCalculator σ) : AbilityCalculator σ :=
  { c with mChanceRoll := 0, mChanceRollID := 0 }

/-- One function of an event: what its chance came to, none for an unknown function, with the
calculator and the result. -/
def callFunction (f : AbilityFunction2) (c : AbilityCalculator σ) :
    Option Bool × AbilityCalculator σ × Int :=
  match env.mFunctionMap f.mFunctionName with
  | none => (none, c, abilitySuccess)
  | some call =>
      let pass := checkActivationChance env f.mChance f.mChanceID c
      (some pass.1, if pass.1 then call f pass.2 else (pass.2, abilitySuccess))

/-- The loop over the functions of an event. The first failure ends it. -/
def callFunctions : List AbilityFunction2 → AbilityCalculator σ →
    List (Option Bool) × AbilityCalculator σ × Int
  | [], c => ([], c, abilitySuccess)
  | f :: rest, c =>
      let done := callFunction env f c
      if done.2.2 ≠ abilitySuccess then ([done.1], done.2)
      else
        let run := callFunctions rest done.2.1
        (done.1 :: run.1, run.2)

/-- The functions of an event, run for one target. -/
def runEvent (fs : List AbilityFunction2) (c : AbilityCalculator σ) :
    List (Option Bool) × AbilityCalculator σ × Int := callFunctions env fs c.resetState

/-- Either all functions of a block pass or none does: no two that are checked differ. -/
def Agree (checks : List (Option Nat × Option Bool)) : Prop :=
  ∀ x ∈ checks, ∀ y ∈ checks, ∀ k u v, x.1 = some k → y.1 = some k → x.2 = some u →
    y.2 = some v → u = v

/-- Whatever the rolls and the functions called, each block passes or fails as a whole. -/
def Atomic (reenters : Text → Bool) (entries : List Entry) : Prop :=
  ∀ (σ : Type) (env : Surroundings reenters σ) (c : AbilityCalculator σ),
    Agree ((labels 0 entries).zip (runEvent env (functions entries) c).1)

/-- The block with number `k` is rolled once, or its rolls cannot differ: it always passes, it has
one function only, or it has the number zero and no function but the last gives the roll away. -/
def RolledOnce (reenters : Text → Bool) (k : Nat) (b : Block) : Prop :=
  b.chance = 100 ∨ b.calls.length = 1 ∨
    k % 256 = 0 ∧ ∀ f ∈ b.calls.dropLast, reenters f.name = false

/-! ### Runs of a list of functions -/

variable {env} {c : AbilityCalculator σ} {fs gs : List AbilityFunction2}

theorem callFunctions_append :
    callFunctions env (fs ++ gs) c =
      if (callFunctions env fs c).2.2 = abilitySuccess then
        ((callFunctions env fs c).1 ++ (callFunctions env gs (callFunctions env fs c).2.1).1,
          (callFunctions env gs (callFunctions env fs c).2.1).2)
      else callFunctions env fs c := by
  induction fs generalizing c with
  | nil => simp [callFunctions]
  | cons f fs ih =>
      rw [List.cons_append, callFunctions, callFunctions]
      by_cases hfail : (callFunction env f c).2.2 ≠ abilitySuccess
      · simp only [if_pos hfail, if_neg hfail]
      · simp only [if_neg hfail, ih]
        by_cases hrest : (callFunctions env fs (callFunction env f c).2.1).2.2 = abilitySuccess
        · simp only [if_pos hrest, List.cons_append]
        · simp only [if_neg hrest]

theorem length_callFunctions_le : (callFunctions env fs c).1.length ≤ fs.length := by
  induction fs generalizing c with
  | nil => exact le_refl 0
  | cons f fs ih =>
      simp only [callFunctions]
      split
      · exact Nat.succ_le_succ (Nat.zero_le _)
      · exact Nat.succ_le_succ ih

theorem length_callFunctions (h : (callFunctions env fs c).2.2 = abilitySuccess) :
    (callFunctions env fs c).1.length = fs.length := by
  induction fs generalizing c with
  | nil => rfl
  | cons f fs ih =>
      by_cases hfail : (callFunction env f c).2.2 ≠ abilitySuccess
      · rw [callFunctions] at h
        simp only [if_pos hfail] at h
        exact absurd h hfail
      · rw [callFunctions] at h ⊢
        simp only [if_neg hfail] at h ⊢
        exact congrArg (· + 1) (ih h)

/-- A check reuses the roll of number zero, or rolls for its own number. -/
theorem checkActivationChance_cases (env : Surroundings reenters σ) (c : AbilityCalculator σ)
    {p : UInt8} (hp : p ≠ 0) (id : UInt8) :
    ∃ c', checkActivationChance env p id c = (decide (c'.mChanceRoll ≤ p), c') ∧
      ((c' = c ∧ c.mChanceRoll ≠ 0 ∧ id = 0 ∧ c.mChanceRollID = 0) ∨
        ((c.mChanceRoll = 0 ∨ (id ≠ 0 ∨ c.mChanceRollID ≠ 0)) ∧
          c' = { mChanceRoll := (env.randInt c.rest).1, mChanceRollID := id,
                 rest := (env.randInt c.rest).2 })) := by
  rw [checkActivationChance, if_neg hp]
  by_cases hroll : c.mChanceRoll = 0 ∨ (id ≠ 0 ∨ c.mChanceRollID ≠ 0)
  · exact ⟨_, by rw [if_pos hroll], .inr ⟨hroll, rfl⟩⟩
  · refine ⟨c, by rw [if_neg hroll], .inl ⟨rfl, ?_⟩⟩
    simpa only [not_or, ne_eq, not_not] using hroll

theorem roll_le_of_check {p id : UInt8} (hc : c.mChanceRoll ≤ 100) :
    (checkActivationChance env p id c).2.mChanceRoll ≤ 100 := by
  by_cases hp : p = 0
  · rwa [checkActivationChance, if_pos hp]
  · obtain ⟨c', heq, ⟨rfl, -⟩ | ⟨-, rfl⟩⟩ := checkActivationChance_cases env c hp id
    · rwa [heq]
    · rw [heq]
      exact (env.randInt_range c.rest).2

theorem roll_le_of_callFunction {f : AbilityFunction2} (hc : c.mChanceRoll ≤ 100) :
    (callFunction env f c).2.1.mChanceRoll ≤ 100 := by
  rw [callFunction]
  cases hcall : env.mFunctionMap f.mFunctionName with
  | none => exact hc
  | some call =>
      simp only
      split
      · exact env.roll_le hcall f _ (roll_le_of_check hc)
      · exact roll_le_of_check hc

theorem roll_le_of_callFunctions (hc : c.mChanceRoll ≤ 100) :
    (callFunctions env fs c).2.1.mChanceRoll ≤ 100 := by
  induction fs generalizing c with
  | nil => exact hc
  | cons f fs ih =>
      simp only [callFunctions]
      split
      · exact roll_le_of_callFunction hc
      · exact ih (roll_le_of_callFunction hc)

/-- What is checked of two lists in a row is checked in one of them. -/
theorem mem_zip_append {ls ms : List (Option Nat)} (hlength : ls.length = fs.length)
    {x : Option Nat × Option Bool}
    (hx : x ∈ (ls ++ ms).zip (callFunctions env (fs ++ gs) c).1) :
    x ∈ ls.zip (callFunctions env fs c).1 ∨
      x ∈ ms.zip (callFunctions env gs (callFunctions env fs c).2.1).1 := by
  rw [callFunctions_append] at hx
  by_cases hdone : (callFunctions env fs c).2.2 = abilitySuccess
  · rw [if_pos hdone, List.zip_append (by rw [length_callFunctions hdone, hlength])] at hx
    exact List.mem_append.mp hx
  · rw [if_neg hdone] at hx
    have hle : (callFunctions env fs c).1.length ≤ ls.length :=
      hlength ▸ length_callFunctions_le
    have hmin : min (ls ++ ms).length (callFunctions env fs c).1.length =
        min ls.length (callFunctions env fs c).1.length := by
      rw [List.length_append]
      omega
    have hcut : (ls ++ ms).zip (callFunctions env fs c).1 =
        ls.zip (callFunctions env fs c).1 := by
      rw [List.zip_eq_zip_take_min, hmin, List.take_append_of_le_length (Nat.min_le_left _ _),
        ← List.zip_eq_zip_take_min]
    exact .inl (hcut ▸ hx)

/-! ### A block that is rolled once -/

/-- A list of functions whose checks all came to `u`. -/
def AllSame (u : Bool) (checks : List (Option Bool)) : Prop := ∀ v ∈ checks, v = none ∨ v = some u

theorem allSame_cons {f : AbilityFunction2} {u : Bool}
    (hf : (callFunction env f c).1 = none ∨ (callFunction env f c).1 = some u)
    (hfs : AllSame u (callFunctions env fs (callFunction env f c).2.1).1) :
    AllSame u (callFunctions env (f :: fs) c).1 := by
  simp only [callFunctions]
  split
  · intro v hv
    rw [List.mem_singleton.mp hv]
    exact hf
  · intro v hv
    rcases List.mem_cons.mp hv with rfl | hv
    · exact hf
    · exact hfs v hv

/-- A chance of 100 passes every roll. -/
theorem allSame_of_certain (hp : ∀ f ∈ fs, f.mChance = 100) (hc : c.mChanceRoll ≤ 100) :
    AllSame true (callFunctions env fs c).1 := by
  induction fs generalizing c with
  | nil => exact fun v hv => absurd hv List.not_mem_nil
  | cons f fs ih =>
      obtain ⟨hf, hfs⟩ := List.forall_mem_cons.mp hp
      refine allSame_cons ?_ (ih hfs (roll_le_of_callFunction hc))
      rw [callFunction]
      cases hcall : env.mFunctionMap f.mFunctionName with
      | none => exact .inl rfl
      | some call =>
          have hroll := @roll_le_of_check _ _ env c f.mChance f.mChanceID hc
          have hp : f.mChance ≠ 0 := by rw [hf]; decide
          obtain ⟨c', heq, -⟩ := checkActivationChance_cases env c hp f.mChanceID
          rw [heq] at hroll
          refine .inr (congrArg some ?_)
          rw [heq, hf]
          exact decide_eq_true hroll

/-- The roll of the block with the number zero is settled: it has been made and stays. -/
def Settled (c : AbilityCalculator σ) : Prop := c.mChanceRoll ≠ 0 ∧ c.mChanceRollID = 0

/-- A function of block zero settles the roll, and only a call can give it away. -/
theorem callFunction_zero (env : Surroundings reenters σ) (c : AbilityCalculator σ)
    {f : AbilityFunction2} (hp : f.mChance ≠ 0) (hid : f.mChanceID = 0) :
    callFunction env f c = (none, c, abilitySuccess) ∨
      ∃ c', Settled c' ∧ (Settled c → c' = c) ∧
        (callFunction env f c).1 = some (decide (c'.mChanceRoll ≤ f.mChance)) ∧
        (reenters f.mFunctionName = false →
          (callFunction env f c).2.1.mChanceRoll = c'.mChanceRoll ∧
          (callFunction env f c).2.1.mChanceRollID = c'.mChanceRollID) := by
  rw [callFunction]
  cases hcall : env.mFunctionMap f.mFunctionName with
  | none => exact .inl rfl
  | some call =>
      obtain ⟨c', heq, hcases⟩ := checkActivationChance_cases env c hp f.mChanceID
      refine .inr ⟨c', ?_, ?_, congrArg (some ·.1) heq, fun hkeeps => ?_⟩
      · rcases hcases with ⟨rfl, hroll, -, hzero⟩ | ⟨-, rfl⟩
        · exact ⟨hroll, hzero⟩
        · refine ⟨fun h => ?_, hid⟩
          have hroll : (env.randInt c.rest).1 = 0 := h
          have hpos := (env.randInt_range c.rest).1
          rw [hroll] at hpos
          exact absurd hpos (by decide)
      · rintro ⟨hroll, hzero⟩
        rcases hcases with ⟨rfl, -⟩ | ⟨hrolls, -⟩
        · rfl
        · rcases hrolls with h | h | h
          · exact absurd h hroll
          · exact absurd hid h
          · exact absurd hzero h
      · simp only [heq]
        split
        · exact env.keeps hcall hkeeps f c'
        · exact ⟨rfl, rfl⟩

/-- The functions of block zero: one chance, and no function but the last gives the roll away. -/
structure Zero (reenters : Text → Bool) (p : UInt8) (fs : List AbilityFunction2) : Prop where
  chance : ∀ f ∈ fs, f.mChance = p
  id : ∀ f ∈ fs, f.mChanceID = 0
  keeps : ∀ f ∈ fs.dropLast, reenters f.mFunctionName = false

theorem Zero.tail {p : UInt8} {f : AbilityFunction2} (h : Zero reenters p (f :: fs)) :
    Zero reenters p fs where
  chance := fun g hg => h.chance g (List.mem_cons_of_mem _ hg)
  id := fun g hg => h.id g (List.mem_cons_of_mem _ hg)
  keeps := fun g hg => by
    cases fs with
    | nil => exact absurd hg List.not_mem_nil
    | cons f' fs => exact h.keeps g (List.mem_cons_of_mem _ hg)

theorem Zero.keeps_head {p : UInt8} {f g : AbilityFunction2}
    (h : Zero reenters p (f :: g :: fs)) : reenters f.mFunctionName = false :=
  h.keeps f List.mem_cons_self

theorem allSame_of_settled {p : UInt8} (hp : p ≠ 0) (hfs : Zero reenters p fs)
    (hc : Settled c) : AllSame (decide (c.mChanceRoll ≤ p)) (callFunctions env fs c).1 := by
  induction fs generalizing c with
  | nil => exact fun v hv => absurd hv List.not_mem_nil
  | cons f fs ih =>
      have hf : f.mChance = p := hfs.chance f List.mem_cons_self
      rcases callFunction_zero env c (hf ▸ hp) (hfs.id f List.mem_cons_self) with
        hnone | ⟨c', -, hsame, hcheck, hkeeps⟩
      · refine allSame_cons (.inl (by rw [hnone])) ?_
        rw [hnone]
        exact ih hfs.tail hc
      · obtain rfl := hsame hc
        refine allSame_cons (.inr (by rw [hcheck, hf])) ?_
        cases fs with
        | nil => exact fun v hv => absurd hv List.not_mem_nil
        | cons g fs =>
            obtain ⟨hroll, hid⟩ := hkeeps hfs.keeps_head
            have hrest := @ih (callFunction env f c').2.1 hfs.tail
              ⟨by rw [hroll]; exact hc.1, by rw [hid]; exact hc.2⟩
            rwa [hroll] at hrest

theorem allSame_of_zero {p : UInt8} (hp : p ≠ 0) (hfs : Zero reenters p fs) :
    ∃ u, AllSame u (callFunctions env fs c).1 := by
  induction fs generalizing c with
  | nil => exact ⟨true, fun v hv => absurd hv List.not_mem_nil⟩
  | cons f fs ih =>
      have hf : f.mChance = p := hfs.chance f List.mem_cons_self
      rcases callFunction_zero env c (hf ▸ hp) (hfs.id f List.mem_cons_self) with
        hnone | ⟨c', hsettled, -, hcheck, hkeeps⟩
      · obtain ⟨u, hu⟩ := @ih c hfs.tail
        refine ⟨u, allSame_cons (.inl (by rw [hnone])) ?_⟩
        rwa [hnone]
      · refine ⟨_, allSame_cons (.inr (by rw [hcheck, hf])) ?_⟩
        cases fs with
        | nil => exact fun v hv => absurd hv List.not_mem_nil
        | cons g fs =>
            obtain ⟨hroll, hid⟩ := hkeeps hfs.keeps_head
            have hrest := @allSame_of_settled _ _ env (callFunction env f c).2.1 _ p hp hfs.tail
              ⟨by rw [hroll]; exact hsettled.1, by rw [hid]; exact hsettled.2⟩
            rwa [hroll] at hrest

theorem allSame_of_length_le (h : fs.length ≤ 1) :
    ∃ u, AllSame u (callFunctions env fs c).1 := by
  have hle : (callFunctions env fs c).1.length ≤ 1 := le_trans length_callFunctions_le h
  cases hchecks : (callFunctions env fs c).1 with
  | nil => exact ⟨true, fun v hv => absurd hv List.not_mem_nil⟩
  | cons v rest =>
      rw [hchecks, List.length_cons] at hle
      obtain rfl : rest = [] := List.eq_nil_of_length_eq_zero (by omega)
      refine ⟨v.getD true, fun w hw => ?_⟩
      rw [List.mem_singleton.mp hw]
      cases v with
      | none => exact .inl rfl
      | some u => exact .inr rfl

theorem allSame_block {k : Nat} {b : Block} (h : RolledOnce reenters k b)
    (hc : c.mChanceRoll ≤ 100) :
    ∃ u, AllSame u (callFunctions env ((Entry.block b).read (UInt8.ofNat k)) c).1 := by
  rcases h with hall | hone | ⟨hzero, hkeeps⟩
  · refine ⟨true, allSame_of_certain (fun f hf => ?_) hc⟩
    obtain ⟨g, -, rfl⟩ := List.mem_map.mp hf
    rw [Call.read, hall]
    rfl
  · refine allSame_of_length_le ?_
    rw [Entry.read, List.length_map, hone]
  · have hid : UInt8.ofNat k = 0 := by
      apply UInt8.toNat_inj.mp
      rw [UInt8.toNat_ofNat']
      exact hzero
    have hp : UInt8.ofNat b.chance ≠ 0 := fun h => by
      have hnat := congrArg UInt8.toNat h
      have hlow := b.chance_pos
      have hhigh := b.chance_le
      rw [UInt8.toNat_ofNat', UInt8.toNat_zero] at hnat
      omega
    refine allSame_of_zero hp ⟨fun f hf => ?_, fun f hf => ?_, fun f hf => ?_⟩
    · obtain ⟨g, -, rfl⟩ := List.mem_map.mp hf
      rfl
    · obtain ⟨g, -, rfl⟩ := List.mem_map.mp hf
      exact hid
    · rw [Entry.read, ← List.map_dropLast] at hf
      obtain ⟨g, hg, rfl⟩ := List.mem_map.mp hf
      exact hkeeps g hg

theorem le_of_mem_labels {entries : List Entry} {k l : Nat} (h : some l ∈ labels k entries) :
    k ≤ l := by
  induction entries generalizing k with
  | nil => cases h
  | cons e rest ih =>
      cases e with
      | call f =>
          rcases List.mem_cons.mp h with h | h
          · cases h
          · exact ih h
      | block b =>
          rcases List.mem_append.mp h with h | h
          · obtain rfl := Option.some.inj (List.eq_of_mem_replicate h)
            exact le_refl l
          · have hle := ih h
            omega

/-- Checks of one block in front of checks of later blocks. -/
theorem agree_of_parts {checks first later : List (Option Nat × Option Bool)} {k : Nat} {w : Bool}
    (hmem : ∀ x ∈ checks, x ∈ first ∨ x ∈ later)
    (hfirst : ∀ x ∈ first, x.1 = some k ∧ (x.2 = none ∨ x.2 = some w))
    (hlater : ∀ x ∈ later, ∀ l, x.1 = some l → k < l) (hagree : Agree later) : Agree checks := by
  intro x hx y hy l u v hxl hyl hu hv
  have hin {z : Option Nat × Option Bool} {t : Bool} (hz : z ∈ first) (hzl : z.1 = some l)
      (hzt : z.2 = some t) : l = k ∧ t = w := by
    obtain ⟨hk, hw⟩ := hfirst z hz
    rw [hzl] at hk
    rw [hzt] at hw
    exact ⟨Option.some.inj hk, Option.some.inj (hw.resolve_left (Option.some_ne_none t))⟩
  rcases hmem x hx with hx | hx
  · obtain ⟨rfl, rfl⟩ := hin hx hxl hu
    rcases hmem y hy with hy | hy
    · exact (hin hy hyl hv).2.symm
    · exact absurd (hlater y hy l hyl) (lt_irrefl l)
  · rcases hmem y hy with hy | hy
    · obtain ⟨rfl, -⟩ := hin hy hyl hv
      exact absurd (hlater x hx l hxl) (lt_irrefl l)
    · exact hagree x hx y hy l u v hxl hyl hu hv

/-- When each block is rolled once, a run agrees on it. -/
theorem agree_of_rolledOnce {entries : List Entry} {k : Nat}
    (h : ∀ j b, (blocks entries)[j]? = some b → RolledOnce reenters (k + j) b)
    (hc : c.mChanceRoll ≤ 100) :
    Agree ((labels k entries).zip
      (callFunctions env (readEntries (UInt8.ofNat k) entries) c).1) := by
  induction entries generalizing k c with
  | nil => exact fun x hx => absurd hx List.not_mem_nil
  | cons e rest ih =>
      cases e with
      | call f =>
          have hrest := @ih (callFunctions env [f.read 0 0] c).2.1 k h (roll_le_of_callFunctions hc)
          have hsplit {z : Option Nat × Option Bool} {l : Nat}
              (hz : z ∈ (labels k (.call f :: rest)).zip
                (callFunctions env (readEntries (UInt8.ofNat k) (.call f :: rest)) c).1)
              (hzl : z.1 = some l) : z ∈ (labels k rest).zip (callFunctions env
                (readEntries (UInt8.ofNat k) rest) (callFunctions env [f.read 0 0] c).2.1).1 := by
            rcases @mem_zip_append _ _ env c [f.read 0 0] _ [none] (labels k rest) rfl z hz with
              hz | hz
            · have hnone := List.mem_singleton.mp (List.of_mem_zip hz).1
              rw [hzl] at hnone
              cases hnone
            · exact hz
          intro x hx y hy l u v hxl hyl
          exact hrest x (hsplit hx hxl) y (hsplit hy hyl) l u v hxl hyl
      | block b =>
          have hnext : UInt8.ofNat k + 1 = UInt8.ofNat (k + 1) := (UInt8.ofNat_add k 1).symm
          have hlength : (List.replicate b.calls.length (some k)).length =
              ((Entry.block b).read (UInt8.ofNat k)).length := by simp [Entry.read]
          obtain ⟨w, hw⟩ := @allSame_block _ _ env c k b (h 0 b rfl) hc
          have hshift (j : Nat) (b' : Block) (hj : (blocks rest)[j]? = some b') :
              RolledOnce reenters (k + 1 + j) b' := by
            have hroll := h (j + 1) b' hj
            rwa [show k + (j + 1) = k + 1 + j by omega] at hroll
          rw [labels, readEntries, Entry.next, hnext]
          refine agree_of_parts (k := k) (w := w) (fun x hx => mem_zip_append hlength hx)
            (fun x hx => ?_) (fun x hx l hl => ?_) (ih hshift (roll_le_of_callFunctions hc))
          · obtain ⟨hlabel, hcheck⟩ := List.of_mem_zip hx
            exact ⟨List.eq_of_mem_replicate hlabel, hw x.2 hcheck⟩
          · exact le_of_mem_labels (hl ▸ (List.of_mem_zip hx).1)

/-! ### A block that is rolled twice -/

/-- Surroundings that know every function and count the calls: up to the call `m` they roll one,
from then on 100. Every function that may give the roll away does. -/
def scripted (reenters : Text → Bool) (m : Nat) : Surroundings reenters Nat where
  randInt n := (if n ≤ m then 1 else 100, n)
  mFunctionMap name := some fun _ c =>
    ({ mChanceRoll := if reenters name then 0 else c.mChanceRoll
       mChanceRollID := if reenters name then 0 else c.mChanceRollID
       rest := c.rest + 1 }, abilitySuccess)
  randInt_range n := by
    split
    · exact (by decide : (1 : UInt8) ≤ 1 ∧ (1 : UInt8) ≤ 100)
    · exact (by decide : (1 : UInt8) ≤ 100 ∧ (100 : UInt8) ≤ 100)
  roll_le := by
    intro name call hcall f c hc
    obtain rfl := Option.some.inj hcall
    by_cases hname : reenters name
    · simp [hname]
    · simpa [hname] using hc
  keeps := by
    intro name call hcall hname f c
    obtain rfl := Option.some.inj hcall
    simp [hname]

/-- The calculator after a function whose chance came up. -/
def called (reenters : Text → Bool) (f : AbilityFunction2) (c : AbilityCalculator Nat) :
    AbilityCalculator Nat where
  mChanceRoll := if reenters f.mFunctionName then 0 else c.mChanceRoll
  mChanceRollID := if reenters f.mFunctionName then 0 else c.mChanceRollID
  rest := c.rest + 1

theorem callFunction_scripted {m : Nat} {c : AbilityCalculator Nat} (f : AbilityFunction2)
    (hrest : c.rest ≤ m) (hroll : c.mChanceRoll ≤ 1) :
    ∃ c', callFunction (scripted reenters m) f c = (some true, called reenters f c', abilitySuccess)
      ∧ c'.mChanceRoll ≤ 1 ∧ c'.rest = c.rest := by
  by_cases hp : f.mChance = 0
  · refine ⟨c, ?_, hroll, rfl⟩
    simp [callFunction, checkActivationChance, hp, scripted, called]
  · obtain ⟨c', heq, hcases⟩ := checkActivationChance_cases (scripted reenters m) c hp f.mChanceID
    have hlow : c'.mChanceRoll ≤ 1 ∧ c'.rest = c.rest := by
      rcases hcases with ⟨rfl, -⟩ | ⟨-, rfl⟩
      · exact ⟨hroll, rfl⟩
      · simp [scripted, hrest]
    have hpass : c'.mChanceRoll ≤ f.mChance := by
      have hpos : 1 ≤ f.mChance := UInt8.pos_iff_ne_zero.mpr hp
      exact UInt8.le_trans hlow.1 hpos
    refine ⟨c', ?_, hlow⟩
    have hknown : callFunction (scripted reenters m) f c =
        (some (checkActivationChance (scripted reenters m) f.mChance f.mChanceID c).1,
          if (checkActivationChance (scripted reenters m) f.mChance f.mChanceID c).1 then
            (called reenters f (checkActivationChance (scripted reenters m) f.mChance
              f.mChanceID c).2, abilitySuccess)
          else ((checkActivationChance (scripted reenters m) f.mChance f.mChanceID c).2,
            abilitySuccess)) := rfl
    rw [hknown, heq, decide_eq_true hpass]
    rfl

/-- Up to the call `m` every function passes and is called. -/
theorem callFunctions_scripted {m : Nat} {c : AbilityCalculator Nat}
    (hrest : c.rest + fs.length ≤ m + 1) (hroll : c.mChanceRoll ≤ 1) :
    (callFunctions (scripted reenters m) fs c).1 = List.replicate fs.length (some true) ∧
      (callFunctions (scripted reenters m) fs c).2.2 = abilitySuccess ∧
      (callFunctions (scripted reenters m) fs c).2.1.mChanceRoll ≤ 1 ∧
      (callFunctions (scripted reenters m) fs c).2.1.rest = c.rest + fs.length := by
  induction fs generalizing c with
  | nil => exact ⟨rfl, rfl, hroll, rfl⟩
  | cons f fs ih =>
      rw [List.length_cons] at hrest
      obtain ⟨c', heq, hlow, hcount⟩ :=
        @callFunction_scripted reenters m c f (by omega) hroll
      have hroll' : (called reenters f c').mChanceRoll ≤ 1 := by
        by_cases hname : reenters f.mFunctionName
        · simp [called, hname]
        · simpa [called, hname] using hlow
      have hrest' : (called reenters f c').rest = c.rest + 1 := congrArg (· + 1) hcount
      obtain ⟨hchecks, hdone, hend, hcountEnd⟩ := @ih (called reenters f c') (by omega) hroll'
      simp only [callFunctions, heq, ne_eq, not_true_eq_false, if_false, hchecks, hdone]
      refine ⟨rfl, trivial, hend, ?_⟩
      rw [hcountEnd, hrest', List.length_cons]
      omega

/-- Behind the call `m` a roll of a block that may fail does, unless there is none. -/
theorem callFunctions_scripted_two {m : Nat} {c : AbilityCalculator Nat} {f g : AbilityFunction2}
    (hrest : c.rest = m) (hroll : c.mChanceRoll ≤ 1) (hp : g.mChance ≠ 0) (hlt : g.mChance < 100)
    (hagain : g.mChanceID ≠ 0 ∨ reenters f.mFunctionName = true) :
    ∃ checks, (callFunctions (scripted reenters m) (f :: g :: fs) c).1 =
      some true :: some false :: checks := by
  obtain ⟨c', heq, -, hcount⟩ := @callFunction_scripted reenters m c f (by omega) hroll
  obtain ⟨d, hcheck, hcases⟩ := checkActivationChance_cases (scripted reenters m)
    (called reenters f c') hp g.mChanceID
  have hhundred : d.mChanceRoll = 100 := by
    rcases hcases with ⟨-, hne, hid, -⟩ | ⟨-, rfl⟩
    · rcases hagain with h | h
      · exact absurd hid h
      · exact absurd (by simp [called, h]) hne
    · have hpast : ¬(called reenters f c').rest ≤ m := by
        have hsucc : (called reenters f c').rest = c'.rest + 1 := rfl
        omega
      exact if_neg hpast
  have hfail : decide (d.mChanceRoll ≤ g.mChance) = false := by
    rw [hhundred]
    exact decide_eq_false (UInt8.not_le.mpr hlt)
  have hsecond : callFunction (scripted reenters m) g (called reenters f c') =
      (some false, d, abilitySuccess) := by
    have hknown : callFunction (scripted reenters m) g (called reenters f c') =
        (some (checkActivationChance (scripted reenters m) g.mChance g.mChanceID
            (called reenters f c')).1,
          if (checkActivationChance (scripted reenters m) g.mChance g.mChanceID
            (called reenters f c')).1 then
            (called reenters g (checkActivationChance (scripted reenters m) g.mChance
              g.mChanceID (called reenters f c')).2, abilitySuccess)
          else ((checkActivationChance (scripted reenters m) g.mChance g.mChanceID
            (called reenters f c')).2, abilitySuccess)) := rfl
    rw [hknown, hcheck, hfail]
    rfl
  simp only [callFunctions, heq, hsecond, ne_eq, not_true_eq_false, if_false]
  exact ⟨_, rfl⟩

/-- Two functions of a block in a row between which the roll is made again. -/
theorem not_atomic {entries : List Entry} {k : Nat} {b : Block} {front back : List Call}
    {f g : Call} (hb : (blocks entries)[k]? = some b) (hcalls : b.calls = front ++ f :: g :: back)
    (hlt : b.chance < 100) (hagain : k % 256 ≠ 0 ∨ reenters f.name = true) :
    ¬Atomic reenters entries := by
  intro hatomic
  obtain ⟨ls, ms, fs, gs, hlength, hlabels, hread⟩ := @exists_split entries 0 k b hb
  rw [Nat.zero_add] at hlabels hread
  set p := UInt8.ofNat b.chance with hp
  set id := UInt8.ofNat k with hid
  set before := fs ++ front.map (Call.read p id) with hbefore
  have hfunctions : functions entries =
      before ++ f.read p id :: g.read p id :: (back.map (Call.read p id) ++ gs) := by
    rw [functions_eq]
    refine hread.trans ?_
    simp [Entry.read, hcalls, hbefore, ← hp]
  have hlabels' : labels 0 entries = (ls ++ List.replicate front.length (some k)) ++
      some k :: some k :: (List.replicate back.length (some k) ++ ms) := by
    have hcount : b.calls.length = front.length + (back.length + 2) := by
      rw [hcalls, List.length_append, List.length_cons, List.length_cons]
    rw [hlabels, hcount, List.replicate_add, List.append_assoc, List.append_assoc]
    rfl
  have hlow := b.chance_pos
  have hchance : (g.read p id).mChance ≠ 0 ∧ (g.read p id).mChance < 100 := by
    have hnat : p.toNat = b.chance := by
      rw [hp, UInt8.toNat_ofNat']
      omega
    refine ⟨fun h => ?_, ?_⟩
    · have hzero : p = 0 := h
      rw [hzero, UInt8.toNat_zero] at hnat
      omega
    · rw [UInt8.lt_iff_toNat_lt]
      exact lt_of_eq_of_lt hnat hlt
  have hagain' : (g.read p id).mChanceID ≠ 0 ∨ reenters (f.read p id).mFunctionName = true := by
    refine hagain.imp (fun hk h => hk ?_) (fun h => h)
    have hnat := congrArg UInt8.toNat (show UInt8.ofNat k = 0 from h)
    rwa [UInt8.toNat_ofNat', UInt8.toNat_zero] at hnat
  -- the run reaches the first of the two with every roll at one
  let c : AbilityCalculator Nat := ⟨0, 0, 0⟩
  obtain ⟨hchecks, hdone, hroll, hcount⟩ :=
    @callFunctions_scripted reenters before before.length c (by simp [c]) (by decide)
  obtain ⟨checks, htwo⟩ := @callFunctions_scripted_two reenters
    (back.map (Call.read p id) ++ gs) before.length _ (f.read p id) (g.read p id)
    (by rw [hcount]; exact Nat.zero_add _) hroll hchance.1 hchance.2 hagain'
  have hrun : (runEvent (scripted reenters before.length) (functions entries) c).1 =
      List.replicate before.length (some true) ++ some true :: some false :: checks := by
    rw [runEvent, hfunctions]
    have hreset : c.resetState = c := rfl
    rw [hreset, callFunctions_append, if_pos hdone, htwo, hchecks]
  have hzip : (ls ++ List.replicate front.length (some k)).length =
      (List.replicate before.length (some true)).length := by simp [hbefore, hlength]
  have hagree := hatomic Nat (scripted reenters before.length) c
  rw [hrun, hlabels', List.zip_append hzip] at hagree
  have htrue := List.mem_append_right ((ls ++ List.replicate front.length (some k)).zip
    (List.replicate before.length (some true))) (List.mem_cons_self (a := (some k, some true))
      (l := (some k, some false) ::
        (List.replicate back.length (some k) ++ ms).zip checks))
  have hfalse := List.mem_append_right ((ls ++ List.replicate front.length (some k)).zip
    (List.replicate before.length (some true))) (List.mem_cons_of_mem (some k, some true)
      (List.mem_cons_self (a := (some k, some false))
        (l := (List.replicate back.length (some k) ++ ms).zip checks)))
  exact absurd (hagree _ htrue _ hfalse k true false rfl rfl rfl rfl) (by decide)

/-- In front of the last of a list comes another. -/
theorem exists_next {α : Type*} {a : α} {l : List α} (h : a ∈ l.dropLast) :
    ∃ front b back, l = front ++ a :: b :: back := by
  obtain ⟨front, rest, hl⟩ := List.append_of_mem h
  have hne : l ≠ [] := fun hnil => by simp [hnil] at h
  have hlast := List.dropLast_append_getLast hne
  rw [hl, List.append_assoc, List.cons_append] at hlast
  cases rest with
  | nil => exact ⟨front, _, [], hlast.symm⟩
  | cons b back => exact ⟨front, b, _, hlast.symm⟩

/-! ### Main results -/

/-- The event lists whose blocks pass or fail as a whole, whatever the rolls. -/
theorem atomic_iff (reenters : Text → Bool) (entries : List Entry) :
    Atomic reenters entries ↔
      ∀ k b, (blocks entries)[k]? = some b → RolledOnce reenters k b := by
  constructor
  · intro hatomic k b hb
    by_contra hnot
    simp only [RolledOnce, not_or, not_and, not_forall, Bool.not_eq_false] at hnot
    obtain ⟨hchance, hlength, hzero⟩ := hnot
    have hlt : b.chance < 100 := by
      have hle := b.chance_le
      omega
    by_cases hk : k % 256 = 0
    · obtain ⟨f, hf, hreenters⟩ := hzero hk
      obtain ⟨front, g, back, hcalls⟩ := exists_next hf
      exact not_atomic hb hcalls hlt (.inr hreenters) hatomic
    · cases hcalls : b.calls with
      | nil => exact b.calls_ne hcalls
      | cons f rest =>
          cases rest with
          | nil => exact hlength (by rw [hcalls]; rfl)
          | cons g rest =>
              exact @not_atomic _ entries k b [] rest f g hb hcalls hlt (.inl hk) hatomic
  · intro h σ env c
    rw [functions_eq, runEvent]
    refine @agree_of_rolledOnce _ _ env c.resetState entries 0 (fun j b hj => ?_)
      (by exact (by decide : (0 : UInt8) ≤ 100))
    rw [Nat.zero_add]
    exact h j b hj

/-- The event lists that are read and run as they were meant. -/
theorem events_exact_iff (reenters : Text → Bool) (entries : List Entry) :
    Parses entries ∧ Atomic reenters entries ↔
      (∀ e ∈ entries, ∀ f ∈ e.calls, f.Legible) ∧ (blocks entries).length ≤ 256 ∧
        ∀ k b, (blocks entries)[k]? = some b → RolledOnce reenters k b := by
  rw [parses_iff, atomic_iff, and_assoc]

/-- A function without arguments. -/
def Call.plain (name : Text) (isName : IsName name) : Call where
  name := name
  args := []
  isName := isName
  isArgument := fun _ h => absurd h List.not_mem_nil

/-- `~50%{A()},~50%{B(),C()}`. -/
def twoBlocks : List Entry :=
  let a := Call.plain ['A'] (by simp [IsName])
  let b := Call.plain ['B'] (by simp [IsName])
  let c := Call.plain ['C'] (by simp [IsName])
  [.block ⟨50, [a], by decide, by decide, List.cons_ne_nil _ _⟩,
    .block ⟨50, [b, c], by decide, by decide, List.cons_ne_nil _ _⟩]

/-- On the rolls 1, 1 and 100 the second block passes with its first function only. -/
theorem second_block_rolled_twice :
    ¬(Parses twoBlocks ∧ Atomic (fun _ => false) twoBlocks) := by
  rintro ⟨-, hatomic⟩
  let env := scripted (fun _ => false) 1
  have hrun : (runEvent env (functions twoBlocks) ⟨0, 0, 0⟩).1 =
      [some true, some true, some false] := by decide
  have hagree := hatomic Nat env ⟨0, 0, 0⟩
  rw [hrun] at hagree
  exact absurd (hagree (some 1, some true) (by decide) (some 1, some false) (by decide) 1 true false
    rfl rfl rfl rfl) (by decide)

end Iceee.Ability
