import Mathlib

/-!
# Levels, experience and ability points

`AddExperience` looks for the level that the experience has reached, `SetLevel` adds the ability
points of the levels that are gained.

## Main results

* `levelLoop_spec`: the loop finds the least level whose requirement is not reached.
* `addPoints_spec`: the points that are added are the difference of the cumulative points.
* `run_agrees`: after every call level, experience and points agree.

## Implementation notes

A table is read at an index that may lie outside: the read gives nothing then, and so does the
function that makes it. Experience and levels are integers that do not overflow; ability points
are 16-bit numbers.
-/

namespace Iceee.Level

/-- `LevelRequirements`. -/
def levelRequirements : List (Int × Int) :=
  [(0, 0), (500, 500), (700, 1200), (1100, 2300), (1700, 4000), (2500, 6500), (3700, 10200),
    (5500, 15700), (8200, 23900), (12100, 36000), (13200, 49200), (14400, 63600), (15700, 79300),
    (17200, 96500), (18700, 115200), (20400, 135600), (22300, 157900), (24400, 182300),
    (26600, 208900), (29000, 237900), (31700, 269600), (34600, 304200), (37700, 341900),
    (41200, 383100), (44900, 428000), (49000, 477000), (53500, 530500), (58400, 588900),
    (63700, 652600), (69600, 722200), (75900, 798100), (82900, 881000), (90400, 971400),
    (98700, 1070100), (107700, 1177800), (117600, 1295400), (128300, 1423700), (140000, 1563700),
    (152800, 1716500), (166800, 1883300), (182100, 2065400), (198700, 2264100), (216900, 2481000),
    (236700, 2717700), (258300, 2976000), (281900, 3257900), (307700, 3565600), (335800, 3901400),
    (366500, 4267900), (400000, 4667900), (404500, 5072400), (409000, 5481400), (413600, 5895000),
    (418300, 6313300), (422900, 6736200), (427700, 7163900), (432500, 7596400), (437300, 8033700),
    (442300, 8476000), (447200, 8923200), (452200, 9375400), (457300, 9832700), (462400, 10295100),
    (467600, 10762700), (472900, 11235600), (478200, 11713800), (483500, 12197300),
    (489000, 12686300), (494500, 13180800), (500000, 13680800), (504800, 14185600)]

def minLevel : Int := 1

def maxLevel : Int := 70

/-- `AbilityPointTable`. -/
def abilityPointTable : List (Int × Int × Int) :=
  [(0, 0, 0), (1, 2, 2), (2, 2, 4), (3, 2, 6), (4, 2, 8), (5, 2, 10), (6, 2, 12), (7, 2, 14),
    (8, 2, 16), (9, 2, 18), (10, 2, 20), (11, 2, 22), (12, 2, 24), (13, 2, 26), (14, 2, 28),
    (15, 2, 30), (16, 2, 32), (17, 2, 34), (18, 2, 36), (19, 2, 38), (20, 2, 40), (21, 2, 42),
    (22, 2, 44), (23, 2, 46), (24, 2, 48), (25, 2, 50), (26, 2, 52), (27, 2, 54), (28, 2, 56),
    (29, 2, 58), (30, 4, 62), (31, 2, 64), (32, 4, 68), (33, 2, 70), (34, 4, 74), (35, 2, 76),
    (36, 4, 80), (37, 2, 82), (38, 4, 86), (39, 2, 88), (40, 4, 92), (41, 2, 94), (42, 4, 98),
    (43, 2, 100), (44, 4, 104), (45, 2, 106), (46, 4, 110), (47, 2, 112), (48, 4, 116),
    (49, 2, 118), (50, 4, 122), (51, 2, 124), (52, 4, 128), (53, 2, 130), (54, 4, 134),
    (55, 2, 136), (56, 4, 140), (57, 2, 142), (58, 4, 146), (59, 2, 148), (60, 4, 152),
    (61, 2, 154), (62, 4, 158), (63, 2, 160), (64, 4, 164), (65, 2, 166), (66, 4, 170),
    (67, 2, 172), (68, 4, 176), (69, 2, 178), (70, 4, 182)]

/-- A row of a table. -/
def row {α : Type} (table : List α) (i : Int) : Option α :=
  if i < 0 then none else table[i.toNat]?

/-- `LevelRequirements[level][1]`. -/
def levelRequirement (level : Int) : Option Int := (row levelRequirements level).map Prod.snd

/-- `GetAbilityPointsLevelIncrement`. -/
def getAbilityPointsLevelIncrement (level : Int) : Option Int :=
  if level < minLevel ∨ level > maxLevel then some 0
  else (row abilityPointTable level).map fun r => r.2.1

/-- `GetAbilityPointsLevelCumulative`. -/
def getAbilityPointsLevelCumulative (level : Int) : Option Int :=
  if level < minLevel ∨ level > maxLevel then some 0
  else (row abilityPointTable level).map fun r => r.2.2

structure GameConfig where
  capExperienceLevel : Int := 70
  capExperienceAmount : Int := 0
  deriving DecidableEq, Repr

structure CreatureInstance where
  isPlayer : Bool
  level : Int
  experience : Int
  totalAbilityPoints : Int16
  currentAbilityPoints : Int16
  deriving DecidableEq

/-- The first loop of `SetLevel`. -/
def addPoints (lev newLevel abilityPoints : Int) : Option Int :=
  if lev ≤ newLevel then
    (getAbilityPointsLevelIncrement lev).bind fun points =>
      addPoints (lev + 1) newLevel (abilityPoints + points)
  else some abilityPoints
termination_by (newLevel + 1 - lev).toNat

/-- `SetLevel`. -/
def CreatureInstance.setLevel (c : CreatureInstance) (actInst : Bool) (newLevel : Int) :
    Option CreatureInstance :=
  if !c.isPlayer then some c
  else
    (if newLevel > c.level then addPoints (c.level + 1) newLevel 0 else some 0).bind
      fun abilityPoints =>
        let c := { c with level := newLevel }
        if !actInst then some c
        else
          let c :=
            if abilityPoints > 0 then
              { c with
                currentAbilityPoints := c.currentAbilityPoints + Int16.ofInt abilityPoints
                totalAbilityPoints := c.totalAbilityPoints + Int16.ofInt abilityPoints }
            else c
          if newLevel = maxLevel then
            (levelRequirement maxLevel).map fun requirement => { c with experience := requirement }
          else some c

/-- The loop of `AddExperience`. -/
def levelLoop (experience newLevel : Int) : Option Int :=
  (levelRequirement newLevel).bind fun requirement =>
    if experience ≥ requirement then
      if newLevel + 1 ≥ maxLevel then some maxLevel else levelLoop experience (newLevel + 1)
    else some newLevel
termination_by (maxLevel - newLevel).toNat
decreasing_by omega

/-- `AddExperience`; `actInst` says whether the creature is in an instance. -/
def CreatureInstance.addExperience (config : GameConfig) (actInst : Bool) (c : CreatureInstance)
    (amount : Int) : Option CreatureInstance :=
  if !actInst then some c
  else
    let amount :=
      if config.capExperienceLevel > 0 ∧ c.level ≥ config.capExperienceLevel ∧
          amount > config.capExperienceAmount then config.capExperienceAmount
      else amount
    let c := { c with experience := c.experience + amount }
    let curLevel := if c.level < 0 then 0 else if c.level > maxLevel then maxLevel else c.level
    (levelLoop c.experience c.level).bind fun newLevel =>
      if c.isPlayer ∧ newLevel ≠ curLevel then c.setLevel actInst newLevel else some c

/-- Calls of `AddExperience` one after the other. -/
def CreatureInstance.run (config : GameConfig) (c : CreatureInstance) (calls : List (Bool × Int)) :
    Option CreatureInstance :=
  calls.foldlM (fun c call => c.addExperience config call.1 call.2) c

/-- The level that experience has reached: its requirement is not met, or it is the last. -/
def Due (experience level : Int) : Prop :=
  level = maxLevel ∨ ∃ requirement, levelRequirement level = some requirement ∧
    experience < requirement

/-! ## The tables -/

theorem levelRequirement_isSome {level : Int} (hlow : 0 ≤ level) (hhigh : level ≤ 70) :
    ∃ requirement, levelRequirement level = some requirement := by
  have hlt : level.toNat < levelRequirements.length := by
    have hlength : levelRequirements.length = 71 := by decide
    omega
  refine ⟨levelRequirements[level.toNat].2, ?_⟩
  rw [levelRequirement, row, if_neg (by omega), List.getElem?_eq_getElem hlt, Option.map_some]

/-- No level requires more than the last. -/
theorem levelRequirement_le {level requirement : Int}
    (h : levelRequirement level = some requirement) : requirement ≤ 14185600 := by
  have hall : ∀ r ∈ levelRequirements, r.2 ≤ 14185600 := by decide
  rw [levelRequirement, row] at h
  split at h
  · exact absurd h (by simp)
  · obtain ⟨r, hr, rfl⟩ := Option.map_eq_some_iff.mp h
    exact hall r (List.mem_of_getElem? hr)

theorem levelRequirement_max : levelRequirement maxLevel = some 14185600 := by decide

/-- The points of a level are what the cumulative points rise by. -/
theorem pointsLevel {level : Int} (hlow : 1 ≤ level) (hhigh : level ≤ 70) :
    ∃ points before, getAbilityPointsLevelIncrement level = some points ∧
      getAbilityPointsLevelCumulative (level - 1) = some before ∧
      getAbilityPointsLevelCumulative level = some (before + points) ∧
      0 ≤ before ∧ 0 ≤ points ∧ before + points ≤ 182 := by
  have hall : ∀ n < 70, ∃ points ∈ getAbilityPointsLevelIncrement ((n : Nat) + 1),
      ∃ before ∈ getAbilityPointsLevelCumulative n,
        getAbilityPointsLevelCumulative (n + 1) = some (before + points) ∧
        0 ≤ before ∧ 0 ≤ points ∧ before + points ≤ 182 := by decide
  obtain ⟨points, hpoints, before, hbefore, hafter, hbounds⟩ := hall (level.toNat - 1) (by omega)
  have hlevel : ((level.toNat - 1 : Nat) : Int) + 1 = level := by omega
  rw [hlevel] at hpoints hafter
  rw [show ((level.toNat - 1 : Nat) : Int) = level - 1 by omega] at hbefore
  exact ⟨points, before, hpoints, hbefore, hafter, hbounds⟩

/-! ## The loops -/

theorem level_le_of_levelRequirement {level requirement : Int}
    (h : levelRequirement level = some requirement) : level ≤ 70 := by
  rw [levelRequirement, row] at h
  split at h
  · omega
  · obtain ⟨r, hr, -⟩ := Option.map_eq_some_iff.mp h
    have hlt := (List.getElem?_eq_some_iff.mp hr).1
    have hlength : levelRequirements.length = 71 := by decide
    omega

theorem Due.le {experience level : Int} (h : Due experience level) : level ≤ 70 := by
  obtain rfl | ⟨requirement, hlevel, -⟩ := h
  · exact le_refl _
  · exact level_le_of_levelRequirement hlevel

/-- The loop finds the least level, from the level before on, whose requirement is not met. -/
theorem levelLoop_spec (experience : Int) {level : Int} (hlow : 0 ≤ level) (hhigh : level ≤ 70) :
    ∃ newLevel, levelLoop experience level = some newLevel ∧
      IsLeast {l | level ≤ l ∧ Due experience l} newLevel := by
  obtain ⟨n, hn⟩ : ∃ n : Nat, level + n = 70 := ⟨(70 - level).toNat, by omega⟩
  induction n generalizing level with
  | zero =>
      obtain rfl : level = 70 := by omega
      refine ⟨70, ?_, ⟨le_refl _, .inl rfl⟩, fun l hl => hl.1⟩
      rw [levelLoop, show levelRequirement 70 = some 14185600 from levelRequirement_max]
      simp [maxLevel]
  | succ n ih =>
      obtain ⟨requirement, hrequirement⟩ := levelRequirement_isSome hlow hhigh
      rw [levelLoop, hrequirement, Option.bind_some]
      by_cases hmet : experience ≥ requirement
      · have hnext {l : Int} (hl : level ≤ l) (hdue : Due experience l) : level + 1 ≤ l := by
          rcases eq_or_lt_of_le hl with rfl | hlt
          · obtain h | ⟨requirement', h, hlt⟩ := hdue
            · exact absurd h (by rw [maxLevel]; omega)
            · rw [hrequirement] at h
              obtain rfl := Option.some_inj.mp h
              omega
          · omega
        rw [if_pos hmet]
        by_cases hlast : level + 1 ≥ maxLevel
        · rw [if_pos hlast]
          exact ⟨maxLevel, rfl, ⟨hhigh, .inl rfl⟩, fun l hl => hlast.trans (hnext hl.1 hl.2)⟩
        · rw [if_neg hlast]
          rw [maxLevel] at hlast
          obtain ⟨newLevel, heq, hmem, hleast⟩ :=
            @ih (level + 1) (by omega) (by omega) (by omega)
          exact ⟨newLevel, heq, ⟨by linarith [hmem.1], hmem.2⟩,
            fun l hl => hleast ⟨hnext hl.1 hl.2, hl.2⟩⟩
      · rw [if_neg hmet]
        exact ⟨level, rfl, ⟨le_refl _, .inr ⟨requirement, hrequirement, not_le.mp hmet⟩⟩,
          fun l hl => hl.1⟩

/-- The points that are added are the difference of the cumulative points. -/
theorem addPoints_spec {lev newLevel : Int} (hlow : 1 ≤ lev) (hle : lev ≤ newLevel + 1)
    (hhigh : newLevel ≤ 70) (abilityPoints : Int) :
    ∃ before after, getAbilityPointsLevelCumulative (lev - 1) = some before ∧
      getAbilityPointsLevelCumulative newLevel = some after ∧ before ≤ after ∧
      addPoints lev newLevel abilityPoints = some (abilityPoints + (after - before)) := by
  obtain ⟨n, hn⟩ : ∃ n : Nat, lev + n = newLevel + 1 := ⟨(newLevel + 1 - lev).toNat, by omega⟩
  induction n generalizing lev abilityPoints with
  | zero =>
      obtain rfl : lev = newLevel + 1 := by omega
      have hsome : ∃ after, getAbilityPointsLevelCumulative newLevel = some after := by
        by_cases hzero : newLevel < 1
        · exact ⟨0, if_pos (.inl hzero)⟩
        · obtain ⟨points, before, -, -, hafter, -⟩ := pointsLevel (not_lt.mp hzero) hhigh
          exact ⟨before + points, hafter⟩
      obtain ⟨after, hafter⟩ := hsome
      refine ⟨after, after, by rwa [add_sub_cancel_right], hafter, le_refl _, ?_⟩
      rw [addPoints, if_neg (by omega), sub_self, add_zero]
  | succ n ih =>
      obtain ⟨points, before, hpoints, hbefore, hnext, -, hnonneg, -⟩ :=
        pointsLevel hlow (by omega)
      obtain ⟨middle, after, hmiddle, hafter, hle', hrest⟩ :=
        @ih (lev + 1) (by omega) (by omega) (abilityPoints + points) (by omega)
      rw [add_sub_cancel_right, hnext] at hmiddle
      obtain rfl := Option.some_inj.mp hmiddle
      refine ⟨before, after, hbefore, hafter, by omega, ?_⟩
      rw [addPoints, if_pos (by omega), hpoints, Option.bind_some, hrest]
      congr 1
      ring

/-! ## A call -/

/-- Adding points that fit. -/
theorem toInt_add_ofInt (x : Int16) {points : Int} (hnonneg : 0 ≤ points)
    (hfits : x.toInt + points < 2 ^ 15) : (x + Int16.ofInt points).toInt = x.toInt + points := by
  have hlow := Int16.le_toInt x
  have hsize : (Int16.size : Int) = 65536 := rfl
  rw [Int16.toInt_add, Int16.toInt_ofInt, Int.add_bmod_bmod]
  exact Int.bmod_eq_of_le (by omega) (by omega)

/-- What a call does to a player in an instance: he has the level that his experience has reached,
and gains the points that the cumulative points of his level rise by. -/
structure Advances (c c' : CreatureInstance) : Prop where
  level : IsLeast {l | c.level ≤ l ∧ Due c'.experience l} c'.level
  points : ∃ before after, getAbilityPointsLevelCumulative c.level = some before ∧
    getAbilityPointsLevelCumulative c'.level = some after ∧
    (c.totalAbilityPoints.toInt = before → c'.totalAbilityPoints.toInt = after) ∧
    c'.totalAbilityPoints = c.totalAbilityPoints + Int16.ofInt (after - before) ∧
    c'.currentAbilityPoints = c.currentAbilityPoints + Int16.ofInt (after - before) ∧
    (c.currentAbilityPoints.toInt + (after - before) < 2 ^ 15 →
      c'.currentAbilityPoints.toInt = c.currentAbilityPoints.toInt + (after - before))

/-- A player of a level of the tables. -/
def Leveled (c : CreatureInstance) : Prop := c.isPlayer = true ∧ 1 ≤ c.level ∧ c.level ≤ 70

variable {c : CreatureInstance}

/-- A level that is gained. -/
theorem setLevel_spec (h : Leveled c) {newLevel : Int} (hlow : c.level < newLevel)
    (hhigh : newLevel ≤ 70) :
    ∃ before after, getAbilityPointsLevelCumulative c.level = some before ∧
      getAbilityPointsLevelCumulative newLevel = some after ∧ before ≤ after ∧
      c.setLevel true newLevel = some { c with
        level := newLevel
        experience := if newLevel = maxLevel then 14185600 else c.experience
        totalAbilityPoints := c.totalAbilityPoints + Int16.ofInt (after - before)
        currentAbilityPoints := c.currentAbilityPoints + Int16.ofInt (after - before) } := by
  obtain ⟨before, after, hbefore, hafter, hle, hadd⟩ :=
    @addPoints_spec (c.level + 1) newLevel (by linarith [h.2.1]) (by omega) hhigh 0
  rw [add_sub_cancel_right] at hbefore
  refine ⟨before, after, hbefore, hafter, hle, ?_⟩
  rw [CreatureInstance.setLevel, h.1, if_neg (by decide), if_pos hlow, hadd, Option.bind_some,
    zero_add]
  rcases eq_or_lt_of_le hle with rfl | hlt
  · by_cases hmax : newLevel = maxLevel <;> simp [hmax, levelRequirement_max]
  · by_cases hmax : newLevel = maxLevel <;> simp [hmax, hlt, levelRequirement_max]

theorem addExperience_spec (config : GameConfig) (h : Leveled c) (amount : Int) :
    ∃ c', c.addExperience config true amount = some c' ∧ Advances c c' ∧ Leveled c' := by
  rw [CreatureInstance.addExperience, if_neg (by decide)]
  dsimp only
  generalize c.experience + (if config.capExperienceLevel > 0 ∧
      c.level ≥ config.capExperienceLevel ∧ amount > config.capExperienceAmount then
    config.capExperienceAmount else amount) = experience
  obtain ⟨hplayer, hlow, hhigh⟩ := h
  obtain ⟨newLevel, hloop, hleast⟩ := levelLoop_spec experience (by omega) hhigh
  have hnew : newLevel ≤ 70 := hleast.1.2.le
  rw [hloop, Option.bind_some, if_neg (show ¬c.level < 0 by omega),
    if_neg (show ¬c.level > maxLevel by rw [maxLevel]; omega)]
  by_cases hsame : newLevel = c.level
  · subst hsame
    obtain ⟨points, before, -, -, hcumulative, -⟩ := pointsLevel hlow hhigh
    refine ⟨{ c with experience := experience }, if_neg (by simp), ⟨hleast, ?_⟩,
      hplayer, hlow, hhigh⟩
    exact ⟨_, _, hcumulative, hcumulative, id, by simp, by simp, by simp⟩
  · have hgain : c.level < newLevel := lt_of_le_of_ne hleast.1.1 (Ne.symm hsame)
    obtain ⟨before, after, hbefore, hafter, hle, hset⟩ :=
      setLevel_spec (c := { c with experience := experience }) ⟨hplayer, hlow, hhigh⟩ hgain hnew
    rw [if_pos ⟨hplayer, hsame⟩, hset]
    refine ⟨_, rfl, ⟨?_, before, after, hbefore, hafter, ?_, rfl, rfl,
      toInt_add_ofInt _ (sub_nonneg.mpr hle)⟩, hplayer, by dsimp only; omega, hnew⟩
    · dsimp only
      by_cases hmax : newLevel = maxLevel
      · -- the experience is set to what the last level requires
        rw [if_pos hmax, hmax]
        refine ⟨⟨hhigh, .inl rfl⟩, fun l hl => ?_⟩
        obtain rfl | ⟨requirement, hrequirement, hlt⟩ := hl.2
        · exact le_refl _
        · exact absurd hlt (not_lt.mpr (levelRequirement_le hrequirement))
      · rwa [if_neg hmax]
    · intro htotal
      obtain ⟨points, _, -, -, hcumulative, hnonneg, hpoints, hfits⟩ :=
        pointsLevel (show 1 ≤ newLevel by omega) hnew
      obtain rfl := Option.some_inj.mp (hafter.symm.trans hcumulative)
      dsimp only
      rw [toInt_add_ofInt _ (sub_nonneg.mpr hle) (by rw [htotal]; omega), htotal]
      ring

theorem run_spec (config : GameConfig) (h : Leveled c) (calls : List (Bool × Int)) :
    ∃ s, c.run config calls = some s ∧ Leveled s := by
  induction calls generalizing c with
  | nil => exact ⟨c, rfl, h⟩
  | cons call calls ih =>
      obtain ⟨actInst, amount⟩ := call
      have hcall : ∃ c', c.addExperience config actInst amount = some c' ∧ Leveled c' := by
        cases actInst with
        | false => exact ⟨c, rfl, h⟩
        | true =>
            obtain ⟨c', hc', -, hleveled⟩ := addExperience_spec config h amount
            exact ⟨c', hc', hleveled⟩
      obtain ⟨c', hc', hleveled⟩ := hcall
      obtain ⟨s, hs, hend⟩ := ih hleveled
      refine ⟨s, ?_, hend⟩
      rw [CreatureInstance.run, List.foldlM_cons, hc']
      exact hs

/-- After every call of a run on a player in an instance level, experience and points agree; a call
on a player outside of an instance changes nothing. No call reads outside of the tables. -/
theorem run_agrees (config : GameConfig) (h : Leveled c) (calls : List (Bool × Int))
    (actInst : Bool) (amount : Int) :
    ∃ s s', c.run config calls = some s ∧ s.addExperience config actInst amount = some s' ∧
      (actInst = true → Advances s s') ∧ (actInst = false → s' = s) := by
  obtain ⟨s, hs, hleveled⟩ := run_spec config h calls
  cases actInst with
  | false => exact ⟨s, s, hs, rfl, fun h => absurd h (by decide), fun _ => rfl⟩
  | true =>
      obtain ⟨s', hs', hadvances, -⟩ := addExperience_spec config hleveled amount
      exact ⟨s, s', hs, hs', fun _ => hadvances, fun h => absurd h (by decide)⟩

/-- A player of the first level gains some levels at once. -/
theorem run_agrees_first :
    ∃ s s', CreatureInstance.run {} ⟨true, 1, 0, 2, 2⟩ [(true, 100)] = some s ∧
      s.addExperience {} true 5000 = some s' ∧
      (true = true → Advances s s') ∧ (true = false → s' = s) :=
  run_agrees {} ⟨rfl, by decide, by decide⟩ [(true, 100)] true 5000

/-- Outside of an instance a player keeps a level that his experience is beyond. -/
theorem outside_instance :
    ¬∃ s', CreatureInstance.addExperience {} false ⟨true, 1, 1000, 2, 2⟩ 0 = some s' ∧
      IsLeast {l | 1 ≤ l ∧ Due s'.experience l} s'.level := by
  rintro ⟨s', hs', hleast⟩
  obtain rfl := Option.some_inj.mp hs'
  obtain h | ⟨requirement, hrequirement, hlt⟩ := hleast.1.2
  · exact absurd h (by decide)
  · obtain rfl : (500 : Int) = requirement := Option.some_inj.mp hrequirement
    exact absurd hlt (by decide)

end Iceee.Level
