import Iceee.Health.Points
import Iceee.Lib.Trace

/-!
# Health and death agree

A creature is dead exactly when it has no health, as long as no operation meets one of the gaps: a
dead creature that is damaged or ticks, a lowest health that turns a deadly blow, a change of
equipment that rounds the health of a living creature to nothing, or that lowers the part of the
maximum that comes from heroism after it set the health.
-/

namespace Iceee.Health

open Lib

/-! ### The restriction -/

namespace CharacterStatSet

variable (r : Rounding) (css : CharacterStatSet)

/-- The most that the percentages allow. -/
def highest : Option Int :=
  if css.max_health_pc ≠ 100 then some (css.percentOfHealth r css.max_health_pc) else none

/-- The least that the percentages allow. -/
def lowest : Option Int :=
  if css.min_health_pc ≠ 0 then some (css.percentOfHealth r css.min_health_pc) else none

/-- The value that is restricted. -/
def asked (health : Int) : Int := if health = -1 then css.getMaxHealth r else health

variable {r css} {health k : Int}

theorem le_calcRestrictedHealth :
    k ≤ css.calcRestrictedHealth r health ↔
      (k ≤ css.asked r health ∧ ∀ cap ∈ css.highest r, k ≤ cap) ∨
        ∃ low ∈ css.lowest r, k ≤ low := by
  rw [calcRestrictedHealth, highest, lowest, asked]
  split_ifs <;> simp <;> omega

theorem calcRestrictedHealth_le :
    css.calcRestrictedHealth r health ≤ k ↔
      (css.asked r health ≤ k ∨ ∃ cap ∈ css.highest r, cap ≤ k) ∧
        ∀ low ∈ css.lowest r, low ≤ k := by
  rw [calcRestrictedHealth, highest, lowest, asked]
  split_ifs <;> simp <;> omega

variable (r css) (health)

/-- The percentages leave a value positive, and not above a maximum. -/
def Positive (max : Int) : Prop :=
  ((1 ≤ css.asked r health ∧ ∀ cap ∈ css.highest r, 1 ≤ cap) ∨ ∃ low ∈ css.lowest r, 1 ≤ low) ∧
    (css.asked r health ≤ max ∨ ∃ cap ∈ css.highest r, cap ≤ max) ∧
    ∀ low ∈ css.lowest r, low ≤ max

/-- The percentages make a value zero. -/
def Zero : Prop :=
  ((0 ≤ css.asked r health ∧ ∀ cap ∈ css.highest r, 0 ≤ cap) ∨ ∃ low ∈ css.lowest r, 0 ≤ low) ∧
    (css.asked r health ≤ 0 ∨ ∃ cap ∈ css.highest r, cap ≤ 0) ∧ ∀ low ∈ css.lowest r, low ≤ 0

instance (max : Int) : Decidable (css.Positive r health max) :=
  inferInstanceAs (Decidable (_ ∧ _ ∧ _))

instance : Decidable (css.Zero r health) := inferInstanceAs (Decidable (_ ∧ _ ∧ _))

variable {r css} {health}

theorem positive_iff {max : Int} : css.Positive r health max ↔
    0 < css.calcRestrictedHealth r health ∧ css.calcRestrictedHealth r health ≤ max := by
  rw [Positive, ← le_calcRestrictedHealth, ← calcRestrictedHealth_le]
  exact Iff.rfl

theorem zero_iff : css.Zero r health ↔ css.calcRestrictedHealth r health = 0 := by
  rw [Zero, ← le_calcRestrictedHealth, ← calcRestrictedHealth_le, le_antisymm_iff]
  exact and_comm

end CharacterStatSet

/-! ### What is to hold -/

/-- The health is between nothing and the maximum, nothing exactly for the dead, `_OnDeath` ran once
for each death, and only a resurrection gave a dead creature health. -/
structure Sound (r : Rounding) (c : CreatureInstance) : Prop where
  nonneg : 0 ≤ c.health
  le_max : c.health ≤ c.css.getMaxHealth r
  dead_iff : c.dead = true ↔ c.health = 0
  once : c.onDeaths = c.deaths
  revived : c.revived = false

namespace CreatureInstance

variable (r : Rounding) (c : CreatureInstance)

/-- A blow hits a living creature and leaves it alive or, where no lowest health stops it, dead. A
creature that is dead may only be healed by a blow that the percentages make nothing of. -/
def TakesDamage (amount : Int) : Prop :=
  let health := max 0 (c.health - amount)
  if c.dead then health ≠ 0 ∧ c.css.Zero r health
  else if health = 0 then c.css.Zero r 0 else c.css.Positive r health (c.css.getMaxHealth r)

/-- A tick leaves the living alive and the dead dead. -/
def Ticks (inCombat : Bool) : Prop :=
  let health := min (c.health + c.css.regen r inCombat) (c.css.getMaxHealth r)
  if c.dead then c.css.Zero r health else c.css.Positive r health (c.css.getMaxHealth r)

/-- What each operation needs. -/
def InOrder : Op → Prop
  | .applyRawDamage amount | .harm amount => c.TakesDamage r amount
  | .heal amount => c.dead = false →
      c.css.Positive r (min (c.health + amount) (c.css.getMaxHealth r)) (c.css.getMaxHealth r)
  | .runHealTick inCombat => c.Ticks r inCombat
  | .processRegen g_ServerTime noncombatant inCombat =>
      c.timer_lasthealthupdate ≤ g_ServerTime → noncombatant = false →
        c.health < c.css.getMaxHealth r → c.Ticks r inCombat
  | .resurrect healthratio luckratio penalty =>
      let css := if penalty then (c.css.loseHeroism r luckratio).onHeroismChange r else c.css
      css.Positive r (max 1 (trunc (r.float (r.float (css.getMaxHealth r) * healthratio))))
        (css.getMaxHealth r)
  | .updateEquipment css =>
      let newHealth := clipInt (trunc (r.float (r.float (css.getMaxHealth r) *
        r.float (r.float c.health / r.float (c.css.getMaxHealth r))))) 0 (css.getMaxHealth r)
      let newMax := (css.onHeroismChange r).getMaxHealth r
      if c.dead then 0 ≤ newMax ∧ css.Zero r newHealth else css.Positive r newHealth newMax

instance (amount : Int) : Decidable (c.TakesDamage r amount) :=
  inferInstanceAs (Decidable (if c.dead then max 0 (c.health - amount) ≠ 0 ∧ c.css.Zero r _
    else if max 0 (c.health - amount) = 0 then c.css.Zero r 0 else c.css.Positive r _ _))

instance (inCombat : Bool) : Decidable (c.Ticks r inCombat) :=
  inferInstanceAs (Decidable (if c.dead then c.css.Zero r _ else c.css.Positive r _ _))

instance : DecidablePred (c.InOrder r)
  | .applyRawDamage _ | .harm _ => inferInstanceAs (Decidable (c.TakesDamage r _))
  | .heal _ => inferInstanceAs (Decidable (_ → _))
  | .runHealTick _ => inferInstanceAs (Decidable (c.Ticks r _))
  | .processRegen .. => inferInstanceAs (Decidable (_ → _ → _ → c.Ticks r _))
  | .resurrect .. => inferInstanceAs (Decidable (CharacterStatSet.Positive r _ _ _))
  | .updateEquipment css => inferInstanceAs (Decidable (if c.dead then
      0 ≤ (css.onHeroismChange r).getMaxHealth r ∧ css.Zero r _ else css.Positive r _ _))

end CreatureInstance

/-! ### Steps -/

section Step

variable {r : Rounding} {c c' : CreatureInstance}

/-- An operation that only sets the health, and perhaps the stats: the living must stay alive, the
dead without health. -/
theorem sound_noteRevival_iff (hc : Sound r c) (hdead : c'.dead = c.dead)
    (honce : c'.onDeaths = c'.deaths) :
    Sound r (c.noteRevival c') ↔
      if c.dead then c'.health = 0 ∧ 0 ≤ c'.css.getMaxHealth r
      else 0 < c'.health ∧ c'.health ≤ c'.css.getMaxHealth r := by
  constructor
  · intro h
    have hiff : c.dead = true ↔ c'.health = 0 := hdead ▸ h.dead_iff
    have hlow : 0 ≤ c'.health := h.nonneg
    have hhigh : c'.health ≤ c'.css.getMaxHealth r := h.le_max
    split
    · next hd => exact ⟨hiff.mp hd, hlow.trans hhigh⟩
    · next hd => exact ⟨lt_of_le_of_ne hlow fun heq => hd (hiff.mpr heq.symm), hhigh⟩
  · intro h
    have hrevived : (c.revived || (c.dead && decide (0 < c'.health))) = false := by
      rw [hc.revived, Bool.false_or]
      split at h
      · rw [h.1]
        exact Bool.and_false _
      · next hd => rw [Bool.eq_false_iff.mpr hd, Bool.false_and]
    split at h
    · next hd =>
        exact {
          nonneg := h.1.ge
          le_max := h.1.le.trans h.2
          dead_iff := iff_of_true (hdead.trans hd) h.1
          once := honce
          revived := hrevived }
    · next hd =>
        exact {
          nonneg := h.1.le
          le_max := h.2
          dead_iff := iff_of_false (hdead ▸ hd) h.1.ne'
          once := honce
          revived := hrevived }

theorem sound_noteRevival (hc : Sound r c) : Sound r (c.noteRevival c) := by
  have hrevived : (c.revived || (c.dead && decide (0 < c.health))) = c.revived := by
    by_cases hd : c.dead = true
    · simp [hc.dead_iff.mp hd]
    · simp [hd]
  exact {
    nonneg := hc.nonneg
    le_max := hc.le_max
    dead_iff := hc.dead_iff
    once := hc.once
    revived := hrevived.trans hc.revived }

/-- The timer does not matter. -/
theorem sound_timer_iff (time : Nat) :
    Sound r (c.noteRevival { c' with timer_lasthealthupdate := time }) ↔
      Sound r (c.noteRevival c') :=
  ⟨fun h => ⟨h.nonneg, h.le_max, h.dead_iff, h.once, h.revived⟩,
    fun h => ⟨h.nonneg, h.le_max, h.dead_iff, h.once, h.revived⟩⟩

theorem sound_runHealTick_iff (hc : Sound r c) (inCombat : Bool) :
    Sound r (c.noteRevival (c.runHealTick r inCombat)) ↔ c.Ticks r inCombat := by
  refine (sound_noteRevival_iff hc (by rfl) (by exact hc.once)).trans ?_
  rw [CreatureInstance.Ticks]
  have hmax := hc.nonneg.trans hc.le_max
  have hmin : (if c.health + c.css.regen r inCombat > c.css.getMaxHealth r then
      c.css.getMaxHealth r else c.health + c.css.regen r inCombat) =
        min (c.health + c.css.regen r inCombat) (c.css.getMaxHealth r) := by
    rw [min_def]
    split_ifs <;> omega
  dsimp only [CreatureInstance.runHealTick]
  rw [hmin]
  split
  · rw [and_iff_left hmax]
    exact CharacterStatSet.zero_iff.symm
  · exact CharacterStatSet.positive_iff.symm

theorem sound_applyRawDamage_iff (hc : Sound r c) (amount : Int) :
    Sound r (c.noteRevival (c.applyRawDamage r amount)) ↔ c.TakesDamage r amount := by
  have hmax := hc.nonneg.trans hc.le_max
  have hhealth : (if c.health - amount < 0 then 0 else c.health - amount) =
      max 0 (c.health - amount) := by
    rw [max_def]
    split_ifs <;> omega
  rw [CreatureInstance.applyRawDamage, CreatureInstance.TakesDamage, hhealth]
  generalize max 0 (c.health - amount) = health
  by_cases hzero : health = 0
  · rw [hzero, if_pos rfl]
    by_cases hd : c.dead = true
    · -- a second `_OnDeath` is no death
      rw [if_pos hd]
      refine iff_of_false (fun h => ?_) fun h => h.1 rfl
      have honce := h.once
      simp [CreatureInstance.noteRevival, CreatureInstance.onDeath, hd, hc.once] at honce
    · rw [if_neg hd, if_pos rfl, CharacterStatSet.zero_iff]
      constructor
      · intro h
        exact h.dead_iff.mp rfl
      · intro h
        exact {
          nonneg := h.ge
          le_max := h.le.trans hmax
          dead_iff := iff_of_true rfl h
          once := by simp [CreatureInstance.noteRevival, CreatureInstance.onDeath, hd, hc.once]
          revived := by simp [CreatureInstance.noteRevival, hd, hc.revived] }
  · rw [if_neg hzero]
    refine (sound_noteRevival_iff hc (by rfl) (by exact hc.once)).trans ?_
    rw [if_neg hzero, and_iff_right hzero, CharacterStatSet.zero_iff,
      CharacterStatSet.positive_iff, and_iff_left hmax]

/-- A step leaves a sound creature sound exactly where it is in order. -/
theorem sound_step_iff (hc : Sound r c) {op : Op} (hs : c.step r op = some c') :
    Sound r c' ↔ c.InOrder r op := by
  have hmax := hc.nonneg.trans hc.le_max
  cases op with
  | applyRawDamage amount =>
      rw [← Option.some.inj hs]
      exact sound_applyRawDamage_iff hc amount
  | harm amount =>
      rw [← Option.some.inj hs]
      exact sound_applyRawDamage_iff hc amount
  | heal amount =>
      rw [← Option.some.inj hs, CreatureInstance.InOrder, CreatureInstance.heal]
      by_cases hd : c.dead = true
      · rw [if_pos hd, sound_noteRevival_iff hc rfl hc.once, if_pos hd]
        refine iff_of_true ⟨hc.dead_iff.mp hd, hmax⟩ fun hd' => ?_
        rw [hd] at hd'
        cases hd'
      · have hmin : (if c.health + amount > c.css.getMaxHealth r then c.css.getMaxHealth r
            else c.health + amount) = min (c.health + amount) (c.css.getMaxHealth r) := by
          rw [min_def]
          split_ifs <;> omega
        dsimp only
        rw [if_neg hd, hmin]
        refine (sound_noteRevival_iff hc (by rfl) (by exact hc.once)).trans ?_
        rw [if_neg hd, forall_prop_of_true (Bool.eq_false_iff.mpr hd)]
        exact CharacterStatSet.positive_iff.symm
  | runHealTick inCombat =>
      rw [← Option.some.inj hs]
      exact sound_runHealTick_iff hc inCombat
  | processRegen g_ServerTime noncombatant inCombat =>
      rw [← Option.some.inj hs, CreatureInstance.InOrder, CreatureInstance.processRegen]
      split_ifs with hwait
      · refine iff_of_true (sound_noteRevival hc) fun htime hcombat => ?_
        rcases hwait with hwait | hwait
        · exact absurd hwait (Nat.not_lt.mpr htime)
        · rw [hcombat] at hwait
          cases hwait
      · rw [not_or, Nat.not_lt] at hwait
        rw [forall_prop_of_true hwait.1, forall_prop_of_true (Bool.eq_false_iff.mpr hwait.2)]
        dsimp only
        split_ifs with hless hmore
        · rw [forall_prop_of_true hless]
          exact (sound_timer_iff _).trans (sound_runHealTick_iff hc inCombat)
        · exact absurd hc.le_max (Int.not_le.mpr hmore)
        · exact iff_of_true ((sound_timer_iff _).mpr (sound_noteRevival hc)) fun h => absurd h hless
  | resurrect healthratio luckratio penalty =>
      rw [← Option.some.inj hs, CreatureInstance.InOrder, CharacterStatSet.positive_iff,
        CreatureInstance.resurrect]
      have hmaxone (health : Int) : (if health < 1 then 1 else health) = max 1 health := by
        rw [max_def]
        split_ifs <;> omega
      rw [hmaxone]
      constructor
      · intro h
        exact ⟨lt_of_le_of_ne h.nonneg fun heq => Bool.false_ne_true (h.dead_iff.mpr heq.symm),
          h.le_max⟩
      · intro h
        exact {
          nonneg := h.1.le
          le_max := h.2
          dead_iff := iff_of_false Bool.false_ne_true h.1.ne'
          once := hc.once
          revived := hc.revived }
  | updateEquipment css =>
      rw [← Option.some.inj hs, CreatureInstance.InOrder]
      refine (sound_noteRevival_iff hc (by rfl) (by exact hc.once)).trans ?_
      dsimp only [CreatureInstance.updateEquipment, CreatureInstance.onEquipmentChange]
      split
      · rw [CharacterStatSet.zero_iff]
        exact and_comm
      · exact CharacterStatSet.positive_iff.symm

/-- Every state of a run is sound exactly where every operation was in order. -/
theorem health_sound_iff {h : List (CreatureInstance × Op)}
    (run : Trace (Sound r) (fun _ _ => True) (CreatureInstance.step r) h c) :
    (Sound r c ∧ ∀ e ∈ h, Sound r e.1) ↔ ∀ e ∈ h, e.1.InOrder r e.2 := by
  refine run.safe_iff (fun _ hc => hc) (fun _ hc => hc) ?_ ?_
  · intro c op c' hc hok hs
    exact (sound_step_iff hc hs).mpr hok
  · intro c op c' hc hbad hs hsound
    exact hbad ((sound_step_iff hc hs).mp hsound)

end Step

/-! ### A knight -/

def exact : Rounding := { float := id, double := id }

/-- A creature with 1100 points. -/
def knight : CreatureInstance := { css := { constitution := 100, heroism := 400 }, health := 1100 }

theorem sound_knight : Sound exact knight := by
  constructor <;> decide +kernel

/-- Blows, a rest, a death, a resurrection that takes heroism, and a heavier armour. -/
def battle : List Op :=
  [.applyRawDamage 300, .heal 50, .processRegen 2000 false true, .harm 5000, .heal 20,
    .resurrect (1 / 2) (3 / 4) true, .updateEquipment { constitution := 120, heroism := 300 }]

theorem battle_sound :
    ∃ h c, Trace (Sound exact) (fun _ _ => True) (CreatureInstance.step exact) h c ∧
      h.length = 7 ∧ c.health = 660 ∧ c.deaths = 1 ∧
        (Sound exact c ∧ ∀ e ∈ h, Sound exact e.1) := by
  have hrun := Lib.eq_some_getD (o := Lib.runAll (CreatureInstance.step exact) knight battle)
    (by decide +kernel) {}
  have start : Trace (Sound exact) (fun _ _ => True) (CreatureInstance.step exact) [] knight :=
    .start sound_knight
  have run := start.runAll (okAll_true _ _) hrun
  exact ⟨_, _, run, by decide +kernel, by decide +kernel, by decide +kernel,
    (health_sound_iff run).mpr (by decide +kernel)⟩

/-- A deadly blow against a lowest health of a tenth leaves a dead creature with health. -/
theorem deadly_blow_survived :
    ¬∀ r h c, Trace (Sound r) (fun _ _ => True) (CreatureInstance.step r) h c → Sound r c := by
  intro hall
  let guarded : CreatureInstance :=
    { css := { constitution := 100, min_health_pc := 10 }, health := 1100 }
  have hguarded : Sound exact guarded := by constructor <;> decide +kernel
  have start : Trace (Sound exact) (fun _ _ => True) (CreatureInstance.step exact) [] guarded :=
    .start hguarded
  have hdead := (hall _ _ _ (start.next (a := .applyRawDamage 1100) trivial rfl)).dead_iff
  exact absurd hdead (by decide +kernel)

end Iceee.Health
