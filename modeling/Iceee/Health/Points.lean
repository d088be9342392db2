import Iceee.Lib.Machine

/-!
# Health of a creature

Damage, healing, regeneration, resurrection and a change of equipment set the health, each through
the restriction to a lowest and a highest percentage of the maximum.

## Implementation notes

Integers do not overflow. A result of floating point arithmetic is the exact result, rounded by a
function that is a parameter. The end of a life is the DEAD status and a count; the removal of other
effects, messages, the price of a resurrection and what hides a creature are left out.
The short of the part of the health that comes from heroism wraps.
-/

namespace Iceee.Health

open Lib

/-- How results are rounded to `float` and to `double`. -/
structure Rounding where
  float : ℚ → ℚ
  double : ℚ → ℚ

structure CharacterStatSet where
  base_health : Int := 0
  constitution : Int := 0
  spirit : Int := 0
  level : Int := 0
  rarity : Int := 0
  health_mod : Int := 0
  heroism : Int := 0
  base_luck : Int := 0
  mod_health_regen : ℚ := 0
  health_regen : ℚ := 1
  max_health_pc : Int := 100
  min_health_pc : Int := 0
  deriving DecidableEq

/-- The health, whether the status is DEAD, and how often `_OnDeath` has run, and has run for a
creature that was alive. The last field tells whether a creature that was dead ever got health from
an operation that does not resurrect. -/
structure CreatureInstance where
  css : CharacterStatSet := {}
  health : Int := 0
  dead : Bool := false
  timer_lasthealthupdate : Nat := 0
  onDeaths : Nat := 0
  deaths : Nat := 0
  revived : Bool := false
  deriving DecidableEq

/-- `Util::ClipInt`. -/
def clipInt (value min max : Int) : Int :=
  if value < min then min else if value > max then max else value

/-- `RarityTypeHealthModifier`. -/
def rarityTypeHealthModifier (rarity : Int) : ℚ :=
  if rarity = 0 then 1 else if rarity = 1 then 5 / 2 else if rarity = 2 then 5 else 10

def HealthConModifier : Int := 11

def MAX_HEROISM : Int := 1000

def MAX_BASE_LUCK : Int := 500

/-- `Util::GetAdditiveFromIntegralPercent1000`. -/
def getAdditiveFromIntegralPercent1000 (r : Rounding) (value multiplier : Int) : Int :=
  trunc (r.float (r.float value * r.float (r.float multiplier / 1000)))

namespace CharacterStatSet

variable (r : Rounding) (css : CharacterStatSet)

/-- `GetMaxHealth(false)`. -/
def unmodifiedHealth : Int :=
  let rarity := clipInt css.rarity 0 3
  let health := css.base_health + css.constitution * HealthConModifier
  trunc (r.float (r.float health * rarityTypeHealthModifier rarity))

/-- `GetMaxHealth(true)`. -/
def getMaxHealth : Int := css.unmodifiedHealth r + css.health_mod

/-- `OnHeroismChange`. -/
def onHeroismChange : CharacterStatSet :=
  let heroism := clipInt css.heroism 0 MAX_HEROISM
  let modPercent :=
    if heroism < 250 then 0
    else if heroism < 500 then 20
    else if heroism < 750 then 40
    else if heroism < 1000 then 60
    else 100
  { css with
    heroism
    base_luck := clipInt (heroism.tdiv 2) 0 MAX_BASE_LUCK
    health_mod := (Int16.ofInt
      (getAdditiveFromIntegralPercent1000 r (css.unmodifiedHealth r) modPercent)).toInt }

/-- What a resurrection takes from the heroism of a player, where death has a price. -/
def loseHeroism (luckratio : ℚ) : CharacterStatSet :=
  { css with
    heroism := clipInt (trunc (r.float (r.float css.heroism * luckratio))) 0 MAX_HEROISM }

/-- A percentage of the maximum. -/
def percentOfHealth (pc : Int) : Int :=
  trunc (r.double (r.double (r.float (css.getMaxHealth r) / 100) * pc))

/-- `CalcRestrictedHealth`, where -1 asks for the maximum. -/
def calcRestrictedHealth (health : Int) : Int :=
  let health := if health = -1 then css.getMaxHealth r else health
  let health :=
    if css.max_health_pc ≠ 100 then
      let maxHealth := css.percentOfHealth r css.max_health_pc
      if health > maxHealth then maxHealth else health
    else health
  if css.min_health_pc ≠ 0 then
    let minHealth := css.percentOfHealth r css.min_health_pc
    if health < minHealth then minHealth else health
  else health

/-- What a tick of `RunHealTick` gives. -/
def regen (inCombat : Bool) : Int :=
  let base := r.float (r.float (r.float (css.spirit * r.float (15 / 100)) +
    r.float (css.constitution * r.float (3 / 10))) + r.float (css.level * r.float (2 / 10)))
  let regen := r.double (r.double (base + css.mod_health_regen) * css.health_regen)
  let regen :=
    if inCombat then
      let regen := r.double (regen * r.float (2 / 10))
      if regen < 1 then 1 else regen
    else regen
  trunc regen

end CharacterStatSet

namespace CreatureInstance

variable (r : Rounding) (c : CreatureInstance)

/-- `_OnDeath`. -/
def onDeath : CreatureInstance :=
  { c with
    dead := true
    onDeaths := c.onDeaths + 1
    deaths := c.deaths + if c.dead then 0 else 1 }

/-- `ApplyRawDamage`. -/
def applyRawDamage (amount : Int) : CreatureInstance :=
  let health := if c.health - amount < 0 then 0 else c.health - amount
  let c := { c with health := c.css.calcRestrictedHealth r health }
  if health = 0 then c.onDeath else c

/-- `Harm`. -/
def harm (amount : Int) : CreatureInstance := c.applyRawDamage r amount

/-- `Heal`. -/
def heal (amount : Int) : CreatureInstance :=
  if c.dead then c
  else
    let maxhealth := c.css.getMaxHealth r
    let health := if c.health + amount > maxhealth then maxhealth else c.health + amount
    { c with health := c.css.calcRestrictedHealth r health }

/-- `RunHealTick`. -/
def runHealTick (inCombat : Bool) : CreatureInstance :=
  let maxhealth := c.css.getMaxHealth r
  let health := c.health + c.css.regen r inCombat
  let health := if health > maxhealth then maxhealth else health
  { c with health := c.css.calcRestrictedHealth r health }

/-- `ProcessRegen`; a player that is no combatant does not regenerate. -/
def processRegen (g_ServerTime : Nat) (noncombatant inCombat : Bool) : CreatureInstance :=
  if g_ServerTime < c.timer_lasthealthupdate ∨ noncombatant = true then c
  else
    let maxhealth := c.css.getMaxHealth r
    let c :=
      if c.health < maxhealth then c.runHealTick r inCombat
      else if c.health > maxhealth then
        { c with health := c.css.calcRestrictedHealth r maxhealth }
      else c
    { c with timer_lasthealthupdate := g_ServerTime + 2000 }

/-- `Resurrect`. A penalty is for a player in a zone with one. -/
def resurrect (healthratio luckratio : ℚ) (penalty : Bool) : CreatureInstance :=
  let css := if penalty then (c.css.loseHeroism r luckratio).onHeroismChange r else c.css
  let maxhealth := css.getMaxHealth r
  let health := trunc (r.float (r.float maxhealth * healthratio))
  let health := if health < 1 then 1 else health
  { c with css, health := css.calcRestrictedHealth r health, dead := false }

/-- `OnEquipmentChange`, where the equipment has changed the stats. -/
def onEquipmentChange (css : CharacterStatSet) (oldHealthRatio : ℚ) : CreatureInstance :=
  let newMax := css.getMaxHealth r
  let newHealth := trunc (r.float (r.float newMax * oldHealthRatio))
  let health := css.calcRestrictedHealth r (clipInt newHealth 0 newMax)
  { c with css := css.onHeroismChange r, health }

/-- `UpdateEqAppearance` takes the ratio before the change. -/
def updateEquipment (css : CharacterStatSet) : CreatureInstance :=
  c.onEquipmentChange r css (r.float (r.float c.health / r.float (c.css.getMaxHealth r)))

end CreatureInstance

/-- An operation on the health. -/
inductive Op
  | applyRawDamage (amount : Int)
  | heal (amount : Int)
  | runHealTick (inCombat : Bool)
  | processRegen (g_ServerTime : Nat) (noncombatant inCombat : Bool)
  | harm (amount : Int)
  | resurrect (healthratio luckratio : ℚ) (penalty : Bool)
  | updateEquipment (css : CharacterStatSet)
  deriving DecidableEq

namespace CreatureInstance

variable (r : Rounding) (c : CreatureInstance)

/-- A creature after an operation that does not resurrect it. -/
def noteRevival (after : CreatureInstance) : CreatureInstance :=
  { after with revived := c.revived || (c.dead && decide (0 < after.health)) }

def step : Op → Option CreatureInstance
  | .applyRawDamage amount => some (c.noteRevival (c.applyRawDamage r amount))
  | .heal amount => some (c.noteRevival (c.heal r amount))
  | .runHealTick inCombat => some (c.noteRevival (c.runHealTick r inCombat))
  | .processRegen g_ServerTime noncombatant inCombat =>
      some (c.noteRevival (c.processRegen r g_ServerTime noncombatant inCombat))
  | .harm amount => some (c.noteRevival (c.harm r amount))
  | .resurrect healthratio luckratio penalty =>
      some (c.resurrect r healthratio luckratio penalty)
  | .updateEquipment css => some (c.noteRevival (c.updateEquipment r css))

end CreatureInstance

end Iceee.Health
