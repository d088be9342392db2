import Iceee.Ability.Slot

/-!
# Creatures as targets

What a creature may aim at, and how far it is away. The instance keeps its creatures in three lists
of pointers.

## Implementation notes

Distances are whole numbers, as the server cuts them. Sizes are rational numbers. The coordinates of
a point are what is left of them when they are cut to whole numbers.
-/

namespace Iceee.Targets

/-- The flags of `TargetStatus`. -/
structure TargetStatus where
  TSB_ALIVE : Bool := false
  TSB_DEAD : Bool := false
  TSB_FRIEND : Bool := false
  TSB_ENEMY : Bool := false
  deriving DecidableEq, Repr

/-- `TargetStatus::Enemy_Alive`. -/
def Enemy_Alive : TargetStatus := { TSB_ENEMY := true, TSB_ALIVE := true }

structure CreatureInstance where
  CreatureID : Int
  CreatureDefID : Int := 0
  isPlayer : Bool := false
  leashRecall : Bool := false
  noncombatant : Bool := false
  unattackable : Bool := false
  invincible : Bool := false
  pvpable : Bool := false
  Faction : Int := 0
  PartyID : Int := 0
  pvp_team : Int := 0
  health : Int := 1
  total_size : ℚ := 0
  CurrentX : Int := 0
  CurrentZ : Int := 0
  /-- `CurrentTarget.targ`. -/
  targ : Option CreaturePtr := none
  AnchorObject : Option CreaturePtr := none

/-- The game modes of a zone. -/
inductive GameMode
  | PVE | PVP | PVP_ONLY | PVE_ONLY | SPECIAL_EVENT
  deriving DecidableEq, Repr

/-- An instance with its zone. A creature is in one place of one list, and its ID is its own. -/
structure ActiveInstance where
  creature : CreaturePtr → CreatureInstance
  PlayerListPtr : List CreaturePtr := []
  NPCListPtr : List CreaturePtr := []
  SidekickListPtr : List CreaturePtr := []
  mArena : Bool := false
  mMode : GameMode := .PVE
  distinct : (NPCListPtr ++ PlayerListPtr ++ SidekickListPtr).Nodup
  ids : ∀ p ∈ NPCListPtr ++ PlayerListPtr ++ SidekickListPtr,
    ∀ q ∈ NPCListPtr ++ PlayerListPtr ++ SidekickListPtr,
      (creature p).CreatureID = (creature q).CreatureID → p = q

namespace ActiveInstance

variable (inst : ActiveInstance)

/-- The creatures of the three lists, in the order in which abilities look for targets. -/
def members : List CreaturePtr := inst.NPCListPtr ++ inst.PlayerListPtr ++ inst.SidekickListPtr

/-- `DISTANCE_FAILED`. -/
def DISTANCE_FAILED : Int := 999999

/-- The distance of two places, if it is within the threshold along both axes. -/
def cutRange (xlen zlen : ℕ) (threshold : Int) : Int :=
  if xlen > threshold then DISTANCE_FAILED
  else if zlen > threshold then DISTANCE_FAILED
  else Nat.sqrt (xlen * xlen + zlen * zlen)

/-- `GetPlaneRange`. -/
def getPlaneRange (obj1 obj2 : CreaturePtr) (threshold : Int) : Int :=
  cutRange ((inst.creature obj1).CurrentX - (inst.creature obj2).CurrentX).natAbs
    ((inst.creature obj1).CurrentZ - (inst.creature obj2).CurrentZ).natAbs threshold

/-- `GetPointRangeXZ`. -/
def getPointRangeXZ (obj1 : CreaturePtr) (x z threshold : Int) : Int :=
  cutRange ((inst.creature obj1).CurrentX - x).natAbs ((inst.creature obj1).CurrentZ - z).natAbs
    threshold

/-- `GetTotalSize`. -/
def getTotalSize (obj : CreaturePtr) : ℚ := max 5 (inst.creature obj).total_size

/-- What is left of a number that is cast to `int`. -/
def castInt (q : ℚ) : Int := if 0 ≤ q then ⌊q⌋ else ⌈q⌉

/-- `IsObjectInRange`, of an object that there is. -/
def isObjectInRange (this object : CreaturePtr) (distance : Int) : Bool :=
  if this = object then true
  else
    let acceptDist := inst.getTotalSize this + inst.getTotalSize object + distance
    decide ((inst.getPlaneRange this object (castInt acceptDist) : ℚ) ≤ acceptDist)

/-- `IsSelfNearPoint`. -/
def isSelfNearPoint (this : CreaturePtr) (x z distance : Int) : Bool :=
  let acceptDist := inst.getTotalSize this + distance
  decide ((inst.getPointRangeXZ this x z (castInt acceptDist) : ℚ) ≤ acceptDist)

/-- `CanPVPTarget`. -/
def canPVPTarget (this target : CreaturePtr) : Bool :=
  let self := inst.creature this
  let other := inst.creature target
  if this = target then false
  else if other.unattackable then false
  else if other.invincible then false
  else if self.pvpable ∧ other.pvpable then
    if inst.mArena then
      if self.PartyID > 0 ∧ self.PartyID = other.PartyID then false else true
    else if inst.mMode = .SPECIAL_EVENT ∧ self.pvp_team ≠ other.pvp_team then true
    else if inst.mMode = .PVP ∨ inst.mMode = .PVP_ONLY then true
    else false
  else false

/-- The part of `_ValidTargetFlag` that looks at the health. -/
def validHealth (target : CreaturePtr) (abilityRestrict : TargetStatus) : Bool :=
  if abilityRestrict.TSB_ALIVE then
    if (inst.creature target).health > 0 then true else false
  else if abilityRestrict.TSB_DEAD then
    if (inst.creature target).health = 0 then true else false
  else true

/-- `_ValidTargetFlag`. -/
def validTargetFlag (this target : CreaturePtr) (abilityRestrict : TargetStatus) : Bool :=
  let self := inst.creature this
  let other := inst.creature target
  if other.leashRecall then false
  else if other.noncombatant ∧ abilityRestrict.TSB_ENEMY then false
  else if abilityRestrict.TSB_ENEMY ∧ self.isPlayer ∧ other.isPlayer then
    inst.canPVPTarget this target
  else if target = this ∧ abilityRestrict.TSB_ENEMY then false
  else if abilityRestrict.TSB_FRIEND then
    if other.Faction ≠ self.Faction then false else inst.validHealth target abilityRestrict
  else if abilityRestrict.TSB_ENEMY then
    if target = this then false
    else if other.Faction = self.Faction then
      if self.pvpable = false then false
      else if other.pvpable = false then false
      else inst.validHealth target abilityRestrict
    else inst.validHealth target abilityRestrict
  else inst.validHealth target abilityRestrict

/-! ### The lists -/

variable {inst}

theorem nodup_members : inst.members.Nodup := inst.distinct

theorem mem_members {p : CreaturePtr} : p ∈ inst.members ↔
    p ∈ inst.NPCListPtr ∨ p ∈ inst.PlayerListPtr ∨ p ∈ inst.SidekickListPtr := by
  unfold members
  rw [List.mem_append, List.mem_append, or_assoc]

/-- A sidekick is in neither of the other lists. -/
theorem sidekick_notMem {p : CreaturePtr} (hp : p ∈ inst.SidekickListPtr) :
    p ∉ inst.NPCListPtr ∧ p ∉ inst.PlayerListPtr := by
  have hdisjoint := (List.nodup_append.mp inst.distinct).2.2
  exact ⟨fun h => hdisjoint p (List.mem_append_left _ h) p hp rfl,
    fun h => hdisjoint p (List.mem_append_right _ h) p hp rfl⟩

end ActiveInstance

end Iceee.Targets
