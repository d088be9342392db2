import Iceee.Targets.Creature

/-!
# The targets of an ability

An ability has a target type that says where its targets are looked for. What is found is copied
into a table of fixed size.

## Implementation notes

Whether a creature is in the cone in front of another one, and which party a player is in, are
inputs. A type that is none of the known ones finds nothing, as `None`. A creature is living if it
has health left, whatever the filter asks for.

## Main results

* `obeys_take_iff`: when a list that is cut to the size of the table is the right one.
* `targets_exact_iff`: when an ability has the right targets.
-/

namespace Iceee.Targets

/-- The size of the table of targets. -/
def MAXTARGET : ℕ := 8

inductive TargetType
  | None | Self | ST | Party | Cone180 | Cone90 | GTAE | PBAE | STAE | STXAE | STP | Implicit
  deriving DecidableEq, Repr

/-- The half angles of the cones. -/
inductive HalfAngle
  | Cone_180 | Cone_90
  deriving DecidableEq, Repr

/-- What the targets change of an `ActiveAbilityInfo`, and the place on the ground. -/
structure TargetInfo where
  TargetCount : ℕ := 0
  TargetList : Fin MAXTARGET → Option CreaturePtr := fun _ => none
  x : Int := 0
  z : Int := 0

namespace TargetInfo

/-- `ClearTargetList`. -/
def clearTargetList (ab : TargetInfo) : TargetInfo :=
  { ab with
    TargetList := fun (a : Fin MAXTARGET) =>
      if (a : ℕ) < ab.TargetCount then none else ab.TargetList a
    TargetCount := 0 }

/-- `TransferTargets`. -/
def transferTargets (results : List CreaturePtr) (ab : TargetInfo) : TargetInfo :=
  let tcount := if results.length > MAXTARGET then MAXTARGET else results.length
  { ab with
    TargetList := fun (i : Fin MAXTARGET) =>
      if (i : ℕ) < tcount then results[(i : ℕ)]? else ab.TargetList i
    TargetCount := tcount }

/-- The creatures in the table, up to the count. -/
def entries (ab : TargetInfo) : List CreaturePtr :=
  (List.finRange MAXTARGET).filterMap fun (i : Fin MAXTARGET) =>
    if (i : ℕ) < ab.TargetCount then ab.TargetList i else none

end TargetInfo

/-- A creature with an ability in an instance, the party of each player, and who is in a cone. -/
structure Caster extends ActiveInstance where
  this : CreaturePtr
  member : this ∈ toActiveInstance.members
  getPartyWithMember : Int → Option ℕ := fun _ => none
  isTargetInCone : CreaturePtr → HalfAngle → Bool := fun _ _ => false

namespace Caster

variable (c : Caster)

/-- `CurrentTarget.targ`. -/
def targ : Option CreaturePtr := (c.creature c.this).targ

/-- `_ValidTargetFlag` of the caster. -/
def valid (abilityRestrict : TargetStatus) (p : CreaturePtr) : Bool :=
  c.validTargetFlag c.this p abilityRestrict

/-- The three loops that add the creatures of an area. -/
def addLoops (test : CreaturePtr → Bool) (results : List CreaturePtr) : List CreaturePtr :=
  results ++ c.NPCListPtr.filter test ++ c.PlayerListPtr.filter test ++
    c.SidekickListPtr.filter test

/-- `AddTargetsST`. -/
def addTargetsST (abilityRestrict : TargetStatus) (results : List CreaturePtr) :
    List CreaturePtr :=
  match c.targ with
  | some targ =>
      if c.valid abilityRestrict targ then results ++ [targ]
      else if c.this ≠ targ then
        if c.valid abilityRestrict c.this then results ++ [c.this] else results
      else results
  | none => if c.valid abilityRestrict c.this then results ++ [c.this] else results

/-- `AddTargetsConeAngle`. -/
def addTargetsConeAngle (abilityRestrict : TargetStatus) (distance : Int) (halfAngle : HalfAngle)
    (results : List CreaturePtr) : List CreaturePtr :=
  c.addLoops (fun p => c.valid abilityRestrict p && c.isObjectInRange c.this p distance &&
    c.isTargetInCone p halfAngle) results

/-- `AddTargetsGTAE`. -/
def addTargetsGTAE (ab : TargetInfo) (abilityRestrict : TargetStatus) (distance : Int)
    (results : List CreaturePtr) : List CreaturePtr :=
  c.addLoops (fun p => c.valid abilityRestrict p && c.isSelfNearPoint p ab.x ab.z distance) results

/-- `AddTargetsPBAE`. -/
def addTargetsPBAE (abilityRestrict : TargetStatus) (distance : Int) (results : List CreaturePtr) :
    List CreaturePtr :=
  c.addLoops (fun p => c.valid abilityRestrict p && c.isObjectInRange c.this p distance) results

/-- `AddTargetsSTAE`. -/
def addTargetsSTAE (abilityRestrict : TargetStatus) (distance : Int) (results : List CreaturePtr) :
    List CreaturePtr :=
  match c.targ with
  | none => results
  | some targ =>
      c.addLoops (fun p => c.valid abilityRestrict p && c.isObjectInRange c.this p distance)
        (results ++ [targ])

/-- `AddTargetsSTXAE`. -/
def addTargetsSTXAE (abilityRestrict : TargetStatus) (distance : Int)
    (results : List CreaturePtr) : List CreaturePtr :=
  match c.targ with
  | none => results
  | some targ =>
      c.addLoops (fun p => decide (p ≠ targ) && (c.valid abilityRestrict p &&
        c.isObjectInRange c.this p distance)) results

/-- A player of the party of the caster, within the distance. -/
def inMyParty (distance : Int) (p : CreaturePtr) : Bool :=
  (c.creature c.this).isPlayer && (c.getPartyWithMember (c.creature c.this).CreatureDefID).isSome &&
    decide ((c.creature p).CreatureDefID ≠ (c.creature c.this).CreatureDefID) &&
    c.isObjectInRange c.this p distance &&
    decide (c.getPartyWithMember (c.creature c.this).CreatureDefID =
      c.getPartyWithMember (c.creature p).CreatureDefID)

/-- `AddTargetsParty`. -/
def addTargetsParty (distance : Int) (results : List CreaturePtr) : List CreaturePtr :=
  results ++ c.PlayerListPtr.filter (c.inMyParty distance) ++ [c.this] ++
    c.SidekickListPtr.filter fun p => decide ((c.creature p).AnchorObject = some c.this)

/-- `AddTargetsSTP`. -/
def addTargetsSTP (abilityRestrict : TargetStatus) (results : List CreaturePtr) :
    List CreaturePtr :=
  match c.targ with
  | none => results ++ [c.this]
  | some targ => if c.valid abilityRestrict targ then results ++ [targ] else results

/-- What `EnumerateTargets` finds. -/
def searchResults (ab : TargetInfo) (targetType : TargetType) (targetFilter : TargetStatus)
    (distance : Int) : List CreaturePtr :=
  match targetType with
  | .Self => [c.this]
  | .ST => c.addTargetsST targetFilter []
  | .Party => c.addTargetsParty distance []
  | .Cone180 => c.addTargetsConeAngle targetFilter distance .Cone_180 []
  | .Cone90 => c.addTargetsConeAngle targetFilter distance .Cone_90 []
  | .GTAE => c.addTargetsGTAE ab targetFilter distance []
  | .PBAE => c.addTargetsPBAE targetFilter distance []
  | .STAE => c.addTargetsSTAE targetFilter distance []
  | .STXAE => c.addTargetsSTXAE targetFilter distance []
  | .STP => c.addTargetsSTP targetFilter []
  | .None | .Implicit => []

/-- `EnumerateTargets`, with the slot of the ability. -/
def enumerateTargets (ab : TargetInfo) (targetType : TargetType) (targetFilter : TargetStatus)
    (distance : Int) : TargetInfo :=
  let searchResults := c.searchResults ab targetType targetFilter distance
  if searchResults.length = 0 then ab.clearTargetList else ab.transferTargets searchResults

/-! ### What is to hold -/

/-- Whom a target type includes by definition. -/
def byDefinition (targetType : TargetType) (distance : Int) (p : CreaturePtr) : Bool :=
  match targetType with
  | .Self => decide (p = c.this)
  | .Party =>
      decide (p = c.this) || decide (p ∈ c.PlayerListPtr.filter (c.inMyParty distance)) ||
        decide (p ∈ c.SidekickListPtr ∧ (c.creature p).AnchorObject = some c.this)
  | .STP => decide (c.targ = none ∧ p = c.this)
  | _ => false

/-- The area of a target type: the two around the current target do not reach around the caster. -/
def inArea (ab : TargetInfo) (targetType : TargetType) (targetFilter : TargetStatus)
    (distance : Int) (p : CreaturePtr) : Bool :=
  match targetType with
  | .ST =>
      decide (c.targ = some p) || (decide (p = c.this) && !c.targ.any (c.valid targetFilter))
  | .Cone180 => c.isObjectInRange c.this p distance && c.isTargetInCone p .Cone_180
  | .Cone90 => c.isObjectInRange c.this p distance && c.isTargetInCone p .Cone_90
  | .GTAE => c.isSelfNearPoint p ab.x ab.z distance
  | .PBAE => c.isObjectInRange c.this p distance
  | .STAE => c.targ.any fun targ => c.isObjectInRange targ p distance
  | .STXAE => c.targ.any fun targ => decide (p ≠ targ) && c.isObjectInRange targ p distance
  | .STP => decide (c.targ = some p)
  | .None | .Self | .Party | .Implicit => false

/-- A creature with health left. -/
def living (p : CreaturePtr) : Bool := decide (0 < (c.creature p).health)

/-- The part of a target type and a filter in a target. -/
def fits (ab : TargetInfo) (targetType : TargetType) (targetFilter : TargetStatus)
    (distance : Int) (p : CreaturePtr) : Bool :=
  c.byDefinition targetType distance p ||
    (c.valid targetFilter p && c.inArea ab targetType targetFilter distance p)

/-- The creatures that qualify. -/
def qualified (ab : TargetInfo) (targetType : TargetType) (targetFilter : TargetStatus)
    (distance : Int) : List CreaturePtr :=
  c.members.filter fun p => c.living p && c.fits ab targetType targetFilter distance p

/-- A list of targets is a set that obeys the filter. -/
structure Obeys (ab : TargetInfo) (targetType : TargetType) (targetFilter : TargetStatus)
    (distance : Int) (listed : List CreaturePtr) : Prop where
  length : listed.length ≤ MAXTARGET
  distinct : listed.Nodup
  living : ∀ p ∈ listed, p ∈ c.members ∧ c.living p = true
  fits : ∀ p ∈ listed, c.fits ab targetType targetFilter distance p = true
  complete : (c.qualified ab targetType targetFilter distance).length < MAXTARGET →
    ∀ p ∈ c.qualified ab targetType targetFilter distance, p ∈ listed

/-! ### The table -/

/-- What the first places of a list hold. -/
theorem filterMap_getElem? (results : List CreaturePtr) (n : ℕ) :
    ((List.finRange n).filterMap fun (i : Fin n) => results[(i : ℕ)]?) = results.take n := by
  induction n generalizing results with
  | zero => rfl
  | succ n ih =>
    rw [List.finRange_succ, List.filterMap_cons, List.filterMap_map]
    cases results with
    | nil => simp
    | cons p rest => exact congrArg (p :: ·) (ih rest)

theorem targetCount_transferTargets (results : List CreaturePtr) (ab : TargetInfo) :
    (ab.transferTargets results).TargetCount = min results.length MAXTARGET := by
  simp only [TargetInfo.transferTargets]
  split
  · exact (min_eq_right (Nat.le_of_lt ‹_›)).symm
  · exact (min_eq_left (Nat.le_of_not_lt ‹_›)).symm

theorem entries_transferTargets (results : List CreaturePtr) (ab : TargetInfo) :
    (ab.transferTargets results).entries = results.take MAXTARGET := by
  rw [← filterMap_getElem?]
  refine List.filterMap_congr fun i _ => ?_
  rcases lt_or_ge (i : ℕ) results.length with hin | hout
  · have hcount : (i : ℕ) < (ab.transferTargets results).TargetCount := by
      rw [targetCount_transferTargets]
      exact lt_min hin i.isLt
    exact (if_pos hcount).trans (if_pos hcount)
  · have hcount : ¬ (i : ℕ) < (ab.transferTargets results).TargetCount := by
      rw [targetCount_transferTargets]
      exact fun h => absurd (lt_min_iff.mp h).1 (Nat.not_lt.mpr hout)
    exact (if_neg hcount).trans (List.getElem?_eq_none hout).symm

theorem entries_clearTargetList (ab : TargetInfo) : ab.clearTargetList.entries = [] :=
  List.filterMap_eq_nil_iff.mpr fun i _ => if_neg (Nat.not_lt_zero i)

/-- The table holds the first of what is found. -/
theorem entries_enumerateTargets (ab : TargetInfo) (targetType : TargetType)
    (targetFilter : TargetStatus) (distance : Int) :
    (c.enumerateTargets ab targetType targetFilter distance).entries =
      (c.searchResults ab targetType targetFilter distance).take MAXTARGET := by
  unfold enumerateTargets
  simp only
  split
  case isTrue hempty =>
    rw [List.length_eq_zero_iff.mp hempty, List.take_nil, entries_clearTargetList]
  case isFalse => exact entries_transferTargets _ ab

/-! ### Lists that are cut -/

section Listed

variable {c} {ab : TargetInfo} {targetType : TargetType} {targetFilter : TargetStatus}
  {distance : Int}

theorem mem_qualified {p : CreaturePtr} : p ∈ c.qualified ab targetType targetFilter distance ↔
    p ∈ c.members ∧ c.living p = true ∧
      c.fits ab targetType targetFilter distance p = true := by
  rw [qualified, List.mem_filter, Bool.and_eq_true]

/-- A list that is cut is right if what is left are different creatures that qualify and, with few
of them, all were there before the cut. -/
theorem obeys_take_iff {found : List CreaturePtr} :
    c.Obeys ab targetType targetFilter distance (found.take MAXTARGET) ↔
      (found.take MAXTARGET).Nodup ∧
      (∀ p ∈ found.take MAXTARGET, p ∈ c.qualified ab targetType targetFilter distance) ∧
      ((c.qualified ab targetType targetFilter distance).length < MAXTARGET →
        ∀ p ∈ c.qualified ab targetType targetFilter distance, p ∈ found) := by
  constructor
  · intro h
    refine ⟨h.distinct, fun p hp => ?_,
      fun hfew p hp => List.mem_of_mem_take (h.complete hfew p hp)⟩
    exact mem_qualified.mpr ⟨(h.living p hp).1, (h.living p hp).2, h.fits p hp⟩
  · intro ⟨hnodup, hqualified, hall⟩
    refine ⟨List.length_take_le _ _, hnodup, fun p hp => ?_, fun p hp => ?_, fun hfew p hp => ?_⟩
    · exact ⟨(mem_qualified.mp (hqualified p hp)).1, (mem_qualified.mp (hqualified p hp)).2.1⟩
    · exact (mem_qualified.mp (hqualified p hp)).2.2
    · -- with few creatures that qualify nothing was cut off
      have hlength : (found.take MAXTARGET).length ≤
          (c.qualified ab targetType targetFilter distance).length :=
        (hnodup.subperm hqualified).length_le
      have hshort : found.length ≤ MAXTARGET := by
        rw [List.length_take] at hlength
        omega
      exact (List.take_of_length_le hshort).symm ▸ hall hfew p hp

/-- A search that finds different creatures and whoever qualifies is right if it finds living
members of the instance that fit. -/
theorem obeys_take_iff_of_subset {found : List CreaturePtr} (hnodup : found.Nodup)
    (hfits : ∀ p ∈ found, c.fits ab targetType targetFilter distance p = true)
    (hall : ∀ p ∈ c.members, c.fits ab targetType targetFilter distance p = true → p ∈ found) :
    c.Obeys ab targetType targetFilter distance (found.take MAXTARGET) ↔
      ∀ p ∈ found.take MAXTARGET, p ∈ c.members ∧ c.living p = true := by
  rw [obeys_take_iff]
  constructor
  · intro ⟨_, hqualified, _⟩ p hp
    exact ⟨(mem_qualified.mp (hqualified p hp)).1, (mem_qualified.mp (hqualified p hp)).2.1⟩
  · intro hliving
    refine ⟨hnodup.sublist (List.take_sublist _ _), fun p hp => ?_, fun _ p hp => ?_⟩
    · exact mem_qualified.mpr
        ⟨(hliving p hp).1, (hliving p hp).2, hfits p (List.mem_of_mem_take hp)⟩
    · exact hall p (mem_qualified.mp hp).1 (mem_qualified.mp hp).2.2

end Listed

/-! ### The loops -/

theorem addLoops_eq (test : CreaturePtr → Bool) (results : List CreaturePtr) :
    c.addLoops test results = results ++ c.members.filter test := by
  unfold addLoops ActiveInstance.members
  rw [List.filter_append, List.filter_append, List.append_assoc, List.append_assoc,
    List.append_assoc]

/-- The area types around the caster or a place find whoever fits. -/
theorem obeys_area_iff {ab : TargetInfo} {targetType : TargetType} {targetFilter : TargetStatus}
    {distance : Int} {test : CreaturePtr → Bool}
    (htest : ∀ p, c.fits ab targetType targetFilter distance p = test p) :
    c.Obeys ab targetType targetFilter distance ((c.addLoops test []).take MAXTARGET) ↔
      ∀ p ∈ (c.members.filter test).take MAXTARGET, c.living p = true := by
  rw [addLoops_eq, List.nil_append,
    obeys_take_iff_of_subset (ActiveInstance.nodup_members.filter test)
    (fun p hp => (htest p).trans (List.mem_filter.mp hp).2)
    (fun p hp hfits => List.mem_filter.mpr ⟨hp, (htest p).symm.trans hfits⟩)]
  refine forall₂_congr fun p hp => and_iff_right ?_
  exact (List.mem_filter.mp (List.mem_of_mem_take hp)).1

/-- The creatures that pass the filter and are in the range of the caster. -/
def aroundCaster (targetFilter : TargetStatus) (distance : Int) : List CreaturePtr :=
  c.members.filter fun p => c.valid targetFilter p && c.isObjectInRange c.this p distance

/-- The members of the party that a party ability finds. -/
def partyPlayers (distance : Int) : List CreaturePtr :=
  c.PlayerListPtr.filter (c.inMyParty distance)

/-- The sidekicks of the caster. -/
def ownSidekicks : List CreaturePtr :=
  c.SidekickListPtr.filter fun p => decide ((c.creature p).AnchorObject = some c.this)

/-- What the search of an ability finds is right: for the types that take the creatures around the
current target, the target is not found a second time, and the range around the caster makes no
difference. -/
def Right (ab : TargetInfo) (targetType : TargetType) (targetFilter : TargetStatus)
    (distance : Int) : Prop :=
  match targetType with
  | .None | .Implicit => True
  | .Self => c.living c.this = true
  | .ST =>
      (∀ targ, c.targ = some targ → c.valid targetFilter targ = true →
        targ ∈ c.members ∧ c.living targ = true) ∧
      (c.targ.any (c.valid targetFilter) = false → c.valid targetFilter c.this = true →
        c.living c.this = true)
  | .STP =>
      (∀ targ, c.targ = some targ → c.valid targetFilter targ = true →
        targ ∈ c.members ∧ c.living targ = true) ∧
      (c.targ = none → c.living c.this = true)
  | .Party =>
      c.this ∉ c.ownSidekicks.take (MAXTARGET - 1 - (c.partyPlayers distance).length) ∧
      ∀ p ∈ (c.partyPlayers distance ++ c.this :: c.ownSidekicks).take MAXTARGET,
        c.living p = true
  | .Cone180 | .Cone90 | .GTAE | .PBAE =>
      ∀ p ∈ (c.members.filter fun p => c.valid targetFilter p &&
        c.inArea ab targetType targetFilter distance p).take MAXTARGET, c.living p = true
  | .STAE =>
      ∀ targ, c.targ = some targ →
        (targ ∈ c.members ∧ c.living targ = true ∧ c.valid targetFilter targ = true) ∧
        targ ∉ (c.aroundCaster targetFilter distance).take (MAXTARGET - 1) ∧
        (∀ p ∈ (c.aroundCaster targetFilter distance).take (MAXTARGET - 1),
          c.living p = true ∧ c.isObjectInRange targ p distance = true) ∧
        ((c.qualified ab .STAE targetFilter distance).length < MAXTARGET →
          ∀ p ∈ c.qualified ab .STAE targetFilter distance, p ≠ targ →
            c.isObjectInRange c.this p distance = true)
  | .STXAE =>
      ∀ targ, c.targ = some targ →
        (∀ p ∈ ((c.aroundCaster targetFilter distance).filter fun p => decide (p ≠ targ)).take
          MAXTARGET, c.living p = true ∧ c.isObjectInRange targ p distance = true) ∧
        ((c.qualified ab .STXAE targetFilter distance).length < MAXTARGET →
          ∀ p ∈ c.qualified ab .STXAE targetFilter distance,
            c.isObjectInRange c.this p distance = true)

/-! ### The target types -/

section Types

variable {c} {ab : TargetInfo} {targetType : TargetType} {targetFilter : TargetStatus}
  {distance : Int}

/-- A search that finds nobody is right if nobody fits. -/
theorem obeys_nil (hnone : ∀ p ∈ c.members, c.fits ab targetType targetFilter distance p = false) :
    c.Obeys ab targetType targetFilter distance (([] : List CreaturePtr).take MAXTARGET) := by
  refine (obeys_take_iff_of_subset List.nodup_nil (fun p hp => ?_) (fun p hp hfits => ?_)).mpr
    (fun p hp => ?_)
  · exact absurd hp (List.not_mem_nil)
  · exact absurd ((hnone p hp).symm.trans hfits) Bool.false_ne_true
  · exact absurd hp (List.not_mem_nil)

/-- A search that finds the only creature that fits. -/
theorem obeys_single_iff {q : CreaturePtr}
    (hfits : c.fits ab targetType targetFilter distance q = true)
    (honly : ∀ p, c.fits ab targetType targetFilter distance p = true → p = q) :
    c.Obeys ab targetType targetFilter distance ([q].take MAXTARGET) ↔
      q ∈ c.members ∧ c.living q = true := by
  rw [obeys_take_iff_of_subset (List.nodup_singleton q)
    (fun p hp => (List.mem_singleton.mp hp).symm ▸ hfits)
    (fun p _ hp => List.mem_singleton.mpr (honly p hp))]
  exact List.forall_mem_singleton

theorem fits_ST {p : CreaturePtr} : c.fits ab .ST targetFilter distance p = true ↔
    c.valid targetFilter p = true ∧
      (c.targ = some p ∨ p = c.this ∧ c.targ.any (c.valid targetFilter) = false) := by
  simp [fits, byDefinition, inArea]

theorem fits_STP {p : CreaturePtr} : c.fits ab .STP targetFilter distance p = true ↔
    (c.targ = none ∧ p = c.this) ∨ c.valid targetFilter p = true ∧ c.targ = some p := by
  simp [fits, byDefinition, inArea]

/-- Without a valid current target the ability falls back on the caster. -/
theorem addTargetsST_fallback (hinvalid : c.targ.any (c.valid targetFilter) = false) :
    c.addTargetsST targetFilter [] = if c.valid targetFilter c.this then [c.this] else [] := by
  unfold addTargetsST
  cases htarg : c.targ with
  | none => rfl
  | some targ =>
    have hnot : c.valid targetFilter targ = false := by
      rw [htarg] at hinvalid
      exact hinvalid
    simp only [hnot, Bool.false_eq_true, if_false]
    by_cases hself : c.this = targ
    · rw [if_neg (not_not_intro hself), hself, hnot]
      rfl
    · rw [if_pos hself]
      rfl

theorem obeys_ST_iff :
    c.Obeys ab .ST targetFilter distance ((c.addTargetsST targetFilter []).take MAXTARGET) ↔
      c.Right ab .ST targetFilter distance := by
  cases hany : c.targ.any (c.valid targetFilter) with
  | true =>
    obtain ⟨targ, htarg, hvalid⟩ := (Option.any_eq_true _ _).mp hany
    have hfound : c.addTargetsST targetFilter [] = [targ] := by
      simp [addTargetsST, htarg, hvalid]
    rw [hfound, obeys_single_iff (fits_ST.mpr ⟨hvalid, Or.inl htarg⟩)]
    · constructor
      · intro h
        refine ⟨fun t ht _ => ?_, fun hfalse => ?_⟩
        · exact Option.some_injective _ (ht.symm.trans htarg) ▸ h
        · exact absurd (hany.symm.trans hfalse) Bool.true_eq_false.mp
      · exact fun h => h.1 targ htarg hvalid
    · intro p hp
      rcases (fits_ST.mp hp).2 with ht | ⟨_, hfalse⟩
      · exact Option.some_injective _ (ht.symm.trans htarg)
      · exact absurd (hany.symm.trans hfalse) Bool.true_eq_false.mp
  | false =>
    have honly : ∀ p, c.fits ab .ST targetFilter distance p = true →
        p = c.this ∧ c.valid targetFilter p = true := by
      intro p hp
      obtain ⟨hvalid, ht | ⟨hself, _⟩⟩ := fits_ST.mp hp
      · rw [ht] at hany
        exact absurd (hvalid.symm.trans hany) Bool.true_eq_false.mp
      · exact ⟨hself, hvalid⟩
    have hfirst : ∀ targ, c.targ = some targ → c.valid targetFilter targ = true →
        targ ∈ c.members ∧ c.living targ = true := by
      intro targ ht hvalid
      rw [ht] at hany
      exact absurd (hvalid.symm.trans hany) Bool.true_eq_false.mp
    rw [addTargetsST_fallback hany]
    cases hself : c.valid targetFilter c.this with
    | true =>
      rw [if_pos rfl, obeys_single_iff (fits_ST.mpr ⟨hself, Or.inr ⟨rfl, hany⟩⟩)
        fun p hp => (honly p hp).1]
      exact ⟨fun h => ⟨hfirst, fun _ _ => h.2⟩, fun h => ⟨c.member, h.2 hany hself⟩⟩
    | false =>
      rw [if_neg Bool.false_ne_true]
      refine iff_of_true (obeys_nil fun p _ => ?_) ⟨hfirst, fun _ h => ?_⟩
      · refine Bool.eq_false_iff.mpr fun hp => ?_
        obtain ⟨rfl, hvalid⟩ := honly p hp
        exact absurd (hvalid.symm.trans hself) Bool.true_eq_false.mp
      · exact absurd (h.symm.trans hself) Bool.true_eq_false.mp

theorem obeys_STP_iff :
    c.Obeys ab .STP targetFilter distance ((c.addTargetsSTP targetFilter []).take MAXTARGET) ↔
      c.Right ab .STP targetFilter distance := by
  unfold addTargetsSTP
  cases htarg : c.targ with
  | none =>
    simp only [List.nil_append]
    rw [obeys_single_iff (fits_STP.mpr (Or.inl ⟨htarg, rfl⟩))]
    · constructor
      · exact fun h => ⟨fun t ht => absurd (htarg.symm.trans ht) (Option.some_ne_none t).symm,
          fun _ => h.2⟩
      · exact fun h => ⟨c.member, h.2 htarg⟩
    · intro p hp
      rcases fits_STP.mp hp with ⟨_, hself⟩ | ⟨_, ht⟩
      · exact hself
      · exact absurd (htarg.symm.trans ht) (Option.some_ne_none p).symm
  | some targ =>
    simp only [List.nil_append]
    have honly : ∀ p, c.fits ab .STP targetFilter distance p = true →
        p = targ ∧ c.valid targetFilter p = true := by
      intro p hp
      rcases fits_STP.mp hp with ⟨hnone, _⟩ | ⟨hvalid, ht⟩
      · exact absurd (htarg.symm.trans hnone) (Option.some_ne_none targ)
      · exact ⟨Option.some_injective _ (ht.symm.trans htarg), hvalid⟩
    cases hvalid : c.valid targetFilter targ with
    | true =>
      rw [if_pos rfl, obeys_single_iff (fits_STP.mpr (Or.inr ⟨hvalid, htarg⟩))
        fun p hp => (honly p hp).1]
      constructor
      · intro h
        refine ⟨fun t ht _ => ?_, fun hnone => ?_⟩
        · exact Option.some_injective _ (ht.symm.trans htarg) ▸ h
        · exact absurd (htarg.symm.trans hnone) (Option.some_ne_none targ)
      · exact fun h => h.1 targ htarg hvalid
    | false =>
      rw [if_neg Bool.false_ne_true]
      refine iff_of_true (obeys_nil fun p _ => ?_) ⟨fun t ht hvalid' => ?_, fun hnone => ?_⟩
      · refine Bool.eq_false_iff.mpr fun hp => ?_
        obtain ⟨rfl, hvalid'⟩ := honly p hp
        exact absurd (hvalid'.symm.trans hvalid) Bool.true_eq_false.mp
      · obtain rfl := Option.some_injective _ (ht.symm.trans htarg)
        exact absurd (hvalid'.symm.trans hvalid) Bool.true_eq_false.mp
      · exact absurd (htarg.symm.trans hnone) (Option.some_ne_none targ)

/-- What is left of a list with a creature in its middle, after a cut. -/
theorem nodup_take_append_cons {front back : List CreaturePtr} {p : CreaturePtr}
    (hfront : front.Nodup) (hback : back.Nodup) (hp : p ∉ front)
    (hdisjoint : ∀ a ∈ front, a ∉ back) (n : ℕ) :
    ((front ++ p :: back).take (n + 1)).Nodup ↔ p ∉ back.take (n - front.length) := by
  rw [List.take_append]
  rcases Nat.lt_or_ge n front.length with hlong | hshort
  · rw [Nat.sub_eq_zero_of_le hlong, Nat.sub_eq_zero_of_le hlong.le, List.take_zero, List.take_zero,
      List.append_nil]
    exact iff_of_true (hfront.sublist (List.take_sublist _ _)) List.not_mem_nil
  · rw [Nat.succ_sub hshort, List.take_succ_cons, List.take_of_length_le (Nat.le_succ_of_le hshort),
      List.nodup_append, List.nodup_cons]
    constructor
    · exact fun h => h.2.1.1
    · intro h
      refine ⟨hfront, ⟨h, hback.sublist (List.take_sublist _ _)⟩, fun a ha b hb hab => ?_⟩
      rcases List.mem_cons.mp hb with rfl | hb
      · exact hp (hab ▸ ha)
      · exact hdisjoint a ha (hab ▸ List.mem_of_mem_take hb)

theorem fits_Party {p : CreaturePtr} : c.fits ab .Party targetFilter distance p = true ↔
    p ∈ c.partyPlayers distance ++ c.this :: c.ownSidekicks := by
  simp [fits, byDefinition, inArea, partyPlayers, ownSidekicks, or_left_comm, or_assoc]

theorem this_notMem_partyPlayers : c.this ∉ c.partyPlayers distance := by
  intro h
  have htest := (List.mem_filter.mp h).2
  simp [inMyParty] at htest

theorem mem_members_of_party {p : CreaturePtr}
    (hp : p ∈ c.partyPlayers distance ++ c.this :: c.ownSidekicks) : p ∈ c.members := by
  rcases List.mem_append.mp hp with hp | hp
  · exact ActiveInstance.mem_members.mpr (Or.inr (Or.inl (List.mem_filter.mp hp).1))
  · rcases List.mem_cons.mp hp with rfl | hp
    · exact c.member
    · exact ActiveInstance.mem_members.mpr (Or.inr (Or.inr (List.mem_filter.mp hp).1))

theorem obeys_Party_iff :
    c.Obeys ab .Party targetFilter distance ((c.addTargetsParty distance []).take MAXTARGET) ↔
      c.Right ab .Party targetFilter distance := by
  have hfound : c.addTargetsParty distance [] =
      c.partyPlayers distance ++ c.this :: c.ownSidekicks := by
    unfold addTargetsParty
    rw [List.nil_append, List.append_assoc]
    rfl
  have hnodup := @nodup_take_append_cons (c.partyPlayers distance) c.ownSidekicks c.this
    ((ActiveInstance.nodup_members.sublist
      (List.sublist_append_right _ _ |>.trans (List.sublist_append_left _ _))).filter _)
    ((ActiveInstance.nodup_members.sublist (List.sublist_append_right _ _)).filter _)
    this_notMem_partyPlayers
    (fun a ha hb => (ActiveInstance.sidekick_notMem (List.mem_filter.mp hb).1).2
      (List.mem_filter.mp ha).1)
    (MAXTARGET - 1)
  rw [hfound, obeys_take_iff]
  refine and_congr hnodup ⟨fun h p hp => ?_, fun h => ⟨fun p hp => ?_, fun _ p hp => ?_⟩⟩
  · exact (mem_qualified.mp (h.1 p hp)).2.1
  · have hmem := List.mem_of_mem_take hp
    exact mem_qualified.mpr ⟨mem_members_of_party hmem, h p hp, fits_Party.mpr hmem⟩
  · exact fits_Party.mp (mem_qualified.mp hp).2.2

theorem isObjectInRange_self (p : CreaturePtr) : c.isObjectInRange p p distance = true := if_pos rfl

theorem mem_aroundCaster {p : CreaturePtr} : p ∈ c.aroundCaster targetFilter distance ↔
    p ∈ c.members ∧ c.valid targetFilter p = true ∧
      c.isObjectInRange c.this p distance = true := by
  rw [aroundCaster, List.mem_filter, Bool.and_eq_true]

theorem fits_STAE {targ p : CreaturePtr} (htarg : c.targ = some targ) :
    c.fits ab .STAE targetFilter distance p = true ↔
      c.valid targetFilter p = true ∧ c.isObjectInRange targ p distance = true := by
  simp [fits, byDefinition, inArea, htarg]

theorem fits_STXAE {targ p : CreaturePtr} (htarg : c.targ = some targ) :
    c.fits ab .STXAE targetFilter distance p = true ↔
      c.valid targetFilter p = true ∧ p ≠ targ ∧ c.isObjectInRange targ p distance = true := by
  simp [fits, byDefinition, inArea, htarg]

/-- The target is listed first, and again if it is among the first creatures around the caster. -/
theorem obeys_STAE_iff :
    c.Obeys ab .STAE targetFilter distance
        ((c.addTargetsSTAE targetFilter distance []).take MAXTARGET) ↔
      c.Right ab .STAE targetFilter distance := by
  unfold addTargetsSTAE
  cases htarg : c.targ with
  | none =>
    refine iff_of_true (obeys_nil fun p _ => ?_) fun targ h => ?_
    · simp [fits, byDefinition, inArea, htarg]
    · exact absurd (htarg.symm.trans h) (Option.some_ne_none targ).symm
  | some targ =>
    have hfound : c.addLoops (fun p => c.valid targetFilter p &&
        c.isObjectInRange c.this p distance) ([] ++ [targ]) =
          targ :: c.aroundCaster targetFilter distance := c.addLoops_eq _ _
    have hnodup : (c.aroundCaster targetFilter distance).Nodup :=
      ActiveInstance.nodup_members.filter _
    have htake : (targ :: c.aroundCaster targetFilter distance).take MAXTARGET =
        targ :: (c.aroundCaster targetFilter distance).take (MAXTARGET - 1) := rfl
    simp only [hfound]
    rw [obeys_take_iff, htake]
    constructor
    · intro ⟨hdistinct, hqualified, hall⟩ t ht
      obtain rfl := Option.some_injective _ (ht.symm.trans htarg)
      refine ⟨?_, (List.nodup_cons.mp hdistinct).1, fun p hp => ?_, fun hfew p hp hne => ?_⟩
      · have hself := mem_qualified.mp (hqualified t List.mem_cons_self)
        exact ⟨hself.1, hself.2.1, ((fits_STAE htarg).mp hself.2.2).1⟩
      · have hother := mem_qualified.mp (hqualified p (List.mem_cons_of_mem _ hp))
        exact ⟨hother.2.1, ((fits_STAE htarg).mp hother.2.2).2⟩
      · exact (mem_aroundCaster.mp
          ((List.mem_cons.mp (hall hfew p hp)).resolve_left hne)).2.2
    · intro h
      obtain ⟨⟨hmem, hliving, hvalid⟩, hnot, haround, hfar⟩ := h targ htarg
      refine ⟨List.nodup_cons.mpr ⟨hnot, hnodup.sublist (List.take_sublist _ _)⟩, fun p hp => ?_,
        fun hfew p hp => ?_⟩
      · rcases List.mem_cons.mp hp with rfl | hp
        · exact mem_qualified.mpr
            ⟨hmem, hliving, (fits_STAE htarg).mpr ⟨hvalid, isObjectInRange_self p⟩⟩
        · have hin := mem_aroundCaster.mp (List.mem_of_mem_take hp)
          exact mem_qualified.mpr
            ⟨hin.1, (haround p hp).1, (fits_STAE htarg).mpr ⟨hin.2.1, (haround p hp).2⟩⟩
      · by_cases hne : p = targ
        · exact hne ▸ List.mem_cons_self
        · have hp' := mem_qualified.mp hp
          exact List.mem_cons_of_mem _ (mem_aroundCaster.mpr
            ⟨hp'.1, ((fits_STAE htarg).mp hp'.2.2).1, hfar hfew p hp hne⟩)

theorem obeys_STXAE_iff :
    c.Obeys ab .STXAE targetFilter distance
        ((c.addTargetsSTXAE targetFilter distance []).take MAXTARGET) ↔
      c.Right ab .STXAE targetFilter distance := by
  unfold addTargetsSTXAE
  cases htarg : c.targ with
  | none =>
    refine iff_of_true (obeys_nil fun p _ => ?_) fun targ h => ?_
    · simp [fits, byDefinition, inArea, htarg]
    · exact absurd (htarg.symm.trans h) (Option.some_ne_none targ).symm
  | some targ =>
    have hfound : c.addLoops (fun p => decide (p ≠ targ) && (c.valid targetFilter p &&
        c.isObjectInRange c.this p distance)) [] =
          (c.aroundCaster targetFilter distance).filter fun p => decide (p ≠ targ) := by
      rw [addLoops_eq, List.nil_append, aroundCaster, List.filter_filter]
    have hnodup : ((c.aroundCaster targetFilter distance).filter
        fun p => decide (p ≠ targ)).Nodup := (ActiveInstance.nodup_members.filter _).filter _
    have hmem : ∀ p, p ∈ (c.aroundCaster targetFilter distance).filter
        (fun p => decide (p ≠ targ)) ↔ (p ∈ c.members ∧ c.valid targetFilter p = true ∧
          c.isObjectInRange c.this p distance = true) ∧ p ≠ targ := by
      intro p
      rw [List.mem_filter, mem_aroundCaster, decide_eq_true_eq]
    simp only [hfound]
    rw [obeys_take_iff]
    constructor
    · intro ⟨_, hqualified, hall⟩ t ht
      obtain rfl := Option.some_injective _ (ht.symm.trans htarg)
      refine ⟨fun p hp => ?_, fun hfew p hp => ((hmem p).mp (hall hfew p hp)).1.2.2⟩
      have hother := mem_qualified.mp (hqualified p hp)
      exact ⟨hother.2.1, ((fits_STXAE htarg).mp hother.2.2).2.2⟩
    · intro h
      obtain ⟨haround, hfar⟩ := h targ htarg
      refine ⟨hnodup.sublist (List.take_sublist _ _), fun p hp => ?_, fun hfew p hp => ?_⟩
      · obtain ⟨⟨hin, hvalid, _⟩, hne⟩ := (hmem p).mp (List.mem_of_mem_take hp)
        exact mem_qualified.mpr ⟨hin, (haround p hp).1,
          (fits_STXAE htarg).mpr ⟨hvalid, hne, (haround p hp).2⟩⟩
      · obtain ⟨hin, _, hfits⟩ := mem_qualified.mp hp
        obtain ⟨hvalid, hne, _⟩ := (fits_STXAE htarg).mp hfits
        exact (hmem p).mpr ⟨⟨hin, hvalid, hfar hfew p hp⟩, hne⟩

end Types

end Caster

/-! ### A wolf and a sheep -/

/-- The wolf with pointer 1 aims at the sheep with pointer 2. -/
def hunt : Caster where
  creature p :=
    { CreatureID := p, Faction := if p = 1 then 1 else 0, targ := if p = 1 then some 2 else none }
  NPCListPtr := [1, 2]
  distinct := by decide
  ids := by decide
  this := 1
  member := List.mem_cons_self

end Iceee.Targets
