import Iceee.Instance.References

/-!
# Visits

What `RemoveCreatureReference` leaves of the references of one creature to another, visit after
visit: a creature is visited as often as the quick access lists name it.
-/

namespace Iceee.Instance

open Ability (ActiveAbilityInfo)

variable {c : CreaturePtr}

/-! ### One slot -/

/-- Visits empty a pending slot of a creature if there are as many of them as entries; they
never touch another slot. -/
def Released (visits : Nat) (c : CreaturePtr) (ab : ActiveAbilityInfo) : Prop :=
  if ab.bPending then ab.targetList.count (some c) ≤ visits else some c ∉ ab.targetList

theorem removeTarget_of_not_pending {ab : ActiveAbilityInfo} (h : ab.bPending = false) :
    removeTarget c ab = ab := by
  rw [removeTarget, h]
  rfl

theorem iterate_removeTarget_of_not_pending {ab : ActiveAbilityInfo} (h : ab.bPending = false)
    (k : Nat) : (removeTarget c)^[k] ab = ab :=
  Function.iterate_fixed (removeTarget_of_not_pending h) k

theorem not_mem_iterate_removeTarget {k : Nat} {ab : ActiveAbilityInfo} :
    some c ∉ ((removeTarget c)^[k] ab).targetList ↔ Released k c ab := by
  induction k generalizing ab with
  | zero =>
      unfold Released
      split
      · rw [Nat.le_zero, List.count_eq_zero]
        rfl
      · rfl
  | succ k ih =>
      cases hpending : ab.bPending with
      | false =>
          rw [iterate_removeTarget_of_not_pending hpending, Released, hpending]
          rfl
      | true =>
          rw [Function.iterate_succ_apply, ih, Released, Released, removeTarget, hpending]
          by_cases hempty : ab.targetList.erase (some c) = []
          · have hcount : ab.targetList.count (some c) ≤ 1 := by
              have hlength := congrArg List.length hempty
              have hle := List.count_le_length (a := some c) (l := ab.targetList)
              rw [List.length_erase] at hlength
              simp only [List.length_nil] at hlength
              split at hlength <;> omega
            simp [hempty]
            omega
          · simp only [if_true, if_neg hempty, List.count_erase_self]
            omega

/-! ### One creature -/

namespace CreatureInstance

variable {d : CreatureInstance} {sort : HateSort} {now : Nat} {players : List HateTarget}

/-- A creature that lost its target takes the same one again: it is a living creature other
than a player, and the target is the player it hates most. -/
def TurnsBack (d : CreatureInstance) (sort : HateSort) (now : Nat) (players : List HateTarget)
    (target : CreaturePtr) : Prop :=
  d.isPlayer = false ∧ d.dead = false ∧ ∃ h, d.hateProfile = some h ∧
    h.tauntReleaseTime ≤ now ∧ h.nextRefreshTime ≤ now ∧
      (d.findHated players (sort.sort h.hateList)).2 = some target

/-- `d'` is the creature `d` with the same mounts and the same anchor. -/
structure SameLinks (d d' : CreatureInstance) : Prop where
  hateTarget : d'.hateTarget = d.hateTarget
  isPlayer : d'.isPlayer = d.isPlayer
  mountedOn : d'.mountedOn = d.mountedOn
  mountedBy : d'.mountedBy = d.mountedBy
  anchorObject : d'.anchorObject = d.anchorObject

theorem SameLinks.refl (d : CreatureInstance) : SameLinks d d := ⟨rfl, rfl, rfl, rfl, rfl⟩

theorem SameLinks.trans {d' d'' : CreatureInstance} (h : SameLinks d d') (h' : SameLinks d' d'') :
    SameLinks d d'' where
  hateTarget := h'.hateTarget.trans h.hateTarget
  isPlayer := h'.isPlayer.trans h.isPlayer
  mountedOn := h'.mountedOn.trans h.mountedOn
  mountedBy := h'.mountedBy.trans h.mountedBy
  anchorObject := h'.anchorObject.trans h.anchorObject

theorem SameLinks.ptr {d' : CreatureInstance} (h : SameLinks d d') : d'.ptr = d.ptr :=
  congrArg HateTarget.ptr h.hateTarget

/-- `d'` is `d` up to its target, its first slot and what it knows of its hate. -/
structure SameBut (d d' : CreatureInstance) : Prop extends SameLinks d d' where
  ab1 : d'.ab1 = d.ab1

theorem SameBut.refl (d : CreatureInstance) : SameBut d d := ⟨SameLinks.refl d, rfl⟩

theorem SameBut.trans {d' d'' : CreatureInstance} (h : SameBut d d') (h' : SameBut d' d'') :
    SameBut d d'' :=
  ⟨h.toSameLinks.trans h'.toSameLinks, h'.ab1.trans h.ab1⟩

theorem selectTarget_sameBut (newTarget : Option CreaturePtr) :
    SameBut d (d.selectTarget newTarget) := by
  unfold selectTarget
  split
  · exact SameBut.refl d
  · split <;> exact ⟨⟨rfl, rfl, rfl, rfl, rfl⟩, rfl⟩

theorem checkMostHatedTarget_sameBut : SameBut d (d.checkMostHatedTarget sort now players) := by
  unfold checkMostHatedTarget
  simp only []
  split
  · exact ⟨⟨rfl, rfl, rfl, rfl, rfl⟩, rfl⟩
  · split
    · exact ⟨⟨rfl, rfl, rfl, rfl, rfl⟩, rfl⟩
    · split
      · exact ⟨⟨rfl, rfl, rfl, rfl, rfl⟩, rfl⟩
      · apply SameBut.trans _ (selectTarget_sameBut _)
        exact ⟨⟨rfl, rfl, rfl, rfl, rfl⟩, rfl⟩

theorem dropTarget_sameBut : SameBut d (d.dropTarget sort now players) := by
  unfold dropTarget
  simp only []
  split
  · exact selectTarget_sameBut none
  · exact (selectTarget_sameBut none).trans checkMostHatedTarget_sameBut

theorem findHated_congr {d' : CreatureInstance} (hx : d'.currentX = d.currentX)
    (hz : d'.currentZ = d.currentZ) (l : List HateCreatureData) :
    d'.findHated players l = d.findHated players l := by
  have hrange (t) : d'.inAggroRange t = d.inAggroRange t := by
    simp only [inAggroRange, hx, hz]
  induction l with
  | nil => rfl
  | cons entry rest ih => simp only [findHated, ih, hrange]

theorem TurnsBack.congr {d' : CreatureInstance} (hplayer : d'.isPlayer = d.isPlayer)
    (hdead : d'.dead = d.dead) (hprofile : d'.hateProfile = d.hateProfile)
    (hx : d'.currentX = d.currentX) (hz : d'.currentZ = d.currentZ) :
    d'.TurnsBack sort now players c ↔ d.TurnsBack sort now players c := by
  simp only [TurnsBack, hplayer, hdead, hprofile, findHated_congr hx hz]

/-- Whether a creature turns back is no matter of its target or its slots. -/
theorem turnsBack_congr (targ : Option CreaturePtr) (ab0 ab1 : ActiveAbilityInfo) :
    { d with targ, ab0, ab1 }.TurnsBack sort now players c ↔ d.TurnsBack sort now players c := by
  apply TurnsBack.congr
  all_goals rfl

/-- A creature without a target and without a pending ability takes the player it hates most
and asks no sooner than after the next refresh. -/
theorem checkMostHatedTarget_free (htarg : d.targ = none) (hab : d.ab0.bPending = false)
    (hplayer : d.isPlayer = false) :
    (d.checkMostHatedTarget sort now players).ab0 = d.ab0 ∧
      ((d.checkMostHatedTarget sort now players).targ = some c ↔ d.TurnsBack sort now players c) ∧
      (d.TurnsBack sort now players c →
        ¬(d.checkMostHatedTarget sort now players).TurnsBack sort now players c) := by
  unfold checkMostHatedTarget TurnsBack
  cases hprofile : d.hateProfile with
  | none => simp [htarg]
  | some h =>
      simp only [Option.some.injEq, exists_eq_left']
      split
      · rename_i hearly
        simp [htarg]
        omega
      · rename_i hdue
        have hlater : ¬now + REFRESH_DELAY ≤ now := by simp [REFRESH_DELAY]
        generalize sort.sort h.hateList = sorted
        cases hfound : (d.findHated players sorted).2 with
        | none => simp [htarg]
        | some t =>
            have ht : h.tauntReleaseTime ≤ now ∧ h.nextRefreshTime ≤ now := by omega
            cases hdead : d.dead with
            | true => simp [htarg, selectTarget]
            | false => simp [htarg, selectTarget, hplayer, hab, ht, hlater]

/-- The visit cancels the ability in the first slot along with the target. -/
def Cancelled (d : CreatureInstance) (target : CreaturePtr) : Prop :=
  d.targ = some target ∧ d.isPlayer = false ∧ d.ab0.bPending = true

theorem selectTarget_none (htarg : d.targ = some c) :
    d.selectTarget none =
      { d with
        targ := none
        ab0 := if d.isPlayer = false ∧ d.ab0.bPending then d.ab0.clear else d.ab0 } := by
  simp only [selectTarget, htarg, reduceCtorEq, Option.isSome_none, Bool.false_eq_true,
    false_and, or_self, if_false]
  split <;> rfl

theorem dropTarget_targ (htarg : d.targ = some c) :
    (d.dropTarget sort now players).ab0 =
        (if d.isPlayer = false ∧ d.ab0.bPending then d.ab0.clear else d.ab0) ∧
      ((d.dropTarget sort now players).targ = some c ↔ d.TurnsBack sort now players c) ∧
      (d.TurnsBack sort now players c →
        ¬(d.dropTarget sort now players).TurnsBack sort now players c) := by
  rw [dropTarget, selectTarget_none htarg]
  by_cases hplayer : d.isPlayer = true
  · simp [TurnsBack, hplayer]
  · rw [Bool.not_eq_true] at hplayer
    generalize hab : (if d.isPlayer = false ∧ d.ab0.bPending then d.ab0.clear else d.ab0) = ab0
    have hpending : ab0.bPending = false := by
      rw [← hab]
      split
      · rfl
      · simp_all
    have hfree := @checkMostHatedTarget_free c { d with targ := none, ab0 } sort now players rfl
      hpending hplayer
    rw [turnsBack_congr] at hfree
    simpa only [hplayer, Bool.false_eq_true, if_false] using hfree

/-! ### One visit -/

section

variable {d : CreatureInstance} {sort : HateSort} {now : Nat} {players : List HateTarget}

theorem removeCreatureReference_sameLinks :
    SameLinks d (d.removeCreatureReference sort now players c) := by
  unfold removeCreatureReference
  simp only []
  split
  · have h := @dropTarget_sameBut d sort now players
    exact ⟨h.hateTarget, h.isPlayer, h.mountedOn, h.mountedBy, h.anchorObject⟩
  · exact ⟨rfl, rfl, rfl, rfl, rfl⟩

theorem ab1_removeCreatureReference :
    (d.removeCreatureReference sort now players c).ab1 = removeTarget c d.ab1 := by
  unfold removeCreatureReference
  simp only []
  split
  · rw [dropTarget_sameBut.ab1]
  · rfl

theorem targ_removeCreatureReference :
    (d.removeCreatureReference sort now players c).targ = some c ↔
      d.targ = some c ∧ d.TurnsBack sort now players c := by
  unfold removeCreatureReference
  simp only []
  split
  · rename_i htarg
    rw [(dropTarget_targ htarg).2.1]
    exact ⟨fun h => ⟨htarg, h⟩, And.right⟩
  · rename_i htarg
    exact ⟨fun h => absurd h htarg, fun h => absurd h.1 htarg⟩

theorem not_turnsBack_removeCreatureReference (htarg : d.targ = some c)
    (hback : d.TurnsBack sort now players c) :
    ¬(d.removeCreatureReference sort now players c).TurnsBack sort now players c := by
  rw [removeCreatureReference, if_pos htarg, turnsBack_congr]
  exact (dropTarget_targ htarg).2.2 hback

theorem ab0_removeCreatureReference (h : ¬d.Cancelled c) :
    (d.removeCreatureReference sort now players c).ab0 = removeTarget c d.ab0 := by
  unfold removeCreatureReference
  simp only []
  split
  · rename_i htarg
    rw [(dropTarget_targ htarg).1, if_neg fun hboth => h ⟨htarg, hboth⟩]
  · rfl

theorem ab0_removeCreatureReference_of_cancelled (h : d.Cancelled c) :
    (d.removeCreatureReference sort now players c).ab0 = d.ab0.clear := by
  have hclear : removeTarget c d.ab0.clear = d.ab0.clear :=
    removeTarget_of_not_pending (ActiveAbilityInfo.bPending_clear d.ab0)
  simp only [removeCreatureReference, if_pos h.1, (dropTarget_targ h.1).1, if_pos h.2, hclear]

/-- A visit that cancels nothing leaves nothing for the next one to cancel. -/
theorem not_cancelled_removeCreatureReference (h : ¬d.Cancelled c) :
    ¬(d.removeCreatureReference sort now players c).Cancelled c := by
  intro ⟨htarg, hplayer, hpending⟩
  rw [removeCreatureReference_sameLinks.isPlayer] at hplayer
  rw [targ_removeCreatureReference] at htarg
  rw [ab0_removeCreatureReference h] at hpending
  have hnot : d.ab0.bPending = false := by
    by_contra hset
    exact h ⟨htarg.1, hplayer, by simpa using hset⟩
  rw [removeTarget_of_not_pending hnot, hnot] at hpending
  contradiction

end

/-! ### Several visits -/

/-- The creature names `target` nowhere. -/
structure Forgets (d : CreatureInstance) (target : CreaturePtr) : Prop where
  targ : d.targ ≠ some target
  ab0 : some target ∉ d.ab0.targetList
  ab1 : some target ∉ d.ab1.targetList
  mountedOn : d.mountedOn ≠ some target
  mountedBy : d.mountedBy ≠ some target
  anchorObject : d.anchorObject ≠ some target

section

variable {d : CreatureInstance} (sort : HateSort) (now : Nat) (players : List HateTarget) (k : Nat)

/-- A creature visited `k` times. -/
def visited (sort : HateSort) (now : Nat) (players : List HateTarget) (target : CreaturePtr)
    (k : Nat) (d : CreatureInstance) : CreatureInstance :=
  (fun d : CreatureInstance => d.removeCreatureReference sort now players target)^[k] d

theorem visited_succ : d.visited sort now players c (k + 1) =
    (d.removeCreatureReference sort now players c).visited sort now players c k :=
  Function.iterate_succ_apply _ k d

theorem visited_sameLinks : SameLinks d (d.visited sort now players c k) := by
  induction k generalizing d with
  | zero => exact SameLinks.refl d
  | succ k ih =>
      rw [visited_succ]
      exact removeCreatureReference_sameLinks.trans ih

theorem ab1_visited : (d.visited sort now players c k).ab1 = (removeTarget c)^[k] d.ab1 := by
  induction k generalizing d with
  | zero => rfl
  | succ k ih => rw [visited_succ, ih, ab1_removeCreatureReference, Function.iterate_succ_apply]

theorem ab0_visited (h : ¬d.Cancelled c) :
    (d.visited sort now players c k).ab0 = (removeTarget c)^[k] d.ab0 := by
  induction k generalizing d with
  | zero => rfl
  | succ k ih =>
      rw [visited_succ, ih (not_cancelled_removeCreatureReference h),
        ab0_removeCreatureReference h, Function.iterate_succ_apply]

theorem ab0_visited_of_cancelled (h : d.Cancelled c) (hk : 0 < k) :
    (d.visited sort now players c k).ab0 = d.ab0.clear := by
  obtain ⟨k, rfl⟩ := Nat.exists_eq_succ_of_ne_zero hk.ne'
  have hab0 := @ab0_removeCreatureReference_of_cancelled c d sort now players h
  rw [visited_succ, ab0_visited, hab0]
  · apply iterate_removeTarget_of_not_pending
    exact ActiveAbilityInfo.bPending_clear d.ab0
  · intro ⟨_, _, hpending⟩
    rw [hab0, ActiveAbilityInfo.bPending_clear] at hpending
    contradiction

/-- A target goes with the first visit, or with the second one if the creature turned back. -/
theorem targ_visited : (d.visited sort now players c k).targ = some c ↔
    d.targ = some c ∧ (k = 0 ∨ k = 1 ∧ d.TurnsBack sort now players c) := by
  induction k generalizing d with
  | zero => simp [visited]
  | succ k ih =>
      rw [visited_succ, ih, targ_removeCreatureReference]
      have honce (htarg : d.targ = some c) (hback : d.TurnsBack sort now players c) :=
        not_turnsBack_removeCreatureReference htarg hback
      simp only [Nat.succ_ne_zero, false_or, Nat.add_eq_right]
      tauto

/-- What a creature must be like for `k` visits to take all its references. -/
theorem forgets_visited : (d.visited sort now players c k).Forgets c ↔
    (d.targ = some c → k ≠ 0 ∧ (k = 1 → ¬d.TurnsBack sort now players c)) ∧
      (k ≠ 0 ∧ d.Cancelled c ∨ Released k c d.ab0) ∧ Released k c d.ab1 ∧
      d.mountedOn ≠ some c ∧ d.mountedBy ≠ some c ∧ d.anchorObject ≠ some c := by
  have hsame : SameLinks d (d.visited sort now players c k) := visited_sameLinks sort now players k
  have hab0 : some c ∉ (d.visited sort now players c k).ab0.targetList ↔
      k ≠ 0 ∧ d.Cancelled c ∨ Released k c d.ab0 := by
    by_cases h : k ≠ 0 ∧ d.Cancelled c
    · rw [ab0_visited_of_cancelled sort now players k h.2 (Nat.pos_of_ne_zero h.1)]
      simp [h]
    · have hiterate : (d.visited sort now players c k).ab0 = (removeTarget c)^[k] d.ab0 := by
        cases k with
        | zero => rfl
        | succ k => exact ab0_visited sort now players (k + 1) fun hc => h ⟨Nat.succ_ne_zero k, hc⟩
      rw [hiterate, not_mem_iterate_removeTarget]
      simp [h]
  have hab1 : some c ∉ (d.visited sort now players c k).ab1.targetList ↔ Released k c d.ab1 := by
    rw [ab1_visited]
    exact not_mem_iterate_removeTarget
  constructor
  · intro h
    refine ⟨fun htarg => ?_, hab0.mp h.ab0, hab1.mp h.ab1, hsame.mountedOn ▸ h.mountedOn,
      hsame.mountedBy ▸ h.mountedBy, hsame.anchorObject ▸ h.anchorObject⟩
    have hleft := h.targ
    rw [ne_eq, targ_visited] at hleft
    tauto
  · intro ⟨htarg, h0, h1, hon, hby, hanchor⟩
    refine ⟨?_, hab0.mpr h0, hab1.mpr h1, hsame.mountedOn ▸ hon, hsame.mountedBy ▸ hby,
      hsame.anchorObject ▸ hanchor⟩
    rw [ne_eq, targ_visited]
    tauto

end

end CreatureInstance

end Iceee.Instance
