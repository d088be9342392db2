import Iceee.Instance.Visits

/-!
# Dangling references

What `EraseAllCreatureReference` leaves of the references to a creature that is then removed.

## Main statements

* `ActiveInstance.unreferenced_iff`: nothing of the instance names the removed creature if and
  only if the state before the clean-up was `Releasable`.
-/

namespace Iceee.Instance

open Ability (ActiveAbilityInfo)
open CreatureInstance

variable {c : CreaturePtr}

/-! ### Pending operations -/

namespace PendingOperation

variable {p : PendingOperation} {obj : CreaturePtr}

/-- How many updates are queued for a creature. -/
def updates (p : PendingOperation) (c : CreaturePtr) : Nat :=
  p.updateList.countP fun u => u.object == c

theorem updates_modify (l : List PendingCreatureUpdate) (r : Nat)
    (f : PendingCreatureUpdate → PendingCreatureUpdate) (hf : ∀ u, (f u).object = u.object) :
    (l.modify r f).countP (fun u => u.object == c) = l.countP fun u => u.object == c := by
  induction l generalizing r with
  | nil => simp
  | cons u l ih =>
      cases r with
      | zero => simp [hf, List.countP_cons]
      | succ r => simp [ih, List.countP_cons]

theorem updates_eq_zero : p.updates c = 0 ↔ ∀ u ∈ p.updateList, u.object ≠ c := by
  simp [updates, List.countP_eq_zero]

/-- An update is queued for a creature that has none, and merged into the one it has. -/
theorem updates_updateListAdd (mask statID : Nat) :
    (p.updateListAdd obj mask statID).updates c =
      if c = obj ∧ p.updates c = 0 then 1 else p.updates c := by
  unfold updateListAdd
  cases hr : p.updateList.findIdx? fun u => u.object == obj with
  | none =>
      rw [List.findIdx?_eq_none_iff] at hr
      have hzero : p.updates obj = 0 := updates_eq_zero.mpr fun u hu => by simpa using hr u hu
      by_cases hc : c = obj
      · subst hc
        simp only [updates] at hzero
        simp [updates, List.countP_append, hzero]
      · simp [updates, List.countP_append, hc, Ne.symm hc]
  | some r =>
      have hset : p.updates obj ≠ 0 := by
        rw [ne_eq, updates_eq_zero]
        intro hall
        obtain ⟨h, hfound, _⟩ := List.findIdx?_eq_some_iff_getElem.mp hr
        exact hall _ (List.getElem_mem h) (by simpa using hfound)
      rw [if_neg fun h : c = obj ∧ _ => hset (h.1 ▸ h.2)]
      exact updates_modify p.updateList r _ fun u => rfl

theorem deathList_updateListAdd (mask statID : Nat) :
    (p.updateListAdd obj mask statID).deathList = p.deathList := by
  unfold updateListAdd
  split <;> rfl

theorem updates_updateListRemove : (p.updateListRemove c).updates c = p.updates c - 1 := by
  simp only [updates, updateListRemove]
  induction p.updateList with
  | nil => rfl
  | cons u l ih =>
      cases hu : u.object == c with
      | true => simp [hu]
      | false => simpa [hu] using ih

theorem hasCreature_eq_false :
    p.hasCreature c = false ↔ p.updates c = 0 ∧ p.deathList.count c = 0 := by
  rw [hasCreature, Bool.or_eq_false_iff, updates_eq_zero, List.count_eq_zero]
  simp

end PendingOperation

/-! ### Shutdown -/

/-- What the `Shutdown` of `object` does to a creature of the instance. -/
def CreatureInstance.afterShutdown (object : CreatureInstance) :
    CreatureInstance → CreatureInstance :=
  match object.mountedBy, object.mountedOn with
  | none, some mount => fun d =>
      applyAt object.ptr removeAttachedHateProfile
        (applyAt object.ptr leaveMount (applyAt mount loseRider d))
  | _, _ => applyAt object.ptr removeAttachedHateProfile

theorem hateTarget_applyAt {ptr : CreaturePtr} {f : CreatureInstance → CreatureInstance}
    (hf : ∀ d, (f d).hateTarget = d.hateTarget) (d : CreatureInstance) :
    (applyAt ptr f d).hateTarget = d.hateTarget := by
  unfold applyAt
  split
  · exact hf d
  · rfl

theorem hateTarget_afterShutdown (object d : CreatureInstance) :
    (object.afterShutdown d).hateTarget = d.hateTarget := by
  have hforget (d) : (applyAt object.ptr removeAttachedHateProfile d).hateTarget = d.hateTarget :=
    hateTarget_applyAt (f := removeAttachedHateProfile) (fun _ => rfl) d
  have hleave (d) : (applyAt object.ptr leaveMount d).hateTarget = d.hateTarget :=
    hateTarget_applyAt (f := leaveMount) (fun _ => rfl) d
  have hlose (mount d) : (applyAt mount loseRider d).hateTarget = d.hateTarget :=
    hateTarget_applyAt (f := loseRider) (fun _ => rfl) d
  unfold CreatureInstance.afterShutdown
  cases object.mountedBy with
  | some rider => exact hforget d
  | none =>
      cases object.mountedOn with
      | none => exact hforget d
      | some mount => exact (hforget _).trans ((hleave _).trans (hlose mount d))

/-- The shutdown of another creature takes away its rider, if it is the one. -/
theorem afterShutdown_of_ne {object d : CreatureInstance} (hd : d.ptr ≠ object.ptr) :
    object.afterShutdown d =
      if object.mountedBy = none ∧ object.mountedOn = some d.ptr then d.loseRider else d := by
  unfold CreatureInstance.afterShutdown
  cases hby : object.mountedBy with
  | some rider => simp [applyAt, hd]
  | none =>
      cases hon : object.mountedOn with
      | none => simp [applyAt, hd]
      | some mount =>
          by_cases hmount : d.ptr = mount
          · simp [applyAt, loseRider, hmount ▸ hd, hmount]
          · simp [applyAt, hd, hmount, Ne.symm hmount]

namespace ActiveInstance

variable {inst : ActiveInstance} {object : CreatureInstance}

theorem hateTargets_mapCreatures {f : CreatureInstance → CreatureInstance}
    (hf : ∀ d, (f d).hateTarget = d.hateTarget) :
    (inst.mapCreatures f).hateTargets = inst.hateTargets := by
  simp [mapCreatures, hateTargets, List.map_map, Function.comp_def, hf]

theorem mapCreatures_mapCreatures (f g : CreatureInstance → CreatureInstance) :
    (inst.mapCreatures f).mapCreatures g = inst.mapCreatures fun d => g (f d) := by
  simp [mapCreatures, List.map_map, Function.comp_def]

theorem shutdown_eq : inst.shutdown object =
    { inst.mapCreatures object.afterShutdown with
      pendingOperations := (inst.shutdown object).pendingOperations } := by
  unfold shutdown dismount CreatureInstance.afterShutdown
  cases hby : object.mountedBy with
  | some rider => rfl
  | none =>
      cases hon : object.mountedOn with
      | none => rfl
      | some mount =>
          simp only []
          generalize (inst.creatures.any fun d => d.ptr == mount && d.carryingRider) = carrying
          cases carrying <;> cases object.mounted <;>
            simp [statusRemoved, modifyCreature, mapCreatures, Function.comp_def]

theorem hateTargets_visit {ptr : CreaturePtr} :
    (inst.visit c ptr).hateTargets = inst.hateTargets := by
  apply hateTargets_mapCreatures
  apply hateTarget_applyAt
  intro d
  exact removeCreatureReference_sameLinks.hateTarget

/-- The loops over the quick access lists visit every creature as often as they name it. -/
theorem foldl_visit (ptrs : List CreaturePtr) :
    ptrs.foldl (fun inst ptr => inst.visit c ptr) inst =
      inst.mapCreatures fun d =>
        d.visited inst.sort inst.serverTime inst.hateTargets c (ptrs.count d.ptr) := by
  induction ptrs generalizing inst with
  | nil =>
      have hid : (fun d : CreatureInstance => d) = id := rfl
      simp [mapCreatures, CreatureInstance.visited, hid]
  | cons ptr ptrs ih =>
      rw [List.foldl_cons, ih, hateTargets_visit, visit, modifyCreature, mapCreatures_mapCreatures]
      congr 1
      funext d
      by_cases hd : d.ptr = ptr
      · rw [applyAt, if_pos hd, removeCreatureReference_sameLinks.ptr, ← hd, List.count_cons_self,
          visited_succ]
        rfl
      · rw [applyAt, if_neg hd, List.count_cons_of_ne (Ne.symm hd)]
        rfl

/-- How often the quick access lists name an address. -/
def visits (inst : ActiveInstance) (ptr : CreaturePtr) : Nat :=
  (inst.playerListPtr ++ inst.npcListPtr ++ inst.sidekickListPtr).count ptr

theorem hateTargets_shutdown : (inst.shutdown object).hateTargets = inst.hateTargets := by
  rw [shutdown_eq]
  exact hateTargets_mapCreatures (hateTarget_afterShutdown object)

theorem creatures_mapCreatures (f : CreatureInstance → CreatureInstance) :
    (inst.mapCreatures f).creatures = inst.creatures.map f := by
  simp [creatures, mapCreatures]

/-- What the clean-up makes of a creature. -/
def cleaned (inst : ActiveInstance) (object d : CreatureInstance) : CreatureInstance :=
  (object.afterShutdown d).visited inst.sort inst.serverTime inst.hateTargets object.ptr
    (inst.visits d.ptr)

theorem creatures_shutdown :
    (inst.shutdown object).creatures = inst.creatures.map object.afterShutdown := by
  rw [shutdown_eq]
  exact creatures_mapCreatures object.afterShutdown

theorem serverTime_shutdown : (inst.shutdown object).serverTime = inst.serverTime := by
  rw [shutdown_eq]
  rfl

theorem sort_shutdown : (inst.shutdown object).sort = inst.sort := by
  rw [shutdown_eq]
  rfl

theorem visits_shutdown (ptr : CreaturePtr) :
    (inst.shutdown object).visits ptr = inst.visits ptr := by
  rw [shutdown_eq]
  rfl

theorem creatures_eraseIndividualReference : (inst.eraseIndividualReference c).creatures =
    inst.creatures.map fun d =>
      d.visited inst.sort inst.serverTime inst.hateTargets c (inst.visits d.ptr) := by
  rw [eraseIndividualReference, foldl_visit, creatures_mapCreatures]
  rfl

theorem creatures_eraseAllCreatureReference :
    (inst.eraseAllCreatureReference object).creatures =
      inst.creatures.map (inst.cleaned object) := by
  have herase : (inst.eraseAllCreatureReference object).creatures =
      ((inst.shutdown object).eraseIndividualReference object.ptr).creatures := by
    rw [creatures_eraseIndividualReference]
    unfold eraseAllCreatureReference
    simp only []
    split <;> exact creatures_eraseIndividualReference
  rw [herase, creatures_eraseIndividualReference, creatures_shutdown, List.map_map,
    hateTargets_shutdown, serverTime_shutdown, sort_shutdown]
  congr 1
  funext d
  have hptr : (object.afterShutdown d).ptr = d.ptr :=
    congrArg HateTarget.ptr (hateTarget_afterShutdown object d)
  rw [Function.comp_apply, visits_shutdown, cleaned, hptr]

theorem mem_creatures_removeCreature {d : CreatureInstance} :
    d ∈ (inst.removeCreature c).creatures ↔ d ∈ inst.creatures ∧ d.ptr ≠ c := by
  simp only [creatures, removeCreature, List.mem_append, List.mem_filter, decide_eq_true_eq]
  tauto

/-! ### Pending operations of the instance -/

theorem pendingOperations_eraseIndividualReference :
    (inst.eraseIndividualReference c).pendingOperations = inst.pendingOperations := by
  rw [eraseIndividualReference, foldl_visit]
  rfl

theorem updates_statusRemoved (had : Bool) (obj : CreaturePtr) :
    (inst.statusRemoved had obj).pendingOperations.updates c ≤ 2 ↔
      inst.pendingOperations.updates c ≤ 2 := by
  unfold statusRemoved
  split
  · simp only [PendingOperation.updates_updateListAdd]
    split
    · omega
    · rfl
  · rfl

theorem deathList_statusRemoved (had : Bool) (obj : CreaturePtr) :
    (inst.statusRemoved had obj).pendingOperations.deathList =
      inst.pendingOperations.deathList := by
  unfold statusRemoved
  split
  · exact PendingOperation.deathList_updateListAdd _ _
  · rfl

theorem updates_shutdown : (inst.shutdown object).pendingOperations.updates c ≤ 2 ↔
    inst.pendingOperations.updates c ≤ 2 := by
  unfold shutdown dismount
  split
  · exact (updates_statusRemoved _ _).trans (updates_statusRemoved _ _)
  · rfl

theorem deathList_shutdown : (inst.shutdown object).pendingOperations.deathList =
    inst.pendingOperations.deathList := by
  unfold shutdown dismount
  split
  · exact (deathList_statusRemoved _ _).trans (deathList_statusRemoved _ _)
  · rfl

theorem updates_removePending : (inst.removePending c).pendingOperations.updates c =
    inst.pendingOperations.updates c - 1 :=
  PendingOperation.updates_updateListRemove

theorem count_deathList_removePending : (inst.removePending c).pendingOperations.deathList.count c =
    inst.pendingOperations.deathList.count c - 1 :=
  List.count_erase_self

/-- The two removals take at most two updates and two deaths out of the queues. -/
theorem hasCreature_eraseAllCreatureReference :
    (inst.eraseAllCreatureReference object).pendingOperations.hasCreature object.ptr = false ↔
      inst.pendingOperations.updates object.ptr ≤ 2 ∧
        inst.pendingOperations.deathList.count object.ptr ≤ 2 := by
  rw [← @updates_shutdown object.ptr inst object, ← @deathList_shutdown inst object]
  generalize hshut : inst.shutdown object = shut
  have hpending := @pendingOperations_eraseIndividualReference object.ptr
    (shut.removePending object.ptr)
  have hupdates := @updates_removePending object.ptr shut
  have hdeaths := @count_deathList_removePending object.ptr shut
  rw [eraseAllCreatureReference, hshut]
  generalize (shut.removePending object.ptr).eraseIndividualReference object.ptr = erased
    at hpending ⊢
  rw [← hpending] at hupdates hdeaths
  split
  · rw [PendingOperation.hasCreature_eq_false, updates_removePending,
      count_deathList_removePending]
    omega
  · rename_i hnone
    rw [Bool.not_eq_true] at hnone
    have hzero := PendingOperation.hasCreature_eq_false.mp hnone
    simp only [hnone, true_iff]
    omega

/-! ### Nothing names the removed creature -/

/-- Nothing of the instance names a creature. -/
structure Unreferenced (inst : ActiveInstance) (c : CreaturePtr) : Prop where
  creatures : ∀ d ∈ inst.creatures, d.Forgets c
  pending : inst.pendingOperations.hasCreature c = false
  implicit : ∀ action ∈ inst.mImplicitActions, action.source ≠ c ∧ action.target ≠ c

/-- The clean-up for `object` takes every reference of `d` to it. -/
structure LetsGo (inst : ActiveInstance) (object d : CreatureInstance) : Prop where
  targ : d.targ = some object.ptr → inst.visits d.ptr ≠ 0 ∧
    (inst.visits d.ptr = 1 → ¬d.TurnsBack inst.sort inst.serverTime inst.hateTargets object.ptr)
  ab0 : inst.visits d.ptr ≠ 0 ∧ d.Cancelled object.ptr ∨
    Released (inst.visits d.ptr) object.ptr d.ab0
  ab1 : Released (inst.visits d.ptr) object.ptr d.ab1
  mountedOn : d.mountedOn ≠ some object.ptr
  mountedBy : d.mountedBy = some object.ptr →
    object.mountedBy = none ∧ object.mountedOn = some d.ptr
  anchorObject : d.anchorObject ≠ some object.ptr

/-- The states whose clean-up for `object` leaves no reference to it. -/
structure Releasable (inst : ActiveInstance) (object : CreatureInstance) : Prop where
  creatures : ∀ d ∈ inst.creatures, d.ptr ≠ object.ptr → inst.LetsGo object d
  updates : inst.pendingOperations.updates object.ptr ≤ 2
  deaths : inst.pendingOperations.deathList.count object.ptr ≤ 2
  implicit : ∀ action ∈ inst.mImplicitActions,
    action.source ≠ object.ptr ∧ action.target ≠ object.ptr

theorem forgets_cleaned {d : CreatureInstance} (hd : d.ptr ≠ object.ptr) :
    (inst.cleaned object d).Forgets object.ptr ↔ inst.LetsGo object d := by
  rw [cleaned, forgets_visited, afterShutdown_of_ne hd]
  split
  · rename_i hrides
    have hback : d.loseRider.TurnsBack inst.sort inst.serverTime inst.hateTargets object.ptr ↔
        d.TurnsBack inst.sort inst.serverTime inst.hateTargets object.ptr := by
      apply TurnsBack.congr
      all_goals rfl
    rw [hback]
    constructor
    · intro ⟨htarg, hab0, hab1, hon, _, hanchor⟩
      exact ⟨htarg, hab0, hab1, hon, fun _ => hrides, hanchor⟩
    · intro h
      exact ⟨h.targ, h.ab0, h.ab1, h.mountedOn, Option.some_ne_none _ ∘ Eq.symm, h.anchorObject⟩
  · rename_i hrides
    constructor
    · intro ⟨htarg, hab0, hab1, hon, hby, hanchor⟩
      exact ⟨htarg, hab0, hab1, hon, fun h => absurd h hby, hanchor⟩
    · intro h
      exact ⟨h.targ, h.ab0, h.ab1, h.mountedOn, fun hby => hrides (h.mountedBy hby),
        h.anchorObject⟩

theorem mImplicitActions_eraseAllCreatureReference :
    (inst.eraseAllCreatureReference object).mImplicitActions = inst.mImplicitActions := by
  have hshut : (inst.shutdown object).mImplicitActions = inst.mImplicitActions := by
    rw [shutdown_eq]
    rfl
  have herase (i : ActiveInstance) : (i.eraseIndividualReference object.ptr).mImplicitActions =
      i.mImplicitActions := by
    rw [eraseIndividualReference, foldl_visit]
    rfl
  unfold eraseAllCreatureReference
  simp only []
  split
  · exact (herase _).trans hshut
  · exact (herase _).trans hshut

/-- Nothing of the instance names the removed creature if and only if the clean-up could reach
all that did. -/
theorem unreferenced_iff :
    ((inst.eraseAllCreatureReference object).removeCreature object.ptr).Unreferenced object.ptr ↔
      inst.Releasable object := by
  have hptr (d) : (inst.cleaned object d).ptr = d.ptr :=
    (visited_sameLinks _ _ _ _).ptr.trans
      (congrArg HateTarget.ptr (hateTarget_afterShutdown object d))
  have hpending := @hasCreature_eraseAllCreatureReference inst object
  have himplicit := @mImplicitActions_eraseAllCreatureReference inst object
  constructor
  · intro h
    refine ⟨fun d hd hne => ?_, (hpending.mp h.pending).1, (hpending.mp h.pending).2,
      himplicit ▸ h.implicit⟩
    rw [← forgets_cleaned hne]
    apply h.creatures
    rw [mem_creatures_removeCreature, creatures_eraseAllCreatureReference, hptr]
    exact ⟨List.mem_map_of_mem hd, hne⟩
  · intro h
    refine ⟨fun d' hd' => ?_, hpending.mpr ⟨h.updates, h.deaths⟩, himplicit ▸ h.implicit⟩
    rw [mem_creatures_removeCreature, creatures_eraseAllCreatureReference, List.mem_map] at hd'
    obtain ⟨⟨d, hd, rfl⟩, hne⟩ := hd'
    rw [hptr] at hne
    rw [forgets_cleaned hne]
    exact h.creatures d hd hne

/-- An NPC that hates the player it aims at. -/
def haterState : ActiveInstance where
  playerList := [{ ptr := 1, creatureID := 2000001, creatureDefID := 7, isPlayer := true }]
  npcList :=
    [{ ptr := 2, creatureID := 5, targ := some 1, hateProfile := some { hateList := [⟨7, 10⟩] } }]
  playerListPtr := [1]
  npcListPtr := [2]
  sort := .inserting _ (fun a b => by simp only [decide_eq_false_iff_not]; omega) fun a b c => by
    simp only [decide_eq_false_iff_not]
    omega

/-- The NPC takes the player it lost as its next target, while the player is still listed. -/
theorem hater_keeps_target : ¬∀ (inst : ActiveInstance) (object : CreatureInstance),
    object ∈ inst.creatures →
      ((inst.eraseAllCreatureReference object).removeCreature object.ptr).Unreferenced
        object.ptr := by
  intro h
  have hplayer : { ptr := 1, creatureID := 2000001, creatureDefID := 7, isPlayer := true } ∈
      haterState.creatures := by decide
  have hfree := (h haterState _ hplayer).creatures
  have haims : ∃ d ∈ ((haterState.eraseAllCreatureReference
      { ptr := 1, creatureID := 2000001, creatureDefID := 7, isPlayer := true }).removeCreature
        1).creatures, d.targ = some 1 := by decide
  obtain ⟨d, hd, htarg⟩ := haims
  exact (hfree d hd).targ htarg

end ActiveInstance

end Iceee.Instance
