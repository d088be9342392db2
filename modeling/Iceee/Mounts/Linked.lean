import Iceee.Lib.Trace
import Iceee.Mounts.Creature

/-!
# The links between riders and mounts

Every call keeps the two ends of a link in step, except for the shutdown of a creature that is
ridden: it does not dismount its rider, who keeps a pointer to it.

## Main result

* `Sound.removal`: what removes buffs, and dismounts on the way, keeps the links in step.
-/

namespace Iceee.Mounts

open Buffs (ActiveStatMod)
open Status (StatusID)

/-! ### Status effects -/

namespace CreatureInstance

variable {c : CreatureInstance} {e k : StatusID}

/-- The effects that have an entry. -/
def entries (c : CreatureInstance) : List StatusID :=
  c.activeStatusEffect.map Status.ActiveStatusEffect.modStatusID

/-- An effect has one entry where its bit is set, and none where it is not. -/
def InStep (e : StatusID) (c : CreatureInstance) : Prop :=
  c.entries.count e = (c.hasStatus e).toNat

theorem InStep.mem_entries_iff (h : InStep e c) : e ∈ c.entries ↔ c.hasStatus e = true := by
  rw [← List.count_pos_iff, h]
  cases c.hasStatus e with
  | false => exact iff_of_false (Nat.lt_irrefl 0) Bool.false_ne_true
  | true => exact iff_of_true Nat.zero_lt_one rfl

theorem mem_entries_of_hasStatusList {r : ℕ} (hr : c.hasStatusList e = some r) : e ∈ c.entries := by
  obtain ⟨-, a, ha, hkey⟩ := Status.CreatureInstance.findIdx_of_hasStatusList hr
  exact List.mem_map.mpr ⟨a, ha, hkey⟩

theorem not_mem_entries (hr : c.hasStatusList e = none) : e ∉ c.entries := by
  intro hmem
  obtain ⟨a, ha, hkey⟩ := List.mem_map.mp hmem
  exact Status.CreatureInstance.not_mem_of_hasStatusList hr a ha hkey

theorem entries_addStatus (now : ℕ) (e : StatusID) :
    (c.addStatus now e).entries = if e ∈ c.entries then c.entries else c.entries ++ [e] := by
  unfold addStatus Status.CreatureInstance.addStatusList
  dsimp only
  split
  · next hr =>
    rw [if_pos (mem_entries_of_hasStatusList hr)]
    exact Lib.map_key_modify fun _ => rfl
  · next hr =>
    rw [if_neg (not_mem_entries hr)]
    exact List.map_append

/-- The other effects stay. -/
theorem hasStatus_addStatus_of_ne (now : ℕ) (hne : k ≠ e) :
    (c.addStatus now e).hasStatus k = c.hasStatus k := by
  unfold addStatus Status.CreatureInstance.addStatusList
  dsimp only
  split
  · rfl
  · refine Bool.eq_iff_iff.mpr (Status.CreatureInstance.hasStatus_setStatusFlag.trans ?_)
    exact or_iff_right hne.symm

theorem hasStatus_addStatus (h : InStep e c) (now : ℕ) :
    (c.addStatus now e).hasStatus e = true := by
  unfold addStatus Status.CreatureInstance.addStatusList
  dsimp only
  split
  · next hr => exact h.mem_entries_iff.mp (mem_entries_of_hasStatusList hr)
  · exact Status.CreatureInstance.hasStatus_setStatusFlag.mpr (Or.inl rfl)

theorem inStep_addStatus (h : InStep k c) (now : ℕ) (e : StatusID) :
    InStep k (c.addStatus now e) := by
  rw [InStep, entries_addStatus]
  by_cases hke : k = e
  · rw [hke] at h ⊢
    rw [hasStatus_addStatus h now]
    split
    · next hmem => rw [h, h.mem_entries_iff.mp hmem]
    · next hmem =>
      rw [List.count_append, List.count_eq_zero_of_not_mem hmem, List.count_singleton_self]
      rfl
  · rw [hasStatus_addStatus_of_ne now hke, ← h]
    split
    · rfl
    · rw [List.count_append, List.count_singleton, beq_false_of_ne (Ne.symm hke)]
      rfl

theorem entries_removeStatus (he : e ≠ Status.StatusEffects.TRANSFORMED) :
    (c.removeStatus e).entries = c.entries.erase e := by
  unfold removeStatus Status.CreatureInstance.removeStatusList
  dsimp only
  split
  · next hr => exact (List.erase_of_not_mem (not_mem_entries hr)).symm
  · next r hr =>
    rw [if_neg he]
    have hidx : (c.activeStatusEffect.findIdx? fun a => a.modStatusID == e) = some r := hr
    have herase : c.activeStatusEffect.eraseIdx r =
        c.activeStatusEffect.eraseP fun a => a.modStatusID == e := by
      rw [List.eraseP_eq_eraseIdx, hidx]
    refine (congrArg (List.map Status.ActiveStatusEffect.modStatusID) herase).trans ?_
    rw [entries, List.erase_eq_eraseP', List.eraseP_map]
    rfl

theorem hasStatus_removeStatus_of_ne (he : e ≠ Status.StatusEffects.TRANSFORMED) (hne : k ≠ e) :
    (c.removeStatus e).hasStatus k = c.hasStatus k := by
  unfold removeStatus Status.CreatureInstance.removeStatusList
  dsimp only
  split
  · rfl
  · rw [if_neg he]
    refine Bool.eq_iff_iff.mpr (Status.CreatureInstance.hasStatus_clearStatusFlag.trans ?_)
    exact and_iff_right hne.symm

theorem hasStatus_removeStatus (h : InStep e c) (he : e ≠ Status.StatusEffects.TRANSFORMED) :
    (c.removeStatus e).hasStatus e = false := by
  unfold removeStatus Status.CreatureInstance.removeStatusList
  dsimp only
  split
  · next hr =>
    rw [InStep, List.count_eq_zero_of_not_mem (not_mem_entries hr)] at h
    exact Bool.toNat_eq_zero.mp h.symm
  · rw [if_neg he]
    refine Bool.eq_false_iff.mpr fun hset => ?_
    exact (Status.CreatureInstance.hasStatus_clearStatusFlag.mp hset).1 rfl

theorem inStep_removeStatus (h : InStep k c) (he : e ≠ Status.StatusEffects.TRANSFORMED) :
    InStep k (c.removeStatus e) := by
  rw [InStep, entries_removeStatus he]
  by_cases hke : k = e
  · rw [hke] at h ⊢
    have hle := (c.hasStatus e).toNat_le
    rw [hasStatus_removeStatus h he, List.count_erase_self, h]
    exact Nat.sub_eq_zero_of_le hle
  · rw [hasStatus_removeStatus_of_ne he hke, List.count_erase_of_ne hke, h]

end CreatureInstance

/-- The two effects of the links have an entry where their bit is set. -/
structure Consistent (c : CreatureInstance) : Prop where
  mounted : c.InStep MOUNTED
  carrying : c.InStep CARRYING_RIDER

theorem Consistent.addStatus {c : CreatureInstance} (h : Consistent c) (now : ℕ) (e : StatusID) :
    Consistent (c.addStatus now e) :=
  ⟨CreatureInstance.inStep_addStatus h.mounted now e,
    CreatureInstance.inStep_addStatus h.carrying now e⟩

theorem Consistent.removeStatus {c : CreatureInstance} {e : StatusID} (h : Consistent c)
    (he : e ≠ Status.StatusEffects.TRANSFORMED) : Consistent (c.removeStatus e) :=
  ⟨CreatureInstance.inStep_removeStatus h.mounted he,
    CreatureInstance.inStep_removeStatus h.carrying he⟩

/-! ### What is to hold -/

/-- The two ends of a link point at each other, nobody has both ends, the effects are those of the
ends, and both ends are there. -/
structure Linked (w : World) : Prop where
  symm : ∀ a b, (w a).MountedOn = some b ↔ (w b).MountedBy = some a
  apart : ∀ a, (w a).MountedOn = none ∨ (w a).MountedBy = none
  mounted : ∀ a, (w a).hasStatus MOUNTED = true ↔ (w a).MountedOn.isSome = true
  carrying : ∀ a, (w a).hasStatus CARRYING_RIDER = true ↔ (w a).MountedBy.isSome = true
  present : ∀ a b, (w a).MountedOn = some b → (w a).shutDown = false ∧ (w b).shutDown = false

/-- The links are in step, and so are their effects at each creature that is there. -/
structure Sound (w : World) : Prop extends Linked w where
  consistent : ∀ a, (w a).shutDown = false → Consistent (w a)

/-- Nothing changed of what the links are about. -/
structure Same (c c' : CreatureInstance) : Prop where
  on : c'.MountedOn = c.MountedOn
  by' : c'.MountedBy = c.MountedBy
  shutDown : c'.shutDown = c.shutDown
  mounted : c'.hasStatus MOUNTED = c.hasStatus MOUNTED
  carrying : c'.hasStatus CARRYING_RIDER = c.hasStatus CARRYING_RIDER
  consistent : Consistent c → Consistent c'

theorem Same.refl (c : CreatureInstance) : Same c c :=
  ⟨rfl, rfl, rfl, rfl, rfl, fun h => h⟩

/-- Whatever leaves the links and the effects alone. -/
theorem Same.of_status {c c' : CreatureInstance} (on : c'.MountedOn = c.MountedOn)
    (by' : c'.MountedBy = c.MountedBy) (shutDown : c'.shutDown = c.shutDown)
    (status : c'.toCreatureInstance = c.toCreatureInstance) : Same c c' where
  on := on
  by' := by'
  shutDown := shutDown
  mounted := congrArg (Status.CreatureInstance.hasStatus · MOUNTED) status
  carrying := congrArg (Status.CreatureInstance.hasStatus · CARRYING_RIDER) status
  consistent h := by
    refine ⟨?_, ?_⟩
    · rw [CreatureInstance.InStep, CreatureInstance.entries, status]
      exact h.mounted
    · rw [CreatureInstance.InStep, CreatureInstance.entries, status]
      exact h.carrying

theorem Same.trans {c c' c'' : CreatureInstance} (h : Same c c') (h' : Same c' c'') :
    Same c c'' where
  on := h'.on.trans h.on
  by' := h'.by'.trans h.by'
  shutDown := h'.shutDown.trans h.shutDown
  mounted := h'.mounted.trans h.mounted
  carrying := h'.carrying.trans h.carrying
  consistent hc := h'.consistent (h.consistent hc)

/-- Nothing changed of what any link is about. -/
def World.Same (w w' : World) : Prop := ∀ q, Mounts.Same (w q) (w' q)

theorem World.Same.refl (w : World) : w.Same w := fun q => Mounts.Same.refl (w q)

theorem World.Same.trans {w w' w'' : World} (h : w.Same w') (h' : w'.Same w'') : w.Same w'' :=
  fun q => (h q).trans (h' q)

theorem World.modify_self (w : World) (p : CreaturePtr) (f : CreatureInstance → CreatureInstance) :
    w.modify p f p = f (w p) := Function.update_self ..

theorem World.modify_of_ne {p q : CreaturePtr} (hne : q ≠ p) (w : World)
    (f : CreatureInstance → CreatureInstance) : w.modify p f q = w q := Function.update_of_ne hne ..

theorem World.Same.modify {w : World} {p : CreaturePtr} {f : CreatureInstance → CreatureInstance}
    (hf : Mounts.Same (w p) (f (w p))) : w.Same (w.modify p f) := by
  intro q
  by_cases hq : q = p
  · rw [hq, World.modify_self]
    exact hf
  · rw [World.modify_of_ne hq]
    exact Mounts.Same.refl (w q)

theorem Sound.of_same {w w' : World} (h : Sound w) (hsame : w.Same w') : Sound w' where
  symm a b := by
    rw [(hsame a).on, (hsame b).by']
    exact h.symm a b
  apart a := by
    rw [(hsame a).on, (hsame a).by']
    exact h.apart a
  mounted a := by
    rw [(hsame a).on, (hsame a).mounted]
    exact h.mounted a
  carrying a := by
    rw [(hsame a).by', (hsame a).carrying]
    exact h.carrying a
  present a b hab := by
    rw [(hsame a).shutDown, (hsame b).shutDown]
    exact h.present a b ((hsame a).on.symm.trans hab)
  consistent a ha := (hsame a).consistent (h.consistent a ((hsame a).shutDown.symm.trans ha))

/-! ### Making and breaking a link -/

section Link

variable {w : World} {this other : CreaturePtr}

/-- What one change of a link does to its two ends. -/
theorem unlink_eq (hne : this ≠ other) : Tables.unlink w this other =
    Function.update (Function.update w other
        ({ w other with MountedBy := none }.removeStatus CARRYING_RIDER)) this
      ({ w this with MountedOn := none }.removeStatus MOUNTED) := by
  funext q
  unfold Tables.unlink World.modify
  by_cases hthis : q = this
  · subst hthis
    simp [hne]
  · by_cases hother : q = other
    · subst hother
      simp [hthis, hne]
    · simp [hthis, hother]

theorem link_eq (hne : this ≠ other) (now : ℕ) : Tables.link w now this other =
    Function.update (Function.update w other
        ({ w other with MountedBy := some this }.addStatus now CARRYING_RIDER)) this
      ({ w this with MountedOn := some other }.addStatus now MOUNTED) := by
  funext q
  unfold Tables.link World.modify
  by_cases hthis : q = this
  · subst hthis
    simp [hne]
  · by_cases hother : q = other
    · subst hother
      simp [hthis, hne]
    · simp [hthis, hother]

theorem MOUNTED_ne_TRANSFORMED : MOUNTED ≠ Status.StatusEffects.TRANSFORMED := by decide

theorem CARRYING_RIDER_ne_TRANSFORMED : CARRYING_RIDER ≠ Status.StatusEffects.TRANSFORMED := by
  decide

theorem MOUNTED_ne_CARRYING_RIDER : MOUNTED ≠ CARRYING_RIDER := by decide

theorem unlink_on (hne : this ≠ other) (q : CreaturePtr) :
    (Tables.unlink w this other q).MountedOn = if q = this then none else (w q).MountedOn := by
  rw [unlink_eq hne, Function.update_apply, Function.update_apply]
  split
  · rfl
  · split
    · next heq => exact heq ▸ rfl
    · rfl

theorem unlink_by (hne : this ≠ other) (q : CreaturePtr) :
    (Tables.unlink w this other q).MountedBy = if q = other then none else (w q).MountedBy := by
  rw [unlink_eq hne, Function.update_apply, Function.update_apply]
  split
  · next heq => rw [heq, if_neg hne]; rfl
  · split
    · rfl
    · rfl

theorem unlink_shutDown (hne : this ≠ other) (q : CreaturePtr) :
    (Tables.unlink w this other q).shutDown = (w q).shutDown := by
  rw [unlink_eq hne, Function.update_apply, Function.update_apply]
  split
  · next heq => exact heq ▸ rfl
  · split
    · next heq => exact heq ▸ rfl
    · rfl

theorem unlink_mounted (hne : this ≠ other) (h : (w this).InStep MOUNTED)
    (q : CreaturePtr) : (Tables.unlink w this other q).hasStatus MOUNTED = true ↔
      q ≠ this ∧ (w q).hasStatus MOUNTED = true := by
  rw [unlink_eq hne, Function.update_apply, Function.update_apply]
  split
  · next heq =>
    rw [CreatureInstance.hasStatus_removeStatus (c := { w this with MountedOn := none }) h
      MOUNTED_ne_TRANSFORMED]
    exact iff_of_false Bool.false_ne_true fun hand => hand.1 heq
  · next hq =>
    rw [and_iff_right hq]
    split
    · next heq =>
      rw [CreatureInstance.hasStatus_removeStatus_of_ne CARRYING_RIDER_ne_TRANSFORMED
        MOUNTED_ne_CARRYING_RIDER, heq]
    · rfl

theorem unlink_carrying (hne : this ≠ other) (h : (w other).InStep CARRYING_RIDER)
    (q : CreaturePtr) : (Tables.unlink w this other q).hasStatus CARRYING_RIDER = true ↔
      q ≠ other ∧ (w q).hasStatus CARRYING_RIDER = true := by
  rw [unlink_eq hne, Function.update_apply, Function.update_apply]
  split
  · next heq =>
    rw [CreatureInstance.hasStatus_removeStatus_of_ne MOUNTED_ne_TRANSFORMED
      MOUNTED_ne_CARRYING_RIDER.symm, heq]
    exact (and_iff_right hne).symm
  · split
    · next heq =>
      rw [CreatureInstance.hasStatus_removeStatus (c := { w other with MountedBy := none }) h
        CARRYING_RIDER_ne_TRANSFORMED]
      exact iff_of_false Bool.false_ne_true fun hand => hand.1 heq
    · next hq => exact (and_iff_right hq).symm

theorem unlink_consistent (hne : this ≠ other) (q : CreaturePtr)
    (h : Consistent (w q)) : Consistent (Tables.unlink w this other q) := by
  rw [unlink_eq hne, Function.update_apply, Function.update_apply]
  split
  · next heq =>
    have hthis : Consistent { w this with MountedOn := none } := ⟨heq ▸ h.mounted, heq ▸ h.carrying⟩
    exact hthis.removeStatus MOUNTED_ne_TRANSFORMED
  · split
    · next heq =>
      have hother : Consistent { w other with MountedBy := none } :=
        ⟨heq ▸ h.mounted, heq ▸ h.carrying⟩
      exact hother.removeStatus CARRYING_RIDER_ne_TRANSFORMED
    · exact h

theorem link_on (hne : this ≠ other) (now : ℕ) (q : CreaturePtr) :
    (Tables.link w now this other q).MountedOn =
      if q = this then some other else (w q).MountedOn := by
  rw [link_eq hne, Function.update_apply, Function.update_apply]
  split
  · rfl
  · split
    · next heq => exact heq ▸ rfl
    · rfl

theorem link_by (hne : this ≠ other) (now : ℕ) (q : CreaturePtr) :
    (Tables.link w now this other q).MountedBy =
      if q = other then some this else (w q).MountedBy := by
  rw [link_eq hne, Function.update_apply, Function.update_apply]
  split
  · next heq => rw [heq, if_neg hne]; rfl
  · split
    · rfl
    · rfl

theorem link_shutDown (hne : this ≠ other) (now : ℕ) (q : CreaturePtr) :
    (Tables.link w now this other q).shutDown = (w q).shutDown := by
  rw [link_eq hne, Function.update_apply, Function.update_apply]
  split
  · next heq => exact heq ▸ rfl
  · split
    · next heq => exact heq ▸ rfl
    · rfl

theorem link_mounted (hne : this ≠ other) (now : ℕ) (h : (w this).InStep MOUNTED)
    (q : CreaturePtr) : (Tables.link w now this other q).hasStatus MOUNTED = true ↔
      q = this ∨ (w q).hasStatus MOUNTED = true := by
  rw [link_eq hne, Function.update_apply, Function.update_apply]
  split
  · next heq =>
    exact iff_of_true (CreatureInstance.hasStatus_addStatus
      (c := { w this with MountedOn := some other }) h now) (Or.inl heq)
  · next hq =>
    rw [or_iff_right hq]
    split
    · next heq =>
      rw [CreatureInstance.hasStatus_addStatus_of_ne now MOUNTED_ne_CARRYING_RIDER, heq]
    · rfl

theorem link_carrying (hne : this ≠ other) (now : ℕ)
    (h : (w other).InStep CARRYING_RIDER) (q : CreaturePtr) :
    (Tables.link w now this other q).hasStatus CARRYING_RIDER = true ↔
      q = other ∨ (w q).hasStatus CARRYING_RIDER = true := by
  rw [link_eq hne, Function.update_apply, Function.update_apply]
  split
  · next heq =>
    rw [CreatureInstance.hasStatus_addStatus_of_ne now MOUNTED_ne_CARRYING_RIDER.symm, heq]
    exact (or_iff_right hne).symm
  · split
    · next heq =>
      exact iff_of_true (CreatureInstance.hasStatus_addStatus
        (c := { w other with MountedBy := some this }) h now) (Or.inl heq)
    · next hq => exact (or_iff_right hq).symm

theorem link_consistent (hne : this ≠ other) (now : ℕ) (q : CreaturePtr)
    (h : Consistent (w q)) : Consistent (Tables.link w now this other q) := by
  rw [link_eq hne, Function.update_apply, Function.update_apply]
  split
  · next heq =>
    have hthis : Consistent { w this with MountedOn := some other } :=
      ⟨heq ▸ h.mounted, heq ▸ h.carrying⟩
    exact hthis.addStatus now MOUNTED
  · split
    · next heq =>
      have hother : Consistent { w other with MountedBy := some this } :=
        ⟨heq ▸ h.mounted, heq ▸ h.carrying⟩
      exact hother.addStatus now CARRYING_RIDER
    · exact h

end Link

/-! ### The links stay in step -/

namespace Sound

variable {w : World} {this other : CreaturePtr}

/-- A rider is not its own mount. -/
theorem ne_of_on (h : Sound w) (hon : (w this).MountedOn = some other) : this ≠ other := by
  intro heq
  have hby := (h.symm this other).mp hon
  rw [← heq] at hby
  rcases h.apart this with hnone | hnone
  · exact absurd (hon.symm.trans hnone) (Option.some_ne_none other)
  · exact absurd (hby.symm.trans hnone) (Option.some_ne_none this)

/-- Both ends of a link are taken away. -/
theorem unlink (h : Sound w) (hon : (w this).MountedOn = some other) :
    Sound (Tables.unlink w this other) := by
  have hne := h.ne_of_on hon
  have hby := (h.symm this other).mp hon
  obtain ⟨hthis, hother⟩ := h.present this other hon
  refine ⟨⟨fun a b => ?_, fun a => ?_, fun a => ?_, fun a => ?_, fun a b hab => ?_⟩, fun a ha => ?_⟩
  · rw [unlink_on hne, unlink_by hne]
    by_cases ha : a = this
    · rw [if_pos ha]
      refine iff_of_false (Option.some_ne_none b).symm fun hb => ?_
      split at hb
      · exact absurd hb.symm (Option.some_ne_none a)
      · next hbo =>
        rw [ha] at hb
        exact hbo (Option.some_injective _ (((h.symm this b).mpr hb).symm.trans hon))
    · rw [if_neg ha]
      split
      · next hbo =>
        refine iff_of_false (fun hab => ?_) (Option.some_ne_none a).symm
        rw [hbo] at hab
        exact ha (Option.some_injective _ (((h.symm a other).mp hab).symm.trans hby))
      · exact h.symm a b
  · rw [unlink_on hne, unlink_by hne]
    rcases h.apart a with hnone | hnone
    · exact Or.inl (by rw [hnone, ite_self])
    · exact Or.inr (by rw [hnone, ite_self])
  · rw [unlink_mounted hne (h.consistent this hthis).mounted, unlink_on hne, h.mounted a]
    split
    · next heq => exact iff_of_false (fun hand => hand.1 heq) Bool.false_ne_true
    · next ha => exact and_iff_right ha
  · rw [unlink_carrying hne (h.consistent other hother).carrying, unlink_by hne, h.carrying a]
    split
    · next heq => exact iff_of_false (fun hand => hand.1 heq) Bool.false_ne_true
    · next ha => exact and_iff_right ha
  · rw [unlink_on hne] at hab
    rw [unlink_shutDown hne, unlink_shutDown hne]
    split at hab
    · exact absurd hab.symm (Option.some_ne_none b)
    · exact h.present a b hab
  · rw [unlink_shutDown hne] at ha
    exact unlink_consistent hne a (h.consistent a ha)

/-- Both ends of a link are made, between creatures that have none. -/
theorem link (h : Sound w) (hne : this ≠ other) (hthis : (w this).isMounted = false)
    (hother : (w other).isMounted = false) (hpresent : (w this).shutDown = false)
    (hpresent' : (w other).shutDown = false) (now : ℕ) :
    Sound (Tables.link w now this other) := by
  obtain ⟨hthison, hthisby⟩ := Bool.or_eq_false_iff.mp hthis
  obtain ⟨hotheron, hotherby⟩ := Bool.or_eq_false_iff.mp hother
  rw [Option.isSome_eq_false_iff, Option.isNone_iff_eq_none] at hthison hthisby hotheron hotherby
  refine ⟨⟨fun a b => ?_, fun a => ?_, fun a => ?_, fun a => ?_, fun a b hab => ?_⟩, fun a ha => ?_⟩
  · rw [link_on hne, link_by hne]
    by_cases ha : a = this
    · rw [if_pos ha]
      split
      · next hb => exact iff_of_true (congrArg some hb.symm) (congrArg some ha.symm)
      · next hb =>
        refine iff_of_false (fun hab => hb (Option.some_injective _ hab).symm) fun hab => ?_
        rw [ha] at hab
        exact absurd (((h.symm this b).mpr hab).symm.trans hthison) (Option.some_ne_none b)
    · rw [if_neg ha]
      split
      · next hb =>
        refine iff_of_false (fun hab => ?_) fun hab => ha (Option.some_injective _ hab).symm
        rw [hb] at hab
        exact absurd (((h.symm a other).mp hab).symm.trans hotherby) (Option.some_ne_none a)
      · exact h.symm a b
  · rw [link_on hne, link_by hne]
    by_cases ha : a = this
    · rw [ha, if_neg hne]
      exact Or.inr hthisby
    · rw [if_neg ha]
      by_cases hb : a = other
      · rw [hb]
        exact Or.inl hotheron
      · rw [if_neg hb]
        exact h.apart a
  · rw [link_mounted hne now (h.consistent this hpresent).mounted, link_on hne, h.mounted a]
    split
    · next heq => exact iff_of_true (Or.inl heq) rfl
    · next ha => exact or_iff_right ha
  · rw [link_carrying hne now (h.consistent other hpresent').carrying, link_by hne, h.carrying a]
    split
    · next heq => exact iff_of_true (Or.inl heq) rfl
    · next ha => exact or_iff_right ha
  · rw [link_on hne] at hab
    rw [link_shutDown hne, link_shutDown hne]
    split at hab
    · next heq => exact ⟨heq ▸ hpresent, Option.some_injective _ hab ▸ hpresent'⟩
    · exact h.present a b hab
  · rw [link_shutDown hne] at ha
    exact link_consistent hne now a (h.consistent a ha)

end Sound

/-! ### Dismounting and the removal of buffs -/

/-- The events of abilities leave the links alone, and a deactivation the buffs of the creature and
the ability of its mount. -/
structure Tables.Harmless (t : Tables) : Prop where
  onRequest : ∀ (w : World) p abilityID, w.Same (t.onRequest w p abilityID)
  onDeactivate : ∀ (w : World) p abilityID, w.Same (t.onDeactivate w p abilityID)
  activeStatMod : ∀ w p abilityID,
    (t.onDeactivate w p abilityID p).activeStatMod = (w p).activeStatMod
  MountAbilityId : ∀ w p abilityID,
    (t.onDeactivate w p abilityID p).MountAbilityId = (w p).MountAbilityId

/-- The links stay in step, none is new, and nobody is shut down. -/
structure Loosened (w w' : World) : Prop where
  sound : Sound w'
  on : ∀ q, (w q).MountedOn = none → (w' q).MountedOn = none
  by' : ∀ q, (w q).MountedBy = none → (w' q).MountedBy = none
  shutDown : ∀ q, (w' q).shutDown = (w q).shutDown

namespace Loosened

variable {w w' w'' : World}

theorem of_same (h : Sound w) (hsame : w.Same w') : Loosened w w' where
  sound := h.of_same hsame
  on q hq := (hsame q).on.trans hq
  by' q hq := (hsame q).by'.trans hq
  shutDown q := (hsame q).shutDown

theorem refl (h : Sound w) : Loosened w w := of_same h (World.Same.refl w)

theorem trans (h : Loosened w w') (h' : Loosened w' w'') : Loosened w w'' where
  sound := h'.sound
  on q hq := h'.on q (h.on q hq)
  by' q hq := h'.by' q (h.by' q hq)
  shutDown q := (h'.shutDown q).trans (h.shutDown q)

theorem then_same (h : Loosened w w') (hsame : w'.Same w'') : Loosened w w'' :=
  h.trans (of_same h.sound hsame)

theorem unlink {this other : CreaturePtr} (h : Sound w) (hon : (w this).MountedOn = some other) :
    Loosened w (Tables.unlink w this other) where
  sound := h.unlink hon
  on q hq := by rw [unlink_on (h.ne_of_on hon), hq, ite_self]
  by' q hq := by rw [unlink_by (h.ne_of_on hon), hq, ite_self]
  shutDown q := unlink_shutDown (h.ne_of_on hon) q

end Loosened

namespace Tables

variable {t : Tables} {n : ℕ} {w w' : World} {this : CreaturePtr}

/-- What `Dismount` comes to. -/
theorem dismount_cases {done : Bool} (h : t.dismount (n + 1) w this = some (done, w')) :
    (w' = w ∧ ((w this).MountedBy.isSome = true ∨ (w this).MountedOn = none)) ∨
    ∃ other w₁, (w this).MountedBy = none ∧ (w this).MountedOn = some other ∧
      (w₁ = unlink w this other ∨ ∃ abilityID,
        t.removeBuffsFromAbility n (unlink w this other) this abilityID = some w₁) ∧
      w' = w₁.modify this fun c => { c with MountAbilityId := 0 } := by
  rw [dismount] at h
  split at h
  · next hby =>
    obtain ⟨-, rfl⟩ := Prod.mk.inj (Option.some.inj h)
    exact Or.inl ⟨rfl, Or.inl hby⟩
  · next hby =>
    split at h
    · next hon =>
      obtain ⟨-, rfl⟩ := Prod.mk.inj (Option.some.inj h)
      exact Or.inl ⟨rfl, Or.inr hon⟩
    · next other hon =>
      obtain ⟨w₁, hw₁, hresult⟩ := Option.map_eq_some_iff.mp h
      obtain ⟨-, rfl⟩ := Prod.mk.inj hresult
      have hnone : (w this).MountedBy = none :=
        Option.isNone_iff_eq_none.mp (Option.isSome_eq_false_iff.mp (Bool.not_eq_true _ ▸ hby))
      refine Or.inr ⟨other, w₁, hnone, hon, ?_, rfl⟩
      split at hw₁
      · exact Or.inr ⟨_, hw₁⟩
      · exact Or.inl (Option.some.inj hw₁).symm

/-- What `RemoveBuffIndex` comes to. -/
theorem removeBuffIndex_cases {index : ℕ} (h : t.removeBuffIndex (n + 1) w this index = some w') :
    (∃ done, t.dismount n w this = some (done, w')) ∨
      ∃ m, t.eraseMod w this index m = some w' := by
  rw [removeBuffIndex] at h
  split at h
  · exact absurd h.symm (Option.some_ne_none w')
  · next m _ =>
    split at h
    · obtain ⟨⟨done, w₁⟩, hw₁, rfl⟩ := Option.map_eq_some_iff.mp h
      exact Or.inl ⟨done, hw₁⟩
    · exact Or.inr ⟨m, h⟩

theorem deactivate_same (ht : t.Harmless) (m : ActiveStatMod) : w.Same (t.deactivate w this m) := by
  unfold deactivate
  split
  · exact ht.onDeactivate w this m.abilityID
  · exact World.Same.refl w

/-- Erasing a buff, after its ability was deactivated. -/
theorem eraseMod_same (ht : t.Harmless) {index : ℕ} {m : ActiveStatMod}
    (h : t.eraseMod w this index m = some w') : w.Same w' := by
  unfold eraseMod at h
  dsimp only at h
  split at h
  · exact Option.some.inj h ▸ (deactivate_same ht m).trans
      (World.Same.modify (Same.of_status rfl rfl rfl rfl))
  · exact absurd h.symm (Option.some_ne_none w')

end Tables

/-- What removes buffs, and dismounts on the way, keeps the links in step. -/
theorem Sound.removal {t : Tables} (ht : t.Harmless) (n : ℕ) :
    (∀ w this done w', Sound w → t.dismount n w this = some (done, w') → Loosened w w') ∧
    (∀ w this index w', Sound w → t.removeBuffIndex n w this index = some w' → Loosened w w') ∧
    (∀ p w this i w', Sound w → t.removeLoop n p w this i = some w' → Loosened w w') ∧
    (∀ w this abilityID w', Sound w → t.removeBuffsFromAbility n w this abilityID = some w' →
      Loosened w w') := by
  induction n with
  | zero =>
    refine ⟨fun w this done w' _ h => ?_, fun w this index w' _ h => ?_,
      fun p w this i w' _ h => ?_, fun w this abilityID w' _ h => ?_⟩
    · rw [Tables.dismount] at h
      exact absurd h.symm (Option.some_ne_none _)
    · rw [Tables.removeBuffIndex] at h
      exact absurd h.symm (Option.some_ne_none _)
    · rw [Tables.removeLoop] at h
      exact absurd h.symm (Option.some_ne_none _)
    · rw [Tables.removeBuffsFromAbility] at h
      exact absurd h.symm (Option.some_ne_none _)
  | succ n ih =>
    obtain ⟨ihdismount, ihindex, ihloop, ihability⟩ := ih
    refine ⟨fun w this done w' hw h => ?_, fun w this index w' hw h => ?_,
      fun p w this i w' hw h => ?_, fun w this abilityID w' hw h => ?_⟩
    · rcases Tables.dismount_cases h with ⟨rfl, -⟩ | ⟨other, w₁, -, hon, hw₁, rfl⟩
      · exact Loosened.refl hw
      · have hunlink := Loosened.unlink hw hon
        have hloose : Loosened w w₁ := by
          rcases hw₁ with rfl | ⟨abilityID, hw₁⟩
          · exact hunlink
          · exact hunlink.trans (ihability _ this abilityID w₁ hunlink.sound hw₁)
        exact hloose.then_same (World.Same.modify (Same.of_status rfl rfl rfl rfl))
    · rcases Tables.removeBuffIndex_cases h with ⟨done, hdone⟩ | ⟨m, hm⟩
      · exact ihdismount w this done w' hw hdone
      · exact Loosened.of_same hw (Tables.eraseMod_same ht hm)
    · rw [Tables.removeLoop] at h
      split at h
      · exact Option.some.inj h ▸ Loosened.refl hw
      · split at h
        · obtain ⟨w₁, hw₁, hrest⟩ := Option.bind_eq_some_iff.mp h
          have hloose := ihindex w this i w₁ hw hw₁
          exact hloose.trans (ihloop p w₁ this i w' hloose.sound hrest)
        · exact ihloop p w this (i + 1) w' hw h
    · rw [Tables.removeBuffsFromAbility] at h
      obtain ⟨w₁, hw₁, hrest⟩ := Option.bind_eq_some_iff.mp h
      obtain rfl := Option.some.inj hrest
      exact (ihloop _ w this 0 w₁ hw hw₁).then_same
        (World.Same.modify (Same.of_status rfl rfl rfl rfl))

end Iceee.Mounts
