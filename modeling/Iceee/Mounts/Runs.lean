import Iceee.Mounts.Linked

/-!
# Runs of riders and mounts

The loops that remove buffs go on for ever where a creature that is ridden has a buff that stands
for its own ride: dismounting is refused, and the buff is not erased.

## Main results

* `loop_ends_iff`: when a loop that removes buffs ends.
* `mounts_exact_iff`: the links are in step along a run exactly if nobody is shut down while ridden,
  and then every call ends, but for these loops.
-/

namespace Iceee.Mounts

open Buffs (ActiveStatMod)
open Lib (Trace)

/-- A loop over the buffs that match comes to an end: the creature is not ridden, or none of these
buffs has the ability that the creature holds as that of its mount. -/
def Ends (p : ActiveStatMod → Bool) (c : CreatureInstance) : Prop :=
  c.MountedBy = none ∨ ∀ m ∈ c.activeStatMod, p m = true → m.abilityID ≠ c.MountAbilityId

namespace Tables

variable {t : Tables} {w : World} {this : CreaturePtr} {p : ActiveStatMod → Bool}

/-! ### Loops that end -/

theorem deactivate_keeps (ht : t.Harmless) (m : ActiveStatMod) :
    (t.deactivate w this m this).activeStatMod = (w this).activeStatMod ∧
      (t.deactivate w this m this).MountAbilityId = (w this).MountAbilityId := by
  unfold deactivate
  split
  · exact ⟨ht.activeStatMod w this m.abilityID, ht.MountAbilityId w this m.abilityID⟩
  · exact ⟨rfl, rfl⟩

/-- A buff that is there is erased. -/
theorem eraseMod_ends (ht : t.Harmless) {index : ℕ} {m : ActiveStatMod}
    (hindex : index < (w this).activeStatMod.length) :
    ∃ w', t.eraseMod w this index m = some w' ∧
      (w' this).activeStatMod = (w this).activeStatMod.eraseIdx index ∧
      (w' this).MountAbilityId = (w this).MountAbilityId := by
  obtain ⟨hmods, hability⟩ := @deactivate_keeps t w this ht m
  refine ⟨_, if_pos (hmods.symm ▸ hindex), ?_, ?_⟩
  · rw [World.modify_self, hmods]
  · rw [World.modify_self, hability]

theorem isMounted_of_same {w' : World} (h : w.Same w') :
    (w' this).isMounted = (w this).isMounted := by
  unfold CreatureInstance.isMounted
  rw [(h this).on, (h this).by']

/-- A buff of a creature that neither rides nor is ridden is erased. -/
theorem removeBuffIndex_ends (ht : t.Harmless) {index : ℕ} {m : ActiveStatMod}
    (hm : (w this).activeStatMod[index]? = some m)
    (hother : ¬(m.abilityID = (w this).MountAbilityId ∧ (w this).isMounted = true)) (n : ℕ) :
    ∃ w', t.removeBuffIndex (n + 1) w this index = some w' ∧ w.Same w' ∧
      (w' this).activeStatMod = (w this).activeStatMod.eraseIdx index ∧
      (w' this).MountAbilityId = (w this).MountAbilityId := by
  obtain ⟨hindex, -⟩ := List.getElem?_eq_some_iff.mp hm
  obtain ⟨w', hw', hmods, hability⟩ := eraseMod_ends (m := m) ht hindex
  refine ⟨w', ?_, eraseMod_same ht hw', hmods, hability⟩
  rw [removeBuffIndex, hm]
  exact (if_neg hother).trans hw'

/-- The loop for a creature that neither rides nor is ridden. -/
theorem loop_ends_of_not_mounted (ht : t.Harmless) (n : ℕ) :
    ∀ (w : World) (i : ℕ), (w this).isMounted = false →
      (w this).activeStatMod.length - i + 2 ≤ n →
      ∃ w', t.removeLoop n p w this i = some w' ∧ (w' this).isMounted = false ∧
        (w' this).activeStatMod.length ≤ (w this).activeStatMod.length := by
  induction n with
  | zero => exact fun w i _ hn => absurd hn (by omega)
  | succ n ih =>
    intro w i hnot hn
    rw [removeLoop]
    split
    · exact ⟨w, rfl, hnot, le_refl _⟩
    · next m hm =>
      obtain ⟨hi, -⟩ := List.getElem?_eq_some_iff.mp hm
      split
      · obtain ⟨k, rfl⟩ : ∃ k, n = k + 1 := ⟨n - 1, by omega⟩
        obtain ⟨w₁, hw₁, hsame, hmods, -⟩ := removeBuffIndex_ends ht hm
          (fun hand => absurd (hnot.symm.trans hand.2) Bool.false_ne_true) k
        have hlength : (w₁ this).activeStatMod.length = (w this).activeStatMod.length - 1 := by
          rw [hmods, List.length_eraseIdx_of_lt hi]
        obtain ⟨w', hw', hnot', hle⟩ := ih w₁ i ((isMounted_of_same hsame).trans hnot) (by omega)
        refine ⟨w', ?_, hnot', by omega⟩
        rw [hw₁]
        exact hw'
      · exact ih w (i + 1) hnot (by omega)

theorem removeBuffsFromAbility_ends_of_not_mounted (ht : t.Harmless) (abilityID : Int)
    (hnot : (w this).isMounted = false) {n : ℕ}
    (hn : (w this).activeStatMod.length + 3 ≤ n) :
    ∃ w', t.removeBuffsFromAbility n w this abilityID = some w' ∧ (w' this).isMounted = false ∧
      (w' this).activeStatMod.length ≤ (w this).activeStatMod.length := by
  obtain ⟨k, rfl⟩ : ∃ k, n = k + 1 := ⟨n - 1, by omega⟩
  obtain ⟨w₁, hw₁, hnot₁, hle⟩ := loop_ends_of_not_mounted
    (p := fun m => m.abilityID == abilityID) ht k w 0 hnot (by omega)
  refine ⟨w₁.modify this fun c =>
    { c with buffManager := c.buffManager.removeBuff abilityID }, ?_, ?_, ?_⟩
  · rw [removeBuffsFromAbility, hw₁]
    rfl
  · rw [World.modify_self]
    exact hnot₁
  · rw [World.modify_self]
    exact hle

theorem unlink_activeStatMod {other : CreaturePtr} (hne : this ≠ other) :
    (unlink w this other this).activeStatMod = (w this).activeStatMod := by
  rw [unlink_eq hne, Function.update_self]
  rfl

/-- Who rides no more after the links went. -/
theorem unlink_isMounted {other : CreaturePtr} (hne : this ≠ other)
    (hby : (w this).MountedBy = none) : (unlink w this other this).isMounted = false := by
  unfold CreatureInstance.isMounted
  rw [unlink_on hne, unlink_by hne, if_pos rfl, if_neg hne, hby]
  rfl

/-- Dismounting a creature that is not ridden. -/
theorem dismount_ends (ht : t.Harmless) (hw : Sound w) (hby : (w this).MountedBy = none) {n : ℕ}
    (hn : (w this).activeStatMod.length + 4 ≤ n) :
    ∃ done w', t.dismount n w this = some (done, w') ∧ (w' this).isMounted = false ∧
      (w' this).activeStatMod.length ≤ (w this).activeStatMod.length := by
  obtain ⟨k, rfl⟩ : ∃ k, n = k + 1 := ⟨n - 1, by omega⟩
  rw [dismount, CreatureInstance.isMountedMount, hby, Option.isSome_none,
    if_neg Bool.false_ne_true]
  cases hon : (w this).MountedOn with
  | none =>
    refine ⟨false, w, rfl, ?_, le_refl _⟩
    rw [CreatureInstance.isMounted, hon, hby]
    rfl
  | some other =>
    have hne := hw.ne_of_on hon
    have hmods : (unlink w this other this).activeStatMod.length =
        (w this).activeStatMod.length := congrArg List.length (unlink_activeStatMod hne)
    have hnot := unlink_isMounted hne hby
    dsimp only
    split
    · obtain ⟨w₁, hw₁, hnot₁, hle⟩ := removeBuffsFromAbility_ends_of_not_mounted ht
        (t.abilityOnUse (unlink w this other other).CreatureDefID) hnot (n := k) (by omega)
      refine ⟨true, w₁.modify this fun c => { c with MountAbilityId := 0 }, ?_, ?_, ?_⟩
      · rw [hw₁]
        rfl
      · rw [World.modify_self]
        exact hnot₁
      · rw [World.modify_self]
        exact hle.trans hmods.le
    · refine ⟨true, _, rfl, ?_, ?_⟩
      · rw [World.modify_self]
        exact hnot
      · rw [World.modify_self]
        exact hmods.le

/-- The loop where it comes to an end. -/
theorem loop_ends (ht : t.Harmless) (n : ℕ) :
    ∀ (w : World) (i : ℕ), Sound w → Ends p (w this) →
      (w this).activeStatMod.length - i + (w this).activeStatMod.length + 8 ≤ n →
      ∃ w', t.removeLoop n p w this i = some w' := by
  induction n with
  | zero => exact fun w i _ _ hn => absurd hn (by omega)
  | succ n ih =>
    intro w i hw hends hn
    rw [removeLoop]
    split
    · exact ⟨w, rfl⟩
    · next m hm =>
      obtain ⟨hi, hget⟩ := List.getElem?_eq_some_iff.mp hm
      split
      · next hp =>
        obtain ⟨k, rfl⟩ : ∃ k, n = k + 1 := ⟨n - 1, by omega⟩
        by_cases hits : m.abilityID = (w this).MountAbilityId ∧ (w this).isMounted = true
        · -- the ride ends, and the rest of the loop is that of a creature that rides no more
          have hby : (w this).MountedBy = none :=
            hends.resolve_right fun hall => hall m (hget ▸ List.getElem_mem hi) hp hits.1
          obtain ⟨done, w₁, hw₁, hnot, hle⟩ := dismount_ends (n := k) ht hw hby (by omega)
          obtain ⟨w', hw', -⟩ := loop_ends_of_not_mounted (p := p) ht (k + 1) w₁ i hnot (by omega)
          refine ⟨w', ?_⟩
          rw [removeBuffIndex, hm]
          dsimp only
          rw [if_pos hits, hw₁]
          exact hw'
        · obtain ⟨w₁, hw₁, hsame, hmods, hability⟩ := removeBuffIndex_ends ht hm hits k
          have hlength : (w₁ this).activeStatMod.length = (w this).activeStatMod.length - 1 := by
            rw [hmods, List.length_eraseIdx_of_lt hi]
          have hends₁ : Ends p (w₁ this) := by
            refine hends.imp (fun hby => (hsame this).by'.trans hby) fun hall m' hm' => ?_
            rw [hmods] at hm'
            rw [hability]
            exact hall m' (List.mem_of_mem_eraseIdx hm')
          obtain ⟨w', hw'⟩ := ih w₁ i (hw.of_same hsame) hends₁ (by omega)
          exact ⟨w', by rw [hw₁]; exact hw'⟩
      · exact ih w (i + 1) hw hends (by omega)

/-! ### Loops that do not end -/

/-- A creature that is ridden stays on the buff that stands for its own ride. -/
theorem loop_stuck (ht : t.Harmless) (n : ℕ) :
    ∀ (w : World) (i j : ℕ) (m : ActiveStatMod), (w this).MountedBy.isSome = true → i ≤ j →
      (w this).activeStatMod[j]? = some m → p m = true →
      m.abilityID = (w this).MountAbilityId → t.removeLoop n p w this i = none := by
  induction n with
  | zero => exact fun w i j m _ _ _ _ _ => rfl
  | succ n ih =>
    intro w i j m hby hij hm hp hability
    obtain ⟨hj, -⟩ := List.getElem?_eq_some_iff.mp hm
    rw [removeLoop]
    split
    · next hnone => exact absurd (List.getElem?_eq_none_iff.mp hnone) (by omega)
    · next m' hm' =>
      split
      · next hp' =>
        cases n with
        | zero => rfl
        | succ n =>
        by_cases hits : m'.abilityID = (w this).MountAbilityId ∧ (w this).isMounted = true
        · have hrefused : t.removeBuffIndex (n + 1) w this i = none ∨
              t.removeBuffIndex (n + 1) w this i = some w := by
            rw [removeBuffIndex, hm']
            dsimp only
            rw [if_pos hits]
            cases n with
            | zero => exact Or.inl rfl
            | succ n =>
              rw [dismount, CreatureInstance.isMountedMount, if_pos hby]
              exact Or.inr rfl
          rcases hrefused with hnone | hsame
          · rw [hnone]
            rfl
          · rw [hsame]
            exact ih w i j m hby hij hm hp hability
        · obtain ⟨w₁, hw₁, hsame, hmods, hability₁⟩ := removeBuffIndex_ends ht hm' hits n
          have hne : i ≠ j := by
            intro heq
            rw [heq, hm] at hm'
            refine hits ⟨Option.some_injective _ hm' ▸ hability, ?_⟩
            exact Bool.or_eq_true_iff.mpr (Or.inr hby)
          rw [hw₁]
          refine ih w₁ i (j - 1) m ?_ (by omega) ?_ hp (hability.trans hability₁.symm)
          · rw [(hsame this).by']
            exact hby
          · rw [hmods, List.getElem?_eraseIdx_of_ge (by omega)]
            exact (congrArg ((w this).activeStatMod[·]?) (by omega)).trans hm
      · next hp' =>
        refine ih w (i + 1) j m hby ?_ hm hp hability
        refine Nat.lt_of_le_of_ne hij fun heq => hp' ?_
        rw [heq, hm] at hm'
        exact Option.some_injective _ hm' ▸ hp

/-- A loop that removes buffs ends exactly if the creature is not ridden, or has no buff that
matches and stands for its own ride. -/
theorem loop_ends_iff (ht : t.Harmless) (hw : Sound w) :
    (∃ n w', t.removeLoop n p w this 0 = some w') ↔ Ends p (w this) := by
  constructor
  · intro ⟨n, w', hw'⟩
    by_contra hnot
    obtain ⟨hby, hsome⟩ := not_or.mp hnot
    push Not at hsome
    obtain ⟨m, hm, hp, hability⟩ := hsome
    obtain ⟨j, hj⟩ := List.mem_iff_getElem?.mp hm
    have hnone := loop_stuck (p := p) ht n w 0 j m (Option.isSome_iff_ne_none.mpr hby)
      (Nat.zero_le j) hj hp hability
    exact absurd (hw'.symm.trans hnone) (Option.some_ne_none w')
  · intro hends
    exact ⟨_, loop_ends ht _ w 0 hw hends (le_refl _)⟩

end Tables

/-! ### Calls -/

/-- The start: nobody rides, and the effects of the links are in step. -/
def Fresh (w : World) : Prop :=
  ∀ p, (w p).MountedOn = none ∧ (w p).MountedBy = none ∧ (w p).hasStatus MOUNTED = false ∧
    (w p).hasStatus CARRYING_RIDER = false ∧ Consistent (w p)

/-- Nobody is shut down while ridden. -/
def NotRidden (w : World) : Op → Prop
  | .shutdown this => (w this).MountedBy = none
  | _ => True

/-- The loop of a call that removes buffs comes to an end. -/
def LoopEnds (w : World) : Op → Prop
  | .removeBuffsFromAbility this abilityID =>
      Ends (fun m => m.abilityID == abilityID) (w this)
  | .removeAllBuffs this => Ends (fun _ => true) (w this)
  | _ => True

theorem Fresh.sound {w : World} (h : Fresh w) : Sound w where
  symm a b := by
    obtain ⟨hon, -⟩ := h a
    obtain ⟨-, hby, -⟩ := h b
    rw [hon, hby]
    exact iff_of_false (Option.some_ne_none b).symm (Option.some_ne_none a).symm
  apart a := Or.inl (h a).1
  mounted a := by
    obtain ⟨hon, -, hmounted, -⟩ := h a
    rw [hon, hmounted]
    exact Iff.rfl
  carrying a := by
    obtain ⟨-, hby, -, hcarrying, -⟩ := h a
    rw [hby, hcarrying]
    exact Iff.rfl
  present a b hab := absurd (hab.symm.trans (h a).1) (Option.some_ne_none b)
  consistent a _ := (h a).2.2.2.2

namespace Tables

variable {t : Tables} {w w' : World} {this : CreaturePtr}

theorem dismountIfMounted_loosened (ht : t.Harmless) (hw : Sound w) {n : ℕ}
    (h : t.dismountIfMounted n w this = some w') : Loosened w w' := by
  unfold dismountIfMounted at h
  split at h
  · obtain ⟨⟨done, w₁⟩, hw₁, rfl⟩ := Option.map_eq_some_iff.mp h
    exact (Sound.removal ht n).1 w this done w₁ hw hw₁
  · exact Option.some.inj h ▸ Loosened.refl hw

/-- A creature that is not ridden rides no more afterwards. -/
theorem dismountIfMounted_on (ht : t.Harmless) (hw : Sound w) (hby : (w this).MountedBy = none)
    {n : ℕ} (h : t.dismountIfMounted n w this = some w') : (w' this).MountedOn = none := by
  unfold dismountIfMounted at h
  split at h
  · obtain ⟨⟨done, w₁⟩, hw₁, rfl⟩ := Option.map_eq_some_iff.mp h
    cases n with
    | zero =>
      rw [dismount] at hw₁
      exact absurd hw₁.symm (Option.some_ne_none _)
    | succ n =>
      rcases dismount_cases hw₁ with ⟨rfl, hridden | hon⟩ | ⟨other, w₂, -, hon, hw₂, rfl⟩
      · rw [hby] at hridden
        exact absurd hridden Bool.false_ne_true
      · exact hon
      · have hoff : (unlink w this other this).MountedOn = none :=
          (unlink_on (hw.ne_of_on hon) this).trans (if_pos rfl)
        refine (congrArg CreatureInstance.MountedOn (World.modify_self w₂ this _)).trans ?_
        rcases hw₂ with rfl | ⟨abilityID, hw₂⟩
        · exact hoff
        · exact ((Sound.removal ht n).2.2.2 _ this abilityID w₂ (hw.unlink hon) hw₂).on this hoff
  · next hnot =>
    obtain rfl := Option.some.inj h
    exact Option.not_isSome_iff_eq_none.mp fun hon => hnot (Bool.or_eq_true_iff.mpr (Or.inl hon))

end Tables

namespace Sound

variable {t : Tables} {w w' : World} {this : CreaturePtr}

/-- The end of a creature without a link. -/
theorem shut (h : Sound w) (hon : (w this).MountedOn = none) (hby : (w this).MountedBy = none)
    {f : CreatureInstance → CreatureInstance} (hfon : (f (w this)).MountedOn = none)
    (hfby : (f (w this)).MountedBy = none)
    (hflags : (f (w this)).statusEffects = (w this).statusEffects)
    (hshut : (f (w this)).shutDown = true) : Sound (w.modify this f) := by
  have hOn (a) : (w.modify this f a).MountedOn = (w a).MountedOn := by
    by_cases ha : a = this
    · rw [ha, World.modify_self, hfon, hon]
    · rw [World.modify_of_ne ha]
  have hBy (a) : (w.modify this f a).MountedBy = (w a).MountedBy := by
    by_cases ha : a = this
    · rw [ha, World.modify_self, hfby, hby]
    · rw [World.modify_of_ne ha]
  have hStatus (a k) : (w.modify this f a).hasStatus k = (w a).hasStatus k := by
    by_cases ha : a = this
    · rw [ha, World.modify_self, Status.CreatureInstance.hasStatus, hflags]
      rfl
    · rw [World.modify_of_ne ha]
  refine ⟨⟨fun a b => ?_, fun a => ?_, fun a => ?_, fun a => ?_, fun a b hab => ?_⟩, fun a ha => ?_⟩
  · rw [hOn, hBy]
    exact h.symm a b
  · rw [hOn, hBy]
    exact h.apart a
  · rw [hOn, hStatus]
    exact h.mounted a
  · rw [hBy, hStatus]
    exact h.carrying a
  · rw [hOn] at hab
    have ha : a ≠ this := fun heq =>
      absurd (hab.symm.trans (heq ▸ hon)) (Option.some_ne_none b)
    have hb : b ≠ this := fun heq =>
      absurd (((h.symm a b).mp hab).symm.trans (heq ▸ hby)) (Option.some_ne_none a)
    rw [World.modify_of_ne ha, World.modify_of_ne hb]
    exact h.present a b hab
  · by_cases heq : a = this
    · rw [heq, World.modify_self, hshut] at ha
      exact absurd ha.symm Bool.false_ne_true
    · rw [World.modify_of_ne heq] at ha ⊢
      exact h.consistent a ha

theorem mount (ht : t.Harmless) (h : Sound w) {other : CreaturePtr}
    (hthis : (w this).shutDown = false) (hother : (w other).shutDown = false) (now : ℕ) :
    Sound (t.mount w now this other).2 := by
  unfold Tables.mount
  split
  · exact h
  · next hmounted =>
    split
    · exact h
    · next hmounted' =>
      split
      · exact h
      · next hnotMount =>
        split
        · exact h
        · next hmount =>
          -- one of the two is a mount, the other one is not
          have hne : this ≠ other := by
            intro heq
            rw [heq, Bool.not_eq_true] at hnotMount
            exact hmount (congrArg not hnotMount)
          rw [Bool.not_eq_true] at hmounted hmounted'
          have hlink := h.link hne hmounted hmounted' hthis hother now
          dsimp only
          split
          · dsimp only
            exact hlink.of_same ((World.Same.modify (Same.of_status rfl rfl rfl rfl)).trans
              (ht.onRequest _ this _))
          · dsimp only
            exact hlink.of_same (World.Same.modify (Same.of_status rfl rfl rfl rfl))

end Sound

theorem addStatus_same {c : CreatureInstance} {e : Status.StatusID} (now : ℕ)
    (hmounted : MOUNTED ≠ e) (hcarrying : CARRYING_RIDER ≠ e) : Same c (c.addStatus now e) where
  on := rfl
  by' := rfl
  shutDown := rfl
  mounted := CreatureInstance.hasStatus_addStatus_of_ne now hmounted
  carrying := CreatureInstance.hasStatus_addStatus_of_ne now hcarrying
  consistent h := h.addStatus now e

theorem removeStatus_same {c : CreatureInstance} {e : Status.StatusID} (hmounted : MOUNTED ≠ e)
    (hcarrying : CARRYING_RIDER ≠ e) (he : e ≠ Status.StatusEffects.TRANSFORMED) :
    Same c (c.removeStatus e) where
  on := rfl
  by' := rfl
  shutDown := rfl
  mounted := CreatureInstance.hasStatus_removeStatus_of_ne he hmounted
  carrying := CreatureInstance.hasStatus_removeStatus_of_ne he hcarrying
  consistent h := h.removeStatus he

namespace Sound

variable {t : Tables} {w w' : World}

theorem processDeath (ht : t.Harmless) (h : Sound w) {this : CreaturePtr} {n now : ℕ}
    (hw' : t.processDeath n now w this = some w') : Sound w' := by
  obtain ⟨w₁, hw₁, hrest⟩ := Option.bind_eq_some_iff.mp hw'
  obtain rfl := Option.some.inj hrest
  have hdead : w₁.Same (w₁.modify this fun c => c.addStatus now Status.StatusEffects.DEAD) :=
    World.Same.modify (addStatus_same now (by decide) (by decide))
  refine (Tables.dismountIfMounted_loosened ht h hw₁).sound.of_same
    (hdead.trans (World.Same.modify ?_))
  split
  · exact removeStatus_same (by decide) (by decide) (by decide)
  · exact Same.refl _

theorem shutdown (ht : t.Harmless) (h : Sound w) {this : CreaturePtr}
    (hby : (w this).MountedBy = none) {n : ℕ} (hw' : t.shutdown n w this = some w') :
    Sound w' := by
  obtain ⟨w₁, hw₁, hrest⟩ := Option.bind_eq_some_iff.mp hw'
  obtain rfl := Option.some.inj hrest
  have hloose := Tables.dismountIfMounted_loosened ht h hw₁
  have hon₁ := Tables.dismountIfMounted_on ht h hby hw₁
  have hby₁ := hloose.by' this hby
  exact hloose.sound.shut hon₁ hby₁ hon₁ hby₁ rfl rfl

/-- Every call keeps the links in step, but for the shutdown of a creature that is ridden. -/
theorem step (ht : t.Harmless) (h : Sound w) {call : Call} (hok : NotRidden w call.op)
    (hs : t.step w call = some w') : Sound w' := by
  obtain ⟨now, fuel, op⟩ := call
  unfold Tables.step at hs
  split at hs
  case isFalse => exact absurd hs.symm (Option.some_ne_none w')
  case isTrue hpresent =>
  cases op with
  | mount this other =>
    exact Option.some.inj hs ▸ h.mount ht (hpresent this List.mem_cons_self)
      (hpresent other (List.mem_cons_of_mem _ List.mem_cons_self)) now
  | dismount this =>
    obtain ⟨⟨done, w₁⟩, hw₁, rfl⟩ := Option.map_eq_some_iff.mp hs
    exact ((removal ht fuel).1 w this done w₁ h hw₁).sound
  | processDeath this => exact h.processDeath ht hs
  | removeBuffsFromAbility this abilityID =>
    exact ((removal ht fuel).2.2.2 w this abilityID w' h hs).sound
  | removeAllBuffs this => exact ((removal ht fuel).2.2.1 _ w this 0 w' h hs).sound
  | shutdown this => exact h.shutdown ht hok hs
  | pushStatMod this newMod =>
    exact Option.some.inj hs ▸ h.of_same (World.Same.modify (Same.of_status rfl rfl rfl rfl))

/-- A creature that is shut down while ridden leaves its rider with a pointer to it. -/
theorem not_linked_of_ridden (h : Sound w) {call : Call} (hbad : ¬NotRidden w call.op)
    (hs : t.step w call = some w') : ¬Linked w' := by
  obtain ⟨now, fuel, op⟩ := call
  unfold Tables.step at hs
  split at hs
  case isFalse => exact absurd hs.symm (Option.some_ne_none w')
  case isTrue =>
  cases op with
  | shutdown this =>
    obtain ⟨rider, hby⟩ := Option.ne_none_iff_exists'.mp hbad
    have hon := (h.symm rider this).mpr hby
    have hne : rider ≠ this := h.ne_of_on hon
    obtain ⟨w₁, hw₁, hrest⟩ := Option.bind_eq_some_iff.mp hs
    obtain rfl := Option.some.inj hrest
    have hsame : w₁ = w := by
      unfold Tables.dismountIfMounted at hw₁
      rw [CreatureInstance.isMounted, hby, Option.isSome_some, Bool.or_true, if_pos rfl] at hw₁
      obtain ⟨⟨done, w₂⟩, hw₂, rfl⟩ := Option.map_eq_some_iff.mp hw₁
      cases fuel with
      | zero =>
        rw [Tables.dismount] at hw₂
        exact absurd hw₂.symm (Option.some_ne_none _)
      | succ n =>
        rcases Tables.dismount_cases hw₂ with ⟨rfl, -⟩ | ⟨other, w₃, hnone, -⟩
        · rfl
        · exact absurd (hby.symm.trans hnone) (Option.some_ne_none rider)
    intro hlinked
    rw [hsame] at hlinked
    have hpresent := (hlinked.present rider this ?_).2
    · rw [World.modify_self] at hpresent
      exact absurd hpresent.symm Bool.false_ne_true
    · rw [World.modify_of_ne hne]
      exact hon
  | _ => exact absurd trivial hbad

end Sound

/-! ### What holds along a run -/

namespace Tables

variable {t : Tables} {w : World}

theorem dismount_returns (ht : t.Harmless) (hw : Sound w) (this : CreaturePtr) :
    ∃ n r, t.dismount n w this = some r := by
  cases hby : (w this).MountedBy with
  | none =>
    obtain ⟨done, w', hw', -⟩ := dismount_ends ht hw hby (le_refl _)
    exact ⟨_, _, hw'⟩
  | some rider =>
    refine ⟨1, (false, w), ?_⟩
    rw [dismount, CreatureInstance.isMountedMount, hby]
    rfl

theorem dismountIfMounted_returns (ht : t.Harmless) (hw : Sound w) (this : CreaturePtr) :
    ∃ n w', t.dismountIfMounted n w this = some w' := by
  unfold dismountIfMounted
  split
  · obtain ⟨n, r, hr⟩ := dismount_returns ht hw this
    exact ⟨n, r.2, by rw [hr]; rfl⟩
  · exact ⟨0, w, rfl⟩

theorem removeBuffsFromAbility_returns_iff {this : CreaturePtr} {abilityID : Int} :
    (∃ n w', t.removeBuffsFromAbility n w this abilityID = some w') ↔
      ∃ n w', t.removeLoop n (fun m => m.abilityID == abilityID) w this 0 = some w' := by
  constructor
  · rintro ⟨fuel, w', hw'⟩
    cases fuel with
    | zero =>
      rw [removeBuffsFromAbility] at hw'
      exact absurd hw'.symm (Option.some_ne_none w')
    | succ n =>
      rw [removeBuffsFromAbility] at hw'
      obtain ⟨w₁, hw₁, -⟩ := Option.bind_eq_some_iff.mp hw'
      exact ⟨n, w₁, hw₁⟩
  · rintro ⟨n, w₁, hw₁⟩
    refine ⟨n + 1, w₁.modify this fun c =>
      { c with buffManager := c.buffManager.removeBuff abilityID }, ?_⟩
    rw [removeBuffsFromAbility, hw₁]
    rfl

/-- A call comes to an end exactly if its loop does. -/
theorem call_ends_iff (ht : t.Harmless) (hw : Sound w) (now : ℕ) {op : Op}
    (hpresent : ∀ p ∈ op.creatures, (w p).shutDown = false) :
    (∃ fuel w', t.step w ⟨now, fuel, op⟩ = some w') ↔ LoopEnds w op := by
  have hstep (fuel : ℕ) : t.step w ⟨now, fuel, op⟩ = t.run w ⟨now, fuel, op⟩ := if_pos hpresent
  simp only [hstep]
  cases op with
  | mount this other => exact iff_of_true ⟨0, _, rfl⟩ trivial
  | pushStatMod this newMod => exact iff_of_true ⟨0, _, rfl⟩ trivial
  | dismount this =>
    obtain ⟨n, r, hr⟩ := dismount_returns ht hw this
    exact iff_of_true ⟨n, r.2, congrArg (Option.map Prod.snd) hr⟩ trivial
  | processDeath this =>
    obtain ⟨n, w₁, hw₁⟩ := dismountIfMounted_returns ht hw this
    exact iff_of_true ⟨n, _, Option.bind_eq_some_iff.mpr ⟨w₁, hw₁, rfl⟩⟩ trivial
  | shutdown this =>
    obtain ⟨n, w₁, hw₁⟩ := dismountIfMounted_returns ht hw this
    exact iff_of_true ⟨n, _, Option.bind_eq_some_iff.mpr ⟨w₁, hw₁, rfl⟩⟩ trivial
  | removeAllBuffs this => exact loop_ends_iff ht hw
  | removeBuffsFromAbility this abilityID =>
    exact removeBuffsFromAbility_returns_iff.trans (loop_ends_iff ht hw)

end Tables

/-- Along a run the links are in step exactly if nobody is shut down while ridden. Then, in the
state that is reached, a call comes to an end exactly if its loop does. -/
theorem mounts_exact_iff {t : Tables} (ht : t.Harmless) {h : List (World × Call)} {w : World}
    (run : Trace Fresh (fun _ _ => True) t.step h w) :
    ((Linked w ∧ ∀ e ∈ h, Linked e.1) ↔ ∀ e ∈ h, NotRidden e.1 e.2.op) ∧
    ((∀ e ∈ h, NotRidden e.1 e.2.op) → ∀ now op,
      (∀ p ∈ op.creatures, (w p).shutDown = false) →
      ((∃ fuel w', t.step w ⟨now, fuel, op⟩ = some w') ↔ LoopEnds w op)) := by
  refine ⟨?_, fun hok now op hpresent => Tables.call_ends_iff ht ?_ now hpresent⟩
  · exact Trace.safe_iff (fun _ hfresh => hfresh.sound)
      (fun _ hsound => hsound.toLinked) (fun _ _ _ hsound hok hs => hsound.step ht hok hs)
      (fun _ _ _ hsound hbad hs => hsound.not_linked_of_ridden hbad hs) run
  · clear hpresent
    induction run with
    | start hfresh => exact hfresh.sound
    | next run _ hs ih =>
      obtain ⟨hlast, hrest⟩ := List.forall_mem_cons.mp hok
      exact (ih hrest).step ht hlast hs

/-! ### A knight and a horse -/

/-- A table without abilities that do anything. -/
def plain : Tables where
  abilityOnUse _ := 0
  onRequest w _ _ := w
  onDeactivate w _ _ := w

theorem plain_harmless : plain.Harmless where
  onRequest w _ _ := World.Same.refl w
  onDeactivate w _ _ := World.Same.refl w
  activeStatMod _ _ _ := rfl
  MountAbilityId _ _ _ := rfl

/-- A creature with a buff of no ability. -/
def plainCreature : CreatureInstance := { activeStatMod := [{}] }

/-- The knight with pointer 1, and the horse with pointer 2, which can be ridden. -/
def stable : World := fun p =>
  if p = 2 then plainCreature.addStatus 0 MOUNTABLE else plainCreature

theorem consistent_plainCreature : Consistent plainCreature := ⟨rfl, rfl⟩

theorem stable_fresh : Fresh stable := by
  intro p
  unfold stable
  split
  · exact ⟨rfl, rfl, by decide, by decide, consistent_plainCreature.addStatus 0 MOUNTABLE⟩
  · exact ⟨rfl, rfl, by decide, by decide, consistent_plainCreature⟩

/-- The knight mounts the horse. -/
def mounting : Call := { now := 1, fuel := 0, op := .mount 1 2 }

/-- The horse is shut down. -/
def horseShutdown : Call := { now := 2, fuel := 2, op := .shutdown 2 }

/-- The knight on the horse. -/
def riding : World := (plain.step stable mounting).getD stable

theorem riding_run : Trace Fresh (fun _ _ => True) plain.step [(stable, mounting)] riding :=
  (Trace.start stable_fresh).next trivial (Lib.eq_some_getD (by decide) stable)

/-- The links of the knight and the horse are in step, and the buffs of the knight can be removed.
-/
theorem mounts_exact_iff_riding : Linked riding ∧
    ∃ fuel w', plain.step riding ⟨2, fuel, .removeAllBuffs 1⟩ = some w' := by
  have hok : ∀ e ∈ [(stable, mounting)], NotRidden e.1 e.2.op :=
    List.forall_mem_singleton.mpr trivial
  obtain ⟨hlinked, hends⟩ := mounts_exact_iff plain_harmless riding_run
  refine ⟨(hlinked.mpr hok).1, (hends hok 2 (.removeAllBuffs 1) ?_).mpr ?_⟩
  · exact List.forall_mem_singleton.mpr (by decide)
  · exact Or.inl (by decide)

/-- After the horse was shut down the knight still rides on it; and before that, the loop that
removes all buffs of the horse does not end. -/
theorem horse_left_behind :
    (∃ h w, Trace Fresh (fun _ _ => True) plain.step h w ∧ ¬Linked w) ∧
      ∃ h w, Trace Fresh (fun _ _ => True) plain.step h w ∧
        ∀ fuel, plain.step w ⟨2, fuel, .removeAllBuffs 2⟩ = none := by
  constructor
  · refine ⟨_, (plain.step riding horseShutdown).getD riding,
      riding_run.next trivial (Lib.eq_some_getD (by decide) riding), fun hlinked => ?_⟩
    have hpresent := (hlinked.present 1 2 (by decide)).2
    exact absurd hpresent (by decide)
  · refine ⟨_, riding, riding_run, fun fuel => ?_⟩
    have hstuck : plain.removeAllBuffs fuel riding 2 = none :=
      Tables.loop_stuck (p := fun _ => true) plain_harmless fuel riding 0 0 {} (by decide)
        (le_refl 0) (by decide) rfl (by decide)
    exact (if_pos (List.forall_mem_singleton.mpr (by decide))).trans hstuck

end Iceee.Mounts
