import Iceee.Lib.Keyed
import Iceee.Lib.Trace
import Iceee.Status.Effects

/-!
# The effects are tracked

The bits, the list and the expiries agree, and a creature whose transformation ends is no longer
transformed, as long as no transformation expires or is undone while its effects are listed.
-/

namespace Iceee.Status

open Lib

/-! ### The list of effects -/

/-- When an effect of the list expires. -/
def ends (l : List ActiveStatusEffect) (e : StatusID) : Option Nat :=
  (l.find? fun a => a.modStatusID == e).map ActiveStatusEffect.expireTime

section List

variable {l : List ActiveStatusEffect} {e : StatusID}

theorem ends_isSome : (ends l e).isSome = true ↔ ∃ a ∈ l, a.modStatusID = e := by
  rw [ends, Option.isSome_map, List.find?_isSome]
  simp only [beq_iff_eq]

theorem ends_append {a : ActiveStatusEffect} (hnew : ∀ b ∈ l, b.modStatusID ≠ a.modStatusID) :
    ends (l ++ [a]) e = if e = a.modStatusID then some a.expireTime else ends l e := by
  rw [ends, find?_append_singleton hnew]
  split <;> rfl

variable (h : NodupKeys ActiveStatusEffect.modStatusID l)

include h

theorem ends_modify {k : StatusID} (hk : ∃ a ∈ l, a.modStatusID = k) (now t : Nat) :
    ends (l.modify (l.findIdx fun a => a.modStatusID == k) fun a =>
      { a with startTime := now, expireTime := t }) e = if e = k then some t else ends l e := by
  rw [ends, h.find?_modify_findIdx
    (f := fun a => { a with startTime := now, expireTime := t }) fun _ => rfl]
  split
  · next heq =>
      obtain ⟨a, ha, hak⟩ := hk
      rw [h.find?_eq_some.mpr ⟨ha, hak.trans heq.symm⟩]
      rfl
  · rfl

theorem ends_eraseP (k : StatusID) :
    ends (l.eraseP fun a => a.modStatusID == k) e = if e = k then none else ends l e := by
  rw [ends, h.find?_eraseP]
  split <;> rfl

theorem ends_filter (now : Nat) :
    ends (l.filter fun a => ¬now ≥ a.expireTime) e = (ends l e).filter fun t => now < t := by
  rw [ends, h.find?_filter, ends, Option.filter_map]
  simp only [Nat.not_le, ge_iff_le, Function.comp_def]

end List

/-! ### Bits and entries -/

/-- The bits are those of the entries, and no effect has two. -/
structure Consistent (c : CreatureInstance) : Prop where
  flags : ∀ e, c.hasStatus e = true ↔ ∃ a ∈ c.activeStatusEffect, a.modStatusID = e
  once : NodupKeys ActiveStatusEffect.modStatusID c.activeStatusEffect

namespace CreatureInstance

variable {c : CreatureInstance} {e k : StatusID}

theorem arrayIndex_bit_eq_iff :
    (arrayIndex e = arrayIndex k ∧ e.val % 32 = k.val % 32) ↔ e = k := by
  rw [arrayIndex, arrayIndex, Fin.mk.injEq, Fin.ext_iff]
  omega

@[simp] theorem hasStatus_setStatusFlag :
    (c.setStatusFlag e).hasStatus k = true ↔ e = k ∨ c.hasStatus k = true := by
  rw [hasStatus, setStatusFlag, bit, bit, testFlag_setFlag (Nat.mod_lt _ (by decide))
    (Nat.mod_lt _ (by decide)), arrayIndex_bit_eq_iff]
  rfl

@[simp] theorem hasStatus_clearStatusFlag :
    (c.clearStatusFlag e).hasStatus k = true ↔ e ≠ k ∧ c.hasStatus k = true := by
  rw [hasStatus, clearStatusFlag, bit, bit, testFlag_clearFlag (Nat.mod_lt _ (by decide))
    (Nat.mod_lt _ (by decide)), arrayIndex_bit_eq_iff]
  rfl

theorem hasStatus_foldl_clearStatusFlag {l : List ActiveStatusEffect} :
    (l.foldl (fun c a => c.clearStatusFlag a.modStatusID) c).hasStatus e = true ↔
      (∀ a ∈ l, a.modStatusID ≠ e) ∧ c.hasStatus e = true := by
  induction l generalizing c with
  | nil => simp
  | cons a l ih =>
      rw [List.foldl_cons, ih, hasStatus_clearStatusFlag, List.forall_mem_cons]
      exact and_left_comm.trans (and_assoc.symm)

theorem foldl_clearStatusFlag {l : List ActiveStatusEffect} :
    ∃ flags, l.foldl (fun c a => c.clearStatusFlag a.modStatusID) c =
      { c with statusEffects := flags } := by
  induction l generalizing c with
  | nil => exact ⟨c.statusEffects, rfl⟩
  | cons a l ih => exact ih

theorem findIdx_of_hasStatusList {r : Nat} (hr : c.hasStatusList e = some r) :
    r = c.activeStatusEffect.findIdx (fun a => a.modStatusID == e) ∧
      ∃ a ∈ c.activeStatusEffect, a.modStatusID = e := by
  obtain ⟨hlt, hidx⟩ := List.findIdx?_eq_some_iff_findIdx_eq.mp hr
  refine ⟨hidx.symm, ?_⟩
  obtain ⟨a, ha, hp⟩ := List.findIdx_lt_length.mp (hidx ▸ hlt)
  exact ⟨a, ha, eq_of_beq hp⟩

theorem not_mem_of_hasStatusList (hr : c.hasStatusList e = none) :
    ∀ a ∈ c.activeStatusEffect, a.modStatusID ≠ e := fun a ha =>
  beq_eq_false_iff_ne.mp (List.findIdx?_eq_none_iff.mp hr a ha)

end CreatureInstance

namespace Consistent

variable {c c' : CreatureInstance} {e e' : StatusID}

theorem hasStatus_iff (h : Consistent c) :
    c.hasStatus e = true ↔ (ends c.activeStatusEffect e).isSome = true :=
  (h.flags e).trans ends_isSome.symm

theorem ends_eq_some (h : Consistent c) {t : Nat} :
    ends c.activeStatusEffect e = some t ↔
      ∃ a ∈ c.activeStatusEffect, a.modStatusID = e ∧ a.expireTime = t := by
  rw [ends, Option.map_eq_some_iff]
  simp only [h.once.find?_eq_some, and_assoc]

/-- It is enough that a bit is set where there is an end. -/
theorem of_ends (honce : NodupKeys ActiveStatusEffect.modStatusID c.activeStatusEffect)
    (hflags : ∀ e, c.hasStatus e = true ↔ (ends c.activeStatusEffect e).isSome = true) :
    Consistent c :=
  ⟨fun e => (hflags e).trans ends_isSome, honce⟩

/-- Nothing else of the creature matters. -/
theorem of_eq (h : Consistent c) (hflags : c'.statusEffects = c.statusEffects)
    (hlist : c'.activeStatusEffect = c.activeStatusEffect) : Consistent c' where
  flags e := by
    rw [CreatureInstance.hasStatus, hflags, hlist]
    exact h.flags e
  once := hlist ▸ h.once

/-- An effect that is added has its bit, its entry and its end. -/
theorem addStatusList (h : Consistent c) (now : Nat) (e : StatusID) (d : Int) :
    Consistent (c.addStatusList now e d) ∧
      ∀ e', ends (c.addStatusList now e d).activeStatusEffect e' =
        if e' = e then some (CreatureInstance.endTime now d)
        else ends c.activeStatusEffect e' := by
  rw [CreatureInstance.addStatusList]
  dsimp only
  split
  · next r hr =>
      obtain ⟨rfl, hactive⟩ := CreatureInstance.findIdx_of_hasStatusList hr
      have hends (e' : StatusID) := ends_modify (e := e') h.once hactive now
        (CreatureInstance.endTime now d)
      refine ⟨of_ends (h.once.replace fun _ ha => ha) fun e' => ?_, hends⟩
      rw [hends]
      refine h.hasStatus_iff.trans ?_
      split
      · next heq =>
          rw [heq]
          exact iff_of_true (ends_isSome.mpr hactive) rfl
      · exact Iff.rfl
  · next hr =>
      have hnew := CreatureInstance.not_mem_of_hasStatusList hr
      let effect : ActiveStatusEffect := ⟨e, now, CreatureInstance.endTime now d⟩
      have hends (e' : StatusID) : ends (c.activeStatusEffect ++ [effect]) e' =
          if e' = e then some (CreatureInstance.endTime now d)
          else ends c.activeStatusEffect e' := ends_append hnew
      refine ⟨of_ends (nodupKeys_append_singleton.mpr ⟨h.once, hnew⟩) fun e' => ?_, hends⟩
      have hset := CreatureInstance.hasStatus_setStatusFlag (c := { c with
        activeStatusEffect := c.activeStatusEffect ++ [effect] }) (e := e) (k := e')
      refine hset.trans ((or_congr_right h.hasStatus_iff).trans ?_)
      refine Iff.trans ?_ (iff_of_eq (congrArg (fun o => o.isSome = true) (hends e'))).symm
      split
      · next heq => exact iff_of_true (.inl heq.symm) rfl
      · next hne => exact or_iff_right (Ne.symm hne)

/-- An entry that is erased takes its bit. -/
theorem erase (h : Consistent c) {r : Nat} (hr : c.hasStatusList e = some r) :
    Consistent ({ c with activeStatusEffect := c.activeStatusEffect.eraseIdx r
      }.clearStatusFlag e) ∧
      ∀ e', ends (c.activeStatusEffect.eraseIdx r) e' =
        if e' = e then none else ends c.activeStatusEffect e' := by
  have herase : c.activeStatusEffect.eraseIdx r =
      c.activeStatusEffect.eraseP fun a => a.modStatusID == e := by
    have hidx : (c.activeStatusEffect.findIdx? fun a => a.modStatusID == e) = some r := hr
    rw [List.eraseP_eq_eraseIdx, hidx]
  have hends (e' : StatusID) : ends (c.activeStatusEffect.eraseIdx r) e' =
      if e' = e then none else ends c.activeStatusEffect e' := by
    rw [herase]
    exact ends_eraseP h.once e
  refine ⟨of_ends (h.once.sublist (List.eraseIdx_sublist _ _)) fun e' => ?_, hends⟩
  have hclear := CreatureInstance.hasStatus_clearStatusFlag (c := { c with
    activeStatusEffect := c.activeStatusEffect.eraseIdx r }) (e := e) (k := e')
  refine hclear.trans ((and_congr_right' h.hasStatus_iff).trans ?_)
  refine Iff.trans ?_ (iff_of_eq (congrArg (fun o => o.isSome = true) (hends e'))).symm
  split
  · next heq => exact iff_of_false (fun hand => hand.1 heq.symm) Bool.false_ne_true
  · next hne => exact and_iff_right (Ne.symm hne)

/-- The effects that have expired go, with their bits. -/
theorem checkActiveStatusEffects (h : Consistent c) (now : Nat) :
    Consistent (c.checkActiveStatusEffects now) ∧
      ∀ e, ends (c.checkActiveStatusEffects now).activeStatusEffect e =
        (ends c.activeStatusEffect e).filter fun t => now < t := by
  have hfold := CreatureInstance.foldl_clearStatusFlag (c := { c with
    activeStatusEffect := c.activeStatusEffect.filter fun a => ¬now ≥ a.expireTime })
    (l := c.activeStatusEffect.filter fun a => now ≥ a.expireTime)
  have hlist : (c.checkActiveStatusEffects now).activeStatusEffect =
      c.activeStatusEffect.filter fun a => ¬now ≥ a.expireTime := by
    obtain ⟨flags, hflags⟩ := hfold
    rw [CreatureInstance.checkActiveStatusEffects, hflags]
  have hends (e : StatusID) : ends (c.checkActiveStatusEffects now).activeStatusEffect e =
      (ends c.activeStatusEffect e).filter fun t => now < t := by
    rw [hlist]
    exact ends_filter h.once now
  refine ⟨of_ends (hlist ▸ h.once.sublist List.filter_sublist) fun e => ?_, hends⟩
  refine CreatureInstance.hasStatus_foldl_clearStatusFlag.trans ?_
  rw [hlist, ends_isSome]
  constructor
  · rintro ⟨hnot, hset⟩
    obtain ⟨a, ha, rfl⟩ := (h.flags e).mp hset
    refine ⟨a, List.mem_filter.mpr ⟨ha, decide_eq_true fun hexp => ?_⟩, rfl⟩
    exact hnot a (List.mem_filter.mpr ⟨ha, decide_eq_true hexp⟩) rfl
  · rintro ⟨a, ha, rfl⟩
    obtain ⟨hmem, hact⟩ := List.mem_filter.mp ha
    refine ⟨fun b hb heq => ?_, (h.flags _).mpr ⟨a, hmem, rfl⟩⟩
    obtain ⟨hb, hexp⟩ := List.mem_filter.mp hb
    rw [List.inj_on_of_nodup_map h.once hb hmem heq] at hexp
    exact of_decide_eq_true hact (of_decide_eq_true hexp)

end Consistent

/-! ### What is to hold -/

/-- The end that an add gives an effect: a duration of -1 has none. -/
inductive Expiry
  | never
  | ending (time : Int)
  deriving DecidableEq

def expiry (now : Nat) (msDuration : Int) : Expiry :=
  if msDuration = -1 then .never else .ending (now + msDuration)

def Expiry.passed (now : Nat) : Expiry → Bool
  | .never => false
  | .ending time => time ≤ now

/-- The effect that an operation adds, with its duration. A creature that is transformed is not
transformed again. -/
def CreatureInstance.adds (c : CreatureInstance) : Op → Option (StatusID × Int)
  | .addStatusList statusID msDuration => some (statusID, msDuration)
  | .transform _ _ durationS | .scale _ durationS =>
      if c.transformModifier.isSome then none else some (StatusEffects.TRANSFORMED, durationS)
  | .nudify durationS =>
      if c.transformModifier.isSome then none
      else some (StatusEffects.INVISIBLE_EQUIPMENT, durationS)
  | .removeStatusList _ | .checkActiveStatusEffects | .untransform | .respec => none

/-- The effects that an operation removes. -/
def Op.removes : Op → List StatusID
  | .removeStatusList statusID => [statusID]
  | .respec => CreatureInstance.EffectList
  | _ => []

/-- The steps of a run, newest first. -/
abbrev History := List (CreatureInstance × (Nat × Op))

/-- The end of an effect by its most recent add, where it was not removed since and no check came at
or after that end. -/
def awaited : History → StatusID → Option Expiry
  | [], _ => none
  | (c, now, op) :: h, e =>
      match c.adds op with
      | some (added, msDuration) => if e = added then some (expiry now msDuration) else awaited h e
      | none =>
          if e ∈ op.removes then none
          else if op = .checkActiveStatusEffects then (awaited h e).filter fun x => !x.passed now
          else awaited h e

/-- The bits and entries agree, an effect is set as long as its end is awaited, and a step that ends
a transformation leaves the appearance as it was at the start. -/
structure Tracked (mods : List (Nat × AppearanceModifier)) (h : History) (c : CreatureInstance) :
    Prop extends Consistent c where
  awaited : ∀ e, c.hasStatus e = true ↔ (awaited h e).isSome = true
  untransformed : ∀ last ∈ h.head?, last.1.hasStatus StatusEffects.TRANSFORMED = true →
    c.hasStatus StatusEffects.TRANSFORMED = false →
      c.transformModifier = none ∧ c.appearanceModifiers = mods

/-- A creature without effects. -/
def Fresh (mods : List (Nat × AppearanceModifier)) (c : CreatureInstance) : Prop :=
  c.statusEffects = (fun _ => 0) ∧ c.activeStatusEffect = [] ∧ c.transformModifier = none ∧
    c.appearanceModifiers = mods ∧ ∀ p ∈ mods, p.1 < c.nextAddress

/-- The end of an effect that is added is a number of 64 bits, the clock has not come to the time
that stands for no end, and no transformation expires or is undone while its effects are listed. -/
def CreatureInstance.InOrder (c : CreatureInstance) : Nat × Op → Prop
  | (now, op) =>
      (∀ added ∈ c.adds op, added.2 = -1 ∨ 0 ≤ now + added.2 ∧ now + added.2 < 2 ^ 64) ∧
      match op with
      | .checkActiveStatusEffects => now < MAX_TIME ∧ (c.transformModifier.isSome = true →
          ∀ a ∈ c.activeStatusEffect, a.modStatusID = StatusEffects.TRANSFORMED →
            now < a.expireTime)
      | .removeStatusList statusID => statusID = StatusEffects.TRANSFORMED →
          c.hasStatus StatusEffects.TRANSFORMED = true → c.transformModifier.isSome = true →
            c.hasStatus StatusEffects.INVISIBLE_EQUIPMENT = false
      | .untransform => c.transformModifier.isSome = true →
          c.hasStatus StatusEffects.TRANSFORMED = false ∧
            c.hasStatus StatusEffects.INVISIBLE_EQUIPMENT = false
      | _ => True

instance : DecidableRel CreatureInstance.InOrder
  | _, (_, .checkActiveStatusEffects) => inferInstanceAs (Decidable (_ ∧ _ ∧ (_ → ∀ _ ∈ _, _ → _)))
  | _, (_, .removeStatusList _) => inferInstanceAs (Decidable (_ ∧ (_ → _ → _ → _)))
  | _, (_, .untransform) => inferInstanceAs (Decidable (_ ∧ (_ → _ ∧ _)))
  | _, (_, .addStatusList ..) | _, (_, .transform ..) | _, (_, .scale ..) | _, (_, .nudify _)
  | _, (_, .respec) => inferInstanceAs (Decidable (_ ∧ True))

/-! ### Times -/

def Expiry.time : Expiry → Nat
  | .never => MAX_TIME
  | .ending time => time.toNat

/-- The ends in the list are those that are awaited, and none is before the first time. -/
structure Timed (h : History) (c : CreatureInstance) : Prop extends Consistent c where
  times : ∀ e, ends c.activeStatusEffect e = (awaited h e).map Expiry.time
  nonneg : ∀ e t, awaited h e = some (.ending t) → 0 ≤ t

theorem time_expiry {now : Nat} {d : Int} (hd : d = -1 ∨ 0 ≤ now + d ∧ now + d < 2 ^ 64) :
    (expiry now d).time = CreatureInstance.endTime now d := by
  rw [expiry, CreatureInstance.endTime]
  split
  · rfl
  · next hne =>
      obtain ⟨hlow, hhigh⟩ := hd.resolve_left hne
      rw [Int.emod_eq_of_lt hlow hhigh]
      rfl

namespace Timed

variable {h : History} {c c' : CreatureInstance} {now : Nat} {op : Op}

/-- A step that adds an effect. -/
theorem added (hc : Timed h c) {e : StatusID} {d : Int} (hadds : c.adds op = some (e, d))
    (hd : d = -1 ∨ 0 ≤ now + d ∧ now + d < 2 ^ 64) (hc' : Consistent c')
    (hends : ∀ e', ends c'.activeStatusEffect e' =
      if e' = e then some (CreatureInstance.endTime now d) else ends c.activeStatusEffect e') :
    Timed ((c, now, op) :: h) c' where
  toConsistent := hc'
  times e' := by
    rw [hends, awaited, hadds]
    dsimp only
    split
    · exact congrArg some (time_expiry hd).symm
    · exact hc.times e'
  nonneg e' t ht := by
    rw [awaited, hadds] at ht
    dsimp only at ht
    split at ht
    · rw [expiry] at ht
      split at ht
      · cases ht
      · next hne =>
          cases ht
          exact (hd.resolve_left hne).1
    · exact hc.nonneg e' t ht

/-- A step that removes effects, or none. -/
theorem removed (hc : Timed h c) (hadds : c.adds op = none) (hop : op ≠ .checkActiveStatusEffects)
    (hc' : Consistent c') (hends : ∀ e, ends c'.activeStatusEffect e =
      if e ∈ op.removes then none else ends c.activeStatusEffect e) :
    Timed ((c, now, op) :: h) c' where
  toConsistent := hc'
  times e := by
    rw [hends, awaited, hadds]
    dsimp only
    rw [if_neg hop]
    split
    · rfl
    · exact hc.times e
  nonneg e t ht := by
    rw [awaited, hadds] at ht
    dsimp only at ht
    rw [if_neg hop] at ht
    split at ht
    · cases ht
    · exact hc.nonneg e t ht

/-- The check of the ends. -/
theorem checked (hc : Timed h c) (hnow : now < MAX_TIME) :
    Timed ((c, now, .checkActiveStatusEffects) :: h) (c.checkActiveStatusEffects now) where
  toConsistent := (hc.checkActiveStatusEffects now).1
  times e := by
    rw [(hc.checkActiveStatusEffects now).2, hc.times]
    change _ = Option.map Expiry.time ((awaited h e).filter fun x => !x.passed now)
    cases hx : awaited h e with
    | none => rfl
    | some x =>
        have hpassed : decide (now < x.time) = !x.passed now := by
          cases x with
          | never => simp [Expiry.time, Expiry.passed, hnow]
          | ending t =>
              have ht := hc.nonneg e t hx
              rw [Expiry.time, Expiry.passed, ← decide_not]
              exact decide_eq_decide.mpr (by omega)
        rw [Option.map_some, Option.filter_some, Option.filter_some, hpassed]
        split <;> rfl
  nonneg e t ht := by
    change (awaited h e).filter _ = _ at ht
    exact hc.nonneg e t (Option.eq_some_of_filter_eq_some ht)

end Timed

/-! ### Appearance -/

/-- The modifiers are those of the start, with the one of the transformation at the end. -/
structure Dressed (mods : List (Nat × AppearanceModifier)) (c : CreatureInstance) : Prop where
  plain : c.transformModifier = none → c.appearanceModifiers = mods
  changed : ∀ address, c.transformModifier = some address →
    (∃ m, c.appearanceModifiers = mods ++ [(address, m)]) ∧ ∀ p ∈ mods, p.1 ≠ address
  below : ∀ p ∈ mods, p.1 < c.nextAddress

namespace Dressed

variable {mods : List (Nat × AppearanceModifier)} {c c' : CreatureInstance}

/-- The effects do not matter. -/
theorem of_eq (h : Dressed mods c) (hmodifier : c'.transformModifier = c.transformModifier)
    (hmods : c'.appearanceModifiers = c.appearanceModifiers)
    (hnext : c'.nextAddress = c.nextAddress) : Dressed mods c' where
  plain := by rw [hmodifier, hmods]; exact h.plain
  changed := by rw [hmodifier, hmods]; exact h.changed
  below := by rw [hnext]; exact h.below

/-- A new modifier at the next address. -/
theorem push (h : Dressed mods c) (hplain : c.transformModifier = none) (m : AppearanceModifier)
    (hmodifier : c'.transformModifier = some c.nextAddress)
    (hmods : c'.appearanceModifiers = c.appearanceModifiers ++ [(c.nextAddress, m)])
    (hnext : c'.nextAddress = c.nextAddress + 1) : Dressed mods c' where
  plain hnone := by rw [hmodifier] at hnone; cases hnone
  changed address haddress := by
    obtain rfl := Option.some.inj (hmodifier.symm.trans haddress)
    exact ⟨⟨m, by rw [hmods, h.plain hplain]⟩, fun p hp => (h.below p hp).ne⟩
  below p hp := by
    rw [hnext]
    exact Nat.lt_succ_of_lt (h.below p hp)

theorem untransform (h : Dressed mods c) : Dressed mods c.CAF_Untransform.2 := by
  rw [CreatureInstance.CAF_Untransform]
  split
  · exact h
  · next address haddress =>
      obtain ⟨⟨m, hm⟩, hother⟩ := h.changed address haddress
      have hback : (c.appearanceModifiers.eraseP fun app => app.1 == address) = mods := by
        rw [hm, List.eraseP_append_right]
        · simp
        · intro p hp
          simpa using hother p hp
      exact {
        plain := fun _ => hback
        changed := fun _ hsome => by cases hsome
        below := h.below }

end Dressed

namespace CreatureInstance

variable {c : CreatureInstance} (now : Nat)

theorem addStatusList_of_eq (e : StatusID) (d : Int) :
    (c.addStatusList now e d).transformModifier = c.transformModifier ∧
      (c.addStatusList now e d).appearanceModifiers = c.appearanceModifiers ∧
      (c.addStatusList now e d).nextAddress = c.nextAddress := by
  rw [addStatusList]
  dsimp only
  split <;> exact ⟨rfl, rfl, rfl⟩

/-- The effects are added beside the transformation. -/
theorem addStatusList_eq (e : StatusID) (d : Int) (modifier : Option Nat) (next : Nat) :
    { c with transformModifier := modifier, nextAddress := next }.addStatusList now e d =
      { c.addStatusList now e d with transformModifier := modifier, nextAddress := next } := by
  have hlist : hasStatusList { c with transformModifier := modifier, nextAddress := next } e =
      c.hasStatusList e := rfl
  rw [addStatusList, addStatusList, hlist]
  cases c.hasStatusList e <;> rfl

theorem checkActiveStatusEffects_of_eq :
    (c.checkActiveStatusEffects now).transformModifier = c.transformModifier ∧
      (c.checkActiveStatusEffects now).appearanceModifiers = c.appearanceModifiers ∧
      (c.checkActiveStatusEffects now).nextAddress = c.nextAddress := by
  obtain ⟨flags, hflags⟩ := foldl_clearStatusFlag (c := { c with
    activeStatusEffect := c.activeStatusEffect.filter fun a => ¬now ≥ a.expireTime })
    (l := c.activeStatusEffect.filter fun a => now ≥ a.expireTime)
  rw [checkActiveStatusEffects, hflags]
  exact ⟨rfl, rfl, rfl⟩

theorem untransform_transformModifier : c.CAF_Untransform.2.transformModifier = none := by
  rw [CAF_Untransform]
  split
  · next hnone => exact hnone
  · rfl

theorem untransform_activeStatusEffect :
    c.CAF_Untransform.2.activeStatusEffect = c.activeStatusEffect := by
  rw [CAF_Untransform]
  split <;> rfl

/-- Without the two effects, undoing a transformation clears no bit. -/
theorem hasStatus_untransform (e : StatusID) (h : c.transformModifier.isSome = true →
    c.hasStatus StatusEffects.TRANSFORMED = false ∧
      c.hasStatus StatusEffects.INVISIBLE_EQUIPMENT = false) :
    c.CAF_Untransform.2.hasStatus e = true ↔ c.hasStatus e = true := by
  rw [CAF_Untransform]
  split
  · exact Iff.rfl
  · next address haddress =>
      obtain ⟨htrans, hinv⟩ := h (by rw [haddress]; rfl)
      have hclear : ((c.clearStatusFlag StatusEffects.TRANSFORMED).clearStatusFlag
          StatusEffects.INVISIBLE_EQUIPMENT).hasStatus e = true ↔ c.hasStatus e = true := by
        rw [hasStatus_clearStatusFlag, hasStatus_clearStatusFlag]
        refine ⟨fun hand => hand.2.2, fun hset => ⟨?_, ?_, hset⟩⟩
        · rintro rfl
          rw [hinv] at hset
          cases hset
        · rintro rfl
          rw [htrans] at hset
          cases hset
      exact hclear

end CreatureInstance

/-! ### Removing and undoing -/

namespace Consistent

variable {c : CreatureInstance} {e : StatusID}

theorem untransform (h : Consistent c) (hok : c.transformModifier.isSome = true →
    c.hasStatus StatusEffects.TRANSFORMED = false ∧
      c.hasStatus StatusEffects.INVISIBLE_EQUIPMENT = false) :
    Consistent c.CAF_Untransform.2 where
  flags e := by
    rw [CreatureInstance.hasStatus_untransform e hok,
      CreatureInstance.untransform_activeStatusEffect]
    exact h.flags e
  once := by
    rw [CreatureInstance.untransform_activeStatusEffect]
    exact h.once

/-- Removing an effect; where it undoes a transformation, the equipment is not hidden. -/
theorem removeStatusList (h : Consistent c) (hok : e = StatusEffects.TRANSFORMED →
    c.hasStatus StatusEffects.TRANSFORMED = true → c.transformModifier.isSome = true →
      c.hasStatus StatusEffects.INVISIBLE_EQUIPMENT = false) :
    Consistent (c.removeStatusList e) ∧
      ∀ e', ends (c.removeStatusList e).activeStatusEffect e' =
        if e' = e then none else ends c.activeStatusEffect e' := by
  rw [CreatureInstance.removeStatusList]
  split
  · next hr =>
      refine ⟨h, fun e' => ?_⟩
      split
      · next heq =>
          rw [heq]
          apply Option.not_isSome_iff_eq_none.mp
          intro hsome
          obtain ⟨a, ha, hae⟩ := ends_isSome.mp hsome
          exact CreatureInstance.not_mem_of_hasStatusList hr a ha hae
      · rfl
  · next r hr =>
      obtain ⟨hcons, hends⟩ := h.erase hr
      dsimp only
      split
      · next heq =>
          rw [CreatureInstance.untransform_activeStatusEffect]
          refine ⟨hcons.untransform fun hmodifier => ?_, hends⟩
          obtain ⟨-, hactive⟩ := CreatureInstance.findIdx_of_hasStatusList hr
          have hset : c.hasStatus StatusEffects.TRANSFORMED = true :=
            heq ▸ (h.flags e).mpr hactive
          have hinv := hok heq hset hmodifier
          have hclear (e' : StatusID) := CreatureInstance.hasStatus_clearStatusFlag (c := { c with
            activeStatusEffect := c.activeStatusEffect.eraseIdx r }) (e := e) (k := e')
          refine ⟨Bool.eq_false_iff.mpr fun hc => ((hclear _).mp hc).1 heq,
            Bool.eq_false_iff.mpr fun hc => ?_⟩
          exact absurd ((hclear _).mp hc).2 (Bool.eq_false_iff.mp hinv)
      · exact ⟨hcons, hends⟩

theorem foldl_removeStatusList {l : List StatusID} (h : Consistent c)
    (hl : StatusEffects.TRANSFORMED ∉ l) :
    Consistent (l.foldl CreatureInstance.removeStatusList c) ∧
      ∀ e, ends (l.foldl CreatureInstance.removeStatusList c).activeStatusEffect e =
        if e ∈ l then none else ends c.activeStatusEffect e := by
  induction l generalizing c with
  | nil => exact ⟨h, fun e => by simp⟩
  | cons k l ih =>
      rw [List.mem_cons, not_or] at hl
      obtain ⟨hcons, hends⟩ := h.removeStatusList fun heq => absurd heq (Ne.symm hl.1)
      obtain ⟨hall, hallends⟩ := ih hcons hl.2
      refine ⟨hall, fun e => ?_⟩
      rw [List.foldl_cons, hallends, hends]
      by_cases hel : e ∈ l
      · rw [if_pos hel, if_pos (List.mem_cons_of_mem k hel)]
      · simp only [hel, if_false, List.mem_cons, or_false]

end Consistent

theorem Dressed.removeStatusList {mods : List (Nat × AppearanceModifier)} {c : CreatureInstance}
    (h : Dressed mods c) (e : StatusID) : Dressed mods (c.removeStatusList e) := by
  rw [CreatureInstance.removeStatusList]
  split
  · exact h
  · next r _ =>
      have hcleared : Dressed mods ({ c with activeStatusEffect := c.activeStatusEffect.eraseIdx r
          }.clearStatusFlag e) := h.of_eq rfl rfl rfl
      dsimp only
      split
      · exact hcleared.untransform
      · exact hcleared

theorem Dressed.foldl_removeStatusList {mods : List (Nat × AppearanceModifier)}
    {c : CreatureInstance} (h : Dressed mods c) (l : List StatusID) :
    Dressed mods (l.foldl CreatureInstance.removeStatusList c) := by
  induction l generalizing c with
  | nil => exact h
  | cons k l ih => exact ih (h.removeStatusList k)

/-! ### Runs -/

/-- What a run of steps in order keeps. -/
structure Followed (mods : List (Nat × AppearanceModifier)) (h : History) (c : CreatureInstance) :
    Prop extends Timed h c, Dressed mods c where
  ended : ∀ last ∈ h.head?, last.1.hasStatus StatusEffects.TRANSFORMED = true →
    c.hasStatus StatusEffects.TRANSFORMED = true ∨ c.transformModifier = none

theorem Followed.tracked {mods : List (Nat × AppearanceModifier)} {h : History}
    {c : CreatureInstance} (hc : Followed mods h c) : Tracked mods h c where
  toConsistent := hc.toConsistent
  awaited e := by rw [hc.hasStatus_iff, hc.times, Option.isSome_map]
  untransformed last hlast hset hnot := by
    have hnone := (hc.ended last hlast hset).resolve_left (by rw [hnot]; exact Bool.false_ne_true)
    exact ⟨hnone, hc.plain hnone⟩

section Step

variable {mods : List (Nat × AppearanceModifier)} {h : History} {c c' : CreatureInstance}
  {now : Nat} {getPointerByCDef : Int → Option Text}

/-- A step that adds an effect to a creature that is not transformed, or is left as it was. -/
theorem Followed.of_add (hc : Followed mods h c) {op : Op} {e : StatusID} {d : Int}
    (hadds : c.adds op = some (e, d)) (hok : c.InOrder (now, op))
    (hflags : c'.statusEffects = (c.addStatusList now e d).statusEffects)
    (hlist : c'.activeStatusEffect = (c.addStatusList now e d).activeStatusEffect)
    (hdressed : Dressed mods c') : Followed mods ((c, now, op) :: h) c' := by
  obtain ⟨hcons, hends⟩ := hc.toConsistent.addStatusList now e d
  have hcons' := hcons.of_eq hflags hlist
  have htimed := hc.toTimed.added hadds (hok.1 _ hadds) hcons' fun e' => hlist ▸ hends e'
  refine { htimed, hdressed with ended := ?_ }
  intro last hlast hset
  obtain rfl := Option.some.inj hlast
  left
  rw [hcons'.hasStatus_iff, hlist, hends]
  split
  · rfl
  · exact hc.hasStatus_iff.mp hset

/-- A step that removes effects, or none. -/
theorem Followed.of_remove (hc : Followed mods h c) {op : Op} (hadds : c.adds op = none)
    (hop : op ≠ .checkActiveStatusEffects)
    (hcons : Consistent c' ∧ ∀ e, ends c'.activeStatusEffect e =
      if e ∈ op.removes then none else ends c.activeStatusEffect e)
    (hdressed : Dressed mods c')
    (hended : StatusEffects.TRANSFORMED ∈ op.removes →
      c.hasStatus StatusEffects.TRANSFORMED = true → c'.transformModifier = none) :
    Followed mods ((c, now, op) :: h) c' := by
  obtain ⟨hcons, hends⟩ := hcons
  refine { hc.toTimed.removed hadds hop hcons hends, hdressed with ended := ?_ }
  intro last hlast hset
  obtain rfl := Option.some.inj hlast
  by_cases hmem : StatusEffects.TRANSFORMED ∈ op.removes
  · exact .inr (hended hmem hset)
  · left
    rw [hcons.hasStatus_iff, hends, if_neg hmem]
    exact hc.hasStatus_iff.mp hset

/-- The step of a creature that is transformed already. -/
theorem Followed.of_same (hc : Followed mods h c) {op : Op} (hadds : c.adds op = none)
    (hop : op ≠ .checkActiveStatusEffects) (hremoves : op.removes = []) :
    Followed mods ((c, now, op) :: h) c := by
  refine hc.of_remove hadds hop ⟨hc.toConsistent, fun e => ?_⟩ hc.toDressed fun hmem => ?_
  · rw [hremoves, if_neg List.not_mem_nil]
  · rw [hremoves] at hmem
    cases hmem

theorem Followed.transform (hc : Followed mods h c) {CDefID abID durationS : Int}
    (hok : c.InOrder (now, .transform CDefID abID durationS)) :
    Followed mods ((c, now, .transform CDefID abID durationS) :: h)
      (c.CAF_Transform now getPointerByCDef CDefID abID durationS).2 := by
  have hkept := c.addStatusList_of_eq now StatusEffects.TRANSFORMED durationS
  obtain ⟨hmodifier, hmods, hnext⟩ := hkept
  rw [CreatureInstance.CAF_Transform]
  split
  · next hsome => exact hc.of_same (if_pos hsome) (by rintro ⟨⟩) rfl
  · next hnone =>
      have hplain := Option.not_isSome_iff_eq_none.mp hnone
      have hadds : c.adds (.transform CDefID abID durationS) =
          some (StatusEffects.TRANSFORMED, durationS) := if_neg hnone
      dsimp only
      split
      · next appearance _ =>
          let m : AppearanceModifier := .replace appearance
          refine hc.of_add hadds hok rfl rfl (hc.toDressed.push hplain m ?_ ?_ ?_)
          · exact congrArg some hnext
          · exact congrArg₂ (fun l n => l ++ [(n, m)]) hmods hnext
          · exact congrArg (· + 1) hnext
      · exact hc.of_add hadds hok rfl rfl (hc.toDressed.of_eq hmodifier hmods hnext)

/-- A step that pushes a modifier of its own when it adds its effect. -/
theorem Followed.of_push (hc : Followed mods h c) {op : Op} {e : StatusID} {d : Int}
    {m : AppearanceModifier}
    (hadds : c.adds op = if c.transformModifier.isSome then none else some (e, d))
    (hop : op ≠ .checkActiveStatusEffects) (hremoves : op.removes = [])
    (hok : c.InOrder (now, op)) :
    Followed mods ((c, now, op) :: h)
      (if c.transformModifier.isSome then c
        else ({ c with transformModifier := some c.nextAddress, nextAddress := c.nextAddress + 1
          }.addStatusList now e d).pushAppearanceModifier (c.nextAddress, m)) := by
  split
  · next hsome => exact hc.of_same (hadds.trans (if_pos hsome)) hop hremoves
  · next hnone =>
      have hplain := Option.not_isSome_iff_eq_none.mp hnone
      have hsame := c.addStatusList_eq now e d
        (some c.nextAddress) (c.nextAddress + 1)
      rw [hsame]
      refine hc.of_add (hadds.trans (if_neg hnone)) hok rfl rfl
        (hc.toDressed.push hplain m rfl ?_ rfl)
      exact congrArg (· ++ [(c.nextAddress, m)]) (c.addStatusList_of_eq now e d).2.1

/-- Every step in order keeps what a run keeps. -/
theorem Followed.step (hc : Followed mods h c) {a : Nat × Op} (hok : c.InOrder a)
    (hs : c.step getPointerByCDef a = some c') : Followed mods ((c, a) :: h) c' := by
  obtain ⟨now, op⟩ := a
  cases op with
  | addStatusList statusID msDuration =>
      obtain rfl := Option.some.inj hs
      obtain ⟨hmodifier, hmods, hnext⟩ := c.addStatusList_of_eq now statusID msDuration
      exact hc.of_add rfl hok rfl rfl (hc.toDressed.of_eq hmodifier hmods hnext)
  | removeStatusList statusID =>
      obtain rfl := Option.some.inj hs
      obtain ⟨hcons, hends⟩ := hc.toConsistent.removeStatusList hok.2
      refine hc.of_remove rfl (by rintro ⟨⟩) ⟨hcons, fun e => ?_⟩
        (hc.toDressed.removeStatusList statusID) fun hmem hset => ?_
      · simp only [hends, Op.removes, List.mem_singleton]
      · obtain rfl := List.mem_singleton.mp hmem
        rw [CreatureInstance.removeStatusList]
        split
        · next hr =>
            obtain ⟨a, ha, hae⟩ := (hc.flags _).mp hset
            exact absurd hae (CreatureInstance.not_mem_of_hasStatusList hr a ha)
        · dsimp only
          rw [if_pos rfl]
          exact CreatureInstance.untransform_transformModifier
  | checkActiveStatusEffects =>
      obtain rfl := Option.some.inj hs
      obtain ⟨hmodifier, hmods, hnext⟩ := c.checkActiveStatusEffects_of_eq now
      obtain ⟨-, hnow, hlater⟩ := hok
      refine { hc.toTimed.checked hnow, hc.toDressed.of_eq hmodifier hmods hnext with ended := ?_ }
      intro last hlast hset
      obtain rfl := Option.some.inj hlast
      rw [hmodifier]
      cases hsome : c.transformModifier with
      | none => exact .inr rfl
      | some address =>
          left
          obtain ⟨hcons, hends⟩ := hc.toConsistent.checkActiveStatusEffects now
          obtain ⟨a, ha, hae⟩ := (hc.flags _).mp hset
          have htime := hc.toConsistent.ends_eq_some.mpr ⟨a, ha, hae, rfl⟩
          have hact := hlater (by rw [hsome]; rfl) a ha hae
          rw [hcons.hasStatus_iff, hends, htime, Option.filter_some,
            if_pos (decide_eq_true hact)]
          rfl
  | transform CDefID abID durationS =>
      obtain rfl := Option.some.inj hs
      exact hc.transform hok
  | scale scale durationS =>
      have hpush := hc.of_push (m := .creatureAttribute "sz".toList scale) rfl (by rintro ⟨⟩) rfl
        hok
      rw [← Option.some.inj hs, CreatureInstance.CAF_Scale, apply_ite Prod.snd]
      exact hpush
  | nudify durationS =>
      have hpush := hc.of_push (m := .nudify) rfl (by rintro ⟨⟩) rfl hok
      rw [← Option.some.inj hs, CreatureInstance.CAF_Nudify, apply_ite Prod.snd]
      exact hpush
  | untransform =>
      obtain rfl := Option.some.inj hs
      refine hc.of_remove rfl (by rintro ⟨⟩) ⟨hc.toConsistent.untransform hok.2, fun e => ?_⟩
        hc.toDressed.untransform fun _ _ => CreatureInstance.untransform_transformModifier
      rw [CreatureInstance.untransform_activeStatusEffect]
      exact (if_neg List.not_mem_nil).symm
  | respec =>
      obtain rfl := Option.some.inj hs
      have hno : StatusEffects.TRANSFORMED ∉ CreatureInstance.EffectList := by decide
      exact hc.of_remove rfl (by rintro ⟨⟩) (hc.toConsistent.foldl_removeStatusList hno)
        (hc.toDressed.foldl_removeStatusList _) fun hmem => absurd hmem hno

/-- In a run of steps in order the effects are tracked. -/
theorem effects_tracked (run : Trace (Fresh mods) CreatureInstance.InOrder
    (CreatureInstance.step getPointerByCDef) h c) : Tracked mods h c := by
  refine (run.invariant (fun c hc => ?_) fun h c a c' hc hok hs => hc.step hok hs :
    Followed mods h c).tracked
  obtain ⟨hflags, hlist, hmodifier, hmods, hnext⟩ := hc
  exact {
    flags := fun e => by
      rw [CreatureInstance.hasStatus, hflags, hlist, testFlag_zero]
      simp
    once := by rw [hlist]; exact List.nodup_nil
    times := fun e => by rw [hlist]; rfl
    nonneg := fun e t ht => by cases ht
    plain := fun _ => hmods
    changed := fun address haddress => by rw [hmodifier] at haddress; cases haddress
    below := hnext
    ended := fun last hlast => by cases hlast }

end Step

/-- A creature that is stunned, hidden, and turned into another one for a while. -/
def afflictions : List (Nat × Op) :=
  [(1000, .addStatusList StatusEffects.STUN 500),
    (1200, .addStatusList StatusEffects.INVISIBLE (-1)),
    (1300, .transform 42 7 100), (1350, .removeStatusList StatusEffects.TRANSFORMED),
    (1500, .checkActiveStatusEffects)]

def statue : Int → Option Text := fun _ => some "statue".toList

/-- At the end it is hidden, and nothing else. -/
theorem afflictions_tracked : ∃ h c, Trace (Fresh []) CreatureInstance.InOrder
    (CreatureInstance.step statue) h c ∧ Tracked [] h c ∧
      c.activeStatusEffect.map ActiveStatusEffect.modStatusID = [StatusEffects.INVISIBLE] := by
  have hrun := Lib.eq_some_getD (o := Lib.runAll (CreatureInstance.step statue) {} afflictions)
    (by decide) {}
  have start : Trace (Fresh []) CreatureInstance.InOrder (CreatureInstance.step statue) [] {} :=
    .start ⟨rfl, rfl, rfl, rfl, by simp⟩
  have run := start.runAll (by decide) hrun
  exact ⟨_, _, run, effects_tracked run, by decide⟩

/-- A transformation that expires leaves the creature transformed. -/
theorem expired_transformed : ¬∀ getPointerByCDef mods h c,
    Trace (Fresh mods) (fun _ _ => True) (CreatureInstance.step getPointerByCDef) h c →
      Tracked mods h c := by
  intro hall
  have start : Trace (Fresh []) (fun _ _ => True) (CreatureInstance.step statue) [] {} :=
    .start ⟨rfl, rfl, rfl, rfl, by simp⟩
  have run := (start.next (a := (1000, .transform 42 7 100)) trivial rfl).next
    (a := (2000, .checkActiveStatusEffects)) trivial rfl
  obtain ⟨hnone, -⟩ := (hall statue [] _ _ run).untransformed _ rfl (by decide)
    (by decide)
  exact absurd hnone (by decide)

end Iceee.Status
