import Iceee.Lib.Position
import Iceee.Lib.Trace

/-!
# Scenery effects

An instance keeps a list of effects for each prop. `RemoveSceneryEffect` returns a pointer to the
slot that it has just erased, and takes an emptied list out of the map by the index of the slot
instead of the ID of the prop.

## Main result

* `removals_exact_iff`: the runs in which every removal is exact.

## Implementation notes

What a pointer shows is read right after the call, as its callers do. Behind the last effect of a
list, and where the list itself has been freed, it shows the bytes that are there, which the call is
given as `stale`. The text of an effect is the text that its `const char *` points to.
-/

namespace Iceee.SceneryEffects

open Lib

inductive SceneryEffectType where
  | PARTICLE_EFFECT
  | ASSET_UPDATE
  | TRANSFORMATION
  deriving DecidableEq

/-- `SceneryEffect`. -/
structure SceneryEffect (F : Type*) where
  tag : Int
  type : SceneryEffectType
  propID : Int
  scale : F
  offsetX : F
  offsetY : F
  offsetZ : F
  effect : String
  deriving DecidableEq

/-- `SceneryEffectMap`. -/
abbrev SceneryEffectMap (F : Type*) := Int → Option (List (SceneryEffect F))

variable {F : Type*} (effects : SceneryEffectMap F)

/-- `GetSceneryEffectList`: the map then, with the list of the prop. -/
def getSceneryEffectList (propID : Int) : SceneryEffectMap F × List (SceneryEffect F) :=
  match effects propID with
  | none => (Function.update effects propID (some []), [])
  | some list => (effects, list)

/-- `push_back` on the list of a prop. -/
def attach (propID : Int) (effect : SceneryEffect F) : SceneryEffectMap F :=
  let (effects, list) := getSceneryEffectList effects propID
  Function.update effects propID (some (list ++ [effect]))

/-- `RemoveSceneryEffect`: the map then, and what the pointer it returns shows. -/
def removeSceneryEffect (propID tag : Int) (stale : SceneryEffect F) :
    SceneryEffectMap F × Option (SceneryEffect F) :=
  match effects propID with
  | none => (effects, none)
  | some list =>
      match list.findIdx? (·.tag == tag) with
      | none => (effects, none)
      | some i =>
          let list := list.eraseIdx i
          let effects := Function.update effects propID (some list)
          -- the key of the map that is erased is the index
          (if list.length = 0 then Function.update effects i none else effects,
            some (list[i]?.getD stale))

/-- What scripts do with the effects of an instance. -/
inductive Event (F : Type*) where
  | getSceneryEffectList (propID : Int)
  | attach (propID : Int) (effect : SceneryEffect F)
  | removeSceneryEffect (propID tag : Int) (stale : SceneryEffect F)

def step : Event F → Option (SceneryEffectMap F)
  | .getSceneryEffectList propID => some (getSceneryEffectList effects propID).1
  | .attach propID effect => some (attach effects propID effect)
  | .removeSceneryEffect propID tag stale =>
      some (removeSceneryEffect effects propID tag stale).1

/-! ### Exact removal -/

/-- The effects of a prop. -/
def effectsOf (propID : Int) : List (SceneryEffect F) := (effects propID).getD []

/-- A removal returns the first effect of the prop with the tag and removes this one; without such
an effect it changes nothing. -/
structure Removes (propID tag : Int) (effects' : SceneryEffectMap F)
    (found : Option (SceneryEffect F)) : Prop where
  returned : found = (effectsOf effects propID).find? (·.tag == tag)
  removed : effectsOf effects' propID = (effectsOf effects propID).eraseP (·.tag == tag)
  others : ∀ other, other ≠ propID → effectsOf effects' other = effectsOf effects other
  unchanged : found = none → effects' = effects

/-- Every removal is exact, and to ask for a list changes no effects. -/
def Exact : Event F → Prop
  | .getSceneryEffectList propID =>
      (getSceneryEffectList effects propID).2 = effectsOf effects propID ∧
        effectsOf (getSceneryEffectList effects propID).1 = effectsOf effects
  | .attach propID effect =>
      effectsOf (attach effects propID effect) =
        Function.update (effectsOf effects) propID (effectsOf effects propID ++ [effect])
  | .removeSceneryEffect propID tag stale =>
      Removes effects propID tag (removeSceneryEffect effects propID tag stale).1
        (removeSceneryEffect effects propID tag stale).2

/-- Behind the effect that is removed stands one with the same values; and it is not the last one of
its prop while the prop 0, another one, has effects. -/
def Removable : Event F → Prop
  | .removeSceneryEffect propID tag stale =>
      ∀ i ∈ (effectsOf effects propID).findIdx? (·.tag == tag),
        (effectsOf effects propID)[i]? = some ((effectsOf effects propID)[i + 1]?.getD stale) ∧
          ((effectsOf effects propID).length = 1 → propID = 0 ∨ effectsOf effects 0 = [])
  | _ => True

section Step

variable {effects}

theorem effectsOf_update (propID : Int) (list : Option (List (SceneryEffect F))) :
    effectsOf (Function.update effects propID list) =
      Function.update (effectsOf effects) propID (list.getD []) := by
  ext other : 1
  by_cases hother : other = propID
  · subst hother
    rw [effectsOf, Function.update_self, Function.update_self]
  · rw [effectsOf, Function.update_of_ne hother, Function.update_of_ne hother, effectsOf]

theorem getSceneryEffectList_exact (propID : Int) :
    Exact effects (.getSceneryEffectList propID) := by
  cases hlist : effects propID with
  | none =>
      simp only [Exact, getSceneryEffectList, hlist, effectsOf_update]
      refine ⟨by rw [effectsOf, hlist]; rfl, Function.update_eq_self_iff.mpr ?_⟩
      rw [effectsOf, hlist]
      rfl
  | some list =>
      simp only [Exact, getSceneryEffectList, hlist, and_true]
      rw [effectsOf, hlist]
      rfl

theorem attach_exact (propID : Int) (effect : SceneryEffect F) :
    Exact effects (.attach propID effect) := by
  obtain ⟨hlist, hmap⟩ : Exact effects (.getSceneryEffectList propID) :=
    getSceneryEffectList_exact propID
  change effectsOf (Function.update (getSceneryEffectList effects propID).1 propID
    (some ((getSceneryEffectList effects propID).2 ++ [effect]))) = _
  rw [effectsOf_update, hmap, hlist]
  rfl

/-- What a removal does that finds its effect. -/
theorem removeSceneryEffect_of_some {propID tag : Int} {i : ℕ} (stale : SceneryEffect F)
    (hi : (effectsOf effects propID).findIdx? (·.tag == tag) = some i) :
    removeSceneryEffect effects propID tag stale =
      (if ((effectsOf effects propID).eraseIdx i).length = 0 then
          Function.update (Function.update effects propID
            (some ((effectsOf effects propID).eraseIdx i))) i none
        else Function.update effects propID (some ((effectsOf effects propID).eraseIdx i)),
        some ((effectsOf effects propID)[i + 1]?.getD stale)) := by
  cases hlist : effects propID with
  | none =>
      rw [effectsOf, hlist] at hi
      cases hi
  | some list =>
      rw [effectsOf, hlist, Option.getD_some] at hi ⊢
      simp only [removeSceneryEffect, hlist, hi]
      rw [List.getElem?_eraseIdx_of_ge le_rfl]

theorem removeSceneryEffect_of_none {propID tag : Int} (stale : SceneryEffect F)
    (hi : (effectsOf effects propID).findIdx? (·.tag == tag) = none) :
    removeSceneryEffect effects propID tag stale = (effects, none) := by
  cases hlist : effects propID with
  | none => simp only [removeSceneryEffect, hlist]
  | some list =>
      rw [effectsOf, hlist, Option.getD_some] at hi
      simp only [removeSceneryEffect, hlist, hi]

/-- The effects after an effect was taken out of a list. -/
theorem effectsOf_removed (propID : Int) (i : ℕ) (list : List (SceneryEffect F)) :
    effectsOf (if list.length = 0 then
        Function.update (Function.update effects propID (some list)) i none
      else Function.update effects propID (some list)) =
      if list.length = 0 then
        Function.update (Function.update (effectsOf effects) propID list) i []
      else Function.update (effectsOf effects) propID list := by
  split
  · rw [effectsOf_update, effectsOf_update]
    rfl
  · rw [effectsOf_update]
    rfl

/-- The list of another prop is kept unless it is the one that the index names. -/
theorem others_kept_iff {propID : Int} {i : ℕ} {list : List (SceneryEffect F)}
    (hi : list.length = 0 → i = 0) :
    (∀ other, other ≠ propID → effectsOf (if list.length = 0 then
        Function.update (Function.update effects propID (some list)) i none
      else Function.update effects propID (some list)) other = effectsOf effects other) ↔
      (list.length = 0 → propID = 0 ∨ effectsOf effects 0 = []) := by
  rw [effectsOf_removed]
  by_cases hempty : list.length = 0
  · rw [if_pos hempty, hi hempty]
    constructor
    · intro h _
      by_cases hzero : propID = 0
      · exact .inl hzero
      · have h0 := h 0 fun h0 => hzero h0.symm
        rw [Nat.cast_zero, Function.update_self] at h0
        exact .inr h0.symm
    · intro h other hother
      rw [Nat.cast_zero]
      by_cases h0 : other = 0
      · subst h0
        rw [Function.update_self]
        exact ((h hempty).resolve_left fun hzero => hother hzero.symm).symm
      · rw [Function.update_of_ne h0, Function.update_of_ne hother]
  · rw [if_neg hempty]
    exact iff_of_true (fun other hother => Function.update_of_ne hother _ _)
      fun h => absurd h hempty

theorem removeSceneryEffect_exact_iff (propID tag : Int) (stale : SceneryEffect F) :
    Exact effects (.removeSceneryEffect propID tag stale) ↔
      Removable effects (.removeSceneryEffect propID tag stale) := by
  rcases findIdx?_cases (·.tag == tag) (effectsOf effects propID) with
    ⟨hi, hfind⟩ | ⟨i, effect, hi, hget, hfind, herase⟩
  · rw [Exact, removeSceneryEffect_of_none stale hi]
    refine iff_of_true ⟨hfind.symm, ?_, fun _ _ => rfl, fun _ => rfl⟩ ?_
    · rw [List.eraseP_of_forall_not fun a ha => by simpa using List.find?_eq_none.mp hfind a ha]
    · intro i hmem
      rw [hi] at hmem
      cases hmem
  · have hlt : i < (effectsOf effects propID).length := (List.getElem?_eq_some_iff.mp hget).1
    have hlength := List.length_eraseIdx_of_lt hlt
    have hfirst : ((effectsOf effects propID).eraseIdx i).length = 0 → i = 0 := by omega
    have hone : ((effectsOf effects propID).eraseIdx i).length = 0 ↔
        (effectsOf effects propID).length = 1 := by omega
    have hremovable : Removable effects (.removeSceneryEffect propID tag stale) ↔
        some effect = some ((effectsOf effects propID)[i + 1]?.getD stale) ∧
          ((effectsOf effects propID).length = 1 → propID = 0 ∨ effectsOf effects 0 = []) := by
      simp only [Removable, hi, Option.mem_some_iff, forall_eq', hget]
    rw [hremovable, ← hone, ← others_kept_iff hfirst, Exact, removeSceneryEffect_of_some stale hi]
    constructor
    · intro h
      exact ⟨(h.returned.trans hfind).symm, h.others⟩
    · rintro ⟨hvalues, hothers⟩
      refine ⟨hvalues.symm.trans hfind.symm, ?_, hothers, fun h => nomatch h⟩
      rw [effectsOf_removed, ← herase]
      split
      · next hempty =>
          rw [List.length_eq_zero_iff.mp hempty]
          by_cases h0 : propID = i
          · rw [← h0, Function.update_self]
          · rw [Function.update_of_ne h0, Function.update_self]
      · rw [Function.update_self]

theorem exact_iff_removable (event : Event F) : Exact effects event ↔ Removable effects event := by
  cases event with
  | getSceneryEffectList propID => exact iff_of_true (getSceneryEffectList_exact propID) trivial
  | attach propID effect => exact iff_of_true (attach_exact propID effect) trivial
  | removeSceneryEffect propID tag stale => exact removeSceneryEffect_exact_iff propID tag stale

end Step

/-! ### Runs -/

/-- In a run every removal is exact exactly when each one, in the state it comes in, finds the same
values behind its effect and does not empty the list of a prop while those of prop 0 are needed. -/
theorem removals_exact_iff (events : List (Event F)) :
    OkAll Exact step (fun _ => none) events ↔ OkAll Removable step (fun _ => none) events := by
  generalize (fun _ => none : SceneryEffectMap F) = effects
  induction events generalizing effects with
  | nil => rfl
  | cons event events ih =>
      exact and_congr (exact_iff_removable event) <| forall_congr' fun _ => imp_congr_right fun _ => ih _

/-- An effect with a tag on a prop. -/
def glow (propID tag : Int) : SceneryEffect ℚ where
  tag := tag
  type := .PARTICLE_EFFECT
  propID := propID
  scale := 1
  offsetX := 0
  offsetY := 0
  offsetZ := 0
  effect := "Glow"

/-- The removal of the first of two effects reports the second one; and the removal of the only
effect of a prop takes away those of the prop 0. -/
theorem removals_inexact :
    ¬OkAll Exact step (fun _ => none) [.attach 7 (glow 7 1), .attach 7 (glow 7 2),
        .removeSceneryEffect 7 1 (glow 7 2)] ∧
      ¬OkAll Exact step (fun _ => none) [.attach 0 (glow 0 1), .attach 7 (glow 7 2),
        .removeSceneryEffect 7 2 (glow 7 2)] := by
  refine ⟨fun h => ?_, fun h => ?_⟩
  · have hreturned := ((h.2 _ rfl).2 _ rfl).1.returned
    revert hreturned
    decide
  · have hothers := ((h.2 _ rfl).2 _ rfl).1.others 0 (by decide)
    revert hothers
    decide

end Iceee.SceneryEffects
