import Iceee.Ability.Slot
import Iceee.Buffs.Modifiers
import Iceee.Status.Tracking

/-!
# Creatures that ride

A creature rides on another one: each has a pointer to the other, and a status effect. The mount
may come with an ability, whose buffs go when the ride ends; when one of these buffs goes, the ride
ends.

## Implementation notes

The stats that buffs change, scripts, packets and movement are left out. The definitions of
creatures and what abilities do at their events are inputs. Dismounting and the loops that remove
buffs call each other; the number that bounds the depth of these calls is an input, and a call that
needs more has no result.
-/

namespace Iceee.Mounts

open Buffs (ActiveStatMod ActiveBuffManager)
open Status (StatusID Consistent)

def MOUNTABLE : StatusID := ⟨70, by decide⟩
def MOUNTED : StatusID := ⟨71, by decide⟩
def CARRYING_RIDER : StatusID := ⟨72, by decide⟩

/-- What riding reads and changes of a creature, and whether it was shut down. -/
structure CreatureInstance extends Status.CreatureInstance where
  CreatureDefID : Int := 0
  activeStatMod : List ActiveStatMod := []
  buffManager : ActiveBuffManager := {}
  MountedOn : Option CreaturePtr := none
  MountedBy : Option CreaturePtr := none
  MountAbilityId : Int := 0
  shutDown : Bool := false

namespace CreatureInstance

variable (c : CreatureInstance)

/-- `IsMounted`. -/
def isMounted : Bool := c.MountedOn.isSome || c.MountedBy.isSome

/-- `IsMountedMount`. -/
def isMountedMount : Bool := c.MountedBy.isSome

/-- `_AddStatusList`, without an end. -/
def addStatus (now : ℕ) (statusID : StatusID) : CreatureInstance :=
  { c with toCreatureInstance := c.toCreatureInstance.addStatusList now statusID (-1) }

/-- `_RemoveStatusList`. -/
def removeStatus (statusID : StatusID) : CreatureInstance :=
  { c with toCreatureInstance := c.toCreatureInstance.removeStatusList statusID }

end CreatureInstance

/-- The creatures at their addresses. -/
abbrev World := CreaturePtr → CreatureInstance

/-- Change one creature. -/
def World.modify (w : World) (p : CreaturePtr) (f : CreatureInstance → CreatureInstance) : World :=
  Function.update w p (f (w p))

/-- The tables: `AbilityOnUse` of the definitions, where 0 stands for a definition that is not
there, and what abilities do when they are requested and when they are deactivated. -/
structure Tables where
  abilityOnUse : Int → Int
  onRequest : World → CreaturePtr → Int → World
  onDeactivate : World → CreaturePtr → Int → World

namespace Tables

variable (t : Tables)

/-! ### Mounting -/

/-- What `Mount` does to the two creatures before the ability of the mount is called. -/
def link (w : World) (now : ℕ) (this mount : CreaturePtr) : World :=
  let w := w.modify this fun c => { c with MountedOn := some mount }
  let w := w.modify mount fun c => { c with MountedBy := some this }
  let w := w.modify this fun c => c.addStatus now MOUNTED
  w.modify mount fun c => c.addStatus now CARRYING_RIDER

/-- `Mount`. -/
def mount (w : World) (now : ℕ) (this mount : CreaturePtr) : Bool × World :=
  if (w this).isMounted then (false, w)
  else if (w mount).isMounted then (false, w)
  else if (w this).hasStatus MOUNTABLE then (false, w)
  else if !(w mount).hasStatus MOUNTABLE then (false, w)
  else
    let w := link w now this mount
    let abilityOnUse := t.abilityOnUse (w mount).CreatureDefID
    if abilityOnUse > 0 then
      let w := w.modify this fun c => { c with MountAbilityId := abilityOnUse }
      (true, t.onRequest w this abilityOnUse)
    else (true, w.modify this fun c => { c with MountAbilityId := 0 })

/-! ### Dismounting and the removal of buffs -/

/-- What `Dismount` does to the two creatures before the buffs of the mount go. -/
def unlink (w : World) (this wasMounted : CreaturePtr) : World :=
  let w := w.modify wasMounted fun c => { c with MountedBy := none }
  let w := w.modify this fun c => { c with MountedOn := none }
  let w := w.modify wasMounted fun c => c.removeStatus CARRYING_RIDER
  w.modify this fun c => c.removeStatus MOUNTED

/-- The event of the ability of a buff that goes. -/
def deactivate (w : World) (this : CreaturePtr) (m : ActiveStatMod) : World :=
  if m.abilityID ≠ 0 then t.onDeactivate w this m.abilityID else w

/-- The second branch of `RemoveBuffIndex`: the buff may be another one after the ability was
deactivated, and there has to be one. -/
def eraseMod (w : World) (this : CreaturePtr) (index : ℕ) (m : ActiveStatMod) : Option World :=
  let w := t.deactivate w this m
  if index < (w this).activeStatMod.length then
    some (w.modify this fun c => { c with activeStatMod := c.activeStatMod.eraseIdx index })
  else none

mutual

/-- `Dismount`. -/
def dismount : ℕ → World → CreaturePtr → Option (Bool × World)
  | 0, _, _ => none
  | n + 1, w, this =>
      if (w this).isMountedMount then some (false, w)
      else
        match (w this).MountedOn with
        | none => some (false, w)
        | some wasMounted =>
            let w := unlink w this wasMounted
            let abilityOnUse := t.abilityOnUse (w wasMounted).CreatureDefID
            (if abilityOnUse > 0 then removeBuffsFromAbility n w this abilityOnUse else some w).map
              fun w => (true, w.modify this fun c => { c with MountAbilityId := 0 })
termination_by structural n => n

/-- `RemoveBuffIndex`, of an index in the list. -/
def removeBuffIndex : ℕ → World → CreaturePtr → ℕ → Option World
  | 0, _, _, _ => none
  | n + 1, w, this, index =>
      match (w this).activeStatMod[index]? with
      | none => none
      | some m =>
          if m.abilityID = (w this).MountAbilityId ∧ (w this).isMounted then
            (dismount n w this).map Prod.snd
          else t.eraseMod w this index m
termination_by structural n => n

/-- A loop that removes the buffs that match and passes over the others. -/
def removeLoop : ℕ → (ActiveStatMod → Bool) → World → CreaturePtr → ℕ → Option World
  | 0, _, _, _, _ => none
  | n + 1, p, w, this, i =>
      match (w this).activeStatMod[i]? with
      | none => some w
      | some m =>
          if p m then do
            let w ← removeBuffIndex n w this i
            removeLoop n p w this i
          else removeLoop n p w this (i + 1)
termination_by structural n => n

/-- `RemoveBuffsFromAbility`. -/
def removeBuffsFromAbility : ℕ → World → CreaturePtr → Int → Option World
  | 0, _, _, _ => none
  | n + 1, w, this, abilityID => do
      let w ← removeLoop n (fun m => m.abilityID == abilityID) w this 0
      some (w.modify this fun c => { c with buffManager := c.buffManager.removeBuff abilityID })
termination_by structural n => n

end

/-- `RemoveAllBuffs`. -/
def removeAllBuffs (n : ℕ) (w : World) (this : CreaturePtr) : Option World :=
  t.removeLoop n (fun _ => true) w this 0

/-! ### The end of a creature -/

/-- `if(IsMounted()) Dismount();` -/
def dismountIfMounted (n : ℕ) (w : World) (this : CreaturePtr) : Option World :=
  if (w this).isMounted then (t.dismount n w this).map Prod.snd else some w

/-- `ProcessDeath`, with what `PrepareDeath` does to the effects. -/
def processDeath (n now : ℕ) (w : World) (this : CreaturePtr) : Option World := do
  let w ← t.dismountIfMounted n w this
  let w := w.modify this fun c => c.addStatus now Status.StatusEffects.DEAD
  some (w.modify this fun c =>
    if c.hasStatus Status.StatusEffects.STUN then c.removeStatus Status.StatusEffects.STUN else c)

/-- `Shutdown`. -/
def shutdown (n : ℕ) (w : World) (this : CreaturePtr) : Option World := do
  let w ← t.dismountIfMounted n w this
  some (w.modify this fun c =>
    { c with
      activeStatMod := []
      activeStatusEffect := []
      buffManager := {}
      appearanceModifiers := []
      shutDown := true })

end Tables

/-- The calls. The last one gives a creature a buff, with `PushStatMod`. -/
inductive Op
  | mount (this mount : CreaturePtr)
  | dismount (this : CreaturePtr)
  | processDeath (this : CreaturePtr)
  | removeBuffsFromAbility (this : CreaturePtr) (abilityID : Int)
  | removeAllBuffs (this : CreaturePtr)
  | shutdown (this : CreaturePtr)
  | pushStatMod (this : CreaturePtr) (newMod : ActiveStatMod)
  deriving DecidableEq

/-- The creatures that a call names. -/
def Op.creatures : Op → List CreaturePtr
  | .mount this target => [this, target]
  | .dismount this | .processDeath this | .removeBuffsFromAbility this _ | .removeAllBuffs this
  | .shutdown this | .pushStatMod this _ => [this]

/-- A call at a time of the server, with a bound for the depth of the calls. -/
structure Call where
  now : ℕ
  fuel : ℕ
  op : Op

/-- What a call does. -/
def Tables.run (t : Tables) (w : World) (call : Call) : Option World :=
  match call.op with
  | .mount this mount => some (t.mount w call.now this mount).2
  | .dismount this => (t.dismount call.fuel w this).map Prod.snd
  | .processDeath this => t.processDeath call.fuel call.now w this
  | .removeBuffsFromAbility this abilityID => t.removeBuffsFromAbility call.fuel w this abilityID
  | .removeAllBuffs this => t.removeAllBuffs call.fuel w this
  | .shutdown this => t.shutdown call.fuel w this
  | .pushStatMod this newMod =>
      some (w.modify this fun c => { c with activeStatMod := c.activeStatMod ++ [newMod] })

/-- A creature that was shut down is not there any more to be named by a call. -/
def Tables.step (t : Tables) (w : World) (call : Call) : Option World :=
  if ∀ p ∈ call.op.creatures, (w p).shutDown = false then t.run w call else none

end Iceee.Mounts
