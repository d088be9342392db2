import Iceee.Buffs.Modifiers
import Iceee.Lib.Trace

/-!
# Cooldowns and buffs of abilities

A creature keeps the cooldowns that its abilities have started, and the buffs it is under, each with
the time it ends. Nothing sweeps these lists: an entry that has ended goes when a lookup meets it.

## Implementation notes

A lookup returns an index, or -1 for nothing, which is `none` here. The times of cooldowns are
`unsigned long`, their durations `int`. The table that resolves the names of cooldowns is a
parameter; 0 stands for an unknown name.
-/

namespace Iceee

/-- `AddBuff`: the list gets one more entry, whatever it has. -/
def Buffs.ActiveBuffManager.addBuff (bm : Buffs.ActiveBuffManager) (g_ServerTime : Nat)
    (tier buffType : UInt8) (abID abgID : Int) (duration : ℚ) (initialising : Bool) :
    Buffs.ActiveBuffManager :=
  let durationS := bm.duration tier abID duration initialising
  { bm with
    buffList := bm.buffList ++ [
      { tier, buffType, abID, abgID, durationS
        castEndTimeMS := g_ServerTime + durationS * 1000 }] }

namespace Ability

open Lib Buffs

structure ActiveCooldown where
  category : Int
  durationMS : Int32
  castStartTimeMS : UInt64
  castEndTimeMS : UInt64
  deriving DecidableEq, Repr

structure ActiveCooldownManager where
  cooldownList : List ActiveCooldown := []
  deriving DecidableEq, Repr

namespace ActiveCooldownManager

variable (cm : ActiveCooldownManager) (g_ServerTime : UInt64)

/-- `HasCooldown`. -/
def hasCooldown (category : Int) : Option Nat × ActiveCooldownManager :=
  match cm.cooldownList.findIdx? fun e => e.category == category with
  | none => (none, cm)
  | some i =>
      match cm.cooldownList[i]? with
      | none => (none, cm)
      | some e =>
          if g_ServerTime ≥ e.castEndTimeMS then
            (none, { cm with cooldownList := cm.cooldownList.eraseIdx i })
          else (some i, cm)

/-- The entry that `AddCooldown` makes; the remaining time becomes an `int` first. -/
def newCooldown (category : Int) (remainMS timeElapsedMS : UInt64) : ActiveCooldown where
  category
  durationMS := remainMS.toUInt32.toInt32
  castStartTimeMS := g_ServerTime - timeElapsedMS
  castEndTimeMS := g_ServerTime + remainMS.toUInt32.toInt32.toInt64.toUInt64

/-- `AddCooldown`. -/
def addCooldown (category : Int) (remainMS timeElapsedMS : UInt64) : ActiveCooldownManager :=
  { cm with
    cooldownList := cm.cooldownList ++ [newCooldown g_ServerTime category remainMS timeElapsedMS] }

/-- `LoadEntry`. -/
def loadEntry (resolveCooldownCategoryID : Text → Int) (name : Text)
    (remainTimeMS timeElapsedMS : UInt64) : ActiveCooldownManager :=
  let category := resolveCooldownCategoryID name
  if category ≠ 0 then cm.addCooldown g_ServerTime category remainTimeMS timeElapsedMS else cm

end ActiveCooldownManager

/-! ### Runs -/

structure CooldownState where
  manager : ActiveCooldownManager := {}
  g_ServerTime : UInt64 := 0
  deriving DecidableEq, Repr

inductive CooldownEvent
  | addCooldown (category : Int) (remainMS timeElapsedMS : UInt64)
  | loadEntry (name : Text) (remainTimeMS timeElapsedMS : UInt64)
  | hasCooldown (category : Int)
  | tick (g_ServerTime : UInt64)
  deriving DecidableEq, Repr

/-- One call, or the clock going on to a later time. -/
def CooldownState.step (resolve : Text → Int) (s : CooldownState) :
    CooldownEvent → Option CooldownState
  | .addCooldown category remainMS timeElapsedMS =>
      some { s with
        manager := s.manager.addCooldown s.g_ServerTime category remainMS timeElapsedMS }
  | .loadEntry name remainTimeMS timeElapsedMS =>
      some { s with
        manager := s.manager.loadEntry s.g_ServerTime resolve name remainTimeMS timeElapsedMS }
  | .hasCooldown category =>
      some { s with manager := (s.manager.hasCooldown s.g_ServerTime category).2 }
  | .tick now => if s.g_ServerTime ≤ now then some { s with g_ServerTime := now } else none

structure BuffState where
  manager : ActiveBuffManager := {}
  g_ServerTime : Nat := 0
  deriving DecidableEq, Repr

inductive BuffEvent
  | updateBuff (tier buffType : UInt8) (abID abgID : Int) (duration : ℚ) (initialising : Bool)
  | addBuff (tier buffType : UInt8) (abID abgID : Int) (duration : ℚ) (initialising : Bool)
  | hasBuff (tier buffType : UInt8)
  | removeBuff (abilityID : Int)
  | tick (g_ServerTime : Nat)
  deriving DecidableEq, Repr

def BuffState.step (s : BuffState) : BuffEvent → Option BuffState
  | .updateBuff tier buffType abID abgID duration initialising =>
      some { s with
        manager := (s.manager.updateBuff s.g_ServerTime tier buffType abID abgID duration
          initialising).2 }
  | .addBuff tier buffType abID abgID duration initialising =>
      some { s with
        manager := s.manager.addBuff s.g_ServerTime tier buffType abID abgID duration
          initialising }
  | .hasBuff tier buffType =>
      some { s with manager := (s.manager.hasBuff s.g_ServerTime tier buffType).2 }
  | .removeBuff abilityID => some { s with manager := s.manager.removeBuff abilityID }
  | .tick now => if s.g_ServerTime ≤ now then some { s with g_ServerTime := now } else none

end Ability

end Iceee
