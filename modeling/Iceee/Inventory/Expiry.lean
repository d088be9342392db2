import Iceee.Inventory.Moves
import Iceee.Inventory.Removal
import Iceee.Lib.Trace

/-!
# Items with a time limit

`NextExpunge` is to be the time at which the next item of an inventory expires. It is computed
when an item is added and anew when items were removed, as the server time in milliseconds plus
the seconds that remain.

## Main statements

* `TimedState.run_deadlinesTold`: in a run whose steps are all `Timely`, an expired item is always
  due, and nothing is due before an item expires.
-/

namespace Iceee

open Lib InventoryManager

namespace InventorySlot

variable (now : Nat) (e : InventorySlot)

/-- The item has a time limit. -/
def Limited : Prop := e.secondsRemaining > -1

instance : DecidablePred Limited := fun e => inferInstanceAs (Decidable (e.secondsRemaining > -1))

/-- The time, in milliseconds, at which the item has been there for its seconds. -/
def expiry : Int := e.timeLoaded + e.secondsRemaining * 1000

/-- The time that is taken for the next expiry on behalf of the item. -/
def due : Nat := ((now : Int) + e.getTimeRemaining now).toNat

/-- The time taken for the expiry of the item is not before it. -/
def Punctual : Prop := e.expiry ≤ e.due now

instance : Decidable (Punctual now e) := inferInstanceAs (Decidable (_ ≤ _))

variable {now e}

theorem getTimeRemaining_nonneg (h : e.Limited) : 0 ≤ e.getTimeRemaining now := by
  unfold Limited at h
  unfold getTimeRemaining
  split
  · omega
  · exact le_max_left _ _

/-- What is due is never later than the expiry, or due at once. -/
theorem due_le (h : e.Limited) (hnow : now < 2 ^ 64) :
    (e.due now : Int) ≤ e.expiry ∨ e.due now ≤ now := by
  unfold Limited at h
  unfold due expiry getTimeRemaining
  rw [if_neg (by omega)]
  generalize hw : (now + 2 ^ 64 - e.timeLoaded) % 2 ^ 64 = elapsed
  obtain hle | hlt := le_or_gt e.timeLoaded now
  · have helapsed : elapsed = now - e.timeLoaded := by omega
    omega
  · omega

end InventorySlot

namespace InventoryManager

variable (now : Nat)

/-- All entries of an inventory. -/
def items (inv : InventoryManager) : List InventorySlot :=
  (List.finRange maxContainer).flatMap inv.containerList

/-- `ScanExpiredItems`: the CCSIDs of the items with less than a second left. -/
def scanExpiredItems (inv : InventoryManager) : List Nat :=
  (inv.items.filter fun e => e.secondsRemaining > -1 ∧ e.getTimeRemaining now < 1).map
    InventorySlot.ccsid

/-- The removal of the expired items. -/
def removeExpiredItems (inv : InventoryManager) : InventoryManager :=
  (inv.scanExpiredItems now).foldl remItem inv

/-- `RemoveExpiredItemsAndUpdate`. -/
def removeExpiredItemsAndUpdate (inv : InventoryManager) : InventoryManager :=
  (inv.removeExpiredItems now).findNextExpunge now

end InventoryManager

/-! ### Runs -/

/-- The inventories of a character and of its account, and `g_ServerTime`. -/
structure TimedState where
  chars : CharacterState := {}
  now : Nat := 0

inductive TimedEvent
  | tick (ms : Nat)
  | addItem (o : Owner) (c : ContainerID) (item : InventorySlot)
  | addItemEx (o : Owner) (c : ContainerID) (itemID count : Int)
  | move (stats : MoveStats) (m : MoveRequest)
  | remItem (o : Owner) (ccsid : Nat)
  | removeItems (o : Owner) (c : ContainerID) (itemID itemCost : Int)
  | removeExpired (o : Owner)

namespace TimedState

/-- Change one of the inventories. -/
def setInv (s : TimedState) (o : Owner) (inv : InventoryManager) : TimedState :=
  { s with chars := s.chars.setInv o inv }

variable (im : ItemManager)

/-- One operation on the inventories, or time that passes as far as 64 bits go. -/
def step (s : TimedState) : TimedEvent → Option TimedState
  | .tick ms => if s.now + ms < 2 ^ 64 then some { s with now := s.now + ms } else none
  | .addItem o c item => some (s.setInv o ((s.chars.inv o).addItem s.now c item))
  | .addItemEx o c itemID count =>
      some (s.setInv o ((s.chars.inv o).addItemEx im s.now c itemID count).2)
  | .move stats m => some { s with chars := (s.chars.itemMoveResult im stats m true).2 }
  | .remItem o ccsid => some (s.setInv o ((s.chars.inv o).remItem ccsid))
  | .removeItems o c itemID itemCost =>
      some (s.setInv o ((s.chars.inv o).removeItemsAndUpdate im s.now c itemID itemCost))
  | .removeExpired o => some (s.setInv o ((s.chars.inv o).removeExpiredItemsAndUpdate s.now))

end TimedState

namespace InventoryManager

/-- What `NextExpunge` tells is true: who has expired is due, and the time is not before an item
of the inventory expires. -/
structure DeadlineTold (inv : InventoryManager) (now : Nat) : Prop where
  due : ∀ e ∈ inv.items, e.Limited → e.expiry ≤ now →
    inv.nextExpunge ≠ 0 ∧ inv.nextExpunge ≤ now
  notEarly : inv.nextExpunge ≠ 0 → ∃ e ∈ inv.items, e.Limited ∧ e.expiry ≤ inv.nextExpunge

/-! ### When a step is timely -/

/-- The deadlines that are computed for the items of an inventory come at no item too early. -/
def Refreshes (inv : InventoryManager) (now : Nat) : Prop :=
  ∀ e ∈ inv.items, e.Limited → 0 < now ∧ e.Punctual now

/-- An item may be taken out without computing the deadline anew. -/
def LeavesLater (inv : InventoryManager) (e : InventorySlot) : Prop :=
  e.Limited → inv.nextExpunge = 0 ∨ (inv.nextExpunge : Int) < e.expiry

/-- An item may be put in without computing a deadline for it. -/
def Covers (inv : InventoryManager) (now : Nat) (e : InventorySlot) : Prop :=
  e.Limited → inv.nextExpunge ≠ 0 ∧
    ((inv.nextExpunge : Int) ≤ e.expiry ∨ inv.nextExpunge ≤ now)

/-- An item for which `AddItem` computes a deadline. -/
def AddsPunctual (inv : InventoryManager) (now : Nat) (e : InventorySlot) : Prop :=
  e.Limited → 0 < now ∧ (inv.nextExpunge = 0 ∨ e.due now ≤ inv.nextExpunge → e.Punctual now)

instance (inv : InventoryManager) (now : Nat) (e : InventorySlot) :
    Decidable (inv.AddsPunctual now e) := inferInstanceAs (Decidable (_ → _))

end InventoryManager

namespace TimedState

/-- The items that a move brings into another inventory are covered there, and those that it takes
out of an inventory are not the next to expire. -/
def MoveTimely (s : TimedState) (m : MoveRequest) : MoveEffect → Prop
  | .merge i _ _ => ∀ source ∈ (s.chars.slotsAt m.orig)[i]?,
      (s.chars.inv m.orig.1).LeavesLater source
  | .mergePart _ _ _ | .relocate _ => True
  | .swap _ _ source dest => m.orig.1 ≠ m.dest.1 →
      (s.chars.inv m.orig.1).LeavesLater source ∧ (s.chars.inv m.dest.1).Covers s.now source ∧
        (s.chars.inv m.dest.1).LeavesLater dest ∧ (s.chars.inv m.orig.1).Covers s.now dest
  | .transfer _ source => m.orig.1 ≠ m.dest.1 →
      (s.chars.inv m.orig.1).LeavesLater source ∧ (s.chars.inv m.dest.1).Covers s.now source

variable (im : ItemManager)

/-- The condition on a step. -/
def Timely (s : TimedState) : TimedEvent → Prop
  | .tick _ => True
  | .addItem o _ item => (s.chars.inv o).AddsPunctual s.now item
  | .addItemEx o c itemID count => ∀ d ∈ im.getPointerByID itemID,
      (s.chars.inv o).OpensSlot im c d count → ∀ n ∈ (s.chars.inv o).getFreeSlot c,
        (s.chars.inv o).AddsPunctual s.now (newSlot s.now c n d itemID count)
  | .move stats m => ∀ eff, s.chars.itemMoveEffect im stats m = .ok eff → s.MoveTimely m eff
  | .remItem o ccsid => ∀ e ∈ (s.chars.inv o).getItemPtrByCCSID ccsid,
      (s.chars.inv o).LeavesLater e
  | .removeItems o c itemID itemCost =>
      ((s.chars.inv o).processIqResults c
        (scanRemoveItems im itemID ((s.chars.inv o).containerList c) 0 itemCost)).Refreshes s.now
  | .removeExpired o => ((s.chars.inv o).removeExpiredItems s.now).Refreshes s.now

end TimedState

namespace InventoryManager

/-! ### One inventory -/

variable {inv inv' : InventoryManager} {now : Nat}

/-- Every item with a time limit is due by its expiry, or now. -/
structure Deadlines (inv : InventoryManager) (now : Nat) : Prop where
  covered : ∀ e ∈ inv.items, inv.Covers now e
  notEarly : inv.nextExpunge ≠ 0 → ∃ e ∈ inv.items, e.Limited ∧ e.expiry ≤ inv.nextExpunge

theorem Deadlines.told (h : inv.Deadlines now) : inv.DeadlineTold now := by
  refine ⟨fun e he hlimited hexpired => ?_, h.notEarly⟩
  obtain ⟨hset, hdue⟩ := h.covered e he hlimited
  exact ⟨hset, by omega⟩

theorem mem_items {e : InventorySlot} : e ∈ inv.items ↔ ∃ c, e ∈ inv.containerList c := by
  simp [items]

theorem Deadlines.tick (h : inv.Deadlines now) (ms : Nat) : inv.Deadlines (now + ms) := by
  refine ⟨fun e he hlimited => ?_, h.notEarly⟩
  obtain ⟨hset, hdue⟩ := h.covered e he hlimited
  exact ⟨hset, by omega⟩

/-- An inventory as it is made, with any number of slots. -/
structure Fresh (inv : InventoryManager) : Prop where
  no_items : ∀ c, inv.containerList c = []
  no_deadline : inv.nextExpunge = 0

theorem Fresh.deadlines (h : inv.Fresh) (now : Nat) : inv.Deadlines now := by
  refine ⟨fun e he => ?_, fun hset => absurd h.no_deadline hset⟩
  obtain ⟨c, hc⟩ := mem_items.mp he
  rw [h.no_items c] at hc
  cases hc

/-- Two slots that expire at the same time. -/
def SameTimes (e e' : InventorySlot) : Prop :=
  e'.secondsRemaining = e.secondsRemaining ∧ e'.timeLoaded = e.timeLoaded

theorem SameTimes.limited {e e' : InventorySlot} (h : SameTimes e e') :
    e'.Limited ↔ e.Limited := by
  rw [InventorySlot.Limited, InventorySlot.Limited, h.1]

theorem SameTimes.expiry {e e' : InventorySlot} (h : SameTimes e e') : e'.expiry = e.expiry := by
  rw [InventorySlot.expiry, InventorySlot.expiry, h.1, h.2]

theorem Covers.congr {e e' : InventorySlot} (h : inv.Covers now e) (ht : SameTimes e e')
    (hnext : inv'.nextExpunge = inv.nextExpunge) : inv'.Covers now e' := by
  unfold Covers at h ⊢
  rw [hnext, ht.limited, ht.expiry]
  exact h

/-- Where `NextExpunge` stays, each item that is there afterwards was there or is covered, and each
one that expires by then stays. -/
theorem Deadlines.of_same (h : inv.Deadlines now) (hnext : inv'.nextExpunge = inv.nextExpunge)
    (hin : ∀ e' ∈ inv'.items, (∃ e ∈ inv.items, SameTimes e e') ∨ inv.Covers now e')
    (hout : ∀ e ∈ inv.items, inv.LeavesLater e ∨ ∃ e' ∈ inv'.items, SameTimes e e') :
    inv'.Deadlines now := by
  constructor
  · intro e' he'
    obtain ⟨e, he, ht⟩ | hcovers := hin e' he'
    · exact (h.covered e he).congr ht hnext
    · exact hcovers.congr ⟨rfl, rfl⟩ hnext
  · intro hset
    rw [hnext] at hset ⊢
    obtain ⟨e, he, hlimited, hle⟩ := h.notEarly hset
    obtain hleaves | ⟨e', he', ht⟩ := hout e he
    · have hlater := hleaves hlimited
      omega
    · exact ⟨e', he', ht.limited.mpr hlimited, by rw [ht.expiry]; exact hle⟩

/-! ### Computing the deadline anew -/

theorem le_due {e : InventorySlot} (h : e.Limited) : now ≤ e.due now := by
  have hremain := @InventorySlot.getTimeRemaining_nonneg now e h
  unfold InventorySlot.due
  omega

/-- What an item makes of the next deadline; 0 stands for none. -/
def nextDue (now next : Nat) (e : InventorySlot) : Nat :=
  if e.Limited then if next = 0 ∨ e.due now ≤ next then e.due now else next else next

theorem nextDue_spec (hnow : 0 < now) (next : Nat) (e : InventorySlot) :
    (e.Limited → nextDue now next e ≠ 0 ∧ nextDue now next e ≤ e.due now) ∧
      (next ≠ 0 → nextDue now next e ≠ 0 ∧ nextDue now next e ≤ next) ∧
      (nextDue now next e = next ∨ e.Limited ∧ nextDue now next e = e.due now) := by
  unfold nextDue
  by_cases hlimited : e.Limited
  · have hdue := @le_due now e hlimited
    rw [if_pos hlimited]
    split
    · refine ⟨fun _ => ?_, fun _ => ?_, .inr ⟨hlimited, rfl⟩⟩
      · omega
      · omega
    · refine ⟨fun _ => ?_, fun _ => ?_, .inl rfl⟩
      · omega
      · omega
  · rw [if_neg hlimited]
    exact ⟨fun h => absurd h hlimited, fun h => ⟨h, le_refl _⟩, .inl rfl⟩

/-- The loop of `FindNextExpunge` finds the earliest deadline. -/
theorem foldl_nextDue (hnow : 0 < now) (l : List InventorySlot) (next : Nat) :
    (∀ e ∈ l, e.Limited →
        l.foldl (nextDue now) next ≠ 0 ∧ l.foldl (nextDue now) next ≤ e.due now) ∧
      (next ≠ 0 → l.foldl (nextDue now) next ≠ 0 ∧ l.foldl (nextDue now) next ≤ next) ∧
      (l.foldl (nextDue now) next = next ∨
        ∃ e ∈ l, e.Limited ∧ l.foldl (nextDue now) next = e.due now) := by
  induction l generalizing next with
  | nil => simp
  | cons e l ih =>
      obtain ⟨hitem, hnext, hfrom⟩ := nextDue_spec hnow next e
      obtain ⟨hrest, hfirst, hlast⟩ := ih (nextDue now next e)
      rw [List.foldl_cons]
      refine ⟨fun e' he' hlimited => ?_, fun hset => ?_, ?_⟩
      · obtain rfl | he' := List.mem_cons.mp he'
        · obtain ⟨hset, hle⟩ := hitem hlimited
          have hfinal := hfirst hset
          omega
        · exact hrest e' he' hlimited
      · obtain ⟨hset', hle⟩ := hnext hset
        have hfinal := hfirst hset'
        omega
      · obtain hlast | ⟨e', he', hlimited, hlast⟩ := hlast
        · obtain hsame | ⟨hlimited, hdue⟩ := hfrom
          · exact .inl (hlast.trans hsame)
          · exact .inr ⟨e, List.mem_cons_self, hlimited, hlast.trans hdue⟩
        · exact .inr ⟨e', List.mem_cons_of_mem _ he', hlimited, hlast⟩

theorem nextExpunge_findNextExpunge :
    (inv.findNextExpunge now).nextExpunge = inv.items.foldl (nextDue now) 0 := rfl

theorem Refreshes.deadlines (h : inv.Refreshes now) (hnow : now < 2 ^ 64) :
    (inv.findNextExpunge now).Deadlines now := by
  have hitems : (inv.findNextExpunge now).items = inv.items := rfl
  by_cases hany : ∃ e ∈ inv.items, e.Limited
  · obtain ⟨e₀, he₀, hlimited₀⟩ := hany
    obtain ⟨hrest, -, hlast⟩ := foldl_nextDue (h e₀ he₀ hlimited₀).1 inv.items 0
    constructor
    · intro e he hlimited
      obtain ⟨hset, hle⟩ := hrest e he hlimited
      have hdue := InventorySlot.due_le hlimited hnow
      rw [nextExpunge_findNextExpunge]
      exact ⟨hset, by omega⟩
    · intro _
      rw [nextExpunge_findNextExpunge]
      obtain hzero | ⟨e, he, hlimited, hdue⟩ := hlast
      · exact absurd hzero (hrest e₀ he₀ hlimited₀).1
      · refine ⟨e, he, hlimited, ?_⟩
        rw [hdue]
        exact (h e he hlimited).2
  · have hnone (l : List InventorySlot) (hl : ∀ e ∈ l, ¬e.Limited) :
        l.foldl (nextDue now) 0 = 0 := by
      induction l with
      | nil => rfl
      | cons e l ih =>
          rw [List.foldl_cons, nextDue, if_neg (hl e List.mem_cons_self)]
          exact ih fun e he => hl e (List.mem_cons_of_mem _ he)
    push Not at hany
    constructor
    · intro e he hlimited
      exact absurd hlimited (hany e he)
    · intro hset
      exact absurd (hnone inv.items hany) hset

/-! ### Adding and removing -/

theorem mem_items_setContainer {c : ContainerID} {l : List InventorySlot} {e : InventorySlot} :
    e ∈ (inv.setContainer c l).items ↔ e ∈ l ∨ ∃ c', c' ≠ c ∧ e ∈ inv.containerList c' := by
  rw [mem_items]
  constructor
  · intro ⟨c', he⟩
    by_cases hc : c' = c
    · subst hc
      rw [setContainer_self] at he
      exact .inl he
    · rw [setContainer_other _ _ hc] at he
      exact .inr ⟨c', hc, he⟩
  · rintro (he | ⟨c', hc, he⟩)
    · exact ⟨c, by rwa [setContainer_self]⟩
    · exact ⟨c', by rwa [setContainer_other _ _ hc]⟩

theorem Deadlines.addItem (h : inv.Deadlines now) (hnow : now < 2 ^ 64) {item : InventorySlot}
    (hitem : inv.AddsPunctual now item) (c : ContainerID) :
    (inv.addItem now c item).Deadlines now := by
  have hitems (e) : e ∈ (inv.addItem now c item).items ↔ e ∈ inv.items ∨ e = item := by
    rw [mem_items, mem_items, containerList_addItem]
    constructor
    · intro ⟨c', he⟩
      by_cases hc : c' = c
      · subst hc
        rw [Function.update_self, List.mem_append, List.mem_singleton] at he
        exact he.imp_left fun he => ⟨c', he⟩
      · rw [Function.update_of_ne hc] at he
        exact .inl ⟨c', he⟩
    · rintro (⟨c', he⟩ | rfl)
      · by_cases hc : c' = c
        · subst hc
          exact ⟨c', by rw [Function.update_self]; exact List.mem_append_left _ he⟩
        · exact ⟨c', by rwa [Function.update_of_ne hc]⟩
      · exact ⟨c, by rw [Function.update_self]; exact List.mem_append_right _ List.mem_cons_self⟩
  have hnext : (inv.addItem now c item).nextExpunge = nextDue now inv.nextExpunge item := by
    unfold InventoryManager.addItem nextDue InventorySlot.Limited InventorySlot.due
    by_cases hlimited : item.secondsRemaining > -1
    · simp only [hlimited, if_true]
      split <;> rfl
    · simp only [hlimited, if_false]
      rfl
  by_cases hlimited : item.Limited
  · obtain ⟨hpos, hpunctual⟩ := hitem hlimited
    obtain ⟨hnew, hold, hfrom⟩ := nextDue_spec hpos inv.nextExpunge item
    have hdue := InventorySlot.due_le hlimited hnow
    constructor
    · intro e he hlimited'
      rw [hnext]
      obtain he | rfl := (hitems e).mp he
      · obtain ⟨hset, hle⟩ := h.covered e he hlimited'
        have hkept := hold hset
        exact ⟨hkept.1, by omega⟩
      · have hkept := hnew hlimited'
        exact ⟨hkept.1, by omega⟩
    · intro hset
      rw [hnext] at hset ⊢
      by_cases hfirst : inv.nextExpunge = 0 ∨ item.due now ≤ inv.nextExpunge
      · refine ⟨item, (hitems item).mpr (.inr rfl), hlimited, ?_⟩
        rw [nextDue, if_pos hlimited, if_pos hfirst]
        exact hpunctual hfirst
      · rw [nextDue, if_pos hlimited, if_neg hfirst] at hset ⊢
        obtain ⟨e, he, hlimited', hle⟩ := h.notEarly hset
        exact ⟨e, (hitems e).mpr (.inl he), hlimited', hle⟩
  · have hsame : nextDue now inv.nextExpunge item = inv.nextExpunge := if_neg hlimited
    refine h.of_same (hnext.trans hsame) (fun e he => ?_) (fun e he => ?_)
    · obtain he | rfl := (hitems e).mp he
      · exact .inl ⟨e, he, rfl, rfl⟩
      · exact .inr fun hl => absurd hl hlimited
    · exact .inr ⟨e, (hitems e).mpr (.inl he), rfl, rfl⟩

/-- Only the entry that is found goes. -/
theorem mem_eraseP_of_find?_ne {l : List InventorySlot} {p : InventorySlot → Bool}
    {e : InventorySlot} (he : e ∈ l) (h : l.find? p ≠ some e) : e ∈ l.eraseP p := by
  induction l with
  | nil => cases he
  | cons a l ih =>
      cases hp : p a with
      | true =>
          rw [List.find?_cons_of_pos hp] at h
          rw [List.eraseP_cons_of_pos hp]
          obtain rfl | he := List.mem_cons.mp he
          · exact absurd rfl h
          · exact he
      | false =>
          rw [List.find?_cons_of_neg (by simp [hp])] at h
          rw [List.eraseP_cons_of_neg (by simp [hp])]
          obtain rfl | he := List.mem_cons.mp he
          · exact List.mem_cons_self
          · exact List.mem_cons_of_mem _ (ih he h)

theorem Deadlines.remItem (h : inv.Deadlines now) {ccsid : Nat}
    (hleaves : ∀ e ∈ inv.getItemPtrByCCSID ccsid, inv.LeavesLater e) :
    (inv.remItem ccsid).Deadlines now := by
  unfold InventoryManager.remItem
  cases hc : containerOf ccsid with
  | none => exact h
  | some c =>
      refine h.of_same rfl (fun e he => .inl ⟨e, ?_, rfl, rfl⟩) (fun e he => ?_)
      · obtain he | ⟨c', -, he⟩ := mem_items_setContainer.mp he
        · exact mem_items.mpr ⟨c, List.eraseP_subset he⟩
        · exact mem_items.mpr ⟨c', he⟩
      · obtain ⟨c', he⟩ := mem_items.mp he
        by_cases hc' : c' = c
        · subst hc'
          by_cases hfound : (inv.containerList c').find? (fun i => i.ccsid == ccsid) = some e
          · refine .inl (hleaves e ?_)
            rw [Option.mem_def, getItemPtrByCCSID, hc, Option.bind_some, hfound]
          · refine .inr ⟨e, mem_items_setContainer.mpr (.inl ?_), rfl, rfl⟩
            exact mem_eraseP_of_find?_ne he hfound
        · exact .inr ⟨e, mem_items_setContainer.mpr (.inr ⟨c', hc', he⟩), rfl, rfl⟩

theorem Deadlines.modifySlot (h : inv.Deadlines now) (c : ContainerID) (i : Nat)
    {f : InventorySlot → InventorySlot} (hf : ∀ e, SameTimes e (f e)) :
    (inv.modifySlot c i f).Deadlines now := by
  refine h.of_same rfl (fun e' he' => .inl ?_) (fun e he => .inr ?_)
  · obtain he' | ⟨c', -, he'⟩ := mem_items_setContainer.mp he'
    · obtain he' | ⟨e, he, rfl⟩ := mem_modify he'
      · exact ⟨e', mem_items.mpr ⟨c, he'⟩, rfl, rfl⟩
      · exact ⟨e, mem_items.mpr ⟨c, List.mem_of_getElem? he⟩, hf e⟩
    · exact ⟨e', mem_items.mpr ⟨c', he'⟩, rfl, rfl⟩
  · obtain ⟨c', he⟩ := mem_items.mp he
    by_cases hc : c' = c
    · subst hc
      obtain ⟨j, hj⟩ := List.mem_iff_getElem?.mp he
      by_cases hij : i = j
      · subst hij
        refine ⟨f e, mem_items_setContainer.mpr (.inl ?_), hf e⟩
        exact List.mem_iff_getElem?.mpr ⟨i, by simp [hj]⟩
      · refine ⟨e, mem_items_setContainer.mpr (.inl ?_), rfl, rfl⟩
        exact List.mem_iff_getElem?.mpr ⟨j, by simp [hij, hj]⟩
    · exact ⟨e, mem_items_setContainer.mpr (.inr ⟨c', hc, he⟩), rfl, rfl⟩

theorem Deadlines.addItemEx (h : inv.Deadlines now) (hnow : now < 2 ^ 64) {im : ItemManager}
    {c : ContainerID} {itemID count : Int}
    (hitem : ∀ d ∈ im.getPointerByID itemID, inv.OpensSlot im c d count →
      ∀ n ∈ inv.getFreeSlot c, inv.AddsPunctual now (newSlot now c n d itemID count)) :
    (inv.addItemEx im now c itemID count).2.Deadlines now := by
  generalize hadd : inv.addItemEx im now c itemID count = r
  obtain ⟨i, inv'⟩ := r
  cases i with
  | none =>
      obtain ⟨e, rfl⟩ := addItemEx_none hadd
      exact ⟨h.covered, h.notEarly⟩
  | some i =>
      obtain ⟨d, hd, ⟨s, hs, -, -, rfl⟩ | ⟨hopens, n, hn, -, rfl⟩⟩ := addItemEx_cases hadd
      · exact h.modifySlot c i fun e => ⟨rfl, rfl⟩
      · exact h.addItem hnow (hitem d hd hopens n hn) c

end InventoryManager

namespace TimedState

variable {im : ItemManager} {s : TimedState} {m : MoveRequest} {stats : MoveStats}

/-! ### Moves -/

/-- What decides when an entry expires. -/
def times (e : InventorySlot) : Int × Nat := (e.secondsRemaining, e.timeLoaded)

/-- How many entries of one inventory expire alike. -/
def countTimes (s : CharacterState) (o : Owner) (k : Int × Nat) : Int :=
  total (fun p e => if p.1 = o ∧ times e = k then (1 : Int) else 0) s.slotsAt

/-- A count of entries is positive when one of them is counted. -/
theorem sum_ite_pos {l : List InventorySlot} {p : InventorySlot → Prop} [DecidablePred p] :
    0 < (l.map fun e => if p e then (1 : Int) else 0).sum ↔ ∃ e ∈ l, p e := by
  have hsum : (l.map fun e => if p e then (1 : Int) else 0).sum = l.countP p := by
    induction l with
    | nil => rfl
    | cons e l ih =>
        rw [List.map_cons, List.sum_cons, ih, List.countP_cons, Nat.cast_add, add_comm]
        simp
  rw [hsum, Nat.cast_pos, List.countP_pos_iff]
  simp

theorem countTimes_pos {s : CharacterState} {o : Owner} {k : Int × Nat} :
    0 < countTimes s o k ↔ ∃ e ∈ (s.inv o).items, times e = k := by
  have hnonneg (p : Place) :
      0 ≤ ((s.slotsAt p).map fun e => if p.1 = o ∧ times e = k then (1 : Int) else 0).sum := by
    apply List.sum_nonneg
    intro n hn
    obtain ⟨e, -, rfl⟩ := List.mem_map.mp hn
    split <;> decide
  unfold countTimes total
  rw [Finset.sum_pos_iff_of_nonneg fun p _ => hnonneg p]
  constructor
  · rintro ⟨⟨o', c⟩, -, hpos⟩
    obtain ⟨e, he, rfl, htimes⟩ := sum_ite_pos.mp hpos
    exact ⟨e, mem_items.mpr ⟨c, he⟩, htimes⟩
  · intro ⟨e, he, htimes⟩
    obtain ⟨c, hc⟩ := mem_items.mp he
    exact ⟨(o, c), Finset.mem_univ _, sum_ite_pos.mpr ⟨e, hc, rfl, htimes⟩⟩

theorem nextExpunge_applyEffect (s : CharacterState) (m : MoveRequest) (eff : MoveEffect)
    (o : Owner) : ((s.applyEffect m eff).inv o).nextExpunge = (s.inv o).nextExpunge := by
  have hset (s : CharacterState) (p : Place) (l : List InventorySlot) :
      ((s.setSlots p l).inv o).nextExpunge = (s.inv o).nextExpunge := by
    by_cases ho : o = p.1
    · subst ho
      simp [CharacterState.setSlots, CharacterState.setInv, setContainer]
    · simp [CharacterState.setSlots, CharacterState.setInv, ho]
  cases eff <;>
    simp only [CharacterState.applyEffect, CharacterState.modifyAt, CharacterState.eraseAt,
      CharacterState.append, hset]

/-- An entry with given times that an inventory gets in a move is covered, one that it loses is
not the next to expire. -/
theorem countTimes_applyEffect {i : Nat} {source : InventorySlot} {eff : MoveEffect}
    (hc : CharacterState.MoveChecked im s.chars m i source)
    (ho : CharacterState.MoveOutcome im s.chars stats m i source eff) (hm : s.MoveTimely m eff)
    (o : Owner) (k : Int × Nat) :
    (0 < countTimes (s.chars.applyEffect m eff) o k → 0 < countTimes s.chars o k ∨
      ∃ e, times e = k ∧ (s.chars.inv o).Covers s.now e) ∧
    (0 < countTimes s.chars o k → 0 < countTimes (s.chars.applyEffect m eff) o k ∨
      ∃ e, times e = k ∧ (s.chars.inv o).LeavesLater e) := by
  have hw := (CharacterState.exchange_applyEffect hc ho).weight fun p e =>
    if p.1 = o ∧ times e = k then 1 else 0
  change countTimes (s.chars.applyEffect m eff) o k + _ = countTimes s.chars o k + _ at hw
  generalize countTimes (s.chars.applyEffect m eff) o k = after at hw ⊢
  generalize countTimes s.chars o k = before at hw ⊢
  obtain ⟨hsource, -⟩ := findBySlot_some hc.source_found
  cases ho with
  | relocate free same =>
      simp [CharacterState.involved, CharacterState.incoming, hc.source_found, free,
        CharacterState.slotsAt, hsource, times] at hw
      rw [add_right_cancel hw]
      exact ⟨.inl, .inl⟩
  | transfer free other =>
      simp only [CharacterState.involved, CharacterState.incoming, hc.source_found, free,
        Option.map_some, Option.map_none, Option.toList_some, Option.toList_none, List.append_nil,
        List.map_singleton, List.sum_singleton] at hw
      have htimes : times { source with ccsid := m.destCCSID } = times source := rfl
      rw [htimes] at hw
      by_cases howner : m.orig.1 = m.dest.1
      · rw [howner] at hw
        rw [add_right_cancel hw]
        exact ⟨.inl, .inl⟩
      · obtain ⟨hleaves, hcovers⟩ := hm howner
        by_cases hin : m.dest.1 = o ∧ times source = k
        · have hout : ¬(m.orig.1 = o ∧ times source = k) := fun h => howner (h.1.trans hin.1.symm)
          rw [if_pos hin, if_neg hout] at hw
          exact ⟨fun _ => .inr ⟨source, hin.2, hin.1 ▸ hcovers⟩, fun _ => .inl (by omega)⟩
        · rw [if_neg hin] at hw
          by_cases hout : m.orig.1 = o ∧ times source = k
          · rw [if_pos hout] at hw
            exact ⟨fun _ => .inl (by omega), fun _ => .inr ⟨source, hout.2, hout.1 ▸ hleaves⟩⟩
          · rw [if_neg hout] at hw
            exact ⟨fun _ => .inl (by omega), fun _ => .inl (by omega)⟩
  | @merge j dest dest_found same stackable fits =>
      obtain ⟨hdest, -⟩ := findBySlot_some dest_found
      simp only [CharacterState.involved, CharacterState.incoming, hc.source_found, dest_found,
        CharacterState.slotsAt, hdest, Option.map_some, Option.toList_some, List.singleton_append,
        List.map_cons, List.map_nil, List.sum_cons, List.sum_nil] at hw
      have htimes : times { dest with count := dest.count + source.getStackCount im } =
          times dest := rfl
      have hleaves := hm source hsource
      rw [htimes] at hw
      by_cases hout : m.orig.1 = o ∧ times source = k
      · rw [if_pos hout] at hw
        exact ⟨fun _ => .inl (by omega), fun _ => .inr ⟨source, hout.2, hout.1 ▸ hleaves⟩⟩
      · rw [if_neg hout] at hw
        exact ⟨fun _ => .inl (by omega), fun _ => .inl (by omega)⟩
  | @mergePart j dest dest_found same stackable exceeds =>
      obtain ⟨hdest, -⟩ := findBySlot_some dest_found
      simp [CharacterState.involved, CharacterState.incoming, hc.source_found, dest_found,
        CharacterState.slotsAt, hsource, hdest, times] at hw
      rw [add_right_cancel hw]
      exact ⟨.inl, .inl⟩
  | @swap j dest dest_found allowed =>
      simp only [CharacterState.involved, CharacterState.incoming, hc.source_found, dest_found,
        Option.map_some, Option.toList_some, List.singleton_append,
        List.map_cons, List.map_nil, List.sum_cons, List.sum_nil, add_zero] at hw
      have hnewSource : times (source.copyFrom dest false) = times dest := rfl
      have hnewDest : times (dest.copyFrom source false) = times source := rfl
      rw [hnewSource, hnewDest] at hw
      by_cases howner : m.orig.1 = m.dest.1
      · rw [howner, add_comm (if m.dest.1 = o ∧ times source = k then (1 : Int) else 0)] at hw
        rw [add_right_cancel hw]
        exact ⟨.inl, .inl⟩
      · obtain ⟨hleavesSource, hcoversSource, hleavesDest, hcoversDest⟩ := hm howner
        constructor
        · intro hpos
          by_cases hin : m.orig.1 = o ∧ times dest = k
          · exact .inr ⟨dest, hin.2, hin.1 ▸ hcoversDest⟩
          by_cases hin' : m.dest.1 = o ∧ times source = k
          · exact .inr ⟨source, hin'.2, hin'.1 ▸ hcoversSource⟩
          rw [if_neg hin, if_neg hin'] at hw
          split_ifs at hw <;> exact .inl (by omega)
        · intro hpos
          by_cases hout : m.orig.1 = o ∧ times source = k
          · exact .inr ⟨source, hout.2, hout.1 ▸ hleavesSource⟩
          by_cases hout' : m.dest.1 = o ∧ times dest = k
          · exact .inr ⟨dest, hout'.2, hout'.1 ▸ hleavesDest⟩
          rw [if_neg hout, if_neg hout'] at hw
          split_ifs at hw <;> exact .inl (by omega)

/-- A move that is timely keeps the deadlines of both inventories. -/
theorem deadlines_move {eff : MoveEffect} (heff : s.chars.itemMoveEffect im stats m = .ok eff)
    (hm : s.MoveTimely m eff) {o : Owner} (h : (s.chars.inv o).Deadlines s.now) :
    ((s.chars.applyEffect m eff).inv o).Deadlines s.now := by
  obtain ⟨i, source, hc, ho⟩ := @CharacterState.itemMoveEffect_ok im s.chars stats m eff heff
  have hsame {e e' : InventorySlot} (ht : times e = times e') : SameTimes e' e := by
    obtain ⟨hseconds, hloaded⟩ := Prod.ext_iff.mp ht
    exact ⟨hseconds, hloaded⟩
  refine h.of_same (nextExpunge_applyEffect s.chars m eff o) (fun e' he' => ?_) (fun e he => ?_)
  · have hcount := (countTimes_applyEffect hc ho hm o (times e')).1
    obtain hbefore | ⟨e, ht, hcovers⟩ := hcount (countTimes_pos.mpr ⟨e', he', rfl⟩)
    · obtain ⟨e, he, ht⟩ := countTimes_pos.mp hbefore
      exact .inl ⟨e, he, hsame ht.symm⟩
    · exact .inr (hcovers.congr (hsame ht.symm) rfl)
  · have hcount := (countTimes_applyEffect hc ho hm o (times e)).2
    obtain hafter | ⟨e', ht, hleaves⟩ := hcount (countTimes_pos.mpr ⟨e, he, rfl⟩)
    · obtain ⟨e', he', ht⟩ := countTimes_pos.mp hafter
      exact .inr ⟨e', he', hsame ht⟩
    · refine .inl fun hlimited => ?_
      rw [← (hsame ht).limited] at hlimited
      rw [← (hsame ht).expiry]
      exact hleaves hlimited

/-! ### Runs -/

/-- The server runs within 64 bits, and the deadlines of both inventories hold. -/
structure Inv (s : TimedState) : Prop where
  now_lt : s.now < 2 ^ 64
  deadlines : ∀ o, (s.chars.inv o).Deadlines s.now

theorem Inv.setInv (h : s.Inv) {o : Owner} {inv : InventoryManager}
    (hinv : inv.Deadlines s.now) : (s.setInv o inv).Inv := by
  refine ⟨h.now_lt, fun o' => ?_⟩
  by_cases ho : o' = o
  · subst ho
    simpa [TimedState.setInv, CharacterState.setInv] using hinv
  · simpa [TimedState.setInv, CharacterState.setInv, ho] using h.deadlines o'

/-- A step that is timely keeps the deadlines. -/
theorem Inv.step (h : s.Inv) {ev : TimedEvent} {s' : TimedState} (hok : s.Timely im ev)
    (hs : s.step im ev = some s') : s'.Inv := by
  cases ev with
  | tick ms =>
      simp only [TimedState.step, Option.ite_none_right_eq_some, Option.some.injEq] at hs
      obtain ⟨hms, rfl⟩ := hs
      exact ⟨hms, fun o => (h.deadlines o).tick ms⟩
  | addItem o c item =>
      cases hs
      exact h.setInv ((h.deadlines o).addItem h.now_lt hok c)
  | addItemEx o c itemID count =>
      cases hs
      exact h.setInv ((h.deadlines o).addItemEx h.now_lt hok)
  | move stats m =>
      simp only [TimedState.step, CharacterState.itemMoveResult, Option.some.injEq] at hs
      cases heff : s.chars.itemMoveEffect im stats m with
      | error code =>
          simp only [heff] at hs
          subst hs
          exact h
      | ok eff =>
          simp only [heff] at hs
          subst hs
          exact ⟨h.now_lt, fun o => deadlines_move heff (hok eff heff) (h.deadlines o)⟩
  | remItem o ccsid =>
      cases hs
      exact h.setInv ((h.deadlines o).remItem hok)
  | removeItems o c itemID itemCost =>
      cases hs
      exact h.setInv (hok.deadlines h.now_lt)
  | removeExpired o =>
      cases hs
      exact h.setInv (hok.deadlines h.now_lt)

/-- Inventories as they are made, at a time that fits 64 bits. -/
def Starts (s : TimedState) : Prop := s.now < 2 ^ 64 ∧ ∀ o, (s.chars.inv o).Fresh

/-- In a run of timely steps an expired item is always due, and nothing is due too early. -/
theorem run_deadlinesTold (h : Reach Starts (Timely im) (step im) s) (o : Owner) :
    (s.chars.inv o).DeadlineTold s.now := by
  have hinv : s.Inv := by
    apply h.invariant
    · intro s ⟨hnow, hfresh⟩
      exact ⟨hnow, fun o => (hfresh o).deadlines s.now⟩
    · intro s ev s' hs hok hstep
      exact hs.step hok hstep
  exact (hinv.deadlines o).told

/-- Milk that is bad at once, and bread that keeps for an hour. -/
def larderTable : ItemManager :=
  .ofList [{ mID := 6, mIvType1 := .lifetime }, { mID := 7, mIvType1 := .lifetime, mIvMax1 := 1 }]

def larder : TimedState where
  chars := .fresh { items := larderTable } false

theorem larder_starts : larder.Starts := by
  refine ⟨by decide, fun o => ⟨fun c => ?_, ?_⟩⟩
  · simp [larder, CharacterState.fresh]
  · rfl

def addOne (itemID : Int) : TimedEvent := .addItemEx .character invContainer itemID 1

def milkEvents : List TimedEvent := [.tick 1000, addOne 6, .tick 5]

def milkState : TimedState := (runAll (step larderTable) larder milkEvents).getD {}

theorem run_deadlinesTold_milk : (milkState.chars.inv .character).DeadlineTold milkState.now := by
  have hrun : Reach Starts (Timely larderTable) (step larderTable) milkState := by
    have hadd : Timely larderTable { larder with now := 1000 } (addOne 6) := by
      unfold Timely addOne
      decide
    have htick : step larderTable larder (.tick 1000) = some { larder with now := 1000 } := by
      simp [step, larder]
    have hsome : runAll (step larderTable) larder milkEvents = some milkState :=
      eq_some_getD (by decide) _
    have hok : OkAll (Timely larderTable) (step larderTable) larder milkEvents := by
      refine ⟨trivial, fun s hs => ?_⟩
      rw [Option.mem_def, htick, Option.some.injEq] at hs
      subst hs
      exact ⟨hadd, fun s _ => ⟨trivial, fun _ _ => trivial⟩⟩
    exact ⟨_, (Trace.start larder_starts).runAll hok hsome⟩
  exact run_deadlinesTold hrun .character

def breadEvents : List TimedEvent :=
  [.tick 1000, addOne 7, .move { level := 1, profession := 1 }
    ⟨(.character, invContainer), 0, (.account, deliveryContainer), 0⟩, .tick 3600000]

def boughtState : TimedState :=
  (runAll (step larderTable) larder (breadEvents.take 2)).getD {}

def storedState : TimedState := (runAll (step larderTable) larder breadEvents).getD {}

/-- Bread is due in 3.6 seconds, and never where it is put away. -/
theorem bread_untold :
    (∃ s, Reach Starts (fun _ _ => True) (step larderTable) s ∧
      (s.chars.inv .character).nextExpunge ≠ 0 ∧
        (∃ e ∈ (s.chars.inv .character).items, e.Limited) ∧
        ∀ e ∈ (s.chars.inv .character).items, e.Limited →
          ((s.chars.inv .character).nextExpunge : Int) < e.expiry) ∧
    ∃ s, Reach Starts (fun _ _ => True) (step larderTable) s ∧
      (s.chars.inv .account).nextExpunge = 0 ∧
        ∃ e ∈ (s.chars.inv .account).items, e.Limited ∧ e.expiry ≤ s.now := by
  have hbought : runAll (step larderTable) larder (breadEvents.take 2) = some boughtState :=
    eq_some_getD (by decide) _
  have hstored : runAll (step larderTable) larder breadEvents = some storedState :=
    eq_some_getD (by decide) _
  constructor
  · refine ⟨boughtState, reach_of_runAll larder_starts hbought, ?_, ?_, ?_⟩
    · decide
    · decide
    · decide
  · refine ⟨storedState, reach_of_runAll larder_starts hstored, ?_, ?_⟩
    · decide
    · decide

end TimedState

end Iceee
