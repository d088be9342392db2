import Iceee.Inventory.Wellformed

/-!
# Every CCSID names the container it is kept in

Slot numbers can collide once they are cut to sixteen bits, but the upper half of a CCSID
never goes wrong: whatever the queries do, an entry of a container carries that container's
number. `Filed` is the invariant; it needs no condition on the run.
-/

namespace Iceee

open Lib

namespace InventoryManager

variable {im : ItemManager} {now : Nat}

/-- Every entry of every container names that container. -/
def Filed (inv : InventoryManager) : Prop :=
  ∀ c, ∀ item ∈ inv.containerList c, item.ccsid / 65536 = c

theorem Filed.setContainer {inv : InventoryManager} (h : inv.Filed) {c : ContainerID}
    {l : List InventorySlot} (hl : ∀ item ∈ l, item.ccsid / 65536 = c) :
    (inv.setContainer c l).Filed := by
  intro c' item hitem
  by_cases hc : c' = c
  · subst hc
    rw [setContainer_self] at hitem
    exact hl item hitem
  · rw [setContainer_other _ _ hc] at hitem
    exact h c' item hitem

/-- A container may lose entries. -/
theorem Filed.shrink {inv : InventoryManager} (h : inv.Filed) {c : ContainerID}
    {l : List InventorySlot} (hl : l ⊆ inv.containerList c) : (inv.setContainer c l).Filed :=
  h.setContainer fun item hitem => h c item (hl hitem)

/-- A container may get an entry with a number of its own. -/
theorem Filed.append {inv : InventoryManager} (h : inv.Filed) {c : ContainerID}
    {item : InventorySlot} {n : Nat} (hid : item.ccsid = getCCSID c n) :
    (inv.setContainer c (inv.containerList c ++ [item])).Filed := by
  apply h.setContainer
  intro other hother
  rcases List.mem_append.mp hother with hother | hother
  · exact h c other hother
  · rw [List.mem_singleton.mp hother, hid, getCCSID_div]

theorem Filed.modifySlot {inv : InventoryManager} (h : inv.Filed) (c : ContainerID) (i : Nat)
    {f : InventorySlot → InventorySlot}
    (hf : ∀ item : InventorySlot, item.ccsid / 65536 = c → (f item).ccsid / 65536 = c) :
    (inv.modifySlot c i f).Filed := by
  apply h.setContainer
  intro item hitem
  rcases mem_modify hitem with hitem | ⟨old, hold, rfl⟩
  · exact h c item hitem
  · exact hf old (h c old (List.mem_of_getElem? hold))

/-- Only the lists matter. -/
theorem Filed.congr {inv inv' : InventoryManager} (h : inv.Filed)
    (heq : inv'.containerList = inv.containerList) : inv'.Filed := by
  intro c item hitem
  rw [heq] at hitem
  exact h c item hitem

theorem Filed.remItem {inv : InventoryManager} (h : inv.Filed) (ccsid : Nat) :
    (inv.remItem ccsid).Filed := by
  unfold InventoryManager.remItem
  cases containerOf ccsid with
  | none => exact h
  | some c => exact h.shrink List.eraseP_subset

theorem Filed.modifyCCSID {inv : InventoryManager} (h : inv.Filed) (ccsid : Nat)
    {f : InventorySlot → InventorySlot} (hf : ∀ item, (f item).ccsid = item.ccsid) :
    (inv.modifyCCSID ccsid f).Filed := by
  unfold InventoryManager.modifyCCSID
  cases containerOf ccsid with
  | none => exact h
  | some c =>
      simp only
      cases indexOfCCSID (inv.containerList c) ccsid with
      | none => exact h
      | some i =>
          apply h.modifySlot c i
          intro item hitem
          rw [hf]
          exact hitem

theorem Filed.addItem {inv : InventoryManager} (h : inv.Filed) {c : ContainerID}
    {item : InventorySlot} {n : Nat} (hid : item.ccsid = getCCSID c n) :
    (inv.addItem now c item).Filed := by
  refine (h.append hid).congr ?_
  rw [containerList_addItem]
  rfl

theorem Filed.addItemEx {inv : InventoryManager} (h : inv.Filed) (c : ContainerID)
    (itemID count : Int) : (inv.addItemEx im now c itemID count).2.Filed := by
  cases hadd : inv.addItemEx im now c itemID count with
  | mk i inv' =>
      cases i with
      | none =>
          obtain ⟨e, rfl⟩ := addItemEx_none hadd
          exact h
      | some i =>
          obtain ⟨d, -, ⟨s, -, -, -, rfl⟩ | ⟨-, n, -, -, rfl⟩⟩ := addItemEx_cases hadd
          · exact h.modifySlot c i fun _ hitem => hitem
          · exact h.addItem (newSlot_spec c n d itemID count).1

/-- The buyback list gets a number of its own, and may lose its oldest entry. -/
theorem Filed.addBuyBack {inv : InventoryManager} (h : inv.Filed) (buybackLimit ccsid : Nat)
    (item stale : InventorySlot) : (inv.addBuyBack buybackLimit ccsid item stale).Filed := by
  refine Filed.congr (h.setContainer (fun other hother => ?_))
    (containerList_addBuyBack inv buybackLimit ccsid item stale)
  rcases List.mem_append.mp hother with hother | hother
  · apply h buybackContainer
    unfold keptBuyback at hother
    dsimp only at hother
    split at hother
    · exact List.eraseIdx_subset hother
    · exact hother
  · rw [List.mem_singleton.mp hother]
    exact getCCSID_div buybackContainer _

theorem Filed.processIqResults {inv : InventoryManager} (h : inv.Filed) (c : ContainerID)
    (iq : List InventoryQuery) : (inv.processIqResults c iq).Filed := by
  have hshrunk (l : List InventoryQuery) : ∀ inv : InventoryManager, inv.Filed →
      (l.foldl (fun inv q => inv.modifySlot c q.index
        fun s => { s with count := s.count - q.count }) inv).Filed := by
    induction l with
    | nil => exact fun _ hinv => hinv
    | cons q rest ih => exact fun inv hinv => ih _ (hinv.modifySlot c q.index fun _ hitem => hitem)
  have hgone (l : List InventoryQuery) : ∀ inv : InventoryManager, inv.Filed →
      (l.foldl (fun inv q => inv.remItem q.ccsid) inv).Filed := by
    induction l with
    | nil => exact fun _ hinv => hinv
    | cons q rest ih => exact fun inv hinv => ih _ (hinv.remItem q.ccsid)
  exact hgone _ _ (hshrunk _ _ h)

end InventoryManager

open InventoryManager

namespace CharacterState

/-- Both inventories of a character are filed. -/
def Filed (s : CharacterState) : Prop := ∀ o, (s.inv o).Filed

variable {im : ItemManager} {s : CharacterState} {m : MoveRequest}

theorem Filed.setInv (h : s.Filed) {o : Owner} {inv : InventoryManager} (hinv : inv.Filed) :
    (s.setInv o inv).Filed := by
  intro o'
  by_cases ho : o' = o
  · subst ho
    simpa [CharacterState.setInv] using hinv
  · simpa [CharacterState.setInv, ho] using h o'

theorem Filed.modifyAt (h : s.Filed) (p : Place) (i : Nat) {f : InventorySlot → InventorySlot}
    (hf : ∀ item : InventorySlot, item.ccsid / 65536 = p.2 → (f item).ccsid / 65536 = p.2) :
    (s.modifyAt p i f).Filed :=
  h.setInv ((h p.1).modifySlot p.2 i hf)

theorem Filed.eraseAt (h : s.Filed) (p : Place) (i : Nat) : (s.eraseAt p i).Filed :=
  h.setInv ((h p.1).shrink List.eraseIdx_subset)

/-- Whatever a move does, an item that gets a new CCSID gets one of its destination. -/
theorem Filed.applyEffect (h : s.Filed) {stats : MoveStats} {i : Nat} {source : InventorySlot}
    {eff : MoveEffect} (ho : MoveOutcome im s stats m i source eff) :
    (s.applyEffect m eff).Filed := by
  cases ho with
  | relocate free same =>
      apply h.modifyAt
      intro item _
      rw [MoveRequest.destCCSID, same, getCCSID_div]
  | transfer free other =>
      simp only [CharacterState.applyEffect]
      apply Filed.eraseAt
      exact h.setInv ((h m.dest.1).append rfl)
  | merge dest_found same stackable fits =>
      simp only [CharacterState.applyEffect]
      apply Filed.eraseAt
      exact h.modifyAt _ _ fun _ hitem => hitem
  | mergePart dest_found same stackable exceeds =>
      simp only [CharacterState.applyEffect]
      apply Filed.modifyAt
      · exact h.modifyAt _ _ fun _ hitem => hitem
      · exact fun _ hitem => hitem
  | swap dest_found allowed =>
      simp only [CharacterState.applyEffect]
      apply Filed.modifyAt
      · exact h.modifyAt _ _ fun _ hitem => hitem
      · exact fun _ hitem => hitem

theorem Filed.recount (h : s.Filed) : (s.recount im m).Filed := by
  have hcount (o : Owner) (t : CharacterState) (ht : t.Filed) :
      (t.setInv o ((t.inv o).countInventorySlots im)).Filed := ht.setInv (ht o)
  unfold CharacterState.recount
  split
  · simp only
    split
    · exact hcount m.dest.1 _ (hcount m.orig.1 s h)
    · exact hcount m.orig.1 s h
  · exact h

theorem Filed.itemMoveQuery (h : s.Filed) (ctx : MoveContext)
    (args : Option (Nat × String × Int)) : (s.itemMoveQuery im ctx args).2.Filed := by
  rw [itemMoveQuery_snd]
  cases hm : s.moveOf im ctx args with
  | none => exact h
  | some r =>
      obtain ⟨m, eff⟩ := r
      obtain ⟨-, -, heff⟩ := moveOf_some im hm
      obtain ⟨i, source, -, ho⟩ := itemMoveEffect_ok im heff
      exact (h.applyEffect ho).recount

theorem Filed.itemSplit (h : s.Filed) (now ccsid : Nat) (amount : Int) :
    (s.itemSplit im now ccsid amount).2.Filed := by
  rcases s.itemSplit_cases im now ccsid amount with heq | ⟨item, n, -, -, -, -, heq⟩
  · rw [heq]
    exact h
  · rw [heq]
    apply h.setInv
    apply InventoryManager.Filed.modifyCCSID
    · exact (h .character).addItem rfl
    · exact fun _ => rfl

theorem Filed.shopSell (h : s.Filed) (buybackLimit ccsid : Nat) (stale : InventorySlot) :
    (s.shopSell im buybackLimit ccsid stale).2.Filed := by
  rcases s.shopSell_cases im buybackLimit ccsid stale with heq | ⟨item, d, -, -, heq⟩
  · rw [heq]
    exact h
  · rw [heq]
    exact h.setInv (((h .character).addBuyBack buybackLimit ccsid item stale).remItem ccsid)

theorem Filed.shopBuyback (h : s.Filed) (now ccsid stale : Nat) :
    (s.shopBuyback im now ccsid stale).2.Filed := by
  rcases s.shopBuyback_cases im now ccsid stale with heq | ⟨item, n, d, -, -, -, -, heq⟩
  · rw [heq]
    exact h
  · rw [heq]
    exact h.setInv (((h .character).addItem rfl).remItem _)

theorem Filed.itemDelete (h : s.Filed) {recoup : Int → Int → Int} {arg : Nat}
    {r : Response × CharacterState} (hr : s.itemDelete im recoup arg = some r) : r.2.Filed := by
  have hgone : (s.setInv .character
      (((s.inv .character).remItem (arg % 2 ^ 32)).countInventorySlots im)).Filed :=
    h.setInv ((h .character).remItem _)
  rcases itemDelete_cases im hr with heq | heq | ⟨-, coin, heq⟩
  · rw [heq]
    exact h
  · rw [heq]
    exact hgone
  · rw [heq]
    exact hgone

/-- One event keeps both inventories filed, whatever it is. -/
theorem Filed.step {cfg : ServerConfig} {s s' : CharacterState} {e : CharacterEvent}
    (h : s.Filed) (hs : s.step cfg e = some s') : s'.Filed := by
  cases e with
  | addItem now c itemID count =>
      cases hs
      exact h.setInv ((h .character).addItemEx c itemID count)
  | move ctx args =>
      cases hs
      exact h.itemMoveQuery ctx args
  | split now ccsid amount =>
      cases hs
      exact h.itemSplit now ccsid amount
  | sell ccsid stale =>
      cases hs
      exact h.shopSell _ ccsid stale
  | buyback now ccsid stale =>
      cases hs
      exact h.shopBuyback now ccsid stale
  | delete arg =>
      obtain ⟨r, hr, rfl⟩ := Option.map_eq_some_iff.mp hs
      exact h.itemDelete hr
  | remItem ccsid =>
      cases hs
      exact h.setInv ((h .character).remItem ccsid)
  | removeItems now c itemID itemCost =>
      cases hs
      exact h.setInv ((h .character).processIqResults c _)

/-- Filed inventories stay filed through every run. -/
theorem run_filed {cfg : ServerConfig} {s : CharacterState}
    (run : Reach Filed (fun _ _ => True) (step cfg) s) : s.Filed :=
  run.invariant (fun _ h => h) fun _ _ _ h _ hs => h.step hs

end CharacterState

end Iceee
