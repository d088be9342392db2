import Iceee.Inventory.Admission
import Iceee.Inventory.Quantity

/-!
# Sound entries

No operation makes a stack of a negative size, and none makes an item of a kind that was
not there or asked for. Both are said of every entry of both inventories at once.
-/

namespace Iceee

open Lib InventoryManager

variable {im : ItemManager} {Q : Int → Prop} {now : Nat}

/-! ### One entry -/

/-- Whether the tables say that items of a kind come in stacks. -/
def stacking (im : ItemManager) (iid : Int) : Bool :=
  (im.getPointerByID iid).any fun d => d.mIvType1 = .stacking

theorem getStackCount_eq (e : InventorySlot) :
    e.getStackCount im = if stacking im e.iid then e.count + 1 else 1 := by
  unfold InventorySlot.getStackCount stacking
  cases im.getPointerByID e.iid <;> simp

theorem stacking_of_maxStack {e : InventorySlot} (h : 0 ≤ e.getMaxStack im) :
    stacking im e.iid = true := by
  unfold InventorySlot.getMaxStack at h
  unfold stacking
  cases hd : im.getPointerByID e.iid with
  | none => simp [hd] at h
  | some d =>
      simp only [hd] at h
      by_cases hst : d.mIvType1 = .stacking
      · simp [hst]
      · simp [hst] at h

/-- A stack that is not negative, of an item that `Q` admits. -/
structure SoundEntry (im : ItemManager) (Q : Int → Prop) (e : InventorySlot) : Prop where
  stack : 0 ≤ e.getStackCount im
  kind : Q e.iid

/-- Only the item ID and the count are read. -/
theorem SoundEntry.congr {e e' : InventorySlot} (h : SoundEntry im Q e) (hiid : e'.iid = e.iid)
    (hcount : e'.count = e.count) : SoundEntry im Q e' := by
  refine ⟨?_, hiid ▸ h.kind⟩
  rw [getStackCount_eq, hiid, hcount, ← getStackCount_eq]
  exact h.stack

/-- Another count is sound if it is that of a stack which is not negative. -/
theorem SoundEntry.setCount {e : InventorySlot} (h : SoundEntry im Q e) {n : Int}
    (hn : stacking im e.iid = true → 0 ≤ n + 1) : SoundEntry im Q { e with count := n } := by
  refine ⟨?_, h.kind⟩
  rw [getStackCount_eq]
  split
  · rename_i hst
    exact hn hst
  · norm_num

/-! ### One inventory -/

namespace InventoryManager

/-- Every entry of an inventory is sound. -/
def Sound (im : ItemManager) (Q : Int → Prop) (inv : InventoryManager) : Prop :=
  ∀ c, ∀ e ∈ inv.containerList c, SoundEntry im Q e

variable {inv : InventoryManager}

theorem Sound.setContainer (h : inv.Sound im Q) {c : ContainerID} {l : List InventorySlot}
    (hl : ∀ e ∈ l, SoundEntry im Q e) : (inv.setContainer c l).Sound im Q := by
  intro c' e he
  by_cases hc : c' = c
  · subst hc
    rw [setContainer_self] at he
    exact hl e he
  · rw [setContainer_other _ _ hc] at he
    exact h c' e he

theorem Sound.remItem (h : inv.Sound im Q) (ccsid : Nat) : (inv.remItem ccsid).Sound im Q := by
  unfold InventoryManager.remItem
  cases containerOf ccsid with
  | none => exact h
  | some c => exact h.setContainer fun e he => h c e (List.eraseP_subset he)

theorem Sound.modifySlot (h : inv.Sound im Q) (c : ContainerID) (i : Nat)
    {f : InventorySlot → InventorySlot}
    (hf : ∀ e, (inv.containerList c)[i]? = some e → SoundEntry im Q (f e)) :
    (inv.modifySlot c i f).Sound im Q := by
  refine h.setContainer fun e he => ?_
  rcases mem_modify he with he | ⟨old, hold, rfl⟩
  · exact h c e he
  · exact hf old hold

theorem Sound.addItem (h : inv.Sound im Q) (c : ContainerID) {item : InventorySlot}
    (hitem : SoundEntry im Q item) : (inv.addItem now c item).Sound im Q := by
  have hset : (inv.setContainer c (inv.containerList c ++ [item])).Sound im Q := by
    refine h.setContainer fun e he => ?_
    rcases List.mem_append.mp he with he | he
    · exact h c e he
    · rwa [List.mem_singleton.mp he]
  intro c' e he
  rw [containerList_addItem] at he
  exact hset c' e he

theorem Sound.of_getItemPtrByCCSID (h : inv.Sound im Q) {ccsid : Nat} {item : InventorySlot}
    (hitem : inv.getItemPtrByCCSID ccsid = some item) : SoundEntry im Q item := by
  unfold getItemPtrByCCSID at hitem
  obtain ⟨c, -, hfind⟩ := Option.bind_eq_some_iff.mp hitem
  exact h c item (List.mem_of_find?_eq_some hfind)

theorem Sound.addItemEx (h : inv.Sound im Q) {c : ContainerID} {itemID count : Int}
    (hcount : 0 ≤ count) (hkind : Q itemID) :
    (inv.addItemEx im now c itemID count).2.Sound im Q := by
  cases hadd : inv.addItemEx im now c itemID count with
  | mk i inv' =>
      cases i with
      | none =>
          obtain ⟨e, rfl⟩ := addItemEx_none hadd
          exact h
      | some i =>
          obtain ⟨d, hd, ⟨s, hs, -, -, rfl⟩ | ⟨-, n, hn, -, rfl⟩⟩ := addItemEx_cases hadd
          · refine h.modifySlot c i fun e he => ?_
            have hold := h c e (List.mem_of_getElem? he)
            refine hold.setCount fun hst => ?_
            have hstack := hold.stack
            rw [getStackCount_eq, if_pos hst] at hstack
            omega
          · obtain ⟨-, hiid, hc⟩ := @newSlot_spec now c n d itemID count
            refine h.addItem c ⟨?_, by rwa [hiid]⟩
            rw [getStackCount_eq, hc]
            split
            · split <;> omega
            · norm_num

/-- The copy that `AddBuyBack` makes is one of a sound item, or of what a moved pointer
shows. -/
theorem Sound.addBuyBack (h : inv.Sound im Q) {buybackLimit ccsid : Nat}
    {item stale : InventorySlot} (hitem : SoundEntry im Q item)
    (hstale : containerOf ccsid = some buybackContainer → SoundEntry im Q stale) :
    (inv.addBuyBack buybackLimit ccsid item stale).Sound im Q := by
  have hread : SoundEntry im Q (inv.buybackRead buybackLimit ccsid item stale) := by
    unfold buybackRead
    split
    · rename_i hcond
      simp only [Bool.and_eq_true, beq_iff_eq] at hcond
      exact hstale hcond.2
    · exact hitem
  have hkept : ∀ e ∈ inv.keptBuyback buybackLimit, SoundEntry im Q e := by
    intro e he
    unfold keptBuyback at he
    dsimp only at he
    split at he
    · exact h buybackContainer e ((List.eraseIdx_sublist _ 0).subset he)
    · exact h buybackContainer e he
  intro c e he
  rw [containerList_addBuyBack] at he
  refine h.setContainer (fun e he => ?_) c e he
  rcases List.mem_append.mp he with he | he
  · exact hkept e he
  · rw [List.mem_singleton.mp he]
    exact hread.congr rfl rfl

/-- Of what a scan found, only the last stack is kept in part, and it is larger than what
is taken out of it. -/
theorem scanRemoveItems_shrunk (itemID : Int) (l : List InventorySlot) (k : Nat)
    (remain : Int) :
    (scanRemoveItems im itemID l k remain).filter (fun q => !q.remove) = [] ∨
      ∃ q slot, (scanRemoveItems im itemID l k remain).filter (fun q => !q.remove) = [q] ∧
        k ≤ q.index ∧ l[q.index - k]? = some slot ∧ q.count < slot.getStackCount im := by
  induction l generalizing k remain with
  | nil => exact .inl rfl
  | cons slot rest ih =>
      have hshift (remain : Int) (head : List InventoryQuery)
          (hhead : head.filter (fun q => !q.remove) = []) :
          (head ++ scanRemoveItems im itemID rest (k + 1) remain).filter
              (fun q => !q.remove) = [] ∨
            ∃ q slot', (head ++ scanRemoveItems im itemID rest (k + 1) remain).filter
                (fun q => !q.remove) = [q] ∧
              k ≤ q.index ∧ (slot :: rest)[q.index - k]? = some slot' ∧
              q.count < slot'.getStackCount im := by
        rw [List.filter_append, hhead, List.nil_append]
        rcases ih (k + 1) remain with hnil | ⟨q, slot', hq, hk, hslot, hlt⟩
        · exact .inl hnil
        · refine .inr ⟨q, slot', hq, by omega, ?_, hlt⟩
          obtain ⟨n, hn⟩ : ∃ n, q.index - k = n + 1 := ⟨q.index - (k + 1), by omega⟩
          rw [hn, List.getElem?_cons_succ, ← hslot]
          congr 1
          omega
      unfold scanRemoveItems
      split
      · exact .inl rfl
      · split
        · by_cases hwhole : remain ≥ slot.getStackCount im
          · simp only [if_pos hwhole]
            exact hshift _ [⟨k, slot.ccsid, true, slot.getStackCount im⟩] rfl
          · simp only [if_neg hwhole]
            have hend : scanRemoveItems im itemID rest (k + 1)
                (remain - slot.getStackCount im) = [] := by
              cases rest with
              | nil => rfl
              | cons next rest =>
                  unfold scanRemoveItems
                  exact if_pos (by omega)
            rw [hend]
            exact .inr ⟨⟨k, slot.ccsid, false, remain⟩, slot, rfl, le_refl k, by simp,
              by simpa using hwhole⟩
        · exact hshift remain [] rfl

theorem Sound.removeItemsAndUpdate (h : inv.Sound im Q) (c : ContainerID)
    (itemID itemCost : Int) : (inv.removeItemsAndUpdate im now c itemID itemCost).Sound im Q := by
  have hgone (l : List InventoryQuery) : ∀ inv : InventoryManager, inv.Sound im Q →
      (l.foldl (fun inv q => inv.remItem q.ccsid) inv).Sound im Q := by
    induction l with
    | nil => exact fun _ hinv => hinv
    | cons q rest ih => exact fun inv hinv => ih _ (hinv.remItem q.ccsid)
  refine hgone _ _ ?_
  rcases @scanRemoveItems_shrunk im itemID (inv.containerList c) 0 itemCost with
    hnil | ⟨q, slot, hq, -, hslot, hlt⟩
  · rw [hnil]
    exact h
  · rw [hq]
    refine h.modifySlot c q.index fun e he => ?_
    have hsame : slot = e := Option.some.inj (hslot.symm.trans he)
    subst hsame
    refine (h c slot (List.mem_of_getElem? he)).setCount fun hst => ?_
    rw [getStackCount_eq, if_pos hst] at hlt
    omega

theorem Sound.modifyCCSID (h : inv.Sound im Q) {ccsid : Nat} {item : InventorySlot}
    (hitem : inv.getItemPtrByCCSID ccsid = some item) {f : InventorySlot → InventorySlot}
    (hf : SoundEntry im Q (f item)) : (inv.modifyCCSID ccsid f).Sound im Q := by
  obtain ⟨c, i, hc, hi, hget⟩ := indexOf_getItemPtrByCCSID hitem
  simp only [InventoryManager.modifyCCSID, hc, hi]
  refine h.modifySlot c i fun e he => ?_
  obtain rfl : item = e := Option.some.inj (hget.symm.trans he)
  exact hf

end InventoryManager

/-! ### A character -/

namespace CharacterState

/-- Every entry of both inventories is sound, and the coins fit their variable. -/
structure Sound (im : ItemManager) (Q : Int → Prop) (s : CharacterState) : Prop where
  entries : ∀ o, (s.inv o).Sound im Q
  copper_nonneg : 0 ≤ s.copper
  copper_lt : s.copper < 2 ^ 31

variable {s : CharacterState} {m : MoveRequest} {stats : MoveStats}

theorem Sound.at (h : s.Sound im Q) (p : Place) : ∀ e ∈ s.slotsAt p, SoundEntry im Q e :=
  h.entries p.1 p.2

theorem Sound.setInv (h : s.Sound im Q) {o : Owner} {inv : InventoryManager}
    (hinv : inv.Sound im Q) : (s.setInv o inv).Sound im Q := by
  refine ⟨fun o' => ?_, h.copper_nonneg, h.copper_lt⟩
  by_cases ho : o' = o
  · subst ho
    simpa [CharacterState.setInv] using hinv
  · simpa [CharacterState.setInv, ho] using h.entries o'

/-- Whatever is paid, the balance is neither negative nor too large for its variable. -/
theorem Sound.adjustCopper (h : s.Sound im Q) (coinChange : Int) :
    (s.adjustCopper coinChange).Sound im Q := by
  obtain ⟨-, hlt⟩ := wrap32_inInt32 (s.copper + coinChange)
  refine ⟨h.entries, le_max_left _ _, ?_⟩
  simp only [CharacterState.adjustCopper]
  omega

theorem Sound.setSlots (h : s.Sound im Q) {p : Place} {l : List InventorySlot}
    (hl : ∀ e ∈ l, SoundEntry im Q e) : (s.setSlots p l).Sound im Q :=
  h.setInv ((h.entries p.1).setContainer hl)

theorem Sound.modifyAt (h : s.Sound im Q) {p : Place} {i : Nat} {f : InventorySlot → InventorySlot}
    (hf : ∀ e, (s.slotsAt p)[i]? = some e → SoundEntry im Q (f e)) :
    (s.modifyAt p i f).Sound im Q := by
  refine h.setSlots fun e he => ?_
  rcases mem_modify he with he | ⟨old, hold, rfl⟩
  · exact h.at p e he
  · exact hf old hold

theorem Sound.eraseAt (h : s.Sound im Q) (p : Place) (i : Nat) : (s.eraseAt p i).Sound im Q :=
  h.setSlots fun e he => h.at p e ((List.eraseIdx_sublist _ i).subset he)

theorem Sound.append (h : s.Sound im Q) (p : Place) {item : InventorySlot}
    (hitem : SoundEntry im Q item) : (s.append p item).Sound im Q := by
  refine h.setSlots fun e he => ?_
  rcases List.mem_append.mp he with he | he
  · exact h.at p e he
  · rwa [List.mem_singleton.mp he]

/-- When a move finds both its slots taken, the moved item still stands at its index after
the other one was changed. -/
theorem source_modifyAt {i j : Nat} {source dest : InventorySlot}
    (hc : MoveChecked im s m i source) (hd : s.findAt m.dest m.destSlot = some (j, dest))
    (f : InventorySlot → InventorySlot) :
    ((s.modifyAt m.dest j f).slotsAt m.orig)[i]? = some source := by
  obtain ⟨hsource, horig⟩ := findBySlot_some hc.source_found
  obtain ⟨hdest, hslot⟩ := findBySlot_some hd
  rw [CharacterState.modifyAt, slotsAt_setSlots]
  by_cases hp : m.orig = m.dest
  · have hij : j ≠ i := by
      rintro rfl
      have hsame : (s.slotsAt m.orig)[j]? = some dest := hp ▸ hdest
      obtain rfl : source = dest := Option.some.inj (hsource.symm.trans hsame)
      exact hc.moves ⟨hp, horig.symm.trans hslot⟩
    rw [hp, Function.update_self, List.getElem?_modify, ← hp]
    simpa [hij, slotsAt] using hsource
  · rw [Function.update_of_ne hp]
    exact hsource

/-- Each effect copies entries as they are, or moves a part of one stack to another. -/
theorem Sound.applyEffect (h : s.Sound im Q) {i : Nat} {source : InventorySlot}
    {eff : MoveEffect} (hc : MoveChecked im s m i source)
    (ho : MoveOutcome im s stats m i source eff) : (s.applyEffect m eff).Sound im Q := by
  obtain ⟨hsource, -⟩ := findBySlot_some hc.source_found
  have hsound : SoundEntry im Q source := h.at m.orig source (List.mem_of_getElem? hsource)
  cases ho with
  | relocate free same =>
      refine h.modifyAt fun e he => ?_
      exact (h.at m.orig e (List.mem_of_getElem? he)).congr rfl rfl
  | transfer free other =>
      have hcopy : SoundEntry im Q { source with ccsid := m.destCCSID } := hsound.congr rfl rfl
      exact (h.append m.dest hcopy).eraseAt m.orig i
  | @merge j dest dest_found same stackable fits =>
      obtain ⟨hdest, -⟩ := findBySlot_some dest_found
      refine Sound.eraseAt (h.modifyAt fun e he => ?_) m.orig i
      obtain rfl : dest = e := Option.some.inj (hdest.symm.trans he)
      have hold := h.at m.dest dest (List.mem_of_getElem? hdest)
      refine hold.setCount fun hst => ?_
      have hstack := hold.stack
      have hadded := hsound.stack
      rw [getStackCount_eq, if_pos hst] at hstack
      omega
  | @mergePart j dest dest_found same stackable exceeds =>
      obtain ⟨hdest, -⟩ := findBySlot_some dest_found
      have hst := stacking_of_maxStack stackable
      refine Sound.modifyAt (h.modifyAt fun e he => ?_) fun e he => ?_
      · obtain rfl : dest = e := Option.some.inj (hdest.symm.trans he)
        have hold := h.at m.dest dest (List.mem_of_getElem? hdest)
        refine hold.setCount fun hst' => ?_
        rw [getStackCount_eq dest, if_pos hst']
        omega
      · rw [source_modifyAt hc dest_found] at he
        obtain rfl : source = e := Option.some.inj he
        refine hsound.setCount fun _ => ?_
        rw [getStackCount_eq source, if_pos hst] at exceeds
        omega
  | @swap j dest dest_found allowed =>
      obtain ⟨hdest, -⟩ := findBySlot_some dest_found
      have hold := h.at m.dest dest (List.mem_of_getElem? hdest)
      refine Sound.modifyAt (h.modifyAt fun e he => ?_) fun e he => ?_
      · exact hsound.congr rfl rfl
      · exact hold.congr rfl rfl

theorem Sound.recount (h : s.Sound im Q) (m : MoveRequest) : (s.recount im m).Sound im Q := by
  refine ⟨fun o c e he => ?_, ?_, ?_⟩
  · have hslots : (s.recount im m).slotsAt (o, c) = s.slotsAt (o, c) :=
      congrFun (slotsAt_recount s m) (o, c)
    exact h.at (o, c) e (hslots ▸ he)
  · rw [recount_copper]
    exact h.copper_nonneg
  · rw [recount_copper]
    exact h.copper_lt

/-- Requests are for a non-negative number of an admitted item, and a pointer that an
eviction moved shows a sound entry. -/
def Legit (cfg : ServerConfig) (Q : Int → Prop) (_ : CharacterState) : CharacterEvent → Prop
  | .addItem _ _ itemID count => 0 ≤ count ∧ Q itemID
  | .sell ccsid stale =>
      containerOf ccsid = some buybackContainer → SoundEntry cfg.items Q stale
  | _ => True

/-- Every event keeps the entries sound. -/
theorem Sound.step {cfg : ServerConfig} {s' : CharacterState} {e : CharacterEvent}
    (h : s.Sound cfg.items Q) (hok : s.Legit cfg Q e) (hs : s.step cfg e = some s') :
    s'.Sound cfg.items Q := by
  cases e with
  | addItem now c itemID count =>
      cases hs
      exact h.setInv ((h.entries .character).addItemEx hok.1 hok.2)
  | move ctx args =>
      cases hs
      rw [itemMoveQuery_snd]
      cases hm : s.moveOf cfg.items ctx args with
      | none => exact h
      | some r =>
          obtain ⟨m, eff⟩ := r
          obtain ⟨-, -, heff⟩ := moveOf_some cfg.items hm
          obtain ⟨i, source, hc, ho⟩ := itemMoveEffect_ok cfg.items heff
          exact (h.applyEffect hc ho).recount m
  | split now ccsid amount =>
      cases hs
      rcases s.itemSplit_cases cfg.items now ccsid amount with
        heq | ⟨item, n, hitem, -, hlo, hhi, heq⟩
      · rwa [heq]
      · rw [heq]
        have hold := (h.entries .character).of_getItemPtrByCCSID hitem
        have hnew : SoundEntry cfg.items Q
            { item with ccsid := getCCSID invContainer n, count := amount - 1 } := by
          have hcopy : SoundEntry cfg.items Q { item with ccsid := getCCSID invContainer n } :=
            hold.congr rfl rfl
          exact hcopy.setCount fun _ => by omega
        refine h.setInv (((h.entries .character).addItem invContainer hnew).modifyCCSID
          (getItemPtrByCCSID_addItem hitem _ _) ?_)
        refine hold.setCount fun hst => ?_
        rw [getStackCount_eq, if_pos hst] at hhi
        omega
  | sell ccsid stale =>
      cases hs
      rcases s.shopSell_cases cfg.items cfg.buybackLimit ccsid stale with
        heq | ⟨item, d, hitem, -, heq⟩
      · rwa [heq]
      · rw [heq]
        have hold := (h.entries .character).of_getItemPtrByCCSID hitem
        exact (h.setInv (((h.entries .character).addBuyBack hold hok).remItem ccsid)).adjustCopper _
  | buyback now ccsid stale =>
      cases hs
      rcases s.shopBuyback_cases cfg.items now ccsid stale with
        heq | ⟨item, n, d, hitem, -, -, -, heq⟩
      · rwa [heq]
      · rw [heq]
        have hold := (h.entries .character).of_getItemPtrByCCSID hitem
        have hcopy : SoundEntry cfg.items Q { item with ccsid := getCCSID invContainer n } :=
          hold.congr rfl rfl
        exact (h.setInv (((h.entries .character).addItem invContainer hcopy).remItem _)).adjustCopper _
  | delete arg =>
      obtain ⟨r, hr, rfl⟩ := Option.map_eq_some_iff.mp hs
      have hgone : (s.setInv .character (((s.inv .character).remItem
          (arg % 2 ^ 32)).countInventorySlots cfg.items)).Sound cfg.items Q :=
        h.setInv ((h.entries .character).remItem _)
      rcases itemDelete_cases cfg.items hr with heq | heq | ⟨-, coin, heq⟩
      · rwa [heq]
      · rwa [heq]
      · rw [heq]
        exact hgone.adjustCopper coin
  | remItem ccsid =>
      cases hs
      exact h.setInv ((h.entries .character).remItem ccsid)
  | removeItems now c itemID itemCost =>
      cases hs
      exact h.setInv ((h.entries .character).removeItemsAndUpdate c itemID itemCost)

/-- Every character reached from empty inventories is sound. -/
theorem Reach.sound {cfg : ServerConfig} {localCharacterVault : Bool}
    (run : Reach (· = fresh cfg localCharacterVault) (Legit cfg Q) (step cfg) s) :
    s.Sound cfg.items Q := by
  refine run.invariant ?_ fun _ _ _ h hok hs => h.step hok hs
  rintro _ rfl
  exact ⟨fun _ _ _ he => absurd he List.not_mem_nil, le_refl 0, by norm_num [fresh]⟩

end CharacterState

end Iceee
