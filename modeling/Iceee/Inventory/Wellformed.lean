import Iceee.Inventory.Handlers
import Iceee.Lib.Keyed
import Iceee.Lib.Trace

/-!
# Every slot holds at most one item

A slot is occupied when some entry of the container's list carries its number in the
CCSID. `Placed` is the invariant of one list. New numbers come from `GetFreeSlot`, from
the client, or from the buyback counter, and are cut to sixteen bits; the runs considered
are those in which a number is still unused after the cut.
-/

namespace Iceee

open Lib

namespace InventoryManager

/-- One container's list: every entry names the container, and no CCSID occurs twice. -/
structure Placed (c : ContainerID) (l : List InventorySlot) : Prop where
  inContainer : ∀ item ∈ l, item.ccsid / 65536 = c
  distinct : NodupKeys InventorySlot.ccsid l

/-- Every container of an inventory is in order. -/
def WellPlaced (inv : InventoryManager) : Prop := ∀ c, Placed c (inv.containerList c)

variable {im : ItemManager} {now : Nat}

@[simp] theorem getCCSID_div (c : ContainerID) (n : Nat) : getCCSID c n / 65536 = c := by
  have hc := c.isLt
  unfold getCCSID maxContainer at *
  omega

@[simp] theorem getCCSID_mod (c : ContainerID) (n : Nat) :
    getCCSID c n % 65536 = n % 65536 := by
  unfold getCCSID
  omega

/-- Entries with different slot numbers have different CCSIDs. -/
theorem ccsid_ne_getCCSID {c : ContainerID} {item : InventorySlot} {n : Nat}
    (hn : item.getSlot ≠ n % 65536) : item.ccsid ≠ getCCSID c n := by
  intro heq
  apply hn
  unfold InventorySlot.getSlot
  rw [heq, getCCSID_mod]

theorem Placed.sublist {c : ContainerID} {l l' : List InventorySlot} (h : Placed c l)
    (hs : l'.Sublist l) : Placed c l' :=
  ⟨fun item hitem => h.inContainer item (hs.subset hitem), h.distinct.sublist hs⟩

theorem Placed.append {c : ContainerID} {l : List InventorySlot} (h : Placed c l)
    {item : InventorySlot} {n : Nat} (hid : item.ccsid = getCCSID c n)
    (hfree : ∀ other ∈ l, other.getSlot ≠ n % 65536) : Placed c (l ++ [item]) := by
  constructor
  · intro other hother
    rcases List.mem_append.mp hother with hother | hother
    · exact h.inContainer other hother
    · rw [List.mem_singleton.mp hother, hid, getCCSID_div]
  · refine nodupKeys_append_singleton.mpr ⟨h.distinct, fun other hother => ?_⟩
    rw [hid]
    exact ccsid_ne_getCCSID (hfree other hother)

theorem Placed.modify {c : ContainerID} {l : List InventorySlot} (h : Placed c l) (i : Nat)
    {f : InventorySlot → InventorySlot} (hf : ∀ item, (f item).ccsid = item.ccsid) :
    Placed c (l.modify i f) := by
  constructor
  · intro item hitem
    rcases mem_modify hitem with hitem | ⟨old, hold, rfl⟩
    · exact h.inContainer item hitem
    · rw [hf]
      exact h.inContainer old (List.mem_of_getElem? hold)
  · exact h.distinct.modify i hf

/-- An entry may move to a slot number that no other entry has. -/
theorem Placed.rekey {c : ContainerID} {l : List InventorySlot} (h : Placed c l) {i n : Nat}
    {f : InventorySlot → InventorySlot} (hf : ∀ item, (f item).ccsid = getCCSID c n)
    (hfree : ∀ j item, j ≠ i → l[j]? = some item → item.getSlot ≠ n % 65536) :
    Placed c (l.modify i f) := by
  constructor
  · intro item hitem
    rcases mem_modify hitem with hitem | ⟨old, -, rfl⟩
    · exact h.inContainer item hitem
    · rw [hf, getCCSID_div]
  · exact h.distinct.rekey hf fun j item hj hitem =>
      ccsid_ne_getCCSID (hfree j item hj hitem)

theorem WellPlaced.setContainer {inv : InventoryManager} (h : inv.WellPlaced) {c : ContainerID}
    {l : List InventorySlot} (hl : Placed c l) : (inv.setContainer c l).WellPlaced := by
  intro c'
  by_cases hc : c' = c
  · subst hc
    rw [setContainer_self]
    exact hl
  · rw [setContainer_other _ _ hc]
    exact h c'

theorem WellPlaced.remItem {inv : InventoryManager} (h : inv.WellPlaced) (ccsid : Nat) :
    (inv.remItem ccsid).WellPlaced := by
  unfold InventoryManager.remItem
  cases containerOf ccsid with
  | none => exact h
  | some c => exact h.setContainer ((h c).sublist List.eraseP_sublist)

theorem WellPlaced.modifySlot {inv : InventoryManager} (h : inv.WellPlaced) (c : ContainerID)
    (i : Nat) {f : InventorySlot → InventorySlot} (hf : ∀ item, (f item).ccsid = item.ccsid) :
    (inv.modifySlot c i f).WellPlaced :=
  h.setContainer ((h c).modify i hf)

theorem WellPlaced.modifyCCSID {inv : InventoryManager} (h : inv.WellPlaced) (ccsid : Nat)
    {f : InventorySlot → InventorySlot} (hf : ∀ item, (f item).ccsid = item.ccsid) :
    (inv.modifyCCSID ccsid f).WellPlaced := by
  unfold InventoryManager.modifyCCSID
  cases containerOf ccsid with
  | none => exact h
  | some c =>
      simp only
      cases indexOfCCSID (inv.containerList c) ccsid with
      | none => exact h
      | some i => exact h.modifySlot c i hf

/-- What `GetFreeSlot` returns is the number of no entry. -/
theorem getFreeSlot_free {inv : InventoryManager} {c : ContainerID} {n : Nat}
    (h : inv.getFreeSlot c = some n) : ∀ item ∈ inv.containerList c, item.getSlot ≠ n := by
  unfold getFreeSlot at h
  split at h
  · cases h
  · have hn := List.find?_some h
    simpa using hn

theorem WellPlaced.addItem {inv : InventoryManager} (h : inv.WellPlaced) {c : ContainerID}
    {item : InventorySlot} {n : Nat} (hid : item.ccsid = getCCSID c n)
    (hfree : ∀ other ∈ inv.containerList c, other.getSlot ≠ n % 65536) :
    (inv.addItem now c item).WellPlaced := by
  intro c'
  rw [containerList_addItem]
  by_cases hc : c' = c
  · subst hc
    rw [Function.update_self]
    exact (h c').append hid hfree
  · rw [Function.update_of_ne hc]
    exact h c'

/-- Whether a slot number, cut to sixteen bits, is the number of no entry in a list. -/
def FreeAfterCut (l : List InventorySlot) (n : Nat) : Prop :=
  ∀ item ∈ l, item.getSlot ≠ n % 65536

instance (l : List InventorySlot) (n : Nat) : Decidable (FreeAfterCut l n) :=
  inferInstanceAs (Decidable (∀ item ∈ l, _))

theorem WellPlaced.addItemEx {inv : InventoryManager} (h : inv.WellPlaced) {c : ContainerID}
    {itemID count : Int}
    (hfree : ∀ d ∈ im.getPointerByID itemID, inv.OpensSlot im c d count →
      ∀ n ∈ inv.getFreeSlot c, FreeAfterCut (inv.containerList c) n) :
    (inv.addItemEx im now c itemID count).2.WellPlaced := by
  cases hadd : inv.addItemEx im now c itemID count with
  | mk i inv' =>
      cases i with
      | none =>
          obtain ⟨e, rfl⟩ := addItemEx_none hadd
          exact h
      | some i =>
          obtain ⟨d, hd, ⟨s, -, -, -, rfl⟩ | ⟨hopens, n, hn, -, rfl⟩⟩ := addItemEx_cases hadd
          · exact h.modifySlot c i fun _ => rfl
          · exact h.addItem (newSlot_spec c n d itemID count).1 (hfree d hd hopens n hn)

/-- An entry is appended and then the first one with some CCSID is erased. -/
theorem Placed.append_eraseCCSID {c : ContainerID} {l : List InventorySlot} (h : Placed c l)
    {item : InventorySlot} {n ccsid : Nat} (hid : item.ccsid = getCCSID c n)
    (hfree : FreeAfterCut (l.filter fun other => other.ccsid ≠ ccsid) n) :
    Placed c (eraseCCSID (l ++ [item]) ccsid) := by
  constructor
  · intro other hother
    rcases List.mem_append.mp (List.eraseP_subset hother) with hother | hother
    · exact h.inContainer other hother
    · rw [List.mem_singleton.mp hother, hid, getCCSID_div]
  · refine h.distinct.append_eraseP fun other hother heq => ?_
    by_contra hne
    refine ccsid_ne_getCCSID (hfree other ?_) (heq.trans hid)
    exact List.mem_filter.mpr ⟨hother, by simpa using hne⟩

/-- The same for an inventory, where the CCSID may belong to another container. -/
theorem WellPlaced.append_remItem {inv : InventoryManager} (h : inv.WellPlaced)
    {c : ContainerID} {l : List InventorySlot} (hl : Placed c l) {item : InventorySlot}
    {n ccsid : Nat} (hid : item.ccsid = getCCSID c n)
    (hfree : FreeAfterCut (l.filter fun other => other.ccsid ≠ ccsid) n) :
    ((inv.setContainer c (l ++ [item])).remItem ccsid).WellPlaced := by
  by_cases hc : containerOf ccsid = some c
  · have heq : (inv.setContainer c (l ++ [item])).remItem ccsid =
        (inv.setContainer c (l ++ [item])).setContainer c (eraseCCSID (l ++ [item]) ccsid) := by
      simp only [InventoryManager.remItem, hc, setContainer_self]
    intro c'
    rw [heq]
    by_cases hc' : c' = c
    · subst hc'
      rw [setContainer_self]
      exact hl.append_eraseCCSID hid hfree
    · rw [setContainer_other _ _ hc', setContainer_other _ _ hc']
      exact h c'
  · refine (h.setContainer (hl.append hid fun other hother => ?_)).remItem ccsid
    refine hfree other (List.mem_filter.mpr ⟨hother, decide_eq_true ?_⟩)
    rintro rfl
    apply hc
    have hdiv := hl.inContainer other hother
    simp [containerOf, hdiv]

theorem WellPlaced.addBuyBack_remItem {inv : InventoryManager} (h : inv.WellPlaced)
    {buybackLimit ccsid : Nat} (item stale : InventorySlot)
    (hfree : FreeAfterCut
      ((inv.keptBuyback buybackLimit).filter fun other => other.ccsid ≠ ccsid) inv.buybackSlot) :
    ((inv.addBuyBack buybackLimit ccsid item stale).remItem ccsid).WellPlaced := by
  have hkept : Placed buybackContainer (inv.keptBuyback buybackLimit) := by
    refine (h buybackContainer).sublist ?_
    unfold keptBuyback
    dsimp only
    split
    · exact List.eraseIdx_sublist _ 0
    · exact List.Sublist.refl _
  have hlist := containerList_addBuyBack inv buybackLimit ccsid item stale
  intro c
  rw [containerList_remItem_congr hlist]
  exact h.append_remItem hkept rfl hfree c

/-- Every partial stack shrinks and every used-up one goes; nothing gets a new number. -/
theorem WellPlaced.processIqResults {inv : InventoryManager} (h : inv.WellPlaced)
    (c : ContainerID) (iq : List InventoryQuery) : (inv.processIqResults c iq).WellPlaced := by
  have hshrunk (l : List InventoryQuery) : ∀ inv : InventoryManager, inv.WellPlaced →
      (l.foldl (fun inv q => inv.modifySlot c q.index
        fun s => { s with count := s.count - q.count }) inv).WellPlaced := by
    induction l with
    | nil => exact fun _ hinv => hinv
    | cons q rest ih => exact fun inv hinv => ih _ (hinv.modifySlot c q.index fun _ => rfl)
  have hgone (l : List InventoryQuery) : ∀ inv : InventoryManager, inv.WellPlaced →
      (l.foldl (fun inv q => inv.remItem q.ccsid) inv).WellPlaced := by
    induction l with
    | nil => exact fun _ hinv => hinv
    | cons q rest ih => exact fun inv hinv => ih _ (hinv.remItem q.ccsid)
  exact hgone _ _ (hshrunk _ _ h)

/-- Every item of an inventory can be addressed: it has its container in its CCSID, no other item
has that CCSID, and its slot finds it. -/
structure Addressable (inv : InventoryManager) : Prop where
  inContainer : ∀ c, ∀ item ∈ inv.containerList c, item.getContainer = c
  distinct : (((List.finRange maxContainer).flatMap inv.containerList).map
    InventorySlot.ccsid).Nodup
  found : ∀ c i item, (inv.containerList c)[i]? = some item →
    inv.getItemBySlot c item.getSlot = some i

/-- In one container the slot numbers are as distinct as the CCSIDs. -/
theorem Placed.nodup_getSlot {c : ContainerID} {l : List InventorySlot} (h : Placed c l) :
    NodupKeys InventorySlot.getSlot l := by
  unfold NodupKeys
  refine (List.nodup_map_iff_inj_on ?_).mpr fun a ha b hb hab => ?_
  · exact h.distinct.of_map _
  · apply List.inj_on_of_nodup_map h.distinct ha hb
    have hac := h.inContainer a ha
    have hbc := h.inContainer b hb
    unfold InventorySlot.getSlot at hab
    omega

theorem WellPlaced.addressable {inv : InventoryManager} (h : inv.WellPlaced) :
    inv.Addressable where
  inContainer c item hitem := (h c).inContainer item hitem
  distinct := by
    rw [List.map_flatMap, List.nodup_flatMap]
    refine ⟨fun c _ => (h c).distinct, ?_⟩
    refine (List.nodup_finRange maxContainer).imp_of_mem fun {c c'} _ _ hne => ?_
    intro ccsid hc hc'
    obtain ⟨item, hitem, rfl⟩ := List.mem_map.mp hc
    obtain ⟨item', hitem', heq⟩ := List.mem_map.mp hc'
    apply hne
    apply Fin.ext
    rw [← (h c).inContainer item hitem, ← (h c').inContainer item' hitem', heq]
  found c i item hitem := by
    unfold getItemBySlot
    have hfind := (h c).nodup_getSlot.findIdx? hitem
    convert hfind using 3
    simp

end InventoryManager

open InventoryManager

namespace CharacterState

/-- Both inventories of a character are in order. -/
def WellPlaced (s : CharacterState) : Prop := ∀ o, (s.inv o).WellPlaced

variable {im : ItemManager} {s : CharacterState} {m : MoveRequest}

theorem WellPlaced.at (h : s.WellPlaced) (p : Place) : Placed p.2 (s.slotsAt p) := h p.1 p.2

theorem WellPlaced.setInv (h : s.WellPlaced) {o : Owner} {inv : InventoryManager}
    (hinv : inv.WellPlaced) : (s.setInv o inv).WellPlaced := by
  intro o'
  by_cases ho : o' = o
  · subst ho
    simpa [CharacterState.setInv] using hinv
  · simpa [CharacterState.setInv, ho] using h o'

theorem WellPlaced.setSlots (h : s.WellPlaced) {p : Place} {l : List InventorySlot}
    (hl : Placed p.2 l) : (s.setSlots p l).WellPlaced :=
  h.setInv ((h p.1).setContainer hl)

theorem WellPlaced.modifyAt (h : s.WellPlaced) (p : Place) (i : Nat)
    {f : InventorySlot → InventorySlot} (hf : ∀ item, (f item).ccsid = item.ccsid) :
    (s.modifyAt p i f).WellPlaced :=
  h.setSlots ((h.at p).modify i hf)

theorem WellPlaced.eraseAt (h : s.WellPlaced) (p : Place) (i : Nat) :
    (s.eraseAt p i).WellPlaced :=
  h.setSlots ((h.at p).sublist (List.eraseIdx_sublist _ i))

/-- The destination number of a move that gives its item a new CCSID is free. -/
def LandsFree (s : CharacterState) (m : MoveRequest) : MoveEffect → Prop
  | .relocate i => FreeAfterCut ((s.slotsAt m.dest).eraseIdx i) m.destSlot.toNat
  | .transfer _ _ => FreeAfterCut (s.slotsAt m.dest) m.destSlot.toNat
  | .merge _ _ _ | .mergePart _ _ _ | .swap _ _ _ _ => True

instance (s : CharacterState) (m : MoveRequest) : DecidablePred (s.LandsFree m)
  | .relocate _ => inferInstanceAs (Decidable (FreeAfterCut _ _))
  | .transfer _ _ => inferInstanceAs (Decidable (FreeAfterCut _ _))
  | .merge _ _ _ | .mergePart _ _ _ | .swap _ _ _ _ => inferInstanceAs (Decidable True)

/-- Merging and swapping leave every CCSID in place; the other two write the new one. -/
theorem WellPlaced.applyEffect (h : s.WellPlaced) {stats : MoveStats} {i : Nat}
    {source : InventorySlot} {eff : MoveEffect} (ho : MoveOutcome im s stats m i source eff)
    (hfree : s.LandsFree m eff) : (s.applyEffect m eff).WellPlaced := by
  cases ho with
  | relocate free same =>
      refine h.setSlots (Placed.rekey (n := m.destSlot.toNat) (h.at m.orig) ?_ ?_)
      · intro item
        rw [MoveRequest.destCCSID, same]
      · intro j item hj hitem
        rw [← same] at hitem
        exact hfree item (List.mem_eraseIdx_iff_getElem?.mpr ⟨j, hj, hitem⟩)
  | transfer free other =>
      have happ : (s.append m.dest { source with ccsid := m.destCCSID }).WellPlaced :=
        h.setSlots ((h.at m.dest).append rfl hfree)
      exact happ.eraseAt m.orig i
  | merge dest_found same stackable fits =>
      simp only [CharacterState.applyEffect]
      apply WellPlaced.eraseAt
      apply h.modifyAt
      exact fun _ => rfl
  | mergePart dest_found same stackable exceeds =>
      simp only [CharacterState.applyEffect]
      apply WellPlaced.modifyAt
      · apply h.modifyAt
        exact fun _ => rfl
      · exact fun _ => rfl
  | swap dest_found allowed =>
      simp only [CharacterState.applyEffect]
      apply WellPlaced.modifyAt
      · apply h.modifyAt
        exact fun _ => rfl
      · exact fun _ => rfl

theorem WellPlaced.recount (h : s.WellPlaced) : (s.recount im m).WellPlaced := by
  have hcount (o : Owner) (t : CharacterState) (ht : t.WellPlaced) :
      (t.setInv o ((t.inv o).countInventorySlots im)).WellPlaced := ht.setInv (ht o)
  unfold CharacterState.recount
  split
  · simp only
    split
    · exact hcount m.dest.1 _ (hcount m.orig.1 s h)
    · exact hcount m.orig.1 s h
  · exact h

theorem WellPlaced.itemMoveQuery (h : s.WellPlaced) {ctx : MoveContext}
    {args : Option (Nat × String × Int)}
    (hfree : ∀ r ∈ s.moveOf im ctx args, s.LandsFree r.1 r.2) :
    (s.itemMoveQuery im ctx args).2.WellPlaced := by
  rw [itemMoveQuery_snd]
  cases hm : s.moveOf im ctx args with
  | none => exact h
  | some r =>
      obtain ⟨m, eff⟩ := r
      obtain ⟨-, -, heff⟩ := moveOf_some im hm
      obtain ⟨i, source, -, ho⟩ := itemMoveEffect_ok im heff
      exact (h.applyEffect ho (hfree (m, eff) hm)).recount

/-- Wherever an event gives an entry a slot number, no other entry of the container has
that number modulo 65536. -/
def KeepsNumbers (cfg : ServerConfig) (s : CharacterState) : CharacterEvent → Prop
  | .addItem _ c itemID count =>
      ∀ d ∈ cfg.items.getPointerByID itemID, (s.inv .character).OpensSlot cfg.items c d count →
        ∀ n ∈ (s.inv .character).getFreeSlot c,
          FreeAfterCut ((s.inv .character).containerList c) n
  | .move ctx args => ∀ r ∈ s.moveOf cfg.items ctx args, s.LandsFree r.1 r.2
  | .split _ ccsid amount =>
      ∀ item ∈ (s.inv .character).getItemPtrByCCSID ccsid,
        1 ≤ amount → amount < item.getStackCount cfg.items →
          ∀ n ∈ (s.inv .character).getFreeSlot invContainer,
            FreeAfterCut ((s.inv .character).containerList invContainer) n
  | .sell ccsid _ =>
      ∀ item ∈ (s.inv .character).getItemPtrByCCSID ccsid,
        (cfg.items.getPointerByID item.iid).isSome →
          FreeAfterCut (((s.inv .character).keptBuyback cfg.buybackLimit).filter
            fun other => other.ccsid ≠ ccsid) (s.inv .character).buybackSlot
  | .buyback _ ccsid stale =>
      ∀ item ∈ (s.inv .character).getItemPtrByCCSID ccsid,
        ∀ d ∈ cfg.items.getPointerByID item.iid,
          ¬s.copper < wrap32 (d.mValue * item.getStackCount cfg.items) →
            ∀ n ∈ (s.inv .character).getFreeSlot invContainer,
              FreeAfterCut (((s.inv .character).containerList invContainer).filter
                fun other => other.ccsid ≠ buybackRemoves ccsid stale) n
  | .delete _ | .remItem _ | .removeItems _ _ _ _ => True

instance (cfg : ServerConfig) (s : CharacterState) : DecidablePred (s.KeepsNumbers cfg)
  | .addItem _ _ _ _ => inferInstanceAs (Decidable (∀ d ∈ _, _))
  | .move _ _ => inferInstanceAs (Decidable (∀ r ∈ _, _))
  | .split _ _ _ => inferInstanceAs (Decidable (∀ item ∈ _, _))
  | .sell _ _ => inferInstanceAs (Decidable (∀ item ∈ _, _))
  | .buyback _ _ _ => inferInstanceAs (Decidable (∀ item ∈ _, _))
  | .delete _ | .remItem _ | .removeItems _ _ _ _ => inferInstanceAs (Decidable True)

theorem WellPlaced.itemSplit (h : s.WellPlaced) {now ccsid : Nat} {amount : Int}
    (hfree : ∀ item ∈ (s.inv .character).getItemPtrByCCSID ccsid,
      1 ≤ amount → amount < item.getStackCount im →
        ∀ n ∈ (s.inv .character).getFreeSlot invContainer,
          FreeAfterCut ((s.inv .character).containerList invContainer) n) :
    (s.itemSplit im now ccsid amount).2.WellPlaced := by
  rcases s.itemSplit_cases im now ccsid amount with heq | ⟨item, n, hitem, hn, hlo, hhi, heq⟩
  · rw [heq]
    exact h
  · rw [heq]
    apply h.setInv
    apply InventoryManager.WellPlaced.modifyCCSID
    · exact (h .character).addItem rfl (hfree item hitem hlo hhi n hn)
    · exact fun _ => rfl

theorem WellPlaced.shopSell (h : s.WellPlaced) {buybackLimit ccsid : Nat}
    {stale : InventorySlot}
    (hfree : ∀ item ∈ (s.inv .character).getItemPtrByCCSID ccsid,
      (im.getPointerByID item.iid).isSome →
        FreeAfterCut (((s.inv .character).keptBuyback buybackLimit).filter
          fun other => other.ccsid ≠ ccsid) (s.inv .character).buybackSlot) :
    (s.shopSell im buybackLimit ccsid stale).2.WellPlaced := by
  rcases s.shopSell_cases im buybackLimit ccsid stale with heq | ⟨item, d, hitem, hd, heq⟩
  · rw [heq]
    exact h
  · rw [heq]
    have hsold := (h .character).addBuyBack_remItem item stale (hfree item hitem (by simp [hd]))
    exact h.setInv hsold

theorem WellPlaced.shopBuyback (h : s.WellPlaced) {now ccsid stale : Nat}
    (hfree : ∀ item ∈ (s.inv .character).getItemPtrByCCSID ccsid,
      ∀ d ∈ im.getPointerByID item.iid,
        ¬s.copper < wrap32 (d.mValue * item.getStackCount im) →
          ∀ n ∈ (s.inv .character).getFreeSlot invContainer,
            FreeAfterCut (((s.inv .character).containerList invContainer).filter
              fun other => other.ccsid ≠ buybackRemoves ccsid stale) n) :
    (s.shopBuyback im now ccsid stale).2.WellPlaced := by
  rcases s.shopBuyback_cases im now ccsid stale with
    heq | ⟨item, n, d, hitem, hn, hd, hcoin, heq⟩
  · rw [heq]
    exact h
  · rw [heq]
    have hlist : ((s.inv .character).addItem now invContainer
          { item with ccsid := getCCSID invContainer n }).containerList =
        ((s.inv .character).setContainer invContainer ((s.inv .character).containerList
          invContainer ++ [{ item with ccsid := getCCSID invContainer n }])).containerList :=
      containerList_addItem _ _ _
    refine h.setInv (o := .character) fun c => ?_
    rw [containerList_remItem_congr hlist]
    exact (h .character).append_remItem (h .character invContainer) rfl
      (hfree item hitem d hd hcoin n hn) c

theorem WellPlaced.itemDelete (h : s.WellPlaced) {recoup : Int → Int → Int} {arg : Nat}
    {r : Response × CharacterState} (hr : s.itemDelete im recoup arg = some r) :
    r.2.WellPlaced := by
  have hgone : (s.setInv .character
      (((s.inv .character).remItem (arg % 2 ^ 32)).countInventorySlots im)).WellPlaced :=
    h.setInv ((h .character).remItem _)
  rcases itemDelete_cases im hr with heq | heq | ⟨-, coin, heq⟩
  · rw [heq]
    exact h
  · rw [heq]
    exact hgone
  · rw [heq]
    exact hgone

/-- One event keeps both inventories in order. -/
theorem WellPlaced.step {cfg : ServerConfig} {s s' : CharacterState} {e : CharacterEvent}
    (h : s.WellPlaced) (hok : s.KeepsNumbers cfg e) (hs : s.step cfg e = some s') :
    s'.WellPlaced := by
  cases e with
  | addItem now c itemID count =>
      cases hs
      exact h.setInv ((h .character).addItemEx hok)
  | move ctx args =>
      cases hs
      exact h.itemMoveQuery hok
  | split now ccsid amount =>
      cases hs
      exact h.itemSplit hok
  | sell ccsid stale =>
      cases hs
      exact h.shopSell hok
  | buyback now ccsid stale =>
      cases hs
      exact h.shopBuyback hok
  | delete arg =>
      obtain ⟨r, hr, rfl⟩ := Option.map_eq_some_iff.mp hs
      exact h.itemDelete hr
  | remItem ccsid =>
      cases hs
      exact h.setInv ((h .character).remItem ccsid)
  | removeItems now c itemID itemCost =>
      cases hs
      exact h.setInv ((h .character).processIqResults c _)

theorem wellPlaced_fresh (cfg : ServerConfig) (localCharacterVault : Bool) :
    (fresh cfg localCharacterVault).WellPlaced := fun _ _ =>
  ⟨fun _ hitem => absurd hitem List.not_mem_nil, List.nodup_nil⟩

/-- In every run that keeps the numbers apart, every item stays addressable. -/
theorem run_addressable {cfg : ServerConfig} {localCharacterVault : Bool} {s : CharacterState}
    (run : Reach (· = fresh cfg localCharacterVault) (KeepsNumbers cfg) (step cfg) s)
    (o : Owner) : (s.inv o).Addressable := by
  have hplaced : s.WellPlaced := by
    refine run.invariant ?_ ?_
    · rintro _ rfl
      exact wellPlaced_fresh cfg localCharacterVault
    · exact fun _ _ _ h hok hs => h.step hok hs
  exact (hplaced o).addressable

/-! Two shields go to the vault one after the other. -/

def shieldConfig : ServerConfig where
  items := .ofList [{ mID := 100, mType := .armor, mEquipType := .armorShield }]

/-- The first backpack slot goes to a vault slot. -/
def toVault (slot : Int) : CharacterEvent :=
  .move { stats := { level := 1, profession := 1 } } (some (0, "bank", slot))

def storeShields (slot : Int) : List CharacterEvent :=
  [.addItem 0 invContainer 100 1, toVault 0, .addItem 0 invContainer 100 1, toVault slot]

def storedShields (slot : Int) : CharacterState :=
  (runAll (step shieldConfig) (fresh shieldConfig false) (storeShields slot)).getD {}

theorem run_addressable_vault : ((storedShields 1).inv .character).Addressable := by
  have hrun : runAll (step shieldConfig) (fresh shieldConfig false) (storeShields 1) =
      some (storedShields 1) := eq_some_getD (by decide) _
  have start : Trace (· = fresh shieldConfig false) (KeepsNumbers shieldConfig)
      (step shieldConfig) [] (fresh shieldConfig false) := .start rfl
  exact run_addressable ⟨_, start.runAll (by decide) hrun⟩ .character

/-- Vault slot 65536 is vault slot 0 again: both shields lie there. -/
theorem vault_slot_taken_twice :
    ∃ s, Reach (· = fresh shieldConfig false) (fun _ _ => True) (step shieldConfig) s ∧
      ¬(s.inv .character).Addressable := by
  have hrun : runAll (step shieldConfig) (fresh shieldConfig false) (storeShields 65536) =
      some (storedShields 65536) := eq_some_getD (by decide) _
  refine ⟨storedShields 65536, reach_of_runAll rfl hrun, fun h => ?_⟩
  exact absurd h.distinct (by decide)

end CharacterState

end Iceee
