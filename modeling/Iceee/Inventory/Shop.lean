import Iceee.Inventory.Stacks

/-!
# The shop gives no free wealth

The wealth of a character is the copper plus the value of everything outside the buyback
containers. A sale pays what it takes, a buyback takes at least what it gives, and a move
or a split passes value on. The exceptions are the operations that reach into the buyback
container without paying, and a price that does not fit a signed 32-bit integer; the runs
considered leave these out.
-/

namespace Iceee

open Lib InventoryManager

variable {im : ItemManager} {Q : Int → Prop} {now : Nat}

/-! ### Worth -/

/-- What the shop pays for one unit of an item. -/
def unitValue (im : ItemManager) (iid : Int) : Int :=
  match im.getPointerByID iid with
  | some d => d.mValue
  | none => 0

namespace InventorySlot

/-- `mValue` times the stack count. -/
def worth (im : ItemManager) (e : InventorySlot) : Int :=
  unitValue im e.iid * e.getStackCount im

/-- What an entry contributes to the wealth, by the container it lies in. -/
def counted (im : ItemManager) (c : ContainerID) (e : InventorySlot) : Int :=
  if c = buybackContainer then 0 else e.worth im

end InventorySlot

open InventorySlot

/-- No item of the tables has a negative value. -/
def NonnegValues (im : ItemManager) : Prop :=
  ∀ id, ∀ d ∈ im.getPointerByID id, 0 ≤ d.mValue

theorem unitValue_nonneg (hv : NonnegValues im) (iid : Int) : 0 ≤ unitValue im iid := by
  unfold unitValue
  cases hd : im.getPointerByID iid with
  | none => exact le_refl 0
  | some d => exact hv iid d hd

theorem worth_nonneg (hv : NonnegValues im) {e : InventorySlot} (h : SoundEntry im Q e) :
    0 ≤ e.worth im :=
  mul_nonneg (unitValue_nonneg hv e.iid) h.stack

@[simp] theorem counted_buyback (e : InventorySlot) : counted im buybackContainer e = 0 :=
  if_pos rfl

theorem counted_other {c : ContainerID} (hc : c ≠ buybackContainer) (e : InventorySlot) :
    counted im c e = e.worth im :=
  if_neg hc

theorem counted_nonneg (hv : NonnegValues im) {e : InventorySlot} (h : SoundEntry im Q e)
    (c : ContainerID) : 0 ≤ counted im c e := by
  unfold counted
  split
  · exact le_refl 0
  · exact worth_nonneg hv h

/-- Worth follows the item and the count alone. -/
theorem worth_congr {e e' : InventorySlot} (hiid : e'.iid = e.iid) (hcount : e'.count = e.count) :
    e'.worth im = e.worth im := by
  unfold worth
  rw [getStackCount_eq, getStackCount_eq, hiid, hcount]

/-- A stack that grows by some items grows in worth by theirs. -/
theorem worth_add {e e' : InventorySlot} (hst : stacking im e.iid = true)
    (hiid : e'.iid = e.iid) {n : Int} (hcount : e'.count = e.count + n) :
    e'.worth im = e.worth im + unitValue im e.iid * n := by
  unfold worth
  rw [getStackCount_eq, getStackCount_eq, hiid, hcount, if_pos hst, if_pos hst]
  ring

namespace InventoryManager

theorem backpack_ne_buyback : invContainer ≠ buybackContainer := by decide

/-- The worth of the goods of one inventory. -/
def goods (im : ItemManager) (inv : InventoryManager) : Int := inv.weigh (counted im)

variable {inv : InventoryManager}

/-- Removing something never adds to the goods. -/
theorem goods_remItem_le (hv : NonnegValues im) (h : inv.Sound im Q) (ccsid : Nat) :
    (inv.remItem ccsid).goods im ≤ inv.goods im := by
  unfold goods
  cases hitem : inv.getItemPtrByCCSID ccsid with
  | none => exact (weigh_remItem_none _ hitem).le
  | some item =>
      obtain ⟨c, i, hc, -, -⟩ := indexOf_getItemPtrByCCSID hitem
      rw [weigh_remItem _ hc hitem]
      have hnonneg := counted_nonneg hv (h.of_getItemPtrByCCSID hitem) c
      omega

theorem goods_modifyCCSID {ccsid : Nat} {c : ContainerID} {item : InventorySlot}
    (hc : containerOf ccsid = some c) (hitem : inv.getItemPtrByCCSID ccsid = some item)
    (f : InventorySlot → InventorySlot) :
    (inv.modifyCCSID ccsid f).goods im =
      inv.goods im + (counted im c (f item) - counted im c item) := by
  obtain ⟨c', i, hc', hi, hget⟩ := indexOf_getItemPtrByCCSID hitem
  obtain rfl : c = c' := Option.some.inj (hc.symm.trans hc')
  simp only [modifyCCSID, hc, hi]
  exact weigh_modifySlot _ f hget

/-- The buyback list does not count, so `AddBuyBack` leaves the goods as they are. -/
theorem goods_addBuyBack (inv : InventoryManager) (buybackLimit ccsid : Nat)
    (item stale : InventorySlot) :
    (inv.addBuyBack buybackLimit ccsid item stale).goods im = inv.goods im := by
  have hzero (l : List InventorySlot) : (l.map (counted im buybackContainer)).sum = 0 := by
    induction l with
    | nil => rfl
    | cons e rest ih => simp [counted, ih]
  unfold goods weigh
  rw [containerList_addBuyBack, setContainer, total_update, hzero, hzero]
  omega

/-- Nor does it change what a CCSID of another container leads to. -/
theorem getItemPtrByCCSID_addBuyBack {ccsid : Nat} {c : ContainerID}
    (hc : containerOf ccsid = some c) (hother : c ≠ buybackContainer)
    (inv : InventoryManager) (buybackLimit : Nat) (item stale : InventorySlot) :
    (inv.addBuyBack buybackLimit ccsid item stale).getItemPtrByCCSID ccsid =
      inv.getItemPtrByCCSID ccsid := by
  unfold getItemPtrByCCSID
  rw [hc, Option.bind_some, Option.bind_some, containerList_addBuyBack,
    setContainer_other _ _ hother]

end InventoryManager

namespace CharacterState

/-- Copper and goods of a character, the account's delivery box included. -/
def wealth (im : ItemManager) (s : CharacterState) : Int :=
  s.copper + ∑ o, (s.inv o).goods im

variable {s : CharacterState} {m : MoveRequest} {stats : MoveStats}

theorem sum_owner (f : Owner → Int) : ∑ o, f o = f .character + f .account :=
  Finset.sum_pair (by decide)

theorem wealth_eq (s : CharacterState) :
    s.wealth im = s.copper + ((s.inv .character).goods im + (s.inv .account).goods im) := by
  unfold wealth
  rw [sum_owner]

theorem wealth_setInv (s : CharacterState) (inv : InventoryManager) :
    (s.setInv .character inv).wealth im =
      s.wealth im + (inv.goods im - (s.inv .character).goods im) := by
  simp only [wealth_eq, setInv, Function.update_self, ne_eq, reduceCtorEq, not_false_eq_true,
    Function.update_of_ne]
  ring

theorem wealth_adjustCopper (s : CharacterState) (coinChange : Int) :
    (s.adjustCopper coinChange).wealth im =
      s.wealth im - s.copper + (s.adjustCopper coinChange).copper := by
  simp only [wealth, adjustCopper]
  ring

/-- The goods of both inventories as one family of lists. -/
theorem wealth_eq_total (s : CharacterState) :
    s.wealth im = s.copper + total (fun p : Place => counted im p.2) s.slotsAt := by
  unfold wealth total goods weigh total
  rw [Fintype.sum_prod_type]
  rfl

theorem wealth_modifyAt {p : Place} {i : Nat} {e : InventorySlot}
    (he : (s.slotsAt p)[i]? = some e) (f : InventorySlot → InventorySlot) :
    (s.modifyAt p i f).wealth im =
      s.wealth im + (counted im p.2 (f e) - counted im p.2 e) := by
  rw [wealth_eq_total, wealth_eq_total, modifyAt, slotsAt_setSlots, total_modify _ f he,
    setSlots_copper]
  ring

theorem wealth_eraseAt {p : Place} {i : Nat} {e : InventorySlot}
    (he : (s.slotsAt p)[i]? = some e) :
    (s.eraseAt p i).wealth im = s.wealth im - counted im p.2 e := by
  rw [wealth_eq_total, wealth_eq_total, eraseAt, slotsAt_setSlots, total_eraseIdx _ he,
    setSlots_copper]
  ring

theorem wealth_append (p : Place) (item : InventorySlot) :
    (s.append p item).wealth im = s.wealth im + counted im p.2 item := by
  rw [wealth_eq_total, wealth_eq_total, append, slotsAt_setSlots, total_append, setSlots_copper]
  ring

theorem wealth_recount (s : CharacterState) (m : MoveRequest) :
    (s.recount im m).wealth im = s.wealth im := by
  rw [wealth_eq_total, wealth_eq_total, slotsAt_recount, recount_copper]

/-! ### Moves -/

/-- A move takes nothing out of the buyback container, and what it puts there it does not
exchange for something else. -/
def MovePays (m : MoveRequest) (eff : MoveEffect) : Prop :=
  (m.orig.2 = buybackContainer → m.dest.2 = buybackContainer) ∧
    (m.dest.2 = buybackContainer → m.orig.2 ≠ buybackContainer →
      match eff with
      | .swap _ _ _ _ => False
      | .mergePart _ _ n => 0 ≤ n
      | .merge _ _ _ | .relocate _ | .transfer _ _ => True)

instance (m : MoveRequest) : DecidablePred (MovePays m)
  | .swap _ _ _ _ => inferInstanceAs (Decidable (_ ∧ (_ → _ → False)))
  | .mergePart _ _ n => inferInstanceAs (Decidable (_ ∧ (_ → _ → 0 ≤ n)))
  | .merge _ _ _ | .relocate _ | .transfer _ _ =>
      inferInstanceAs (Decidable (_ ∧ (_ → _ → True)))

theorem counted_congr {e e' : InventorySlot} (hiid : e'.iid = e.iid)
    (hcount : e'.count = e.count) (c : ContainerID) : counted im c e' = counted im c e := by
  unfold counted
  rw [worth_congr hiid hcount]

/-- Whatever leaves a place for another one is counted there no higher than before, unless
it leaves the buyback container. -/
theorem counted_le {c c' : ContainerID} (hleaves : c = buybackContainer → c' = buybackContainer)
    {e : InventorySlot} (hworth : 0 ≤ e.worth im) : counted im c' e ≤ counted im c e := by
  by_cases hc : c = buybackContainer
  · rw [hc, hleaves hc]
  · rw [counted_other hc]
    by_cases hc' : c' = buybackContainer
    · rw [hc', counted_buyback]
      exact hworth
    · rw [counted_other hc']

/-- What a stack gains in one place it loses in the other; nothing has to be gained in the
buyback container. -/
theorem counted_exchange_le {c c' : ContainerID}
    (hleaves : c = buybackContainer → c' = buybackContainer) {a a' b b' : InventorySlot}
    {v : Int} (ha : a'.worth im = a.worth im - v) (hb : b'.worth im = b.worth im + v)
    (henters : c' = buybackContainer → c ≠ buybackContainer → 0 ≤ v) :
    (counted im c' b' - counted im c' b) + (counted im c a' - counted im c a) ≤ 0 := by
  by_cases hc : c = buybackContainer
  · rw [hleaves hc, hc]
    simp
  · rw [counted_other hc, counted_other hc]
    by_cases hc' : c' = buybackContainer
    · have hv := henters hc' hc
      rw [hc', counted_buyback, counted_buyback]
      omega
    · rw [counted_other hc', counted_other hc']
      omega

/-- A move that pays never adds to the wealth. -/
theorem wealth_applyEffect_le (hv : NonnegValues im) (h : s.Sound im Q) {i : Nat}
    {source : InventorySlot} {eff : MoveEffect} (hc : MoveChecked im s m i source)
    (ho : MoveOutcome im s stats m i source eff) (hpays : MovePays m eff) :
    (s.applyEffect m eff).wealth im ≤ s.wealth im := by
  obtain ⟨hsource, -⟩ := findBySlot_some hc.source_found
  have hworth := worth_nonneg hv (h.at m.orig source (List.mem_of_getElem? hsource))
  obtain ⟨hleaves, henters⟩ := hpays
  cases ho with
  | relocate free same =>
      simp only [applyEffect]
      have hsame : counted im m.orig.2 { source with ccsid := m.destCCSID } =
          counted im m.orig.2 source := counted_congr rfl rfl m.orig.2
      rw [wealth_modifyAt hsource, hsame, sub_self, add_zero]
  | transfer free other =>
      simp only [applyEffect]
      have hkept : ((s.append m.dest { source with ccsid := m.destCCSID }).slotsAt m.orig)[i]? =
          some source := by
        rw [append, slotsAt_setSlots, Function.update_of_ne (Ne.symm other)]
        exact hsource
      have hsame : counted im m.dest.2 { source with ccsid := m.destCCSID } =
          counted im m.dest.2 source := counted_congr rfl rfl m.dest.2
      rw [wealth_eraseAt hkept, wealth_append, hsame]
      have hle := counted_le hleaves hworth
      omega
  | @merge j dest dest_found same stackable fits =>
      simp only [applyEffect]
      obtain ⟨hdest, -⟩ := findBySlot_some dest_found
      have hst := stacking_of_maxStack stackable
      have hunit : unitValue im dest.iid = unitValue im source.iid := by rw [same]
      rw [wealth_eraseAt (source_modifyAt hc dest_found _), wealth_modifyAt hdest]
      have hgain : InventorySlot.worth im { dest with
            count := dest.count + source.getStackCount im } =
          dest.worth im + unitValue im dest.iid * source.getStackCount im := by
        apply worth_add
        · rwa [← same]
        · rfl
        · rfl
      rw [hunit] at hgain
      have hgone : InventorySlot.worth im { source with count := -1 } =
          source.worth im - source.worth im := by
        simp [worth, getStackCount_eq, hst]
      have hle := counted_exchange_le hleaves hgone hgain fun _ _ => hworth
      have hzero : 0 ≤ counted im m.orig.2 { source with count := -1 } := by
        unfold counted
        split
        · exact le_refl 0
        · rw [hgone, sub_self]
      omega
  | @mergePart j dest dest_found same stackable exceeds =>
      simp only [applyEffect]
      obtain ⟨hdest, -⟩ := findBySlot_some dest_found
      have hst := stacking_of_maxStack stackable
      have hunit : unitValue im dest.iid = unitValue im source.iid := by rw [same]
      rw [wealth_modifyAt (source_modifyAt hc dest_found _), wealth_modifyAt hdest]
      have hgain : InventorySlot.worth im { dest with
            count := dest.count + (source.getMaxStack im - dest.getStackCount im) } =
          dest.worth im + unitValue im dest.iid *
            (source.getMaxStack im - dest.getStackCount im) := by
        apply worth_add
        · rwa [← same]
        · rfl
        · rfl
      rw [hunit] at hgain
      have hloss : InventorySlot.worth im { source with
            count := source.count - (source.getMaxStack im - dest.getStackCount im) } =
          source.worth im + unitValue im source.iid *
            -(source.getMaxStack im - dest.getStackCount im) := by
        apply worth_add hst
        · rfl
        · exact sub_eq_add_neg _ _
      rw [mul_neg, ← sub_eq_add_neg] at hloss
      have hle := counted_exchange_le hleaves hloss hgain fun hdest' horig' =>
        mul_nonneg (unitValue_nonneg hv source.iid) (henters hdest' horig')
      omega
  | @swap j dest dest_found allowed =>
      simp only [applyEffect]
      obtain ⟨hdest, -⟩ := findBySlot_some dest_found
      rw [wealth_modifyAt (source_modifyAt hc dest_found _), wealth_modifyAt hdest]
      have hgain : (dest.copyFrom source false).worth im = source.worth im := worth_congr rfl rfl
      have hloss : (source.copyFrom dest false).worth im = dest.worth im := worth_congr rfl rfl
      have hle := counted_exchange_le (a := source) (b := dest)
        (v := source.worth im - dest.worth im) hleaves (hloss.trans (by omega))
        (hgain.trans (by omega)) fun hdest' horig' => (henters hdest' horig').elim
      omega

/-! ### The other queries -/

/-- Income is never more than the price: a price too large for its variable is cut. -/
theorem copper_adjustCopper_le (h0 : 0 ≤ s.copper) {price : Int} (hprice : 0 ≤ price) :
    (s.adjustCopper (wrap32 price)).copper ≤ s.copper + price := by
  obtain ⟨hlo, -⟩ := wrap32_inInt32 price
  have hcut := wrap32_le (x := price) (by omega)
  have hsum := wrap32_le (x := s.copper + wrap32 price) (by omega)
  simp only [adjustCopper]
  omega

/-- A price that fits its variable is paid in full. -/
theorem copper_adjustCopper_neg (h0 : 0 ≤ s.copper) (hlt : s.copper < 2 ^ 31) {price : Int}
    (hprice : 0 ≤ price) (hfits : price < 2 ^ 31) (hpaid : ¬s.copper < wrap32 price) :
    (s.adjustCopper (wrap32 (-wrap32 price))).copper = s.copper - price := by
  have hcost : wrap32 price = price := wrap32_eq ⟨by omega, hfits⟩
  rw [hcost] at hpaid ⊢
  have hneg : wrap32 (-price) = -price := wrap32_eq ⟨by omega, by omega⟩
  have hrest : wrap32 (s.copper + -price) = s.copper + -price := wrap32_eq ⟨by omega, by omega⟩
  simp only [adjustCopper, hneg, hrest]
  omega

/-- A sale of something that is not in the buyback container pays at most its worth. -/
theorem wealth_shopSell_le (hv : NonnegValues im) (h : s.Sound im Q) {buybackLimit ccsid : Nat}
    {stale : InventorySlot}
    (hother : ∀ item ∈ (s.inv .character).getItemPtrByCCSID ccsid,
      (im.getPointerByID item.iid).isSome → containerOf ccsid ≠ some buybackContainer) :
    (s.shopSell im buybackLimit ccsid stale).2.wealth im ≤ s.wealth im := by
  rcases s.shopSell_cases im buybackLimit ccsid stale with heq | ⟨item, d, hitem, hd, heq⟩
  · rw [heq]
  · have hne := hother item hitem (by simp [hd])
    obtain ⟨c, i, hc, -, -⟩ := indexOf_getItemPtrByCCSID hitem
    rw [hc, ne_eq, Option.some.injEq] at hne
    have hworth := worth_nonneg hv ((h.entries .character).of_getItemPtrByCCSID hitem)
    have hprice : item.worth im = d.mValue * item.getStackCount im := by
      simp [worth, unitValue, hd]
    rw [heq, wealth_adjustCopper, wealth_setInv]
    have hgoods : (((s.inv .character).addBuyBack buybackLimit ccsid item stale).remItem
        ccsid).goods im = (s.inv .character).goods im - item.worth im := by
      have hfind : ((s.inv .character).addBuyBack buybackLimit ccsid item
          stale).getItemPtrByCCSID ccsid = some item := by
        rw [getItemPtrByCCSID_addBuyBack hc hne]
        exact hitem
      have hgone := weigh_remItem (counted im) hc hfind
      rw [counted_other hne] at hgone
      have hkept := @goods_addBuyBack im (s.inv .character) buybackLimit ccsid item stale
      unfold goods at hkept ⊢
      rw [hgone, hkept]
    rw [hgoods, ← hprice]
    have hincome := copper_adjustCopper_le (s := s.setInv .character
      (((s.inv .character).addBuyBack buybackLimit ccsid item stale).remItem ccsid))
      h.copper_nonneg hworth
    simp only [setInv_copper] at hincome ⊢
    omega

/-- A buyback at a price that fits its variable costs what the item is worth, whatever the
removal by a re-read CCSID then takes. -/
theorem wealth_shopBuyback_le (hv : NonnegValues im) (h : s.Sound im Q) {ccsid stale : Nat}
    (hfits : ∀ item ∈ (s.inv .character).getItemPtrByCCSID ccsid,
      ∀ d ∈ im.getPointerByID item.iid, ((s.inv .character).getFreeSlot invContainer).isSome →
        ¬s.copper < wrap32 (d.mValue * item.getStackCount im) →
          d.mValue * item.getStackCount im < 2 ^ 31) :
    (s.shopBuyback im now ccsid stale).2.wealth im ≤ s.wealth im := by
  rcases s.shopBuyback_cases im now ccsid stale with
    heq | ⟨item, n, d, hitem, hn, hd, hpaid, heq⟩
  · rw [heq]
  · have hsmall := hfits item hitem d hd (by simp [hn]) hpaid
    have hold := (h.entries .character).of_getItemPtrByCCSID hitem
    have hworth := worth_nonneg hv hold
    have hprice : item.worth im = d.mValue * item.getStackCount im := by
      simp [worth, unitValue, hd]
    rw [heq, wealth_adjustCopper, wealth_setInv]
    have hcopy : SoundEntry im Q { item with ccsid := getCCSID invContainer n } :=
      hold.congr rfl rfl
    have hnew : ((s.inv .character).addItem now invContainer
        { item with ccsid := getCCSID invContainer n }).Sound im Q :=
      (h.entries .character).addItem invContainer hcopy
    have hgoods := goods_remItem_le hv hnew (buybackRemoves ccsid stale)
    have hadded : ((s.inv .character).addItem now invContainer
        { item with ccsid := getCCSID invContainer n }).goods im =
          (s.inv .character).goods im + item.worth im := by
      have hcounted : counted im invContainer { item with ccsid := getCCSID invContainer n } =
          item.worth im :=
        (counted_other backpack_ne_buyback _).trans (worth_congr rfl rfl)
      unfold goods
      rw [weigh_addItem, hcounted]
    rw [← hprice] at hpaid hsmall ⊢
    have hcost := copper_adjustCopper_neg (s := s.setInv .character (((s.inv .character).addItem
      now invContainer { item with ccsid := getCCSID invContainer n }).remItem
        (buybackRemoves ccsid stale))) h.copper_nonneg h.copper_lt hworth hsmall hpaid
    simp only [setInv_copper] at hcost ⊢
    omega

/-- A split of a stack outside the buyback container keeps what both parts are worth. -/
theorem wealth_itemSplit_le {ccsid : Nat} {amount : Int}
    (hother : ∀ item ∈ (s.inv .character).getItemPtrByCCSID ccsid,
      ((s.inv .character).getFreeSlot invContainer).isSome → 1 ≤ amount →
        amount < item.getStackCount im → containerOf ccsid ≠ some buybackContainer) :
    (s.itemSplit im now ccsid amount).2.wealth im ≤ s.wealth im := by
  rcases s.itemSplit_cases im now ccsid amount with heq | ⟨item, n, hitem, hn, hlo, hhi, heq⟩
  · rw [heq]
  · have hne := hother item hitem (by simp [hn]) hlo hhi
    obtain ⟨c, i, hc, -, -⟩ := indexOf_getItemPtrByCCSID hitem
    rw [hc, ne_eq, Option.some.injEq] at hne
    have hst : stacking im item.iid = true := by
      by_contra hsingle
      rw [getStackCount_eq, if_neg hsingle] at hhi
      omega
    have hpart : counted im invContainer
        { item with ccsid := getCCSID invContainer n, count := amount - 1 } =
          unitValue im item.iid * amount := by
      rw [counted_other backpack_ne_buyback, worth, getStackCount_eq, if_pos hst]
      ring
    have hrest : counted im c { item with count := item.count - amount } =
        item.worth im + unitValue im item.iid * -amount := by
      rw [counted_other hne]
      apply worth_add hst
      · rfl
      · exact sub_eq_add_neg _ _
    rw [heq, wealth_setInv, goods_modifyCCSID hc (getItemPtrByCCSID_addItem hitem _ _)]
    unfold goods
    rw [weigh_addItem, hpart, hrest, counted_other hne, mul_neg]
    omega

/-- A deletion takes something away, and without a grinder pays nothing. -/
theorem wealth_itemDelete_le (hv : NonnegValues im) (h : s.Sound im Q)
    (hQ : ∀ iid, Q iid → ∀ d ∈ im.getPointerByID iid, d.mSpecialItemType ≠ .itemGrinder)
    {recoup : Int → Int → Int} {arg : Nat} {r : Response × CharacterState}
    (hr : s.itemDelete im recoup arg = some r) : r.2.wealth im ≤ s.wealth im := by
  rcases itemDelete_cases im hr with heq | heq | ⟨hgrinder, -⟩
  · rw [heq]
  · rw [heq, wealth_setInv]
    have hgoods := goods_remItem_le hv (h.entries .character) (arg % 2 ^ 32)
    have hcount : (countInventorySlots im ((s.inv .character).remItem (arg % 2 ^ 32))).goods im =
        ((s.inv .character).remItem (arg % 2 ^ 32)).goods im := rfl
    omega
  · obtain ⟨sl, hsl, d, hd, hspecial⟩ := exists_of_getBestSpecialItem im hgrinder
    exact absurd hspecial (hQ sl.iid (h.entries .character invContainer sl hsl).kind d hd)

/-! ### Runs -/

/-- No grinder is among the items of either inventory. -/
def NotGrinder (im : ItemManager) (iid : Int) : Prop :=
  ∀ d ∈ im.getPointerByID iid, d.mSpecialItemType ≠ .itemGrinder

def CarriesNoGrinder (im : ItemManager) (s : CharacterState) : Prop :=
  ∀ o c, ∀ e ∈ (s.inv o).containerList c, NotGrinder im e.iid

/-- The event is one of the five queries, and nothing leaves the buyback container unpaid:
sales and splits concern other containers, moves keep to `MovePays`, and the price of a
buyback fits its variable. -/
def PaysItsWay (cfg : ServerConfig) (s : CharacterState) : CharacterEvent → Prop
  | .sell ccsid _ =>
      ∀ item ∈ (s.inv .character).getItemPtrByCCSID ccsid,
        (cfg.items.getPointerByID item.iid).isSome → containerOf ccsid ≠ some buybackContainer
  | .buyback _ ccsid _ =>
      ∀ item ∈ (s.inv .character).getItemPtrByCCSID ccsid,
        ∀ d ∈ cfg.items.getPointerByID item.iid,
          ((s.inv .character).getFreeSlot invContainer).isSome →
            ¬s.copper < wrap32 (d.mValue * item.getStackCount cfg.items) →
              d.mValue * item.getStackCount cfg.items < 2 ^ 31
  | .move ctx args => ∀ r ∈ s.moveOf cfg.items ctx args, MovePays r.1 r.2
  | .split _ ccsid amount =>
      ∀ item ∈ (s.inv .character).getItemPtrByCCSID ccsid,
        ((s.inv .character).getFreeSlot invContainer).isSome → 1 ≤ amount →
          amount < item.getStackCount cfg.items → containerOf ccsid ≠ some buybackContainer
  | .delete _ => True
  | .addItem _ _ _ _ | .remItem _ | .removeItems _ _ _ _ => False

instance (cfg : ServerConfig) (s : CharacterState) : DecidablePred (s.PaysItsWay cfg)
  | .sell _ _ => inferInstanceAs (Decidable (∀ item ∈ _, _))
  | .buyback _ _ _ => inferInstanceAs (Decidable (∀ item ∈ _, _))
  | .move _ _ => inferInstanceAs (Decidable (∀ r ∈ _, _))
  | .split _ _ _ => inferInstanceAs (Decidable (∀ item ∈ _, _))
  | .delete _ => inferInstanceAs (Decidable True)
  | .addItem _ _ _ _ | .remItem _ | .removeItems _ _ _ _ => inferInstanceAs (Decidable False)

/-- One query that pays its way never adds to the wealth. -/
theorem wealth_step_le {cfg : ServerConfig} {s s' : CharacterState} {e : CharacterEvent}
    (hv : NonnegValues cfg.items) (h : s.Sound cfg.items (NotGrinder cfg.items))
    (hok : s.PaysItsWay cfg e) (hs : s.step cfg e = some s') :
    s'.wealth cfg.items ≤ s.wealth cfg.items := by
  cases e with
  | sell ccsid stale =>
      cases hs
      exact wealth_shopSell_le hv h hok
  | buyback now ccsid stale =>
      cases hs
      exact wealth_shopBuyback_le hv h hok
  | move ctx args =>
      cases hs
      rw [itemMoveQuery_snd]
      cases hm : s.moveOf cfg.items ctx args with
      | none => exact le_refl _
      | some r =>
          obtain ⟨m, eff⟩ := r
          obtain ⟨-, -, heff⟩ := moveOf_some cfg.items hm
          obtain ⟨i, source, hc, ho⟩ := itemMoveEffect_ok cfg.items heff
          rw [wealth_recount]
          exact wealth_applyEffect_le hv h hc ho (hok (m, eff) hm)
  | split now ccsid amount =>
      cases hs
      exact wealth_itemSplit_le hok
  | delete arg =>
      obtain ⟨r, hr, rfl⟩ := Option.map_eq_some_iff.mp hs
      exact wealth_itemDelete_le hv h (fun _ hQ => hQ) hr
  | addItem | remItem | removeItems => exact hok.elim

/-- A query that pays its way keeps the entries sound: what it reads through a moved
pointer, it reads only when it sells out of the buyback container. -/
theorem Sound.step_paid {cfg : ServerConfig} {s s' : CharacterState} {e : CharacterEvent}
    (h : s.Sound cfg.items Q) (hok : s.PaysItsWay cfg e) (hs : s.step cfg e = some s') :
    s'.Sound cfg.items Q := by
  cases e with
  | sell ccsid stale =>
      by_cases hc : containerOf ccsid = some buybackContainer
      · cases hs
        rcases s.shopSell_cases cfg.items cfg.buybackLimit ccsid stale with
          heq | ⟨item, d, hitem, hd, -⟩
        · rwa [heq]
        · exact absurd hc (hok item hitem (by simp [hd]))
      · have hlegit : s.Legit cfg Q (.sell ccsid stale) := fun hbuyback => absurd hbuyback hc
        exact h.step hlegit hs
  | buyback now ccsid stale => exact h.step (e := .buyback now ccsid stale) trivial hs
  | move ctx args => exact h.step (e := .move ctx args) trivial hs
  | split now ccsid amount => exact h.step (e := .split now ccsid amount) trivial hs
  | delete arg => exact h.step (e := .delete arg) trivial hs
  | addItem | remItem | removeItems => exact hok.elim

/-- From every reachable state without a grinder, in every run of the five queries that pay
their way, the wealth never rises above that of an earlier state. -/
theorem run_wealth_antitone {cfg : ServerConfig} {localCharacterVault : Bool}
    (hv : NonnegValues cfg.items) {s₀ : CharacterState}
    (h₀ : Reach (· = fresh cfg localCharacterVault) (Legit cfg fun _ => True) (step cfg) s₀)
    (hgrinder : s₀.CarriesNoGrinder cfg.items) {h : List (CharacterState × CharacterEvent)}
    {s : CharacterState} (run : Trace (· = s₀) (PaysItsWay cfg) (step cfg) h s) :
    ∀ e ∈ h, s.wealth cfg.items ≤ e.1.wealth cfg.items := by
  have hsound : s.Sound cfg.items (NotGrinder cfg.items) ∧
      ∀ e ∈ h, s.wealth cfg.items ≤ e.1.wealth cfg.items := by
    induction run with
    | start hs =>
        subst hs
        have hreach := Reach.sound h₀
        refine ⟨⟨fun o c e he => ⟨(hreach.entries o c e he).stack, hgrinder o c e he⟩,
          hreach.copper_nonneg, hreach.copper_lt⟩, ?_⟩
        exact fun e he => absurd he List.not_mem_nil
    | next _ hok hs ih =>
        have hle := wealth_step_le hv ih.1 hok hs
        refine ⟨ih.1.step_paid hok hs, fun e he => ?_⟩
        rcases List.mem_cons.mp he with rfl | he
        · exact hle
        · exact hle.trans (ih.2 e he)
  exact hsound.2

/-- The five queries, with any arguments. -/
def IsQuery : CharacterEvent → Prop
  | .sell _ _ | .buyback _ _ _ | .move _ _ | .split _ _ _ | .delete _ => True
  | .addItem _ _ _ _ | .remItem _ | .removeItems _ _ _ _ => False

instance : DecidablePred IsQuery
  | .sell _ _ | .buyback _ _ _ | .move _ _ | .split _ _ _ | .delete _ =>
      inferInstanceAs (Decidable True)
  | .addItem _ _ _ _ | .remItem _ | .removeItems _ _ _ _ => inferInstanceAs (Decidable False)

/-! A gem is sold and bought back, or sold a second time out of the buyback list. -/

def gemConfig : ServerConfig where
  items := .ofList [{ mID := 100, mValue := 10 }]

theorem gem_values : NonnegValues gemConfig.items := by
  intro id d hd
  have hmem := List.mem_of_find?_eq_some (Option.mem_def.mp hd)
  rw [List.mem_singleton.mp hmem]
  decide

def gemFound : CharacterState :=
  ((fresh gemConfig false).step gemConfig (.addItem 0 invContainer 100 1)).getD {}

theorem gemFound_reach :
    Reach (· = fresh gemConfig false) (Legit gemConfig fun _ => True) (step gemConfig)
      gemFound := by
  have hstep : (fresh gemConfig false).step gemConfig (.addItem 0 invContainer 100 1) =
      some gemFound := eq_some_getD (by decide) _
  have hlegit : (fresh gemConfig false).Legit gemConfig (fun _ => True)
      (.addItem 0 invContainer 100 1) := ⟨by decide, trivial⟩
  refine Reach.next ?_ hlegit hstep
  exact Reach.start rfl

theorem gemFound_grinder : gemFound.CarriesNoGrinder gemConfig.items := by
  unfold CarriesNoGrinder NotGrinder
  decide

def sellGem (ccsid : Nat) : CharacterEvent := .sell ccsid {}

def buybackCCSID : Nat := getCCSID buybackContainer 0

def gemSold : CharacterState := (gemFound.step gemConfig (sellGem 0)).getD {}

def gemTraded (e : CharacterEvent) : CharacterState := (gemSold.step gemConfig e).getD {}

theorem run_wealth_antitone_gem :
    (gemTraded (.buyback 0 buybackCCSID 0)).wealth gemConfig.items ≤
      gemFound.wealth gemConfig.items := by
  have hsold : gemFound.step gemConfig (sellGem 0) = some gemSold :=
    eq_some_getD (by decide) _
  have hback : gemSold.step gemConfig (.buyback 0 buybackCCSID 0) =
      some (gemTraded (.buyback 0 buybackCCSID 0)) := eq_some_getD (by decide) _
  have start : Trace (· = gemFound) (PaysItsWay gemConfig) (step gemConfig) [] gemFound :=
    .start rfl
  have run := (start.next (by decide) hsold).next (by decide) hback
  exact run_wealth_antitone gem_values gemFound_reach gemFound_grinder run
    (gemFound, sellGem 0) (List.mem_cons_of_mem _ List.mem_cons_self)

/-- The shop pays for an item that it has already bought. -/
theorem sold_item_is_sold_again :
    ∃ s₀ h s, NonnegValues gemConfig.items ∧
      Reach (· = fresh gemConfig false) (Legit gemConfig fun _ => True) (step gemConfig) s₀ ∧
      s₀.CarriesNoGrinder gemConfig.items ∧
      Trace (· = s₀) (fun _ e => IsQuery e) (step gemConfig) h s ∧
      ∃ e ∈ h, e.1.wealth gemConfig.items < s.wealth gemConfig.items := by
  have hsold : gemFound.step gemConfig (sellGem 0) = some gemSold :=
    eq_some_getD (by decide) _
  have hagain : gemSold.step gemConfig (sellGem buybackCCSID) =
      some (gemTraded (sellGem buybackCCSID)) := eq_some_getD (by decide) _
  have start : Trace (· = gemFound) (fun _ e => IsQuery e) (step gemConfig) [] gemFound :=
    .start rfl
  have run := (start.next (by decide) hsold).next (by decide) hagain
  exact ⟨gemFound, _, gemTraded (sellGem buybackCCSID), gem_values, gemFound_reach,
    gemFound_grinder, run, (gemFound, sellGem 0), List.mem_cons_of_mem _ List.mem_cons_self,
    by decide⟩

end CharacterState

end Iceee
