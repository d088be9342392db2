import Iceee.Inventory.Admission

/-!
# Two-handed weapons and the off hand

`ItemMove` refuses a move that would put a two-handed weapon beside something in the off
hand. Its guards look at the first weapon in the main hand, and at the off hand of the
inventory the item comes from. So the invariant also says that the main hand holds at most
one item, and the runs considered leave out the two ways round the guards: a destination
slot that only sixteen bits turn into a hand, and a two-handed weapon that comes out of the
delivery box while the character's off hand is in use.
-/

namespace Iceee

open Lib InventoryManager

/-! ### The hands in a list of equipment -/

namespace InventorySlot

/-- What the rule on hands reads of an entry. -/
def hand (e : InventorySlot) : Nat × Int := (e.getSlot, e.iid)

end InventorySlot

/-- The number of items in the main hand. -/
def mainHandCount (l : List InventorySlot) : Nat :=
  l.countP fun e => (e.getSlot : Int) == ItemEquipSlot.weaponMainHand

/-- No two-handed weapon in the main hand together with an item in the off hand. -/
def HandsExclusive (im : ItemManager) (l : List InventorySlot) : Prop :=
  ∀ a ∈ l, ∀ b ∈ l, (a.getSlot : Int) = ItemEquipSlot.weaponMainHand →
    (b.getSlot : Int) = ItemEquipSlot.weaponOffHand → isTwoHanded im a = false

instance (im : ItemManager) (l : List InventorySlot) : Decidable (HandsExclusive im l) :=
  inferInstanceAs (Decidable (∀ a ∈ l, ∀ b ∈ l, _))

/-- The invariant of the equipment. -/
structure HandsSafe (im : ItemManager) (l : List InventorySlot) : Prop where
  single : mainHandCount l ≤ 1
  exclusive : HandsExclusive im l

variable {im : ItemManager} {l l' : List InventorySlot}

/-- Losing entries, or changing what the rule does not read, keeps the invariant. -/
theorem HandsSafe.sublist (h : HandsSafe im l)
    (hs : (l'.map InventorySlot.hand).Sublist (l.map InventorySlot.hand)) :
    HandsSafe im l' := by
  have hcount (l : List InventorySlot) : mainHandCount l =
      (l.map InventorySlot.hand).countP fun k => (k.1 : Int) == ItemEquipSlot.weaponMainHand := by
    simp [mainHandCount, InventorySlot.hand, List.countP_map, Function.comp_def]
  constructor
  · rw [hcount]
    exact (hs.countP_le).trans (hcount l ▸ h.single)
  · intro a ha b hb hmain hoff
    obtain ⟨a', ha', haa⟩ := List.mem_map.mp (hs.subset (List.mem_map_of_mem ha))
    obtain ⟨b', hb', hbb⟩ := List.mem_map.mp (hs.subset (List.mem_map_of_mem hb))
    simp only [InventorySlot.hand, Prod.mk.injEq] at haa hbb
    have hold := h.exclusive a' ha' b' hb' (by rw [haa.1, hmain]) (by rw [hbb.1, hoff])
    unfold isTwoHanded at hold ⊢
    rwa [← haa.2]

/-- When the main hand holds at most one item, the first one found is every one. -/
theorem HandsSafe.wieldsTwoHanded (h : HandsSafe im l) {s : CharacterState} {o : Owner}
    (hl : s.slotsAt (o, eqContainer) = l) (hw : s.wieldsTwoHanded im o = false)
    {a : InventorySlot} (ha : a ∈ l) (hmain : (a.getSlot : Int) = ItemEquipSlot.weaponMainHand) :
    isTwoHanded im a = false := by
  unfold CharacterState.wieldsTwoHanded CharacterState.findAt at hw
  cases hfind : (s.inv o).findBySlot eqContainer ItemEquipSlot.weaponMainHand with
  | none =>
      subst hl
      exact absurd hmain (findBySlot_none.mp hfind a ha)
  | some e =>
      obtain ⟨i, first⟩ := e
      obtain ⟨hfirst, hslot⟩ := findBySlot_some hfind
      have hmem : first ∈ l := hl ▸ List.mem_of_getElem? hfirst
      obtain rfl : a = first :=
        eq_of_countP_le_one h.single ha hmem (by simpa using hmain) (by simpa using hslot)
      simpa [hfind] using hw

theorem isTwoHanded_congr {a b : InventorySlot} (h : a.iid = b.iid) :
    isTwoHanded im a = isTwoHanded im b := by
  unfold isTwoHanded
  rw [h]

/-- An item in the off hand is one the guards see. -/
theorem CharacterState.hasEquipped_of_mem {s : CharacterState} {o : Owner} {b : InventorySlot}
    (hb : b ∈ s.slotsAt (o, eqContainer)) {slot : Int} (hslot : (b.getSlot : Int) = slot)
    (hempty : s.hasEquipped o slot = false) : False := by
  unfold hasEquipped findAt at hempty
  rw [Option.isSome_eq_false_iff, Option.isNone_iff_eq_none] at hempty
  exact findBySlot_none.mp hempty b hb hslot

/-! ### Moves -/

namespace CharacterState

variable {s : CharacterState} {stats : MoveStats} {m : MoveRequest} {i : Nat}
  {source : InventorySlot} {eff : MoveEffect}

/-- Where the character's equipment lies. -/
def equipPlace : Place := (.character, eqContainer)

/-- What the four guards leave. -/
theorem twoHandRefusal_none {found : Option (Nat × InventorySlot)}
    (h : s.twoHandRefusal im m source found = none) :
    (m.dest.2 = eqContainer → m.destSlot = ItemEquipSlot.weaponMainHand →
      isTwoHanded im source → s.hasEquipped m.orig.1 ItemEquipSlot.weaponOffHand = false) ∧
    (m.dest.2 = eqContainer → m.destSlot = ItemEquipSlot.weaponOffHand →
      s.wieldsTwoHanded im m.dest.1 = false) ∧
    (m.orig.2 = eqContainer → m.origSlot = ItemEquipSlot.weaponMainHand →
      (∀ e ∈ found, isTwoHanded im e.2 →
        s.hasEquipped m.orig.1 ItemEquipSlot.weaponOffHand = false)) := by
  unfold twoHandRefusal at h
  split_ifs at h with h1 h2 h3 h4
  refine ⟨fun hd hs ht => ?_, fun hd hs => ?_, fun ho hs e he ht => ?_⟩
  · by_contra hoff
    exact h1 ⟨hd, hs, ht, by simpa using hoff⟩
  · by_contra hw
    exact h2 ⟨hd, hs, by simpa using hw⟩
  · by_contra hoff
    exact h3 ⟨ho, hs, by simp [Option.mem_def.mp he, ht], by simpa using hoff⟩

/-- A move to the equipment names a hand by its own number, and a two-handed weapon from
the delivery box finds the off hand empty. -/
def HandsGuarded (im : ItemManager) (s : CharacterState) (m : MoveRequest) : Prop :=
  m.dest.2 = eqContainer →
    (m.destSlot.toNat % 65536 < 2 → m.destSlot < 65536) ∧
    (m.orig.2 = deliveryContainer → m.destSlot = ItemEquipSlot.weaponMainHand →
      (s.findAt m.orig m.origSlot).any (fun e => isTwoHanded im e.2) →
        s.hasEquipped .character ItemEquipSlot.weaponOffHand = false)

instance (im : ItemManager) (s : CharacterState) : DecidablePred (s.HandsGuarded im) :=
  fun _ => inferInstanceAs (Decidable (_ → _))

theorem mainHandCount_modifyAt {p q : Place} {j : Nat} {f : InventorySlot → InventorySlot}
    (hf : ∀ e, (f e).ccsid = e.ccsid) :
    mainHandCount ((s.modifyAt p j f).slotsAt q) = mainHandCount (s.slotsAt q) := by
  have hcount (l : List InventorySlot) : mainHandCount l =
      (l.map InventorySlot.ccsid).countP
        fun k => ((k % 65536 : Nat) : Int) == ItemEquipSlot.weaponMainHand := by
    simp [mainHandCount, InventorySlot.getSlot, List.countP_map, Function.comp_def]
  rw [modifyAt, slotsAt_setSlots]
  by_cases hq : q = p
  · subst hq
    rw [Function.update_self, hcount, hcount, map_key_modify hf]
  · rw [Function.update_of_ne hq]

theorem mainHandCount_eraseAt (p q : Place) (j : Nat) :
    mainHandCount ((s.eraseAt p j).slotsAt q) ≤ mainHandCount (s.slotsAt q) := by
  rw [eraseAt, slotsAt_setSlots]
  by_cases hq : q = p
  · subst hq
    rw [Function.update_self]
    exact (List.eraseIdx_sublist _ j).countP_le
  · rw [Function.update_of_ne hq]

/-- An empty main hand, as the lookup of the destination found it. -/
theorem mainHandCount_free {p : Place}
    (hfree : s.findAt p ItemEquipSlot.weaponMainHand = none) :
    mainHandCount (s.slotsAt p) = 0 := by
  unfold mainHandCount
  rw [List.countP_eq_zero]
  intro e he hmain
  exact findBySlot_none.mp hfree e he (by simpa using hmain)

/-- The number a moved item gets is the main hand only if the client named it. -/
theorem destSlot_eq_hand {k : Nat} (hk : k < 2) (h0 : 0 ≤ m.destSlot)
    (hcut : m.destSlot.toNat % 65536 < 2 → m.destSlot < 65536)
    (hslot : m.destSlot.toNat % 65536 = k) : m.destSlot = k := by
  have hlt := hcut (hslot ▸ hk)
  omega

/-- A move puts at most one item into the main hand. -/
theorem mainHandCount_applyEffect (hsafe : mainHandCount (s.slotsAt equipPlace) ≤ 1)
    (h0 : 0 ≤ m.destSlot) (hg : s.HandsGuarded im m)
    (ho : MoveOutcome im s stats m i source eff) :
    mainHandCount ((s.applyEffect m eff).slotsAt equipPlace) ≤ 1 := by
  have hother (e : InventorySlot) (he : e.ccsid = m.destCCSID)
      (hmain : m.destSlot.toNat % 65536 ≠ 0) :
      ((e.getSlot : Int) == ItemEquipSlot.weaponMainHand) = false := by
    have hslot : e.getSlot = m.destSlot.toNat % 65536 := by
      unfold InventorySlot.getSlot MoveRequest.destCCSID getCCSID at *
      omega
    rw [hslot, beq_eq_false_iff_ne]
    unfold ItemEquipSlot.weaponMainHand
    omega
  cases ho with
  | relocate free same =>
      simp only [applyEffect]
      rw [modifyAt, slotsAt_setSlots]
      by_cases hq : equipPlace = m.orig
      · rw [hq, Function.update_self]
        by_cases hmain : m.destSlot.toNat % 65536 = 0
        · have hdest : m.dest.2 = eqContainer := by rw [same, ← hq]; rfl
          have hslot := destSlot_eq_hand (k := 0) (by norm_num) h0 (hg hdest).1 hmain
          have hnone := mainHandCount_free (s := s) (p := m.dest) (by
            rw [← free, hslot]
            rfl)
          rw [same] at hnone
          have hle := countP_modify_le
            (fun e => (e.getSlot : Int) == ItemEquipSlot.weaponMainHand) (s.slotsAt m.orig) i
            fun e => { e with ccsid := m.destCCSID }
          unfold mainHandCount at hnone ⊢
          omega
        · refine (countP_modify_of_not _ i fun e => ?_).trans (hq ▸ hsafe)
          exact hother _ rfl hmain
      · rw [Function.update_of_ne hq]
        exact hsafe
  | transfer free other =>
      simp only [applyEffect]
      refine (mainHandCount_eraseAt _ _ i).trans ?_
      rw [append, slotsAt_setSlots]
      by_cases hq : equipPlace = m.dest
      · rw [hq, Function.update_self, mainHandCount, List.countP_append]
        by_cases hmain : m.destSlot.toNat % 65536 = 0
        · have hdest : m.dest.2 = eqContainer := by rw [← hq]; rfl
          have hslot := destSlot_eq_hand (k := 0) (by norm_num) h0 (hg hdest).1 hmain
          have hnone := mainHandCount_free (s := s) (p := m.dest) (by
            rw [← free, hslot]
            rfl)
          unfold mainHandCount at hnone
          rw [hnone, zero_add]
          exact List.countP_le_length
        · have hnot : (([{ source with ccsid := m.destCCSID }] : List InventorySlot).countP
              fun e => (e.getSlot : Int) == ItemEquipSlot.weaponMainHand) = 0 := by
            rw [List.countP_eq_zero]
            intro e he
            rw [List.mem_singleton.mp he, hother _ rfl hmain]
            exact Bool.false_ne_true
          rw [hnot]
          exact hq ▸ hsafe
      · rw [Function.update_of_ne hq]
        exact hsafe
  | merge dest_found same stackable fits =>
      simp only [applyEffect]
      refine (mainHandCount_eraseAt _ _ i).trans ?_
      rw [mainHandCount_modifyAt]
      · exact hsafe
      · exact fun _ => rfl
  | mergePart dest_found same stackable exceeds =>
      simp only [applyEffect]
      rw [mainHandCount_modifyAt, mainHandCount_modifyAt]
      · exact hsafe
      · exact fun _ => rfl
      · exact fun _ => rfl
  | swap dest_found allowed =>
      simp only [applyEffect]
      rw [mainHandCount_modifyAt, mainHandCount_modifyAt]
      · exact hsafe
      · exact fun _ => rfl
      · exact fun _ => rfl

/-- An item that stays in the main hand, beside an item that arrives in the off hand. -/
theorem handsExclusive_stayed (hsafe : HandsSafe im (s.slotsAt equipPlace))
    (h0 : 0 ≤ m.destSlot) (hg : s.HandsGuarded im m) (hc : MoveChecked im s m i source)
    {a b : InventorySlot} (ha : a ∈ s.slotsAt equipPlace)
    (hmain : (a.getSlot : Int) = ItemEquipSlot.weaponMainHand)
    (hb : Arrival s m eff source equipPlace b)
    (hoff : (b.getSlot : Int) = ItemEquipSlot.weaponOffHand) : isTwoHanded im a = false := by
  obtain ⟨hsource, horig⟩ := findBySlot_some hc.source_found
  cases hb with
  | stayed old mem same =>
      rw [same] at hoff
      exact hsafe.exclusive a ha old mem hmain hoff
  | moved place same slot =>
      have hdest : m.dest.2 = eqContainer := by rw [← place]; rfl
      have hcut : m.destSlot.toNat % 65536 = 1 := by
        rw [← slot]
        unfold ItemEquipSlot.weaponOffHand at hoff
        exact_mod_cast hoff
      have hslot := destSlot_eq_hand (k := 1) (by norm_num) h0 (hg hdest).1 hcut
      have hfirst := (twoHandRefusal_none hc.hands).2.1 hdest hslot
      rw [← place] at hfirst
      exact hsafe.wieldsTwoHanded rfl hfirst ha hmain
  | displaced i' j dest swaps place same slot =>
      have hmem : source ∈ s.slotsAt equipPlace := place ▸ List.mem_of_getElem? hsource
      exact hsafe.exclusive a ha source hmem hmain (by rw [horig, ← slot, hoff])

/-- A two-handed weapon that is moved to the main hand finds the off hand empty. -/
theorem handsExclusive_moved (horigOwner : m.orig.1 = ownerOf m.orig.2)
    (h0 : 0 ≤ m.destSlot) (hg : s.HandsGuarded im m) (hc : MoveChecked im s m i source)
    (hplace : equipPlace = m.dest) (hcut : m.destSlot.toNat % 65536 = 0) {b : InventorySlot}
    (hb : Arrival s m eff source equipPlace b)
    (hoff : (b.getSlot : Int) = ItemEquipSlot.weaponOffHand) :
    isTwoHanded im source = false := by
  obtain ⟨hsource, horig⟩ := findBySlot_some hc.source_found
  have hdest : m.dest.2 = eqContainer := by rw [← hplace]; rfl
  have hslot := destSlot_eq_hand (k := 0) (by norm_num) h0 (hg hdest).1 hcut
  by_contra htwo
  rw [Bool.not_eq_false] at htwo
  have hempty := (twoHandRefusal_none hc.hands).1 hdest hslot htwo
  cases hb with
  | stayed old mem same =>
      rw [same] at hoff
      by_cases hdelivery : m.orig.2 = deliveryContainer
      · have hfound : (s.findAt m.orig m.origSlot).any (fun e => isTwoHanded im e.2) := by
          rw [hc.source_found]
          exact htwo
        exact hasEquipped_of_mem mem hoff ((hg hdest).2 hdelivery hslot hfound)
      · have howner : m.orig.1 = .character := by rw [horigOwner, ownerOf, if_neg hdelivery]
        rw [howner] at hempty
        exact hasEquipped_of_mem mem hoff hempty
  | moved place same slot =>
      rw [slot, hcut] at hoff
      exact absurd hoff (by decide)
  | displaced i' j dest swaps place same slot =>
      have hmem : source ∈ s.slotsAt (m.orig.1, eqContainer) := by
        have heq : (m.orig.1, eqContainer) = m.orig := by rw [← place]; rfl
        rw [heq]
        exact List.mem_of_getElem? hsource
      exact hasEquipped_of_mem hmem (by rw [horig, ← slot, hoff]) hempty

/-- A two-handed weapon that a swap puts into the main hand finds the off hand empty. -/
theorem handsExclusive_displaced (hc : MoveChecked im s m i source) {j : Nat}
    {dest : InventorySlot} (hfound : s.findAt m.dest m.destSlot = some (j, dest))
    (hplace : equipPlace = m.orig) (hslot : m.origSlot = ItemEquipSlot.weaponMainHand)
    (h0 : 0 ≤ m.destSlot) (hg : s.HandsGuarded im m) {b : InventorySlot}
    (hb : Arrival s m eff source equipPlace b)
    (hoff : (b.getSlot : Int) = ItemEquipSlot.weaponOffHand) : isTwoHanded im dest = false := by
  obtain ⟨hdest, hdestSlot⟩ := findBySlot_some hfound
  have horig : m.orig.2 = eqContainer := by rw [← hplace]; rfl
  by_contra htwo
  rw [Bool.not_eq_false] at htwo
  have hempty := (twoHandRefusal_none hc.hands).2.2 horig hslot (j, dest) hfound htwo
  rw [← hplace] at hempty
  cases hb with
  | stayed old mem same =>
      rw [same] at hoff
      exact hasEquipped_of_mem mem hoff hempty
  | moved place same slot =>
      have hcut : m.destSlot.toNat % 65536 = 1 := by
        rw [← slot]
        unfold ItemEquipSlot.weaponOffHand at hoff
        exact_mod_cast hoff
      have heq : m.dest.2 = eqContainer := by rw [← place]; rfl
      have hhand := destSlot_eq_hand (k := 1) (by norm_num) h0 (hg heq).1 hcut
      have hmem : dest ∈ s.slotsAt equipPlace := place ▸ List.mem_of_getElem? hdest
      exact hasEquipped_of_mem hmem (hdestSlot.trans hhand) hempty
  | displaced i' j' dest' swaps place same slot =>
      rw [slot, hslot] at hoff
      exact absurd hoff (by decide)

/-- A move keeps the invariant of the equipment. -/
theorem handsSafe_applyEffect (hsafe : HandsSafe im (s.slotsAt equipPlace))
    (horigOwner : m.orig.1 = ownerOf m.orig.2) (h0 : 0 ≤ m.destSlot)
    (hg : s.HandsGuarded im m) (hc : MoveChecked im s m i source)
    (ho : MoveOutcome im s stats m i source eff) :
    HandsSafe im ((s.applyEffect m eff).slotsAt equipPlace) := by
  refine ⟨mainHandCount_applyEffect hsafe.single h0 hg ho, ?_⟩
  intro a ha b hb hmain hoff
  have hb := mem_applyEffect hc ho hb
  cases mem_applyEffect hc ho ha with
  | stayed old mem same =>
      rw [same] at hmain
      rw [isTwoHanded_congr (b := old) (by rw [same])]
      exact handsExclusive_stayed hsafe h0 hg hc mem hmain hb hoff
  | moved place same slot =>
      have hcut : m.destSlot.toNat % 65536 = 0 := by
        rw [← slot]
        unfold ItemEquipSlot.weaponMainHand at hmain
        exact_mod_cast hmain
      rw [isTwoHanded_congr (b := source) (by rw [same])]
      exact handsExclusive_moved horigOwner h0 hg hc place hcut hb hoff
  | displaced i' j dest swaps place same slot =>
      rw [isTwoHanded_congr (b := dest) (by rw [same])]
      subst swaps
      cases ho with
      | swap dest_found allowed =>
          exact handsExclusive_displaced hc dest_found place (slot.symm.trans hmain) h0 hg hb
            hoff

end CharacterState

/-! ### Everything else -/

namespace InventoryManager

variable {now : Nat}

/-- An operation that puts nothing into the equipment: entries may go or change their
counts, and the equipment still has no numbers to give out. -/
structure KeepsHands (inv inv' : InventoryManager) : Prop where
  hands : ((inv'.containerList eqContainer).map InventorySlot.hand).Sublist
    ((inv.containerList eqContainer).map InventorySlot.hand)
  capacity : inv'.maxContainerSlot eqContainer = inv.maxContainerSlot eqContainer

theorem KeepsHands.refl (inv : InventoryManager) : KeepsHands inv inv := ⟨.refl _, rfl⟩

theorem KeepsHands.trans {inv₁ inv₂ inv₃ : InventoryManager} (h : KeepsHands inv₁ inv₂)
    (h' : KeepsHands inv₂ inv₃) : KeepsHands inv₁ inv₃ :=
  ⟨h'.hands.trans h.hands, h'.capacity.trans h.capacity⟩

/-- Writing one container keeps the hands when it does so in the equipment's own list. -/
theorem keepsHands_setContainer (inv : InventoryManager) {c : ContainerID}
    {l : List InventorySlot}
    (h : c = eqContainer → (l.map InventorySlot.hand).Sublist
      ((inv.containerList eqContainer).map InventorySlot.hand)) :
    KeepsHands inv (inv.setContainer c l) := by
  refine ⟨?_, rfl⟩
  by_cases hc : c = eqContainer
  · subst hc
    rw [setContainer_self]
    exact h rfl
  · rw [setContainer_other _ _ (Ne.symm hc)]

theorem keepsHands_remItem (inv : InventoryManager) (ccsid : Nat) :
    KeepsHands inv (inv.remItem ccsid) := by
  unfold remItem
  cases containerOf ccsid with
  | none => exact .refl inv
  | some c =>
      refine keepsHands_setContainer inv ?_
      rintro rfl
      exact List.eraseP_sublist.map _

theorem keepsHands_modifySlot (inv : InventoryManager) (c : ContainerID) (i : Nat)
    {f : InventorySlot → InventorySlot} (hf : ∀ e, (f e).hand = e.hand) :
    KeepsHands inv (inv.modifySlot c i f) := by
  refine keepsHands_setContainer inv ?_
  rintro rfl
  rw [map_key_modify hf]

theorem keepsHands_modifyCCSID (inv : InventoryManager) (ccsid : Nat)
    {f : InventorySlot → InventorySlot} (hf : ∀ e, (f e).hand = e.hand) :
    KeepsHands inv (inv.modifyCCSID ccsid f) := by
  unfold modifyCCSID
  cases containerOf ccsid with
  | none => exact .refl inv
  | some c =>
      simp only
      cases indexOfCCSID (inv.containerList c) ccsid with
      | none => exact .refl inv
      | some i => exact keepsHands_modifySlot inv c i hf

theorem backpack_ne_equipment : invContainer ≠ eqContainer := by decide

theorem keepsHands_addItem (inv : InventoryManager) {c : ContainerID} (hc : c ≠ eqContainer)
    (item : InventorySlot) : KeepsHands inv (inv.addItem now c item) := by
  constructor
  · rw [containerList_addItem, Function.update_of_ne hc.symm]
  · unfold addItem
    simp only [setContainer_maxContainerSlot]
    split
    · split <;> rfl
    · rfl

/-- The equipment has no free slot that `AddItem_Ex` could fill. -/
theorem keepsHands_addItemEx {inv : InventoryManager}
    (hfull : inv.maxContainerSlot eqContainer = 0) (c : ContainerID) (itemID count : Int) :
    KeepsHands inv (inv.addItemEx im now c itemID count).2 := by
  cases hadd : inv.addItemEx im now c itemID count with
  | mk i inv' =>
      cases i with
      | none =>
          obtain ⟨e, rfl⟩ := addItemEx_none hadd
          exact ⟨.refl _, rfl⟩
      | some i =>
          obtain ⟨d, hd, ⟨s, -, -, -, rfl⟩ | ⟨-, n, hn, -, rfl⟩⟩ := addItemEx_cases hadd
          · exact keepsHands_modifySlot inv c i fun _ => rfl
          · refine keepsHands_addItem inv ?_ _
            rintro rfl
            simp [getFreeSlot, hfull] at hn

theorem keepsHands_addBuyBack (inv : InventoryManager) (buybackLimit ccsid : Nat)
    (item stale : InventorySlot) :
    KeepsHands inv (inv.addBuyBack buybackLimit ccsid item stale) := by
  refine ⟨?_, rfl⟩
  rw [containerList_addBuyBack, setContainer_other _ _ (by decide)]

theorem keepsHands_processIqResults (inv : InventoryManager) (c : ContainerID)
    (iq : List InventoryQuery) : KeepsHands inv (inv.processIqResults c iq) := by
  have hshrunk (l : List InventoryQuery) : ∀ inv : InventoryManager,
      KeepsHands inv (l.foldl (fun inv q => inv.modifySlot c q.index
        fun s => { s with count := s.count - q.count }) inv) := by
    induction l with
    | nil => exact .refl
    | cons q rest ih =>
        intro inv
        refine KeepsHands.trans ?_ (ih _)
        exact keepsHands_modifySlot inv c q.index fun _ => rfl
  have hgone (l : List InventoryQuery) : ∀ inv : InventoryManager,
      KeepsHands inv (l.foldl (fun inv q => inv.remItem q.ccsid) inv) := by
    induction l with
    | nil => exact .refl
    | cons q rest ih => exact fun inv => (keepsHands_remItem inv q.ccsid).trans (ih _)
  exact (hshrunk _ inv).trans (hgone _ _)

theorem keepsHands_countInventorySlots (inv : InventoryManager) :
    KeepsHands inv (inv.countInventorySlots im) := by
  refine ⟨.refl _, ?_⟩
  simp only [countInventorySlots]
  rw [Function.update_of_ne backpack_ne_equipment.symm]

end InventoryManager

namespace CharacterState

/-- The invariant of a character: safe equipment that gives out no numbers. -/
structure HandsInv (im : ItemManager) (s : CharacterState) : Prop where
  safe : HandsSafe im (s.slotsAt equipPlace)
  capacity : (s.inv .character).maxContainerSlot eqContainer = 0

variable {s s' : CharacterState}

theorem HandsInv.of_keepsHands (h : s.HandsInv im)
    (hk : KeepsHands (s.inv .character) (s'.inv .character)) : s'.HandsInv im :=
  ⟨h.safe.sublist hk.hands, hk.capacity.trans h.capacity⟩

theorem HandsInv.adjustCopper (h : s.HandsInv im) (coinChange : Int) :
    (s.adjustCopper coinChange).HandsInv im := ⟨h.safe, h.capacity⟩

theorem HandsInv.setInv (h : s.HandsInv im) {inv : InventoryManager}
    (hk : KeepsHands (s.inv .character) inv) : (s.setInv .character inv).HandsInv im := by
  refine h.of_keepsHands ?_
  simpa [CharacterState.setInv] using hk

/-- Moves change no container's capacity but the backpack's. -/
theorem maxContainerSlot_applyEffect (s : CharacterState) (m : MoveRequest) (eff : MoveEffect)
    (o : Owner) : ((s.applyEffect m eff).inv o).maxContainerSlot = (s.inv o).maxContainerSlot := by
  have hset (s : CharacterState) (p : Place) (l : List InventorySlot) :
      ((s.setSlots p l).inv o).maxContainerSlot = (s.inv o).maxContainerSlot := by
    by_cases ho : o = p.1
    · subst ho
      simp [setSlots, CharacterState.setInv]
    · simp [setSlots, CharacterState.setInv, ho]
  cases eff <;> simp only [applyEffect, modifyAt, eraseAt, append, hset]

theorem HandsInv.recount (h : s.HandsInv im) (m : MoveRequest) : (s.recount im m).HandsInv im := by
  refine ⟨slotsAt_recount s m ▸ h.safe, ?_⟩
  have hcount (s : CharacterState) (o o' : Owner) :
      ((s.setInv o ((s.inv o).countInventorySlots im)).inv o').maxContainerSlot eqContainer =
        (s.inv o').maxContainerSlot eqContainer := by
    by_cases ho : o' = o
    · subst ho
      simp only [CharacterState.setInv, Function.update_self]
      exact (keepsHands_countInventorySlots _).capacity
    · simp [CharacterState.setInv, ho]
  unfold CharacterState.recount
  split
  · simp only
    split
    · rw [hcount, hcount]
      exact h.capacity
    · rw [hcount]
      exact h.capacity
  · exact h.capacity

theorem HandsInv.itemMoveQuery (h : s.HandsInv im) {ctx : MoveContext}
    {args : Option (Nat × String × Int)}
    (hg : ∀ r ∈ s.moveOf im ctx args, s.HandsGuarded im r.1) :
    (s.itemMoveQuery im ctx args).2.HandsInv im := by
  rw [itemMoveQuery_snd]
  cases hm : s.moveOf im ctx args with
  | none => exact h
  | some r =>
      obtain ⟨m, eff⟩ := r
      obtain ⟨hparse, hrefusal, heff⟩ := moveOf_some im hm
      obtain ⟨horigOwner, -, -, -⟩ := parseMove_ok hparse
      obtain ⟨h0, -, -⟩ := moveRefusal_none im hrefusal
      obtain ⟨i, source, hc, ho⟩ := itemMoveEffect_ok im heff
      refine HandsInv.recount ⟨?_, ?_⟩ m
      · exact handsSafe_applyEffect h.safe horigOwner h0 (hg (m, eff) hm) hc ho
      · rw [maxContainerSlot_applyEffect]
        exact h.capacity

/-- Moves that are carried out keep to the hands' own numbers, and bring two-handed
weapons from the delivery box only to a character with an empty off hand. -/
def GuardsHands (cfg : ServerConfig) (s : CharacterState) : CharacterEvent → Prop
  | .move ctx args => ∀ r ∈ s.moveOf cfg.items ctx args, s.HandsGuarded cfg.items r.1
  | _ => True

instance (cfg : ServerConfig) (s : CharacterState) : DecidablePred (s.GuardsHands cfg)
  | .move _ _ => inferInstanceAs (Decidable (∀ r ∈ _, _))
  | .addItem _ _ _ _ | .split _ _ _ | .sell _ _ | .buyback _ _ _ | .delete _ | .remItem _
  | .removeItems _ _ _ _ => inferInstanceAs (Decidable True)

/-- One event keeps the invariant; only a move can put something into a hand. -/
theorem HandsInv.step {cfg : ServerConfig} {e : CharacterEvent} (h : s.HandsInv cfg.items)
    (hok : s.GuardsHands cfg e) (hs : s.step cfg e = some s') : s'.HandsInv cfg.items := by
  cases e with
  | addItem now c itemID count =>
      cases hs
      exact h.setInv (keepsHands_addItemEx h.capacity c itemID count)
  | move ctx args =>
      cases hs
      exact h.itemMoveQuery hok
  | split now ccsid amount =>
      cases hs
      rcases s.itemSplit_cases cfg.items now ccsid amount with heq | ⟨item, n, -, -, -, -, heq⟩
      · rwa [heq]
      · rw [heq]
        apply h.setInv
        refine KeepsHands.trans ?_ (keepsHands_modifyCCSID _ _ ?_)
        · exact keepsHands_addItem _ backpack_ne_equipment _
        · exact fun _ => rfl
  | sell ccsid stale =>
      cases hs
      rcases s.shopSell_cases cfg.items cfg.buybackLimit ccsid stale with
        heq | ⟨item, d, -, -, heq⟩
      · rwa [heq]
      · rw [heq]
        exact (h.setInv ((keepsHands_addBuyBack _ _ _ _ _).trans
          (keepsHands_remItem _ _))).adjustCopper _
  | buyback now ccsid stale =>
      cases hs
      rcases s.shopBuyback_cases cfg.items now ccsid stale with
        heq | ⟨item, n, d, -, -, -, -, heq⟩
      · rwa [heq]
      · rw [heq]
        exact (h.setInv ((keepsHands_addItem _ backpack_ne_equipment _).trans
          (keepsHands_remItem _ _))).adjustCopper _
  | delete arg =>
      obtain ⟨r, hr, rfl⟩ := Option.map_eq_some_iff.mp hs
      have hgone : (s.setInv .character
          (((s.inv .character).remItem (arg % 2 ^ 32)).countInventorySlots cfg.items)).HandsInv
            cfg.items :=
        h.setInv ((keepsHands_remItem _ _).trans (keepsHands_countInventorySlots _))
      rcases itemDelete_cases cfg.items hr with heq | heq | ⟨-, coin, heq⟩
      · rwa [heq]
      · rwa [heq]
      · rw [heq]
        exact hgone.adjustCopper coin
  | remItem ccsid =>
      cases hs
      exact h.setInv (keepsHands_remItem _ ccsid)
  | removeItems now c itemID itemCost =>
      cases hs
      have hk := keepsHands_processIqResults (s.inv .character) c
        (scanRemoveItems cfg.items itemID ((s.inv .character).containerList c) 0 itemCost)
      exact h.setInv ⟨hk.hands, hk.capacity⟩

/-- In every run whose moves keep to the guards, no two-handed weapon is in the main hand
together with an item in the off hand. -/
theorem run_handsExclusive {cfg : ServerConfig} {localCharacterVault : Bool}
    (run : Reach (· = fresh cfg localCharacterVault) (GuardsHands cfg) (step cfg) s) :
    HandsExclusive cfg.items (s.slotsAt equipPlace) := by
  have hinv : s.HandsInv cfg.items := by
    refine run.invariant ?_ fun _ _ _ h hok hs => h.step hok hs
    rintro _ rfl
    refine ⟨⟨?_, ?_⟩, ?_⟩
    · exact Nat.zero_le 1
    · intro a ha
      cases ha
    · exact (keepsHands_countInventorySlots {}).capacity
  exact hinv.safe.exclusive

/-! A staff is fetched from the delivery box into the main hand, without and with a shield
in the off hand. -/

def armoury : ServerConfig where
  items := .ofList
    [{ mID := 100, mType := .weapon, mEquipType := .weapon2H, mWeaponType := .twoHand },
      { mID := 101, mType := .armor, mEquipType := .armorShield }]

def armouryMove (ccsid : Nat) (container : String) (slot : Int) : CharacterEvent :=
  .move { stats := { level := 1, profession := 1 } } (some (ccsid, container, slot))

def fetchStaff : CharacterEvent := armouryMove (getCCSID deliveryContainer 0) "eq" 0

/-- The staff waits in the delivery box. -/
def staffSent : List CharacterEvent :=
  [.addItem 0 invContainer 100 1, armouryMove 0 "delivery" 0]

def shieldOn : List CharacterEvent :=
  [.addItem 0 invContainer 101 1, armouryMove 0 "eq" 1]

def armed (before : List CharacterEvent) : CharacterState :=
  (runAll (step armoury) (fresh armoury false) (before ++ [fetchStaff])).getD {}

theorem run_handsExclusive_staff :
    HandsExclusive armoury.items ((armed staffSent).slotsAt equipPlace) := by
  have hrun : runAll (step armoury) (fresh armoury false) (staffSent ++ [fetchStaff]) =
      some (armed staffSent) := eq_some_getD (by decide) _
  have start : Trace (· = fresh armoury false) (GuardsHands armoury) (step armoury) []
      (fresh armoury false) := .start rfl
  exact run_handsExclusive ⟨_, start.runAll (by decide +kernel) hrun⟩

/-- The guard on the off hand looks into the account's inventory, where it is empty. -/
theorem delivered_staff_beside_shield :
    ∃ s, Reach (· = fresh armoury false) (fun _ _ => True) (step armoury) s ∧
      ¬HandsExclusive armoury.items (s.slotsAt equipPlace) := by
  have hrun : runAll (step armoury) (fresh armoury false)
      (staffSent ++ shieldOn ++ [fetchStaff]) = some (armed (staffSent ++ shieldOn)) :=
    eq_some_getD (by decide) _
  exact ⟨_, reach_of_runAll rfl hrun, by decide +kernel⟩

end CharacterState

end Iceee
