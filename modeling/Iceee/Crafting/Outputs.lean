import Iceee.Crafting.Recipe

/-!
# What crafting from a recipe costs

`remaining` is what an inventory will hold once the slots of the inputs are gone. Each output raises
it by what `AddItem_Ex` puts somewhere else. So the quantities come out right exactly when nothing of
the outputs is lost, but for a kit that is used and stays.
-/

namespace Iceee.Crafting

open Lib InventoryManager

variable {im : ItemManager} {now : Nat} {inv inv' : InventoryManager} {ccsids : List Nat}

/-! ### Removing the inputs -/

/-- What a CCSID leads to, as a quantity of an item. -/
def quantityAt (im : ItemManager) (inv : InventoryManager) (id : Int) (ccsid : Nat) : Int :=
  ((inv.getItemPtrByCCSID ccsid).map (InventorySlot.quantity im id)).getD 0

/-- What an inventory holds outside of some slots. -/
def remaining (im : ItemManager) (ccsids : List Nat) (inv : InventoryManager) (id : Int) : Int :=
  inv.quantity im id - (ccsids.map (quantityAt im inv id)).sum

theorem quantity_remItem (inv : InventoryManager) (id : Int) (ccsid : Nat) :
    (inv.remItem ccsid).quantity im id = inv.quantity im id - quantityAt im inv id ccsid := by
  rw [quantity_eq_weigh, quantity_eq_weigh, quantityAt]
  cases hitem : inv.getItemPtrByCCSID ccsid with
  | none =>
      rw [weigh_remItem_none _ hitem]
      exact (sub_zero _).symm
  | some item =>
      obtain ⟨c, i, hc, -, -⟩ := indexOf_getItemPtrByCCSID hitem
      rw [weigh_remItem _ hc hitem]
      rfl

/-- Different slots that are removed take away what they hold. -/
theorem quantity_foldl_remItem (h : ccsids.Nodup) (inv : InventoryManager) (id : Int) :
    (ccsids.foldl remItem inv).quantity im id = remaining im ccsids inv id := by
  induction ccsids generalizing inv with
  | nil => exact (sub_zero _).symm
  | cons ccsid rest ih =>
      obtain ⟨hnew, hrest⟩ := List.nodup_cons.mp h
      have hsame : rest.map (quantityAt im (inv.remItem ccsid) id) =
          rest.map (quantityAt im inv id) := by
        apply List.map_congr_left
        intro other hother
        unfold quantityAt
        rw [getItemPtrByCCSID_remItem]
        rintro rfl
        exact hnew hother
      rw [List.foldl_cons, ih hrest, remaining, remaining, quantity_remItem, hsame, List.map_cons,
        List.sum_cons]
      omega

/-! ### Adding an output -/

/-- Whether one of the CCSIDs leads to an index of the backpack. -/
def leadsTo (inv : InventoryManager) (ccsids : List Nat) (i : Nat) : Bool :=
  ccsids.any fun ccsid =>
    containerOf ccsid == some invContainer &&
      indexOfCCSID (inv.containerList invContainer) ccsid == some i

/-- An output is refused: as many are owned as may be, or it opens a slot and none is free. -/
def Refused (im : ItemManager) (inv : InventoryManager) (d : ItemDef) (count : Int) : Prop :=
  inv.AtLimit im d ∨ inv.OpensSlot im invContainer d count ∧ inv.getFreeSlot invContainer = none

/-- An output joins a stack that is an input, and goes with it. -/
def Joins (im : ItemManager) (ccsids : List Nat) (inv : InventoryManager) (d : ItemDef)
    (count : Int) : Prop :=
  ¬inv.OpensSlot im invContainer d count ∧
    ∃ i ∈ inv.getExistingPartialStack im invContainer d, leadsTo inv ccsids i = true

instance (inv : InventoryManager) (d : ItemDef) (count : Int) :
    Decidable (Refused im inv d count) := inferInstanceAs (Decidable (_ ∨ _))

instance (inv : InventoryManager) (d : ItemDef) (count : Int) :
    Decidable (Joins im ccsids inv d count) := inferInstanceAs (Decidable (_ ∧ _))

/-- How much of an output is there in the end: nothing where it is refused or joins an input, else
what is made of its count, which is one of an item that does not stack. -/
def kept (im : ItemManager) (ccsids : List Nat) (inv : InventoryManager)
    (output : CraftInputSlot) : Int :=
  match im.getPointerByID output.mID with
  | none => 0
  | some d =>
      if Refused im inv d output.mStackCount ∨ Joins im ccsids inv d output.mStackCount then 0
      else inv.made im invContainer d output.mStackCount

/-- How many of an item are lost of the outputs, each of which finds what those before it left. -/
def lost (im : ItemManager) (now : Nat) (ccsids : List Nat) (id : Int) :
    List CraftInputSlot → InventoryManager → Int
  | [], _ => 0
  | output :: rest, inv =>
      (if output.mID = id then output.mStackCount - kept im ccsids inv output else 0) +
        lost im now ccsids id rest
          (inv.addItemEx im now invContainer output.mID output.mStackCount).2

/-- Every CCSID leads to a slot. -/
def Found (inv : InventoryManager) (ccsids : List Nat) : Prop :=
  ∀ ccsid ∈ ccsids, (inv.getItemPtrByCCSID ccsid).isSome

theorem sum_map_add_ite {l : List Nat} (h : l.Nodup) {f g : Nat → Int} {p : Nat → Bool}
    (n : Int) (hp : ∀ a ∈ l, ∀ b ∈ l, p a → p b → a = b)
    (hg : ∀ a ∈ l, g a = f a + if p a then n else 0) :
    (l.map g).sum = (l.map f).sum + if l.any p then n else 0 := by
  induction l with
  | nil => rfl
  | cons a rest ih =>
      obtain ⟨hnew, hrest⟩ := List.nodup_cons.mp h
      obtain ⟨ha, hlater⟩ := List.forall_mem_cons.mp hg
      have hih := ih hrest (fun b hb c hc => hp b (List.mem_cons_of_mem _ hb) c
        (List.mem_cons_of_mem _ hc)) hlater
      rw [List.map_cons, List.sum_cons, List.map_cons, List.sum_cons, hih, ha, List.any_cons]
      by_cases hpa : p a = true
      · have hnone : rest.any p = false := by
          rw [List.any_eq_false]
          intro b hb hpb
          have hab := hp a List.mem_cons_self b (List.mem_cons_of_mem _ hb) hpa hpb
          exact hnew (hab ▸ hb)
        rw [hnone, hpa]
        simp only [Bool.or_false, if_true, Bool.false_eq_true, if_false]
        omega
      · rw [Bool.not_eq_true] at hpa
        rw [hpa, Bool.false_or]
        simp only [Bool.false_eq_true, if_false]
        omega

theorem indexOfCCSID_modify (l : List InventorySlot) (i : Nat) {f : InventorySlot → InventorySlot}
    (hf : ∀ s, (f s).ccsid = s.ccsid) (ccsid : Nat) :
    indexOfCCSID (l.modify i f) ccsid = indexOfCCSID l ccsid := by
  have hmap (l : List InventorySlot) :
      indexOfCCSID l ccsid = (l.map InventorySlot.ccsid).findIdx? (· == ccsid) := by
    rw [List.findIdx?_map]
    rfl
  rw [hmap, hmap, map_key_modify hf]

theorem ccsid_of_indexOfCCSID {l : List InventorySlot} {ccsid i : Nat}
    (h : indexOfCCSID l ccsid = some i) : ∃ s, l[i]? = some s ∧ s.ccsid = ccsid := by
  obtain ⟨hlt, hp, -⟩ := List.findIdx?_eq_some_iff_getElem.mp h
  exact ⟨_, List.getElem?_eq_getElem hlt, by simpa using hp⟩

theorem getItemPtrByCCSID_eq {c : ContainerID} {ccsid : Nat} (hc : containerOf ccsid = some c) :
    inv.getItemPtrByCCSID ccsid =
      (indexOfCCSID (inv.containerList c) ccsid).bind fun i => (inv.containerList c)[i]? := by
  rw [getItemPtrByCCSID, hc, Option.bind_some, List.find?_eq_bind_findIdx?_getElem?]
  rfl

/-- A slot that changes in place changes what the CCSID leading to it holds. -/
theorem quantityAt_modifySlot {i : Nat} {s : InventorySlot} {f : InventorySlot → InventorySlot}
    (hs : (inv.containerList invContainer)[i]? = some s) (hf : ∀ s, (f s).ccsid = s.ccsid)
    (id : Int) (ccsid : Nat) :
    quantityAt im (inv.modifySlot invContainer i f) id ccsid = quantityAt im inv id ccsid +
      if containerOf ccsid == some invContainer &&
          indexOfCCSID ((inv.modifySlot invContainer i f).containerList invContainer) ccsid ==
            some i then
        (f s).quantity im id - s.quantity im id else 0 := by
  cases hc : containerOf ccsid with
  | none => simp [quantityAt, getItemPtrByCCSID, hc]
  | some c =>
      by_cases hinv : c = invContainer
      · subst hinv
        rw [quantityAt, quantityAt, getItemPtrByCCSID_eq hc, getItemPtrByCCSID_eq hc, modifySlot,
          setContainer_self, indexOfCCSID_modify _ _ hf]
        cases hj : indexOfCCSID (inv.containerList invContainer) ccsid with
        | none => simp
        | some j =>
            by_cases hji : j = i
            · subst hji
              simp [hs]
            · simp [hji, List.getElem?_modify, Ne.symm hji]
      · have hother := setContainer_other inv
          ((inv.containerList invContainer).modify i f) hinv
        rw [quantityAt, quantityAt, getItemPtrByCCSID_eq hc, getItemPtrByCCSID_eq hc, modifySlot,
          hother]
        simp [hinv]

theorem remaining_modifySlot {i : Nat} {s : InventorySlot} {f : InventorySlot → InventorySlot}
    (h : ccsids.Nodup) (hs : (inv.containerList invContainer)[i]? = some s)
    (hf : ∀ s, (f s).ccsid = s.ccsid) (id : Int) :
    remaining im ccsids (inv.modifySlot invContainer i f) id = remaining im ccsids inv id +
      if leadsTo (inv.modifySlot invContainer i f) ccsids i then 0
      else (f s).quantity im id - s.quantity im id := by
  have hsum := sum_map_add_ite h (f := quantityAt im inv id)
    (g := quantityAt im (inv.modifySlot invContainer i f) id)
    ((f s).quantity im id - s.quantity im id) (p := fun ccsid => containerOf ccsid == some invContainer &&
      indexOfCCSID ((inv.modifySlot invContainer i f).containerList invContainer) ccsid == some i)
    (fun a _ b _ ha hb => by
      simp only [Bool.and_eq_true, beq_iff_eq] at ha hb
      obtain ⟨sa, hsa, rfl⟩ := ccsid_of_indexOfCCSID ha.2
      obtain ⟨sb, hsb, rfl⟩ := ccsid_of_indexOfCCSID hb.2
      rw [Option.some.inj (hsa.symm.trans hsb)])
    (fun a _ => quantityAt_modifySlot hs hf id a)
  rw [remaining, remaining, hsum, quantity_eq_weigh, weigh_modifySlot _ _ hs, quantity_eq_weigh]
  unfold leadsTo
  split <;> omega

theorem found_modifySlot {i : Nat} {f : InventorySlot → InventorySlot}
    (hf : ∀ s, (f s).ccsid = s.ccsid) (h : Found inv ccsids) :
    Found (inv.modifySlot invContainer i f) ccsids := by
  intro ccsid hmem
  obtain ⟨item, hitem⟩ := Option.isSome_iff_exists.mp (h ccsid hmem)
  obtain ⟨c, j, hc, hj, hat⟩ := indexOf_getItemPtrByCCSID hitem
  rw [getItemPtrByCCSID_eq hc, modifySlot]
  by_cases hinv : c = invContainer
  · subst hinv
    rw [setContainer_self, indexOfCCSID_modify _ _ hf, hj, Option.bind_some, List.getElem?_modify,
      hat]
    rfl
  · rw [setContainer_other _ _ hinv, hj, Option.bind_some, hat]
    rfl

variable (im now) in
/-- A new slot at the end is none of those that were found before. -/
theorem remaining_addItem (h : Found inv ccsids) (item : InventorySlot) (id : Int) :
    Found (inv.addItem now invContainer item) ccsids ∧
      remaining im ccsids (inv.addItem now invContainer item) id =
        remaining im ccsids inv id + item.quantity im id := by
  refine ⟨fun ccsid hmem => ?_, ?_⟩
  · obtain ⟨old, hold⟩ := Option.isSome_iff_exists.mp (h ccsid hmem)
    rw [getItemPtrByCCSID_addItem hold]
    rfl
  · have hsame : ccsids.map (quantityAt im (inv.addItem now invContainer item) id) =
        ccsids.map (quantityAt im inv id) := by
      apply List.map_congr_left
      intro ccsid hmem
      obtain ⟨old, hold⟩ := Option.isSome_iff_exists.mp (h ccsid hmem)
      rw [quantityAt, quantityAt, getItemPtrByCCSID_addItem hold, hold]
    rw [remaining, remaining, hsame, quantity_eq_weigh, weigh_addItem, quantity_eq_weigh]
    omega

theorem leadsTo_modifySlot (i j : Nat) {f : InventorySlot → InventorySlot}
    (hf : ∀ s, (f s).ccsid = s.ccsid) :
    leadsTo (inv.modifySlot invContainer i f) ccsids j = leadsTo inv ccsids j := by
  unfold leadsTo
  simp only [modifySlot, setContainer_self, indexOfCCSID_modify _ _ hf]

/-- One output raises what remains by what is kept of it. -/
theorem remaining_addItemEx (hnodup : ccsids.Nodup) (h : Found inv ccsids)
    (output : CraftInputSlot) (id : Int) :
    Found (inv.addItemEx im now invContainer output.mID output.mStackCount).2 ccsids ∧
      remaining im ccsids (inv.addItemEx im now invContainer output.mID output.mStackCount).2 id =
        remaining im ccsids inv id + if output.mID = id then kept im ccsids inv output else 0 := by
  have hrefused (hnone : (inv.addItemEx im now invContainer output.mID output.mStackCount).1 = none)
      (hkept : kept im ccsids inv output = 0) :
      Found (inv.addItemEx im now invContainer output.mID output.mStackCount).2 ccsids ∧
        remaining im ccsids (inv.addItemEx im now invContainer output.mID output.mStackCount).2 id =
          remaining im ccsids inv id +
            if output.mID = id then kept im ccsids inv output else 0 := by
    cases hadd : inv.addItemEx im now invContainer output.mID output.mStackCount with
    | mk r inv' =>
        rw [hadd] at hnone
        obtain ⟨e, rfl⟩ := addItemEx_none (hadd.trans (Prod.ext hnone rfl))
        rw [hkept, ite_self, add_zero]
        exact ⟨h, rfl⟩
  cases hd : im.getPointerByID output.mID with
  | none => exact hrefused (by simp [addItemEx, hd]) (by simp [kept, hd])
  | some d =>
      by_cases hlimit : inv.AtLimit im d
      · refine hrefused ?_ (by simp [kept, hd, Refused, hlimit])
        rw [AtLimit] at hlimit
        simp [addItemEx, hd, hlimit]
      by_cases hopen : inv.OpensSlot im invContainer d output.mStackCount
      · cases hfree : inv.getFreeSlot invContainer with
        | none =>
            refine hrefused ?_ (by simp [kept, hd, Refused, hopen, hfree])
            rw [addItemEx_of_opensSlot hd hopen, addNewItem, hfree]
        | some n =>
            have hkept : kept im ccsids inv output =
                inv.made im invContainer d output.mStackCount := by
              simp [kept, hd, Refused, Joins, hlimit, hopen, hfree]
            obtain ⟨hfound, hremaining⟩ := remaining_addItem im now h
              (newSlot now invContainer n d output.mID output.mStackCount) id
            rw [addItemEx_of_opensSlot hd hopen, addNewItem, hfree, hkept]
            refine ⟨hfound, hremaining.trans ?_⟩
            rw [quantity_newSlot hd hopen]
      · obtain ⟨j, slot, hj, hslot, hid, hst, -, hadd⟩ :=
          @addItemEx_of_stack im now inv _ _ _ d hd hlimit hopen
        have hf (s : InventorySlot) :
            ({ s with count := s.count + output.mStackCount } : InventorySlot).ccsid = s.ccsid :=
          rfl
        have hkept : kept im ccsids inv output = if leadsTo inv ccsids j then 0 else
            inv.made im invContainer d output.mStackCount := by
          simp [kept, hd, Refused, Joins, hlimit, hopen, hj]
        rw [hadd, hkept]
        refine ⟨found_modifySlot hf h, ?_⟩
        dsimp only
        rw [remaining_modifySlot hnodup hslot hf, leadsTo_modifySlot j j hf,
          quantity_grown hd hst hid hopen]
        split_ifs <;> rfl

/-! ### The query -/

/-- How many of an item a list of inputs or outputs stands for. -/
def totalOf (l : List CraftInputSlot) (id : Int) : Int :=
  (l.map fun s => if s.mID = id then s.mStackCount else 0).sum

variable {cm : CraftManager} {q : ModCraftQuery} {inputs outputs : List CraftInputSlot}

/-- After the outputs were given there remains more, except for what was lost. -/
theorem remaining_giveOutputs (hnodup : ccsids.Nodup) (h : Found inv ccsids)
    (outputs : List CraftInputSlot) (id : Int) :
    remaining cm.items ccsids (cm.giveOutputs now inv outputs) id =
      remaining cm.items ccsids inv id + totalOf outputs id -
        lost cm.items now ccsids id outputs inv := by
  induction outputs generalizing inv with
  | nil =>
      rw [CraftManager.giveOutputs, List.foldl_nil, totalOf, List.map_nil, List.sum_nil, lost]
      omega
  | cons output rest ih =>
      obtain ⟨hfound, hone⟩ : Found (inv.addItemEx cm.items now invContainer output.mID
            output.mStackCount).2 ccsids ∧
          remaining cm.items ccsids (inv.addItemEx cm.items now invContainer output.mID
            output.mStackCount).2 id = remaining cm.items ccsids inv id +
              if output.mID = id then kept cm.items ccsids inv output else 0 :=
        remaining_addItemEx hnodup h output id
      have hrest := ih hfound
      rw [CraftManager.giveOutputs] at hrest ⊢
      rw [List.foldl_cons, hrest, hone, lost, totalOf, totalOf, List.map_cons, List.sum_cons]
      split <;> omega

/-- An input is what its CCSID leads to. -/
theorem mem_resolveInputs {input : CraftInputSlot} (h : input ∈ cm.resolveInputs inv ccsids) :
    ∃ slot, inv.getItemPtrByCCSID input.mCCSID = some slot ∧ slot.iid = input.mID ∧
      slot.getStackCount cm.items = input.mStackCount := by
  obtain ⟨ccsid, -, hinput⟩ := List.mem_filterMap.mp h
  obtain ⟨slot, hslot, hmap⟩ := Option.bind_eq_some_iff.mp hinput
  obtain ⟨d, -, rfl⟩ := Option.map_eq_some_iff.mp hmap
  exact ⟨slot, hslot, rfl, rfl⟩

/-- What the handler has checked when it goes on. -/
theorem findCraft_ok (h : cm.findCraft inv q = .ok (inputs, outputs)) :
    inputs.Perm (cm.resolveInputs inv q.ccsids) := by
  unfold CraftManager.findCraft at h
  dsimp only at h
  split at h
  · cases h
  · split at h
    · cases h
    · split at h
      · cases h
      · split at h
        · cases h
        · split at h
          · cases h
          · split at h
            · cases h
            · cases h
              exact (cm.sortInputs.perm _).trans (cm.sortInputs.perm _)

/-- A query that ends before anything changes does not report a success. -/
theorem findCraft_error {reply : ModCraftReply} (h : cm.findCraft inv q = .error reply) :
    reply ≠ .ok true := by
  unfold CraftManager.findCraft at h
  dsimp only at h
  split at h
  · cases h
    simp
  · split at h
    · cases h
      simp
    · split at h
      · cases h
        simp
      · split at h
        · cases h
          simp
        · split at h
          · cases h
            simp
          · split at h
            · cases h
              simp
            · cases h

theorem found_inputs (h : cm.findCraft inv q = .ok (inputs, outputs)) :
    Found inv (inputs.map CraftInputSlot.mCCSID) := by
  intro ccsid hmem
  obtain ⟨input, hinput, rfl⟩ := List.mem_map.mp hmem
  obtain ⟨slot, hslot, -, -⟩ := mem_resolveInputs ((findCraft_ok h).subset hinput)
  rw [hslot]
  rfl

/-- Without the slots of the inputs there remains what the inputs do not stand for. -/
theorem remaining_inputs (h : cm.findCraft inv q = .ok (inputs, outputs)) (id : Int) :
    remaining cm.items (inputs.map CraftInputSlot.mCCSID) inv id =
      inv.quantity cm.items id - totalOf inputs id := by
  have hsame : (inputs.map CraftInputSlot.mCCSID).map (quantityAt cm.items inv id) =
      inputs.map fun s => if s.mID = id then s.mStackCount else 0 := by
    rw [List.map_map]
    apply List.map_congr_left
    intro input hinput
    obtain ⟨slot, hslot, hid, hcount⟩ := mem_resolveInputs ((findCraft_ok h).subset hinput)
    rw [Function.comp_apply, quantityAt, hslot, ← hid, ← hcount]
    rfl
  rw [remaining, hsame, totalOf]

/-- The item ID of the kit when one is used that is used up. -/
def CraftManager.kitUsed (cm : CraftManager) (inv : InventoryManager) (q : ModCraftQuery)
    (outputs : List CraftInputSlot) : Option Int :=
  if q.creatureID = q.ownCreatureID ∧ cm.makesBook outputs = false then
    (findKit cm.tables inv).bind fun kit => if unstack cm.tables kit then some kit.1.iid else none
  else none

/-- For each input a slot of its own went, every output came in full, and one use of the kit was
taken. -/
structure CraftedFrom (cm : CraftManager) (inv : InventoryManager) (q : ModCraftQuery)
    (inputs outputs : List CraftInputSlot) (inv' : InventoryManager) : Prop where
  distinct : (inputs.map CraftInputSlot.mCCSID).Nodup
  exchanged : ∀ id, inv'.quantity cm.items id =
    inv.quantity cm.items id - totalOf inputs id + totalOf outputs id -
      if cm.kitUsed inv q outputs = some id then 1 else 0

/-- A success conserves the goods, and any other answer changes no container. -/
def ConservesInputs (cm : CraftManager) (inv : InventoryManager) (q : ModCraftQuery)
    (r : InventoryManager × ModCraftReply) : Prop :=
  (r.2 = .ok true → ∃ inputs outputs, cm.findCraft inv q = .ok (inputs, outputs) ∧
      CraftedFrom cm inv q inputs outputs r.1) ∧
    (r.2 ≠ .ok true → r.1.containerList = inv.containerList)

theorem quantity_modCraft (h : cm.findCraft inv q = .ok (inputs, outputs))
    (hnodup : (inputs.map CraftInputSlot.mCCSID).Nodup) (id : Int) :
    (cm.modCraft now inv q).1.quantity cm.items id =
      inv.quantity cm.items id - totalOf inputs id + totalOf outputs id -
        lost cm.items now (inputs.map CraftInputSlot.mCCSID) id outputs inv := by
  rw [CraftManager.modCraft, h]
  dsimp only
  rw [quantity_foldl_remItem hnodup, remaining_giveOutputs hnodup (found_inputs h),
    remaining_inputs h]

/-- Crafting from a recipe conserves the goods exactly when it does not succeed, or when no slot is
named twice and nothing of the outputs is lost but a kit that should have been used up. -/
theorem modCraft_conserves_iff (cm : CraftManager) (now : Nat) (inv : InventoryManager)
    (q : ModCraftQuery) :
    ConservesInputs cm inv q (cm.modCraft now inv q) ↔
      ∀ inputs outputs, cm.findCraft inv q = .ok (inputs, outputs) →
        (inputs.map CraftInputSlot.mCCSID).Nodup ∧
          ∀ id, lost cm.items now (inputs.map CraftInputSlot.mCCSID) id outputs inv =
            if cm.kitUsed inv q outputs = some id then 1 else 0 := by
  constructor
  · rintro ⟨hsuccess, -⟩ inputs outputs hfind
    have hok : (cm.modCraft now inv q).2 = .ok true := by
      rw [CraftManager.modCraft, hfind]
    obtain ⟨inputs', outputs', hfind', hcrafted⟩ := hsuccess hok
    obtain ⟨rfl, rfl⟩ := Prod.mk.inj (Except.ok.inj (hfind.symm.trans hfind'))
    refine ⟨hcrafted.distinct, fun id => ?_⟩
    have hid := hcrafted.exchanged id
    rw [quantity_modCraft hfind hcrafted.distinct] at hid
    omega
  · intro h
    cases hfind : cm.findCraft inv q with
    | error reply =>
        rw [CraftManager.modCraft, hfind]
        exact ⟨fun hok => absurd hok (findCraft_error hfind), fun _ => rfl⟩
    | ok found =>
        obtain ⟨inputs, outputs⟩ := found
        obtain ⟨hnodup, hlost⟩ := h inputs outputs hfind
        refine ⟨fun _ => ⟨inputs, outputs, hfind, hnodup, fun id => ?_⟩, fun hfailed => ?_⟩
        · rw [quantity_modCraft hfind hnodup, hlost]
        · rw [CraftManager.modCraft, hfind] at hfailed
          exact absurd rfl hfailed

/-! A recipe of two inputs, and one slot named for both. -/

def alloyRecipes : CraftManager where
  items := .ofList [{ mID := 2 }, { mID := 3 }]
  mRecipes :=
    [{ mInputCount := 2, mOutputCount := 1,
       mConditions := ["0,requireid,2,1".toList, "1,requireid,2,1".toList],
       mActions := ["giveid,3,1".toList] }]
  sortInputs := .inserting _

def oneIngot : InventoryManager :=
  { InventoryManager.setContainer {} invContainer
      [{ ccsid := getCCSID invContainer 5, iid := 2 }] with
    maxContainerSlot := fun _ => 24 }

def ingotTwice : ModCraftQuery where
  creatureID := 7
  ccsids := [getCCSID invContainer 5, getCCSID invContainer 5]

theorem one_ingot_counts_twice :
    ¬ConservesInputs alloyRecipes oneIngot ingotTwice
      (alloyRecipes.modCraft 0 oneIngot ingotTwice) := by
  intro h
  have hok : (alloyRecipes.modCraft 0 oneIngot ingotTwice).2 = .ok true := by decide
  obtain ⟨inputs, outputs, hfind, hcrafted⟩ := h.1 hok
  have hinputs : (alloyRecipes.findCraft oneIngot ingotTwice).map
      (fun found => found.1.map CraftInputSlot.mCCSID) = .ok ingotTwice.ccsids := by decide
  rw [hfind] at hinputs
  have hccsids : inputs.map CraftInputSlot.mCCSID = ingotTwice.ccsids := Except.ok.inj hinputs
  have htwice : ¬ingotTwice.ccsids.Nodup := by decide
  exact htwice (hccsids ▸ hcrafted.distinct)

end Iceee.Crafting
