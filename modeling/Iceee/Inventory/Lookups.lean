import Iceee.Crafting.Outputs
import Iceee.Inventory.Filing
import Iceee.Trade.Instance

/-!
# Which containers a query looks into

A client names an item by its CCSID, and the upper half of that number is used as an index into
`containerList`. `GetItemBySlot` checks it against `MAXCONTAINER`; `GetItemByCCSID`,
`GetItemPtrByCCSID` and `RemItem` do not. For each query that takes a CCSID, the indices its lookups
use are listed in order.

## Implementation notes

A read past the array is undefined, and nothing is said about what the query does after it: there
the lookup finds nothing, as in the model of the containers. A list of indices is exact up to the
first one outside the array. Accesses that are not lookups, such as adding to the backpack, use
constant indices and are left out.
-/

namespace Iceee

open Lib InventoryManager

/-- An index of `containerList`. -/
def InArray (i : Int) : Prop := 0 ≤ i ∧ i < maxContainer

instance : DecidablePred InArray := fun _ => inferInstanceAs (Decidable (_ ∧ _))

/-- `(CCSID & CONTAINER_ID) >> 16`. -/
def containerIndex (ccsid : Nat) : Int := (ccsid % 2 ^ 32 / 65536 : Nat)

/-- The upper half of the CCSID is the number of a container. -/
def NamesContainer (ccsid : Nat) : Prop := ccsid % 2 ^ 32 / 65536 < maxContainer

instance : DecidablePred NamesContainer := fun _ => inferInstanceAs (Decidable (_ < _))

@[simp] theorem namesContainer_mod (ccsid : Nat) :
    NamesContainer (ccsid % 2 ^ 32) ↔ NamesContainer ccsid := by
  unfold NamesContainer
  rw [Nat.mod_mod]

@[simp] theorem inArray_containerIndex (ccsid : Nat) :
    InArray (containerIndex ccsid) ↔ NamesContainer ccsid := by
  unfold InArray containerIndex NamesContainer
  omega

theorem namesContainer_of_containerOf {ccsid : Nat} {c : ContainerID}
    (h : containerOf ccsid = some c) : NamesContainer ccsid := by
  unfold containerOf at h
  split at h
  · rename_i hc
    unfold NamesContainer maxContainer at *
    omega
  · cases h

theorem namesContainer_of_found {inv : InventoryManager} {ccsid : Nat} {item : InventorySlot}
    (h : inv.getItemPtrByCCSID ccsid = some item) : NamesContainer ccsid := by
  obtain ⟨c, hc, -⟩ := Option.bind_eq_some_iff.mp h
  exact namesContainer_of_containerOf hc

/-- `GetItemBySlot`. -/
def slotLookup (containerID : Int) : List Int :=
  if containerID ≥ maxContainer then [] else [containerID]

theorem inArray_slotLookup {c i : Int} (hc : 0 ≤ c) (hi : i ∈ slotLookup c) : InArray i := by
  unfold slotLookup at hi
  split at hi
  · cases hi
  · rw [List.mem_singleton.mp hi]
    exact ⟨hc, by omega⟩

/-- The lookup that ends `GetBestSpecialItem`. -/
def specialItemLookup (im : ItemManager) (inv : InventoryManager) (c : ContainerID)
    (specialItemType : SpecialItemType) : List Int :=
  let best := bestSpecialItem im specialItemType (inv.containerList c) (99999, 0)
  if best.2 = 0 then [] else [containerIndex best.2]

/-- The scan keeps the CCSID it has, or ends with one out of the list. -/
theorem bestSpecialItem_ccsid (im : ItemManager) (t : SpecialItemType) (l : List InventorySlot)
    (best : Int × Nat) :
    (bestSpecialItem im t l best).2 = best.2 ∨
      ∃ sl ∈ l, (bestSpecialItem im t l best).2 = sl.ccsid := by
  induction l generalizing best with
  | nil => exact .inl rfl
  | cons sl rest ih =>
      have hlater (next : Int × Nat) (h : next.2 = best.2 ∨ next.2 = sl.ccsid) :
          (bestSpecialItem im t rest next).2 = best.2 ∨
            ∃ sl' ∈ sl :: rest, (bestSpecialItem im t rest next).2 = sl'.ccsid := by
        rcases ih next with hkeep | ⟨sl', hmem, heq⟩
        · rcases h with h | h
          · exact .inl (hkeep.trans h)
          · exact .inr ⟨sl, List.mem_cons_self, hkeep.trans h⟩
        · exact .inr ⟨sl', List.mem_cons_of_mem sl hmem, heq⟩
      unfold bestSpecialItem
      apply hlater
      cases im.getPointerByID sl.iid with
      | none => exact .inl rfl
      | some d =>
          dsimp only
          split
          · exact .inr rfl
          · exact .inl rfl

/-- The special item is looked up by a CCSID the container itself keeps. -/
theorem inArray_specialItemLookup {im : ItemManager} {inv : InventoryManager} (h : inv.Filed)
    {c : ContainerID} {t : SpecialItemType} {i : Int} (hi : i ∈ specialItemLookup im inv c t) :
    InArray i := by
  unfold specialItemLookup at hi
  dsimp only at hi
  split at hi
  · cases hi
  · rename_i hne
    rw [List.mem_singleton.mp hi, inArray_containerIndex]
    rcases bestSpecialItem_ccsid im t (inv.containerList c) (99999, 0) with heq | ⟨sl, hsl, heq⟩
    · exact absurd heq hne
    · rw [heq]
      have hdiv := h c sl hsl
      have hlt := c.isLt
      unfold NamesContainer maxContainer at *
      omega

namespace ActiveInstance

/-- The inventory whose items `trade.items` collects, once it has found an open trade. -/
def collectsFrom (s : ActiveInstance) (selfID : Int) : Option InventoryManager :=
  (s.playerList selfID).bind fun self =>
    (s.getExistingTransaction self.activeLootID).bind fun t =>
      (t.getPlayerData selfID).bind fun k =>
        if (t.player k.rev).tradeWindowOpen = false then none else some self.inventory

/-- The loop of `trade.items`; an item that is not found ends it. -/
def offeredLookups (inv : InventoryManager) : List Nat → List Int
  | [] => []
  | arg :: rest =>
      containerIndex arg ::
        if (inv.getItemPtrByCCSID (arg % 2 ^ 32)).isSome then offeredLookups inv rest else []

/-- `trade.items`. -/
def tradeItemsLookups (s : ActiveInstance) (selfID : Int) (args : List Nat) : List Int :=
  match s.collectsFrom selfID with
  | none => []
  | some inv => offeredLookups inv args

/-- Every argument names a container, unless one before it leads to no item. -/
def OffersNamed (inv : InventoryManager) (args : List Nat) : Prop :=
  ∀ before arg later, args = before ++ arg :: later →
    (∀ b ∈ before, (inv.getItemPtrByCCSID (b % 2 ^ 32)).isSome) → NamesContainer arg

theorem offersNamed_cons {inv : InventoryManager} {arg : Nat} {rest : List Nat} :
    OffersNamed inv (arg :: rest) ↔
      NamesContainer arg ∧
        ((inv.getItemPtrByCCSID (arg % 2 ^ 32)).isSome → OffersNamed inv rest) := by
  constructor
  · intro h
    refine ⟨h [] arg rest rfl (by simp), fun hfound before a later heq hbefore => ?_⟩
    apply h (arg :: before) a later (by rw [heq]; rfl)
    intro b hb
    rcases List.mem_cons.mp hb with rfl | hb
    · exact hfound
    · exact hbefore b hb
  · rintro ⟨harg, hrest⟩ before a later heq hbefore
    cases before with
    | nil =>
        obtain ⟨rfl, -⟩ := List.cons.inj heq
        exact harg
    | cons b before =>
        obtain ⟨rfl, rfl⟩ := List.cons.inj heq
        exact hrest (hbefore arg List.mem_cons_self) before a later rfl
          fun b hb => hbefore b (List.mem_cons_of_mem _ hb)

theorem offeredLookups_iff (inv : InventoryManager) (args : List Nat) :
    (∀ i ∈ offeredLookups inv args, InArray i) ↔ OffersNamed inv args := by
  induction args with
  | nil => simp [offeredLookups, OffersNamed]
  | cons arg rest ih =>
      rw [offersNamed_cons, offeredLookups, List.forall_mem_cons, inArray_containerIndex]
      apply and_congr_right
      intro _
      split
      · rename_i hfound
        rw [ih]
        exact ⟨fun h _ => h, fun h => h hfound⟩
      · rename_i hfound
        exact ⟨fun _ h => absurd h hfound, fun _ i hi => absurd hi List.not_mem_nil⟩

end ActiveInstance

/-- What is bought or sold in a shop. `listed` is an item of the shop's own list; another text is
read as the CCSID of a buyback, and `stale` is what the pointer to it reads after the backpack has
grown. -/
inductive ShopSelection
  | sell (itemHex : Option Nat)
  | listed
  | buyback (ccsid stale : Nat)
  deriving DecidableEq, Repr

namespace CharacterState

variable (im : ItemManager)

/-- Whether a buyback gets past its checks. -/
def buysBack (s : CharacterState) (ccsid : Nat) : Bool :=
  ((s.inv .character).getItemPtrByCCSID ccsid).any fun item =>
    ((s.inv .character).getFreeSlot invContainer).isSome &&
      (im.getPointerByID item.iid).any fun d =>
        !decide (s.copper < wrap32 (d.mValue * item.getStackCount im))

/-- `helper_trade_shop_sell`. -/
def shopSellLookups (s : CharacterState) (ccsid : Nat) : List Int :=
  containerIndex ccsid ::
    if ((s.inv .character).getItemPtrByCCSID ccsid).any fun item =>
        (im.getPointerByID item.iid).isSome then
      [containerIndex ccsid]
    else []

/-- `helper_trade_shop_buyback`. -/
def shopBuybackLookups (s : CharacterState) (ccsid stale : Nat) : List Int :=
  containerIndex ccsid ::
    if s.buysBack im ccsid then [containerIndex (buybackRemoves ccsid stale)] else []

/-- `trade.shop` with at least two arguments, where shops may be used. -/
def tradeShopLookups (s : CharacterState) : ShopSelection → List Int
  | .sell none => []
  | .sell (some ccsid) => s.shopSellLookups im (ccsid % 2 ^ 32)
  | .listed => []
  | .buyback ccsid stale => s.shopBuybackLookups im (ccsid % 2 ^ 32) stale

/-- `item.split`; `none` when arguments are missing. -/
def itemSplitLookups (s : CharacterState) : Option (Nat × Int) → List Int
  | none => []
  | some (ccsid, amount) =>
      containerIndex ccsid ::
        if ((s.inv .character).getItemPtrByCCSID (ccsid % 2 ^ 32)).any fun item =>
            ((s.inv .character).getFreeSlot invContainer).isSome &&
              !decide (amount < 1 ∨ amount ≥ item.getStackCount im) then
          [containerIndex ccsid]
        else []

/-- `item.delete`; `none` when the argument is missing. -/
def itemDeleteLookups (recoup : Int → Int → Int) (s : CharacterState) : Option Nat → List Int
  | none => []
  | some arg =>
      let ccsid := arg % 2 ^ 32
      slotLookup (containerIndex ccsid) ++
        match (containerOf ccsid).bind
            fun c => (s.inv .character).findBySlot c (ccsid % 65536 : Nat) with
        | none => []
        | some _ =>
            specialItemLookup im (s.inv .character) invContainer .itemGrinder ++
              if (s.itemDelete im recoup arg).isSome then [containerIndex ccsid] else []

/-- The lookups of the four guards of `ItemMove`, each of which can end the move. -/
def handLookups (s : CharacterState) (m : MoveRequest) (source : InventorySlot)
    (dest : Option (Nat × InventorySlot)) : List Int :=
  let guard (applies refuses : Bool) (later : List Int) :=
    if applies then slotLookup (eqContainer : Nat) ++ if refuses then [] else later else later
  guard (m.dest.2 == eqContainer && m.destSlot == ItemEquipSlot.weaponMainHand &&
      isTwoHanded im source) (s.hasEquipped m.orig.1 ItemEquipSlot.weaponOffHand)
    (guard (m.dest.2 == eqContainer && m.destSlot == ItemEquipSlot.weaponOffHand)
        (s.wieldsTwoHanded im m.dest.1)
      (guard (m.orig.2 == eqContainer && m.origSlot == ItemEquipSlot.weaponMainHand &&
          dest.any fun e => isTwoHanded im e.2)
          (s.hasEquipped m.orig.1 ItemEquipSlot.weaponOffHand)
        (guard (m.orig.2 == eqContainer && m.origSlot == ItemEquipSlot.weaponOffHand)
          (s.wieldsTwoHanded im m.dest.1) [])))

/-- `ItemMove`. -/
def moveLookups (s : CharacterState) (m : MoveRequest) : List Int :=
  slotLookup (m.orig.2 : Nat) ++
    match s.findAt m.orig m.origSlot with
    | none => []
    | some (_, source) =>
        slotLookup (m.dest.2 : Nat) ++
          if m.orig = m.dest ∧ m.origSlot = m.destSlot then []
          else s.handLookups im m source (s.findAt m.dest m.destSlot)

/-- `item.move`. -/
def itemMoveLookups (s : CharacterState) (ctx : MoveContext)
    (args : Option (Nat × String × Int)) : List Int :=
  match parseMove ctx args with
  | .error _ => []
  | .ok m =>
      if (s.inv m.orig.1).verifyContainerSlotBoundary m.orig.2 m.origSlot = false ∨
          (s.inv m.dest.1).verifyContainerSlotBoundary m.dest.2 m.destSlot = false then
        []
      else
        (if m.dest.2 = stampsContainer ∨ m.dest.2 = eqContainer then
          slotLookup (m.orig.2 : Nat) else []) ++
          if (s.moveRefusal im ctx.stats m).isSome then [] else s.moveLookups im m

end CharacterState

namespace Crafting.CraftManager

/-- `mod.craft`. Every argument is looked up; a character without a crafter then needs a kit, and
each input is looked up again before it is removed. -/
def modCraftLookups (cm : CraftManager) (inv : InventoryManager) (q : ModCraftQuery) : List Int :=
  let kit := if q.creatureID = q.ownCreatureID then
    specialItemLookup cm.items inv invContainer .portableCraftkit else []
  q.ccsids.map containerIndex ++
    match cm.findCraft inv q with
    | .error (.code _) => kit
    | .error _ => []
    | .ok (inputs, outputs) =>
        (if cm.makesBook outputs then [] else kit) ++
          inputs.flatMap fun i => [containerIndex i.mCCSID, containerIndex i.mCCSID]

end Crafting.CraftManager

open Crafting

/-- A query with a CCSID in it. -/
inductive ItemQuery
  | tradeItems (args : List Nat)
  | tradeShop (selection : ShopSelection)
  | itemSplit (args : Option (Nat × Int))
  | itemDelete (arg : Option Nat)
  | modCraft (q : ModCraftQuery)
  | itemMove (ctx : MoveContext) (args : Option (Nat × String × Int))

/-- What the handlers of these queries work on. -/
structure ItemSession where
  cfg : ServerConfig
  crafting : CraftManager
  trades : ActiveInstance := {}
  selfID : Int := 0
  character : CharacterState := {}

namespace ItemSession

/-- The indices into `containerList` of all lookups of a query. -/
def lookups (st : ItemSession) : ItemQuery → List Int
  | .tradeItems args => st.trades.tradeItemsLookups st.selfID args
  | .tradeShop selection => st.character.tradeShopLookups st.cfg.items selection
  | .itemSplit args => st.character.itemSplitLookups st.cfg.items args
  | .itemDelete arg => CharacterState.itemDeleteLookups st.cfg.items st.cfg.recoup st.character arg
  | .modCraft q => st.crafting.modCraftLookups (st.character.inv .character) q
  | .itemMove ctx args => st.character.itemMoveLookups st.cfg.items ctx args

/-- The CCSIDs in a query that are looked up without a check all name a container. -/
def Named (st : ItemSession) : ItemQuery → Prop
  | .tradeItems args =>
      ∀ inv ∈ st.trades.collectsFrom st.selfID, ActiveInstance.OffersNamed inv args
  | .tradeShop (.sell itemHex) => ∀ ccsid ∈ itemHex, NamesContainer ccsid
  | .tradeShop .listed => True
  | .tradeShop (.buyback ccsid stale) =>
      NamesContainer ccsid ∧
        (st.character.buysBack st.cfg.items (ccsid % 2 ^ 32) →
          NamesContainer (CharacterState.buybackRemoves (ccsid % 2 ^ 32) stale))
  | .itemSplit args => ∀ arg ∈ args, NamesContainer arg.1
  | .itemDelete _ | .itemMove _ _ => True
  | .modCraft q => ∀ ccsid ∈ q.ccsids, NamesContainer ccsid

end ItemSession

namespace ActiveInstance

theorem tradeItemsLookups_iff (s : ActiveInstance) (selfID : Int) (args : List Nat) :
    (∀ i ∈ s.tradeItemsLookups selfID args, InArray i) ↔
      ∀ inv ∈ s.collectsFrom selfID, OffersNamed inv args := by
  unfold tradeItemsLookups
  cases s.collectsFrom selfID with
  | none => simp
  | some inv =>
      rw [offeredLookups_iff]
      simp

end ActiveInstance

namespace CharacterState

variable {im : ItemManager} {s : CharacterState}

theorem tradeShopLookups_sell_iff (im : ItemManager) (s : CharacterState)
    (itemHex : Option Nat) :
    (∀ i ∈ s.tradeShopLookups im (.sell itemHex), InArray i) ↔
      ∀ ccsid ∈ itemHex, NamesContainer ccsid := by
  cases itemHex with
  | none => simp [tradeShopLookups]
  | some ccsid =>
      simp only [tradeShopLookups, shopSellLookups, List.forall_mem_cons, inArray_containerIndex,
        namesContainer_mod, Option.mem_some_iff, forall_eq']
      refine ⟨fun h => h.1, fun h => ⟨h, fun i hi => ?_⟩⟩
      split at hi
      · rw [List.mem_singleton.mp hi, inArray_containerIndex, namesContainer_mod]
        exact h
      · cases hi

theorem tradeShopLookups_buyback_iff (im : ItemManager) (s : CharacterState)
    (ccsid stale : Nat) :
    (∀ i ∈ s.tradeShopLookups im (.buyback ccsid stale), InArray i) ↔
      NamesContainer ccsid ∧
        (s.buysBack im (ccsid % 2 ^ 32) →
          NamesContainer (buybackRemoves (ccsid % 2 ^ 32) stale)) := by
  simp only [tradeShopLookups, shopBuybackLookups, List.forall_mem_cons, inArray_containerIndex,
    namesContainer_mod]
  apply and_congr_right
  intro _
  split
  · rename_i hbuys
    rw [List.forall_mem_singleton, inArray_containerIndex]
    exact ⟨fun h _ => h, fun h => h hbuys⟩
  · rename_i hbuys
    exact ⟨fun _ h => absurd h hbuys, fun _ i hi => absurd hi List.not_mem_nil⟩

theorem itemSplitLookups_iff (im : ItemManager) (s : CharacterState)
    (args : Option (Nat × Int)) :
    (∀ i ∈ s.itemSplitLookups im args, InArray i) ↔ ∀ arg ∈ args, NamesContainer arg.1 := by
  cases args with
  | none => simp [itemSplitLookups]
  | some arg =>
      obtain ⟨ccsid, amount⟩ := arg
      simp only [itemSplitLookups, List.forall_mem_cons, inArray_containerIndex,
        Option.mem_some_iff, forall_eq']
      refine ⟨fun h => h.1, fun h => ⟨h, fun i hi => ?_⟩⟩
      split at hi
      · rw [List.mem_singleton.mp hi, inArray_containerIndex]
        exact h
      · cases hi

/-- A deletion gets to the unchecked lookups only with a CCSID that passed the checked one. -/
theorem inArray_itemDeleteLookups (h : s.Filed) {recoup : Int → Int → Int} {arg : Option Nat}
    {i : Int} (hi : i ∈ s.itemDeleteLookups im recoup arg) : InArray i := by
  cases arg with
  | none => cases hi
  | some arg =>
      unfold itemDeleteLookups at hi
      rcases List.mem_append.mp hi with hi | hi
      · exact inArray_slotLookup (Int.natCast_nonneg _) hi
      · split at hi
        · cases hi
        · rename_i found hfound
          obtain ⟨c, hc, -⟩ := Option.bind_eq_some_iff.mp hfound
          rcases List.mem_append.mp hi with hi | hi
          · exact inArray_specialItemLookup (h .character) hi
          · split at hi
            · rw [List.mem_singleton.mp hi, inArray_containerIndex]
              exact namesContainer_of_containerOf hc
            · cases hi

/-- Every lookup of a move is a checked one. -/
theorem inArray_handLookups {m : MoveRequest} {source : InventorySlot}
    {dest : Option (Nat × InventorySlot)} {i : Int}
    (hi : i ∈ s.handLookups im m source dest) : InArray i := by
  have hguard (applies refuses : Bool) (later : List Int) (hlater : ∀ i ∈ later, InArray i) :
      ∀ i ∈ (if applies then slotLookup (eqContainer : Nat) ++ if refuses then [] else later
        else later), InArray i := by
    intro i hi
    split at hi
    · rcases List.mem_append.mp hi with hi | hi
      · exact inArray_slotLookup (Int.natCast_nonneg _) hi
      · split at hi
        · cases hi
        · exact hlater i hi
    · exact hlater i hi
  refine hguard _ _ _ (hguard _ _ _ (hguard _ _ _ (hguard _ _ _ ?_))) i hi
  exact fun _ hi => absurd hi List.not_mem_nil

theorem inArray_moveLookups {m : MoveRequest} {i : Int} (hi : i ∈ s.moveLookups im m) :
    InArray i := by
  unfold moveLookups at hi
  rcases List.mem_append.mp hi with hi | hi
  · exact inArray_slotLookup (Int.natCast_nonneg _) hi
  · split at hi
    · cases hi
    · rcases List.mem_append.mp hi with hi | hi
      · exact inArray_slotLookup (Int.natCast_nonneg _) hi
      · split at hi
        · cases hi
        · exact inArray_handLookups hi

theorem inArray_itemMoveLookups {ctx : MoveContext} {args : Option (Nat × String × Int)} {i : Int}
    (hi : i ∈ s.itemMoveLookups im ctx args) : InArray i := by
  unfold itemMoveLookups at hi
  split at hi
  · cases hi
  · split at hi
    · cases hi
    · rcases List.mem_append.mp hi with hi | hi
      · split at hi
        · exact inArray_slotLookup (Int.natCast_nonneg _) hi
        · cases hi
      · split at hi
        · cases hi
        · exact inArray_moveLookups hi

end CharacterState

namespace Crafting.CraftManager

variable {cm : CraftManager} {inv : InventoryManager} {q : ModCraftQuery}

/-- What `mod.craft` looks up after its arguments is a kit of the backpack, and inputs it has
found. -/
theorem modCraftLookups_iff (h : inv.Filed) :
    (∀ i ∈ cm.modCraftLookups inv q, InArray i) ↔ ∀ ccsid ∈ q.ccsids, NamesContainer ccsid := by
  have hkit : ∀ i ∈ (if q.creatureID = q.ownCreatureID then
      specialItemLookup cm.items inv invContainer .portableCraftkit else []), InArray i := by
    intro i hi
    split at hi
    · exact inArray_specialItemLookup h hi
    · cases hi
  constructor
  · intro hall ccsid hccsid
    have hmem : containerIndex ccsid ∈ cm.modCraftLookups inv q :=
      List.mem_append_left _ (List.mem_map_of_mem hccsid)
    exact (inArray_containerIndex ccsid).mp (hall _ hmem)
  · intro hall i hi
    rcases List.mem_append.mp hi with hi | hi
    · obtain ⟨ccsid, hccsid, rfl⟩ := List.mem_map.mp hi
      exact (inArray_containerIndex ccsid).mpr (hall ccsid hccsid)
    · split at hi
      · exact hkit i hi
      · cases hi
      · rename_i inputs outputs hfind
        rcases List.mem_append.mp hi with hi | hi
        · split at hi
          · cases hi
          · exact hkit i hi
        · obtain ⟨input, hinput, hi⟩ := List.mem_flatMap.mp hi
          obtain ⟨slot, hslot, -, -⟩ := mem_resolveInputs ((findCraft_ok hfind).subset hinput)
          have hnamed := namesContainer_of_found hslot
          simp only [List.mem_cons, List.not_mem_nil, or_false, or_self] at hi
          rw [hi, inArray_containerIndex]
          exact hnamed

end Crafting.CraftManager

namespace ItemSession

variable {st : ItemSession}

/-- However the character got its items, the lookups of a query stay inside the array exactly when
every CCSID that goes unchecked names a container. -/
theorem lookups_inArray_iff
    (run : Reach CharacterState.Filed (fun _ _ => True) (CharacterState.step st.cfg) st.character)
    (query : ItemQuery) : (∀ i ∈ st.lookups query, InArray i) ↔ st.Named query := by
  have hfiled := CharacterState.run_filed run
  cases query with
  | tradeItems args => exact st.trades.tradeItemsLookups_iff st.selfID args
  | tradeShop selection =>
      cases selection with
      | sell itemHex => exact st.character.tradeShopLookups_sell_iff st.cfg.items itemHex
      | listed => exact ⟨fun _ => trivial, fun _ i hi => absurd hi List.not_mem_nil⟩
      | buyback ccsid stale =>
          exact st.character.tradeShopLookups_buyback_iff st.cfg.items ccsid stale
  | itemSplit args => exact st.character.itemSplitLookups_iff st.cfg.items args
  | itemDelete arg =>
      exact ⟨fun _ => trivial, fun _ i => CharacterState.inArray_itemDeleteLookups hfiled⟩
  | modCraft q => exact Crafting.CraftManager.modCraftLookups_iff (hfiled .character)
  | itemMove ctx args =>
      exact ⟨fun _ => trivial, fun _ i => CharacterState.inArray_itemMoveLookups⟩

/-- A character without items. -/
def newcomer : ItemSession where
  cfg := { items := .ofList [] }
  crafting := { items := .ofList [], sortInputs := .inserting _ }

/-- Crafting with CCSIDs of the backpack and of the equipment reads these two lists. -/
theorem lookups_inArray_newcomer :
    newcomer.lookups (.modCraft { ccsids := [3, 65536] }) = [0, 1] ∧
      ∀ i ∈ newcomer.lookups (.modCraft { ccsids := [3, 65536] }), InArray i := by
  have hnamed : newcomer.Named (.modCraft { ccsids := [3, 65536] }) :=
    (by decide : ∀ ccsid ∈ [3, 65536], NamesContainer ccsid)
  have run : Reach CharacterState.Filed (fun _ _ => True) (CharacterState.step newcomer.cfg)
      newcomer.character := ⟨[], .start fun _ _ _ hitem => absurd hitem List.not_mem_nil⟩
  exact ⟨by decide, (lookups_inArray_iff run _).mpr hnamed⟩

/-- Splitting `FFFF0000` reads `containerList[65535]`. -/
theorem lookups_outside_newcomer :
    ¬∀ i ∈ newcomer.lookups (.itemSplit (some (0xFFFF0000, 1))), InArray i := by
  decide

end ItemSession

end Iceee
