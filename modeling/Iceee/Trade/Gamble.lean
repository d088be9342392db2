import Iceee.Item

/-!
# Gambled items

A purchase of an item with a gamble definition ends with another item, drawn of those that a search
finds. The two searches of a range of IDs advance one iterator and test another one.

## Main results

* `range_searches_iff`: when the searches of a range end, with the items of the range, and that no
  purchase with such a search ends with one of them.

## Implementation notes

The loops are given a number of turns, and have no result when they need more. An access past the
end of the table has no result either.
-/

namespace Iceee.Gamble

/-- `ItemList`, a map whose keys are the IDs of its items; an iterator is an index. -/
structure ItemTable where
  items : List ItemDef
  sorted : (items.map ItemDef.mID).Pairwise (· < ·)

namespace ItemTable

variable (t : ItemTable)

/-- `ItemList.find`. -/
def find (id : Int) : Option Nat := t.items.findIdx? fun item => item.mID = id

/-- The loop of `EnumPointersByIDRange` and `EnumPointersByRangeType`. What it tests of `start`, and
whether an item is added, is the same in every turn. -/
def rangeLoop (start stop : Nat) (add : Bool) : Nat → Nat → List ItemDef → Option (List ItemDef)
  | 0, _, _ => none
  | turns + 1, search, resultList =>
      if start = stop then some resultList
      else
        match t.items[search]? with
        | none => none
        | some item =>
            rangeLoop start stop add turns (search + 1)
              (if add then resultList ++ [item] else resultList)

/-- `EnumPointersByIDRange`. -/
def enumPointersByIDRange (turns : Nat) (resultList : List ItemDef) (minID maxID : Int) :
    Option (List ItemDef) :=
  match t.find minID with
  | none => some resultList
  | some start =>
      match t.find maxID with
      | none => some resultList
      | some stop => t.rangeLoop start stop true turns start resultList

/-- `EnumPointersByRangeType`; `none` is `FIELD_UNUSED`. -/
def enumPointersByRangeType (turns : Nat) (resultList : List ItemDef) (minID maxID : Int)
    (eqType : Option ItemEquipType) : Option (List ItemDef) :=
  match t.find minID with
  | none => some resultList
  | some start =>
      match t.find maxID with
      | none => some resultList
      | some stop =>
          let add := (t.items[start]?).any fun item => some item.mEquipType = eqType
          t.rangeLoop start stop add turns start resultList

end ItemTable

/-! ### Gamble definitions -/

def FIELD_UNUSED : Int := -1

/-- The types are `none` for `FIELD_UNUSED`. -/
structure ItemListQuery where
  minID : Int := FIELD_UNUSED
  maxID : Int := FIELD_UNUSED
  equipType : Option ItemEquipType := none
  weaponType : Option WeaponType := none
  minLevel : Int := FIELD_UNUSED
  maxLevel : Int := FIELD_UNUSED
  deriving DecidableEq, Repr

namespace ItemListQuery

/-- The test of the equip type; 0 excludes all weapons. -/
def acceptsEquipType (item : ItemDef) : Option ItemEquipType → Bool
  | none => true
  | some .none => item.mWeaponType = .none
  | some equipType => item.mEquipType = equipType

/-- The test of the weapon type; 0 excludes everything but weapons. -/
def acceptsWeaponType (item : ItemDef) : Option WeaponType → Bool
  | none => true
  | some .none => item.mWeaponType ≠ .none
  | some weaponType => item.mWeaponType = weaponType

/-- What `EnumPointersByQuery` asks of an item. -/
def accepts (queryData : ItemListQuery) (item : ItemDef) : Bool :=
  (queryData.minLevel = FIELD_UNUSED ∨ queryData.minLevel ≤ item.mMinUseLevel) ∧
    (queryData.maxLevel = FIELD_UNUSED ∨ item.mMinUseLevel ≤ queryData.maxLevel) ∧
    acceptsEquipType item queryData.equipType ∧ acceptsWeaponType item queryData.weaponType

end ItemListQuery

/-- The loop of `EnumPointersByQuery`, over the items from the iterator on. -/
def queryLoop (queryData : ItemListQuery) (iend : Nat) :
    Nat → List ItemDef → Option (List ItemDef)
  | it, [] => if it = iend then some [] else none
  | it, item :: rest =>
      if it = iend then some []
      else (queryLoop queryData iend (it + 1) rest).map fun found =>
        if queryData.accepts item then item :: found else found

/-- `EnumPointersByQuery`. -/
def ItemTable.enumPointersByQuery (t : ItemTable) (resultList : List ItemDef)
    (queryData : ItemListQuery) : Option (List ItemDef) :=
  let istart := if queryData.minID = FIELD_UNUSED then some 0 else t.find queryData.minID
  let iend :=
    if queryData.maxID = FIELD_UNUSED then some t.items.length else t.find queryData.maxID
  match istart, iend with
  | some istart, some iend =>
      (queryLoop queryData iend istart (t.items.drop istart)).map (resultList ++ ·)
  | _, _ => some resultList

inductive SearchType where
  | none | linearRange | equip | query | list
  deriving DecidableEq, Repr

structure GambleItemSelection where
  itemID : Int := 0
  shares : Int := 0
  deriving DecidableEq, Repr

structure GambleDefinition where
  triggerItemID : Int := 0
  searchType : SearchType := .none
  params : ItemListQuery := {}
  itemSelection : List GambleItemSelection := []
  deriving DecidableEq, Repr

/-- `GetRandomSelection`, for a number between 1 and the sum of the shares. -/
def GambleDefinition.getRandomSelection (gDef : GambleDefinition) (randInt : Int → Int → Int) :
    Int :=
  let maxShares := (gDef.itemSelection.map GambleItemSelection.shares).sum
  let rnd := randInt 1 maxShares
  go rnd 1 gDef.itemSelection
where
  go (rnd base : Int) : List GambleItemSelection → Int
    | [] => 0
    | selection :: rest =>
        if base ≤ rnd ∧ rnd ≤ base + selection.shares - 1 then selection.itemID
        else go rnd (base + selection.shares) rest

/-- `GetGambleDefByTriggerItemID`. -/
def getGambleDefByTriggerItemID (defList : List GambleDefinition) (itemID : Int) :
    Option GambleDefinition :=
  defList.find? fun gDef => gDef.triggerItemID = itemID

/-- What `RunPurchaseModifier` takes of the items found. -/
def pickItem (randInt : Int → Int → Int) (itemID : Int) (searchList : List ItemDef) : Int :=
  if searchList.length = 0 then itemID
  else
    let randIndex := randInt 0 (searchList.length - 1)
    if randIndex < 0 then itemID
    else
      match searchList[randIndex.toNat]? with
      | none => itemID
      | some item => item.mID

/-- `RunPurchaseModifier`. -/
def ItemTable.runPurchaseModifier (t : ItemTable) (defList : List GambleDefinition)
    (randInt : Int → Int → Int) (turns : Nat) (itemID : Int) : Option Int :=
  match getGambleDefByTriggerItemID defList itemID with
  | none => some itemID
  | some gDef =>
      match gDef.searchType with
      | .list => some (gDef.getRandomSelection randInt)
      | .none => some (pickItem randInt itemID [])
      | .linearRange =>
          (t.enumPointersByIDRange turns [] gDef.params.minID gDef.params.maxID).map
            (pickItem randInt itemID)
      | .equip =>
          (t.enumPointersByRangeType turns [] gDef.params.minID gDef.params.maxID
            gDef.params.equipType).map (pickItem randInt itemID)
      | .query =>
          (t.enumPointersByQuery [] gDef.params).map (pickItem randInt itemID)

/-! ### Searches of a range -/

/-- The ID is a key of the table. -/
def ItemTable.Present (t : ItemTable) (id : Int) : Prop := ∃ item ∈ t.items, item.mID = id

/-- The IDs from `minID` on and below `maxID`. -/
def InRange (minID maxID : Int) (item : ItemDef) : Prop := minID ≤ item.mID ∧ item.mID < maxID

/-- The search ends, with the items of a kind, each of them once. -/
def Exact (t : ItemTable) (kind : ItemDef → Prop) (search : Nat → Option (List ItemDef)) : Prop :=
  ∃ turns found, search turns = some found ∧ found.Nodup ∧
    ∀ item, item ∈ found ↔ item ∈ t.items ∧ kind item

/-- The purchase ends, with an item of a kind. -/
def Purchases (t : ItemTable) (kind : ItemDef → Prop) (purchase : Nat → Option Int) : Prop :=
  ∃ turns id, purchase turns = some id ∧ ∃ item ∈ t.items, item.mID = id ∧ kind item

section Range

variable {t : ItemTable} {minID maxID id : Int} {start stop : Nat} {add : Bool}

/-- A loop that does not end in its first turn does not end. -/
theorem rangeLoop_of_ne (h : start ≠ stop) (turns search : Nat) (resultList : List ItemDef) :
    t.rangeLoop start stop add turns search resultList = none := by
  induction turns generalizing search resultList with
  | zero => rfl
  | succ turns ih =>
      rw [ItemTable.rangeLoop, if_neg h]
      cases t.items[search]? with
      | none => rfl
      | some item => exact ih _ _

theorem rangeLoop_self (turns search : Nat) (resultList : List ItemDef) :
    t.rangeLoop start start add (turns + 1) search resultList = some resultList := by
  rw [ItemTable.rangeLoop, if_pos rfl]

/-- An ID of the table is found at an item that has it. -/
theorem ItemTable.Present.find (h : t.Present id) :
    ∃ i, t.find id = some i ∧ (t.items[i]?).map ItemDef.mID = some id := by
  obtain ⟨item, hitem, rfl⟩ := h
  have hsome : (t.find item.mID).isSome := by
    unfold ItemTable.find
    rw [List.findIdx?_isSome, List.any_eq_true]
    exact ⟨item, hitem, by simp⟩
  obtain ⟨i, hi⟩ := Option.isSome_iff_exists.mp hsome
  obtain ⟨hlt, hkey, -⟩ := List.findIdx?_eq_some_iff_getElem.mp hi
  refine ⟨i, hi, ?_⟩
  rw [List.getElem?_eq_getElem hlt, Option.map_some]
  exact congrArg some (of_decide_eq_true hkey)

/-- The two iterators are one exactly where the IDs are. -/
theorem exists_start_stop (hmin : t.Present minID) (hmax : t.Present maxID) :
    ∃ start stop, t.find minID = some start ∧ t.find maxID = some stop ∧
      (start = stop ↔ minID = maxID) := by
  obtain ⟨start, hstart, hminID⟩ := hmin.find
  obtain ⟨stop, hstop, hmaxID⟩ := hmax.find
  refine ⟨start, stop, hstart, hstop, ?_, ?_⟩
  · rintro rfl
    exact Option.some.inj (hminID.symm.trans hmaxID)
  · rintro rfl
    exact Option.some.inj (hstart.symm.trans hstop)

/-- A search that finds nothing where the range is empty, and does not end elsewhere. -/
def Stuck (minID maxID : Int) (search : Nat → Option (List ItemDef)) : Prop :=
  ∀ turns, search turns = if minID = maxID ∧ 0 < turns then some [] else none

theorem stuck_rangeLoop (h : start = stop ↔ minID = maxID) :
    Stuck minID maxID fun turns => t.rangeLoop start stop add turns start [] := by
  intro turns
  by_cases hempty : minID = maxID
  · obtain rfl := h.mpr hempty
    cases turns with
    | zero => simp [ItemTable.rangeLoop]
    | succ turns =>
        rw [if_pos ⟨hempty, Nat.succ_pos turns⟩]
        exact rangeLoop_self turns start []
  · rw [if_neg fun hboth => hempty hboth.1]
    exact rangeLoop_of_ne (mt h.mp hempty) turns start []

theorem stuck_enumPointersByIDRange (hmin : t.Present minID) (hmax : t.Present maxID) :
    Stuck minID maxID fun turns => t.enumPointersByIDRange turns [] minID maxID := by
  obtain ⟨start, stop, hstart, hstop, heq⟩ := exists_start_stop hmin hmax
  simp only [ItemTable.enumPointersByIDRange, hstart, hstop]
  exact stuck_rangeLoop heq

theorem stuck_enumPointersByRangeType (hmin : t.Present minID) (hmax : t.Present maxID)
    (eqType : Option ItemEquipType) :
    Stuck minID maxID fun turns => t.enumPointersByRangeType turns [] minID maxID eqType := by
  obtain ⟨start, stop, hstart, hstop, heq⟩ := exists_start_stop hmin hmax
  simp only [ItemTable.enumPointersByRangeType, hstart, hstop]
  exact stuck_rangeLoop heq

variable {kind : ItemDef → Prop} {search : Nat → Option (List ItemDef)}

/-- Such a search is exact where the range is empty only. -/
theorem exact_iff_single (h : Stuck minID maxID search)
    (hkind : ∀ item, kind item → InRange minID maxID item) :
    Exact t kind search ↔ minID = maxID := by
  constructor
  · rintro ⟨turns, found, hfound, -⟩
    rw [h turns] at hfound
    by_contra hne
    rw [if_neg fun hboth => hne hboth.1] at hfound
    cases hfound
  · intro hempty
    refine ⟨1, [], ?_, List.nodup_nil, fun item => ?_⟩
    · rw [h 1, if_pos ⟨hempty, Nat.one_pos⟩]
    · have hnone : ¬kind item := fun hitem => by
        obtain ⟨hlo, hhi⟩ := hkind item hitem
        omega
      simp [hnone]

/-- A purchase with such a search ends with no item of the range. -/
theorem not_purchases {randInt : Int → Int → Int} {itemID : Int} (h : Stuck minID maxID search)
    (hkind : ∀ item, kind item → InRange minID maxID item) :
    ¬Purchases t kind fun turns => (search turns).map (pickItem randInt itemID) := by
  rintro ⟨turns, id, hpurchase, item, -, -, hitem⟩
  obtain ⟨found, hfound, -⟩ := Option.map_eq_some_iff.mp hpurchase
  obtain ⟨hlo, hhi⟩ := hkind item hitem
  rw [h turns, if_neg fun hboth => by omega] at hfound
  cases hfound

end Range

/-- The items that a gamble definition searches a range for. -/
def GambleDefinition.Wants (gDef : GambleDefinition) (item : ItemDef) : Prop :=
  InRange gDef.params.minID gDef.params.maxID item ∧
    (gDef.searchType = .equip → some item.mEquipType = gDef.params.equipType)

/-- The searches of a range between two IDs of the table are exact where the range is empty only,
and no purchase with a definition that makes one ends with an item of its range. -/
theorem range_searches_iff (t : ItemTable) {minID maxID : Int} (hmin : t.Present minID)
    (hmax : t.Present maxID) (eqType : ItemEquipType) :
    ((Exact t (InRange minID maxID) (t.enumPointersByIDRange · [] minID maxID) ∧
        Exact t (fun item => InRange minID maxID item ∧ item.mEquipType = eqType)
          (t.enumPointersByRangeType · [] minID maxID (some eqType))) ↔ minID = maxID) ∧
      ∀ defList randInt itemID gDef, getGambleDefByTriggerItemID defList itemID = some gDef →
        gDef.searchType = .linearRange ∨ gDef.searchType = .equip →
        gDef.params.minID = minID → gDef.params.maxID = maxID →
        ¬Purchases t gDef.Wants (t.runPurchaseModifier defList randInt · itemID) := by
  have hlinear := stuck_enumPointersByIDRange hmin hmax
  refine ⟨?_, ?_⟩
  · rw [exact_iff_single hlinear fun item h => h,
      exact_iff_single (stuck_enumPointersByRangeType hmin hmax _) fun item h => h.1, and_self_iff]
  · rintro defList randInt itemID gDef hgDef htype rfl rfl
    have hwants : ∀ item, gDef.Wants item →
        InRange gDef.params.minID gDef.params.maxID item := fun item h => h.1
    unfold ItemTable.runPurchaseModifier
    rw [hgDef]
    rcases htype with htype | htype
    · simp only [htype]
      exact not_purchases hlinear hwants
    · simp only [htype]
      exact not_purchases (stuck_enumPointersByRangeType hmin hmax _) hwants

/-- A table of two items. -/
def twoItems : ItemTable where
  items := [{ mID := 1 }, { mID := 2 }]
  sorted := by decide

/-- The range from the first item to the second. -/
theorem range_searches_witness :
    ((Exact twoItems (InRange 1 2) (twoItems.enumPointersByIDRange · [] 1 2) ∧
        Exact twoItems (fun item => InRange 1 2 item ∧ item.mEquipType = .none)
          (twoItems.enumPointersByRangeType · [] 1 2 (some .none))) ↔ (1 : Int) = 2) ∧
      ∀ defList randInt itemID gDef, getGambleDefByTriggerItemID defList itemID = some gDef →
        gDef.searchType = .linearRange ∨ gDef.searchType = .equip →
        gDef.params.minID = 1 → gDef.params.maxID = 2 →
        ¬Purchases twoItems gDef.Wants (twoItems.runPurchaseModifier defList randInt · itemID) :=
  range_searches_iff twoItems ⟨{ mID := 1 }, by decide, rfl⟩ ⟨{ mID := 2 }, by decide, rfl⟩ .none

/-- The search between two items of a table of two does not end. -/
theorem twoItems_not_exact :
    ¬Exact twoItems (InRange 1 2) (twoItems.enumPointersByIDRange · [] 1 2) := by
  rintro ⟨turns, found, hfound, -⟩
  have hnone : twoItems.enumPointersByIDRange turns [] 1 2 = none :=
    rangeLoop_of_ne (by decide) turns 0 []
  cases hnone.symm.trans hfound

end Iceee.Gamble
