import Iceee.VirtualItem.Instantiate

/-!
# A virtual item after a reload

`CreateNewVirtualItem` leaves an item in memory and a definition of it in the cluster. The bonus of a
stat is overwritten by each of its amounts.

## Main results

* `foldl_applyPair`: what `ApplyModString` leaves in the fields.
* `expandVirtualItem_ofItem`: a made item is expanded from its definition.
* `created_iff`: when an item is the same after a reload and its bonuses add up.
-/

namespace Iceee.VirtualItem

open Lib Draw

/-! ### The bonuses -/

theorem stat_injective : Function.Injective BonusField.stat := by
  intro field field' h
  cases field <;> cases field' <;> first | rfl | exact absurd h (by decide)

theorem transformStandardMappings_iff {key : Text} {field : BonusField} :
    transformStandardMappings key = some field ↔ key = field.stat := by
  constructor
  · intro h
    have hstat := List.find?_some h
    exact (of_decide_eq_true hstat).symm
  · rintro rfl
    cases field <;> rfl

theorem applyStat_eq (d : ItemDef) (key value : Text) :
    d.applyStat key value =
      { d with bonus := fun field => if key = field.stat then atoi value else d.bonus field } := by
  rw [ItemDef.applyStat]
  cases hmap : transformStandardMappings key with
  | none =>
      have hnone : ∀ field : BonusField, key ≠ field.stat := fun field heq => by
        rw [transformStandardMappings_iff.mpr heq] at hmap
        cases hmap
      simp only [if_neg (hnone _)]
  | some field =>
      obtain rfl := transformStandardMappings_iff.mp hmap
      have hbonus : Function.update d.bonus field (atoi value) =
          fun field' => if field.stat = field'.stat then atoi value else d.bonus field' := by
        funext field'
        rw [Function.update_apply]
        exact if_congr (eq_comm.trans stat_injective.eq_iff.symm) rfl rfl
      rw [← hbonus]

/-- The last amount of a stat, or what was there before. -/
def lastOr (pairs : List (Text × Text)) (stat : Text) (old : Int) : Int :=
  (amounts pairs stat).getLastD old

theorem lastOr_cons (pair : Text × Text) (pairs : List (Text × Text)) (stat : Text) (old : Int) :
    lastOr (pair :: pairs) stat old =
      lastOr pairs stat (if pair.1 = stat then atoi pair.2 else old) := by
  by_cases hstat : pair.1 = stat
  · have hcons : amounts (pair :: pairs) stat = atoi pair.2 :: amounts pairs stat := by
      simp [amounts, hstat]
    rw [lastOr, hcons, if_pos hstat, List.getLastD_cons, lastOr]
  · have hskip : amounts (pair :: pairs) stat = amounts pairs stat := by simp [amounts, hstat]
    rw [lastOr, hskip, if_neg hstat, lastOr]

theorem applyPair_eq (d : ItemDef) (pair : Text × Text) :
    d.applyPair pair =
      { d with
        mValue := if pair.1 = "value".toList then atoi pair.2 else d.mValue
        mWeaponDamageMin := if pair.1 = "wmin".toList then atoi pair.2 else d.mWeaponDamageMin
        mWeaponDamageMax := if pair.1 = "wmax".toList then atoi pair.2 else d.mWeaponDamageMax
        bonus := fun field => if pair.1 = field.stat then atoi pair.2 else d.bonus field } := by
  have hmin : "wmin".toList ≠ "value".toList := by decide
  have hmax : "wmax".toList ≠ "value".toList := by decide
  have hmax' : "wmax".toList ≠ "wmin".toList := by decide
  rw [ItemDef.applyPair, applyStat_eq]
  split
  · next h => rw [if_neg fun h' => hmin (h'.symm.trans h), if_neg fun h' => hmax (h'.symm.trans h)]
  · next hvalue =>
      split
      · next h => rw [if_neg fun h' => hmax' (h'.symm.trans h)]
      · split <;> rfl

/-- `ApplyModString` leaves the last amount of each stat. -/
theorem foldl_applyPair (pairs : List (Text × Text)) (d : ItemDef) :
    pairs.foldl ItemDef.applyPair d =
      { d with
        mValue := lastOr pairs "value".toList d.mValue
        mWeaponDamageMin := lastOr pairs "wmin".toList d.mWeaponDamageMin
        mWeaponDamageMax := lastOr pairs "wmax".toList d.mWeaponDamageMax
        bonus := fun field => lastOr pairs field.stat (d.bonus field) } := by
  induction pairs generalizing d with
  | nil => rfl
  | cons pair pairs ih =>
      rw [List.foldl_cons, ih, applyPair_eq]
      simp only [lastOr_cons]

/-- All amounts of a stat but the last cancel out. -/
def Cancels (mModString stat : Text) : Prop :=
  wrap32 (amounts (pairsOf mModString) stat).dropLast.sum = 0

theorem wrap32_add_eq_right {x y : Int} (hy : InInt32 y) :
    wrap32 (x + y) = y ↔ wrap32 x = 0 := by
  calc wrap32 (x + y) = y ↔ wrap32 (x + y) = wrap32 y := by rw [wrap32_eq hy]
    _ ↔ wrap32 (x + y - y) = 0 := Int.bmod_eq_bmod_iff_bmod_sub_eq_zero
    _ ↔ wrap32 x = 0 := by rw [add_sub_cancel_right]

/-- The last amount is the merged one exactly when those before it cancel out. -/
theorem lastOr_eq_amountOf_iff (mModString stat : Text) :
    lastOr (pairsOf mModString) stat 0 = amountOf (pairsOf (mergeStats mModString [])) stat ↔
      Cancels mModString stat := by
  rw [pairsOf_mergeStats, pairsOf_nil, amountOf_mergeLists, Cancels, lastOr]
  rcases List.eq_nil_or_concat (amounts (pairsOf mModString) stat) with hempty | ⟨init, last, heq⟩
  · rw [hempty]
    decide
  · have hmem : last ∈ amounts (pairsOf mModString) stat := by rw [heq]; simp
    obtain ⟨pair, -, rfl⟩ := List.mem_map.mp hmem
    rw [heq, List.concat_eq_append, List.getLastD_concat, List.dropLast_concat,
      List.sum_append, List.sum_singleton, eq_comm]
    exact wrap32_add_eq_right (atoi_inInt32 pair.2)

/-! ### Making and expanding -/

/-- What `InstantiateNew` does with an item that has its look, its name and its modifiers. -/
def complete (names : Names) (item : VirtualItem) : VirtualItem :=
  ((item.applyModString).checkNameMods names).generateFlavorText

/-- An item before its modifiers are applied. -/
def bareItem (level rarity id equipType weaponType : Int)
    (mAppearance mIcon mDisplayName mods : Text) : VirtualItem :=
  { mStandardDef :=
      { (givenDef level rarity id equipType weaponType).updateArmorType with
        mAppearance, mIcon, mDisplayName }
    mModString := mods }

theorem updateArmorType_eq (d : ItemDef) :
    d.updateArmorType =
      { d with
        mArmorType :=
          if d.mEquipType = ItemEquipType.ARMOR_SHIELD then ArmorType.SHIELD
          else if d.mWeaponType = 0 then 1 else d.mArmorType } := by
  rw [ItemDef.updateArmorType]
  split_ifs <;> rfl

section Bare

variable (names : Names) (level rarity id equipType weaponType : Int)
  (mAppearance mIcon mDisplayName mods : Text)

/-- A made item is expanded from its definition. -/
theorem expandVirtualItem_ofItem :
    expandVirtualItem (.ofItem (complete names
        (bareItem level rarity id equipType weaponType mAppearance mIcon mDisplayName mods))) =
      complete names
        (bareItem level rarity id equipType weaponType mAppearance mIcon mDisplayName mods) := by
  simp only [expandVirtualItem, complete, bareItem, applyModString, updateArmorType, checkNameMods,
    generateFlavorText, VirtualItemDef.ofItem, updateArmorType_eq, foldl_applyPair, givenDef]

/-- The definition of a made item. -/
theorem ofItem_complete :
    VirtualItemDef.ofItem (complete names (bareItem level rarity id equipType weaponType mAppearance
        mIcon mDisplayName mods)) =
      { mID := id
        mType := if 0 < weaponType then ItemType.WEAPON else ItemType.ARMOR
        mEquipType := wrap8 equipType
        mWeaponType := if weaponType ≠ 0 then wrap8 weaponType else 0
        mValue := lastOr (pairsOf mods) "value".toList 0
        mLevel := wrap16 level
        mQualityLevel := wrap8 rarity
        mDisplayName := names.checkNameMods mods mDisplayName
        mIcon
        mAppearance
        mModString := mods } := by
  simp only [VirtualItemDef.ofItem, complete, bareItem, applyModString, checkNameMods,
    generateFlavorText, updateArmorType_eq, foldl_applyPair, givenDef]

theorem inRange_ofItem :
    (VirtualItemDef.ofItem (complete names (bareItem level rarity id equipType weaponType mAppearance
      mIcon mDisplayName mods))).InRange := by
  rw [ofItem_complete]
  refine ⟨?_, Int.bmod_bmod, ?_, Int.bmod_bmod, Int.bmod_bmod⟩
  · simp only
    split <;> decide
  · simp only
    split
    · exact Int.bmod_bmod
    · decide

/-- What is known about a made item: its definition can be stored and expands to it, and its bonuses
are the last amounts. -/
structure Made (item : VirtualItem) (id : Int) (mods : Text) : Prop where
  mID : (VirtualItemDef.ofItem item).mID = id
  mModString : item.mModString = mods
  inRange : (VirtualItemDef.ofItem item).InRange
  expanded : expandVirtualItem (.ofItem item) = item
  bonus : ∀ field, item.mStandardDef.bonus field = lastOr (pairsOf mods) field.stat 0

theorem made_complete :
    Made (complete names (bareItem level rarity id equipType weaponType mAppearance mIcon
      mDisplayName mods)) id mods where
  mID := by rw [ofItem_complete]
  mModString := rfl
  inRange := inRange_ofItem names level rarity id equipType weaponType mAppearance mIcon
    mDisplayName mods
  expanded := expandVirtualItem_ofItem names level rarity id equipType weaponType mAppearance mIcon
    mDisplayName mods
  bonus field := by
    simp only [complete, bareItem, applyModString, checkNameMods, generateFlavorText,
      updateArmorType_eq, foldl_applyPair, givenDef]

end Bare

/-- The stored definition of a made item is read. -/
theorem Made.read {item : VirtualItem} {id : Int} {mods : Text} (h : Made item id mods)
    (client : Client) :
    VirtualItemDef.readEntity { key := VirtualItemDef.entityKey id }
      ((VirtualItemDef.ofItem item).writeEntity.finish client) = some (.ofItem item) := by
  have hread := readEntity_writeEntity h.inRange client
  rwa [h.mID] at hread

/-! ### The items in memory -/

/-- The item with an ID. -/
def ItemManager.find (mgr : ItemManager) (id : Int) : Option VirtualItem := mgr.vItemList.lookup id

theorem lookup_insertItem {vItemList : List (Int × VirtualItem)} {id : Int}
    (h : vItemList.lookup id = none) (item : VirtualItem) :
    (insertItem vItemList id item).lookup id = some item := by
  rw [insertItem, h, if_neg (by simp), List.lookup_append, h]
  simp

theorem ItemManager.client_insertNew (mgr : ItemManager) (item : VirtualItem) (client : Client) :
    (mgr.insertNew item client).client = client := rfl

theorem find_insertNew (mgr : ItemManager) (item : VirtualItem) (client : Client) :
    (mgr.insertNew item client).find (mgr.nextVirtualItemID + 1) = some item := by
  refine lookup_insertItem (List.lookup_eq_none_iff.mpr fun entry hentry => ?_) item
  have hle := mgr.fresh entry hentry
  rw [bne_iff_ne]
  omega

section Created

variable {g : ItemTables} {numbers : RandomNumbers} {rarity : Int} {viParams : SpawnParams}
  {mgr mgr' : ItemManager} {k k' : Nat} {id : Int}

theorem dress_spec (g : ItemTables) (numbers : RandomNumbers)
    (level rarity id equipType weaponType : Int) (mods : Text) :
    Ensures (dress g numbers rarity equipType weaponType (VirtualItem.updateArmorType
        { mStandardDef := givenDef level rarity id equipType weaponType, mModString := mods }))
      fun item => ∃ mAppearance mIcon mDisplayName, item =
        bareItem level rarity id equipType weaponType mAppearance mIcon mDisplayName mods := by
  refine (Ensures.trivial _).bind fun app _ => (Ensures.trivial _).bind fun icon _ => ?_
  exact (Ensures.trivial _).bind fun name _ => Ensures.pure ⟨_, _, _, rfl⟩

/-- A new item: an empty one where there is no template, otherwise one with the modifiers that the
tables gave it, and with its definition in the cluster. -/
theorem createNewVirtualItem_cases
    (h : (createNewVirtualItem g numbers rarity viParams mgr).run k = some ((id, mgr'), k')) :
    id = mgr.nextVirtualItemID + 1 ∧
    ((g.getTemplate viParams.mEquipType viParams.mWeaponType = none ∧
      mgr' = mgr.insertNew {} mgr.client) ∨
    ∃ eqTemplate mods l item,
      g.getTemplate viParams.mEquipType viParams.mWeaponType = some eqTemplate ∧
      (rollMods g numbers viParams.level rarity eqTemplate).run k = some (mods, l) ∧
      Made item id mods ∧
      mgr' = mgr.insertNew item ((VirtualItemDef.ofItem item).writeEntity.finish mgr.client)) := by
  rw [createNewVirtualItem, StateT.run_bind] at h
  obtain ⟨⟨⟨item, client⟩, m⟩, hitem, hrest⟩ := Option.bind_eq_some_iff.mp h
  obtain ⟨hresult, -⟩ := Prod.mk.inj (Option.some.inj hrest)
  obtain ⟨rfl, rfl⟩ := Prod.mk.inj hresult
  refine ⟨rfl, ?_⟩
  rw [instantiateNew] at hitem
  cases htemplate : g.getTemplate viParams.mEquipType viParams.mWeaponType with
  | none =>
      rw [htemplate] at hitem
      cases hitem
      exact .inl ⟨rfl, rfl⟩
  | some eqTemplate =>
      rw [htemplate] at hitem
      simp only [StateT.run_bind] at hitem
      obtain ⟨⟨mods, l⟩, hmods, hitem⟩ := Option.bind_eq_some_iff.mp hitem
      obtain ⟨⟨dressed, m'⟩, hdress, hitem⟩ := Option.bind_eq_some_iff.mp hitem
      obtain ⟨mAppearance, mIcon, mDisplayName, rfl⟩ := dress_spec g numbers viParams.level rarity
        _ viParams.mEquipType viParams.mWeaponType mods l dressed m' hdress
      cases hitem
      exact .inr ⟨eqTemplate, mods, l, _, rfl, hmods, made_complete g.names viParams.level rarity _
        viParams.mEquipType viParams.mWeaponType mAppearance mIcon mDisplayName mods, rfl⟩

/-- The definition of an item is stored, a reload makes the item that is in memory, and its bonuses
are what `MergeStats` adds up. -/
structure Faithful (mgr : ItemManager) (id : Int) : Prop where
  stored : (VirtualItemDef.readEntity { key := VirtualItemDef.entityKey id } mgr.client).isSome
  reloaded : ∃ item, mgr.find id = some item ∧
    (loadVirtualItemWithID mgr.client [] id).lookup id = some item
  sums : ∀ item, mgr.find id = some item → ∀ field, item.mStandardDef.bonus field =
    amountOf (pairsOf (mergeStats item.mModString [])) field.stat

/-- A loaded item has a text about it, so it is not an empty one. -/
theorem flavorText_ne_nil (mModString mFlavorText : Text) :
    flavorText mModString mFlavorText ≠ [] := by
  rw [flavorText, List.append_assoc]
  exact List.append_ne_nil_of_left_ne_nil (by decide) _

theorem not_reloads_empty (client : Client) (id : Int) :
    (loadVirtualItemWithID client [] id).lookup id ≠ some {} := by
  intro h
  rw [loadVirtualItemWithID] at h
  split at h
  · cases h
  · next vid _ =>
      have hsingle : insertItem [] vid.mID (expandVirtualItem vid) =
        [(vid.mID, expandVirtualItem vid)] := rfl
      rw [hsingle, List.lookup_cons] at h
      split at h
      · have hflavor := congrArg (fun item : VirtualItem => item.mStandardDef.mFlavorText)
          (Option.some.inj h)
        exact flavorText_ne_nil _ _ hflavor
      · cases h

/-- A created item is faithful exactly when there is a template for it and, for each of the ten stats,
the amounts that the tables rolled cancel out but for the last. -/
theorem created_iff
    (h : (createNewVirtualItem g numbers rarity viParams mgr).run k = some ((id, mgr'), k')) :
    Faithful mgr' id ↔
      ∃ eqTemplate, g.getTemplate viParams.mEquipType viParams.mWeaponType = some eqTemplate ∧
        ∃ mods l, (rollMods g numbers viParams.level rarity eqTemplate).run k = some (mods, l) ∧
          ∀ field : BonusField, Cancels mods field.stat := by
  obtain ⟨rfl, hcases⟩ := createNewVirtualItem_cases h
  rcases hcases with ⟨hnone, rfl⟩ | ⟨eqTemplate, mods, l, item, htemplate, hmods, hmade, rfl⟩
  · refine iff_of_false (fun hfaithful => ?_) ?_
    · obtain ⟨item, hitem, hload⟩ := hfaithful.reloaded
      rw [find_insertNew] at hitem
      obtain rfl := Option.some.inj hitem
      exact not_reloads_empty _ _ hload
    · rintro ⟨eqTemplate, htemplate, -⟩
      rw [hnone] at htemplate
      cases htemplate
  · have hread := hmade.read mgr.client
    have hsums (field : BonusField) := lastOr_eq_amountOf_iff mods field.stat
    clear h
    generalize (VirtualItemDef.ofItem item).writeEntity.finish mgr.client = client at hread ⊢
    have hmem := find_insertNew mgr item client
    constructor
    · intro hfaithful
      refine ⟨eqTemplate, htemplate, mods, l, hmods, fun field => (hsums field).mp ?_⟩
      rw [← hmade.bonus, hfaithful.sums item hmem, hmade.mModString]
    · rintro ⟨eqTemplate', htemplate', mods', l', hmods', hcancels⟩
      obtain rfl := Option.some.inj (htemplate.symm.trans htemplate')
      obtain ⟨rfl, rfl⟩ := Prod.mk.inj (Option.some.inj (hmods.symm.trans hmods'))
      have hload : loadVirtualItemWithID client [] (mgr.nextVirtualItemID + 1) =
          insertItem [] (mgr.nextVirtualItemID + 1) item := by
        rw [loadVirtualItemWithID, hread]
        simp only
        rw [hmade.mID, hmade.expanded]
      refine ⟨?_, ⟨item, hmem, ?_⟩, fun item' hitem' field => ?_⟩
      · rw [ItemManager.client_insertNew, hread, Option.isSome_some]
      · rw [ItemManager.client_insertNew, hload]
        exact lookup_insertItem rfl item
      · obtain rfl := Option.some.inj (hmem.symm.trans hitem')
        rw [hmade.bonus, hmade.mModString]
        exact (hsums field).mpr (hcancels field)

end Created

/-! ### Helmets with strength -/

/-- A table that gives 5 points of strength. -/
def strengthTable : ValidTable :=
  { tableName := ['a'], statApp := "strength".toList, shares := 1, maxApply := 1 }

/-- Helmets that have the table several times. -/
def helmetTables (n : Nat) : ItemTables where
  modTable := [{ name := ['a'], modRow := [{ level := 1, data := fun _ => (5, 5) }] }]
  rarityConfig := [{}, {}, {}]
  equipTemplate := [{ mEquipType := 8, intrinsicTable := List.replicate n strengthTable }]
  equipAppearance := []
  equipIconAppearance := []
  names := { sort := id, sort_perm := List.Perm.refl }

def helmetParams : SpawnParams := { level := 1, mEquipType := 8, mWeaponType := 0 }

def noItems : ItemManager := { fresh := fun _ h => absurd h List.not_mem_nil }

theorem applyModTable_strength (n : Nat) (mods : Text) :
    applyModTable (helmetTables n).toModSystem lowest 1 2 strengthTable mods = fun k =>
      some ((1, appendStat mods "strength".toList 5), k + 1) := by
  have hsplit : Util.split "strength".toList ['|'] = ["strength".toList] :=
    Util.split_of_find_none rfl
  funext k
  rw [applyModTable, strengthTable, hsplit]
  rfl

theorem applyAll_strength (n m : Nat) (curMods : Int) (mods : Text) (k : Nat) :
    (applyAll (helmetTables n).toModSystem lowest 1 2 (List.replicate m strengthTable) curMods
      mods).run k = some ((curMods + m, appendStats mods (List.replicate m ("strength".toList, 5))),
        k + m) := by
  induction m generalizing curMods mods k with
  | zero => simp [applyAll, appendStats]
  | succ m ih =>
      rw [List.replicate_succ, applyAll, applyModTable_strength]
      change (applyAll _ _ _ _ (List.replicate m strengthTable) (curMods + 1)
        (appendStat mods "strength".toList 5)).run (k + 1) = _
      rw [ih, Nat.cast_succ, add_assoc, add_comm (1 : Int), Nat.add_assoc, Nat.add_comm 1]
      rfl

/-- The tables give the helmets their strength, as often as they have it. -/
theorem rollMods_strength (n : Nat) :
    (rollMods (helmetTables n) lowest 1 2
      { mEquipType := 8, intrinsicTable := List.replicate n strengthTable }).run 0 =
      some (appendStats [] (List.replicate n ("strength".toList, 5)), n) := by
  have hbonus : toInt (Single.round ((0 : ℚ) * Single.round ((1 : Int) : ℚ))) = some 0 := by
    rw [zero_mul, Single.round_zero]
    rfl
  have hrandom (mods : Text) (k : Nat) :
      (applyRandomTables (helmetTables n).toModSystem lowest 1 2
        { mEquipType := 8, intrinsicTable := List.replicate n strengthTable } mods).run k =
        some (mods, k) := by
    have hstart : (startLoop (helmetTables n).toModSystem lowest 1 2
        { mEquipType := 8, intrinsicTable := List.replicate n strengthTable } mods).run k =
        some (⟨[], 0, 0, 0, 0, mods, []⟩, k) := by
      change (StateT.lift (toInt (Single.round ((0 : ℚ) * Single.round ((1 : Int) : ℚ)))) k).bind _ = _
      rw [hbonus]
      rfl
    rw [applyRandomTables, StateT.run_bind, hstart]
    rfl
  rw [rollMods, StateT.run_bind, applyIntrinsicTables, StateT.run_map, applyAll_strength]
  change (applyRandomTables _ _ _ _ _ _).run (0 + n) = _
  rw [hrandom, Nat.zero_add]

theorem amounts_strength (n : Nat) (stat : Text) :
    amounts (pairsOf (appendStats [] (List.replicate n ("strength".toList, 5)))) stat =
      ((List.replicate n ("strength".toList, (5 : Int))).filter (·.1 == stat)).map Prod.snd := by
  have hplain : ∀ pair ∈ List.replicate n ("strength".toList, (5 : Int)),
      ('&' ∉ pair.1 ∧ '=' ∉ pair.1) ∧ InInt32 pair.2 := by
    intro pair hpair
    rw [List.eq_of_mem_replicate hpair]
    decide
  rw [amounts_appendStats _ hplain, pairsOf_nil]
  rfl

theorem exists_created (n : Nat) :
    ∃ result, (createNewVirtualItem (helmetTables n) lowest 2 helmetParams noItems).run 0 =
      some result := by
  rw [createNewVirtualItem, StateT.run_bind, instantiateNew]
  change ∃ result, Option.bind (((rollMods (helmetTables n) lowest 1 2
    { mEquipType := 8, intrinsicTable := List.replicate n strengthTable } >>= _).run 0)) _ =
      some result
  rw [StateT.run_bind, rollMods_strength]
  exact ⟨_, rfl⟩

theorem created_iff_helmet :
    ∃ id mgr' k', (createNewVirtualItem (helmetTables 1) lowest 2 helmetParams noItems).run 0 =
      some ((id, mgr'), k') ∧ Faithful mgr' id := by
  obtain ⟨⟨⟨id, mgr'⟩, k'⟩, hrun⟩ := exists_created 1
  refine ⟨id, mgr', k', hrun, (created_iff hrun).mpr ⟨_, rfl, _, _, rollMods_strength 1, ?_⟩⟩
  intro field
  rw [Cancels, amounts_strength]
  cases field <;> decide

/-- Twice 5 points of strength: the helmet has a bonus of 5, and its modifiers add up to 10. -/
theorem second_amount_overwrites :
    ∃ id mgr' k', (createNewVirtualItem (helmetTables 2) lowest 2 helmetParams noItems).run 0 =
      some ((id, mgr'), k') ∧ ¬Faithful mgr' id := by
  obtain ⟨⟨⟨id, mgr'⟩, k'⟩, hrun⟩ := exists_created 2
  refine ⟨id, mgr', k', hrun, fun hfaithful => ?_⟩
  obtain ⟨rfl, hcases⟩ := createNewVirtualItem_cases hrun
  rcases hcases with ⟨hnone, -⟩ | ⟨eqTemplate, mods, l, item, htemplate, hmods, hmade, rfl⟩
  · cases hnone
  · cases htemplate
    obtain ⟨rfl, -⟩ := Prod.mk.inj (Option.some.inj ((rollMods_strength 2).symm.trans hmods))
    have hsum := hfaithful.sums item (find_insertNew noItems item _) .mBonusStrength
    rw [hmade.bonus, hmade.mModString, lastOr_eq_amountOf_iff, Cancels, amounts_strength] at hsum
    exact absurd hsum (by decide)

end Iceee.VirtualItem
