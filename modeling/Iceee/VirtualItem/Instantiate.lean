import Iceee.Cluster.Faithful
import Iceee.VirtualItem.Naming
import Iceee.VirtualItem.RandomTables

/-!
# Making and loading virtual items

A new item is rolled from the tables of its kind of equipment, and a definition of it is written to
the cluster. Loading expands the definition.

## Main result

* `readEntity_writeEntity`: a definition is read as it was written.

## Implementation notes

A `char` and a `short` wrap around. The numbers for new items come from a counter of the cluster.
-/

namespace Iceee

open Lib Draw

namespace VirtualItem

/-- A `char`. -/
def wrap8 (x : Int) : Int := x.bmod (2 ^ 8)

/-! ### The definition of an item -/

/-- The fields that modifiers add a bonus to. -/
inductive BonusField where
  | mBonusStrength | mBonusDexterity | mBonusConstitution | mBonusPsyche | mBonusSpirit
  | mArmorResistMelee | mArmorResistFire | mArmorResistFrost | mArmorResistMystic
  | mArmorResistDeath
  deriving DecidableEq, Repr

/-- `ItemDef`, as `Reset` leaves it where nothing else is said. -/
@[ext] structure ItemDef where
  mID : Int := 0
  mType : Int := 0
  mDisplayName : Text := []
  mAppearance : Text := []
  mIcon : Text := []
  mIvType1 : Int := 0
  mIvMax1 : Int := 0
  mIvType2 : Int := 0
  mIvMax2 : Int := 0
  mSv1 : Text := []
  mCopper : Int := 0
  mContainerSlots : Int := 0
  mAutoTitleType : Int := 0
  mLevel : Int := 0
  mBindingType : Int := 0
  mEquipType : Int := 0
  mWeaponType : Int := 0
  mWeaponDamageMin : Int := 0
  mWeaponDamageMax : Int := 0
  mSpeed : Int := 0
  mWeaponExtraDamangeRating : Int := 0
  mWeaponExtraDamageType : Int := 0
  mEquipEffectId : Int := 0
  mUseAbilityId : Int := 0
  mActionAbilityId : Int := 0
  mArmorType : Int := 0
  bonus : BonusField → Int := fun _ => 0
  mBonusHealth : Int := 0
  mBonusWill : Int := 0
  isCharm : Int := 0
  mMeleeHitMod : ℚ := 0
  mMeleeCritMod : ℚ := 0
  mMagicHitMod : ℚ := 0
  mMagicCritMod : ℚ := 0
  mParryMod : ℚ := 0
  mBlockMod : ℚ := 0
  mRunSpeedMod : ℚ := 0
  mRegenHealthMod : ℚ := 0
  mAttackSpeedMod : ℚ := 0
  mCastSpeedMod : ℚ := 0
  mHealingMod : ℚ := 0
  mValue : Int := 0
  mValueType : Int := 0
  resultItemId : Int := 0
  keyComponentId : Int := 0
  numberOfItems : Nat := 0
  craftItemDefId : List Int := []
  mFlavorText : Text := []
  mSpecialItemType : Int := 0
  mOwnershipRestriction : Int := 0
  mQualityLevel : Int := 0
  mMinUseLevel : Int := 0
  params : Text := []

def ItemType.WEAPON : Int := 2
def ItemType.ARMOR : Int := 3
def ItemEquipType.ARMOR_SHIELD : Int := 7
def ArmorType.SHIELD : Int := 5

/-- The stat of a field: the first column of `mapping`. -/
def BonusField.stat : BonusField → Text
  | mBonusStrength => "strength".toList
  | mBonusDexterity => "dexterity".toList
  | mBonusConstitution => "constitution".toList
  | mBonusPsyche => "psyche".toList
  | mBonusSpirit => "spirit".toList
  | mArmorResistMelee => "damage_resist_melee".toList
  | mArmorResistFire => "damage_resist_fire".toList
  | mArmorResistFrost => "damage_resist_frost".toList
  | mArmorResistMystic => "damage_resist_mystic".toList
  | mArmorResistDeath => "damage_resist_death".toList

/-- The second column of `mapping`. -/
def bonusFields : List BonusField :=
  [.mBonusStrength, .mBonusDexterity, .mBonusConstitution, .mBonusPsyche, .mBonusSpirit,
    .mArmorResistMelee, .mArmorResistFire, .mArmorResistFrost, .mArmorResistMystic,
    .mArmorResistDeath]

/-- `TransformStandardMappings`. -/
def transformStandardMappings (search : Text) : Option BonusField :=
  bonusFields.find? (·.stat = search)

namespace ItemDef

variable (d : ItemDef)

/-- `ApplyStat`: the mapped field is overwritten. -/
def applyStat (key value : Text) : ItemDef :=
  match transformStandardMappings key with
  | some field => { d with bonus := Function.update d.bonus field (atoi value) }
  | none => d

/-- What `ApplyModString` does with a pair. -/
def applyPair (pair : Text × Text) : ItemDef :=
  let d :=
    if pair.1 = "value".toList then { d with mValue := atoi pair.2 }
    else if pair.1 = "wmin".toList then { d with mWeaponDamageMin := atoi pair.2 }
    else if pair.1 = "wmax".toList then { d with mWeaponDamageMax := atoi pair.2 }
    else d
  d.applyStat pair.1 pair.2

/-- `UpdateArmorType`. -/
def updateArmorType : ItemDef :=
  let d := if d.mWeaponType = 0 then { d with mArmorType := 1 } else d
  if d.mEquipType = ItemEquipType.ARMOR_SHIELD then { d with mArmorType := ArmorType.SHIELD } else d

end ItemDef

/-! ### The text about an item -/

/-- The lines about modifiers: the sign, whether the amount is in tenths, and the words. -/
def flavorTable : List (String × String × Bool × String) :=
  [("mod_melee_to_crit", "+", true, "% Physical Critical Chance"),
    ("mod_magic_to_crit", "+", true, "% Magic Critical Chance"),
    ("base_block", "+", true, "% Block Chance"), ("base_parry", "+", true, "% Parry Chance"),
    ("base_dodge", "+", true, "% Dodge Chance"), ("mod_movement", "+", false, "% Movement Speed"),
    ("experience_gain_rate", "+", false, "% Experience Gain"),
    ("melee_attack_speed", "+", true, "% Increased Attack Speed"),
    ("magic_attack_speed", "+", true, "% Increased Cast Rate"),
    ("dmg_mod_fire", "+", true, "% Fire Specialization"),
    ("dmg_mod_frost", "+", true, "% Frost Specialization"),
    ("dmg_mod_mystic", "+", true, "% Mystic Specialization"),
    ("dmg_mod_death", "+", true, "% Death Specialization"),
    ("base_healing", "+", true, "% Healing Specialization"),
    ("casting_setback_chance", "", true, "% Casting Setback Chance"),
    ("channeling_break_chance", "", true, "% Channel Break Chance"),
    ("mod_health_regen", "+", false, " Hitpoint Regeneration")]

/-- `FLAVOR_TEXT_HEADER`. -/
def FLAVOR_TEXT_HEADER : Text := "</b></i><font size=\"16\"><b>".toList

/-- `FLAVOR_TEXT_FOOTER`. -/
def FLAVOR_TEXT_FOOTER : Text := "</b></font>".toList

/-- The line about a modifier, if there is one. -/
def flavorLine (key : Text) (value : Int) : Option Text :=
  (flavorTable.find? (·.1.toList = key)).map fun (_, sign, tenths, words) =>
    sign.toList ++
      (if tenths then Double.format (.finite (Single.round (Single.round value / 10)))
       else printInt value) ++ words.toList

/-- The text that `GenerateFlavorText` makes. -/
def flavorText (mModString mFlavorText : Text) : Text :=
  FLAVOR_TEXT_HEADER ++
    (pairsOf mModString).foldl (fun text pair =>
      match flavorLine pair.1 (atoi pair.2) with
      | some line => (if text = [] then [] else text ++ "<br>".toList) ++ line
      | none => text) mFlavorText ++
    FLAVOR_TEXT_FOOTER

end VirtualItem

/-- `VirtualItem`. -/
structure VirtualItem where
  mStandardDef : VirtualItem.ItemDef := {}
  mModString : Text := []

namespace VirtualItem

section Fill

variable (item : VirtualItem)

/-- `UpdateArmorType`. -/
def updateArmorType : VirtualItem :=
  { item with mStandardDef := item.mStandardDef.updateArmorType }

/-- `ApplyModString`. -/
def applyModString : VirtualItem :=
  { item with
    mStandardDef := (pairsOf item.mModString).foldl ItemDef.applyPair item.mStandardDef }

/-- `CheckNameMods`. -/
def checkNameMods (names : Names) : VirtualItem :=
  { item with
    mStandardDef.mDisplayName :=
      names.checkNameMods item.mModString item.mStandardDef.mDisplayName }

/-- `GenerateFlavorText`. -/
def generateFlavorText : VirtualItem :=
  { item with
    mStandardDef.mFlavorText := flavorText item.mModString item.mStandardDef.mFlavorText }

end Fill

/-! ### The stored definition -/

/-- `VirtualItemDef`. -/
structure VirtualItemDef where
  mID : Int := 0
  mType : Int := 0
  mEquipType : Int := 0
  mWeaponType : Int := 0
  mValue : Int := 0
  mLevel : Int := 0
  mQualityLevel : Int := 0
  mDisplayName : Text := []
  mIcon : Text := []
  mAppearance : Text := []
  mModString : Text := []

namespace VirtualItemDef

/-- `EntityKeys`. -/
def entityKey (id : Int) : EntityKey where
  mCatalog := "VirtualItem"
  mID := String.ofList (printInt id)

/-- `WriteEntity`. -/
def writeEntity (vid : VirtualItemDef) : ClusterEntityWriter :=
  ClusterEntityWriter.mk (entityKey vid.mID) "" []
  |>.valueInt "mID" vid.mID
  |>.valueInt "mType" vid.mType
  |>.valueInt "mEquipType" vid.mEquipType
  |>.valueInt "mWeaponType" vid.mWeaponType
  |>.valueInt "mValue" vid.mValue
  |>.valueInt "mLevel" vid.mLevel
  |>.valueInt "mQualityLevel" vid.mQualityLevel
  |>.value "mDisplayName" vid.mDisplayName
  |>.value "mIcon" vid.mIcon
  |>.value "mAppearance" vid.mAppearance
  |>.value "mods" vid.mModString

/-- `ReadEntity`. -/
def readEntity (rd : ClusterEntityReader) (client : Client) : Option VirtualItemDef :=
  if rd.doesExist client then
    some
      { mID := rd.valueInt client "mID"
        mType := wrap8 (rd.valueInt client "mType")
        mEquipType := wrap8 (rd.valueInt client "mEquipType")
        mWeaponType := wrap8 (rd.valueInt client "mWeaponType")
        mValue := rd.valueInt client "mValue"
        mLevel := wrap16 (rd.valueInt client "mLevel")
        mQualityLevel := wrap8 (rd.valueInt client "mQualityLevel")
        mDisplayName := rd.value client "mDisplayName" []
        mIcon := rd.value client "mIcon" []
        mAppearance := rd.value client "mAppearance" []
        mModString := rd.value client "mods" [] }
  else none

/-- The values that are stored. -/
def ofItem (item : VirtualItem) : VirtualItemDef where
  mID := item.mStandardDef.mID
  mLevel := item.mStandardDef.mLevel
  mQualityLevel := item.mStandardDef.mQualityLevel
  mEquipType := item.mStandardDef.mEquipType
  mWeaponType := item.mStandardDef.mWeaponType
  mValue := item.mStandardDef.mValue
  mType := item.mStandardDef.mType
  mDisplayName := item.mStandardDef.mDisplayName
  mIcon := item.mStandardDef.mIcon
  mAppearance := item.mStandardDef.mAppearance
  mModString := item.mModString

end VirtualItemDef

/-! ### The items in memory -/

/-- The tables that items are made from. -/
structure ItemTables extends ModSystem where
  equipTemplate : List EquipTemplate
  equipAppearance : List EquipAppearanceKey
  equipIconAppearance : List EquipAppearanceKey
  names : Names

/-- `GetTemplate`. -/
def ItemTables.getTemplate (g : ItemTables) (equipType weaponType : Int) : Option EquipTemplate :=
  g.equipTemplate.find? fun t => t.mEquipType = equipType ∧ t.mWeaponType = weaponType

section Make

variable (g : ItemTables) (numbers : RandomNumbers) (level rarity : Int)

/-- The modifiers that the tables of a template give to a new item. -/
def rollMods (eqTemplate : EquipTemplate) : Draw Text := do
  let mModString ← applyIntrinsicTables g.toModSystem numbers level rarity eqTemplate []
  applyRandomTables g.toModSystem numbers level rarity eqTemplate mModString

/-- The values of a new item that are not drawn. -/
def givenDef (id equipType weaponType : Int) : ItemDef :=
  { mType := if 0 < weaponType then ItemType.WEAPON else ItemType.ARMOR
    mID := id
    mLevel := wrap16 level
    mMinUseLevel := wrap16 level
    mQualityLevel := wrap8 rarity
    mEquipType := wrap8 equipType
    mWeaponType := if weaponType ≠ 0 then wrap8 weaponType else 0 }

/-- A new item with its modifiers, as drawn for its look, its icon and its name. -/
def dress (equipType weaponType : Int) (item : VirtualItem) : Draw VirtualItem := do
  let app ← getRandomString numbers rarity (searchEntries g.equipAppearance equipType weaponType)
  let mAppearance := app.getD []
  let asset := getAppearanceAsset mAppearance
  let icon ← getRandomString numbers rarity
    (searchEntriesWithAsset g.equipIconAppearance equipType weaponType asset)
  let mDisplayName ← retrieveName numbers g.names.nameTemplate equipType weaponType asset
  pure { item with
    mStandardDef.mAppearance := mAppearance
    mStandardDef.mIcon := iconOf rarity icon
    mStandardDef.mDisplayName := mDisplayName }

/-- `InstantiateNew`: the item, and the cluster with its definition. -/
def instantiateNew (id equipType weaponType : Int) (client : Client) :
    Draw (VirtualItem × Client) :=
  match g.getTemplate equipType weaponType with
  | none => pure ({}, client)
  | some eqTemplate => do
      let mModString ← rollMods g numbers level rarity eqTemplate
      let item : VirtualItem :=
        { mStandardDef := givenDef level rarity id equipType weaponType, mModString }
      let item ← dress g numbers rarity equipType weaponType item.updateArmorType
      let item := ((item.applyModString).checkNameMods g.names).generateFlavorText
      pure (item, (VirtualItemDef.ofItem item).writeEntity.finish client)

end Make

/-- `ExpandVirtualItem`, up to the item that it inserts. -/
def expandVirtualItem (vid : VirtualItemDef) : VirtualItem :=
  let item : VirtualItem :=
    { mStandardDef :=
        { mID := vid.mID
          mType := vid.mType
          mLevel := vid.mLevel
          mMinUseLevel := vid.mLevel
          mQualityLevel := vid.mQualityLevel
          mEquipType := vid.mEquipType
          mWeaponType := vid.mWeaponType
          mDisplayName := vid.mDisplayName
          mIcon := vid.mIcon
          mAppearance := vid.mAppearance }
      mModString := vid.mModString }
  ((item.updateArmorType).applyModString).generateFlavorText

/-- `VItemList.insert`: an item that is there stays. -/
def insertItem (vItemList : List (Int × VirtualItem)) (id : Int) (item : VirtualItem) :
    List (Int × VirtualItem) :=
  if (vItemList.lookup id).isSome then vItemList else vItemList ++ [(id, item)]

/-- `LoadVirtualItemWithID`. -/
def loadVirtualItemWithID (client : Client) (vItemList : List (Int × VirtualItem)) (itemID : Int) :
    List (Int × VirtualItem) :=
  match VirtualItemDef.readEntity { key := VirtualItemDef.entityKey itemID } client with
  | none => vItemList
  | some vid => insertItem vItemList vid.mID (expandVirtualItem vid)

/-- The virtual items of `ItemManager`, with the cluster and its counter for new items. -/
structure ItemManager where
  vItemList : List (Int × VirtualItem) := []
  client : Client := {}
  nextVirtualItemID : Int := 0
  fresh : ∀ entry ∈ vItemList, entry.1 ≤ nextVirtualItemID

/-- The parameters of `VirtualItemSpawnParams` that a new item takes. -/
structure SpawnParams where
  level : Int
  mEquipType : Int
  mWeaponType : Int

theorem mem_insertItem {vItemList : List (Int × VirtualItem)} {id : Int} {item : VirtualItem}
    {entry : Int × VirtualItem} (h : entry ∈ insertItem vItemList id item) :
    entry ∈ vItemList ∨ entry = (id, item) := by
  rw [insertItem] at h
  split at h
  · exact .inl h
  · rwa [List.mem_append, List.mem_singleton] at h

/-- A new item is put into the list. -/
def ItemManager.insertNew (mgr : ItemManager) (item : VirtualItem) (client : Client) :
    ItemManager where
  vItemList := insertItem mgr.vItemList (mgr.nextVirtualItemID + 1) item
  client := client
  nextVirtualItemID := mgr.nextVirtualItemID + 1
  fresh entry hentry := by
    rcases mem_insertItem hentry with hold | rfl
    · exact (mgr.fresh entry hold).trans (Int.le_add_one le_rfl)
    · exact le_rfl

/-- `CreateNewVirtualItem`. -/
def createNewVirtualItem (g : ItemTables) (numbers : RandomNumbers) (rarity : Int)
    (viParams : SpawnParams) (mgr : ItemManager) : Draw (Int × ItemManager) := do
  let id := mgr.nextVirtualItemID + 1
  let (item, client) ← instantiateNew g numbers viParams.level rarity id viParams.mEquipType
    viParams.mWeaponType mgr.client
  pure (id, mgr.insertNew item client)

/-! ### What is stored is read -/

theorem strings_writeEntity (vid : VirtualItemDef) :
    vid.writeEntity.mStringValues =
      [⟨"", "mID", printInt vid.mID⟩, ⟨"", "mType", printInt vid.mType⟩,
        ⟨"", "mEquipType", printInt vid.mEquipType⟩,
        ⟨"", "mWeaponType", printInt vid.mWeaponType⟩, ⟨"", "mValue", printInt vid.mValue⟩,
        ⟨"", "mLevel", printInt vid.mLevel⟩, ⟨"", "mQualityLevel", printInt vid.mQualityLevel⟩,
        ⟨"", "mDisplayName", vid.mDisplayName⟩, ⟨"", "mIcon", vid.mIcon⟩,
        ⟨"", "mAppearance", vid.mAppearance⟩, ⟨"", "mods", vid.mModString⟩] := rfl

theorem field_writeEntity (vid : VirtualItemDef) (client : Client) {key : String} {value : Text}
    (h : valueOf vid.writeEntity.mStringValues "" key = some value) :
    (vid.writeEntity.finish client).field ((VirtualItemDef.entityKey vid.mID).sectionKey "") key =
      some value := by
  have hsec : ∃ v ∈ vid.writeEntity.mStringValues,
      EntityKey.sectionName v.sec = EntityKey.sectionName "" := ⟨_, List.mem_cons_self, rfl⟩
  have hfield := @ClusterEntityWriter.field_finish_of_mem (VirtualItemDef.entityKey vid.mID) _
    client "" _ hsec key
  rw [h, Option.some_or] at hfield
  exact hfield

/-- The numbers of a definition are in the ranges of their types. -/
structure VirtualItemDef.InRange (vid : VirtualItemDef) : Prop where
  mType : wrap8 vid.mType = vid.mType
  mEquipType : wrap8 vid.mEquipType = vid.mEquipType
  mWeaponType : wrap8 vid.mWeaponType = vid.mWeaponType
  mLevel : wrap16 vid.mLevel = vid.mLevel
  mQualityLevel : wrap8 vid.mQualityLevel = vid.mQualityLevel

/-- A definition is read as it was written, whatever the cluster held before. -/
theorem readEntity_writeEntity {vid : VirtualItemDef} (h : vid.InRange) (client : Client) :
    VirtualItemDef.readEntity { key := VirtualItemDef.entityKey vid.mID }
      (vid.writeEntity.finish client) = some vid := by
  generalize hclient : vid.writeEntity.finish client = client'
  generalize hrd : (⟨VirtualItemDef.entityKey vid.mID, "", []⟩ : ClusterEntityReader) = rd
  have hvalue (key : String) (value d : Text)
      (hkey : valueOf vid.writeEntity.mStringValues "" key = some value) :
      rd.value client' key d = value := by
    rw [← hrd, ← hclient, ClusterEntityReader.value_eq (ClusterEntityReader.fresh_new _ _ _),
      field_writeEntity vid client hkey]
    rfl
  have hint (key : String) (i : Int)
      (hkey : valueOf vid.writeEntity.mStringValues "" key = some (printInt i)) :
      rd.valueInt client' key = i := by
    rw [ClusterEntityReader.valueInt, hvalue key _ _ hkey, parseInt_printInt]
  have hexists : rd.doesExist client' = true := by
    have hfield := field_writeEntity vid client
      (show valueOf vid.writeEntity.mStringValues "" "mID" = some (printInt vid.mID) by
        simp [strings_writeEntity, valueOf_cons, valueOf_nil])
    rw [hclient, ← Redis.lookup_hgetall] at hfield
    rw [← hrd, ClusterEntityReader.doesExist, Bool.not_eq_true', List.isEmpty_eq_false_iff]
    intro hempty
    rw [hempty] at hfield
    cases hfield
  rw [VirtualItemDef.readEntity, if_pos hexists]
  rw [hint "mID" vid.mID, hint "mType" vid.mType, hint "mEquipType" vid.mEquipType,
    hint "mWeaponType" vid.mWeaponType, hint "mValue" vid.mValue, hint "mLevel" vid.mLevel,
    hint "mQualityLevel" vid.mQualityLevel, hvalue "mDisplayName" vid.mDisplayName,
    hvalue "mIcon" vid.mIcon, hvalue "mAppearance" vid.mAppearance, hvalue "mods" vid.mModString,
    h.mType, h.mEquipType, h.mWeaponType, h.mLevel, h.mQualityLevel]
  all_goals simp [strings_writeEntity, valueOf_cons, valueOf_nil]

end VirtualItem

end Iceee
