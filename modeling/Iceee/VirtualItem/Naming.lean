import Iceee.Lib.DoubleText
import Iceee.VirtualItem.ModString
import Iceee.VirtualItem.ShareTables

/-!
# The look and the name of a virtual item

The look and the icon are drawn from lists for the type of equipment, the name from a template, with
words in front and behind for the stats that weigh most.

## Implementation notes

`std::sort` leaves the order of equal values open: it is a parameter that returns the same values in
some order.
-/

namespace Iceee.VirtualItem

open Lib Draw Util

/-! ### Looks and icons -/

structure EquipAppearanceKey where
  mEquipType : Int
  mWeaponType : Int
  mQualityLevel : Int
  asset : Text
  dataList : List Text

/-- `SearchEntries`. -/
def searchEntries (dataEntry : List EquipAppearanceKey) (equipType weaponType : Int) :
    List EquipAppearanceKey :=
  dataEntry.filter fun key => key.mEquipType = equipType ∧ key.mWeaponType = weaponType

/-- `SearchEntriesWithAsset`. -/
def searchEntriesWithAsset (dataEntry : List EquipAppearanceKey) (equipType weaponType : Int)
    (asset : Text) : List EquipAppearanceKey :=
  (searchEntries dataEntry equipType weaponType).filter fun key => key.asset = asset

/-- The loop of `GetRandomString`, for a rarity and those below it. -/
def randomStringBelow (numbers : RandomNumbers) (results : List EquipAppearanceKey) :
    Nat → Draw (Option Text)
  | 0 => pure none
  | rarity + 1 =>
      match results.find? fun key => key.mQualityLevel = (rarity : Int) ∧ key.dataList ≠ [] with
      | some key => some <$> pick numbers key.dataList
      | none => randomStringBelow numbers results rarity

/-- `GetRandomString`. -/
def getRandomString (numbers : RandomNumbers) (preferredRarity : Int)
    (results : List EquipAppearanceKey) : Draw (Option Text) :=
  randomStringBelow numbers results (preferredRarity + 1).toNat

/-- `GetAppearanceAsset`: what stands in quotes behind `["type"]=`. -/
def getAppearanceAsset (mAppearance : Text) : Text :=
  match find "[\"type\"]=\"".toList mAppearance with
  | none => []
  | some pos => (mAppearance.drop (pos + 10)).takeWhile fun c => [c] ≠ "\"".toList

/-- The icon with its background. -/
def iconOf (rarity : Int) : Option Text → Text
  | none => "Icon/QuestionMark|Icon-32-BG-Black.png".toList
  | some icon =>
      if icon = [] then []
      else icon ++
        if rarity = 2 then "|Icon-32-BG-Green.png".toList
        else if rarity = 3 then "|Icon-32-BG-Aqua.png".toList
        else if rarity = 4 then "|Icon-32-BG-Purple.png".toList
        else if rarity = 5 then "|Icon-32-BG-Yellow.png".toList
        else if rarity = 6 then "|Icon-32-BG-Red.png".toList
        else "|Icon-32-BG-Black.png".toList

/-! ### Names -/

/-- The default names of armor, by `mEquipType`. -/
def armorNames : List (Int × String) :=
  [(7, "Shield"), (8, "Helmet"), (9, "Collar"), (10, "Shoulderpads"), (11, "Vest"),
    (12, "Sleeves"), (13, "Gloves"), (14, "Belt"), (15, "Leggings"), (16, "Boots"), (17, "Ring"),
    (19, "Amulet")]

/-- The default names of weapons, by a part of the asset. -/
def weaponNames : List (String × String) :=
  [("Wand", "Wand"), ("Talisman", "Talisman"), ("Staff", "Staff"), ("Spear", "Spear"),
    ("Katar", "Katar"), ("Dagger", "Dagger"), ("Claw", "Claw"), ("Dirk", "Dirk"), ("Bow", "Bow"),
    ("2hSword", "Sword"), ("2hMace", "Mace"), ("2hAxe", "2hAxe"), ("1hSword", "Sword"),
    ("1hMace", "Mace"), ("1hHammer", "Hammer"), ("1hAxe", "Axe"), ("Shuriken", "Shuriken"),
    ("Knife", "Knife"), ("Axe", "Axe"), ("Dart", "Dart")]

/-- `DEFAULT_NAME`. -/
def DEFAULT_NAME : Text := "UNKNOWN NAME".toList

/-- `GetDefaultName`. -/
def getDefaultName (mEquipType mWeaponType : Int) (asset : Text) : Text :=
  match armorNames.lookup mEquipType with
  | some name => name.toList
  | none =>
      if 0 < mWeaponType then
        match weaponNames.find? fun entry => (find entry.1.toList asset).isSome with
        | some entry => entry.2.toList
        | none => DEFAULT_NAME
      else DEFAULT_NAME

/-- `RetrieveName`. -/
def retrieveName (numbers : RandomNumbers) (nameTemplate : List NameTemplate)
    (mEquipType mWeaponType : Int) (asset : Text) : Draw Text :=
  match nameTemplate.find? fun t =>
    t.mEquipType = mEquipType ∧ t.mWeaponType = mWeaponType ∧ t.assetName = asset with
  | some t => do
      let result ← t.getRandomName numbers
      pure (result.getD (getDefaultName mEquipType mWeaponType asset))
  | none => pure (getDefaultName mEquipType mWeaponType asset)

/-! ### Words for the stats -/

def TYPE_NONE : Int := 0
def TYPE_PREFIX : Int := 1
def TYPE_SUFFIX : Int := 2

structure NameModEntry where
  mType : Int := TYPE_NONE
  mStatBase : Text
  mName : Text

/-- `fieldCompare`. -/
structure FieldCompare where
  name : Text
  value : Double

/-- A `float`. -/
def toFloat : Double → Double
  | .finite q => if 2 ^ 128 ≤ |Single.round q| then .infinite (q < 0) else .finite (Single.round q)
  | x => x

/-- The tables of names. -/
structure Names where
  nameTemplate : List NameTemplate := []
  mModList : List NameModEntry := []
  mWeightList : List (Text × Double) := []
  sort : List FieldCompare → List FieldCompare
  sort_perm : ∀ values, (sort values).Perm values

namespace Names

variable (names : Names)

/-- `GetWeightForName`. -/
def getWeightForName (statName : Text) : Double :=
  (names.mWeightList.lookup statName).getD (.finite 0)

/-- `ResolveModifiers`: the words for the two stats, and one word for both if there is such. -/
def resolveModifiers (firstStat : Text) (secondStat : Option Text) :
    List NameModEntry → Option NameModEntry → Option NameModEntry →
      Option NameModEntry × Option NameModEntry
  | [], first, second => (first, second)
  | entry :: rest, first, second =>
      match split entry.mStatBase ['|'] with
      | [stat] =>
          resolveModifiers firstStat secondStat rest
            (if stat = firstStat ∧ entry.mType = TYPE_PREFIX then some entry else first)
            (if entry.mType = TYPE_SUFFIX ∧ secondStat = some stat then some entry else second)
      | stat :: other :: _ =>
          if [stat, other].all fun stat => stat = firstStat ∨ secondStat = some stat then
            if secondStat.isSome then (some entry, none)
            else resolveModifiers firstStat secondStat rest first second
          else resolveModifiers firstStat secondStat rest first second
      | [] => resolveModifiers firstStat secondStat rest first second

/-- `ApplyNameMod`. -/
def applyNameMod (mod : Option NameModEntry) (mDisplayName : Text) : Text :=
  match mod with
  | none => mDisplayName
  | some mod =>
      let result :=
        if mod.mType = TYPE_PREFIX then mod.mName ++ [' '] ++ mDisplayName
        else if mod.mType = TYPE_SUFFIX then mDisplayName ++ [' '] ++ mod.mName
        else []
      if result = [] then mDisplayName else result

/-- `CheckNameMods`: the name with the words for the stats. -/
def checkNameMods (mModString mDisplayName : Text) : Text :=
  let values := (pairsOf (mergeStats mModString [])).map fun pair =>
    { name := pair.1
      value := toFloat (toFloat (Double.atof pair.2)
        |>.mul (names.getWeightForName pair.1)) : FieldCompare }
  match names.sort values with
  | [] => mDisplayName
  | first :: rest =>
      let mods := resolveModifiers first.name (rest.head?.map FieldCompare.name) names.mModList
        none none
      applyNameMod mods.2 (applyNameMod mods.1 mDisplayName)

end Names

end Iceee.VirtualItem
