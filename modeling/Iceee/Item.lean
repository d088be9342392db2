import Mathlib

/-!
# Item definitions

The part of an item definition that inventories, trades, auctions and loot read.
A code that an item file may hold outside the named values is kept in `other`.
-/

namespace Iceee

inductive ItemType
  | unknown | system | weapon | armor | charm | consumable | container | basic
  | special | quest | recipe | prop | other (code : Int)
  deriving DecidableEq, Repr

inductive ItemIntegerType
  | none | stacking | durability | charges | capacity | questId | resultItem | keyComponent
  | requireRolling | lifetime | bonusValue | bookPage | book | bookMaterial | other (code : Int)
  deriving DecidableEq, Repr

inductive ItemEquipType
  | none | weapon1H | weapon1HUnique | weapon1HMain | weapon1HOff | weapon2H | weaponRanged
  | armorShield | armorHead | armorNeck | armorShoulder | armorChest | armorArms | armorHands
  | armorWaist | armorLegs | armorFeet | armorRing | armorRingUnique | armorAmulet
  | focusFire | focusFrost | focusMystic | focusDeath | container
  | cosmeticShoulder | cosmeticHip
  | redCharm | greenCharm | blueCharm | orangeCharm | yellowCharm | purpleCharm
  | other (code : Int)
  deriving DecidableEq, Repr

inductive WeaponType
  | none | small | oneHand | twoHand | pole | wand | bow | thrown | arcaneTotem
  | other (code : Int)
  deriving DecidableEq, Repr

inductive ItemBindingType
  | never | onPickup | onEquip | other (code : Int)
  deriving DecidableEq, Repr

inductive SpecialItemType
  | none | reagentGenerator | itemGrinder | xpBoost | portableRefashioner | portableCraftkit
  | other (code : Int)
  deriving DecidableEq, Repr

/-! The slots of the equipment screen that the code names. -/

namespace ItemEquipSlot

def weaponMainHand : Int := 0
def weaponOffHand : Int := 1
def armorHead : Int := 3
def armorNeck : Int := 4
def armorShoulder : Int := 5
def armorChest : Int := 6
def armorArms : Int := 7
def armorHands : Int := 8
def armorWaist : Int := 9
def armorLegs : Int := 10
def armorFeet : Int := 11
def armorAmulet : Int := 14
def redCharm : Int := 27
def greenCharm : Int := 28
def blueCharm : Int := 29
def orangeCharm : Int := 30
def yellowCharm : Int := 31
def purpleCharm : Int := 32
def none : Int := -1

end ItemEquipSlot

structure ItemDef where
  mID : Int
  mType : ItemType := .unknown
  mIvType1 : ItemIntegerType := .none
  mIvMax1 : Int := 0
  mIvType2 : ItemIntegerType := .none
  mIvMax2 : Int := 0
  mContainerSlots : Int := 0
  mBindingType : ItemBindingType := .never
  mEquipType : ItemEquipType := .none
  mWeaponType : WeaponType := .none
  mValue : Int := 0
  mSpecialItemType : SpecialItemType := .none
  mOwnershipRestriction : Int := 0
  mQualityLevel : Int := 0
  mMinUseLevel : Int := 0
  deriving DecidableEq, Repr

/-- The loaded item tables. They are keyed by the ID stored in the definition, so a
lookup returns a definition with the ID asked for. -/
structure ItemManager where
  getPointerByID : Int → Option ItemDef
  mID_eq : ∀ {id d}, getPointerByID id = some d → d.mID = id

namespace ItemManager

/-- The tables holding exactly the listed definitions; an earlier entry wins. -/
def ofList (defs : List ItemDef) : ItemManager where
  getPointerByID id := defs.find? fun d => d.mID == id
  mID_eq h := by simpa using List.find?_some h

/-- `GetSafePointerByID` falls back to entry 0, which the lookup itself creates. -/
def getSafePointerByID (im : ItemManager) (id : Int) : ItemDef :=
  (im.getPointerByID id).getD ((im.getPointerByID 0).getD { mID := 0 })

/-- `ItemManager::IsWeaponTwoHanded`. -/
def isWeaponTwoHanded (mEquipType : ItemEquipType) (mWeaponType : WeaponType) : Bool :=
  mEquipType == .weapon2H || mWeaponType == .pole || mWeaponType == .twoHand

end ItemManager

/-- `ItemDef::GetDynamicMax`: the maximum attached to an integer type, or -1. -/
def ItemDef.getDynamicMax (d : ItemDef) (type : ItemIntegerType) : Int :=
  if d.mIvType1 = type then d.mIvMax1
  else if d.mIvType2 = type then d.mIvMax2
  else -1

namespace WeaponTypeClassRestrictions

/-- One row of the restriction table: none, knight, rogue, mage, druid. -/
def restrictData : WeaponType → List Bool
  | .none => [false, false, false, false, false]
  | .small => [false, false, true, true, false]
  | .oneHand => [false, true, true, false, true]
  | .twoHand => [false, true, false, false, false]
  | .pole => [false, false, false, true, true]
  | .wand => [false, false, false, true, true]
  | .bow => [false, true, true, false, true]
  | .thrown => [false, true, true, true, false]
  | .arcaneTotem => [false, true, true, true, true]
  | .other _ => []

/-- `WeaponTypeClassRestrictions::isValid`; both indices are range checked. -/
def isValid (weaponType : WeaponType) (profession : Int) : Bool :=
  if profession < 0 then false
  else ((restrictData weaponType)[profession.toNat]?).getD false

end WeaponTypeClassRestrictions

/-- The number of containers an inventory has. -/
abbrev maxContainer : Nat := 11

/-- An index into the container array. -/
abbrev ContainerID := Fin maxContainer

def invContainer : ContainerID := 0
def eqContainer : ContainerID := 1
def bankContainer : ContainerID := 2
def buybackContainer : ContainerID := 4
def stampsContainer : ContainerID := 7
def deliveryContainer : ContainerID := 8
def auctionContainer : ContainerID := 9
def bookshelfContainer : ContainerID := 10

/-- `INV_BASESLOTS`. -/
def invBaseSlots : Int := 24

/-- `POSTAGE_STAMP_ITEM_ID`. -/
def postageStampItemId : Int := 8400

/-- The name table of the containers, in the order the lookup scans it. -/
def inventoryMapping : List (String × ContainerID) :=
  [("inv", 0), ("inventory", 0), ("eq", 1), ("eq_head", 1), ("bank", 2), ("shop", 3),
    ("buyback", 4), ("trade", 5), ("stamps", 7), ("delivery", 8), ("auction", 9),
    ("bookshelf", 10)]

/-- `GetContainerIDFromName`; `none` stands for the returned -1. -/
def getContainerIDFromName (name : String) : Option ContainerID :=
  (inventoryMapping.find? fun entry => entry.1 == name).map Prod.snd

end Iceee
