import Iceee.Lib.SingleBits

/-!
# The table of the stats

The stats of a character are members of `CharacterStatSet`. A table has the type that a stat is read
and written with, which need not be the type of its member: the health is an `int` that is a `short`
for clients.

## Main results

* `fits`: every stat of the table is read with a type that its member allows.
* `getStatIndex_ID`: an ID is found at its own place.
-/

namespace Iceee.Stats

open Lib

/-! ### Members -/

/-- `StatType`. -/
inductive StatType where
  | SHORT | INTEGER | FLOAT | CSTRING | STRING
  deriving DecidableEq, Repr

/-- The type of a member; an array has its size. -/
inductive Member where
  | short
  | int
  | float
  | chars (size : ℕ)
  | string
  deriving DecidableEq, Repr

/-- The character that ends a text in memory. -/
def NUL : Char := '\x00'

/-- A text as `strlen` and `strcmp` see it. -/
def cstr (t : Text) : Text := t.takeWhile (· ≠ NUL)

/-- An array of characters with a NUL in it. -/
structure CharArray (size : ℕ) where
  data : Text
  length_eq : data.length = size
  nul_mem : NUL ∈ data

namespace CharArray

variable {size : ℕ}

theorem size_pos (a : CharArray size) : 0 < size :=
  a.length_eq ▸ List.length_pos_of_mem a.nul_mem

variable (a : CharArray size)

def text : Text := cstr a.data

/-- As much of a text as fits is copied in, and a NUL behind it. -/
def copyIn (value : Text) : CharArray size where
  data := value.take (size - 1) ++ NUL :: a.data.drop (min (size - 1) value.length + 1)
  length_eq := by
    have hpos := a.size_pos
    rw [List.length_append, List.length_take, List.length_cons, List.length_drop, a.length_eq]
    omega
  nul_mem := by simp

/-- `memset` with zeros. -/
def zeroed : CharArray size where
  data := List.replicate size NUL
  length_eq := List.length_replicate
  nul_mem := List.mem_replicate.mpr ⟨a.size_pos.ne', rfl⟩

end CharArray

/-- What a member of a type holds. -/
def Member.Cell : Member → Type
  | short => BitVec 16
  | int => BitVec 32
  | float => Single
  | chars size => CharArray size
  | string => Text

/-- The types that a member is read with: its own and, for an `int`, that of its lower half. -/
inductive Fits : StatType → Member → Prop where
  | short : Fits .SHORT .short
  | lowerHalf : Fits .SHORT .int
  | integer : Fits .INTEGER .int
  | float : Fits .FLOAT .float
  | cstring {size : ℕ} (h : 12 ≤ size) : Fits .CSTRING (.chars size)
  | string : Fits .STRING .string

instance : (t : StatType) → (m : Member) → Decidable (Fits t m)
  | .SHORT, .short => isTrue .short
  | .SHORT, .int => isTrue .lowerHalf
  | .INTEGER, .int => isTrue .integer
  | .FLOAT, .float => isTrue .float
  | .CSTRING, .chars size =>
      if h : 12 ≤ size then isTrue (.cstring h)
      else isFalse fun hfits => by cases hfits; contradiction
  | .STRING, .string => isTrue .string
  | .SHORT, .float | .SHORT, .chars _ | .SHORT, .string => isFalse nofun
  | .INTEGER, .short | .INTEGER, .float | .INTEGER, .chars _ | .INTEGER, .string => isFalse nofun
  | .FLOAT, .short | .FLOAT, .int | .FLOAT, .chars _ | .FLOAT, .string => isFalse nofun
  | .CSTRING, .short | .CSTRING, .int | .CSTRING, .float | .CSTRING, .string => isFalse nofun
  | .STRING, .short | .STRING, .int | .STRING, .float | .STRING, .chars _ => isFalse nofun

/-! ### The table -/

/-- `StatDefinition`; the name stands for the offset of the member, and the member has the size. -/
structure StatDefinition where
  ID : Int
  etype : StatType
  name : String
  member : Member
  updflag : BitVec 32

def SUT_None : BitVec 32 := 0x00
def SUT_Player : BitVec 32 := 0x01
def SUT_NonPlayer : BitVec 32 := 0x02
def SUT_Appearance : BitVec 32 := 0x04
def SUT_All : BitVec 32 := SUT_Player ||| SUT_NonPlayer

/-- `STAT::HEALTH`. -/
def STAT.HEALTH : Int := 80

/-- `StatList`. -/
def StatList : List StatDefinition :=
  [⟨0, .STRING, "appearance", .string, SUT_All ||| SUT_Appearance⟩,
    ⟨1, .STRING, "eq_appearance", .string, SUT_All ||| SUT_Appearance⟩,
    ⟨2, .SHORT, "level", .short, SUT_All⟩,
    ⟨3, .CSTRING, "display_name", .chars 64, SUT_All⟩,
    ⟨4, .SHORT, "strength", .short, SUT_All⟩,
    ⟨5, .SHORT, "dexterity", .short, SUT_All⟩,
    ⟨6, .SHORT, "constitution", .short, SUT_All⟩,
    ⟨7, .SHORT, "psyche", .short, SUT_All⟩,
    ⟨8, .SHORT, "spirit", .short, SUT_All⟩,
    ⟨30, .SHORT, "armor_rating", .short, SUT_None⟩,
    ⟨31, .SHORT, "melee_attack_speed", .short, SUT_All⟩,
    ⟨32, .SHORT, "magic_attack_speed", .short, SUT_All⟩,
    ⟨33, .SHORT, "base_damage_melee", .short, SUT_All⟩,
    ⟨34, .SHORT, "base_damage_fire", .short, SUT_All⟩,
    ⟨35, .SHORT, "base_damage_frost", .short, SUT_All⟩,
    ⟨36, .SHORT, "base_damage_mystic", .short, SUT_All⟩,
    ⟨37, .SHORT, "base_damage_death", .short, SUT_All⟩,
    ⟨38, .SHORT, "damage_resist_melee", .short, SUT_All⟩,
    ⟨39, .SHORT, "damage_resist_fire", .short, SUT_All⟩,
    ⟨40, .SHORT, "damage_resist_frost", .short, SUT_All⟩,
    ⟨41, .SHORT, "damage_resist_mystic", .short, SUT_All⟩,
    ⟨42, .SHORT, "damage_resist_death", .short, SUT_All⟩,
    ⟨43, .SHORT, "base_movement", .short, SUT_All⟩,
    ⟨44, .SHORT, "base_luck", .short, SUT_All⟩,
    ⟨45, .SHORT, "base_health", .short, SUT_All⟩,
    ⟨46, .SHORT, "will_max", .short, SUT_All⟩,
    ⟨47, .FLOAT, "will_regen", .float, SUT_All⟩,
    ⟨48, .SHORT, "might_max", .short, SUT_All⟩,
    ⟨49, .FLOAT, "might_regen", .float, SUT_All⟩,
    ⟨50, .SHORT, "base_dodge", .short, SUT_All⟩,
    ⟨51, .SHORT, "base_deflect", .short, SUT_All⟩,
    ⟨52, .SHORT, "base_parry", .short, SUT_All⟩,
    ⟨53, .SHORT, "base_block", .short, SUT_All⟩,
    ⟨54, .SHORT, "base_melee_to_hit", .short, SUT_All⟩,
    ⟨55, .SHORT, "base_melee_critical", .short, SUT_All⟩,
    ⟨56, .SHORT, "base_magic_success", .short, SUT_All⟩,
    ⟨57, .SHORT, "base_magic_critical", .short, SUT_All⟩,
    ⟨58, .SHORT, "offhand_weapon_damage", .short, SUT_All⟩,
    ⟨59, .SHORT, "casting_setback_chance", .short, SUT_All⟩,
    ⟨60, .SHORT, "channeling_break_chance", .short, SUT_All⟩,
    ⟨61, .SHORT, "base_healing", .short, SUT_All⟩,
    ⟨62, .SHORT, "aggro_radius_mod", .short, SUT_All⟩,
    ⟨63, .SHORT, "hate_gain_rate", .short, SUT_All⟩,
    ⟨64, .SHORT, "experience_gain_rate", .short, SUT_All⟩,
    ⟨65, .SHORT, "coin_gain_rate", .short, SUT_All⟩,
    ⟨66, .SHORT, "magic_loot_drop_rate", .short, SUT_All⟩,
    ⟨67, .SHORT, "inventory_capacity", .short, SUT_None⟩,
    ⟨69, .SHORT, "vis_weapon", .short, SUT_All⟩,
    ⟨70, .CSTRING, "sub_name", .chars 64, SUT_All⟩,
    ⟨71, .CSTRING, "alternate_idle_anim", .chars 32, SUT_None⟩,
    ⟨72, .CSTRING, "selective_eq_override", .chars 32, SUT_All⟩,
    ⟨80, .SHORT, "health", .int, SUT_All⟩,
    ⟨81, .SHORT, "will", .short, SUT_All⟩,
    ⟨82, .SHORT, "will_charges", .short, SUT_All⟩,
    ⟨83, .SHORT, "might", .short, SUT_All⟩,
    ⟨84, .SHORT, "might_charges", .short, SUT_All⟩,
    ⟨85, .SHORT, "size", .short, SUT_All⟩,
    ⟨86, .SHORT, "profession", .short, SUT_All⟩,
    ⟨87, .SHORT, "weapon_damage_2h", .short, SUT_All⟩,
    ⟨88, .SHORT, "weapon_damage_1h", .short, SUT_All⟩,
    ⟨89, .SHORT, "weapon_damage_pole", .short, SUT_All⟩,
    ⟨90, .SHORT, "weapon_damage_small", .short, SUT_All⟩,
    ⟨91, .SHORT, "weapon_damage_bow", .short, SUT_All⟩,
    ⟨92, .SHORT, "weapon_damage_thrown", .short, SUT_All⟩,
    ⟨93, .SHORT, "weapon_damage_wand", .short, SUT_All⟩,
    ⟨94, .SHORT, "extra_damage_fire", .short, SUT_All⟩,
    ⟨95, .SHORT, "extra_damage_frost", .short, SUT_None⟩,
    ⟨96, .SHORT, "extra_damage_mystic", .short, SUT_None⟩,
    ⟨97, .SHORT, "extra_damage_death", .short, SUT_None⟩,
    ⟨98, .STRING, "appearance_override", .string, SUT_All⟩,
    ⟨99, .FLOAT, "invisibility_distance", .float, SUT_None⟩,
    ⟨100, .STRING, "translocate_destination", .string, SUT_All⟩,
    ⟨101, .STRING, "lootable_player_ids", .string, SUT_All⟩,
    ⟨102, .SHORT, "master", .short, SUT_None⟩,
    ⟨103, .SHORT, "rez_pending", .short, SUT_None⟩,
    ⟨104, .STRING, "loot_seeable_player_ids", .string, SUT_All⟩,
    ⟨105, .CSTRING, "loot", .chars 64, SUT_None⟩,
    ⟨107, .CSTRING, "base_stats", .chars 64, SUT_All⟩,
    ⟨108, .SHORT, "health_mod", .short, SUT_All⟩,
    ⟨110, .SHORT, "heroism", .short, SUT_All⟩,
    ⟨111, .INTEGER, "experience", .int, SUT_All⟩,
    ⟨112, .SHORT, "total_ability_points", .short, SUT_All⟩,
    ⟨113, .SHORT, "current_ability_points", .short, SUT_All⟩,
    ⟨114, .INTEGER, "copper", .int, SUT_All⟩,
    ⟨115, .INTEGER, "credits", .int, SUT_All⟩,
    ⟨120, .CSTRING, "ai_module", .chars 64, SUT_All⟩,
    ⟨121, .CSTRING, "creature_category", .chars 32, SUT_All⟩,
    ⟨122, .SHORT, "rarity", .short, SUT_All⟩,
    ⟨123, .SHORT, "spawn_table_points", .short, SUT_None⟩,
    ⟨124, .CSTRING, "ai_package", .chars 64, SUT_All⟩,
    ⟨125, .SHORT, "bonus_health", .short, SUT_All⟩,
    ⟨126, .INTEGER, "dr_mod_melee", .int, SUT_All⟩,
    ⟨127, .INTEGER, "dr_mod_fire", .int, SUT_All⟩,
    ⟨128, .INTEGER, "dr_mod_frost", .int, SUT_All⟩,
    ⟨129, .INTEGER, "dr_mod_mystic", .int, SUT_All⟩,
    ⟨130, .INTEGER, "dr_mod_death", .int, SUT_All⟩,
    ⟨131, .INTEGER, "dmg_mod_melee", .int, SUT_All⟩,
    ⟨132, .INTEGER, "dmg_mod_fire", .int, SUT_All⟩,
    ⟨133, .INTEGER, "dmg_mod_frost", .int, SUT_All⟩,
    ⟨134, .INTEGER, "dmg_mod_mystic", .int, SUT_All⟩,
    ⟨135, .INTEGER, "dmg_mod_death", .int, SUT_All⟩,
    ⟨136, .SHORT, "pvp_team", .short, SUT_None⟩,
    ⟨137, .INTEGER, "pvp_kills", .int, SUT_None⟩,
    ⟨138, .INTEGER, "pvp_deaths", .int, SUT_None⟩,
    ⟨139, .CSTRING, "pvp_state", .chars 32, SUT_All⟩,
    ⟨140, .INTEGER, "pvp_flag_captures", .int, SUT_None⟩,
    ⟨141, .FLOAT, "mod_melee_to_hit", .float, SUT_None⟩,
    ⟨142, .FLOAT, "mod_melee_to_crit", .float, SUT_None⟩,
    ⟨143, .FLOAT, "mod_magic_to_hit", .float, SUT_None⟩,
    ⟨144, .FLOAT, "mod_magic_to_crit", .float, SUT_None⟩,
    ⟨145, .FLOAT, "mod_parry", .float, SUT_None⟩,
    ⟨146, .FLOAT, "mod_block", .float, SUT_None⟩,
    ⟨147, .INTEGER, "mod_movement", .int, SUT_All⟩,
    ⟨148, .FLOAT, "mod_health_regen", .float, SUT_None⟩,
    ⟨149, .FLOAT, "mod_attack_speed", .float, SUT_None⟩,
    ⟨150, .FLOAT, "mod_casting_speed", .float, SUT_All⟩,
    ⟨151, .FLOAT, "mod_healing", .float, SUT_None⟩,
    ⟨152, .FLOAT, "total_size", .float, SUT_All⟩,
    ⟨153, .SHORT, "aggro_players", .short, SUT_NonPlayer⟩,
    ⟨154, .FLOAT, "mod_luck", .float, SUT_None⟩,
    ⟨155, .FLOAT, "health_regen", .float, SUT_All⟩,
    ⟨156, .SHORT, "bleeding", .short, SUT_None⟩,
    ⟨157, .INTEGER, "damage_shield", .int, SUT_None⟩,
    ⟨158, .SHORT, "hide_nameboard", .short, SUT_All⟩,
    ⟨159, .SHORT, "hide_minimap", .short, SUT_All⟩,
    ⟨160, .SHORT, "credit_drops", .short, SUT_All⟩,
    ⟨161, .SHORT, "heroism_gain_rate", .short, SUT_All⟩,
    ⟨162, .SHORT, "quest_exp_gain_rate", .short, SUT_All⟩,
    ⟨163, .SHORT, "drop_gain_rate", .short, SUT_All⟩,
    ⟨164, .STRING, "tags", .string, SUT_All⟩,
    ⟨165, .SHORT, "max_health_pc", .short, SUT_All⟩,
    ⟨166, .SHORT, "min_health_pc", .short, SUT_All⟩]

def NumStats : ℕ := 132

set_option maxRecDepth 2000 in
theorem length_statList : StatList.length = NumStats := rfl

/-- A place in the table. -/
abbrev StatIndex := Fin StatList.length

/-- The type of a stat, after `SetHealthToInteger`. -/
def etype (useIntegerHealth : Bool) (i : StatIndex) : StatType :=
  if (StatList.get i).ID = STAT.HEALTH ∧ useIntegerHealth then .INTEGER else (StatList.get i).etype

/-- `CharacterStatSet`. -/
abbrev CharacterStatSet := (i : StatIndex) → (StatList.get i).member.Cell

/-- `GetStatIndex`. -/
def getStatIndex (StatID : Int) : Option StatIndex :=
  (List.finRange StatList.length).find? fun i => (StatList.get i).ID = StatID

set_option maxRecDepth 4000 in
/-- Every stat has a type that its member allows. -/
theorem fits (useIntegerHealth : Bool) (i : StatIndex) :
    Fits (etype useIntegerHealth i) (StatList.get i).member := by
  have hall : ∀ d ∈ StatList, Fits d.etype d.member ∧
      (d.ID = STAT.HEALTH → Fits .INTEGER d.member) := by decide
  obtain ⟨hplain, hhealth⟩ := hall _ (List.get_mem StatList i)
  rw [etype]
  split
  · next h => exact hhealth h.1
  · exact hplain

set_option maxRecDepth 4000 in
theorem isChain_ID : (StatList.map StatDefinition.ID).IsChain (· < ·) := by decide

theorem ID_injective {i j : StatIndex} (h : (StatList.get i).ID = (StatList.get j).ID) : i = j := by
  have hsorted := List.pairwise_iff_get.mp (List.pairwise_map.mp isChain_ID.pairwise)
  rcases lt_trichotomy i j with hlt | heq | hlt
  · exact absurd h (hsorted i j hlt).ne
  · exact heq
  · exact absurd h (hsorted j i hlt).ne'

set_option maxRecDepth 2000 in
/-- The look of a character is a text of any length. -/
theorem exists_appearance : ∃ i : StatIndex, (StatList.get i).ID = 0 ∧
    ∀ useIntegerHealth, etype useIntegerHealth i = .STRING :=
  ⟨⟨0, by decide⟩, rfl, by decide⟩

-- what follows needs no rows of the table
attribute [irreducible] StatList

theorem ID_of_getStatIndex {StatID : Int} {i : StatIndex} (h : getStatIndex StatID = some i) :
    (StatList.get i).ID = StatID := by
  have hID := List.find?_some h
  rwa [decide_eq_true_iff] at hID

/-- An ID is found at its place. -/
theorem getStatIndex_ID (i : StatIndex) : getStatIndex (StatList.get i).ID = some i := by
  cases hfind : getStatIndex (StatList.get i).ID with
  | none =>
      rw [getStatIndex] at hfind
      exact absurd (decide_eq_true rfl) (List.find?_eq_none.mp hfind i (List.mem_finRange i))
  | some j => rw [ID_injective (ID_of_getStatIndex hfind)]

end Iceee.Stats
