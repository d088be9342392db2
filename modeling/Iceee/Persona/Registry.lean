import Iceee.Lib.Text

/-!
# Characters and their names

An account has slots for its characters and a cache with an entry for each. Two kinds of keys of the
cluster tell which names are used, and by which character.

## Implementation notes

What an argument is formatted to whose type is not the one of its specifier is a parameter, and so
is what is read through the pointer to a string that is gone. Integers do not overflow. Of a new
character only the name, the profession, the level and the account are kept; the looks, the items
and the entities that are saved are left out. -/

namespace Iceee.Persona

open Lib

/-- `%d` for the text of a C string, `%s` for a string that is an object, and the text behind a
pointer that outlives its string. -/
structure Undefined where
  address : Text → Int
  object : Text → Text
  dangling : Text → Text

/-! ### The names that are used -/

/-- The keys of the cluster. -/
abbrev Keys := Text → Option Text

def KEYPREFIX_CHARACTER_NAME_TO_ID : Text := "CharacterNameToID".toList
def KEYPREFIX_CHARACTER_ID_TO_NAME : Text := "CharacterIDToName".toList

/-- `Format` with two parts and a colon. -/
def formatKey (prefixText part : Text) : Text := prefixText ++ ':' :: part

namespace Keys

variable (u : Undefined) (keys : Keys)

/-- `GetKey`. -/
def getKey (key : Text) : Text := (keys key).getD []

/-- `HasKey`. -/
def hasKey (key : Text) : Bool := (keys key).isSome

/-- `SetKey`. -/
def setKey (key value : Text) : Keys := Function.update keys key (some value)

/-- `RemoveKey`. -/
def removeKey (key : Text) : Keys := Function.update keys key none

/-- `UsedNameDatabase::Add`. -/
def add (CDefID : Int) (name : Text) : Keys :=
  (setKey keys (formatKey KEYPREFIX_CHARACTER_NAME_TO_ID name) (printInt CDefID)).setKey
    (formatKey KEYPREFIX_CHARACTER_ID_TO_NAME (printInt CDefID)) name

/-- `HasID`. -/
def hasID (CDefID : Int) : Bool :=
  hasKey keys (formatKey KEYPREFIX_CHARACTER_ID_TO_NAME (printInt CDefID))

/-- `GetNameByID`: the string is gone when the pointer is used. -/
def getNameByID (CDefID : Int) : Text :=
  u.dangling (getKey keys (formatKey KEYPREFIX_CHARACTER_ID_TO_NAME (printInt CDefID)))

/-- `UsedNameDatabase::Remove`: the prefix is passed as an object. -/
def remove (CDefID : Int) : Keys :=
  let name := getNameByID u keys CDefID
  let keys :=
    if name.length > 0 then
      removeKey keys (formatKey (u.object KEYPREFIX_CHARACTER_NAME_TO_ID) name)
    else keys
  removeKey keys (formatKey KEYPREFIX_CHARACTER_ID_TO_NAME (printInt CDefID))

/-- `GetIDByName`: the name is formatted as a number. -/
def getIDByName (name : Text) : Int :=
  parseInt (getKey keys (formatKey KEYPREFIX_CHARACTER_NAME_TO_ID (printInt (u.address name))))

/-- `HasName`: the name is formatted as a number. -/
def hasName (name : Text) : Bool :=
  hasKey keys (formatKey KEYPREFIX_CHARACTER_NAME_TO_ID (printInt (u.address name)))

end Keys

/-! ### Accounts -/

structure CharacterCacheEntry where
  creatureDefID : Int
  level : Int
  profession : Int
  display_name : Text
  deriving DecidableEq

structure CharacterData where
  CreatureDefID : Int
  display_name : Text
  profession : Int
  level : Int
  AccountID : Int
  deriving DecidableEq

structure AccountData where
  CharacterSet : Fin 8 → Int := fun _ => 0
  MaxCharacters : Fin 9 := 4
  permissionSage : Bool := false
  characterCache : List CharacterCacheEntry := []

/-- `GetFreeCharacterSlot`. -/
def AccountData.getFreeCharacterSlot (a : AccountData) : Option (Fin 8) :=
  (List.finRange 8).find? fun i => i.val < a.MaxCharacters.val && a.CharacterSet i == 0

/-- `DeleteCharacter` moves the slots after the one that is given. -/
def AccountData.closeSlot (a : AccountData) (index : Fin 8) : AccountData :=
  { a with
    CharacterSet := fun i =>
      if i < index then a.CharacterSet i
      else if h : i.val + 1 < 8 then a.CharacterSet ⟨i.val + 1, h⟩ else 0 }

structure AccountManager where
  accounts : Int → AccountData
  keys : Keys := fun _ => none
  nextCharacterID : Int := -400000000
  charList : Int → Option CharacterData := fun _ => none

def CHARACTER_SUCCESS : Int := 0
def CHARACTER_INVQUERY : Int := -1
def CHARACTER_NOSLOTS : Int := -2
def CHARACTER_FIRSTINV : Int := -3
def CHARACTER_FIRSTSHORT : Int := -4
def CHARACTER_FIRSTLONG : Int := -5
def CHARACTER_LASTINV : Int := -6
def CHARACTER_LASTSHORT : Int := -7
def CHARACTER_LASTLONG : Int := -8
def CHARACTER_NAMEEXIST : Int := -9

/-- `ValidCharacterName`. -/
def validCharacterName (name : Text) : Bool :=
  name.all fun c => (decide ('A' ≤ c) && decide (c ≤ 'Z')) || (decide ('a' ≤ c) && decide (c ≤ 'z'))

/-- `ValidateNameParts` before the name is looked up. -/
def checkNameParts (first last : Text) : Int :=
  if first.length = 0 then CHARACTER_FIRSTSHORT
  else if first.length > 16 then CHARACTER_FIRSTLONG
  else if last.length = 0 then CHARACTER_LASTSHORT
  else if last.length > 16 then CHARACTER_LASTLONG
  else if !validCharacterName first then CHARACTER_FIRSTINV
  else if !validCharacterName last then CHARACTER_LASTINV
  else CHARACTER_SUCCESS

/-- `CaseInsensitiveStringCompare`. -/
def caseInsensitiveStringCompare (str1 str2 : Text) : Bool :=
  str1.map Char.toLower == str2.map Char.toLower

def fullName (first last : Text) : Text := first ++ ' ' :: last

/-- The first of the four names, for any other text. -/
def profession (race : Text) : Int :=
  if race = "Rogue".toList then 2
  else if race = "Mage".toList then 3
  else if race = "Druid".toList then 4
  else 1

namespace AccountManager

variable (u : Undefined) (s : AccountManager)

/-- `ValidateNameParts`. -/
def validateNameParts (first last : Text) : Int :=
  if checkNameParts first last ≠ CHARACTER_SUCCESS then checkNameParts first last
  else if s.keys.hasName u (fullName first last) then CHARACTER_NAMEEXIST
  else CHARACTER_SUCCESS

/-- `AddExternalCharacter`. -/
def addExternalCharacter (newChar : CharacterData) : AccountManager :=
  match s.charList newChar.CreatureDefID with
  | none => { s with
      charList := Function.update s.charList newChar.CreatureDefID (some newChar) }
  | some _ => s

/-- `CreateCharacter` after the checks; the counter goes down by 8. -/
def register (accID : Int) (slot : Fin 8) (first last race : Text) : AccountManager :=
  let newID := s.nextCharacterID - 8
  let newChar : CharacterData :=
    { CreatureDefID := newID, display_name := fullName first last, profession := profession race,
      level := 1, AccountID := accID }
  let entry : CharacterCacheEntry :=
    { creatureDefID := newID, level := newChar.level, profession := newChar.profession,
      display_name := newChar.display_name }
  let a := s.accounts accID
  let s := { s with nextCharacterID := newID }.addExternalCharacter newChar
  { s with
    keys := s.keys.add newID newChar.display_name
    accounts := Function.update s.accounts accID { a with
      CharacterSet := Function.update a.CharacterSet slot newID
      characterCache := a.characterCache ++ [entry] } }

/-- `CreateCharacter`: the slot, or an error. -/
def createCharacter (args : List Text) (accID : Int) : Int × AccountManager :=
  if args.length ≤ 12 then (CHARACTER_INVQUERY, s)
  else
    match (s.accounts accID).getFreeCharacterSlot with
    | none => (CHARACTER_NOSLOTS, s)
    | some slot =>
        let first := args.getD 0 []
        let last := args.getD 1 []
        let result := s.validateNameParts u first last
        if result ≠ CHARACTER_SUCCESS then (result, s)
        else if caseInsensitiveStringCompare first "Sage".toList &&
            !(s.accounts accID).permissionSage then (CHARACTER_FIRSTINV, s)
        else (slot.val, s.register accID slot first last (args.getD 2 []))

/-- `RemoveCharacter` of the cache, with the key of the name. -/
def removeCharacter (accID CDefID : Int) : AccountManager :=
  let a := s.accounts accID
  match a.characterCache.find? fun e => e.creatureDefID == CDefID with
  | none => s
  | some e =>
      { s with
        keys := s.keys.removeKey (formatKey KEYPREFIX_CHARACTER_NAME_TO_ID e.display_name)
        accounts := Function.update s.accounts accID { a with
          characterCache := a.characterCache.eraseP fun e => e.creatureDefID == CDefID } }

/-- `DeleteCharacter`. -/
def deleteCharacter (index : Int) (accID : Int) : AccountManager :=
  if h : 0 ≤ index ∧ index < 8 then
    let slot : Fin 8 := ⟨index.toNat, by omega⟩
    let CDefID := (s.accounts accID).CharacterSet slot
    if CDefID = 0 then s
    else
      let s := { s with
        accounts := Function.update s.accounts accID ((s.accounts accID).closeSlot slot) }
      let s := s.removeCharacter accID CDefID
      { s with keys := s.keys.remove u CDefID }
  else s

end AccountManager

/-- A call by an account. -/
inductive Call
  | createCharacter (args : List Text) (accID : Int)
  | deleteCharacter (index accID : Int)
  deriving DecidableEq

def AccountManager.step (u : Undefined) (s : AccountManager) : Call → Option AccountManager
  | .createCharacter args accID => some (s.createCharacter u args accID).2
  | .deleteCharacter index accID => some (s.deleteCharacter u index accID)

end Iceee.Persona
