import Iceee.Lib.Redis
import Iceee.Lib.Text

/-!
# Entities in the cluster

`ClusterEntityWriter` collects the values of an entity by section and writes them on `End`,
one hash for a section, with the list of its sections beside them. `ClusterEntityReader`
loads a section when it is asked for a value in it, and keeps what it has loaded.

## Implementation notes

The server behind the store answers a read with what the writes before it left; the client
is connected. A section is a path with slashes.
-/

namespace Iceee

open Lib

/-- The client of the cluster: section keys, fields, values. -/
abbrev Client := Redis String String Text

structure ClusterEntityStringValue where
  sec : String
  key : String
  value : Text
  deriving DecidableEq, Repr

/-- The key of an entity, before its sections. -/
structure EntityKey where
  mCatalog : String
  mID : String
  deriving DecidableEq, Repr

namespace EntityKey

variable (k : EntityKey)

/-- The name a section is stored under. -/
def sectionName (sec : String) : String := if sec = "" then "DEFAULT" else sec

/-- `CreateSectionKey`, and the keys `End` writes. -/
def sectionKey (sec : String) : String := k.mCatalog ++ ":" ++ k.mID ++ ":" ++ sectionName sec

/-- The key of the list of sections. -/
def listKey : String := k.mCatalog ++ ":" ++ k.mID ++ "^" ++ "_SUBKEYS_"

theorem sectionKey_inj {sec sec' : String} :
    k.sectionKey sec = k.sectionKey sec' ↔ sectionName sec = sectionName sec' :=
  String.append_right_inj _

end EntityKey

structure ClusterEntityWriter where
  key : EntityKey
  mSection : String := ""
  mStringValues : List ClusterEntityStringValue := []

namespace ClusterEntityWriter

variable (w : ClusterEntityWriter)

/-- `Value`. -/
def value (key : String) (value : Text) : ClusterEntityWriter :=
  { w with mStringValues := w.mStringValues ++ [{ sec := w.mSection, key, value }] }

/-- `Value` for an `int`. -/
def valueInt (key : String) (i : Int) : ClusterEntityWriter := w.value key (printInt i)

/-- `Value` for an `unsigned long`. -/
def valueULong (key : String) (n : UInt64) : ClusterEntityWriter := w.value key (printULong n)

/-- `Value` for a `bool`. -/
def valueBool (key : String) (b : Bool) : ClusterEntityWriter :=
  w.value key (if b then ['1'] else ['0'])

/-- `ListValue`. -/
def listValue (key : String) (pieces : List Text) : ClusterEntityWriter :=
  w.value key (joinEscaped pieces)

/-- The variables of the loop of `End`. -/
structure EndState where
  client : Client
  currentKeys : List String
  sec : String := ""
  a : List (String × Text) := []

/-- Write the collected values of one section. -/
def flush (k : EntityKey) (st : EndState) : Client × List String :=
  if st.a.isEmpty then (st.client, st.currentKeys)
  else
    let secKey := k.sectionKey st.sec
    (((st.client.lrem k.listKey secKey).rpush k.listKey secKey).hmset secKey st.a,
      st.currentKeys.filter (· ≠ secKey))

/-- One turn of the loop of `End`: a value of another section writes the collected ones. -/
def endStep (k : EntityKey) (st : EndState) (val : ClusterEntityStringValue) : EndState :=
  if val.sec ≠ st.sec then
    let (client, currentKeys) := flush k st
    { client, currentKeys, sec := val.sec, a := [(val.key, val.value)] }
  else { st with a := st.a ++ [(val.key, val.value)] }

/-- `End`: write the values, then clear the sections that were not written. -/
def finish (client : Client) : Client :=
  let st := w.mStringValues.foldl (endStep w.key)
    { client, currentKeys := client.lrange w.key.listKey }
  let (client, currentKeys) := flush w.key st
  currentKeys.foldl Redis.del client

end ClusterEntityWriter

structure ClusterEntityReader where
  key : EntityKey
  mSection : String := ""
  mValues : List (String × List (String × Text)) := []

namespace ClusterEntityReader

variable (rd : ClusterEntityReader) (client : Client)

/-- `CheckLoaded`: load the section once. -/
def checkLoaded : ClusterEntityReader :=
  if (rd.mValues.lookup rd.mSection).isSome then rd
  else
    { rd with
      mValues := (rd.mSection, client.hgetall (rd.key.sectionKey rd.mSection)) :: rd.mValues }

/-- What is loaded of the section. -/
def loaded : List (String × Text) := ((rd.checkLoaded client).mValues.lookup rd.mSection).getD []

/-- `Value`: the first pair with the key, or the default. -/
def value (key : String) (defaultValue : Text) : Text :=
  ((rd.loaded client).lookup key).getD defaultValue

/-- `ValueInt`. -/
def valueInt (key : String) (defaultValue : Int := 0) : Int :=
  parseInt (rd.value client key (printInt defaultValue))

/-- `ValueULong`. -/
def valueULong (key : String) (defaultValue : UInt64 := 0) : UInt64 :=
  parseULong (rd.value client key (printULong defaultValue))

/-- `ValueBool`. -/
def valueBool (key : String) (defaultValue : Bool := false) : Bool :=
  rd.value client key (if defaultValue then "true".toList else "false".toList) ∈
    ["1".toList, "true".toList, "TRUE".toList, "True".toList]

/-- `ListValue`. -/
def listValue (key : String) : List Text := parseEscaped (rd.value client key [])

/-- `Exists`: the current section has a hash. -/
def doesExist : Bool := !(client.hgetall (rd.key.sectionKey rd.mSection)).isEmpty

end ClusterEntityReader

end Iceee
