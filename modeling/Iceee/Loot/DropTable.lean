import Iceee.Lib.Draw
import Iceee.Lib.Text

/-!
# The drop tables

Three files say what the creatures drop. A set is a list of items with a rarity, a package is a list
of sets, and a creature names sets or packages. Packages may also belong to all the creatures of
a level.

## Implementation notes

A file is the list of its lines below the header, each cut at its tabs. A pointer to a set is told
by the name of the set. The flags of the kinds of mobs, which no roll reads, are left out.
-/

namespace Iceee

open Lib Draw Std

namespace LootSystem

def DROP_MAX_SHARES : Int := 1000000

/-- `ComputeSharesByFraction`. -/
def computeSharesByFraction (denominator : Int) : Int :=
  if denominator ≤ 0 then DROP_MAX_SHARES.tdiv DROP_MAX_SHARES
  else DROP_MAX_SHARES.tdiv denominator

end LootSystem

open LootSystem

namespace DropTableManager

def CLASS_FLAG_EXPLICIT : UInt32 := 1
def CLASS_FLAG_UNCOMMON : UInt32 := 2
def CLASS_FLAG_RARE : UInt32 := 4
def CLASS_FLAG_EPIC : UInt32 := 8
def CLASS_FLAG_LEGENDARY : UInt32 := 16
def CLASS_FLAG_ARTIFACT : UInt32 := 32

end DropTableManager

open DropTableManager

/-! ### The definitions -/

def CHANCE_PERCENT : Int := 0
def CHANCE_SHARES : Int := -1

structure DropSetDefinition where
  mName : Text := []
  mRarity : Int := CHANCE_PERCENT
  mChance : Int := 0
  mItemList : List Int := []
  mClassFlag : UInt32 := 0
  deriving DecidableEq, Repr

namespace DropSetDefinition

/-- `AssignList`. -/
def assignList (set : DropSetDefinition) (data : Text) : DropSetDefinition :=
  { set with mItemList := set.mItemList ++ (split data).map atoi }

/-- The flag of a rarity. -/
def classFlag (mRarity : Int) : UInt32 :=
  match mRarity with
  | 2 => CLASS_FLAG_UNCOMMON
  | 3 => CLASS_FLAG_RARE
  | 4 => CLASS_FLAG_EPIC
  | 5 => CLASS_FLAG_LEGENDARY
  | 6 => CLASS_FLAG_ARTIFACT
  | _ => CLASS_FLAG_EXPLICIT

/-- `ResolveClassFlag`. -/
def resolveClassFlag (set : DropSetDefinition) : DropSetDefinition :=
  { set with mClassFlag := classFlag set.mRarity }

end DropSetDefinition

structure DropPackageDefinition where
  mName : Text := []
  mAuto : Int := 0
  mSetList : List Text := []
  mCombinedClassFlags : UInt32 := 0
  deriving DecidableEq, Repr

/-- `AssignList`. -/
def DropPackageDefinition.assignList (package : DropPackageDefinition) (data : Text) :
    DropPackageDefinition :=
  { package with mSetList := package.mSetList ++ split data }

structure DropCreatureDefinition where
  mCreatureDefID : Int := 0
  mExplicit : Bool := false
  mSetList : List Text := []
  deriving DecidableEq, Repr

namespace DropCreatureDefinition

/-- `AssignList`. -/
def assignList (creature : DropCreatureDefinition) (data : Text) : DropCreatureDefinition :=
  { creature with mSetList := creature.mSetList ++ split data }

/-- `ImportFrom`: the lists are merged. -/
def importFrom (creature other : DropCreatureDefinition) : DropCreatureDefinition where
  mCreatureDefID := other.mCreatureDefID
  mExplicit := other.mExplicit
  mSetList := other.mSetList.foldl (fun sets name =>
    if sets.any (· == name) then sets else sets ++ [name]) creature.mSetList

end DropCreatureDefinition

structure DropLevelDefinition where
  mCombinedClassFlags : UInt32 := 0
  mPackageList : List Text := []
  deriving DecidableEq, Repr

structure DropRollParameters where
  mCreatureLevel : Int := 0
  mCreatureDefID : Int := 0
  mPlayerLevel : Int := 0
  deriving DecidableEq, Repr

/-- The sets that a lookup has come upon. -/
structure SetQueryResult where
  mClassFlags : UInt32 := 0
  mSetListPtr : List DropSetDefinition := []
  deriving DecidableEq, Repr

namespace SetQueryResult

variable (results : SetQueryResult)

/-- `AddSet`. -/
def addSet (classFlag : UInt32) (set : DropSetDefinition) : SetQueryResult :=
  if results.mSetListPtr.any fun s => s.mName == set.mName then results
  else
    { mSetListPtr := results.mSetListPtr ++ [set]
      mClassFlags := results.mClassFlags ||| classFlag }

/-- `Filter`. -/
def filter (classFlag : UInt32) : List DropSetDefinition :=
  results.mSetListPtr.filter fun s => s.mClassFlag == classFlag

end SetQueryResult

structure DropTableManager where
  mSet : TreeMap Text DropSetDefinition := {}
  mPackage : TreeMap Text DropPackageDefinition := {}
  mCreature : TreeMap Int DropCreatureDefinition := {}
  mLevel : TreeMap Int DropLevelDefinition := {}

namespace DropTableManager

/-! ### Loading -/

/-- `BlockToBoolC`. -/
def blockToBool (block : Text) : Bool := atoi block ≠ 0

variable (table : DropTableManager)

/-- A line of `LoadSetFile`. -/
def loadSet (blocks : List Text) : DropTableManager :=
  match blocks with
  | mName :: mRarity :: mChance :: data :: _ =>
      let entry : DropSetDefinition :=
        { mName, mRarity := atoi mRarity, mChance := atoi mChance }
      { table with mSet := table.mSet.insert mName (entry.assignList data) }
  | _ => table

/-- A line of `LoadPackageFile`. -/
def loadPackage (blocks : List Text) : DropTableManager :=
  match blocks with
  | mName :: mAuto :: _ :: data :: _ =>
      let entry : DropPackageDefinition := { mName, mAuto := atoi mAuto }
      { table with mPackage := table.mPackage.insert mName (entry.assignList data) }
  | _ => table

/-- A line of `LoadCreatureFile`. -/
def loadCreature (blocks : List Text) : DropTableManager :=
  match blocks with
  | mCreatureDefID :: mExplicit :: data :: _ =>
      let entry : DropCreatureDefinition :=
        { mCreatureDefID := atoi mCreatureDefID, mExplicit := blockToBool mExplicit }
      { table with
        mCreature := table.mCreature.alter (atoi mCreatureDefID) fun creature =>
          some ((creature.getD {}).importFrom (entry.assignList data)) }
  | _ => table

/-- `ResolveClassFlags`. -/
def resolveClassFlags : DropTableManager :=
  let mSet := table.mSet.map fun _ set => set.resolveClassFlag
  { table with
    mSet
    mPackage := table.mPackage.map fun _ package =>
      { package with
        mCombinedClassFlags := package.mSetList.foldl (fun flags name =>
          match mSet[name]? with
          | some set => flags ||| set.mClassFlag
          | none => flags) package.mCombinedClassFlags } }

/-- A round of `ResolveAutotable`. -/
def autoPackage (mLevel : TreeMap Int DropLevelDefinition) (package : DropPackageDefinition) :
    TreeMap Int DropLevelDefinition :=
  if package.mAuto ≤ 0 then mLevel
  else mLevel.alter package.mAuto fun level =>
    let level := level.getD {}
    some {
      mCombinedClassFlags := level.mCombinedClassFlags ||| package.mCombinedClassFlags
      mPackageList := level.mPackageList ++ [package.mName] }

/-- `ResolveAutotable`. -/
def resolveAutotable : DropTableManager :=
  { table with
    mLevel := (table.mPackage.toList.map Prod.snd).foldl autoPackage table.mLevel }

/-- `LoadData`. -/
def loadData (sets packages creatures : List (List Text)) : DropTableManager :=
  let table := sets.foldl loadSet {}
  let table := packages.foldl loadPackage table
  let table := creatures.foldl loadCreature table
  table.resolveClassFlags.resolveAutotable

/-! ### Rolling -/

/-- `AddSet` for a name that is in the table of sets. -/
def addSetNamed (output : SetQueryResult) (name : Text) : SetQueryResult :=
  match table.mSet[name]? with
  | some set => output.addSet set.mClassFlag set
  | none => output

/-- `AddSetQueryResult`. -/
def addSetQueryResult (output : SetQueryResult) (setOrPkgName : Text) : SetQueryResult :=
  match table.mSet[setOrPkgName]? with
  | some set => output.addSet set.mClassFlag set
  | none =>
      match table.mPackage[setOrPkgName]? with
      | some package => package.mSetList.foldl table.addSetNamed output
      | none => output

/-- The sets that `RollDrops` comes upon: those of the creature, then those of its level. -/
def querySets (params : DropRollParameters) : SetQueryResult :=
  let creature := table.mCreature[params.mCreatureDefID]?
  let queryResults :=
    match creature with
    | some c => c.mSetList.foldl table.addSetQueryResult {}
    | none => {}
  if creature.any DropCreatureDefinition.mExplicit then queryResults
  else
    match table.mLevel[params.mCreatureLevel]? with
    | some level => level.mPackageList.foldl table.addSetQueryResult queryResults
    | none => queryResults

variable (g_RandomManager : RandomNumbers)

/-- What a round of the loop for a set with a chance of its own drops. -/
def rollItem (set : DropSetDefinition) (dropRoll needed : Int) : Draw (List Int) := do
  if dropRoll ≤ needed then
    let item ← pick g_RandomManager set.mItemList
    pure [item]
  else pure []

/-- The loop for a set with a chance of its own. -/
def rollLoop (set : DropSetDefinition) (max : Int) (hmax : 0 < max) (needed : Int) :
    Draw (List Int) := do
  if _h : needed > 0 then
    let dropRoll ← randInt g_RandomManager 1 max
    let items ← rollItem g_RandomManager set dropRoll needed
    let rest ← rollLoop set max hmax (needed - max)
    pure (items ++ rest)
  else pure []
termination_by needed.toNat

/-- The round of `RollDrops` for a set of the explicit class. -/
def rollExplicit (MegaLootParty : Bool) (set : DropSetDefinition) : Draw (List Int) := do
  if MegaLootParty then
    let item ← pick g_RandomManager set.mItemList
    pure [item]
  else if set.mRarity = CHANCE_PERCENT then
    rollLoop g_RandomManager set 100 (by decide) set.mChance
  else if set.mRarity = CHANCE_SHARES then
    rollLoop g_RandomManager set DROP_MAX_SHARES (by decide)
      (computeSharesByFraction set.mChance)
  else pure []

/-- The first loop of `RollDrops`, over the sets of the explicit class. -/
def rollExplicits (MegaLootParty : Bool) (queryResults : SetQueryResult) :
    Draw (List (List Int)) := do
  if queryResults.mClassFlags &&& CLASS_FLAG_EXPLICIT ≠ 0 then
    (queryResults.filter CLASS_FLAG_EXPLICIT).mapM (rollExplicit g_RandomManager MegaLootParty)
  else pure []

/-- `classOrder` with `classShares`. -/
def classes : List (UInt32 × Int) := [
  (CLASS_FLAG_ARTIFACT, computeSharesByFraction 250000),
  (CLASS_FLAG_LEGENDARY, computeSharesByFraction 25000),
  (CLASS_FLAG_EPIC, computeSharesByFraction 1200),
  (CLASS_FLAG_RARE, computeSharesByFraction 300),
  (CLASS_FLAG_UNCOMMON, computeSharesByFraction 75)]

/-- `dcAdjust`: the roll is among fewer numbers for low levels. -/
def adjust (params : DropRollParameters) : Int :=
  let highestLevel := max params.mPlayerLevel params.mCreatureLevel
  let n := max 1 (highestLevel - 3)
  if n < 35 then (DROP_MAX_SHARES * n).tdiv 35 else DROP_MAX_SHARES

/-- The loop over the classes, from the rarest to the most common. -/
def rollClasses (queryResults : SetQueryResult) (dropRoll : Int) :
    List (UInt32 × Int) → Draw (List Int)
  | [] => pure []
  | (flag, shares) :: rest => do
      if queryResults.mClassFlags &&& flag = 0 then rollClasses queryResults dropRoll rest
      else if dropRoll > shares then rollClasses queryResults dropRoll rest
      else if (queryResults.filter flag).length = 0 then rollClasses queryResults dropRoll rest
      else
        let set ← pick g_RandomManager (queryResults.filter flag)
        let item ← pick g_RandomManager set.mItemList
        pure [item]

/-- `RollDrops`. -/
def rollDrops (MegaLootParty : Bool) (params : DropRollParameters) (output : List Int) :
    Draw (List Int) := do
  let queryResults := table.querySets params
  if queryResults.mSetListPtr.isEmpty then pure output
  else
    let explicit ← rollExplicits g_RandomManager MegaLootParty queryResults
    let dropRoll ← randInt g_RandomManager 1 (adjust params)
    let further ← rollClasses g_RandomManager queryResults dropRoll classes
    pure (output ++ explicit.flatten ++ further)

end DropTableManager

end Iceee
