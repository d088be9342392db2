import Iceee.Lib.Text
import Iceee.Lib.Trace

/-!
# Spawn points of an instance

`SpawnManager` keeps tiles of active spawners, which create NPCs as time passes or when a script
asks for it. Who spawned an NPC is kept in four places: the counter and the list of the spawner,
the list of the tile, and two pointers of the creature.

## Implementation notes

A tile and a spawner are known by an address, which is what a creature points to. The position of a
prop is cut to whole numbers, as every use in this code does. Which creature a spawn package gives,
whether it has a definition, and what `uniqueSpawnManager` answers are inputs of a step
(`SpawnChance`), as are the positions of players and creatures and the props of the scenery pages.
-/

namespace Iceee

open Lib

/-- What a spawner reads of `CreatureSpawnDef`, the extra data of a prop. -/
structure CreatureSpawnDef where
  spawnPackage : Text := []
  maxActive : Int := 1
  despawnTime : Int := 150
  leaseTime : Int := 0
  deriving DecidableEq, Repr

/-- What a spawner reads of `SceneryObject`. -/
structure SpawnProp where
  id : Int
  locationX : Int := 0
  locationZ : Int := 0
  isSpawnPoint : Bool := true
  extraData : Option CreatureSpawnDef := none
  deriving DecidableEq, Repr

structure SpawnPackageDef where
  uniquePoints : Int := 0
  spawnDelay : Int := 0
  deriving DecidableEq, Repr

structure SpawnConfig where
  /-- `GetPointerByName` of the spawn packages. -/
  getPointerByName : Text → Option SpawnPackageDef
  nullSpawnPackage : SpawnPackageDef := {}
  mInstance : Bool := false
  mPageSize : Int := 1920

structure ActiveSpawner where
  addr : Nat
  propID : Int
  spawnPoint : SpawnProp
  spawnCount : Nat := 0
  nextSpawn : Nat := 0
  spawnPackage : Option SpawnPackageDef := none
  refCount : Int := 0
  attachedCreatureID : List Int := []
  deriving DecidableEq, Repr

structure SpawnTile where
  addr : Nat
  tileX : Int
  tileY : Int
  sceneryLoaded : Bool := false
  releaseTime : Nat := 0
  activeSpawn : List ActiveSpawner := []
  attachedCreatureID : List Int := []
  deriving DecidableEq, Repr

/-- An NPC of the instance, with the pointers to its spawner and its tile. -/
structure SpawnedNPC where
  creatureID : Int
  dead : Bool := false
  spawnGen : Option Nat := none
  spawnTile : Option Nat := none
  deriving DecidableEq, Repr

/-- A 16-bit integer. -/
def wrapShort (n : Int) : Int := (n + 32768) % 65536 - 32768

/-- An unsigned 64-bit integer. -/
def wrapULong (n : Int) : Nat := (n % 2 ^ 64).toNat

/-! ### Spawners -/

namespace ActiveSpawner

/-- `UpdateSourcePackage`. -/
def updateSourcePackage (cfg : SpawnConfig) (sp : ActiveSpawner) : Bool × ActiveSpawner :=
  match sp.spawnPoint.extraData with
  | none => (false, sp)
  | some extraData =>
      let spawnPackage := if extraData.spawnPackage.head? = some '#' then some cfg.nullSpawnPackage
        else cfg.getPointerByName extraData.spawnPackage
      (spawnPackage.isSome || extraData.spawnPackage.isEmpty,
        { sp with spawnPackage := spawnPackage })

/-- `Invalidate`: `MAX_TIME`. -/
def invalidate (sp : ActiveSpawner) : ActiveSpawner := { sp with nextSpawn := 2 ^ 64 - 1 }

/-- `GetRespawnDelaySeconds`. -/
def getRespawnDelaySeconds (sp : ActiveSpawner) : Int :=
  let delaySeconds := match sp.spawnPoint.extraData with
    | some extraData => if extraData.despawnTime ≠ 0 then extraData.despawnTime else 150
    | none => 150
  match sp.spawnPackage with
  | some spawnPackage =>
      if delaySeconds = 150 ∧ spawnPackage.spawnDelay ≠ 0 then spawnPackage.spawnDelay
      else delaySeconds
  | none => delaySeconds

/-- `UpdateSpawnDelay`, which does not use its argument. -/
def updateSpawnDelay (sp : ActiveSpawner) (now : Nat) : ActiveSpawner :=
  { sp with nextSpawn := wrapULong (now + sp.getRespawnDelaySeconds * 1000) }

/-- `OnSpawnSuccess`. -/
def onSpawnSuccess (sp : ActiveSpawner) (now : Nat) : ActiveSpawner :=
  { sp with
    spawnCount := sp.spawnCount + 1
    refCount := wrapShort (sp.refCount + 1) }.updateSpawnDelay now

/-- `AddAttachedCreature`. -/
def addAttachedCreature (sp : ActiveSpawner) (creatureID : Int) : ActiveSpawner :=
  { sp with attachedCreatureID := sp.attachedCreatureID ++ [creatureID] }

/-- `NotifyKill`, as far as it changes the spawner. -/
def notifyKill (sp : ActiveSpawner) (now : Nat) (creatureID : Int) : ActiveSpawner :=
  { sp with
    refCount := wrapShort (sp.refCount - 1)
    attachedCreatureID := sp.attachedCreatureID.erase creatureID }.updateSpawnDelay now

end ActiveSpawner

/-! ### The manager -/

/-- `SPAWN_TILE_SIZE` and `SPAWN_TILE_RANGE`. -/
def spawnTileSize : Int := 560
def spawnTileRange : Nat := 2

/-- `PROCESSING_INTERVAL` and `GARBAGE_CHECK_DELAY`. -/
def processingInterval : Nat := 1000
def garbageCheckDelay : Nat := 60000

/-- What a step cannot know of packages and definitions: for each prop, whether
`uniqueSpawnManager` lets it spawn and whether a creature with a definition is found. -/
structure SpawnChance where
  testSpawn : Int → Bool
  found : Int → Bool

/-- The spawn system of an instance with the instance's NPCs. -/
structure SpawnManager where
  spawnTiles : List SpawnTile := []
  genericSpawns : List Int := []
  npcs : List SpawnedNPC := []
  nextProcessTime : Nat := 0
  nextGarbageCheck : Nat := 0
  nextActorID : Int := 0
  nextAddr : Nat := 0
  now : Nat := 0
  deriving DecidableEq, Repr

namespace SpawnManager

variable (cfg : SpawnConfig)

/-- Change the spawner at an address. -/
def modifySpawner (s : SpawnManager) (addr : Nat) (f : ActiveSpawner → ActiveSpawner) :
    SpawnManager :=
  { s with
    spawnTiles := s.spawnTiles.map fun t =>
      { t with activeSpawn := t.activeSpawn.map fun sp => if sp.addr = addr then f sp else sp } }

/-- Change the tile at an address. -/
def modifyTile (s : SpawnManager) (addr : Nat) (f : SpawnTile → SpawnTile) : SpawnManager :=
  { s with spawnTiles := s.spawnTiles.map fun t => if t.addr = addr then f t else t }

/-- `spawnTiles.erase` of the tile at an address. -/
def eraseTile (s : SpawnManager) (tile : Nat) : SpawnManager :=
  { s with spawnTiles := s.spawnTiles.filter fun t => t.addr ≠ tile }

/-- The spawners of all tiles. -/
def spawners (s : SpawnManager) : List ActiveSpawner := s.spawnTiles.flatMap SpawnTile.activeSpawn

/-! ### Removing creatures -/

/-- `RemoveFromSpawner`: the spawner is told, and the creature forgets it. -/
def removeFromSpawner (s : SpawnManager) (npc : SpawnedNPC) : SpawnManager :=
  match npc.spawnGen with
  | none => s
  | some addr =>
      let s := s.modifySpawner addr fun sp => sp.notifyKill s.now npc.creatureID
      { s with
        npcs := s.npcs.map fun other =>
          if other.creatureID = npc.creatureID then
            { other with spawnGen := none, spawnTile := none }
          else other }

/-- `EraseAllCreatureReference`, which shuts the creature down, and its removal from the list. -/
def eraseNPC (s : SpawnManager) (npc : SpawnedNPC) : SpawnManager :=
  let s := s.removeFromSpawner npc
  { s with npcs := s.npcs.filter fun other => other.creatureID ≠ npc.creatureID }

/-- `GetNPCInstanceByCID`. -/
def getNPCInstanceByCID (s : SpawnManager) (creatureID : Int) : Option SpawnedNPC :=
  s.npcs.find? fun npc => npc.creatureID = creatureID

/-- `RemoveNPCInstance`. -/
def removeNPCInstance (s : SpawnManager) (creatureID : Int) : SpawnManager :=
  match s.getNPCInstanceByCID creatureID with
  | some npc => s.eraseNPC npc
  | none => s

/-- `PrepareDeath`: the status is set and the creature leaves its spawner. -/
def prepareDeath (s : SpawnManager) (creatureID : Int) : SpawnManager :=
  match s.getNPCInstanceByCID creatureID with
  | some npc =>
      let s : SpawnManager := { s with
        npcs := s.npcs.map fun other =>
          if other.creatureID = creatureID then { other with dead := true } else other }
      s.removeFromSpawner npc
  | none => s

/-- `RemoveSpawnPointCreature` of the spawner at an address; with 0 for all its creatures. -/
def removeSpawnPointCreature (s : SpawnManager) (addr : Nat) (creatureID : Int) : SpawnManager :=
  (s.npcs.filter fun npc =>
    (creatureID = 0 ∨ creatureID = npc.creatureID) ∧ npc.spawnGen = some addr).foldl eraseNPC s

/-- `Despawn` of the manager and of its tiles. -/
def despawn (s : SpawnManager) (creatureID : Int) : SpawnManager :=
  let s := (s.spawners.map ActiveSpawner.addr).foldl
    (fun s addr => s.removeSpawnPointCreature addr creatureID) s
  if creatureID ∈ s.genericSpawns then
    { s.removeNPCInstance creatureID with genericSpawns := s.genericSpawns.erase creatureID }
  else s

/-! ### Tiles -/

/-- `GetTile`: the address of the tile, which is made where there is none. -/
def getTile (s : SpawnManager) (tileX tileY : Int) : Nat × SpawnManager :=
  match s.spawnTiles.find? fun t => t.tileX = tileX ∧ t.tileY = tileY with
  | some t => (t.addr, s)
  | none =>
      (s.nextAddr, { s with
        spawnTiles := s.spawnTiles ++ [{ addr := s.nextAddr, tileX := tileX, tileY := tileY }]
        nextAddr := s.nextAddr + 1 })

/-- `activeSpawn.insert`: nothing where the map has the key. -/
def insertSpawner (l : List ActiveSpawner) (sp : ActiveSpawner) : List ActiveSpawner :=
  if l.any fun old => old.propID = sp.propID then l
  else l.orderedInsert (fun a b => a.propID ≤ b.propID) sp

/-- `AddSpawnerFromProp` to the tile at an address. -/
def addSpawnerFromProp (s : SpawnManager) (tile : Nat) (prop : SpawnProp) : SpawnManager :=
  let newSpawner : ActiveSpawner := { addr := s.nextAddr, propID := prop.id, spawnPoint := prop }
  let (derived, newSpawner) := newSpawner.updateSourcePackage cfg
  if prop.isSpawnPoint && derived then
    let s := s.modifyTile tile fun t =>
      { t with activeSpawn := insertSpawner t.activeSpawn newSpawner }
    { s with nextAddr := s.nextAddr + 1 }
  else s

/-- `LoadTileSpawnPoints`: the props of a page that lie within the tile. -/
def loadTileSpawnPoints (s : SpawnManager) (tile : Nat) (props : List SpawnProp)
    (x1 y1 x2 y2 : Int) : SpawnManager :=
  (props.filter fun so => x1 ≤ so.locationX ∧ so.locationX ≤ x2 ∧
    y1 ≤ so.locationZ ∧ so.locationZ ≤ y2).foldl (fun s so => s.addSpawnerFromProp cfg tile so) s

/-- The integers from `a` to `b`. -/
def intRange (a b : Int) : List Int := (List.range (b - a + 1).toNat).map fun i => a + i

/-- `GenerateTile`; `pages` are the props of the scenery pages. -/
def generateTile (s : SpawnManager) (pages : Int → Int → List SpawnProp) (tileX tileY : Int) :
    SpawnManager :=
  let (tile, s) := s.getTile tileX tileY
  let loaded := s.spawnTiles.any fun t => t.addr = tile ∧ t.sceneryLoaded
  let s := s.modifyTile tile fun t => { t with releaseTime := s.now + garbageCheckDelay }
  if loaded then s
  else
    let x1 := tileX * spawnTileSize
    let y1 := tileY * spawnTileSize
    let x2 := x1 + spawnTileSize - 1
    let y2 := y1 + spawnTileSize - 1
    let coords := (intRange (x1.tdiv cfg.mPageSize) (x2.tdiv cfg.mPageSize)).flatMap fun px =>
      (intRange (y1.tdiv cfg.mPageSize) (y2.tdiv cfg.mPageSize)).map fun py => (px, py)
    let s := coords.foldl
      (fun s c => s.loadTileSpawnPoints cfg tile (pages c.1 c.2) x1 y1 x2 y2) s
    s.modifyTile tile fun t => { t with sceneryLoaded := true }

/-- `UpdateSpawnPoint` of the manager and of the tile that the prop lies in. -/
def updateSpawnPoint (s : SpawnManager) (prop : SpawnProp) : SpawnManager :=
  let (tile, s) := s.getTile (prop.locationX.tdiv spawnTileSize)
    (prop.locationZ.tdiv spawnTileSize)
  match (s.spawnTiles.find? fun t => t.addr = tile).bind fun t =>
      t.activeSpawn.find? fun sp => sp.propID = prop.id with
  | none => s.addSpawnerFromProp cfg tile prop
  | some sp =>
      let s := s.removeSpawnPointCreature sp.addr 0
      s.modifySpawner sp.addr fun sp =>
        let (derived, sp) := { sp with spawnPoint := prop }.updateSourcePackage cfg
        let sp := if derived then { sp with nextSpawn := s.now } else sp.invalidate
        { sp with spawnCount := 0, refCount := 0 }

/-- `RemoveSpawnPoint` of the tile at an address. -/
def removeTileSpawnPoint (s : SpawnManager) (tile : SpawnTile) (propID : Int) : SpawnManager :=
  match tile.activeSpawn.find? fun sp => sp.propID = propID with
  | none => s
  | some sp =>
      (s.removeSpawnPointCreature sp.addr 0).modifyTile tile.addr fun t =>
        { t with activeSpawn := t.activeSpawn.filter fun old => old.addr ≠ sp.addr }

/-- `RemoveSpawnPoint`, in every tile. -/
def removeSpawnPoint (s : SpawnManager) (propID : Int) : SpawnManager :=
  s.spawnTiles.foldl (fun s t => s.removeTileSpawnPoint t propID) s

/-! ### Spawning -/

/-- `SpawnCreature` from the spawner at an address, as far as it concerns the spawn system: the new
creature is in the lists of the instance and of the tile and points to both. -/
def spawnCreature (s : SpawnManager) (tile : Nat) (sp : ActiveSpawner) (forceCreatureDef : Int)
    (found : Bool) : Option Int × SpawnManager :=
  if forceCreatureDef = 0 ∧ sp.spawnPackage = none then
    (none, s.modifySpawner sp.addr ActiveSpawner.invalidate)
  else if found = false then (none, s.modifySpawner sp.addr ActiveSpawner.invalidate)
  else
    let leased := match sp.spawnPoint.extraData with
      | some extraData => decide (extraData.leaseTime > 0)
      | none => false
    let newItem : SpawnedNPC := { creatureID := s.nextActorID, dead := leased,
                                  spawnGen := some sp.addr, spawnTile := some tile }
    (some s.nextActorID,
      { s.modifyTile tile fun t =>
          { t with attachedCreatureID := t.attachedCreatureID ++ [s.nextActorID] } with
        npcs := s.npcs ++ [newItem]
        nextActorID := s.nextActorID + 1 })

/-- One pass of the loop in `SpawnTile::RunProcessing`. -/
def processSpawner (s : SpawnManager) (chance : SpawnChance) (tile addr : Nat) : SpawnManager :=
  match s.spawners.find? fun sp => sp.addr = addr with
  | none => s
  | some sp =>
      if s.now < sp.nextSpawn then s
      else match sp.spawnPoint.extraData, sp.spawnPackage with
        | none, _ => s.modifySpawner addr ActiveSpawner.invalidate
        | some extraData, spawnPackage =>
            if sp.refCount ≥ extraData.maxActive then s
            else match spawnPackage with
              | none => s.modifySpawner addr ActiveSpawner.invalidate
              | some spawnPackage =>
                  if spawnPackage.uniquePoints ≠ 0 ∧ chance.testSpawn sp.propID = false then
                    if cfg.mInstance then s.modifySpawner addr ActiveSpawner.invalidate
                    else s.modifySpawner addr fun sp => sp.updateSpawnDelay s.now
                  else if cfg.mInstance ∧ sp.spawnCount ≥ 1 then s
                  else
                    match s.spawnCreature tile sp 0 (chance.found sp.propID) with
                    | (none, s) => s
                    | (some creatureID, s) => s.modifySpawner addr fun sp =>
                        (sp.onSpawnSuccess s.now).addAttachedCreature creatureID

/-- `SpawnTile::RunProcessing`. -/
def processTile (s : SpawnManager) (chance : SpawnChance) (tile : Nat) : SpawnManager :=
  let s := s.modifyTile tile fun t => { t with releaseTime := s.now + processingInterval }
  let addrs := (s.spawnTiles.filter fun t => t.addr = tile).flatMap fun t =>
    t.activeSpawn.map ActiveSpawner.addr
  addrs.foldl (fun s addr => s.processSpawner cfg chance tile addr) s

/-- The tile that a position lies in. -/
def tileOf (pos : Int × Int) : Int × Int :=
  (pos.1.tdiv spawnTileSize, pos.2.tdiv spawnTileSize)

/-- `ScanActivePlayerTiles`. -/
def scanActivePlayerTiles (players : List (Int × Int)) : List (Int × Int) :=
  players.foldl (fun output pos =>
    let t := tileOf pos
    (intRange (t.2 - spawnTileRange) (t.2 + spawnTileRange)).foldl (fun output z =>
      (intRange (t.1 - spawnTileRange) (t.1 + spawnTileRange)).foldl (fun output x =>
        if (x, z) ∈ output then output else output ++ [(x, z)]) output) output) []

/-- `QualifyDelete`. -/
def qualifyDelete (now : Nat) (t : SpawnTile) : Bool :=
  decide (t.releaseTime ≤ now) &&
    t.activeSpawn.all fun sp => !(decide (sp.nextSpawn ≠ 2 ^ 64 - 1) && decide (now < sp.nextSpawn))

/-- One pass of the loop in `RunGarbageCheck`; `position` is where the creatures are. -/
def garbageTile (s : SpawnManager) (active : List (Int × Int)) (position : Int → Int × Int)
    (tile : Nat) : SpawnManager :=
  match s.spawnTiles.find? fun t => t.addr = tile with
  | none => s
  | some t =>
      if qualifyDelete s.now t = false then s
      else if (t.tileX, t.tileY) ∈ active then s
      else if t.attachedCreatureID.any fun id =>
          (s.getNPCInstanceByCID id).isSome && decide (tileOf (position id) ∈ active) then s
      else (t.attachedCreatureID.foldl removeNPCInstance s).eraseTile tile

/-- `RunGarbageCheck`. -/
def runGarbageCheck (s : SpawnManager) (active : List (Int × Int)) (position : Int → Int × Int) :
    SpawnManager :=
  if s.nextGarbageCheck > s.now then s
  else
    let s := (s.spawnTiles.map SpawnTile.addr).foldl (fun s t => s.garbageTile active position t) s
    { s with nextGarbageCheck := s.now + garbageCheckDelay }

/-- `RunProcessing`, which does nothing when forced. -/
def runProcessing (s : SpawnManager) (chance : SpawnChance) (players : List (Int × Int))
    (position : Int → Int × Int) (force : Bool) : SpawnManager :=
  if s.now < s.nextProcessTime ∨ force = true then s
  else
    let s := { s with nextProcessTime := s.now + processingInterval }
    let searchList := scanActivePlayerTiles players
    let s := searchList.foldl (fun s c =>
      let (tile, s) := s.getTile c.1 c.2
      s.processTile cfg chance tile) s
    if cfg.mInstance then s else s.runGarbageCheck searchList position

/-- The first spawner of a prop, with its tile. -/
def findSpawner (s : SpawnManager) (propID : Int) : Option (Nat × ActiveSpawner) :=
  s.spawnTiles.findSome? fun t =>
    (t.activeSpawn.find? fun sp => sp.propID = propID).map fun sp => (t.addr, sp)

/-- `TriggerSpawn`. -/
def triggerSpawn (s : SpawnManager) (propID forceCreatureDef : Int) (found : Bool) :
    Int × SpawnManager :=
  match s.findSpawner propID with
  | none => (-1, s)
  | some (tile, sp) =>
      match s.spawnCreature tile sp forceCreatureDef found with
      | (some creatureID, s) =>
          (creatureID, s.modifySpawner sp.addr fun sp => sp.onSpawnSuccess s.now)
      | (none, s) => (-1, s)

/-- `GetCIDForProp`; nothing where the first of no attached creatures is read. -/
def getCIDForProp (s : SpawnManager) (propID : Int) : Option Int :=
  match s.findSpawner propID with
  | none => some (-1)
  | some (_, sp) => if sp.spawnCount > 0 then sp.attachedCreatureID.head? else some (-1)

end SpawnManager

/-! ### Runs -/

/-- What happens to the spawn system of an instance. -/
inductive SpawnEvent
  | tick (ms : Nat)
  | generateTile (pages : Int → Int → List SpawnProp) (tileX tileY : Int)
  | runProcessing (chance : SpawnChance) (players : List (Int × Int))
      (position : Int → Int × Int) (force : Bool)
  | triggerSpawn (propID forceCreatureDef : Int) (found : Bool)
  | prepareDeath (creatureID : Int)
  | updateSpawnPoint (prop : SpawnProp)
  | removeSpawnPoint (propID : Int)
  | despawn (creatureID : Int)
  | removeNPCInstance (creatureID : Int)
  | runGarbageCheck (active : List (Int × Int)) (position : Int → Int × Int)

namespace SpawnManager

def step (cfg : SpawnConfig) (s : SpawnManager) : SpawnEvent → SpawnManager
  | .tick ms => { s with now := s.now + ms }
  | .generateTile pages tileX tileY => s.generateTile cfg pages tileX tileY
  | .runProcessing chance players position force =>
      s.runProcessing cfg chance players position force
  | .triggerSpawn propID forceCreatureDef found =>
      (s.triggerSpawn propID forceCreatureDef found).2
  | .prepareDeath creatureID => s.prepareDeath creatureID
  | .updateSpawnPoint prop => s.updateSpawnPoint cfg prop
  | .removeSpawnPoint propID => s.removeSpawnPoint propID
  | .despawn creatureID => s.despawn creatureID
  | .removeNPCInstance creatureID => s.removeNPCInstance creatureID
  | .runGarbageCheck active position => s.runGarbageCheck active position

end SpawnManager

end Iceee
