import Iceee.Lib.Machine
import Iceee.Lib.Single
import Iceee.Spawner.Manager

/-!
# The tiles of a zone

A spawn point is loaded with the tile that it lies in. The bounds of a tile are multiplied out, so a
position is in the tile of its quotient rounded down; where the code looks for the tile of a
position it divides, which rounds towards zero.

## Main results

* `tilesOf_generateTiles`: the tiles that a spawn point is loaded into.
* `hasHome_iff`: when that is one tile, the one that the position gives.

## Implementation notes

A position is a rational number; it is a `float`, but no proof needs that. The quotient that
`UpdateSpawnPoint` computes is rounded to a `float`.
-/

namespace Iceee

open Lib

/-- A prop with its position, whose tile has its bounds within the range of the integers. -/
structure PlacedProp where
  id : Int
  locationX : ℚ
  locationZ : ℚ
  isSpawnPoint : Bool := true
  extraData : Option CreatureSpawnDef := none
  smallX : |locationX| < 2 ^ 31 - 128
  smallZ : |locationZ| < 2 ^ 31 - 128

namespace PlacedProp

variable (so : PlacedProp)

/-- The prop with its position cut to integers. -/
def cut : SpawnProp where
  id := so.id
  locationX := trunc so.locationX
  locationZ := trunc so.locationZ
  isSpawnPoint := so.isSpawnPoint
  extraData := so.extraData

/-- The tile of `UpdateSpawnPoint`. -/
def updateTile : Int × Int :=
  (trunc (Single.round (so.locationX / spawnTileSize)),
    trunc (Single.round (so.locationZ / spawnTileSize)))

/-- The tile of `EnumAttachedCreatures`, and that of `ScanActivePlayerTiles` for a player at the
position of the prop. -/
def standingTile : Int × Int := SpawnManager.tileOf (so.cut.locationX, so.cut.locationZ)

/-- The tile whose bounds the position is in. -/
def floorTile : Int × Int :=
  (so.cut.locationX / spawnTileSize, so.cut.locationZ / spawnTileSize)

end PlacedProp

/-- The page size that `SetDefaults` makes of the one in the file. -/
def setDefaults (pageSize : Int) : Int := if pageSize = 0 then 1920 else pageSize

/-- The scenery of a zone, and the page size in the file of the zone. -/
structure SceneryZone where
  pageSize : Int
  props : List PlacedProp
  distinct : (props.map PlacedProp.id).Nodup

/-- A spawner that `AddSpawnerFromProp` would add. -/
def SpawnProp.Derives (cfg : SpawnConfig) (prop : SpawnProp) : Prop :=
  let newSpawner : ActiveSpawner := { addr := 0, propID := prop.id, spawnPoint := prop }
  prop.isSpawnPoint = true ∧ (newSpawner.updateSourcePackage cfg).1 = true

/-- The tile has a spawner for a prop. -/
def SpawnTile.has (t : SpawnTile) (propID : Int) : Bool :=
  t.activeSpawn.any fun sp => sp.propID = propID

def SpawnTile.coords (t : SpawnTile) : Int × Int := (t.tileX, t.tileY)

/-- The tiles that have a spawner for a prop. -/
def SpawnManager.tilesOf (s : SpawnManager) (propID : Int) : List (Int × Int) :=
  (s.spawnTiles.filter fun t => t.has propID).map SpawnTile.coords

namespace SceneryZone

open SpawnManager

variable (zone : SceneryZone) (cfg : SpawnConfig)

def mPageSize : Int := setDefaults zone.pageSize

/-- `SetPageKeyFromProp`. -/
def setPageKeyFromProp (so : PlacedProp) : Int × Int :=
  (so.cut.locationX.tdiv zone.mPageSize, so.cut.locationZ.tdiv zone.mPageSize)

/-- The props that `GetOrCreatePage` gives, by their keys. -/
def getOrCreatePage (px py : Int) : List SpawnProp :=
  (zone.props.filter fun so => zone.setPageKeyFromProp so = (px, py)).map PlacedProp.cut

/-- The configuration of an instance of the zone. -/
def config : SpawnConfig := { cfg with mPageSize := zone.mPageSize }

/-- `GenerateTile` for one tile after another. -/
def generateTiles (s : SpawnManager) (tiles : List (Int × Int)) : SpawnManager :=
  tiles.foldl (fun s c => s.generateTile (zone.config cfg) zone.getOrCreatePage c.1 c.2) s

variable {zone cfg}

end SceneryZone

/-! ### Filling a tile -/

theorem has_iff {t : SpawnTile} {id : Int} :
    t.has id = true ↔ ∃ sp ∈ t.activeSpawn, sp.propID = id := by
  simp [SpawnTile.has]

/-- Spawners of some props were added to a tile. -/
structure Fills (tile : Nat) (ids : Int → Prop) (s s' : SpawnManager) : Prop where
  addr_le : s.nextAddr ≤ s'.nextAddr
  exists_map : ∃ f : SpawnTile → SpawnTile,
    s'.spawnTiles = s.spawnTiles.map (fun t => if t.addr = tile then f t else t) ∧
    ∀ t, (f t).addr = t.addr ∧ (f t).coords = t.coords ∧
      (f t).sceneryLoaded = t.sceneryLoaded ∧
      ∀ id, (f t).has id = true ↔ t.has id = true ∨ ids id

namespace Fills

variable {tile : Nat} {p q : Int → Prop} {s s' s'' : SpawnManager} {cfg : SpawnConfig}

theorem congr (h : Fills tile p s s') (hpq : ∀ id, p id ↔ q id) : Fills tile q s s' := by
  obtain rfl : p = q := funext fun id => propext (hpq id)
  exact h

theorem refl (s : SpawnManager) : Fills tile (fun _ => False) s s := by
  refine ⟨le_refl _, id, ?_, fun t => ⟨rfl, rfl, rfl, fun id => by simp⟩⟩
  simp

theorem trans (h : Fills tile p s s') (h' : Fills tile q s' s'') :
    Fills tile (fun id => p id ∨ q id) s s'' := by
  obtain ⟨f, hf, hkeep⟩ := h.exists_map
  obtain ⟨g, hg, hkeep'⟩ := h'.exists_map
  refine ⟨h.addr_le.trans h'.addr_le, g ∘ f, ?_, fun t => ?_⟩
  · rw [hg, hf, List.map_map]
    apply List.map_congr_left
    intro t _
    by_cases ht : t.addr = tile
    · simp [ht, (hkeep t).1]
    · simp [ht]
  · obtain ⟨haddr, hcoords, hloaded, hhas⟩ := hkeep t
    obtain ⟨haddr', hcoords', hloaded', hhas'⟩ := hkeep' (f t)
    refine ⟨haddr'.trans haddr, hcoords'.trans hcoords, hloaded'.trans hloaded, fun id => ?_⟩
    rw [Function.comp_apply, hhas', hhas, or_assoc]

theorem foldl {α : Type*} (g : SpawnManager → α → SpawnManager) (ids : α → Int → Prop)
    (hstep : ∀ s a, Fills tile (ids a) s (g s a)) (l : List α) (s : SpawnManager) :
    Fills tile (fun id => ∃ a ∈ l, ids a id) s (l.foldl g s) := by
  induction l generalizing s with
  | nil => exact (refl s).congr fun id => by simp
  | cons a l ih =>
      exact ((hstep s a).trans (ih (g s a))).congr fun id => by simp

theorem mem_insertSpawner_id {l : List ActiveSpawner} {sp : ActiveSpawner} {id : Int} :
    (∃ e ∈ SpawnManager.insertSpawner l sp, e.propID = id) ↔
      (∃ e ∈ l, e.propID = id) ∨ id = sp.propID := by
  rw [SpawnManager.insertSpawner]
  split_ifs with hold
  · obtain ⟨old, hmem, heq⟩ := List.any_eq_true.mp hold
    constructor
    · exact Or.inl
    · rintro (h | rfl)
      · exact h
      · exact ⟨old, hmem, of_decide_eq_true heq⟩
  · constructor
    · rintro ⟨e, hmem, rfl⟩
      rcases List.mem_orderedInsert _ |>.mp hmem with rfl | hmem
      · exact Or.inr rfl
      · exact Or.inl ⟨e, hmem, rfl⟩
    · rintro (⟨e, hmem, rfl⟩ | rfl)
      · exact ⟨e, List.mem_orderedInsert _ |>.mpr (Or.inr hmem), rfl⟩
      · exact ⟨sp, List.mem_orderedInsert _ |>.mpr (Or.inl rfl), rfl⟩

/-- What `UpdateSourcePackage` answers depends on the prop only, and it keeps the ID. -/
theorem updateSourcePackage_fst (cfg : SpawnConfig) (sp : ActiveSpawner) :
    let newSpawner : ActiveSpawner :=
      { addr := 0, propID := sp.spawnPoint.id, spawnPoint := sp.spawnPoint }
    (sp.updateSourcePackage cfg).1 = (newSpawner.updateSourcePackage cfg).1 := by
  cases hextra : sp.spawnPoint.extraData <;>
    simp [ActiveSpawner.updateSourcePackage, hextra]

theorem updateSourcePackage_propID (cfg : SpawnConfig) (sp : ActiveSpawner) :
    (sp.updateSourcePackage cfg).2.propID = sp.propID := by
  rw [ActiveSpawner.updateSourcePackage]
  cases sp.spawnPoint.extraData <;> rfl

theorem addSpawnerFromProp (s : SpawnManager) (prop : SpawnProp) :
    Fills tile (fun id => prop.Derives cfg ∧ id = prop.id) s
      (s.addSpawnerFromProp cfg tile prop) := by
  have hderives := updateSourcePackage_fst cfg
    { addr := s.nextAddr, propID := prop.id, spawnPoint := prop }
  have hid := updateSourcePackage_propID cfg
    { addr := s.nextAddr, propID := prop.id, spawnPoint := prop }
  rw [SpawnManager.addSpawnerFromProp]
  split
  rename_i derived sp heq
  rw [heq] at hderives hid
  split_ifs with hadd
  · have hprop : prop.Derives cfg := by
      rw [Bool.and_eq_true] at hadd
      exact ⟨hadd.1, hderives ▸ hadd.2⟩
    refine ⟨Nat.le_succ _, fun t =>
      { t with activeSpawn := SpawnManager.insertSpawner t.activeSpawn sp }, rfl, fun t =>
      ⟨rfl, rfl, rfl, fun id => ?_⟩⟩
    rw [has_iff, has_iff, mem_insertSpawner_id, hid]
    simp [hprop]
  · refine (refl s).congr fun id => ?_
    simp only [false_iff, not_and]
    rintro ⟨hspawn, hderived⟩
    have hfirst : derived = true := hderives.trans hderived
    exact absurd (by rw [hspawn, hfirst]; rfl) hadd

theorem loadTileSpawnPoints (s : SpawnManager) (props : List SpawnProp) (x1 y1 x2 y2 : Int) :
    Fills tile (fun id => ∃ so ∈ props, (x1 ≤ so.locationX ∧ so.locationX ≤ x2 ∧
      y1 ≤ so.locationZ ∧ so.locationZ ≤ y2) ∧ so.Derives cfg ∧ id = so.id) s
      (s.loadTileSpawnPoints cfg tile props x1 y1 x2 y2) := by
  refine (foldl _ _ (fun s so => addSpawnerFromProp s so) _ s).congr fun id => ?_
  simp only [List.mem_filter, decide_eq_true_eq, and_assoc]

end Fills

/-! ### Generated tiles -/

namespace SceneryZone

open SpawnManager

variable {zone : SceneryZone} {cfg : SpawnConfig}

/-- The page is in the range that is searched for a tile, in one direction. -/
def PageInRange (pageSize tile page : Int) : Prop :=
  page ∈ intRange ((tile * spawnTileSize).tdiv pageSize)
    ((tile * spawnTileSize + spawnTileSize - 1).tdiv pageSize)

/-- The coordinate is within the bounds of a tile. -/
def InBounds (tile x : Int) : Prop :=
  tile * spawnTileSize ≤ x ∧ x ≤ tile * spawnTileSize + spawnTileSize - 1

/-- A prop is found when a tile is generated. -/
structure Found (zone : SceneryZone) (c : Int × Int) (so : PlacedProp) : Prop where
  pageX : PageInRange zone.mPageSize c.1 (zone.setPageKeyFromProp so).1
  pageZ : PageInRange zone.mPageSize c.2 (zone.setPageKeyFromProp so).2
  boundsX : InBounds c.1 so.cut.locationX
  boundsZ : InBounds c.2 so.cut.locationZ

/-- The spawners that a tile is generated with. -/
def Loads (zone : SceneryZone) (cfg : SpawnConfig) (c : Int × Int) (id : Int) : Prop :=
  ∃ so ∈ zone.props, zone.Found c so ∧ so.cut.Derives (zone.config cfg) ∧ id = so.id

/-- Every tile is loaded, with the spawners that belong in it. -/
structure Generated (zone : SceneryZone) (cfg : SpawnConfig) (tiles : List (Int × Int))
    (s : SpawnManager) : Prop where
  addr_lt : ∀ t ∈ s.spawnTiles, t.addr < s.nextAddr
  sceneryLoaded : ∀ t ∈ s.spawnTiles, t.sceneryLoaded = true
  nodup : (s.spawnTiles.map SpawnTile.coords).Nodup
  mem : ∀ c, c ∈ s.spawnTiles.map SpawnTile.coords ↔ c ∈ tiles
  has : ∀ t ∈ s.spawnTiles, ∀ id, t.has id = true ↔ zone.Loads cfg t.coords id

/-- What `GenerateTile` does to a tile that is new. -/
def load (zone : SceneryZone) (cfg : SpawnConfig) (s : SpawnManager) (tile : Nat)
    (c : Int × Int) : SpawnManager :=
  let x1 := c.1 * spawnTileSize
  let y1 := c.2 * spawnTileSize
  let x2 := x1 + spawnTileSize - 1
  let y2 := y1 + spawnTileSize - 1
  ((intRange (x1.tdiv zone.mPageSize) (x2.tdiv zone.mPageSize)).flatMap fun px =>
    (intRange (y1.tdiv zone.mPageSize) (y2.tdiv zone.mPageSize)).map fun py => (px, py)).foldl
      (fun s page => s.loadTileSpawnPoints (zone.config cfg) tile
        (zone.getOrCreatePage page.1 page.2) x1 y1 x2 y2) s

theorem fills_load (s : SpawnManager) (tile : Nat) (c : Int × Int) :
    Fills tile (zone.Loads cfg c) s (zone.load cfg s tile c) := by
  refine (Fills.foldl _ _ (fun s page => Fills.loadTileSpawnPoints s
    (zone.getOrCreatePage page.1 page.2) _ _ _ _) _ s).congr fun id => ?_
  constructor
  · rintro ⟨page, hpage, _, hmem, hbounds, hderives, rfl⟩
    obtain ⟨so, hfiltered, rfl⟩ := List.mem_map.mp hmem
    obtain ⟨hso, hkey⟩ := List.mem_filter.mp hfiltered
    obtain ⟨px, hpx, hpage⟩ := List.mem_flatMap.mp hpage
    obtain ⟨py, hpy, rfl⟩ := List.mem_map.mp hpage
    have hkey : zone.setPageKeyFromProp so = (px, py) := of_decide_eq_true hkey
    refine ⟨so, hso, ⟨?_, ?_, ⟨hbounds.1, hbounds.2.1⟩, hbounds.2.2⟩, hderives, rfl⟩
    · rw [hkey]
      exact hpx
    · rw [hkey]
      exact hpy
  · rintro ⟨so, hso, hfound, hderives, rfl⟩
    refine ⟨zone.setPageKeyFromProp so, ?_, so.cut, ?_, ⟨hfound.boundsX.1, hfound.boundsX.2,
      hfound.boundsZ⟩, hderives, rfl⟩
    · exact List.mem_flatMap.mpr ⟨_, hfound.pageX, List.mem_map.mpr ⟨_, hfound.pageZ, rfl⟩⟩
    · exact List.mem_map.mpr ⟨so, List.mem_filter.mpr ⟨hso, decide_eq_true rfl⟩, rfl⟩

/-- A tile that is loaded keeps everything but its release time. -/
theorem generateTile_old {s : SpawnManager} {tiles : List (Int × Int)} {c : Int × Int}
    (h : zone.Generated cfg tiles s) {old : SpawnTile}
    (hold : s.spawnTiles.find? (fun t => t.tileX = c.1 ∧ t.tileY = c.2) = some old) :
    zone.Generated cfg (tiles ++ [c])
      (s.generateTile (zone.config cfg) zone.getOrCreatePage c.1 c.2) := by
  have hmem := List.mem_of_find?_eq_some hold
  have hcoords : old.coords = c := by
    have hfound := List.find?_some hold
    simp only [decide_eq_true_eq] at hfound
    exact Prod.ext hfound.1 hfound.2
  have hc : c ∈ tiles := (h.mem c).mp (List.mem_map.mpr ⟨old, hmem, hcoords⟩)
  have hloaded : (s.spawnTiles.any fun t => t.addr = old.addr ∧ t.sceneryLoaded) = true :=
    List.any_eq_true.mpr ⟨old, hmem, by simp [h.sceneryLoaded old hmem]⟩
  have hstate : s.generateTile (zone.config cfg) zone.getOrCreatePage c.1 c.2 =
      s.modifyTile old.addr fun t => { t with releaseTime := s.now + garbageCheckDelay } := by
    simp only [SpawnManager.generateTile, SpawnManager.getTile, hold, hloaded, if_true]
  have hmap : ∀ t ∈ (s.modifyTile old.addr fun t =>
      { t with releaseTime := s.now + garbageCheckDelay }).spawnTiles, ∃ t' ∈ s.spawnTiles,
      t.addr = t'.addr ∧ t.coords = t'.coords ∧ t.sceneryLoaded = t'.sceneryLoaded ∧
        ∀ id, t.has id = t'.has id := by
    intro t ht
    obtain ⟨t', ht', rfl⟩ := List.mem_map.mp ht
    refine ⟨t', ht', ?_⟩
    split_ifs <;> exact ⟨rfl, rfl, rfl, fun id => rfl⟩
  have hsame : (s.modifyTile old.addr fun t =>
      { t with releaseTime := s.now + garbageCheckDelay }).spawnTiles.map SpawnTile.coords =
      s.spawnTiles.map SpawnTile.coords := by
    rw [SpawnManager.modifyTile, List.map_map]
    apply List.map_congr_left
    intro t _
    rw [Function.comp_apply]
    split_ifs <;> rfl
  rw [hstate]
  refine ⟨fun t ht => ?_, fun t ht => ?_, hsame ▸ h.nodup, fun c' => ?_, fun t ht id => ?_⟩
  · obtain ⟨t', ht', haddr, -⟩ := hmap t ht
    exact haddr ▸ h.addr_lt t' ht'
  · obtain ⟨t', ht', -, -, hsame, -⟩ := hmap t ht
    exact hsame.trans (h.sceneryLoaded t' ht')
  · rw [hsame, h.mem, List.mem_append, List.mem_singleton]
    constructor
    · exact Or.inl
    · rintro (hmem | rfl)
      · exact hmem
      · exact hc
  · obtain ⟨t', ht', -, hcoords, -, hhas⟩ := hmap t ht
    rw [hhas, hcoords]
    exact h.has t' ht' id

/-- A change of the newest tile leaves the others. -/
theorem map_newest {l : List SpawnTile} {made : SpawnTile} (hlt : ∀ t ∈ l, t.addr < made.addr)
    (f : SpawnTile → SpawnTile) :
    (l ++ [made]).map (fun t => if t.addr = made.addr then f t else t) = l ++ [f made] := by
  rw [List.map_append, List.map_singleton, if_pos rfl]
  congr 1
  calc l.map (fun t => if t.addr = made.addr then f t else t)
      = l.map id := List.map_congr_left fun t ht => if_neg (hlt t ht).ne
    _ = l := List.map_id l

/-- A tile that is new comes last, with its spawners. -/
theorem generateTile_new {s : SpawnManager} {tiles : List (Int × Int)} {c : Int × Int}
    (h : zone.Generated cfg tiles s)
    (hnew : s.spawnTiles.find? (fun t => t.tileX = c.1 ∧ t.tileY = c.2) = none) :
    ∃ made : SpawnTile, (s.generateTile (zone.config cfg) zone.getOrCreatePage c.1 c.2).spawnTiles =
        s.spawnTiles ++ [made] ∧ made.addr = s.nextAddr ∧ made.coords = c ∧
      made.sceneryLoaded = true ∧ (∀ id, made.has id = true ↔ zone.Loads cfg c id) ∧
      s.nextAddr < (s.generateTile (zone.config cfg) zone.getOrCreatePage c.1 c.2).nextAddr := by
  let made : SpawnTile :=
    { addr := s.nextAddr
      tileX := c.1
      tileY := c.2
      releaseTime := s.now + garbageCheckDelay }
  let s₁ : SpawnManager :=
    { s with spawnTiles := s.spawnTiles ++ [made], nextAddr := s.nextAddr + 1 }
  have hlt : ∀ t ∈ s.spawnTiles, t.addr < made.addr := h.addr_lt
  have hloaded : ((s.spawnTiles ++
      [({ addr := s.nextAddr, tileX := c.1, tileY := c.2 } : SpawnTile)]).any
      fun t => t.addr = s.nextAddr ∧ t.sceneryLoaded) = false := by
    rw [List.any_eq_false]
    intro t ht
    rcases List.mem_append.mp ht with ht | ht
    · simp [(h.addr_lt t ht).ne]
    · simp [List.mem_singleton.mp ht]
  have hmade : (s.spawnTiles ++
      [({ addr := s.nextAddr, tileX := c.1, tileY := c.2 } : SpawnTile)]).map
      (fun t => if t.addr = s.nextAddr then
        { t with releaseTime := s.now + garbageCheckDelay } else t) = s.spawnTiles ++ [made] :=
    @map_newest _ { addr := s.nextAddr, tileX := c.1, tileY := c.2 } h.addr_lt _
  have hstate : s.generateTile (zone.config cfg) zone.getOrCreatePage c.1 c.2 =
      (zone.load cfg s₁ s.nextAddr c).modifyTile s.nextAddr
        fun t => { t with sceneryLoaded := true } := by
    simp only [SpawnManager.generateTile, SpawnManager.getTile, hnew, hloaded,
      SpawnManager.modifyTile, hmade, Bool.false_eq_true, if_false]
    rfl
  have hfills : Fills s.nextAddr (zone.Loads cfg c) s₁ (zone.load cfg s₁ s.nextAddr c) :=
    fills_load s₁ s.nextAddr c
  obtain ⟨f, hf, hkeep⟩ := hfills.exists_map
  have hload : (zone.load cfg s₁ s.nextAddr c).spawnTiles = s.spawnTiles ++ [f made] :=
    hf.trans (map_newest hlt f)
  obtain ⟨haddr, hcoords, -, hhas⟩ := hkeep made
  refine ⟨{ f made with sceneryLoaded := true }, ?_, haddr, hcoords, rfl, fun id => ?_, ?_⟩
  · rw [hstate, SpawnManager.modifyTile, hload]
    rw [show s.nextAddr = (f made).addr from haddr.symm]
    exact map_newest (fun t ht => (hlt t ht).trans_eq haddr.symm) _
  · have hempty : made.has id = false := rfl
    calc SpawnTile.has { f made with sceneryLoaded := true } id = true
        ↔ (f made).has id = true := Iff.rfl
      _ ↔ made.has id = true ∨ zone.Loads cfg c id := hhas id
      _ ↔ zone.Loads cfg c id := by simp [hempty]
  · rw [hstate]
    exact hfills.addr_le

theorem Generated.generateTile {s : SpawnManager} {tiles : List (Int × Int)} {c : Int × Int}
    (h : zone.Generated cfg tiles s) : zone.Generated cfg (tiles ++ [c])
      (s.generateTile (zone.config cfg) zone.getOrCreatePage c.1 c.2) := by
  cases hfind : s.spawnTiles.find? fun t => t.tileX = c.1 ∧ t.tileY = c.2 with
  | some old => exact generateTile_old h hfind
  | none =>
      obtain ⟨made, htiles, haddr, hcoords, hloaded, hhas, hlt⟩ := generateTile_new h hfind
      have hc : c ∉ s.spawnTiles.map SpawnTile.coords := by
        intro hc
        obtain ⟨t, ht, rfl⟩ := List.mem_map.mp hc
        exact absurd (decide_eq_true ⟨rfl, rfl⟩) (List.find?_eq_none.mp hfind t ht)
      constructor <;> rw [htiles]
      · intro t ht
        rcases List.mem_append.mp ht with ht | ht
        · exact (h.addr_lt t ht).trans hlt
        · rw [List.mem_singleton.mp ht, haddr]
          exact hlt
      · intro t ht
        rcases List.mem_append.mp ht with ht | ht
        · exact h.sceneryLoaded t ht
        · rw [List.mem_singleton.mp ht, hloaded]
      · rw [List.map_append, List.map_singleton, hcoords, List.nodup_append]
        refine ⟨h.nodup, List.nodup_singleton c, fun a ha b hb hab => hc ?_⟩
        rw [← List.mem_singleton.mp hb, ← hab]
        exact ha
      · intro c'
        rw [List.map_append, List.map_singleton, hcoords, List.mem_append, List.mem_append, h.mem]
      · intro t ht id
        rcases List.mem_append.mp ht with ht | ht
        · exact h.has t ht id
        · rw [List.mem_singleton.mp ht, hcoords]
          exact hhas id

/-- The step lemma over a run. -/
theorem generated_generateTiles (tiles : List (Int × Int)) :
    zone.Generated cfg tiles (zone.generateTiles cfg {} tiles) := by
  induction tiles using List.reverseRecOn with
  | nil => exact ⟨by simp [generateTiles], by simp [generateTiles], List.nodup_nil,
      by simp [generateTiles], by simp [generateTiles]⟩
  | append_singleton tiles c ih =>
      rw [generateTiles, List.foldl_append]
      exact ih.generateTile

/-! ### The tile of a position -/

theorem mem_intRange {a b n : Int} : n ∈ intRange a b ↔ a ≤ n ∧ n ≤ b := by
  have hmem : n ∈ intRange a b ↔ ∃ i : Nat, i < (b - a + 1).toNat ∧ a + i = n := by
    simp [intRange]
  rw [hmem]
  constructor
  · rintro ⟨i, hi, rfl⟩
    omega
  · rintro ⟨hlow, hhigh⟩
    exact ⟨(n - a).toNat, by omega, by omega⟩

theorem inBounds_iff {tile x : Int} : InBounds tile x ↔ tile = x / spawnTileSize := by
  rw [InBounds, spawnTileSize]
  omega

/-- The first edge of a tile is not on a later page than the last. A page size above zero gives
this. -/
def PagesInOrder (pageSize tile : Int) : Prop :=
  (tile * spawnTileSize).tdiv pageSize ≤
    (tile * spawnTileSize + spawnTileSize - 1).tdiv pageSize

theorem tdiv_mono {pageSize a b : Int} (hsize : 0 ≤ pageSize) (hab : a ≤ b) :
    a.tdiv pageSize ≤ b.tdiv pageSize := by
  rcases hsize.eq_or_lt with rfl | hpos
  · simp
  · exact Int.tdiv_le_tdiv hpos hab

/-- The page of a coordinate is searched for the tile of the coordinate. -/
theorem pageInRange_iff {pageSize tile x : Int} (h : InBounds tile x) :
    PageInRange pageSize tile (x.tdiv pageSize) ↔ PagesInOrder pageSize tile := by
  obtain ⟨hlow, hhigh⟩ := h
  rw [PageInRange, mem_intRange, PagesInOrder]
  constructor
  · rintro ⟨hfirst, hlast⟩
    exact hfirst.trans hlast
  · intro horder
    rcases le_or_gt 0 pageSize with hsize | hneg
    · exact ⟨tdiv_mono hsize hlow, tdiv_mono hsize hhigh⟩
    · -- the quotients fall, so an order of the edges makes all of them one page
      have hsize : 0 ≤ -pageSize := by omega
      have hlow' := tdiv_mono hsize hlow
      have hhigh' := tdiv_mono hsize hhigh
      simp only [Int.tdiv_neg] at hlow' hhigh'
      omega

theorem found_iff {c : Int × Int} {so : PlacedProp} :
    zone.Found c so ↔ c = so.floorTile ∧ PagesInOrder zone.mPageSize so.floorTile.1 ∧
      PagesInOrder zone.mPageSize so.floorTile.2 := by
  constructor
  · intro h
    have hx : c.1 = so.floorTile.1 := inBounds_iff.mp h.boundsX
    have hz : c.2 = so.floorTile.2 := inBounds_iff.mp h.boundsZ
    exact ⟨Prod.ext hx hz, hx ▸ (pageInRange_iff h.boundsX).mp h.pageX,
      hz ▸ (pageInRange_iff h.boundsZ).mp h.pageZ⟩
  · rintro ⟨rfl, hx, hz⟩
    have hboundsX : InBounds so.floorTile.1 so.cut.locationX := inBounds_iff.mpr rfl
    have hboundsZ : InBounds so.floorTile.2 so.cut.locationZ := inBounds_iff.mpr rfl
    exact ⟨(pageInRange_iff hboundsX).mpr hx, (pageInRange_iff hboundsZ).mpr hz, hboundsX, hboundsZ⟩

theorem loads_iff {c : Int × Int} {so : PlacedProp} (hmem : so ∈ zone.props)
    (hderives : so.cut.Derives (zone.config cfg)) :
    zone.Loads cfg c so.id ↔ zone.Found c so := by
  constructor
  · rintro ⟨so', hmem', hfound, -, hid⟩
    rw [List.inj_on_of_nodup_map zone.distinct hmem hmem' hid]
    exact hfound
  · intro hfound
    exact ⟨so, hmem, hfound, hderives, rfl⟩

/-- A spawn point is loaded into the tile whose bounds it is in, and into no other. -/
theorem tilesOf_generateTiles {so : PlacedProp} (hmem : so ∈ zone.props)
    (hderives : so.cut.Derives (zone.config cfg)) (tiles : List (Int × Int)) :
    (PagesInOrder zone.mPageSize so.floorTile.1 ∧ PagesInOrder zone.mPageSize so.floorTile.2 →
      (zone.generateTiles cfg {} tiles).tilesOf so.id =
        if so.floorTile ∈ tiles then [so.floorTile] else []) ∧
    (¬(PagesInOrder zone.mPageSize so.floorTile.1 ∧ PagesInOrder zone.mPageSize so.floorTile.2) →
      (zone.generateTiles cfg {} tiles).tilesOf so.id = []) := by
  have h : zone.Generated cfg tiles (zone.generateTiles cfg {} tiles) :=
    generated_generateTiles tiles
  generalize zone.generateTiles cfg {} tiles = s at h
  have hhas : ∀ t ∈ s.spawnTiles, t.has so.id = true ↔ t.coords = so.floorTile ∧
      PagesInOrder zone.mPageSize so.floorTile.1 ∧ PagesInOrder zone.mPageSize so.floorTile.2 :=
    fun t ht => (h.has t ht so.id).trans ((loads_iff hmem hderives).trans found_iff)
  constructor
  · intro horder
    have hfilter : s.spawnTiles.filter (fun t => t.has so.id) =
        s.spawnTiles.filter fun t => t.coords == so.floorTile := by
      apply List.filter_congr
      intro t ht
      rw [Bool.eq_iff_iff, hhas t ht, beq_iff_eq]
      exact and_iff_left horder
    calc s.tilesOf so.id
        = (s.spawnTiles.filter fun t => t.coords == so.floorTile).map SpawnTile.coords := by
          rw [SpawnManager.tilesOf, hfilter]
      _ = (s.spawnTiles.map SpawnTile.coords).filter fun c => c == so.floorTile := by
          rw [List.filter_map]
          rfl
      _ = List.replicate ((s.spawnTiles.map SpawnTile.coords).count so.floorTile) so.floorTile :=
          List.filter_beq _
      _ = if so.floorTile ∈ tiles then [so.floorTile] else [] := by
          rw [List.Nodup.count h.nodup]
          simp only [h.mem]
          split_ifs <;> rfl
  · intro horder
    rw [SpawnManager.tilesOf, List.map_eq_nil_iff, List.filter_eq_nil_iff]
    exact fun t ht hin => horder ((hhas t ht).mp hin).2

end SceneryZone

/-! ### The quotient as a float -/

/-- The quotient of a coordinate by the tile size, cut to an integer as the code cuts it, is the
tile that the coordinate lies in. -/
def OnGrid (x : ℚ) : Prop :=
  spawnTileSize ∣ trunc x ∨ 0 ≤ trunc x ∧ ¬Single.RoundsUp (x / spawnTileSize)

section

variable {x : ℚ}

theorem quotient_small (hsmall : |x| < 2 ^ 31) : |x / spawnTileSize| < 2 ^ 22 := by
  have hsize : ((spawnTileSize : Int) : ℚ) = 560 := rfl
  rw [hsize, abs_div, div_lt_iff₀ (by norm_num)]
  calc |x| < 2 ^ 31 := hsmall
    _ ≤ 2 ^ 22 * |560| := by norm_num

theorem floor_quotient (hx : 0 ≤ x) : ⌊x / spawnTileSize⌋ = trunc x / spawnTileSize := by
  rw [trunc_of_nonneg hx]
  exact Int.floor_div_natCast x 560

/-- From zero on the rounded quotient is too large only where it is rounded up to a whole number. -/
theorem trunc_round_iff (hx : 0 ≤ x) (hsmall : |x| < 2 ^ 31) :
    trunc (Single.round (x / spawnTileSize)) = trunc x / spawnTileSize ↔
      ¬Single.RoundsUp (x / spawnTileSize) := by
  obtain ⟨hlow, hhigh, hup⟩ := Single.round_between (quotient_small hsmall)
  have hfloor := floor_quotient hx
  have hquotient : (0 : ℚ) ≤ x / spawnTileSize := div_nonneg hx (by norm_num [spawnTileSize])
  have hnonneg : 0 ≤ Single.round (x / spawnTileSize) := by
    have hzero : (0 : ℚ) ≤ ⌊x / spawnTileSize⌋ := by exact_mod_cast Int.floor_nonneg.mpr hquotient
    exact hzero.trans hlow
  rw [trunc_of_nonneg hnonneg, ← hfloor, Int.floor_eq_iff, ← hup]
  constructor
  · rintro ⟨-, hlt⟩ heq
    exact absurd heq hlt.ne
  · intro hne
    exact ⟨hlow, lt_of_le_of_ne hhigh hne⟩

/-- At an edge the quotient is not rounded up. -/
theorem trunc_round_of_dvd (hdvd : spawnTileSize ∣ trunc x) (hsmall : |x| < 2 ^ 31) :
    trunc (Single.round (x / spawnTileSize)) = trunc x / spawnTileSize := by
  obtain ⟨k, hk⟩ := hdvd
  have hnear : ∀ y : ℚ, 0 ≤ y → |y| < 2 ^ 31 → spawnTileSize ∣ trunc y →
      trunc (Single.round (y / spawnTileSize)) = trunc y / spawnTileSize := by
    intro y hy hsmall ⟨k, hk⟩
    apply (trunc_round_iff hy hsmall).mpr
    apply Single.not_roundsUp (quotient_small hsmall)
    have hfloor : ⌊y⌋ = spawnTileSize * k := by rw [← trunc_of_nonneg hy, hk]
    have hlt := Int.lt_floor_add_one y
    have hwhole : ⌊y / spawnTileSize⌋ = k := by
      rw [floor_quotient hy, hk]
      exact Int.mul_ediv_cancel_left k (by decide)
    have hcast : (⌊y⌋ : ℚ) = 560 * k := by
      rw [hfloor, spawnTileSize]
      push_cast
      ring
    rw [hwhole, spawnTileSize, div_le_iff₀ (by norm_num)]
    push_cast
    linarith
  rcases le_total 0 x with hx | hx
  · exact hnear x hx hsmall ⟨k, hk⟩
  · have hneg := hnear (-x) (neg_nonneg.mpr hx) (by rwa [abs_neg]) ⟨-k, by rw [trunc_neg, hk]; ring⟩
    rw [neg_div, Single.round_neg, trunc_neg, trunc_neg, hk, ← mul_neg,
      Int.mul_ediv_cancel_left _ (by decide)] at hneg
    rw [hk, Int.mul_ediv_cancel_left _ (by decide)]
    omega

theorem onGrid_iff (hsmall : |x| < 2 ^ 31) :
    OnGrid x ↔ trunc (Single.round (x / spawnTileSize)) = trunc x / spawnTileSize ∧
      (trunc x).tdiv spawnTileSize = trunc x / spawnTileSize := by
  by_cases hdvd : spawnTileSize ∣ trunc x
  · exact iff_of_true (Or.inl hdvd)
      ⟨trunc_round_of_dvd hdvd hsmall, Int.tdiv_eq_ediv_of_dvd hdvd⟩
  · have hne : trunc x ≠ 0 := fun h => hdvd (h ▸ dvd_zero _)
    have htdiv : (trunc x).tdiv spawnTileSize = trunc x / spawnTileSize ↔ 0 ≤ trunc x := by
      rw [Int.tdiv_eq_ediv]
      split_ifs with h
      · simpa using h.resolve_right hdvd
      · have hneg : ¬0 ≤ trunc x := fun hx => h (Or.inl hx)
        simp only [hneg, iff_false]
        have hone : Int.sign spawnTileSize = 1 := rfl
        omega
    rw [OnGrid, or_iff_right hdvd, htdiv, and_comm]
    apply and_congr_left
    intro hx
    have hpos : 0 ≤ x := by
      by_contra hneg
      have hle := trunc_of_nonpos (not_le.mp hneg).le
      have hceil : ⌈x⌉ ≤ 0 := Int.ceil_le.mpr (by exact_mod_cast (not_le.mp hneg).le)
      omega
    exact (trunc_round_iff hpos hsmall).symm

end

/-! ### The home of a spawn point -/

namespace SceneryZone

variable {zone : SceneryZone} {cfg : SpawnConfig}

/-- Tiles are compared by their addresses. -/
local instance lawfulBEq_tile : LawfulBEq (Int × Int) := inferInstance

/-- There is one tile that the spawn point is loaded into whenever that tile is generated, and it is
the tile that the position of the prop gives. -/
def HasHome (zone : SceneryZone) (cfg : SpawnConfig) (so : PlacedProp) : Prop :=
  ∃ home, (∀ tiles, (zone.generateTiles cfg {} tiles).tilesOf so.id =
      if home ∈ tiles then [home] else []) ∧
    so.updateTile = home ∧ so.standingTile = home

/-- A spawn point has a home exactly where the pages of its tile are searched, as they are for every
page size above zero, and neither of its coordinates is between two edges below zero or rounded up
to an edge. -/
theorem hasHome_iff {so : PlacedProp} (hmem : so ∈ zone.props)
    (hderives : so.cut.Derives (zone.config cfg)) :
    zone.HasHome cfg so ↔ (PagesInOrder zone.mPageSize so.floorTile.1 ∧
      PagesInOrder zone.mPageSize so.floorTile.2) ∧ OnGrid so.locationX ∧ OnGrid so.locationZ := by
  have hgrid : OnGrid so.locationX ∧ OnGrid so.locationZ ↔
      so.updateTile = so.floorTile ∧ so.standingTile = so.floorTile := by
    rw [onGrid_iff (so.smallX.trans (by norm_num)), onGrid_iff (so.smallZ.trans (by norm_num))]
    constructor
    · rintro ⟨⟨hroundX, hdivX⟩, hroundZ, hdivZ⟩
      exact ⟨Prod.ext hroundX hroundZ, Prod.ext hdivX hdivZ⟩
    · rintro ⟨hround, hdiv⟩
      exact ⟨⟨congrArg Prod.fst hround, congrArg Prod.fst hdiv⟩, congrArg Prod.snd hround,
        congrArg Prod.snd hdiv⟩
  rw [hgrid]
  constructor
  · rintro ⟨home, htiles, hupdate, hstanding⟩
    obtain ⟨hfound, hlost⟩ := tilesOf_generateTiles hmem hderives [home]
    have horder : PagesInOrder zone.mPageSize so.floorTile.1 ∧
        PagesInOrder zone.mPageSize so.floorTile.2 := by
      by_contra horder
      have hnone := hlost horder
      rw [htiles, if_pos (List.mem_singleton_self home)] at hnone
      exact absurd hnone (List.cons_ne_nil _ _)
    have hhome : so.floorTile = home := by
      have hone := hfound horder
      rw [htiles, if_pos (List.mem_singleton_self home)] at hone
      split_ifs at hone with hin
      exact List.mem_singleton.mp hin
    rw [hhome]
    exact ⟨hhome ▸ horder, hupdate, hstanding⟩
  · rintro ⟨horder, hupdate, hstanding⟩
    exact ⟨so.floorTile, fun tiles => (tilesOf_generateTiles hmem hderives tiles).1 horder, hupdate,
      hstanding⟩

/-- A spawn point at whole coordinates. -/
def postAt (x z : Int) (hx : |x| < 2 ^ 31 - 128) (hz : |z| < 2 ^ 31 - 128) : PlacedProp where
  id := 1
  locationX := x
  locationZ := z
  extraData := some {}
  smallX := by exact_mod_cast hx
  smallZ := by exact_mod_cast hz

/-- A zone with one spawn point. -/
def lone (so : PlacedProp) : SceneryZone where
  pageSize := 1920
  props := [so]
  distinct := List.nodup_singleton _

theorem hasHome_iff_inside :
    (lone (postAt 100 2000 (by decide) (by decide))).HasHome { getPointerByName := fun _ => none }
        (postAt 100 2000 (by decide) (by decide)) ↔
      (PagesInOrder 1920 0 ∧ PagesInOrder 1920 3) ∧ OnGrid (100 : Int) ∧ OnGrid (2000 : Int) :=
  hasHome_iff (List.mem_singleton_self _) ⟨rfl, rfl⟩

def lowPost : PlacedProp := postAt (-100) 100 (by decide) (by decide)

/-- A spawn point at -100 is not loaded into the tile 0, which its position gives. -/
theorem below_zero_homeless :
    lowPost ∈ (lone lowPost).props ∧
      lowPost.cut.Derives ((lone lowPost).config { getPointerByName := fun _ => none }) ∧
      ¬(lone lowPost).HasHome { getPointerByName := fun _ => none } lowPost := by
  refine ⟨List.mem_singleton_self _, ⟨rfl, rfl⟩, ?_⟩
  rintro ⟨home, htiles, -, rfl⟩
  have hall := htiles [(0, 0)]
  revert hall
  decide

end SceneryZone

end Iceee
