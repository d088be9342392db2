import Iceee.Spawner.Manager
import Iceee.Lib.Keyed

/-!
# Spawners with their tiles

What each operation of `SpawnManager` does to the spawners, each with the address of its tile
(`posts`), and to the lists of attached creatures of the tiles (`yards`).
-/

namespace Iceee

open Lib

namespace SpawnManager

/-- The spawners, each with the address of its tile. -/
def posts (s : SpawnManager) : List (Nat × ActiveSpawner) :=
  s.spawnTiles.flatMap fun t => t.activeSpawn.map fun sp => (t.addr, sp)

/-- The attached creatures of each tile. -/
def yards (s : SpawnManager) : List (Nat × List Int) :=
  s.spawnTiles.map fun t => (t.addr, t.attachedCreatureID)

variable {s : SpawnManager} {cfg : SpawnConfig}

theorem mem_posts {p : Nat × ActiveSpawner} :
    p ∈ s.posts ↔ ∃ t ∈ s.spawnTiles, t.addr = p.1 ∧ p.2 ∈ t.activeSpawn := by
  obtain ⟨a, sp⟩ := p
  simp [posts, and_comm]

theorem mem_spawners {sp : ActiveSpawner} : sp ∈ s.spawners ↔ ∃ a, (a, sp) ∈ s.posts := by
  simp only [mem_posts, spawners, List.mem_flatMap]
  constructor
  · rintro ⟨t, ht, hsp⟩
    exact ⟨t.addr, t, ht, rfl, hsp⟩
  · rintro ⟨a, t, ht, -, hsp⟩
    exact ⟨t, ht, hsp⟩

theorem mem_yards {y : Nat × List Int} :
    y ∈ s.yards ↔ ∃ t ∈ s.spawnTiles, t.addr = y.1 ∧ t.attachedCreatureID = y.2 := by
  obtain ⟨a, l⟩ := y
  simp [yards]

/-! ### Changing spawners and tiles -/

section Modify

variable {addr : Nat}

theorem mem_posts_modifySpawner {f : ActiveSpawner → ActiveSpawner} {p : Nat × ActiveSpawner} :
    p ∈ (s.modifySpawner addr f).posts ↔
      ∃ sp, (p.1, sp) ∈ s.posts ∧ p.2 = if sp.addr = addr then f sp else sp := by
  rw [mem_posts]
  constructor
  · rintro ⟨t', ht', ha, hp⟩
    obtain ⟨t, ht, rfl⟩ := List.mem_map.mp ht'
    obtain ⟨sp, hsp, heq⟩ := List.mem_map.mp hp
    exact ⟨sp, mem_posts.mpr ⟨t, ht, ha, hsp⟩, heq.symm⟩
  · rintro ⟨sp, hsp, heq⟩
    obtain ⟨t, ht, ha, hmem⟩ := mem_posts.mp hsp
    exact ⟨_, List.mem_map_of_mem ht, ha, List.mem_map.mpr ⟨sp, hmem, heq.symm⟩⟩

@[simp] theorem yards_modifySpawner (s : SpawnManager) (addr : Nat)
    (f : ActiveSpawner → ActiveSpawner) : (s.modifySpawner addr f).yards = s.yards := by
  unfold yards modifySpawner
  rw [List.map_map]
  rfl

/-- A change of a tile that leaves its spawners and creatures. -/
theorem posts_modifyTile {f : SpawnTile → SpawnTile} (haddr : ∀ t, (f t).addr = t.addr)
    (hspawn : ∀ t, (f t).activeSpawn = t.activeSpawn) :
    (s.modifyTile addr f).posts = s.posts := by
  unfold posts modifyTile
  rw [List.flatMap_map]
  apply List.flatMap_congr
  intro t _
  split
  · rw [haddr, hspawn]
  · rfl

theorem yards_modifyTile {f : SpawnTile → SpawnTile} (haddr : ∀ t, (f t).addr = t.addr)
    (hattached : ∀ t, (f t).attachedCreatureID = t.attachedCreatureID) :
    (s.modifyTile addr f).yards = s.yards := by
  unfold yards modifyTile
  rw [List.map_map]
  apply List.map_congr_left
  intro t _
  simp only [Function.comp_apply]
  split
  · rw [haddr, hattached]
  · rfl

end Modify

/-! ### Finding -/

theorem findSpawner_mem {propID : Int} {p : Nat × ActiveSpawner}
    (h : s.findSpawner propID = some p) : p ∈ s.posts := by
  obtain ⟨t, ht, hfind⟩ := List.exists_of_findSome?_eq_some h
  obtain ⟨sp, hsp, rfl⟩ := Option.map_eq_some_iff.mp hfind
  exact mem_posts.mpr ⟨t, ht, rfl, List.mem_of_find?_eq_some hsp⟩

/-! ### Tiles that are made -/

/-- `GetTile` leaves the spawners; a tile that it makes is empty and has a new address. -/
theorem getTile_cases (s : SpawnManager) (tileX tileY : Int) :
    ((s.getTile tileX tileY).2 = s ∧ ∃ y ∈ s.yards, y.1 = (s.getTile tileX tileY).1) ∨
      (s.getTile tileX tileY).1 = s.nextAddr ∧
      (s.getTile tileX tileY).2.posts = s.posts ∧
      (s.getTile tileX tileY).2.yards = s.yards ++ [(s.nextAddr, [])] ∧
      (s.getTile tileX tileY).2.npcs = s.npcs ∧
      (s.getTile tileX tileY).2.nextActorID = s.nextActorID ∧
      (s.getTile tileX tileY).2.nextAddr = s.nextAddr + 1 := by
  unfold getTile
  cases hfind : s.spawnTiles.find? fun t => t.tileX = tileX ∧ t.tileY = tileY with
  | some t =>
      have ht := List.mem_of_find?_eq_some hfind
      exact .inl ⟨rfl, _, List.mem_map_of_mem ht, rfl⟩
  | none =>
      refine .inr ⟨rfl, ?_, ?_, rfl, rfl, rfl⟩
      · simp [posts]
      · simp [yards]

/-- The tile that `GetTile` gives is there. -/
theorem getTile_mem (s : SpawnManager) (tileX tileY : Int) :
    ∃ y ∈ (s.getTile tileX tileY).2.yards, y.1 = (s.getTile tileX tileY).1 := by
  obtain ⟨hsame, hy⟩ | ⟨haddr, -, hyards, -⟩ := getTile_cases s tileX tileY
  · rw [hsame]
    exact hy
  · rw [haddr, hyards]
    exact ⟨_, List.mem_append_right _ List.mem_cons_self, rfl⟩

/-! ### Spawners that are made -/

/-- A spawner as it is made from a prop. -/
structure IsNew (s : SpawnManager) (prop : SpawnProp) (sp : ActiveSpawner) : Prop where
  addr : sp.addr = s.nextAddr
  spawnPoint : sp.spawnPoint = prop
  spawnCount : sp.spawnCount = 0
  refCount : sp.refCount = 0
  attached : sp.attachedCreatureID = []

theorem updateSourcePackage_frame (sp : ActiveSpawner) :
    ∃ spawnPackage, (sp.updateSourcePackage cfg).2 = { sp with spawnPackage := spawnPackage } := by
  unfold ActiveSpawner.updateSourcePackage
  split
  · exact ⟨sp.spawnPackage, rfl⟩
  · exact ⟨_, rfl⟩

theorem mem_insertSpawner {l : List ActiveSpawner} {sp e : ActiveSpawner}
    (h : e ∈ insertSpawner l sp) : e ∈ l ∨ e = sp := by
  unfold insertSpawner at h
  split at h
  · exact .inl h
  · exact ((List.mem_orderedInsert _).mp h).symm

theorem mem_insertSpawner_of_mem {l : List ActiveSpawner} {sp e : ActiveSpawner} (h : e ∈ l) :
    e ∈ insertSpawner l sp := by
  unfold insertSpawner
  split
  · exact h
  · exact (List.mem_orderedInsert _).mpr (.inr h)

/-- `AddSpawnerFromProp` changes nothing or adds a new spawner to the tile. -/
theorem addSpawnerFromProp_cases (cfg : SpawnConfig) (s : SpawnManager) (tile : Nat)
    (prop : SpawnProp) :
    s.addSpawnerFromProp cfg tile prop = s ∨ ∃ sp, s.IsNew prop sp ∧
      (∀ p ∈ (s.addSpawnerFromProp cfg tile prop).posts,
        p ∈ s.posts ∨ p = (tile, sp) ∧ ∃ y ∈ s.yards, y.1 = tile) ∧
      (∀ p ∈ s.posts, p ∈ (s.addSpawnerFromProp cfg tile prop).posts) ∧
      (s.addSpawnerFromProp cfg tile prop).yards = s.yards ∧
      (s.addSpawnerFromProp cfg tile prop).npcs = s.npcs ∧
      (s.addSpawnerFromProp cfg tile prop).nextActorID = s.nextActorID ∧
      (s.addSpawnerFromProp cfg tile prop).nextAddr = s.nextAddr + 1 := by
  have hnew : s.IsNew prop (ActiveSpawner.updateSourcePackage cfg
      { addr := s.nextAddr, propID := prop.id, spawnPoint := prop }).2 := by
    obtain ⟨spawnPackage, hframe⟩ := @updateSourcePackage_frame cfg
      { addr := s.nextAddr, propID := prop.id, spawnPoint := prop }
    rw [hframe]
    exact ⟨rfl, rfl, rfl, rfl, rfl⟩
  unfold addSpawnerFromProp
  dsimp only
  split
  · refine .inr ⟨_, hnew, fun p hp => ?_, fun p hp => ?_, ?_, rfl, rfl, rfl⟩
    · obtain ⟨t', ht', ha, hsp⟩ := mem_posts.mp hp
      obtain ⟨t, ht, rfl⟩ := List.mem_map.mp ht'
      by_cases htile : t.addr = tile
      · rw [if_pos htile] at ha hsp
        obtain hsp | hsp := mem_insertSpawner hsp
        · exact .inl (mem_posts.mpr ⟨t, ht, ha, hsp⟩)
        · exact .inr ⟨Prod.ext (ha.symm.trans htile) hsp, _, List.mem_map_of_mem ht, htile⟩
      · rw [if_neg htile] at ha hsp
        exact .inl (mem_posts.mpr ⟨t, ht, ha, hsp⟩)
    · obtain ⟨t, ht, ha, hsp⟩ := mem_posts.mp hp
      refine mem_posts.mpr ⟨_, List.mem_map_of_mem ht, ?_, ?_⟩
      · split
        · exact ha
        · exact ha
      · split
        · exact mem_insertSpawner_of_mem hsp
        · exact hsp
    · exact yards_modifyTile (fun _ => rfl) fun _ => rfl
  · exact .inl rfl

/-! ### Creatures that leave -/

/-- A creature that is forgotten by its spawner, and is gone or points to none. -/
structure Leaves (s s' : SpawnManager) (npc : SpawnedNPC) : Prop where
  posts_from : ∀ p ∈ s'.posts, ∃ sp, (p.1, sp) ∈ s.posts ∧
    p.2 = if npc.spawnGen = some sp.addr then sp.notifyKill s.now npc.creatureID else sp
  posts_to : ∀ p ∈ s.posts, (p.1, if npc.spawnGen = some p.2.addr then
    p.2.notifyKill s.now npc.creatureID else p.2) ∈ s'.posts
  yards : s'.yards = s.yards
  npcs_from : ∀ n ∈ s'.npcs, n ∈ s.npcs ∧ n.creatureID ≠ npc.creatureID ∨
    n.creatureID = npc.creatureID ∧ n.spawnGen = none ∧ n.spawnTile = none
  npcs_to : ∀ n ∈ s.npcs, n.creatureID ≠ npc.creatureID → n ∈ s'.npcs
  npc_ids : (s'.npcs.map SpawnedNPC.creatureID).Sublist (s.npcs.map SpawnedNPC.creatureID)
  nextActorID : s'.nextActorID = s.nextActorID
  nextAddr : s'.nextAddr = s.nextAddr
  now : s'.now = s.now

/-- The spawners and tiles after one creature left its spawner. -/
theorem removeFromSpawner_posts (s : SpawnManager) (npc : SpawnedNPC) :
    (∀ p ∈ (s.removeFromSpawner npc).posts, ∃ sp, (p.1, sp) ∈ s.posts ∧
      p.2 = if npc.spawnGen = some sp.addr then sp.notifyKill s.now npc.creatureID else sp) ∧
    (∀ p ∈ s.posts, (p.1, if npc.spawnGen = some p.2.addr then
      p.2.notifyKill s.now npc.creatureID else p.2) ∈ (s.removeFromSpawner npc).posts) ∧
    (s.removeFromSpawner npc).yards = s.yards := by
  unfold removeFromSpawner
  cases hgen : npc.spawnGen with
  | none => exact ⟨fun p hp => ⟨p.2, hp, rfl⟩, fun p hp => hp, rfl⟩
  | some addr =>
      have hiff (sp : ActiveSpawner) : some addr = some sp.addr ↔ sp.addr = addr := by
        rw [Option.some.injEq, eq_comm]
      simp only [hiff]
      refine ⟨fun p hp => mem_posts_modifySpawner.mp hp, fun p hp => ?_,
        yards_modifySpawner s addr _⟩
      exact mem_posts_modifySpawner.mpr ⟨p.2, hp, rfl⟩

/-- The creatures stay in place, and only the one that left is changed. -/
theorem removeFromSpawner_npcs (s : SpawnManager) (npc : SpawnedNPC) :
    (s.removeFromSpawner npc).npcs.map SpawnedNPC.creatureID =
      s.npcs.map SpawnedNPC.creatureID ∧
    (∀ n, n.creatureID ≠ npc.creatureID → (n ∈ (s.removeFromSpawner npc).npcs ↔ n ∈ s.npcs)) ∧
    (npc.spawnGen ≠ none → ∀ n ∈ (s.removeFromSpawner npc).npcs,
      n.creatureID = npc.creatureID → n.spawnGen = none ∧ n.spawnTile = none) := by
  unfold removeFromSpawner
  cases npc.spawnGen with
  | none => exact ⟨rfl, fun n _ => Iff.rfl, fun h => absurd rfl h⟩
  | some addr =>
      refine ⟨?_, fun n hn => ?_, fun _ n hn hid => ?_⟩
      · rw [List.map_map]
        apply List.map_congr_left
        intro n _
        simp only [Function.comp_apply]
        split <;> rfl
      · rw [List.mem_map]
        constructor
        · rintro ⟨n', hn', rfl⟩
          by_cases hid : n'.creatureID = npc.creatureID
          · simp [hid] at hn
          · rw [if_neg hid]
            exact hn'
        · intro hmem
          exact ⟨n, hmem, if_neg hn⟩
      · obtain ⟨n', -, rfl⟩ := List.mem_map.mp hn
        by_cases hid' : n'.creatureID = npc.creatureID
        · simp [hid']
        · simp [hid'] at hid

theorem removeFromSpawner_frame (s : SpawnManager) (npc : SpawnedNPC) :
    (s.removeFromSpawner npc).nextActorID = s.nextActorID ∧
      (s.removeFromSpawner npc).nextAddr = s.nextAddr ∧
      (s.removeFromSpawner npc).now = s.now := by
  unfold removeFromSpawner
  cases npc.spawnGen <;> exact ⟨rfl, rfl, rfl⟩

theorem leaves_eraseNPC (s : SpawnManager) (npc : SpawnedNPC) : s.Leaves (s.eraseNPC npc) npc := by
  obtain ⟨hfrom, hto, hyards⟩ := removeFromSpawner_posts s npc
  obtain ⟨hids, hothers, -⟩ := removeFromSpawner_npcs s npc
  obtain ⟨hactor, haddr, hnow⟩ := removeFromSpawner_frame s npc
  refine ⟨hfrom, hto, hyards, fun n hn => ?_, fun n hn hid => ?_, ?_, hactor, haddr, hnow⟩
  · obtain ⟨hn, hid⟩ := List.mem_filter.mp hn
    have hid : n.creatureID ≠ npc.creatureID := by simpa using hid
    exact .inl ⟨(hothers n hid).mp hn, hid⟩
  · exact List.mem_filter.mpr ⟨(hothers n hid).mpr hn, by simpa using hid⟩
  · rw [← hids]
    exact List.filter_sublist.map _

/-- A creature dies. One without a spawner has no tile either. -/
theorem leaves_prepareDeath {npc : SpawnedNPC} (hmem : npc ∈ s.npcs)
    (hids : NodupKeys SpawnedNPC.creatureID s.npcs)
    (hstray : npc.spawnGen = none → npc.spawnTile = none) :
    s.Leaves (s.prepareDeath npc.creatureID) npc := by
  have hfound : s.getNPCInstanceByCID npc.creatureID = some npc := by
    have hexists : ∃ n ∈ s.npcs, decide (n.creatureID = npc.creatureID) = true :=
      ⟨npc, hmem, by simp⟩
    unfold getNPCInstanceByCID
    obtain ⟨n, hn⟩ := Option.isSome_iff_exists.mp (List.find?_isSome.mpr hexists)
    rw [hn]
    have hid : n.creatureID = npc.creatureID := by simpa using List.find?_some hn
    rw [List.inj_on_of_nodup_map hids (List.mem_of_find?_eq_some hn) hmem hid]
  unfold prepareDeath
  rw [hfound]
  dsimp only
  generalize hdead : ({ s with
    npcs := s.npcs.map fun other =>
      if other.creatureID = npc.creatureID then { other with dead := true } else other } :
        SpawnManager) = s₁
  have hposts : s₁.posts = s.posts := by rw [← hdead]; rfl
  have hyards₁ : s₁.yards = s.yards := by rw [← hdead]; rfl
  have hnpcs : s₁.npcs = s.npcs.map fun other =>
    if other.creatureID = npc.creatureID then { other with dead := true } else other := by
      rw [← hdead]
  have hframe : s₁.nextActorID = s.nextActorID ∧ s₁.nextAddr = s.nextAddr ∧ s₁.now = s.now := by
    rw [← hdead]
    exact ⟨rfl, rfl, rfl⟩
  have hids₁ : s₁.npcs.map SpawnedNPC.creatureID = s.npcs.map SpawnedNPC.creatureID := by
    rw [hnpcs, List.map_map]
    apply List.map_congr_left
    intro n _
    simp only [Function.comp_apply]
    split <;> rfl
  have hothers₁ (n : SpawnedNPC) (hid : n.creatureID ≠ npc.creatureID) :
      n ∈ s₁.npcs ↔ n ∈ s.npcs := by
    rw [hnpcs, List.mem_map]
    constructor
    · rintro ⟨n', hn', rfl⟩
      by_cases hid' : n'.creatureID = npc.creatureID
      · simp [hid'] at hid
      · simpa [hid'] using hn'
    · intro hn
      exact ⟨n, hn, if_neg hid⟩
  obtain ⟨hfrom, hto, hyards⟩ := removeFromSpawner_posts s₁ npc
  obtain ⟨hids₂, hothers₂, hleft⟩ := removeFromSpawner_npcs s₁ npc
  obtain ⟨hactor, haddr, hnow⟩ := removeFromSpawner_frame s₁ npc
  rw [hposts, hframe.2.2] at hfrom hto
  refine ⟨hfrom, hto, hyards.trans hyards₁, fun n hn => ?_, fun n hn hid => ?_, ?_,
    hactor.trans hframe.1, haddr.trans hframe.2.1, hnow.trans hframe.2.2⟩
  · by_cases hid : n.creatureID = npc.creatureID
    · refine .inr ⟨hid, ?_⟩
      cases hgen : npc.spawnGen with
      | some addr => exact hleft (by simp [hgen]) n hn hid
      | none =>
          have hsame : s₁.removeFromSpawner npc = s₁ := by
            unfold removeFromSpawner
            rw [hgen]
          rw [hsame, hnpcs] at hn
          obtain ⟨n', hn', rfl⟩ := List.mem_map.mp hn
          have hid' : n'.creatureID = npc.creatureID := by
            split at hid
            · assumption
            · exact hid
          rw [if_pos hid', List.inj_on_of_nodup_map hids hn' hmem hid']
          exact ⟨hgen, hstray hgen⟩
    · exact .inl ⟨(hothers₁ n hid).mp ((hothers₂ n hid).mp hn), hid⟩
  · exact (hothers₂ n hid).mpr ((hothers₁ n hid).mpr hn)
  · rw [hids₂, hids₁]

/-! ### Creatures that are made -/

/-- The creature that `SpawnCreature` makes. -/
def newCreature (s : SpawnManager) (tile : Nat) (sp : ActiveSpawner) : SpawnedNPC where
  creatureID := s.nextActorID
  dead := match sp.spawnPoint.extraData with
    | some extraData => decide (extraData.leaseTime > 0)
    | none => false
  spawnGen := some sp.addr
  spawnTile := some tile

/-- `SpawnCreature` only invalidates the spawner, or adds a creature to the tile. -/
theorem spawnCreature_cases (s : SpawnManager) (tile : Nat) (sp : ActiveSpawner)
    (forceCreatureDef : Int) (found : Bool) :
    s.spawnCreature tile sp forceCreatureDef found =
        (none, s.modifySpawner sp.addr ActiveSpawner.invalidate) ∨
      ∃ s', s.spawnCreature tile sp forceCreatureDef found = (some s.nextActorID, s') ∧
        s'.posts = s.posts ∧
        s'.yards = s.yards.map (fun y =>
          if y.1 = tile then (y.1, y.2 ++ [s.nextActorID]) else y) ∧
        s'.npcs = s.npcs ++ [s.newCreature tile sp] ∧
        s'.nextActorID = s.nextActorID + 1 ∧ s'.nextAddr = s.nextAddr := by
  unfold spawnCreature
  split
  · exact .inl rfl
  split
  · exact .inl rfl
  · refine .inr ⟨_, rfl, ?_, ?_, rfl, rfl, rfl⟩
    · exact posts_modifyTile (fun _ => rfl) fun _ => rfl
    · simp only [yards, modifyTile, List.map_map]
      apply List.map_congr_left
      intro t _
      simp only [Function.comp_apply]
      split <;> rfl

/-! ### Spawners and tiles that are removed -/

theorem mem_posts_eraseSpawner {tile addr : Nat} {p : Nat × ActiveSpawner} :
    p ∈ (s.modifyTile tile fun t =>
        { t with activeSpawn := t.activeSpawn.filter fun old => old.addr ≠ addr }).posts ↔
      p ∈ s.posts ∧ (p.1 = tile → p.2.addr ≠ addr) := by
  rw [mem_posts, mem_posts]
  constructor
  · rintro ⟨t', ht', ha, hp⟩
    obtain ⟨t, ht, rfl⟩ := List.mem_map.mp ht'
    by_cases htile : t.addr = tile
    · rw [if_pos htile] at ha hp
      obtain ⟨hp, hne⟩ := List.mem_filter.mp hp
      exact ⟨⟨t, ht, ha, hp⟩, fun _ => by simpa using hne⟩
    · rw [if_neg htile] at ha hp
      exact ⟨⟨t, ht, ha, hp⟩, fun h => absurd (ha.trans h) htile⟩
  · rintro ⟨⟨t, ht, ha, hp⟩, hne⟩
    refine ⟨_, List.mem_map_of_mem ht, ?_, ?_⟩
    · split
      · exact ha
      · exact ha
    · split
      · next htile =>
          exact List.mem_filter.mpr ⟨hp, by simpa using hne (ha.symm.trans htile)⟩
      · exact hp

theorem mem_posts_eraseTile {tile : Nat} {p : Nat × ActiveSpawner} :
    p ∈ (s.eraseTile tile).posts ↔ p ∈ s.posts ∧ p.1 ≠ tile := by
  rw [mem_posts, mem_posts]
  constructor
  · rintro ⟨t, ht, ha, hp⟩
    obtain ⟨ht, hne⟩ := List.mem_filter.mp ht
    exact ⟨⟨t, ht, ha, hp⟩, by simpa [ha] using hne⟩
  · rintro ⟨⟨t, ht, ha, hp⟩, hne⟩
    exact ⟨t, List.mem_filter.mpr ⟨ht, by simpa [ha] using hne⟩, ha, hp⟩

theorem yards_eraseTile (s : SpawnManager) (tile : Nat) :
    (s.eraseTile tile).yards = s.yards.filter fun y => y.1 ≠ tile := by
  unfold yards eraseTile
  rw [List.filter_map]
  rfl

end SpawnManager

end Iceee
