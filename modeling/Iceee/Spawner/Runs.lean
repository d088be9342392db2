import Iceee.Spawner.Creatures

/-!
# Runs of the spawn system

## Main statements

* `SpawnManager.run_accounted`: in a run whose steps are all `Permitted`, the counter, the lists and
  the pointers agree.
-/

namespace Iceee

open Lib

namespace SpawnManager

/-- The accounts are right and every spawner that has spawned has a creature. -/
structure Good (s : SpawnManager) : Prop where
  inv : s.Inv
  stocked : s.StockedBut fun _ => False

variable {s s' : SpawnManager} {cfg : SpawnConfig}

theorem Good.congr (h : s.Good) (hposts : s'.posts = s.posts) (hyards : s'.yards = s.yards)
    (hnpcs : s'.npcs = s.npcs) (hactor : s'.nextActorID = s.nextActorID)
    (haddr : s'.nextAddr = s.nextAddr) : s'.Good :=
  ⟨h.inv.congr hposts hyards hnpcs hactor haddr, h.stocked.congr hposts⟩

theorem Good.modifySpawner (h : s.Good) (addr : Nat) {f : ActiveSpawner → ActiveSpawner}
    (hf : Uncounted f) : (s.modifySpawner addr f).Good :=
  ⟨h.inv.modifySpawner addr hf, h.stocked.modifySpawner addr hf⟩

/-- A change of a tile's times. -/
theorem Good.modifyTile (h : s.Good) (addr : Nat) {f : SpawnTile → SpawnTile}
    (haddr : ∀ t, (f t).addr = t.addr) (hspawn : ∀ t, (f t).activeSpawn = t.activeSpawn)
    (hattached : ∀ t, (f t).attachedCreatureID = t.attachedCreatureID) :
    (s.modifyTile addr f).Good :=
  h.congr (posts_modifyTile haddr hspawn) (yards_modifyTile haddr hattached) rfl rfl rfl

theorem Good.getTile (h : s.Good) (tileX tileY : Int) : (s.getTile tileX tileY).2.Good :=
  ⟨h.inv.getTile tileX tileY, h.stocked.getTile tileX tileY⟩

theorem Good.addSpawnerFromProp (h : s.Good) (tile : Nat) {prop : SpawnProp}
    (hregular : Regular prop) : (s.addSpawnerFromProp cfg tile prop).Good :=
  ⟨h.inv.addSpawnerFromProp tile hregular, h.stocked.addSpawnerFromProp tile prop⟩

/-! ### Generating tiles -/

theorem Good.loadTileSpawnPoints (h : s.Good) (tile : Nat) {props : List SpawnProp}
    (hprops : ∀ prop ∈ props, Regular prop) (x1 y1 x2 y2 : Int) :
    (s.loadTileSpawnPoints cfg tile props x1 y1 x2 y2).Good := by
  unfold SpawnManager.loadTileSpawnPoints
  apply List.foldlRecOn _ _ h
  intro s hs prop hprop
  exact hs.addSpawnerFromProp tile (hprops prop (List.mem_filter.mp hprop).1)

theorem Good.generateTile (h : s.Good) {pages : Int → Int → List SpawnProp}
    (hpages : ∀ px py, ∀ prop ∈ pages px py, Regular prop) (tileX tileY : Int) :
    (s.generateTile cfg pages tileX tileY).Good := by
  have htile := h.getTile tileX tileY
  unfold SpawnManager.generateTile
  dsimp only
  have hreleased : ((s.getTile tileX tileY).2.modifyTile (s.getTile tileX tileY).1 fun t =>
      { t with releaseTime := (s.getTile tileX tileY).2.now + garbageCheckDelay }).Good :=
    htile.modifyTile _ (fun _ => rfl) (fun _ => rfl) fun _ => rfl
  split
  · exact hreleased
  · refine Good.modifyTile ?_ _ (fun _ => rfl) (fun _ => rfl) fun _ => rfl
    apply List.foldlRecOn _ _ hreleased
    intro s hs c _
    exact hs.loadTileSpawnPoints _ (hpages c.1 c.2) _ _ _ _

/-! ### Processing -/

/-- The loop of a tile knows its tile and its spawners. -/
structure InTile (s : SpawnManager) (tile : Nat) (addrs : List Nat) : Prop where
  here : ∃ y ∈ s.yards, y.1 = tile
  spawners : ∀ addr ∈ addrs, ∃ sp, (tile, sp) ∈ s.posts ∧ sp.addr = addr

theorem InTile.modifySpawner {tile : Nat} {addrs : List Nat} (h : s.InTile tile addrs) (addr : Nat)
    {f : ActiveSpawner → ActiveSpawner} (hf : ∀ sp, (f sp).addr = sp.addr) :
    (s.modifySpawner addr f).InTile tile addrs := by
  refine ⟨by rw [yards_modifySpawner]; exact h.here, fun a ha => ?_⟩
  obtain ⟨sp, hsp, rfl⟩ := h.spawners a ha
  refine ⟨if sp.addr = addr then f sp else sp, mem_posts_modifySpawner.mpr ⟨sp, hsp, rfl⟩, ?_⟩
  split
  · exact hf sp
  · rfl

theorem Good.processSpawner {tile : Nat} {addrs : List Nat} (h : s.Good)
    (hin : s.InTile tile addrs) (chance : SpawnChance) {addr : Nat} (haddr : addr ∈ addrs) :
    (s.processSpawner cfg chance tile addr).Good ∧
      (s.processSpawner cfg chance tile addr).InTile tile addrs := by
  have huncounted {f : ActiveSpawner → ActiveSpawner} (hf : Uncounted f) :
      (s.modifySpawner addr f).Good ∧ (s.modifySpawner addr f).InTile tile addrs :=
    ⟨h.modifySpawner addr hf, hin.modifySpawner addr hf.addr⟩
  unfold SpawnManager.processSpawner
  cases hfind : s.spawners.find? fun sp => sp.addr = addr with
  | none => exact ⟨h, hin⟩
  | some sp =>
      dsimp only
      have hsp : sp.addr = addr := by simpa using List.find?_some hfind
      -- the spawner found is the one of the tile
      have hpost : (tile, sp) ∈ s.posts := by
        obtain ⟨a, ha⟩ := mem_spawners.mp (List.mem_of_find?_eq_some hfind)
        obtain ⟨sp', hsp', haddr'⟩ := hin.spawners addr haddr
        have hsame := h.inv.post_unique _ ha _ hsp' (hsp.trans haddr'.symm)
        rw [Prod.mk.injEq] at hsame
        rw [hsame.2]
        exact hsp'
      split
      · exact ⟨h, hin⟩
      cases hextra : sp.spawnPoint.extraData with
      | none => exact huncounted uncounted_invalidate
      | some extraData =>
          dsimp only
          split
          · exact ⟨h, hin⟩
          next hroom =>
          cases hpackage : sp.spawnPackage with
          | none => exact huncounted uncounted_invalidate
          | some spawnPackage =>
              dsimp only
              split
              · split
                · exact huncounted uncounted_invalidate
                · exact huncounted (uncounted_updateSpawnDelay s.now)
              split
              · exact ⟨h, hin⟩
              obtain hfailed | ⟨s', hspawned, hposts, hyards, hnpcs, hactor, hnext⟩ :=
                spawnCreature_cases s tile sp 0 (chance.found sp.propID)
              · rw [hfailed, hsp]
                exact huncounted uncounted_invalidate
              · rw [hspawned]
                dsimp only
                subst hsp
                refine ⟨⟨?_, h.stocked.spawn hposts _ _⟩, ?_⟩
                · exact h.inv.spawn hpost hextra (not_le.mp hroom) hin.here hposts hyards hnpcs
                    hactor hnext s'.now
                · have hin' : s'.InTile tile addrs := by
                    refine ⟨?_, fun a ha => by rw [hposts]; exact hin.spawners a ha⟩
                    obtain ⟨y, hy, rfl⟩ := hin.here
                    rw [hyards]
                    exact ⟨_, List.mem_map_of_mem hy, by simp⟩
                  exact hin'.modifySpawner sp.addr fun _ => rfl

theorem Good.processTile (h : s.Good) (chance : SpawnChance) {tile : Nat}
    (htile : ∃ y ∈ s.yards, y.1 = tile) : (s.processTile cfg chance tile).Good := by
  unfold SpawnManager.processTile
  dsimp only
  generalize hreleased : s.modifyTile tile (fun t =>
    { t with releaseTime := s.now + processingInterval }) = s₁
  have hgood : s₁.Good := hreleased ▸
    h.modifyTile tile (fun _ => rfl) (fun _ => rfl) fun _ => rfl
  have hyards : s₁.yards = s.yards := hreleased ▸ yards_modifyTile (fun _ => rfl) fun _ => rfl
  generalize haddrs : ((s₁.spawnTiles.filter fun t => t.addr = tile).flatMap fun t =>
    t.activeSpawn.map ActiveSpawner.addr) = addrs
  have hin : s₁.InTile tile addrs := by
    refine ⟨by rwa [hyards], fun addr haddr => ?_⟩
    rw [← haddrs] at haddr
    obtain ⟨t, ht, haddr⟩ := List.mem_flatMap.mp haddr
    obtain ⟨sp, hsp, rfl⟩ := List.mem_map.mp haddr
    obtain ⟨ht, hta⟩ := List.mem_filter.mp ht
    exact ⟨sp, mem_posts.mpr ⟨t, ht, by simpa using hta, hsp⟩, rfl⟩
  have hloop : ∀ l : List Nat, (∀ a ∈ l, a ∈ addrs) → ∀ s : SpawnManager, s.Good →
      s.InTile tile addrs →
      (l.foldl (fun s addr => s.processSpawner cfg chance tile addr) s).Good := by
    intro l
    induction l with
    | nil => exact fun _ s hs _ => hs
    | cons a l ih =>
        intro hl s hs hin
        obtain ⟨hs', hin'⟩ := @Good.processSpawner s cfg tile addrs hs hin chance a
          (hl a List.mem_cons_self)
        exact ih (fun b hb => hl b (List.mem_cons_of_mem _ hb)) _ hs' hin'
  exact hloop addrs (fun _ h => h) s₁ hgood hin

/-! ### Removing creatures -/

theorem mem_eraseNPC {npc n : SpawnedNPC} :
    n ∈ (s.eraseNPC npc).npcs ↔ n ∈ s.npcs ∧ n.creatureID ≠ npc.creatureID := by
  obtain ⟨-, hothers, -⟩ := removeFromSpawner_npcs s npc
  unfold eraseNPC
  rw [List.mem_filter]
  constructor
  · rintro ⟨hn, hid⟩
    have hid : n.creatureID ≠ npc.creatureID := by simpa using hid
    exact ⟨(hothers n hid).mp hn, hid⟩
  · rintro ⟨hn, hid⟩
    exact ⟨(hothers n hid).mpr hn, by simpa using hid⟩

theorem Inv.eraseNPC (h : s.Inv) {npc : SpawnedNPC} (hmem : npc ∈ s.npcs) :
    (s.eraseNPC npc).Inv := h.leaves (leaves_eraseNPC s npc) hmem

/-- Creatures are erased one after the other. -/
theorem foldl_eraseNPC {motive : SpawnManager → Prop} {l : List SpawnedNPC} (h : s.Inv)
    (hl : ∀ n ∈ l, n ∈ s.npcs) (hids : NodupKeys SpawnedNPC.creatureID l) (h0 : motive s)
    (hstep : ∀ s : SpawnManager, ∀ n ∈ l, s.Inv → motive s → n ∈ s.npcs →
      motive (s.eraseNPC n)) :
    (l.foldl SpawnManager.eraseNPC s).Inv ∧ motive (l.foldl SpawnManager.eraseNPC s) ∧
      ∀ n ∈ (l.foldl SpawnManager.eraseNPC s).npcs, n ∈ s.npcs ∧ n ∉ l := by
  induction l generalizing s with
  | nil => exact ⟨h, h0, fun n hn => ⟨hn, List.not_mem_nil⟩⟩
  | cons a l ih =>
      have hnodup := List.nodup_cons.mp hids
      have ha := hl a List.mem_cons_self
      have hrest : ∀ n ∈ l, n ∈ (s.eraseNPC a).npcs := fun n hn =>
        mem_eraseNPC.mpr ⟨hl n (List.mem_cons_of_mem _ hn), fun hid =>
          hnodup.1 (List.mem_map.mpr ⟨n, hn, hid⟩)⟩
      obtain ⟨hinv, hmotive, hleft⟩ := ih (h.eraseNPC ha) hrest hnodup.2
        (hstep s a List.mem_cons_self h h0 ha)
        fun s n hn => hstep s n (List.mem_cons_of_mem _ hn)
      rw [List.foldl_cons]
      refine ⟨hinv, hmotive, fun n hn => ?_⟩
      obtain ⟨hn, hnot⟩ := hleft n hn
      obtain ⟨hn, hid⟩ := mem_eraseNPC.mp hn
      refine ⟨hn, fun hmem => ?_⟩
      obtain rfl | hmem := List.mem_cons.mp hmem
      · exact hid rfl
      · exact hnot hmem

/-- The creatures that a spawner loses. -/
theorem removeSpawnPointCreature_spec {motive : SpawnManager → Prop} (h : s.Inv) (addr : Nat)
    (creatureID : Int) (h0 : motive s)
    (hstep : ∀ s : SpawnManager, ∀ n, (creatureID = 0 ∨ creatureID = n.creatureID) →
      n.spawnGen = some addr → s.Inv → motive s → n ∈ s.npcs → motive (s.eraseNPC n)) :
    (s.removeSpawnPointCreature addr creatureID).Inv ∧
      motive (s.removeSpawnPointCreature addr creatureID) ∧
      ∀ n ∈ (s.removeSpawnPointCreature addr creatureID).npcs, n ∈ s.npcs ∧
        ¬((creatureID = 0 ∨ creatureID = n.creatureID) ∧ n.spawnGen = some addr) := by
  have hmem {n : SpawnedNPC} : n ∈ (s.npcs.filter fun npc =>
      (creatureID = 0 ∨ creatureID = npc.creatureID) ∧ npc.spawnGen = some addr) ↔
      n ∈ s.npcs ∧ (creatureID = 0 ∨ creatureID = n.creatureID) ∧ n.spawnGen = some addr := by
    simp
  obtain ⟨hinv, hmotive, hleft⟩ := foldl_eraseNPC h (fun n hn => (hmem.mp hn).1)
    (h.npc_ids.sublist List.filter_sublist) h0
    (fun s n hn hinv hmotive hns =>
      hstep s n (hmem.mp hn).2.1 (hmem.mp hn).2.2 hinv hmotive hns)
  exact ⟨hinv, hmotive, fun n hn => ⟨(hleft n hn).1, fun hgone =>
    (hleft n hn).2 (hmem.mpr ⟨(hleft n hn).1, hgone⟩)⟩⟩

/-- All creatures of a spawner are removed; the other spawners keep theirs. -/
theorem Good.removeSpawnPointCreatures (h : s.Good) (addr : Nat) :
    (s.removeSpawnPointCreature addr 0).Inv ∧
      (s.removeSpawnPointCreature addr 0).StockedBut (fun p => p.2.addr = addr) ∧
      ∀ n ∈ (s.removeSpawnPointCreature addr 0).npcs, n.spawnGen ≠ some addr := by
  have hstep (s : SpawnManager) (n : SpawnedNPC) (_ : (0 : Int) = 0 ∨ 0 = n.creatureID)
      (hgen : n.spawnGen = some addr) (_ : s.Inv)
      (hstocked : s.StockedBut fun p => p.2.addr = addr) (_ : n ∈ s.npcs) :
      (s.eraseNPC n).StockedBut fun p => p.2.addr = addr := by
    apply hstocked.leaves (fun p q _ haddr hp => haddr.symm.trans hp) (leaves_eraseNPC s n)
    intro p hp hgen' hother
    rw [hgen, Option.some.injEq] at hgen'
    exact absurd hgen'.symm hother
  obtain ⟨hinv, hstocked, hleft⟩ := removeSpawnPointCreature_spec
    (motive := fun s => s.StockedBut fun p => p.2.addr = addr) h.inv addr 0
    (fun p hp _ => h.stocked p hp id) hstep
  exact ⟨hinv, hstocked, fun n hn hgen => (hleft n hn).2 ⟨.inl rfl, hgen⟩⟩

theorem getNPCInstanceByCID_eq_some {creatureID : Int} {npc : SpawnedNPC}
    (h : s.getNPCInstanceByCID creatureID = some npc) :
    npc ∈ s.npcs ∧ npc.creatureID = creatureID :=
  ⟨List.mem_of_find?_eq_some h, by simpa using List.find?_some h⟩

/-- Steps that spare a creature of each spawner. -/
theorem Good.leaves_of_spares (h : s.Good) {npc : SpawnedNPC} (hmem : npc ∈ s.npcs)
    {gone : Int → Prop} (hspares : s.Spares gone) (hgone : gone npc.creatureID)
    (hl : s.Leaves s' npc) : s'.Good ∧ s'.Spares gone :=
  ⟨⟨h.inv.leaves hl hmem, h.stocked.leaves_of_spares hspares h.inv hmem hl hgone⟩,
    hspares.leaves hl hgone⟩

theorem Good.prepareDeath (h : s.Good) {creatureID : Int}
    (hspares : s.Spares (· = creatureID)) : (s.prepareDeath creatureID).Good := by
  cases hfind : s.getNPCInstanceByCID creatureID with
  | none =>
      unfold SpawnManager.prepareDeath
      rw [hfind]
      exact h
  | some npc =>
      obtain ⟨hmem, rfl⟩ := getNPCInstanceByCID_eq_some hfind
      exact (h.leaves_of_spares hmem hspares rfl
        (leaves_prepareDeath hmem h.inv.npc_ids (h.inv.stray npc hmem))).1

theorem Good.removeNPCInstance (h : s.Good) {creatureID : Int} {gone : Int → Prop}
    (hspares : s.Spares gone) (hgone : gone creatureID) :
    (s.removeNPCInstance creatureID).Good ∧ (s.removeNPCInstance creatureID).Spares gone := by
  unfold SpawnManager.removeNPCInstance
  cases hfind : s.getNPCInstanceByCID creatureID with
  | none => exact ⟨h, hspares⟩
  | some npc =>
      obtain ⟨hmem, rfl⟩ := getNPCInstanceByCID_eq_some hfind
      exact h.leaves_of_spares hmem hspares hgone (leaves_eraseNPC s npc)

theorem Good.despawn (h : s.Good) {creatureID : Int}
    (hspares : s.Spares fun id => creatureID = 0 ∨ id = creatureID) :
    (s.despawn creatureID).Good := by
  unfold SpawnManager.despawn
  dsimp only
  have hloop : ∀ l : List Nat, ∀ s : SpawnManager, s.Good →
      s.Spares (fun id => creatureID = 0 ∨ id = creatureID) →
      (l.foldl (fun s addr => s.removeSpawnPointCreature addr creatureID) s).Good ∧
      (l.foldl (fun s addr => s.removeSpawnPointCreature addr creatureID) s).Spares
        fun id => creatureID = 0 ∨ id = creatureID := by
    intro l
    induction l with
    | nil => exact fun s hs hspares => ⟨hs, hspares⟩
    | cons addr l ih =>
        intro s hs hspares
        obtain ⟨hinv, ⟨hstocked, hspares'⟩, -⟩ := removeSpawnPointCreature_spec
          (motive := fun s => (s.StockedBut fun _ => False) ∧
            s.Spares fun id => creatureID = 0 ∨ id = creatureID) hs.inv addr creatureID
          ⟨hs.stocked, hspares⟩ (fun s n hid _ hinv hgood hn => by
            obtain ⟨hgood', hspares''⟩ := Good.leaves_of_spares ⟨hinv, hgood.1⟩ hn hgood.2
              (hid.imp_right Eq.symm) (leaves_eraseNPC s n)
            exact ⟨hgood'.stocked, hspares''⟩)
        exact ih _ ⟨hinv, hstocked⟩ hspares'
  obtain ⟨hgood, hspares'⟩ := hloop (s.spawners.map ActiveSpawner.addr) s h hspares
  split
  · have hremoved := (hgood.removeNPCInstance hspares' (.inr rfl)).1
    exact hremoved.congr rfl rfl rfl rfl rfl
  · exact hgood

/-! ### Spawn points that change -/

/-- The spawner that `UpdateSpawnPoint` leaves has the new prop and the old creatures. -/
theorem reset_frame (cfg : SpawnConfig) (sp : ActiveSpawner) (prop : SpawnProp) (now : Nat) :
    let (derived, new) := { sp with spawnPoint := prop }.updateSourcePackage cfg
    let new := if derived then { new with nextSpawn := now } else new.invalidate
    new.addr = sp.addr ∧ new.spawnPoint = prop ∧
      new.attachedCreatureID = sp.attachedCreatureID := by
  obtain ⟨spawnPackage, hframe⟩ := @updateSourcePackage_frame cfg { sp with spawnPoint := prop }
  dsimp only
  rw [hframe]
  split
  · exact ⟨rfl, rfl, rfl⟩
  · exact ⟨rfl, rfl, rfl⟩

theorem Good.updateSpawnPoint (h : s.Good) {prop : SpawnProp} (hregular : Regular prop) :
    (s.updateSpawnPoint cfg prop).Good := by
  unfold SpawnManager.updateSpawnPoint
  dsimp only
  have htile := h.getTile (prop.locationX.tdiv spawnTileSize) (prop.locationZ.tdiv spawnTileSize)
  generalize s.getTile (prop.locationX.tdiv spawnTileSize)
    (prop.locationZ.tdiv spawnTileSize) = r at htile ⊢
  obtain ⟨tile, s₁⟩ := r
  dsimp only at htile ⊢
  split
  · exact htile.addSpawnerFromProp tile hregular
  · next sp _ =>
      obtain ⟨hinv, hstocked, hnone⟩ := htile.removeSpawnPointCreatures sp.addr
      generalize s₁.removeSpawnPointCreature sp.addr 0 = s₂ at hinv hstocked hnone ⊢
      have hreset (old : ActiveSpawner) := reset_frame cfg old prop s₂.now
      refine ⟨hinv.resetSpawner hnone hregular (fun old => (hreset old).1)
        (fun old => (hreset old).2.1) (fun _ => rfl) (fun old => (hreset old).2.2),
        fun p hp _ hcount => ?_⟩
      obtain ⟨old, hold, heq⟩ := mem_posts_modifySpawner.mp hp
      by_cases haddr : old.addr = sp.addr
      · rw [heq, if_pos haddr] at hcount
        exact absurd hcount (lt_irrefl 0)
      · rw [heq, if_neg haddr] at hcount ⊢
        exact hstocked _ hold haddr hcount

/-- No spawner is made, and none moves to another tile. -/
def Settled (s s' : SpawnManager) : Prop :=
  ∀ p ∈ s'.posts, ∃ q ∈ s.posts, q.1 = p.1 ∧ q.2.addr = p.2.addr

theorem Settled.trans {s'' : SpawnManager} (h : s.Settled s') (h' : s'.Settled s'') :
    s.Settled s'' := by
  intro p hp
  obtain ⟨q, hq, hq₁, hq₂⟩ := h' p hp
  obtain ⟨r, hr, hr₁, hr₂⟩ := h q hq
  exact ⟨r, hr, hr₁.trans hq₁, hr₂.trans hq₂⟩

theorem Leaves.settled {npc : SpawnedNPC} (hl : s.Leaves s' npc) : s.Settled s' := by
  intro p hp
  obtain ⟨sp, hsp, heq⟩ := hl.posts_from p hp
  refine ⟨_, hsp, rfl, ?_⟩
  rw [heq]
  split <;> rfl

theorem Inv.removeSpawnPointCreature_settled (h : s.Inv) (addr : Nat) (creatureID : Int) :
    s.Settled (s.removeSpawnPointCreature addr creatureID) :=
  (removeSpawnPointCreature_spec (motive := fun s' => s.Settled s') h addr creatureID
    (fun p hp => ⟨p, hp, rfl, rfl⟩)
    fun s' n _ _ _ hs' _ => hs'.trans (leaves_eraseNPC s' n).settled).2.1

/-- `RemoveSpawnPoint` of a tile, where no other tile has the tile's spawners. -/
theorem Good.removeTileSpawnPoint (h : s.Good) {t : SpawnTile} (propID : Int)
    (halone : ∀ sp ∈ t.activeSpawn, ∀ p ∈ s.posts, p.2.addr = sp.addr → p.1 = t.addr) :
    (s.removeTileSpawnPoint t propID).Good ∧ s.Settled (s.removeTileSpawnPoint t propID) := by
  unfold SpawnManager.removeTileSpawnPoint
  cases hfind : t.activeSpawn.find? fun sp => sp.propID = propID with
  | none => exact ⟨h, fun p hp => ⟨p, hp, rfl, rfl⟩⟩
  | some sp =>
      dsimp only
      obtain ⟨hinv, hstocked, hnone⟩ := h.removeSpawnPointCreatures sp.addr
      have hsettled := h.inv.removeSpawnPointCreature_settled sp.addr 0
      generalize s.removeSpawnPointCreature sp.addr 0 = s' at hinv hstocked hnone hsettled ⊢
      refine ⟨⟨hinv.eraseSpawner hnone, fun p hp _ => ?_⟩, fun p hp => ?_⟩
      · obtain ⟨hp, hne⟩ := mem_posts_eraseSpawner.mp hp
        apply hstocked p hp
        intro haddr
        obtain ⟨q, hq, hq₁, hq₂⟩ := hsettled p hp
        have htile := halone sp (List.mem_of_find?_eq_some hfind) q hq (hq₂.trans haddr)
        exact hne (hq₁.symm.trans htile) haddr
      · exact hsettled p (mem_posts_eraseSpawner.mp hp).1

theorem Good.removeSpawnPoint (h : s.Good) (propID : Int) : (s.removeSpawnPoint propID).Good := by
  unfold SpawnManager.removeSpawnPoint
  -- a tile that the loop comes to was a tile at its start
  have hloop : (s.spawnTiles.foldl (fun s t => s.removeTileSpawnPoint t propID) s).Good ∧
      s.Settled (s.spawnTiles.foldl (fun s t => s.removeTileSpawnPoint t propID) s) := by
    apply List.foldlRecOn (motive := fun s' => s'.Good ∧ s.Settled s') _ _
      ⟨h, fun p hp => ⟨p, hp, rfl, rfl⟩⟩
    rintro s' ⟨hs', hsettled⟩ t ht
    obtain ⟨hgood, hnext⟩ := hs'.removeTileSpawnPoint (t := t) propID (fun sp hsp p hp haddr => by
      obtain ⟨q, hq, hq₁, hq₂⟩ := hsettled p hp
      have hpost : (t.addr, sp) ∈ s.posts := mem_posts.mpr ⟨t, ht, rfl, hsp⟩
      rw [← hq₁, h.inv.post_unique q hq _ hpost (hq₂.trans haddr)])
    exact ⟨hgood, hsettled.trans hnext⟩
  exact hloop.1

/-! ### Collecting tiles -/

/-- The creatures of a tile are removed; the spawners of other tiles keep theirs. -/
theorem Inv.removeNPCInstances (h : s.Inv) {y : Nat × List Int} (hy : y ∈ s.yards)
    (hstocked : s.StockedBut fun p => p.1 = y.1) {l : List Int} (hl : ∀ id ∈ l, id ∈ y.2) :
    (l.foldl removeNPCInstance s).Inv ∧
      (l.foldl removeNPCInstance s).StockedBut (fun p => p.1 = y.1) ∧
      (l.foldl removeNPCInstance s).yards = s.yards ∧
      ∀ n ∈ (l.foldl removeNPCInstance s).npcs, n ∈ s.npcs ∧ n.creatureID ∉ l := by
  induction l generalizing s with
  | nil => exact ⟨h, hstocked, rfl, fun n hn => ⟨hn, List.not_mem_nil⟩⟩
  | cons a l ih =>
      have hrest : ∀ id ∈ l, id ∈ y.2 := fun id hid => hl id (List.mem_cons_of_mem _ hid)
      rw [List.foldl_cons]
      cases hfind : s.getNPCInstanceByCID a with
      | none =>
          have hsame : s.removeNPCInstance a = s := by
            unfold removeNPCInstance
            rw [hfind]
          rw [hsame]
          obtain ⟨hinv, hstocked', hyards, hleft⟩ := ih h hy hstocked hrest
          refine ⟨hinv, hstocked', hyards, fun n hn => ?_⟩
          obtain ⟨hn, hnot⟩ := hleft n hn
          refine ⟨hn, fun hmem => ?_⟩
          obtain rfl | hmem := List.mem_cons.mp hmem
          · have hnone := List.find?_eq_none.mp hfind n hn
            simp at hnone
          · exact hnot hmem
      | some npc =>
          obtain ⟨hmem, rfl⟩ := getNPCInstanceByCID_eq_some hfind
          have herased : s.removeNPCInstance npc.creatureID = s.eraseNPC npc := by
            unfold removeNPCInstance
            rw [hfind]
          rw [herased]
          have hleaves := leaves_eraseNPC s npc
          -- a creature of this tile has its spawner in this tile
          have hown : (s.eraseNPC npc).StockedBut fun p => p.1 = y.1 := by
            apply hstocked.leaves (fun p q hpq _ hp => hpq.symm.trans hp) hleaves
            intro p hp hgen hother
            obtain ⟨q, hq, haddr, htile, -⟩ := (h.housed npc hmem _ hgen).post
            have hhome := h.yard_npc y hy npc hmem (hl _ List.mem_cons_self) q.1 htile
            rw [h.post_unique q hq p hp haddr] at hhome
            exact absurd hhome hother
          obtain ⟨hinv, hstocked', hyards, hleft⟩ := ih (h.eraseNPC hmem)
            (by rw [hleaves.yards]; exact hy) hown hrest
          refine ⟨hinv, hstocked', hyards.trans hleaves.yards, fun n hn => ?_⟩
          obtain ⟨hn, hnot⟩ := hleft n hn
          obtain ⟨hn, hid⟩ := mem_eraseNPC.mp hn
          refine ⟨hn, fun hmem => ?_⟩
          obtain heq | hmem := List.mem_cons.mp hmem
          · exact hid heq
          · exact hnot hmem

theorem Good.garbageTile (h : s.Good) (active : List (Int × Int)) (position : Int → Int × Int)
    (tile : Nat) : (s.garbageTile active position tile).Good := by
  unfold SpawnManager.garbageTile
  cases hfind : s.spawnTiles.find? fun t => t.addr = tile with
  | none => exact h
  | some t =>
      dsimp only
      split
      · exact h
      split
      · exact h
      split
      · exact h
      have htile : t.addr = tile := by simpa using List.find?_some hfind
      have hy : (tile, t.attachedCreatureID) ∈ s.yards :=
        mem_yards.mpr ⟨t, List.mem_of_find?_eq_some hfind, htile, rfl⟩
      obtain ⟨hinv, hstocked, hyards, hleft⟩ := h.inv.removeNPCInstances hy
        (fun p hp _ => h.stocked p hp id) fun _ hid => hid
      refine ⟨hinv.eraseTile fun n hn hn' => ?_, fun p hp _ => ?_⟩
      · -- a creature that pointed to the tile was one of its creatures
        obtain ⟨hns, hnot⟩ := hleft n hn
        cases hgen : n.spawnGen with
        | none =>
            rw [h.inv.stray n hns hgen] at hn'
            cases hn'
        | some g =>
            obtain ⟨p, -, -, hp, y, hy', hy₁, hid⟩ := (h.inv.housed n hns g hgen).post
            rw [hn', Option.some.injEq] at hp
            have hsame := List.inj_on_of_nodup_map h.inv.yard_addrs hy' hy (hy₁.trans hp.symm)
            rw [hsame] at hid
            exact hnot hid
      · obtain ⟨hp, hne⟩ := mem_posts_eraseTile.mp hp
        exact hstocked p hp hne

theorem Good.runGarbageCheck (h : s.Good) (active : List (Int × Int))
    (position : Int → Int × Int) : (s.runGarbageCheck active position).Good := by
  unfold SpawnManager.runGarbageCheck
  split
  · exact h
  · have hloop : ((s.spawnTiles.map SpawnTile.addr).foldl
        (fun s t => s.garbageTile active position t) s).Good := by
      apply List.foldlRecOn _ _ h
      intro s hs t _
      exact hs.garbageTile active position t
    exact hloop.congr rfl rfl rfl rfl rfl

theorem Good.runProcessing (h : s.Good) (chance : SpawnChance) (players : List (Int × Int))
    (position : Int → Int × Int) (force : Bool) :
    (s.runProcessing cfg chance players position force).Good := by
  unfold SpawnManager.runProcessing
  split
  · exact h
  · dsimp only
    have hstart : ({ s with nextProcessTime := s.now + processingInterval } : SpawnManager).Good :=
      h.congr rfl rfl rfl rfl rfl
    have hloop : ((scanActivePlayerTiles players).foldl (fun (s : SpawnManager) c =>
        (s.getTile c.1 c.2).2.processTile cfg chance (s.getTile c.1 c.2).1)
        { s with nextProcessTime := s.now + processingInterval }).Good := by
      apply List.foldlRecOn _ _ hstart
      intro s hs c _
      exact (hs.getTile c.1 c.2).processTile chance (getTile_mem s c.1 c.2)
    split
    · exact hloop
    · exact hloop.runGarbageCheck _ _

/-! ### Runs -/

theorem Good.triggerSpawn (h : s.Good) {propID forceCreatureDef : Int} {found : Bool}
    (hfound : (s.findSpawner propID).isSome → found = false) :
    (s.triggerSpawn propID forceCreatureDef found).2.Good := by
  unfold SpawnManager.triggerSpawn
  cases hfind : s.findSpawner propID with
  | none => exact h
  | some p =>
      obtain ⟨tile, sp⟩ := p
      have hfailed : s.spawnCreature tile sp forceCreatureDef found =
          (none, s.modifySpawner sp.addr ActiveSpawner.invalidate) := by
        unfold spawnCreature
        rw [hfound (by rw [hfind]; rfl)]
        split <;> rfl
      dsimp only
      rw [hfailed]
      exact h.modifySpawner sp.addr uncounted_invalidate

theorem Good.step (h : s.Good) {e : SpawnEvent} (hpermitted : s.Permitted e) :
    (s.step cfg e).Good := by
  cases e with
  | tick ms => exact h.congr rfl rfl rfl rfl rfl
  | generateTile pages tileX tileY => exact h.generateTile hpermitted tileX tileY
  | runProcessing chance players position force =>
      exact h.runProcessing chance players position force
  | triggerSpawn propID forceCreatureDef found => exact h.triggerSpawn hpermitted
  | prepareDeath creatureID => exact h.prepareDeath hpermitted
  | updateSpawnPoint prop => exact h.updateSpawnPoint hpermitted
  | removeSpawnPoint propID => exact h.removeSpawnPoint propID
  | despawn creatureID => exact h.despawn hpermitted
  | removeNPCInstance creatureID => exact (h.removeNPCInstance hpermitted rfl).1
  | runGarbageCheck active position => exact h.runGarbageCheck active position

/-- An instance before its spawn system runs: there are no tiles, and its NPCs are not spawned. -/
structure Starts (s : SpawnManager) : Prop where
  tiles : s.spawnTiles = []
  npc_ids : NodupKeys SpawnedNPC.creatureID s.npcs
  npcs : ∀ npc ∈ s.npcs,
    npc.creatureID < s.nextActorID ∧ npc.spawnGen = none ∧ npc.spawnTile = none

theorem Starts.good (h : s.Starts) : s.Good := by
  have hposts : s.posts = [] := by
    unfold posts
    rw [h.tiles]
    rfl
  have hyards : s.yards = [] := by
    unfold yards
    rw [h.tiles]
    rfl
  have hgen {npc : SpawnedNPC} (hnpc : npc ∈ s.npcs) {g : Nat} (hg : g ∈ npc.spawnGen) : False := by
    rw [(h.npcs npc hnpc).2.1] at hg
    cases hg
  constructor
  · constructor
    · exact h.npc_ids
    · exact fun npc hnpc => (h.npcs npc hnpc).1
    · rw [hyards]
      exact List.nodup_nil
    · simp [hyards]
    · simp [hposts]
    · simp [hposts]
    · exact fun npc hnpc g hg => (hgen hnpc hg).elim
    · exact fun npc hnpc _ => (h.npcs npc hnpc).2.2
    · simp [hyards]
    · simp [hposts]
  · simp [StockedBut, hposts]

/-- In every state of a run of permitted steps the counter, the lists and the pointers agree. -/
theorem run_accounted {s : SpawnManager}
    (h : Reach Starts Permitted (fun s e => some (step cfg s e)) s) : s.Accounted := by
  have hgood : s.Good := h.invariant (fun s hs => hs.good) fun s e s' hs hpermitted hstep => by
    rw [← Option.some.inj hstep]
    exact hs.step hpermitted
  exact hgood.inv.accounted hgood.stocked

/-! ### Two spawn points -/

/-- Every spawn package exists, and every point spawns what it names. -/
def plainConfig : SpawnConfig where
  getPointerByName := fun _ => some {}

def plainChance : SpawnChance where
  testSpawn := fun _ => true
  found := fun _ => true

/-- A spawn point near the origin. -/
def camp (maxActive : Int) : SpawnProp where
  id := 7
  locationX := 100
  locationZ := 100
  extraData := some { spawnPackage := ['W', 'o', 'l', 'f'], maxActive := maxActive }

def processCamp : SpawnEvent := .runProcessing plainChance [(100, 100)] (fun _ => (100, 100)) false

/-- Two creatures are spawned and the first one dies. -/
def campEvents : List SpawnEvent :=
  [.updateSpawnPoint (camp 2), processCamp, .tick 150000, processCamp, .prepareDeath 1]

def runEvents (events : List SpawnEvent) : SpawnManager :=
  events.foldl (step plainConfig) { nextActorID := 1 }

theorem runEvents_append (events : List SpawnEvent) (e : SpawnEvent) :
    runEvents (events ++ [e]) = step plainConfig (runEvents events) e := by
  unfold runEvents
  rw [List.foldl_append]
  rfl

theorem run_accounted_camp : (runEvents campEvents).Accounted ∧
    (runEvents campEvents).getCIDForProp 7 = some 2 := by
  have hstart : Starts (runEvents []) :=
    ⟨rfl, List.nodup_nil, fun npc hnpc => absurd hnpc List.not_mem_nil⟩
  have hnext (events : List SpawnEvent) (e : SpawnEvent)
      (h : Reach Starts Permitted (fun s e => some (step plainConfig s e)) (runEvents events))
      (hpermitted : (runEvents events).Permitted e) :
      Reach Starts Permitted (fun s e => some (step plainConfig s e))
        (runEvents (events ++ [e])) := by
    rw [runEvents_append]
    exact h.next hpermitted rfl
  have hcamp : Regular (camp 2) := by
    rintro extraData ⟨⟩
    decide
  have hspares : (runEvents [.updateSpawnPoint (camp 2), processCamp, .tick 150000,
      processCamp]).Spares (· = 1) := by
    unfold Spares
    decide
  have hplaced := hnext [] (.updateSpawnPoint (camp 2)) (Reach.start hstart) hcamp
  have hfirst := hnext _ processCamp hplaced trivial
  have hlater := hnext _ (.tick 150000) hfirst trivial
  have hsecond := hnext _ processCamp hlater trivial
  have hdied := hnext _ (.prepareDeath 1) hsecond hspares
  exact ⟨run_accounted hdied, by decide⟩

/-- A spawn that a script triggers is counted, but not attached; and the ID of a creature is read
from an empty list once the only creature died. -/
theorem trigger_unattached :
    (∃ s, Reach Starts (fun _ _ => True) (fun s e => some (step plainConfig s e)) s ∧
      ∃ sp ∈ s.spawners, sp.refCount = 1 ∧ sp.attachedCreatureID = []) ∧
    ∃ s, Reach Starts (fun _ _ => True) (fun s e => some (step plainConfig s e)) s ∧
      s.getCIDForProp 7 = none := by
  have hstart : Starts { nextActorID := 1 } :=
    ⟨rfl, List.nodup_nil, fun npc hnpc => absurd hnpc List.not_mem_nil⟩
  have hrun (events : List SpawnEvent) : Reach Starts (fun _ _ => True)
      (fun s e => some (step plainConfig s e)) (runEvents events) :=
    reach_of_runAll hstart (runAll_total _ _ events)
  constructor
  · refine ⟨_, hrun [.updateSpawnPoint (camp 1), .triggerSpawn 7 0 true], ?_⟩
    decide
  · refine ⟨_, hrun [.updateSpawnPoint (camp 1), processCamp, .prepareDeath 1], ?_⟩
    decide

end SpawnManager

end Iceee
