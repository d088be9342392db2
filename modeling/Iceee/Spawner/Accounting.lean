import Iceee.Spawner.Posts

/-!
# What a spawner knows of its creatures

The counter, the lists and the pointers are `Accounted` for as long as every step is `Permitted`.
-/

namespace Iceee

open Lib

namespace SpawnManager

/-- The counter, the lists and the pointers agree. -/
structure Accounted (s : SpawnManager) : Prop where
  counted : ∀ sp ∈ s.spawners, sp.refCount =
    s.npcs.countP fun npc => npc.dead = false ∧ npc.spawnGen = some sp.addr
  attached : ∀ sp ∈ s.spawners, sp.refCount = sp.attachedCreatureID.length
  nonneg : ∀ sp ∈ s.spawners, 0 ≤ sp.refCount
  bounded : ∀ sp ∈ s.spawners, ∀ extraData ∈ sp.spawnPoint.extraData,
    sp.refCount ≤ extraData.maxActive
  pointers : ∀ npc ∈ s.npcs, (∀ g ∈ npc.spawnGen, ∃ sp ∈ s.spawners, sp.addr = g) ∧
    ∀ a ∈ npc.spawnTile, ∃ t ∈ s.spawnTiles, t.addr = a
  cid : ∀ propID, s.getCIDForProp propID = some (-1) ∨
    ∃ a sp npc, s.findSpawner propID = some (a, sp) ∧ npc ∈ s.npcs ∧
      npc.spawnGen = some sp.addr ∧ s.getCIDForProp propID = some npc.creatureID

/-! ### When a step is permitted -/

/-- A prop whose creatures are counted: its limit fits the counter, and they are not spawned dead
for a lease. -/
def Regular (prop : SpawnProp) : Prop :=
  ∀ extraData ∈ prop.extraData,
    0 ≤ extraData.maxActive ∧ extraData.maxActive ≤ 32767 ∧ extraData.leaseTime ≤ 0

/-- A spawner that loses creatures keeps another. -/
def Spares (s : SpawnManager) (gone : Int → Prop) : Prop :=
  ∀ sp ∈ s.spawners, (∃ id ∈ sp.attachedCreatureID, gone id) →
    ∃ id ∈ sp.attachedCreatureID, ¬gone id

/-- The condition on a step. -/
def Permitted (s : SpawnManager) : SpawnEvent → Prop
  | .tick _ | .runProcessing _ _ _ _ | .removeSpawnPoint _ | .runGarbageCheck _ _ => True
  | .generateTile pages _ _ => ∀ px py, ∀ prop ∈ pages px py, Regular prop
  | .triggerSpawn propID _ found => (s.findSpawner propID).isSome → found = false
  | .updateSpawnPoint prop => Regular prop
  | .prepareDeath creatureID | .removeNPCInstance creatureID => s.Spares (· = creatureID)
  | .despawn creatureID => s.Spares fun id => creatureID = 0 ∨ id = creatureID

/-! ### The invariant -/

/-- The list and the counter of a spawner against the creatures that point to it. -/
structure Kept (npcs : List SpawnedNPC) (sp : ActiveSpawner) : Prop where
  nodup : sp.attachedCreatureID.Nodup
  mem_iff : ∀ id, id ∈ sp.attachedCreatureID ↔
    ∃ npc ∈ npcs, npc.creatureID = id ∧ npc.spawnGen = some sp.addr
  refCount : sp.refCount = sp.attachedCreatureID.length
  short : sp.attachedCreatureID.length ≤ 32767
  regular : Regular sp.spawnPoint
  bounded : ∀ extraData ∈ sp.spawnPoint.extraData,
    (sp.attachedCreatureID.length : Int) ≤ extraData.maxActive

/-- A creature with a spawner lives in the spawner's tile. -/
structure Housed (s : SpawnManager) (npc : SpawnedNPC) (g : Nat) : Prop where
  alive : npc.dead = false
  post : ∃ p ∈ s.posts, p.2.addr = g ∧ npc.spawnTile = some p.1 ∧
    ∃ y ∈ s.yards, y.1 = p.1 ∧ npc.creatureID ∈ y.2

/-- The invariant of runs of permitted steps, but for the count of all spawns. -/
structure Inv (s : SpawnManager) : Prop where
  npc_ids : NodupKeys SpawnedNPC.creatureID s.npcs
  npc_lt : ∀ npc ∈ s.npcs, npc.creatureID < s.nextActorID
  yard_addrs : NodupKeys Prod.fst s.yards
  yard_lt : ∀ y ∈ s.yards, y.1 < s.nextAddr ∧ ∀ id ∈ y.2, id < s.nextActorID
  post_lt : ∀ p ∈ s.posts, p.2.addr < s.nextAddr
  post_unique : ∀ p ∈ s.posts, ∀ q ∈ s.posts, p.2.addr = q.2.addr → p = q
  housed : ∀ npc ∈ s.npcs, ∀ g ∈ npc.spawnGen, s.Housed npc g
  stray : ∀ npc ∈ s.npcs, npc.spawnGen = none → npc.spawnTile = none
  yard_npc : ∀ y ∈ s.yards, ∀ npc ∈ s.npcs, npc.creatureID ∈ y.2 → ∀ a ∈ npc.spawnTile, a = y.1
  kept : ∀ p ∈ s.posts, Kept s.npcs p.2

/-- A spawner that has spawned still has a creature, but for some spawners. -/
def StockedBut (s : SpawnManager) (but : Nat × ActiveSpawner → Prop) : Prop :=
  ∀ p ∈ s.posts, ¬but p → 0 < p.2.spawnCount → p.2.attachedCreatureID ≠ []

variable {s s' : SpawnManager} {cfg : SpawnConfig}

/-- The creatures that point to a spawner are as many as its list names. -/
theorem Inv.count (h : s.Inv) {p : Nat × ActiveSpawner} (hp : p ∈ s.posts) :
    p.2.attachedCreatureID.length =
      s.npcs.countP fun npc => npc.dead = false ∧ npc.spawnGen = some p.2.addr := by
  have hkept := h.kept p hp
  have hperm : p.2.attachedCreatureID.Perm
      ((s.npcs.filter fun npc => npc.dead = false ∧ npc.spawnGen = some p.2.addr).map
        SpawnedNPC.creatureID) := by
    rw [List.perm_ext_iff_of_nodup hkept.nodup (List.Nodup.sublist
      (List.filter_sublist.map _) h.npc_ids)]
    intro id
    rw [hkept.mem_iff, List.mem_map]
    constructor
    · rintro ⟨npc, hnpc, rfl, hgen⟩
      have halive := (h.housed npc hnpc _ hgen).alive
      exact ⟨npc, List.mem_filter.mpr ⟨hnpc, by simp [halive, hgen]⟩, rfl⟩
    · rintro ⟨npc, hnpc, rfl⟩
      obtain ⟨hnpc, hp⟩ := List.mem_filter.mp hnpc
      have hp : npc.dead = false ∧ npc.spawnGen = some p.2.addr := by simpa using hp
      exact ⟨npc, hnpc, rfl, hp.2⟩
  rw [hperm.length_eq, List.length_map, List.countP_eq_length_filter]

theorem Inv.accounted (h : s.Inv) (hstocked : s.StockedBut fun _ => False) : s.Accounted := by
  refine ⟨fun sp hsp => ?_, fun sp hsp => ?_, fun sp hsp => ?_, fun sp hsp => ?_,
    fun npc hnpc => ⟨fun g hg => ?_, fun a ha => ?_⟩, fun propID => ?_⟩
  · obtain ⟨a, hp⟩ := mem_spawners.mp hsp
    rw [(h.kept _ hp).refCount, h.count hp]
  · obtain ⟨a, hp⟩ := mem_spawners.mp hsp
    exact (h.kept _ hp).refCount
  · obtain ⟨a, hp⟩ := mem_spawners.mp hsp
    rw [(h.kept _ hp).refCount]
    exact Int.natCast_nonneg _
  · obtain ⟨a, hp⟩ := mem_spawners.mp hsp
    rw [(h.kept _ hp).refCount]
    exact (h.kept _ hp).bounded
  · obtain ⟨p, hp, haddr, -⟩ := (h.housed npc hnpc g hg).post
    exact ⟨p.2, mem_spawners.mpr ⟨p.1, hp⟩, haddr⟩
  · cases hgen : npc.spawnGen with
    | none =>
        rw [h.stray npc hnpc hgen] at ha
        cases ha
    | some g =>
        obtain ⟨p, -, -, htile, y, hy, hy₁, -⟩ := (h.housed npc hnpc g hgen).post
        obtain ⟨t, ht, hta, -⟩ := mem_yards.mp hy
        rw [Option.mem_def, htile, Option.some.injEq] at ha
        exact ⟨t, ht, by rw [hta, hy₁, ha]⟩
  · unfold getCIDForProp
    cases hfind : s.findSpawner propID with
    | none => exact .inl rfl
    | some p =>
        obtain ⟨a, sp⟩ := p
        have hp := findSpawner_mem hfind
        dsimp only
        by_cases hcount : sp.spawnCount > 0
        · rw [if_pos hcount]
          cases hattached : sp.attachedCreatureID with
          | nil => exact absurd hattached (hstocked _ hp id hcount)
          | cons id rest =>
              have hmem : id ∈ sp.attachedCreatureID := by
                rw [hattached]
                exact List.mem_cons_self
              obtain ⟨npc, hnpc, rfl, hgen⟩ := ((h.kept _ hp).mem_iff id).mp hmem
              exact .inr ⟨a, sp, npc, rfl, hnpc, hgen, rfl⟩
        · rw [if_neg hcount]
          exact .inl rfl

/-! ### Operations that leave the accounts -/

/-- Only spawners, tiles and creatures count. -/
theorem Inv.congr (h : s.Inv) (hposts : s'.posts = s.posts) (hyards : s'.yards = s.yards)
    (hnpcs : s'.npcs = s.npcs) (hactor : s'.nextActorID = s.nextActorID)
    (haddr : s'.nextAddr = s.nextAddr) : s'.Inv := by
  obtain ⟨hids, hlt, haddrs, hyard, hpost, hunique, hhoused, hstray, hattached, hkept⟩ := h
  constructor
  · rwa [hnpcs]
  · rwa [hnpcs, hactor]
  · rwa [hyards]
  · rwa [hyards, haddr, hactor]
  · rwa [hposts, haddr]
  · rwa [hposts]
  · rw [hnpcs]
    intro npc hnpc g hg
    obtain ⟨halive, hhome⟩ := hhoused npc hnpc g hg
    exact ⟨halive, by rwa [hposts, hyards]⟩
  · rwa [hnpcs]
  · rwa [hyards, hnpcs]
  · rwa [hposts, hnpcs]

/-- A change of a spawner that leaves what is counted. -/
structure Uncounted (f : ActiveSpawner → ActiveSpawner) : Prop where
  addr : ∀ sp, (f sp).addr = sp.addr
  spawnPoint : ∀ sp, (f sp).spawnPoint = sp.spawnPoint
  spawnCount : ∀ sp, (f sp).spawnCount = sp.spawnCount
  refCount : ∀ sp, (f sp).refCount = sp.refCount
  attached : ∀ sp, (f sp).attachedCreatureID = sp.attachedCreatureID

theorem uncounted_invalidate : Uncounted ActiveSpawner.invalidate :=
  ⟨fun _ => rfl, fun _ => rfl, fun _ => rfl, fun _ => rfl, fun _ => rfl⟩

theorem uncounted_updateSpawnDelay (now : Nat) : Uncounted fun sp => sp.updateSpawnDelay now :=
  ⟨fun _ => rfl, fun _ => rfl, fun _ => rfl, fun _ => rfl, fun _ => rfl⟩

/-- Where the spawners keep addresses and lists, the houses stay. -/
theorem Housed.of_posts {npc : SpawnedNPC} {g : Nat} (h : s.Housed npc g)
    (hposts : ∀ p ∈ s.posts, ∃ q ∈ s'.posts, q.1 = p.1 ∧ q.2.addr = p.2.addr)
    (hyards : ∀ y ∈ s.yards, ∃ z ∈ s'.yards, z.1 = y.1 ∧ ∀ id ∈ y.2, id ∈ z.2) :
    s'.Housed npc g := by
  obtain ⟨halive, p, hp, haddr, htile, y, hy, hy₁, hid⟩ := h
  obtain ⟨q, hq, hq₁, hqaddr⟩ := hposts p hp
  obtain ⟨z, hz, hz₁, hsub⟩ := hyards y hy
  exact ⟨halive, q, hq, hqaddr.trans haddr, by rw [hq₁]; exact htile, z, hz,
    hz₁.trans (hy₁.trans hq₁.symm), hsub _ hid⟩

theorem Kept.congr {npcs npcs' : List SpawnedNPC} {sp sp' : ActiveSpawner} (h : Kept npcs sp)
    (haddr : sp'.addr = sp.addr) (hpoint : sp'.spawnPoint = sp.spawnPoint)
    (hcount : sp'.refCount = sp.refCount)
    (hattached : sp'.attachedCreatureID = sp.attachedCreatureID)
    (hnpcs : ∀ npc, npc.spawnGen = some sp.addr → (npc ∈ npcs' ↔ npc ∈ npcs)) :
    Kept npcs' sp' := by
  obtain ⟨hnodup, hmem, href, hshort, hregular, hbounded⟩ := h
  refine ⟨by rwa [hattached], fun id => ?_, by rwa [hcount, hattached], by rwa [hattached],
    by rwa [hpoint], by rwa [hpoint, hattached]⟩
  rw [hattached, haddr, hmem]
  constructor
  · rintro ⟨npc, hnpc, hid, hgen⟩
    exact ⟨npc, (hnpcs npc hgen).mpr hnpc, hid, hgen⟩
  · rintro ⟨npc, hnpc, hid, hgen⟩
    exact ⟨npc, (hnpcs npc hgen).mp hnpc, hid, hgen⟩

/-- A spawner may change as long as its list and its counter are right. -/
theorem Inv.modifySpawner_of_kept (h : s.Inv) {addr : Nat} {f : ActiveSpawner → ActiveSpawner}
    (hf : ∀ sp, (f sp).addr = sp.addr)
    (hkept : ∀ p ∈ s.posts, p.2.addr = addr → Kept s.npcs (f p.2)) :
    (s.modifySpawner addr f).Inv := by
  have hyards := yards_modifySpawner s addr f
  refine ⟨h.npc_ids, h.npc_lt, by rw [hyards]; exact h.yard_addrs,
    by rw [hyards]; exact h.yard_lt, fun p hp => ?_, fun p hp q hq hpq => ?_,
    fun npc hnpc g hg => ?_, h.stray, by rw [hyards]; exact h.yard_npc, fun p hp => ?_⟩
  · obtain ⟨sp, hsp, heq⟩ := mem_posts_modifySpawner.mp hp
    rw [heq]
    split
    · rw [hf]
      exact h.post_lt _ hsp
    · exact h.post_lt _ hsp
  · obtain ⟨sp, hsp, heq⟩ := mem_posts_modifySpawner.mp hp
    obtain ⟨sq, hsq, heq'⟩ := mem_posts_modifySpawner.mp hq
    have haddr {sp : ActiveSpawner} : (if sp.addr = addr then f sp else sp).addr = sp.addr := by
      split
      · exact hf sp
      · rfl
    rw [heq, heq', haddr, haddr] at hpq
    have hsame := h.post_unique _ hsp _ hsq hpq
    rw [Prod.mk.injEq] at hsame
    exact Prod.ext hsame.1 (by rw [heq, heq', hsame.2])
  · refine (h.housed npc hnpc g hg).of_posts (fun p hp => ?_) (fun y hy => ?_)
    · refine ⟨(p.1, if p.2.addr = addr then f p.2 else p.2),
        mem_posts_modifySpawner.mpr ⟨p.2, hp, rfl⟩, rfl, ?_⟩
      dsimp only
      split
      · exact hf _
      · rfl
    · exact ⟨y, by rwa [hyards], rfl, fun _ h => h⟩
  · obtain ⟨sp, hsp, heq⟩ := mem_posts_modifySpawner.mp hp
    rw [heq]
    split
    · next haddr => exact hkept _ hsp haddr
    · exact h.kept _ hsp

theorem Inv.modifySpawner (h : s.Inv) (addr : Nat) {f : ActiveSpawner → ActiveSpawner}
    (hf : Uncounted f) : (s.modifySpawner addr f).Inv := by
  apply h.modifySpawner_of_kept hf.addr
  intro p hp _
  exact (h.kept p hp).congr (hf.addr p.2) (hf.spawnPoint p.2) (hf.refCount p.2)
    (hf.attached p.2) fun _ _ => Iff.rfl

theorem StockedBut.congr {but : Nat × ActiveSpawner → Prop} (h : s.StockedBut but)
    (hposts : s'.posts = s.posts) : s'.StockedBut but := by
  unfold StockedBut
  rw [hposts]
  exact h

theorem StockedBut.modifySpawner (h : s.StockedBut fun _ => False) (addr : Nat)
    {f : ActiveSpawner → ActiveSpawner} (hf : Uncounted f) :
    (s.modifySpawner addr f).StockedBut fun _ => False := by
  intro p hp _ hcount
  obtain ⟨sp, hsp, heq⟩ := mem_posts_modifySpawner.mp hp
  rw [heq] at hcount ⊢
  split at hcount
  · next haddr =>
      rw [hf.spawnCount] at hcount
      rw [if_pos haddr, hf.attached]
      exact h _ hsp id hcount
  · next haddr =>
      rw [if_neg haddr]
      exact h _ hsp id hcount

/-! ### Tiles and spawners that are made -/

theorem Inv.getTile (h : s.Inv) (tileX tileY : Int) : (s.getTile tileX tileY).2.Inv := by
  obtain ⟨hsame, -⟩ | ⟨-, hposts, hyards, hnpcs, hactor, haddr⟩ := getTile_cases s tileX tileY
  · rwa [hsame]
  generalize (s.getTile tileX tileY).2 = s' at hposts hyards hnpcs hactor haddr ⊢
  constructor
  · rw [hnpcs]
    exact h.npc_ids
  · rw [hnpcs, hactor]
    exact h.npc_lt
  · rw [hyards]
    exact nodupKeys_append_singleton.mpr ⟨h.yard_addrs, fun y hy => (h.yard_lt y hy).1.ne⟩
  · rw [hyards, hactor, haddr]
    intro y hy
    obtain hy | hy := List.mem_append.mp hy
    · exact ⟨Nat.lt_succ_of_lt (h.yard_lt y hy).1, (h.yard_lt y hy).2⟩
    · rw [List.mem_singleton.mp hy]
      exact ⟨Nat.lt_succ_self _, fun id hid => by cases hid⟩
  · rw [hposts, haddr]
    exact fun p hp => Nat.lt_succ_of_lt (h.post_lt p hp)
  · rw [hposts]
    exact h.post_unique
  · rw [hnpcs]
    intro npc hnpc g hg
    refine (h.housed npc hnpc g hg).of_posts (fun p hp => ?_) (fun y hy => ?_)
    · exact ⟨p, by rwa [hposts], rfl, rfl⟩
    · exact ⟨y, by rw [hyards]; exact List.mem_append_left _ hy, rfl, fun _ h => h⟩
  · rw [hnpcs]
    exact h.stray
  · rw [hyards, hnpcs]
    intro y hy npc hnpc hid
    obtain hy | hy := List.mem_append.mp hy
    · exact h.yard_npc y hy npc hnpc hid
    · rw [List.mem_singleton.mp hy] at hid
      cases hid
  · rw [hposts, hnpcs]
    exact h.kept

theorem StockedBut.getTile {but : Nat × ActiveSpawner → Prop} (h : s.StockedBut but)
    (tileX tileY : Int) : (s.getTile tileX tileY).2.StockedBut but := by
  obtain ⟨hsame, -⟩ | ⟨-, hposts, -⟩ := getTile_cases s tileX tileY
  · rwa [hsame]
  · exact h.congr hposts

theorem kept_new {npcs : List SpawnedNPC} {prop : SpawnProp} {sp : ActiveSpawner}
    (hnew : s.IsNew prop sp) (hregular : Regular prop)
    (hnone : ∀ npc ∈ npcs, npc.spawnGen ≠ some s.nextAddr) : Kept npcs sp := by
  refine ⟨by simp [hnew.attached], fun id => ?_, by simp [hnew.refCount, hnew.attached],
    by simp [hnew.attached], by rwa [hnew.spawnPoint], fun extraData hextra => ?_⟩
  · rw [hnew.attached, hnew.addr]
    constructor
    · intro hid
      cases hid
    · rintro ⟨npc, hnpc, -, hgen⟩
      exact absurd hgen (hnone npc hnpc)
  · rw [hnew.spawnPoint] at hextra
    rw [hnew.attached]
    exact (hregular extraData hextra).1

/-- A pointer of a creature is the address of a spawner. -/
theorem Inv.spawnGen_lt (h : s.Inv) {npc : SpawnedNPC} (hnpc : npc ∈ s.npcs) {g : Nat}
    (hg : npc.spawnGen = some g) : g < s.nextAddr := by
  obtain ⟨p, hp, rfl, -⟩ := (h.housed npc hnpc g hg).post
  exact h.post_lt p hp

theorem Inv.addSpawnerFromProp (h : s.Inv) (tile : Nat) {prop : SpawnProp}
    (hregular : Regular prop) : (s.addSpawnerFromProp cfg tile prop).Inv := by
  obtain hsame | ⟨sp, hnew, hfrom, hto, hyards, hnpcs, hactor, haddr⟩ :=
    addSpawnerFromProp_cases cfg s tile prop
  · rwa [hsame]
  generalize s.addSpawnerFromProp cfg tile prop = s' at hfrom hto hyards hnpcs hactor haddr ⊢
  constructor
  · rw [hnpcs]
    exact h.npc_ids
  · rw [hnpcs, hactor]
    exact h.npc_lt
  · rw [hyards]
    exact h.yard_addrs
  · rw [hyards, haddr, hactor]
    exact fun y hy => ⟨Nat.lt_succ_of_lt (h.yard_lt y hy).1, (h.yard_lt y hy).2⟩
  · rw [haddr]
    intro p hp
    obtain hp | ⟨rfl, -⟩ := hfrom p hp
    · exact Nat.lt_succ_of_lt (h.post_lt p hp)
    · rw [hnew.addr]
      exact Nat.lt_succ_self _
  · intro p hp q hq hpq
    obtain hp | ⟨rfl, -⟩ := hfrom p hp
    · obtain hq | ⟨rfl, -⟩ := hfrom q hq
      · exact h.post_unique p hp q hq hpq
      · have hlt := h.post_lt p hp
        rw [hpq, hnew.addr] at hlt
        exact absurd hlt (lt_irrefl _)
    · obtain hq | ⟨rfl, -⟩ := hfrom q hq
      · have hlt := h.post_lt q hq
        rw [← hpq, hnew.addr] at hlt
        exact absurd hlt (lt_irrefl _)
      · rfl
  · rw [hnpcs]
    intro npc hnpc g hg
    refine (h.housed npc hnpc g hg).of_posts (fun p hp => ?_) (fun y hy => ?_)
    · exact ⟨p, hto p hp, rfl, rfl⟩
    · exact ⟨y, by rwa [hyards], rfl, fun _ h => h⟩
  · rw [hnpcs]
    exact h.stray
  · rw [hyards, hnpcs]
    exact h.yard_npc
  · rw [hnpcs]
    intro p hp
    obtain hp | ⟨rfl, -⟩ := hfrom p hp
    · exact h.kept p hp
    · exact kept_new hnew hregular fun npc hnpc hgen =>
        absurd (h.spawnGen_lt hnpc hgen) (lt_irrefl _)

theorem StockedBut.addSpawnerFromProp {but : Nat × ActiveSpawner → Prop} (h : s.StockedBut but)
    (tile : Nat) (prop : SpawnProp) : (s.addSpawnerFromProp cfg tile prop).StockedBut but := by
  obtain hsame | ⟨sp, hnew, hfrom, -⟩ := addSpawnerFromProp_cases cfg s tile prop
  · rwa [hsame]
  · intro p hp hbut hcount
    obtain hp | ⟨rfl, -⟩ := hfrom p hp
    · exact h p hp hbut hcount
    · rw [hnew.spawnCount] at hcount
      exact absurd hcount (lt_irrefl 0)

end SpawnManager

end Iceee
