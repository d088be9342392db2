import Iceee.Spawner.Accounting

/-!
# Creatures that come and go

A creature that leaves, one that is spawned, and spawners and tiles that are erased once they have
no creatures keep the accounts.
-/

namespace Iceee

open Lib

theorem wrapShort_eq {n : Int} (h : -32768 ≤ n ∧ n ≤ 32767) : wrapShort n = n := by
  unfold wrapShort
  omega

namespace SpawnManager

variable {s s' : SpawnManager} {cfg : SpawnConfig}

/-! ### A creature leaves -/

section Leaves

variable {npc : SpawnedNPC}

/-- A creature that points to a spawner is not the one that left. -/
theorem Leaves.mem_iff (hl : s.Leaves s' npc) (hmem : npc ∈ s.npcs)
    (hids : NodupKeys SpawnedNPC.creatureID s.npcs) {n : SpawnedNPC} {g : Nat}
    (hgen : n.spawnGen = some g) : n ∈ s'.npcs ↔ n ∈ s.npcs ∧ n ≠ npc := by
  constructor
  · intro hn
    obtain ⟨hn, hid⟩ | ⟨-, hnone, -⟩ := hl.npcs_from n hn
    · exact ⟨hn, fun h => hid (h ▸ rfl)⟩
    · rw [hgen] at hnone
      cases hnone
  · rintro ⟨hn, hne⟩
    exact hl.npcs_to n hn fun hid => hne (List.inj_on_of_nodup_map hids hn hmem hid)

theorem Leaves.kept (hl : s.Leaves s' npc) (h : s.Inv) (hmem : npc ∈ s.npcs)
    {sp : ActiveSpawner} (hkept : Kept s.npcs sp) :
    Kept s'.npcs (if npc.spawnGen = some sp.addr then sp.notifyKill s.now npc.creatureID
      else sp) := by
  split
  · next hgen =>
      have hid : npc.creatureID ∈ sp.attachedCreatureID :=
        (hkept.mem_iff _).mpr ⟨npc, hmem, rfl, hgen⟩
      have hlength := List.length_erase_of_mem hid
      have hpos := List.length_pos_of_mem hid
      have hshort := hkept.short
      have hattached : (sp.notifyKill s.now npc.creatureID).attachedCreatureID =
          sp.attachedCreatureID.erase npc.creatureID := rfl
      have hpoint : (sp.notifyKill s.now npc.creatureID).spawnPoint = sp.spawnPoint := rfl
      have hcount : (sp.notifyKill s.now npc.creatureID).refCount =
          wrapShort (sp.refCount - 1) := rfl
      refine ⟨?_, fun id => ?_, ?_, ?_, hkept.regular, fun extraData hextra => ?_⟩
      · rw [hattached]
        exact hkept.nodup.erase _
      · rw [hattached, hkept.nodup.mem_erase_iff, hkept.mem_iff]
        constructor
        · rintro ⟨hne, n, hn, rfl, hgen'⟩
          exact ⟨n, hl.npcs_to n hn hne, rfl, hgen'⟩
        · rintro ⟨n, hn, rfl, hgen'⟩
          obtain ⟨hn, hne⟩ | ⟨-, hnone, -⟩ := hl.npcs_from n hn
          · exact ⟨hne, n, hn, rfl, hgen'⟩
          · rw [hnone] at hgen'
            cases hgen'
      · rw [hcount, hkept.refCount, hattached, hlength, wrapShort_eq (by omega)]
        omega
      · rw [hattached, hlength]
        omega
      · have hbounded := hkept.bounded extraData hextra
        rw [hattached, hlength]
        omega
  · next hgen =>
      refine hkept.congr rfl rfl rfl rfl fun n hgen' => ?_
      rw [hl.mem_iff hmem h.npc_ids hgen']
      exact ⟨fun hn => hn.1, fun hn => ⟨hn, fun hne => hgen (hne ▸ hgen')⟩⟩

/-- The accounts are right after a creature left. -/
theorem Inv.leaves (h : s.Inv) (hl : s.Leaves s' npc) (hmem : npc ∈ s.npcs) : s'.Inv := by
  have haddr (sp : ActiveSpawner) : (if npc.spawnGen = some sp.addr then
      sp.notifyKill s.now npc.creatureID else sp).addr = sp.addr := by
    split <;> rfl
  constructor
  · exact List.Nodup.sublist hl.npc_ids h.npc_ids
  · intro n hn
    rw [hl.nextActorID]
    obtain ⟨hn, -⟩ | ⟨hid, -⟩ := hl.npcs_from n hn
    · exact h.npc_lt n hn
    · rw [hid]
      exact h.npc_lt npc hmem
  · rw [hl.yards]
    exact h.yard_addrs
  · rw [hl.yards, hl.nextAddr, hl.nextActorID]
    exact h.yard_lt
  · intro p hp
    obtain ⟨sp, hsp, heq⟩ := hl.posts_from p hp
    rw [heq, haddr, hl.nextAddr]
    exact h.post_lt _ hsp
  · intro p hp q hq hpq
    obtain ⟨sp, hsp, heq⟩ := hl.posts_from p hp
    obtain ⟨sq, hsq, heq'⟩ := hl.posts_from q hq
    rw [heq, heq', haddr, haddr] at hpq
    have hsame := h.post_unique _ hsp _ hsq hpq
    rw [Prod.mk.injEq] at hsame
    exact Prod.ext hsame.1 (by rw [heq, heq', hsame.2])
  · intro n hn g hg
    obtain ⟨hn, -⟩ := (hl.mem_iff hmem h.npc_ids hg).mp hn
    refine (h.housed n hn g hg).of_posts (fun p hp => ?_) (fun y hy => ?_)
    · exact ⟨_, hl.posts_to p hp, rfl, haddr p.2⟩
    · exact ⟨y, by rwa [hl.yards], rfl, fun _ h => h⟩
  · intro n hn hgen
    obtain ⟨hn, -⟩ | ⟨-, -, htile⟩ := hl.npcs_from n hn
    · exact h.stray n hn hgen
    · exact htile
  · rw [hl.yards]
    intro y hy n hn hid a ha
    obtain ⟨hn, -⟩ | ⟨-, -, htile⟩ := hl.npcs_from n hn
    · exact h.yard_npc y hy n hn hid a ha
    · rw [htile] at ha
      cases ha
  · intro p hp
    obtain ⟨sp, hsp, heq⟩ := hl.posts_from p hp
    rw [heq]
    exact hl.kept h hmem (h.kept _ hsp)

/-- A spawner that is exempt by its tile and its address stays exempt. -/
def Steady (but : Nat × ActiveSpawner → Prop) : Prop :=
  ∀ p q : Nat × ActiveSpawner, p.1 = q.1 → p.2.addr = q.2.addr → but p → but q

/-- Spawners other than the exempt ones are not concerned, or keep another creature. -/
theorem StockedBut.leaves {but : Nat × ActiveSpawner → Prop} (h : s.StockedBut but)
    (hsteady : Steady but) (hl : s.Leaves s' npc)
    (hconcerned : ∀ p ∈ s.posts, npc.spawnGen = some p.2.addr → ¬but p →
      ∃ id ∈ p.2.attachedCreatureID, id ≠ npc.creatureID) : s'.StockedBut but := by
  intro p hp hbut hcount
  obtain ⟨sp, hsp, heq⟩ := hl.posts_from p hp
  by_cases hgen : npc.spawnGen = some sp.addr
  · rw [if_pos hgen] at heq
    have hbut' : ¬but (p.1, sp) := fun hb =>
      hbut (hsteady (p.1, sp) p rfl (by rw [heq]; rfl) hb)
    obtain ⟨id, hid, hne⟩ := hconcerned (p.1, sp) hsp hgen hbut'
    have hmem : id ∈ p.2.attachedCreatureID := by
      rw [heq]
      exact (List.mem_erase_of_ne hne).mpr hid
    exact List.ne_nil_of_mem hmem
  · rw [if_neg hgen] at heq
    rw [heq] at hcount ⊢
    exact h (p.1, sp) hsp (fun hb => hbut (hsteady (p.1, sp) p rfl (by rw [heq]) hb)) hcount

/-- What spares a creature of each spawner still does after one of the others left. -/
theorem Spares.leaves {gone : Int → Prop} (h : s.Spares gone) (hl : s.Leaves s' npc)
    (hgone : gone npc.creatureID) : s'.Spares gone := by
  intro sp hsp ⟨id, hid, hg⟩
  obtain ⟨a, hp⟩ := mem_spawners.mp hsp
  obtain ⟨old, hold, heq⟩ := hl.posts_from _ hp
  have hsub : ∀ i ∈ sp.attachedCreatureID, i ∈ old.attachedCreatureID := by
    intro i hi
    dsimp only at heq
    rw [heq] at hi
    split at hi
    · exact List.mem_of_mem_erase hi
    · exact hi
  obtain ⟨i, hi, hspared⟩ := h old (mem_spawners.mpr ⟨a, hold⟩) ⟨id, hsub id hid, hg⟩
  have hne : i ≠ npc.creatureID := fun he => hspared (he ▸ hgone)
  refine ⟨i, ?_, hspared⟩
  dsimp only at heq
  rw [heq]
  split
  · exact (List.mem_erase_of_ne hne).mpr hi
  · exact hi

theorem StockedBut.leaves_of_spares (h : s.StockedBut fun _ => False) {gone : Int → Prop}
    (hspares : s.Spares gone) (hinv : s.Inv) (hmem : npc ∈ s.npcs) (hl : s.Leaves s' npc)
    (hgone : gone npc.creatureID) : s'.StockedBut fun _ => False := by
  apply h.leaves (fun _ _ _ _ hf => hf) hl
  intro p hp hgen _
  have hid : npc.creatureID ∈ p.2.attachedCreatureID :=
    ((hinv.kept p hp).mem_iff _).mpr ⟨npc, hmem, rfl, hgen⟩
  obtain ⟨i, hi, hspared⟩ := hspares p.2 (mem_spawners.mpr ⟨p.1, hp⟩) ⟨_, hid, hgone⟩
  exact ⟨i, hi, fun he => hspared (he ▸ hgone)⟩

end Leaves

/-! ### A creature is spawned -/

/-- A spawner with room for another creature gets it. -/
theorem Kept.spawn {npcs : List SpawnedNPC} {sp : ActiveSpawner} (h : Kept npcs sp)
    {new : SpawnedNPC} (hgen : new.spawnGen = some sp.addr)
    (hfresh : ∀ n ∈ npcs, n.creatureID ≠ new.creatureID) {extraData : CreatureSpawnDef}
    (hextra : sp.spawnPoint.extraData = some extraData)
    (hroom : sp.refCount < extraData.maxActive) (now : Nat) :
    Kept (npcs ++ [new]) ((sp.onSpawnSuccess now).addAttachedCreature new.creatureID) := by
  have hattached : ((sp.onSpawnSuccess now).addAttachedCreature new.creatureID).attachedCreatureID =
      sp.attachedCreatureID ++ [new.creatureID] := rfl
  have hlength : (sp.attachedCreatureID ++ [new.creatureID]).length =
      sp.attachedCreatureID.length + 1 := by simp
  have hmax := (h.regular extraData hextra).2.1
  have hcount := h.refCount
  refine ⟨?_, fun id => ?_, ?_, ?_, h.regular, fun extraData' hextra' => ?_⟩
  · rw [hattached]
    refine h.nodup.append (List.nodup_singleton _) ?_
    rw [List.disjoint_singleton]
    intro hmem
    obtain ⟨n, hn, hid, -⟩ := (h.mem_iff _).mp hmem
    exact hfresh n hn hid
  · rw [hattached, List.mem_append, h.mem_iff, List.mem_singleton]
    constructor
    · rintro (⟨n, hn, hid, hgen'⟩ | rfl)
      · exact ⟨n, List.mem_append_left _ hn, hid, hgen'⟩
      · exact ⟨new, List.mem_append_right _ List.mem_cons_self, rfl, hgen⟩
    · rintro ⟨n, hn, rfl, hgen'⟩
      obtain hn | hn := List.mem_append.mp hn
      · exact .inl ⟨n, hn, rfl, hgen'⟩
      · exact .inr (by rw [List.mem_singleton.mp hn])
  · have hrefCount : ((sp.onSpawnSuccess now).addAttachedCreature new.creatureID).refCount =
        wrapShort (sp.refCount + 1) := rfl
    rw [hrefCount, hattached, hlength, wrapShort_eq (by omega)]
    omega
  · rw [hattached, hlength]
    omega
  · have hpoint : ((sp.onSpawnSuccess now).addAttachedCreature new.creatureID).spawnPoint =
        sp.spawnPoint := rfl
    rw [hpoint, hextra, Option.mem_def, Option.some.injEq] at hextra'
    rw [hattached, hlength, ← hextra']
    omega

/-- `SpawnCreature` from `RunProcessing` succeeded. -/
theorem Inv.spawn (h : s.Inv) {tile : Nat} {sp : ActiveSpawner} (hp : (tile, sp) ∈ s.posts)
    {extraData : CreatureSpawnDef} (hextra : sp.spawnPoint.extraData = some extraData)
    (hroom : sp.refCount < extraData.maxActive) (htile : ∃ y ∈ s.yards, y.1 = tile)
    (hposts : s'.posts = s.posts)
    (hyards : s'.yards = s.yards.map fun y =>
      if y.1 = tile then (y.1, y.2 ++ [s.nextActorID]) else y)
    (hnpcs : s'.npcs = s.npcs ++ [s.newCreature tile sp])
    (hactor : s'.nextActorID = s.nextActorID + 1) (haddr : s'.nextAddr = s.nextAddr)
    (now : Nat) :
    (s'.modifySpawner sp.addr fun old =>
      (old.onSpawnSuccess now).addAttachedCreature s.nextActorID).Inv := by
  have hkept := h.kept _ hp
  have hregular := hkept.regular extraData hextra
  have hgen : (s.newCreature tile sp).spawnGen = some sp.addr := rfl
  have hdead : (s.newCreature tile sp).dead = false := by
    unfold newCreature
    simp only [hextra]
    exact decide_eq_false (not_lt.mpr hregular.2.2)
  have hnew {n : SpawnedNPC} : n ∈ s'.npcs ↔ n ∈ s.npcs ∨ n = s.newCreature tile sp := by
    rw [hnpcs, List.mem_append, List.mem_singleton]
  -- each spawner afterwards is one from before, and its address is the same
  have hfrom : ∀ p ∈ (s'.modifySpawner sp.addr fun old =>
      (old.onSpawnSuccess now).addAttachedCreature s.nextActorID).posts,
      ∃ old, (p.1, old) ∈ s.posts ∧ p.2.addr = old.addr ∧
        p.2 = if old.addr = sp.addr then
          (old.onSpawnSuccess now).addAttachedCreature s.nextActorID else old := by
    intro p hp
    obtain ⟨old, hold, heq⟩ := mem_posts_modifySpawner.mp hp
    rw [hposts] at hold
    refine ⟨old, hold, ?_, heq⟩
    rw [heq]
    split <;> rfl
  have hyard {y : Nat × List Int} (hy : y ∈ s'.yards) : ∃ z ∈ s.yards, y.1 = z.1 ∧
      ∀ id ∈ y.2, id ∈ z.2 ∨ id = s.nextActorID ∧ z.1 = tile := by
    rw [hyards] at hy
    obtain ⟨z, hz, rfl⟩ := List.mem_map.mp hy
    refine ⟨z, hz, ?_, fun id hid => ?_⟩
    · split <;> rfl
    · split at hid
      · next hz₁ =>
          obtain hid | hid := List.mem_append.mp hid
          · exact .inl hid
          · exact .inr ⟨List.mem_singleton.mp hid, hz₁⟩
      · exact .inl hid
  have hyards' := yards_modifySpawner s' sp.addr fun old =>
    (old.onSpawnSuccess now).addAttachedCreature s.nextActorID
  have hfresh {n : SpawnedNPC} (hn : n ∈ s.npcs) : n.creatureID ≠ s.nextActorID :=
    (h.npc_lt n hn).ne
  have hposts' : ∀ p ∈ s.posts, (p.1, if p.2.addr = sp.addr then
      (p.2.onSpawnSuccess now).addAttachedCreature s.nextActorID else p.2) ∈
      (s'.modifySpawner sp.addr fun old =>
        (old.onSpawnSuccess now).addAttachedCreature s.nextActorID).posts := fun p hp =>
    mem_posts_modifySpawner.mpr ⟨p.2, by rwa [hposts], rfl⟩
  constructor
  · exact (hnpcs ▸ nodupKeys_append_singleton.mpr ⟨h.npc_ids, fun n hn => hfresh hn⟩ :
      NodupKeys SpawnedNPC.creatureID s'.npcs)
  · intro n hn
    rw [show (s'.modifySpawner _ _).nextActorID = s.nextActorID + 1 from hactor]
    obtain hn | rfl := hnew.mp hn
    · exact (h.npc_lt n hn).trans (Int.lt_succ _)
    · exact Int.lt_succ _
  · rw [hyards', hyards]
    unfold NodupKeys
    rw [List.map_map]
    have hkeys : (Prod.fst ∘ fun y : Nat × List Int =>
        if y.1 = tile then (y.1, y.2 ++ [s.nextActorID]) else y) = Prod.fst := by
      funext y
      simp only [Function.comp_apply]
      split <;> rfl
    rw [hkeys]
    exact h.yard_addrs
  · rw [hyards', show (s'.modifySpawner _ _).nextActorID = s.nextActorID + 1 from hactor,
      show (s'.modifySpawner _ _).nextAddr = s.nextAddr from haddr]
    intro y hy
    obtain ⟨z, hz, hyz, hids⟩ := hyard hy
    refine ⟨by rw [hyz]; exact (h.yard_lt z hz).1, fun id hid => ?_⟩
    obtain hid | ⟨rfl, -⟩ := hids id hid
    · exact ((h.yard_lt z hz).2 id hid).trans (Int.lt_succ _)
    · exact Int.lt_succ _
  · intro p hp
    rw [show (s'.modifySpawner _ _).nextAddr = s.nextAddr from haddr]
    obtain ⟨old, hold, haddr', -⟩ := hfrom p hp
    rw [haddr']
    exact h.post_lt _ hold
  · intro p hp q hq hpq
    obtain ⟨old, hold, haddr₁, heq₁⟩ := hfrom p hp
    obtain ⟨old', hold', haddr₂, heq₂⟩ := hfrom q hq
    have hsame := h.post_unique _ hold _ hold' (haddr₁.symm.trans (hpq.trans haddr₂))
    rw [Prod.mk.injEq] at hsame
    exact Prod.ext hsame.1 (by rw [heq₁, heq₂, hsame.2])
  · intro n hn g hg
    obtain hn | rfl := hnew.mp hn
    · refine (h.housed n hn g hg).of_posts (fun p hp => ?_) (fun y hy => ?_)
      · refine ⟨_, hposts' p hp, rfl, ?_⟩
        dsimp only
        split <;> rfl
      · refine ⟨_, by rw [hyards', hyards]; exact List.mem_map_of_mem hy, ?_, fun id hid => ?_⟩
        · split <;> rfl
        · split
          · exact List.mem_append_left _ hid
          · exact hid
    · rw [Option.mem_def, hgen, Option.some.injEq] at hg
      subst hg
      obtain ⟨y, hy, rfl⟩ := htile
      refine ⟨hdead, _, hposts' _ hp, ?_, rfl, (y.1, y.2 ++ [s.nextActorID]), ?_, rfl, ?_⟩
      · rw [if_pos rfl]
        rfl
      · rw [hyards', hyards]
        exact List.mem_map.mpr ⟨y, hy, if_pos rfl⟩
      · exact List.mem_append_right _ List.mem_cons_self
  · intro n hn hnone
    obtain hn | rfl := hnew.mp hn
    · exact h.stray n hn hnone
    · rw [hgen] at hnone
      cases hnone
  · rw [hyards']
    intro y hy n hn hid a ha
    obtain ⟨z, hz, hyz, hids⟩ := hyard hy
    rw [hyz]
    obtain hn | rfl := hnew.mp hn
    · obtain hid | ⟨hid, -⟩ := hids _ hid
      · exact h.yard_npc z hz n hn hid a ha
      · exact absurd hid (hfresh hn)
    · obtain hid | ⟨-, rfl⟩ := hids _ hid
      · exact absurd ((h.yard_lt z hz).2 _ hid) (lt_irrefl _)
      · exact (Option.some.inj ha).symm
  · intro p hp'
    obtain ⟨old, hold, -, heq⟩ := hfrom p hp'
    rw [heq]
    by_cases hsp : old.addr = sp.addr
    · have hsame := h.post_unique _ hold _ hp hsp
      rw [Prod.mk.injEq] at hsame
      obtain ⟨-, rfl⟩ := hsame
      rw [if_pos rfl]
      exact hnpcs ▸ hkept.spawn hgen (fun n hn => hfresh hn) hextra hroom now
    · rw [if_neg hsp]
      refine (h.kept _ hold).congr rfl rfl rfl rfl fun n hn => ?_
      refine ⟨fun hmem => ?_, fun hmem => hnew.mpr (.inl hmem)⟩
      obtain hmem | rfl := hnew.mp hmem
      · exact hmem
      · rw [hgen, Option.some.injEq] at hn
        exact absurd hn.symm hsp

theorem StockedBut.spawn (h : s.StockedBut fun _ => False) {addr : Nat}
    (hposts : s'.posts = s.posts) (now : Nat) (creatureID : Int) :
    (s'.modifySpawner addr fun old =>
      (old.onSpawnSuccess now).addAttachedCreature creatureID).StockedBut fun _ => False := by
  intro p hp _ hcount
  obtain ⟨old, hold, heq⟩ := mem_posts_modifySpawner.mp hp
  rw [hposts] at hold
  rw [heq] at hcount ⊢
  split at hcount
  · next haddr =>
      rw [if_pos haddr]
      exact List.append_ne_nil_of_right_ne_nil _ (List.cons_ne_nil _ _)
  · next haddr =>
      rw [if_neg haddr]
      exact h _ hold id hcount

/-! ### Erasing spawners and tiles -/

/-- A spawner that no creature points to is erased. -/
theorem Inv.eraseSpawner (h : s.Inv) {tile addr : Nat}
    (hnone : ∀ npc ∈ s.npcs, npc.spawnGen ≠ some addr) :
    (s.modifyTile tile fun t =>
      { t with activeSpawn := t.activeSpawn.filter fun old => old.addr ≠ addr }).Inv := by
  have hyards : (s.modifyTile tile fun t =>
      { t with activeSpawn := t.activeSpawn.filter fun old => old.addr ≠ addr }).yards = s.yards :=
    yards_modifyTile (fun _ => rfl) fun _ => rfl
  refine ⟨h.npc_ids, h.npc_lt, by rw [hyards]; exact h.yard_addrs, by rw [hyards]; exact h.yard_lt,
    fun p hp => ?_, fun p hp q hq => ?_, fun npc hnpc g hg => ?_, h.stray,
    by rw [hyards]; exact h.yard_npc, fun p hp => ?_⟩
  · exact h.post_lt p (mem_posts_eraseSpawner.mp hp).1
  · exact h.post_unique p (mem_posts_eraseSpawner.mp hp).1 q (mem_posts_eraseSpawner.mp hq).1
  · obtain ⟨halive, p, hp, haddr, hhome⟩ := h.housed npc hnpc g hg
    refine ⟨halive, p, mem_posts_eraseSpawner.mpr ⟨hp, fun _ hp' => ?_⟩, haddr, ?_⟩
    · exact hnone npc hnpc (by rw [hg, ← haddr, hp'])
    · rwa [hyards]
  · exact h.kept p (mem_posts_eraseSpawner.mp hp).1

/-- A tile that no creature points to is erased. -/
theorem Inv.eraseTile (h : s.Inv) {tile : Nat}
    (hnone : ∀ npc ∈ s.npcs, npc.spawnTile ≠ some tile) : (s.eraseTile tile).Inv := by
  have hyard {y : Nat × List Int} (hy : y ∈ (s.eraseTile tile).yards) : y ∈ s.yards := by
    rw [yards_eraseTile] at hy
    exact (List.mem_filter.mp hy).1
  refine ⟨h.npc_ids, h.npc_lt, ?_, fun y hy => h.yard_lt y (hyard hy), fun p hp => ?_,
    fun p hp q hq => ?_, fun npc hnpc g hg => ?_, h.stray, fun y hy => h.yard_npc y (hyard hy),
    fun p hp => ?_⟩
  · rw [yards_eraseTile]
    exact h.yard_addrs.sublist List.filter_sublist
  · exact h.post_lt p (mem_posts_eraseTile.mp hp).1
  · exact h.post_unique p (mem_posts_eraseTile.mp hp).1 q (mem_posts_eraseTile.mp hq).1
  · obtain ⟨halive, p, hp, haddr, htile, y, hy, hy₁, hid⟩ := h.housed npc hnpc g hg
    have hne : p.1 ≠ tile := fun hp₁ => hnone npc hnpc (by rw [htile, hp₁])
    refine ⟨halive, p, mem_posts_eraseTile.mpr ⟨hp, hne⟩, haddr, htile, y, ?_, hy₁, hid⟩
    rw [yards_eraseTile]
    exact List.mem_filter.mpr ⟨hy, by simpa [hy₁] using hne⟩
  · exact h.kept p (mem_posts_eraseTile.mp hp).1

/-- A spawner that no creature points to starts anew, from a regular prop. -/
theorem Inv.resetSpawner (h : s.Inv) {addr : Nat}
    (hnone : ∀ npc ∈ s.npcs, npc.spawnGen ≠ some addr) {prop : SpawnProp} (hregular : Regular prop)
    {f : ActiveSpawner → ActiveSpawner} (haddr : ∀ sp, (f sp).addr = sp.addr)
    (hpoint : ∀ sp, (f sp).spawnPoint = prop) (hcount : ∀ sp, (f sp).refCount = 0)
    (hattached : ∀ sp, (f sp).attachedCreatureID = sp.attachedCreatureID) :
    (s.modifySpawner addr f).Inv := by
  apply h.modifySpawner_of_kept haddr
  intro p hp rfl
  have hkept := h.kept p hp
  have hempty : p.2.attachedCreatureID = [] := by
    apply List.eq_nil_iff_forall_not_mem.mpr
    intro id hid
    obtain ⟨npc, hnpc, -, hgen⟩ := (hkept.mem_iff id).mp hid
    exact hnone npc hnpc hgen
  have hnil : (f p.2).attachedCreatureID = [] := by rw [hattached, hempty]
  refine ⟨by simp [hnil], fun id => ?_, by simp [hnil, hcount], by simp [hnil],
    by rwa [hpoint], fun extraData hextra => ?_⟩
  · rw [hnil, haddr]
    constructor
    · intro hid
      cases hid
    · rintro ⟨npc, hnpc, -, hgen⟩
      exact absurd hgen (hnone npc hnpc)
  · rw [hpoint] at hextra
    rw [hnil]
    exact (hregular extraData hextra).1

end SpawnManager

end Iceee
