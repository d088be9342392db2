import Iceee.Lib.Worklist
import Iceee.Spawner.Manager

/-!
# Loyalty links

When an NPC is attacked, the NPCs of the spawn points that are linked to its own come to help.
`SendLoyaltyLinks` finds the linked props with a work list, asks the spawn system for the creatures
attached to them, and goes through these until it meets the attacked NPC itself.

## Main results

* `mem_openList`: the work list holds what can be reached over the links.
* `targetsAfter_some`: the creatures that select the attacker.
* `targetsAfter_eq_iff`: when these are the linked group.

## Implementation notes

What `SelectTarget` does besides setting the target (scripts, movement, the colour of a name) is
left out, as is the tile of the spawn system that a lookup makes.
-/

namespace Iceee

open Lib Relation

/-! ### Scenery -/

/-- `LINK_TYPE_LOYALTY`. -/
def linkTypeLoyalty : Int := 0

structure ExtraDataLink where
  propID : Int
  type : Int
  deriving DecidableEq, Repr

/-- A prop with its links. -/
structure LinkedProp extends SpawnProp where
  hasExtraData : Bool := true
  link : List ExtraDataLink := []
  deriving DecidableEq, Repr

/-- `EnumLinks`. -/
def LinkedProp.enumLinks (prop : LinkedProp) (linkType : Int) : List Int :=
  if prop.hasExtraData then (prop.link.filter fun l => l.type = linkType).map ExtraDataLink.propID
  else []

/-- The props of a zone, page by page. -/
abbrev SceneryProps := List LinkedProp

namespace SceneryProps

variable (props : SceneryProps)

/-- `GlobalGetPropPtr`. -/
def getPropPtr (propID : Int) : Option LinkedProp := props.find? fun so => so.id = propID

/-- The loyalty links of a prop. -/
def loyaltyLinks (propID : Int) : List Int :=
  match props.getPropPtr propID with
  | none => []
  | some so => so.enumLinks linkTypeLoyalty

/-- Every prop that a link of the zone names. -/
def linkIDs : Finset Int := (props.flatMap fun so => so.link.map ExtraDataLink.propID).toFinset

theorem loyaltyLinks_subset (propID : Int) : ∀ linked ∈ props.loyaltyLinks propID,
    linked ∈ props.linkIDs := by
  intro linked hlinked
  rw [loyaltyLinks] at hlinked
  cases hso : props.getPropPtr propID with
  | none => simp [hso] at hlinked
  | some so =>
      simp only [hso, LinkedProp.enumLinks] at hlinked
      split at hlinked
      · obtain ⟨l, hl, rfl⟩ := List.mem_map.mp hlinked
        rw [linkIDs, List.mem_toFinset]
        exact List.mem_flatMap.mpr ⟨so, List.mem_of_find?_eq_some hso,
          List.mem_map_of_mem (List.mem_of_mem_filter hl)⟩
      · exact absurd hlinked List.not_mem_nil

/-- The loop over `openList`. -/
def openList (spawnPoint : Int) : List Int :=
  Worklist.explore props.loyaltyLinks props.linkIDs props.loyaltyLinks_subset [spawnPoint] 0

end SceneryProps

/-! ### Attached creatures -/

namespace SpawnManager

variable (s : SpawnManager)

/-- What `GetAttachedCreatures` appends for a prop on a tile. -/
def attachedOn (tileX tileY sceneryID : Int) : List Int :=
  match s.spawnTiles.find? fun t => t.tileX = tileX ∧ t.tileY = tileY with
  | none => []
  | some t =>
      match t.activeSpawn.find? fun sp => sp.propID = sceneryID with
      | none => []
      | some sp => sp.attachedCreatureID

/-- `EnumAttachedCreatures`: what is appended, and the tile that `GetTile` makes. -/
def enumAttachedCreatures (sceneryID sceneryX sceneryZ : Int) : List Int × SpawnManager :=
  let tx := sceneryX.tdiv spawnTileSize
  let tz := sceneryZ.tdiv spawnTileSize
  let s := (s.getTile tx tz).2
  (s.attachedOn tx tz sceneryID, s)

end SpawnManager

/-- What the loop over the props does for one of them. -/
def enumProp (props : SceneryProps) (r : List Int × SpawnManager) (propID : Int) :
    List Int × SpawnManager :=
  match props.getPropPtr propID with
  | none => r
  | some so =>
      if so.isSpawnPoint then
        let e := r.2.enumAttachedCreatures so.id so.locationX so.locationZ
        (r.1 ++ e.1, e.2)
      else r

/-! ### Pulling creatures -/

/-- What the loop reads and writes of an NPC. -/
structure LoyalCreature where
  creatureID : Int
  health : Int := 1
  /-- The status `DEAD`. -/
  dead : Bool := false
  /-- `CurrentTarget.targ`. -/
  targ : Option Int := none
  calledBack : Bool := false
  leashRecall : Bool := false
  faction : Int := 0
  localActive : Bool := false
  deriving DecidableEq, Repr

/-- `SelectTarget` of a creature that has no target. -/
def LoyalCreature.selectTarget (c : LoyalCreature) (newTarget : Int) : LoyalCreature :=
  if c.targ ≠ some newTarget then if c.dead then c else { c with targ := some newTarget }
  else c

/-- The list of NPCs, by creature ID. -/
structure NPCList where
  npcs : List LoyalCreature
  nodup : (npcs.map LoyalCreature.creatureID).Nodup

namespace NPCList

/-- `GetNPCInstanceByCID`. -/
def getNPCInstanceByCID (list : NPCList) (creatureID : Int) : Option LoyalCreature :=
  list.npcs.find? fun c => c.creatureID = creatureID

/-- A creature selects the attacker and becomes active. -/
def pull (list : NPCList) (instigator creatureID : Int) : NPCList where
  npcs := list.npcs.map fun c =>
    if c.creatureID = creatureID then { c.selectTarget instigator with localActive := true } else c
  nodup := by
    have hids : (list.npcs.map fun c =>
        if c.creatureID = creatureID then { c.selectTarget instigator with localActive := true }
        else c).map LoyalCreature.creatureID = list.npcs.map LoyalCreature.creatureID := by
      rw [List.map_map]
      apply List.map_congr_left
      intro c _
      simp only [Function.comp_apply, LoyalCreature.selectTarget]
      split_ifs <;> rfl
    rw [hids]
    exact list.nodup

/-- The last loop: it ends at the attacked creature. -/
def pullAll (instigator : Int) (target : LoyalCreature) : List Int → NPCList → NPCList
  | [], list => list
  | creatureID :: creatureIDs, list =>
      match list.getNPCInstanceByCID creatureID with
      | none => pullAll instigator target creatureIDs list
      | some source =>
          if source.health ≤ 0 then pullAll instigator target creatureIDs list
          else if source.targ.isSome then pullAll instigator target creatureIDs list
          else if source.creatureID = target.creatureID then list
          else if source.calledBack then pullAll instigator target creatureIDs list
          else if source.leashRecall then pullAll instigator target creatureIDs list
          else if source.faction ≠ target.faction then pullAll instigator target creatureIDs list
          else pullAll instigator target creatureIDs (list.pull instigator source.creatureID)

end NPCList

/-- `SendLoyaltyLinks`, with the ID of the spawn point. -/
def sendLoyaltyLinks (props : SceneryProps) (s : SpawnManager) (list : NPCList) (instigator : Int)
    (target : LoyalCreature) (spawnPoint : Option Int) : NPCList :=
  match spawnPoint with
  | none => list
  | some spawnPoint =>
      let openList := props.openList spawnPoint
      if openList.length ≤ 1 then list
      else
        let creatureIDs := (openList.foldl (enumProp props) ([], s)).1
        list.pullAll instigator target creatureIDs

/-! ### The linked props -/

namespace SceneryProps

variable (props : SceneryProps) {spawnPoint : Int}

/-- The prop can be reached over loyalty links. -/
def Linked (spawnPoint propID : Int) : Prop :=
  ReflTransGen (fun p q => q ∈ props.loyaltyLinks p) spawnPoint propID

theorem mem_openList {propID : Int} :
    propID ∈ props.openList spawnPoint ↔ props.Linked spawnPoint propID :=
  Worklist.mem_explore_singleton _ _ _

/-- There is a link to another prop exactly when the list grows. -/
theorem one_lt_length_openList :
    1 < (props.openList spawnPoint).length ↔
      ∃ q ∈ props.loyaltyLinks spawnPoint, q ≠ spawnPoint := by
  have hself : spawnPoint ∈ props.openList spawnPoint := props.mem_openList.mpr .refl
  have hnodup : (props.openList spawnPoint).Nodup :=
    Worklist.nodup_explore _ _ _ (List.nodup_singleton spawnPoint)
  constructor
  · intro hlength
    by_contra hnone
    push Not at hnone
    have hall : ∀ p ∈ props.openList spawnPoint, p = spawnPoint := by
      intro p hp
      have hreach := props.mem_openList.mp hp
      induction hreach with
      | refl => rfl
      | tail hpath hstep ih =>
          obtain rfl := ih (props.mem_openList.mpr hpath)
          exact hnone _ hstep
    have hone : props.openList spawnPoint = [spawnPoint] := by
      apply List.perm_singleton.mp
      rw [List.perm_ext_iff_of_nodup hnodup (List.nodup_singleton spawnPoint)]
      intro p
      rw [List.mem_singleton]
      exact ⟨hall p, fun h => h ▸ hself⟩
    rw [hone] at hlength
    exact absurd hlength (by simp)
  · rintro ⟨q, hq, hother⟩
    have hmem : q ∈ props.openList spawnPoint := props.mem_openList.mpr (.single hq)
    by_contra hshort
    obtain ⟨p, hp⟩ := List.length_eq_one_iff.mp
      (le_antisymm (not_lt.mp hshort) (List.length_pos_of_mem hself))
    rw [hp, List.mem_singleton] at hself hmem
    exact hother (hmem.trans hself.symm)

end SceneryProps

/-! ### The attached creatures -/

/-- What is found attached to a prop, on the tile that its place gives. -/
def foundAt (props : SceneryProps) (s : SpawnManager) (propID : Int) : List Int :=
  match props.getPropPtr propID with
  | none => []
  | some so =>
      if so.isSpawnPoint then
        s.attachedOn (so.locationX.tdiv spawnTileSize) (so.locationZ.tdiv spawnTileSize) so.id
      else []

/-- A tile that `GetTile` makes has no creatures. -/
@[simp] theorem attachedOn_getTile (s : SpawnManager) (x y tileX tileY sceneryID : Int) :
    (s.getTile x y).2.attachedOn tileX tileY sceneryID = s.attachedOn tileX tileY sceneryID := by
  rw [SpawnManager.getTile]
  cases hfind : s.spawnTiles.find? fun t => t.tileX = x ∧ t.tileY = y with
  | some t => rfl
  | none =>
      rw [SpawnManager.attachedOn, SpawnManager.attachedOn, List.find?_append]
      cases hold : s.spawnTiles.find? fun t => t.tileX = tileX ∧ t.tileY = tileY with
      | some t => rfl
      | none =>
          rw [Option.none_or, List.find?_singleton]
          by_cases hnew : x = tileX ∧ y = tileY <;> simp [hnew]

/-- The creatures that the loop over the props finds. -/
theorem foldl_enumProp (props : SceneryProps) {s : SpawnManager} (l : List Int)
    (r : List Int × SpawnManager)
    (hr : ∀ x y id, r.2.attachedOn x y id = s.attachedOn x y id) :
    (l.foldl (enumProp props) r).1 = r.1 ++ l.flatMap (foundAt props s) := by
  induction l generalizing r with
  | nil => simp
  | cons propID l ih =>
      rw [List.foldl_cons, List.flatMap_cons, ← List.append_assoc]
      cases hso : props.getPropPtr propID with
      | none =>
          rw [enumProp, hso, ih r hr, foundAt, hso, List.append_nil]
      | some so =>
          by_cases hspawn : so.isSpawnPoint
          · rw [enumProp, hso, ih]
            · simp [hspawn, foundAt, hso, SpawnManager.enumAttachedCreatures, hr]
            · simp [hspawn, SpawnManager.enumAttachedCreatures, hr]
          · rw [enumProp, hso, foundAt, hso]
            simp only [hspawn, Bool.false_eq_true, if_false]
            rw [ih r hr, List.append_nil]

/-! ### The last loop -/

namespace LoyalCreature

/-- A creature after it was pulled. -/
def pulled (c : LoyalCreature) (instigator : Int) : LoyalCreature :=
  { c.selectTarget instigator with localActive := true }

/-- The filters of the loop. -/
def Follows (c target : LoyalCreature) : Prop :=
  0 < c.health ∧ c.targ = none ∧ c.creatureID ≠ target.creatureID ∧ c.calledBack = false ∧
    c.leashRecall = false ∧ c.faction = target.faction

instance (c target : LoyalCreature) : Decidable (c.Follows target) :=
  inferInstanceAs (Decidable (_ ∧ _))

theorem pulled_frame (c : LoyalCreature) (instigator : Int) :
    (c.pulled instigator).creatureID = c.creatureID ∧
      (c.pulled instigator).health = c.health ∧
      (c.pulled instigator).dead = c.dead := by
  rw [pulled, selectTarget]
  split_ifs <;> exact ⟨rfl, rfl, rfl⟩

@[simp] theorem creatureID_pulled (c : LoyalCreature) (instigator : Int) :
    (c.pulled instigator).creatureID = c.creatureID := (c.pulled_frame instigator).1

@[simp] theorem pulled_pulled (c : LoyalCreature) (instigator : Int) :
    (c.pulled instigator).pulled instigator = c.pulled instigator := by
  rw [pulled, pulled]
  cases hdead : c.dead
  · by_cases htarg : c.targ = some instigator <;> simp [selectTarget, hdead, htarg]
  · simp [selectTarget, hdead]

end LoyalCreature

namespace NPCList

variable {list : NPCList}

theorem eq_of_creatureID {c c' : LoyalCreature} (hc : c ∈ list.npcs) (hc' : c' ∈ list.npcs)
    (h : c.creatureID = c'.creatureID) : c = c' :=
  List.inj_on_of_nodup_map list.nodup hc hc' h

theorem getNPCInstanceByCID_eq_some {creatureID : Int} {c : LoyalCreature} :
    list.getNPCInstanceByCID creatureID = some c ↔ c ∈ list.npcs ∧ c.creatureID = creatureID := by
  constructor
  · intro h
    exact ⟨List.mem_of_find?_eq_some h, by simpa using List.find?_some h⟩
  · rintro ⟨hc, rfl⟩
    cases hfind : list.getNPCInstanceByCID c.creatureID with
    | none => exact absurd (List.find?_eq_none.mp hfind c hc) (by simp)
    | some c' =>
        have hc' : c' ∈ list.npcs := List.mem_of_find?_eq_some hfind
        have hid : c'.creatureID = c.creatureID := by simpa using List.find?_some hfind
        rw [eq_of_creatureID hc' hc hid]

/-- The attacked creature is an NPC that lives and has no target. -/
def Idle (list : NPCList) (target : LoyalCreature) : Prop :=
  ∃ c ∈ list.npcs, c.creatureID = target.creatureID ∧ 0 < c.health ∧ c.targ = none

instance (list : NPCList) (target : LoyalCreature) : Decidable (list.Idle target) :=
  inferInstanceAs (Decidable (∃ c ∈ list.npcs, _))

/-- The creatures that the loop comes to. -/
def heard (list : NPCList) (target : LoyalCreature) (creatureIDs : List Int) : List Int :=
  if list.Idle target then creatureIDs.takeWhile fun id => id ≠ target.creatureID
  else creatureIDs

theorem heard_cons {target : LoyalCreature} {creatureID : Int} (creatureIDs : List Int)
    (h : list.Idle target → creatureID ≠ target.creatureID) :
    list.heard target (creatureID :: creatureIDs) =
      creatureID :: list.heard target creatureIDs := by
  rw [heard, heard]
  split
  · rename_i hidle
    rw [List.takeWhile_cons_of_pos (by simpa using h hidle)]
  · rfl

/-- Pulling another creature leaves the attacked one as it was. -/
theorem idle_pull {target : LoyalCreature} {instigator creatureID : Int}
    (h : creatureID ≠ target.creatureID) :
    (list.pull instigator creatureID).Idle target ↔ list.Idle target := by
  have hsame {c : LoyalCreature} (hid : c.creatureID = target.creatureID) :
      ¬c.creatureID = creatureID := fun heq => h (heq.symm.trans hid)
  constructor
  · rintro ⟨c', hc', hid, hidle⟩
    obtain ⟨c, hc, rfl⟩ := List.mem_map.mp hc'
    by_cases heq : c.creatureID = creatureID
    · rw [if_pos heq] at hid
      exact absurd ((c.creatureID_pulled instigator).symm.trans hid) (heq ▸ h)
    · rw [if_neg heq] at hid hidle
      exact ⟨c, hc, hid, hidle⟩
  · rintro ⟨c, hc, hid, hidle⟩
    exact ⟨c, List.mem_map.mpr ⟨c, hc, if_neg (hsame hid)⟩, hid, hidle⟩

/-- The loop pulls the creatures that it comes to and that pass its filters. -/
theorem npcs_pullAll (list : NPCList) (instigator : Int) (target : LoyalCreature)
    (creatureIDs : List Int) :
    (list.pullAll instigator target creatureIDs).npcs = list.npcs.map fun c =>
      if c.creatureID ∈ list.heard target creatureIDs ∧ c.Follows target then c.pulled instigator
      else c := by
  induction creatureIDs generalizing list with
  | nil => simp [pullAll, heard]
  | cons creatureID creatureIDs ih =>
      -- an entry that pulls nobody
      have hskip (hnext : list.Idle target → creatureID ≠ target.creatureID)
          (hnot : ∀ c ∈ list.npcs, c.creatureID = creatureID → ¬c.Follows target) :
          (list.pullAll instigator target creatureIDs).npcs = list.npcs.map fun c =>
            if c.creatureID ∈ list.heard target (creatureID :: creatureIDs) ∧ c.Follows target then
              c.pulled instigator
            else c := by
        rw [ih, heard_cons creatureIDs hnext]
        apply List.map_congr_left
        intro c hc
        refine if_congr (and_congr_left fun hfollows => ?_) rfl rfl
        rw [List.mem_cons]
        exact (or_iff_right fun hid => hnot c hc hid hfollows).symm
      rw [pullAll]
      cases hget : list.getNPCInstanceByCID creatureID with
      | none =>
          have hnobody : ∀ c ∈ list.npcs, c.creatureID ≠ creatureID := by
            rintro c hc hid
            rw [getNPCInstanceByCID_eq_some.mpr ⟨hc, hid⟩] at hget
            exact absurd hget (by simp)
          refine hskip ?_ fun c hc hid => absurd hid (hnobody c hc)
          rintro ⟨c, hc, hid, -⟩ heq
          exact hnobody c hc (hid.trans heq.symm)
      | some source =>
          obtain ⟨hsource, rfl⟩ := getNPCInstanceByCID_eq_some.mp hget
          have hunique : ∀ c ∈ list.npcs, c.creatureID = source.creatureID → c = source :=
            fun c hc hid => eq_of_creatureID hc hsource hid
          have hidle : list.Idle target → source.creatureID = target.creatureID →
              0 < source.health ∧ source.targ = none := by
            rintro ⟨c, hc, hid, hrest⟩ heq
            rwa [hunique c hc (hid.trans heq.symm)] at hrest
          dsimp only
          split_ifs with hhealth htarg htarget hcalled hleash hfaction
          · exact hskip (fun h heq => hhealth.not_gt (hidle h heq).1)
              fun c hc hid hfollows => hhealth.not_gt (hunique c hc hid ▸ hfollows.1)
          · refine hskip (fun h heq => ?_) fun c hc hid hfollows => ?_
            · rw [(hidle h heq).2] at htarg
              exact absurd htarg (by simp)
            · rw [← hunique c hc hid, hfollows.2.1] at htarg
              exact absurd htarg (by simp)
          · -- the attacked creature ends the loop
            have hnone : source.targ = none := by simpa using htarg
            have hstops : list.Idle target := ⟨source, hsource, htarget, by omega, hnone⟩
            rw [heard, if_pos hstops, List.takeWhile_cons_of_neg (by simpa using htarget)]
            simp
          · exact hskip (fun _ => htarget) fun c hc hid hfollows => by
              rw [hunique c hc hid] at hfollows
              exact absurd hcalled (by simp [hfollows.2.2.2.1])
          · exact hskip (fun _ => htarget) fun c hc hid hfollows => by
              rw [hunique c hc hid] at hfollows
              exact absurd hleash (by simp [hfollows.2.2.2.2.1])
          · exact hskip (fun _ => htarget) fun c hc hid hfollows => by
              rw [hunique c hc hid] at hfollows
              exact absurd hfollows.2.2.2.2.2 hfaction
          · have hnone : source.targ = none := by simpa using htarg
            have hfollows : source.Follows target := ⟨by omega, hnone, htarget,
              by simpa using hcalled, by simpa using hleash, not_not.mp hfaction⟩
            have hheard : (list.pull instigator source.creatureID).heard target creatureIDs =
                list.heard target creatureIDs := if_congr (idle_pull htarget) rfl rfl
            rw [ih, hheard, heard_cons creatureIDs fun _ => htarget, pull, List.map_map]
            apply List.map_congr_left
            intro c hc
            rw [Function.comp_apply]
            by_cases hid : c.creatureID = source.creatureID
            · obtain rfl := hunique c hc hid
              have hpulled : (if c.creatureID = c.creatureID then
                    { c.selectTarget instigator with localActive := true } else c) =
                  c.pulled instigator := if_pos rfl
              rw [hpulled, LoyalCreature.pulled_pulled, ite_self,
                if_pos ⟨List.mem_cons_self, hfollows⟩]
            · rw [if_neg hid]
              refine if_congr (and_congr_left fun _ => ?_) rfl rfl
              rw [List.mem_cons]
              exact (or_iff_right hid).symm

end NPCList

/-! ### The linked group -/

/-- A creature that should help: it lives, has no target, is not being recalled, shares the faction
of the attacked creature and is another one. -/
def LoyalCreature.Helps (c target : LoyalCreature) : Prop := c.Follows target ∧ c.dead = false

instance (c target : LoyalCreature) : Decidable (c.Helps target) :=
  inferInstanceAs (Decidable (_ ∧ _))

theorem LoyalCreature.targ_pulled {c target : LoyalCreature} (h : c.Follows target)
    (instigator : Int) :
    (c.pulled instigator).targ = if c.Helps target then some instigator else c.targ := by
  have hnone := h.2.1
  cases hdead : c.dead <;> simp [pulled, selectTarget, Helps, h, hnone, hdead]

/-- A creature is attached to a spawn point. -/
def AttachedTo (s : SpawnManager) (propID creatureID : Int) : Prop :=
  ∃ t ∈ s.spawnTiles, ∃ sp ∈ t.activeSpawn, sp.propID = propID ∧
    creatureID ∈ sp.attachedCreatureID

/-- The creatures of the spawn points that are linked to the first one, if it has a link. -/
def InGroup (props : SceneryProps) (s : SpawnManager) (spawnPoint : Option Int)
    (creatureID : Int) : Prop :=
  ∃ first ∈ spawnPoint, (∃ q ∈ props.loyaltyLinks first, q ≠ first) ∧
    ∃ propID, props.Linked first propID ∧
      (∃ so, props.getPropPtr propID = some so ∧ so.isSpawnPoint = true) ∧
      AttachedTo s propID creatureID

/-- The creatures of the group in the order in which they are found. -/
def found (props : SceneryProps) (s : SpawnManager) (spawnPoint : Int) : List Int :=
  (props.openList spawnPoint).flatMap (foundAt props s)

section Exact

variable (props : SceneryProps) (s : SpawnManager) (list : NPCList) (instigator : Int)
  (target : LoyalCreature) (spawnPoint : Option Int)

/-- Who has which target after the call. -/
def targetsAfter : List (Option Int) :=
  (sendLoyaltyLinks props s list instigator target spawnPoint).npcs.map LoyalCreature.targ

open scoped Classical in
/-- Who should have which target. -/
noncomputable def targetsDue : List (Option Int) :=
  list.npcs.map fun c =>
    if InGroup props s spawnPoint c.creatureID ∧ c.Helps target then some instigator else c.targ

/-- What is found on the tile of a prop is attached to it. -/
theorem attachedTo_of_mem_foundAt {propID creatureID : Int}
    (h : creatureID ∈ foundAt props s propID) :
    (∃ so, props.getPropPtr propID = some so ∧ so.isSpawnPoint = true) ∧
      AttachedTo s propID creatureID := by
  rw [foundAt] at h
  cases hso : props.getPropPtr propID with
  | none => simp [hso] at h
  | some so =>
      have hid : so.id = propID := by simpa using List.find?_some hso
      rw [hso] at h
      dsimp only at h
      split at h
      · rename_i hspawn
        refine ⟨⟨so, rfl, hspawn⟩, ?_⟩
        rw [SpawnManager.attachedOn] at h
        split at h
        · exact absurd h List.not_mem_nil
        · rename_i t ht
          split at h
          · exact absurd h List.not_mem_nil
          · rename_i sp hsp
            exact ⟨t, List.mem_of_find?_eq_some ht, sp, List.mem_of_find?_eq_some hsp,
              by simpa [hid] using List.find?_some hsp, h⟩
      · exact absurd h List.not_mem_nil

theorem inGroup_of_mem_found {first creatureID : Int}
    (hlink : ∃ q ∈ props.loyaltyLinks first, q ≠ first)
    (h : creatureID ∈ found props s first) : InGroup props s (some first) creatureID := by
  obtain ⟨propID, hprop, hfound⟩ := List.mem_flatMap.mp h
  obtain ⟨hspawn, hattached⟩ := attachedTo_of_mem_foundAt props s hfound
  exact ⟨first, rfl, hlink, propID, props.mem_openList.mp hprop, hspawn, hattached⟩

/-- The targets after the call: those that the loop comes to and that should help get the
attacker. -/
theorem targetsAfter_some {first : Int} (hlink : ∃ q ∈ props.loyaltyLinks first, q ≠ first) :
    targetsAfter props s list instigator target (some first) = list.npcs.map fun c =>
      if c.creatureID ∈ list.heard target (found props s first) ∧ c.Helps target then
        some instigator
      else c.targ := by
  have hlength := props.one_lt_length_openList.mpr hlink
  rw [targetsAfter, sendLoyaltyLinks]
  dsimp only
  rw [if_neg (not_le.mpr hlength), foldl_enumProp props _ _ fun _ _ _ => rfl, List.nil_append,
    NPCList.npcs_pullAll, List.map_map]
  apply List.map_congr_left
  intro c _
  rw [Function.comp_apply, ← found]
  by_cases hheard : c.creatureID ∈ list.heard target (found props s first)
  · by_cases hfollows : c.Follows target
    · rw [if_pos ⟨hheard, hfollows⟩, c.targ_pulled hfollows]
      exact if_congr (and_iff_right hheard).symm rfl rfl
    · rw [if_neg fun h => hfollows h.2, if_neg fun h => hfollows h.2.1]
  · rw [if_neg fun h => hheard h.1, if_neg fun h => hheard h.1]

theorem mem_heard {creatureID : Int} (creatureIDs : List Int) :
    creatureID ∈ list.heard target creatureIDs ↔ creatureID ∈ creatureIDs ∧
      (list.Idle target → creatureID ∈ creatureIDs.takeWhile fun id => id ≠ target.creatureID) := by
  rw [NPCList.heard]
  by_cases hidle : list.Idle target
  · rw [if_pos hidle]
    exact ⟨fun h => ⟨(List.takeWhile_prefix _).subset h, fun _ => h⟩, fun h => h.2 hidle⟩
  · rw [if_neg hidle]
    exact ⟨fun h => ⟨h, fun hidle' => absurd hidle' hidle⟩, fun h => h.1⟩

/-- The linked group selects the attacker, and nobody else, exactly when every creature that should
help is found on the tile that its spawn point's place gives, and does not come after the attacked
creature where that is an NPC that lives and has no target. -/
theorem targetsAfter_eq_iff :
    targetsAfter props s list instigator target spawnPoint =
        targetsDue props s list instigator target spawnPoint ↔
      ∀ c ∈ list.npcs, c.Helps target → ∀ first ∈ spawnPoint,
        InGroup props s spawnPoint c.creatureID →
          c.creatureID ∈ found props s first ∧
            (list.Idle target →
              c.creatureID ∈ (found props s first).takeWhile fun id => id ≠ target.creatureID) := by
  have hunlinked (hnobody : ∀ creatureID, ¬InGroup props s spawnPoint creatureID)
      (hsame : sendLoyaltyLinks props s list instigator target spawnPoint = list) :
      targetsAfter props s list instigator target spawnPoint =
        targetsDue props s list instigator target spawnPoint := by
    rw [targetsAfter, hsame, targetsDue]
    apply List.map_congr_left
    intro c _
    rw [if_neg fun h => hnobody c.creatureID h.1]
  cases spawnPoint with
  | none =>
      have hnobody (creatureID : Int) : ¬InGroup props s none creatureID := by
        rintro ⟨first, hfirst, -⟩
        exact absurd hfirst (by simp)
      exact iff_of_true (hunlinked hnobody rfl) fun c _ _ first hfirst => absurd hfirst (by simp)
  | some first =>
      by_cases hlink : ∃ q ∈ props.loyaltyLinks first, q ≠ first
      · rw [targetsAfter_some props s list instigator target hlink, targetsDue, List.map_inj_left]
        refine forall₂_congr fun c _ => ?_
        by_cases hhelps : c.Helps target
        · have hnone : c.targ = none := hhelps.1.2.1
          have hgroup : c.creatureID ∈ list.heard target (found props s first) →
              InGroup props s (some first) c.creatureID := fun h =>
            inGroup_of_mem_found props s hlink ((mem_heard list target _).mp h).1
          simp only [hhelps, and_true, hnone, Option.mem_def, Option.some_inj, forall_eq',
            forall_const, ← mem_heard]
          by_cases hheard : c.creatureID ∈ list.heard target (found props s first)
          · simp [hhelps, hheard, hgroup hheard]
          · simp [hhelps, hheard]
        · simp [hhelps]
      · have hnobody (creatureID : Int) : ¬InGroup props s (some first) creatureID := by
          rintro ⟨first', hfirst, hlink', -⟩
          obtain rfl := Option.some_inj.mp hfirst
          exact hlink hlink'
        have hshort : ¬1 < (props.openList first).length :=
          fun h => hlink (props.one_lt_length_openList.mp h)
        exact iff_of_true (hunlinked hnobody (if_pos (not_lt.mp hshort)))
          fun c _ _ _ _ h => absurd h (hnobody c.creatureID)

end Exact

/-- Two spawn points that are linked with each other. -/
def guardPosts : SceneryProps :=
  [{ id := 1, link := [⟨2, 0⟩] }, { id := 2, locationX := 100, link := [⟨1, 0⟩] }]

/-- An NPC of each spawn point. -/
def guardSpawns : SpawnManager where
  spawnTiles := [
    { addr := 0, tileX := 0, tileY := 0, activeSpawn := [
      { addr := 1, propID := 1, spawnPoint := { id := 1 }, attachedCreatureID := [10] },
      { addr := 2, propID := 2, spawnPoint := { id := 2 }, attachedCreatureID := [20] }] }]

/-- The first one is on its way back when it is attacked. -/
def guards : NPCList where
  npcs := [{ creatureID := 10, calledBack := true }, { creatureID := 20 }]
  nodup := by decide

theorem openList_guardPosts : guardPosts.openList 1 = [1, 2] := by
  rw [SceneryProps.openList, Worklist.explore, dif_pos (by decide), Worklist.explore,
    dif_pos (by decide), Worklist.explore, dif_neg (by decide)]
  decide

/-- The other one does not help. -/
theorem second_guard_stays :
    ¬targetsAfter guardPosts guardSpawns guards 5 { creatureID := 10, calledBack := true }
        (some 1) =
      targetsDue guardPosts guardSpawns guards 5 { creatureID := 10, calledBack := true }
        (some 1) := by
  intro h
  have hgroup : InGroup guardPosts guardSpawns (some 1) 20 :=
    ⟨1, rfl, ⟨2, by decide, by decide⟩, 2,
      guardPosts.mem_openList.mp (openList_guardPosts ▸ by decide),
      ⟨_, rfl, rfl⟩, _, List.mem_cons_self, _, List.mem_cons_of_mem _ List.mem_cons_self, rfl,
      List.mem_cons_self⟩
  have hdue : (targetsDue guardPosts guardSpawns guards 5
      { creatureID := 10, calledBack := true } (some 1))[1]? = some (some 5) := by
    rw [targetsDue, List.getElem?_map]
    exact congrArg some (if_pos ⟨hgroup, by decide⟩)
  have hafter : (targetsAfter guardPosts guardSpawns guards 5
      { creatureID := 10, calledBack := true } (some 1))[1]? = some none := by
    rw [targetsAfter, sendLoyaltyLinks]
    dsimp only
    rw [openList_guardPosts]
    decide
  rw [h, hdue] at hafter
  exact absurd hafter (by decide)

end Iceee
