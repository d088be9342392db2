import Iceee.Loot.DropTable
import Iceee.Lib.Keyed

/-!
# What a roll drops

The sets that a roll may take items from are those its creature and its level reach. Every set that
was loaded has an item, so that no roll reads a list that is empty.
-/

namespace Iceee

open Lib Draw Std LootSystem

namespace DropTableManager

variable {table : DropTableManager} {params : DropRollParameters}

/-! ### Loaded tables -/

/-- Every set has its name, its flag, and an item at least. -/
def Loaded (table : DropTableManager) : Prop :=
  ∀ (name : Text) (set : DropSetDefinition), table.mSet[name]? = some set →
    set.mName = name ∧ set.mItemList ≠ [] ∧
      set.mClassFlag = DropSetDefinition.classFlag set.mRarity

/-- A set with a name and an item, as the lines of the file make them. -/
def Named (table : DropTableManager) : Prop :=
  ∀ (name : Text) (set : DropSetDefinition), table.mSet[name]? = some set →
    set.mName = name ∧ set.mItemList ≠ []

theorem Named.loadSet (h : table.Named) (blocks : List Text) : (table.loadSet blocks).Named := by
  unfold DropTableManager.loadSet
  split
  · intro name set hset
    rw [TreeMap.getElem?_insert] at hset
    split at hset
    · next heq =>
        cases hset
        refine ⟨compare_eq_iff_eq.mp heq, ?_⟩
        simp [DropSetDefinition.assignList, split]
    · exact h name set hset
  · exact h

theorem mSet_loadPackage (blocks : List Text) : (table.loadPackage blocks).mSet = table.mSet := by
  unfold loadPackage
  split <;> rfl

theorem mSet_loadCreature (blocks : List Text) : (table.loadCreature blocks).mSet = table.mSet := by
  unfold loadCreature
  split <;> rfl

theorem Named.resolve (h : table.Named) : table.resolveClassFlags.resolveAutotable.Loaded := by
  intro name set hset
  change (table.mSet.map fun _ set => set.resolveClassFlag)[name]? = some set at hset
  rw [TreeMap.getElem?_map, Option.map_eq_some_iff] at hset
  obtain ⟨set', hset', rfl⟩ := hset
  exact ⟨(h name set' hset').1, (h name set' hset').2, rfl⟩

theorem loadData_loaded (sets packages creatures : List (List Text)) :
    (loadData sets packages creatures).Loaded := by
  have hsets : (sets.foldl loadSet {}).Named := by
    refine List.foldlRecOn (motive := Named) sets loadSet ?_ fun t ht blocks _ => ht.loadSet blocks
    intro name set hset
    rw [TreeMap.getElem?_emptyc] at hset
    cases hset
  have hpackages : ∀ table : DropTableManager, table.Named →
      (packages.foldl loadPackage table).Named := fun table h =>
    List.foldlRecOn (motive := Named) packages loadPackage h fun t ht blocks _ => by
      unfold Named
      rw [mSet_loadPackage]
      exact ht
  have hcreatures : ∀ table : DropTableManager, table.Named →
      (creatures.foldl loadCreature table).Named := fun table h =>
    List.foldlRecOn (motive := Named) creatures loadCreature h fun t ht blocks _ => by
      unfold Named
      rw [mSet_loadCreature]
      exact ht
  exact (hcreatures _ (hpackages _ hsets)).resolve

/-! ### Sets within reach -/

/-- The sets that a name stands for: a set, or else those of a package that are there. -/
inductive Reaches (table : DropTableManager) (name : Text) : DropSetDefinition → Prop
  | set {set} (h : table.mSet[name]? = some set) : Reaches table name set
  | package {package n set} (hset : table.mSet[name]? = none)
      (hpackage : table.mPackage[name]? = some package) (hn : n ∈ package.mSetList)
      (h : table.mSet[n]? = some set) : Reaches table name set

/-- A set of the creature, or, unless that is explicit, of the packages of its level. -/
def Reachable (table : DropTableManager) (params : DropRollParameters)
    (set : DropSetDefinition) : Prop :=
  (∃ creature, table.mCreature[params.mCreatureDefID]? = some creature ∧
    ∃ name ∈ creature.mSetList, table.Reaches name set) ∨
  ((∀ creature, table.mCreature[params.mCreatureDefID]? = some creature →
      creature.mExplicit = false) ∧
    ∃ level, table.mLevel[params.mCreatureLevel]? = some level ∧
      ∃ name ∈ level.mPackageList, table.Reaches name set)

/-- The flags of the classes. -/
def classFlags : List UInt32 := [CLASS_FLAG_EXPLICIT, CLASS_FLAG_UNCOMMON, CLASS_FLAG_RARE,
  CLASS_FLAG_EPIC, CLASS_FLAG_LEGENDARY, CLASS_FLAG_ARTIFACT]

theorem classFlag_mem (r : Int) : DropSetDefinition.classFlag r ∈ classFlags := by
  unfold DropSetDefinition.classFlag
  split <;> simp [classFlags]

/-- No two classes share a bit. -/
theorem and_classFlag (r r' : Int) :
    DropSetDefinition.classFlag r &&& DropSetDefinition.classFlag r' ≠ 0 ↔
      DropSetDefinition.classFlag r = DropSetDefinition.classFlag r' := by
  have hall : (classFlags.all fun a => classFlags.all fun b => (a &&& b != 0) == (a == b)) = true :=
    by decide
  have hrow := List.all_eq_true.mp hall _ (classFlag_mem r)
  have hpair := List.all_eq_true.mp hrow _ (classFlag_mem r')
  rw [beq_iff_eq] at hpair
  rw [← bne_iff_ne, hpair, beq_iff_eq]

/-- What a lookup has come upon: sets of the table, each once, and the flags of them all. -/
structure Collected (table : DropTableManager) (results : SetQueryResult) : Prop where
  known : ∀ s ∈ results.mSetListPtr, table.mSet[s.mName]? = some s
  distinct : NodupKeys DropSetDefinition.mName results.mSetListPtr
  flags : ∀ r, results.mClassFlags &&& DropSetDefinition.classFlag r ≠ 0 ↔
    ∃ s ∈ results.mSetListPtr, s.mClassFlag = DropSetDefinition.classFlag r

theorem collected_empty : Collected table {} where
  known s hs := by cases hs
  distinct := List.nodup_nil
  flags r := by simp

theorem or_and_ne_zero (a b c : UInt32) : (a ||| b) &&& c ≠ 0 ↔ a &&& c ≠ 0 ∨ b &&& c ≠ 0 := by
  have hdistrib : (a ||| b) &&& c = (a &&& c) ||| (b &&& c) :=
    UInt32.toBitVec_inj.mp BitVec.and_or_distrib_right
  rw [hdistrib, ne_eq, UInt32.or_eq_zero_iff, not_and_or]

variable {results : SetQueryResult}

/-- Adding a set of the table: it is among the sets then, together with those that were. -/
theorem Collected.addSet (hload : table.Loaded) (h : Collected table results) {name : Text}
    {set : DropSetDefinition} (hset : table.mSet[name]? = some set) :
    Collected table (results.addSet set.mClassFlag set) ∧
      ∀ s, s ∈ (results.addSet set.mClassFlag set).mSetListPtr ↔
        s ∈ results.mSetListPtr ∨ s = set := by
  obtain ⟨hname, -, hflag⟩ := hload name set hset
  have hself : table.mSet[set.mName]? = some set := by rw [hname, hset]
  unfold SetQueryResult.addSet
  split
  · next hany =>
      obtain ⟨s, hs, hsame⟩ := List.any_eq_true.mp hany
      have hsset : s = set := by
        have hs' := h.known s hs
        rw [beq_iff_eq.mp hsame, hself] at hs'
        exact (Option.some.inj hs').symm
      subst hsset
      refine ⟨h, fun t => ⟨.inl, ?_⟩⟩
      rintro (ht | rfl)
      · exact ht
      · exact hs
  · next hany =>
      refine ⟨⟨?_, ?_, ?_⟩, fun s => ?_⟩
      · intro s hs
        rcases List.mem_append.mp hs with hs | hs
        · exact h.known s hs
        · rw [List.mem_singleton.mp hs]
          exact hself
      · refine nodupKeys_append_singleton.mpr ⟨h.distinct, fun s hs hsame => ?_⟩
        exact hany (List.any_eq_true.mpr ⟨s, hs, beq_iff_eq.mpr hsame⟩)
      · intro r
        rw [or_and_ne_zero, h.flags r, hflag, and_classFlag]
        simp [or_and_right, exists_or, hflag]
      · simp

/-- A lookup adds the sets within reach of the names, one name after the other. -/
theorem Collected.fold {α : Type} (f : SetQueryResult → α → SetQueryResult)
    (R : α → DropSetDefinition → Prop)
    (hf : ∀ results a, Collected table results → Collected table (f results a) ∧
      ∀ s, s ∈ (f results a).mSetListPtr ↔ s ∈ results.mSetListPtr ∨ R a s)
    (names : List α) (h : Collected table results) :
    Collected table (names.foldl f results) ∧
      ∀ s, s ∈ (names.foldl f results).mSetListPtr ↔
        s ∈ results.mSetListPtr ∨ ∃ a ∈ names, R a s := by
  induction names generalizing results with
  | nil => exact ⟨h, fun s => by simp⟩
  | cons a rest ih =>
      obtain ⟨h', hmem⟩ := hf results a h
      obtain ⟨hrest, hmems⟩ := ih h'
      refine ⟨hrest, fun s => ?_⟩
      rw [List.foldl_cons, hmems, hmem, List.exists_mem_cons_iff, or_assoc]

theorem Collected.addSetNamed (hload : table.Loaded) (h : Collected table results) (name : Text) :
    Collected table (table.addSetNamed results name) ∧
      ∀ s, s ∈ (table.addSetNamed results name).mSetListPtr ↔
        s ∈ results.mSetListPtr ∨ table.mSet[name]? = some s := by
  unfold DropTableManager.addSetNamed
  cases hset : table.mSet[name]? with
  | none => exact ⟨h, fun s => by simp⟩
  | some set =>
      obtain ⟨hc, hmem⟩ := h.addSet hload hset
      refine ⟨hc, fun s => (hmem s).trans (or_congr_right ?_)⟩
      rw [Option.some.injEq, eq_comm]

theorem Collected.addSetQueryResult (hload : table.Loaded) (h : Collected table results)
    (name : Text) :
    Collected table (table.addSetQueryResult results name) ∧
      ∀ s, s ∈ (table.addSetQueryResult results name).mSetListPtr ↔
        s ∈ results.mSetListPtr ∨ table.Reaches name s := by
  unfold DropTableManager.addSetQueryResult
  cases hset : table.mSet[name]? with
  | some set =>
      obtain ⟨hc, hmem⟩ := h.addSet hload hset
      refine ⟨hc, fun s => (hmem s).trans (or_congr_right ⟨?_, ?_⟩)⟩
      · rintro rfl
        exact .set hset
      · rintro (hs | hnone)
        · exact Option.some.inj (hs.symm.trans hset)
        · rw [hset] at hnone
          cases hnone
  | none =>
      cases hpackage : table.mPackage[name]? with
      | none =>
          refine ⟨h, fun s => ⟨.inl, ?_⟩⟩
          rintro (hs | hs | ⟨-, hp, -, -⟩)
          · exact hs
          · rw [hset] at hs
            cases hs
          · rw [hpackage] at hp
            cases hp
      | some package =>
          obtain ⟨hc, hmem⟩ := Collected.fold table.addSetNamed
            (fun n s => table.mSet[n]? = some s) (fun r n hr => hr.addSetNamed hload n)
            package.mSetList h
          refine ⟨hc, fun s => (hmem s).trans (or_congr_right ⟨?_, ?_⟩)⟩
          · rintro ⟨n, hn, hs⟩
            exact .package hset hpackage hn hs
          · rintro (hs | ⟨-, hp, hn, hs⟩)
            · rw [hset] at hs
              cases hs
            · cases hpackage.symm.trans hp
              exact ⟨_, hn, hs⟩

/-- The sets a roll comes upon are those within reach. -/
theorem querySets_spec (hload : table.Loaded) (params : DropRollParameters) :
    Collected table (table.querySets params) ∧
      ∀ s, s ∈ (table.querySets params).mSetListPtr ↔ table.Reachable params s := by
  have hfold := fun names (results : SetQueryResult) (h : Collected table results) =>
    Collected.fold table.addSetQueryResult table.Reaches
      (fun r n hr => hr.addSetQueryResult hload n) names h
  unfold querySets Reachable
  cases hcreature : table.mCreature[params.mCreatureDefID]? with
  | none =>
      cases hlevel : table.mLevel[params.mCreatureLevel]? with
      | none => exact ⟨collected_empty, fun s => by simp⟩
      | some level =>
          obtain ⟨hc, hmem⟩ := hfold level.mPackageList {} collected_empty
          exact ⟨hc, fun s => (hmem s).trans (by simp)⟩
  | some creature =>
      obtain ⟨hc, hmem⟩ := hfold creature.mSetList {} collected_empty
      cases hexplicit : creature.mExplicit with
      | true =>
          simp only [Option.any_some, hexplicit, if_true]
          exact ⟨hc, fun s => (hmem s).trans (by simp [hexplicit])⟩
      | false =>
          simp only [Option.any_some, hexplicit, Bool.false_eq_true, if_false]
          cases hlevel : table.mLevel[params.mCreatureLevel]? with
          | none => exact ⟨hc, fun s => (hmem s).trans (by simp)⟩
          | some level =>
              obtain ⟨hc', hmem'⟩ := hfold level.mPackageList _ hc
              exact ⟨hc', fun s => (hmem' s).trans (by simp [hmem s, hexplicit])⟩

/-! ### Rolls -/

variable {g_RandomManager : RandomNumbers} {set : DropSetDefinition}

/-- `needed` and `max` of a set. -/
def chance (set : DropSetDefinition) : Int × Int :=
  if set.mRarity = CHANCE_PERCENT then (set.mChance, 100)
  else if set.mRarity = CHANCE_SHARES then
    (computeSharesByFraction set.mChance, DROP_MAX_SHARES)
  else (0, 0)

/-- How often a set is rolled: its chance by its maximum, up. -/
def rounds (set : DropSetDefinition) : Nat := ⌈((chance set).1 : ℚ) / (chance set).2⌉₊

/-- How many rounds drop an item, after so many draws: all but the last, which takes one number each
for the roll and for the item, and the last one if its roll is not above what is left. -/
def hits (g_RandomManager : RandomNumbers) (max needed : Int) (k : Nat) : Nat :=
  if 0 < needed then
    (needed / max).toNat +
      if 0 < needed % max ∧
        g_RandomManager.answer (k + 2 * (needed / max).toNat) 1 max ≤ needed % max then 1 else 0
  else 0

/-- The first round, and the others. -/
theorem hits_of_pos {max needed : Int} (hmax : 0 < max) (hneeded : 0 < needed) {k c : Nat}
    (hc : c = if g_RandomManager.answer k 1 max ≤ needed then 1 else 0) :
    hits g_RandomManager max needed k =
      c + hits g_RandomManager max (needed - max) (k + 1 + c) := by
  obtain ⟨-, hroll⟩ := g_RandomManager.bounds k 1 max (by omega)
  rcases lt_or_ge needed max with hless | hmore
  · have hdiv : needed / max = 0 := Int.ediv_eq_zero_of_lt hneeded.le hless
    have hmod : needed % max = needed := Int.emod_eq_of_lt hneeded.le hless
    have hrest : hits g_RandomManager max (needed - max) (k + 1 + c) = 0 := if_neg (by omega)
    rw [hrest, hits, if_pos hneeded, hdiv, hmod, hc]
    simp [hneeded]
  · -- the roll of a whole round is never too high
    obtain rfl : c = 1 := by rw [hc, if_pos (hroll.trans hmore)]
    have hdiv : needed / max = (needed - max) / max + 1 := by
      rw [← Int.add_mul_ediv_left _ _ hmax.ne', mul_one, sub_add_cancel]
    have hmod : needed % max = (needed - max) % max := (Int.sub_emod_right needed max).symm
    have hnonneg : 0 ≤ (needed - max) / max := Int.ediv_nonneg (by omega) hmax.le
    have hnat : (needed / max).toNat = ((needed - max) / max).toNat + 1 := by omega
    have hplace : k + 2 * (needed / max).toNat = k + 1 + 1 + 2 * ((needed - max) / max).toNat := by
      omega
    have hrest : hits g_RandomManager max (needed - max) (k + 1 + 1) =
        ((needed - max) / max).toNat + if 0 < (needed - max) % max ∧
          g_RandomManager.answer (k + 1 + 1 + 2 * ((needed - max) / max).toNat) 1 max ≤
            (needed - max) % max then 1 else 0 := by
      rw [hits]
      split
      · rfl
      · have hzero : needed - max = 0 := by omega
        simp [hzero]
    rw [hrest, hits, if_pos hneeded, hplace, hmod, hnat]
    split <;> omega

/-- No round drops more than one item. -/
theorem hits_le (k : Nat) {max needed : Int} (hmax : 0 < max) :
    hits g_RandomManager max needed k ≤ ⌈(needed : ℚ) / max⌉₊ := by
  unfold hits
  split
  · next hneeded =>
      have hmaxq : (0 : ℚ) < max := by exact_mod_cast hmax
      have hnonneg := Int.ediv_nonneg hneeded.le hmax.le
      have hsplit := Int.mul_ediv_add_emod needed max
      have hcast : ((needed / max).toNat : ℚ) = (needed / max : Int) := by
        exact_mod_cast Int.toNat_of_nonneg hnonneg
      split
      · next hhit =>
          rw [Nat.add_one_le_iff, Nat.lt_ceil, hcast, lt_div_iff₀ hmaxq]
          have hlt : needed / max * max < needed := by
            rw [mul_comm]
            omega
          exact_mod_cast hlt
      · have hle : ((needed / max).toNat : ℚ) ≤ (needed : ℚ) / max := by
          rw [hcast, le_div_iff₀ hmaxq]
          exact_mod_cast Int.ediv_mul_le needed hmax.ne'
        rw [add_zero]
        exact_mod_cast hle.trans (Nat.le_ceil _)
  · exact Nat.zero_le _

theorem rollItem_yieldsFrom (hitems : set.mItemList ≠ []) (dropRoll needed : Int) (k : Nat) :
    YieldsFrom (rollItem g_RandomManager set dropRoll needed) k fun items k' =>
      items.length = (if dropRoll ≤ needed then 1 else 0) ∧ (∀ i ∈ items, i ∈ set.mItemList) ∧
        k' = k + items.length := by
  unfold rollItem
  split
  · refine (yieldsFrom_pick g_RandomManager hitems).bind fun item k' ⟨hitem, hk⟩ =>
      .pure ⟨rfl, ?_, hk⟩
    simpa using hitem
  · exact .pure ⟨rfl, by simp, rfl⟩

theorem rollLoop_yieldsFrom (hitems : set.mItemList ≠ []) (max : Int) (hmax : 0 < max)
    (needed : Int) (k : Nat) :
    YieldsFrom (rollLoop g_RandomManager set max hmax needed) k fun items k' =>
      items.length = hits g_RandomManager max needed k ∧ (∀ i ∈ items, i ∈ set.mItemList) ∧
        k' = k + (⌈(needed : ℚ) / max⌉₊ + items.length) := by
  have hmaxq : (0 : ℚ) < max := by exact_mod_cast hmax
  induction hn : needed.toNat using Nat.strong_induction_on generalizing needed k with
  | _ n ih =>
      rw [rollLoop]
      by_cases hneeded : needed > 0
      · rw [dif_pos hneeded]
        refine (yieldsFrom_randInt g_RandomManager (by omega)).bind
          fun dropRoll k₁ ⟨hroll, hk₁⟩ => ?_
        subst hroll hk₁
        refine (rollItem_yieldsFrom hitems _ needed _).bind fun items k₂ ⟨hcount, hin, hk₂⟩ => ?_
        subst hk₂
        refine (ih (needed - max).toNat (by omega) (needed - max) _ rfl).bind
          fun rest k₃ ⟨hrest, hinRest, hk₃⟩ => .pure ⟨?_, ?_, ?_⟩
        · rw [List.length_append, hrest, ← hits_of_pos hmax hneeded hcount]
        · intro i hi
          exact (List.mem_append.mp hi).elim (hin i) (hinRest i)
        · -- one round less is left
          have hneededq : (0 : ℚ) < needed := by exact_mod_cast hneeded
          have hless : ((needed - max : Int) : ℚ) / max = needed / max - 1 := by
            rw [Int.cast_sub, sub_div, div_self hmaxq.ne']
          have hpos : 0 < ⌈(needed : ℚ) / max⌉₊ := Nat.ceil_pos.mpr (div_pos hneededq hmaxq)
          rw [hk₃, hless, Nat.ceil_sub_one, List.length_append]
          omega
      · rw [dif_neg hneeded]
        have hneededq : (needed : ℚ) ≤ 0 := by exact_mod_cast (show needed ≤ 0 by omega)
        have hceil : ⌈(needed : ℚ) / max⌉₊ = 0 :=
          Nat.ceil_eq_zero.mpr (div_nonpos_of_nonpos_of_nonneg hneededq hmaxq.le)
        refine .pure ⟨?_, by simp, by rw [hceil]; rfl⟩
        rw [hits, if_neg hneeded]
        rfl

/-- How many items a set of the explicit class drops, after so many draws. -/
def dropCount (g_RandomManager : RandomNumbers) (MegaLootParty : Bool) (set : DropSetDefinition)
    (k : Nat) : Nat :=
  if MegaLootParty then 1 else hits g_RandomManager (chance set).2 (chance set).1 k

/-- The most items that a set of the explicit class may drop. -/
def limit (MegaLootParty : Bool) (set : DropSetDefinition) : Nat :=
  if MegaLootParty then 1 else rounds set

/-- `max` is positive but where the set has no chance of its own. -/
theorem chance_cases (set : DropSetDefinition) : 0 < (chance set).2 ∨ chance set = (0, 0) := by
  unfold chance
  split
  · exact .inl (show (0 : Int) < 100 by decide)
  · split
    · exact .inl (show 0 < DROP_MAX_SHARES by decide)
    · exact .inr rfl

theorem dropCount_le (MegaLootParty : Bool) (set : DropSetDefinition) (k : Nat) :
    dropCount g_RandomManager MegaLootParty set k ≤ limit MegaLootParty set := by
  unfold dropCount limit
  split
  · exact le_rfl
  · rcases chance_cases set with hmax | hnone
    · exact hits_le k hmax
    · rw [hnone]
      exact Nat.zero_le _

theorem rollExplicit_yieldsFrom (hitems : set.mItemList ≠ []) (MegaLootParty : Bool) (k : Nat) :
    YieldsFrom (rollExplicit g_RandomManager MegaLootParty set) k fun items k' =>
      items.length = dropCount g_RandomManager MegaLootParty set k ∧
        (∀ i ∈ items, i ∈ set.mItemList) ∧
        k' = k + ((if MegaLootParty then 0 else rounds set) + items.length) := by
  unfold rollExplicit dropCount
  cases MegaLootParty with
  | true =>
      refine (yieldsFrom_pick g_RandomManager hitems).bind fun item k' ⟨hitem, hk⟩ => .pure ⟨rfl, ?_, hk⟩
      simpa using hitem
  | false =>
      unfold rounds chance
      simp only [Bool.false_eq_true, if_false]
      split
      · exact_mod_cast rollLoop_yieldsFrom hitems 100 (by decide) set.mChance k
      · split
        · exact rollLoop_yieldsFrom hitems DROP_MAX_SHARES (by decide) _ k
        · exact .pure ⟨rfl, by simp, by simp⟩

/-- The sets of the explicit class drop one after the other, each as many items as its rolls say. -/
inductive SetsDrop (g_RandomManager : RandomNumbers) (MegaLootParty : Bool) :
    List DropSetDefinition → List (List Int) → Nat → Nat → Prop
  | nil (k : Nat) : SetsDrop g_RandomManager MegaLootParty [] [] k k
  | cons {set items sets explicit} {k k' : Nat}
      (count : items.length = dropCount g_RandomManager MegaLootParty set k)
      (known : ∀ i ∈ items, i ∈ set.mItemList)
      (rest : SetsDrop g_RandomManager MegaLootParty sets explicit
        (k + ((if MegaLootParty then 0 else rounds set) + items.length)) k') :
      SetsDrop g_RandomManager MegaLootParty (set :: sets) (items :: explicit) k k'

theorem SetsDrop.limited {MegaLootParty : Bool} {sets : List DropSetDefinition}
    {explicit : List (List Int)} {k k' : Nat}
    (h : SetsDrop g_RandomManager MegaLootParty sets explicit k k') :
    List.Forall₂
      (fun s items => items.length ≤ limit MegaLootParty s ∧ ∀ i ∈ items, i ∈ s.mItemList)
      sets explicit := by
  induction h with
  | nil k => exact .nil
  | cons count known _ ih => exact .cons ⟨count.trans_le (dropCount_le _ _ _), known⟩ ih

theorem mapM_yieldsFrom {sets : List DropSetDefinition} (h : ∀ s ∈ sets, s.mItemList ≠ [])
    (MegaLootParty : Bool) (k : Nat) :
    YieldsFrom (sets.mapM (rollExplicit g_RandomManager MegaLootParty)) k
      (SetsDrop g_RandomManager MegaLootParty sets · k ·) := by
  induction sets generalizing k with
  | nil => exact .pure (.nil k)
  | cons set rest ih =>
      obtain ⟨hset, hrest⟩ := List.forall_mem_cons.mp h
      rw [List.mapM_cons]
      refine (rollExplicit_yieldsFrom hset MegaLootParty k).bind
        fun items k₁ ⟨hcount, hin, hk₁⟩ => ?_
      subst hk₁
      exact (ih hrest _).bind fun explicit k₂ hexplicit => .pure (.cons hcount hin hexplicit)

theorem mem_filter_explicit (hload : table.Loaded) (params : DropRollParameters)
    (s : DropSetDefinition) :
    s ∈ (table.querySets params).filter CLASS_FLAG_EXPLICIT ↔
      table.Reachable params s ∧ s.mClassFlag = CLASS_FLAG_EXPLICIT := by
  unfold SetQueryResult.filter
  rw [List.mem_filter, (querySets_spec hload params).2, beq_iff_eq]

theorem rollExplicits_yieldsFrom (hload : table.Loaded) (MegaLootParty : Bool)
    (params : DropRollParameters) (k : Nat) :
    YieldsFrom (rollExplicits g_RandomManager MegaLootParty (table.querySets params)) k
      (SetsDrop g_RandomManager MegaLootParty
        ((table.querySets params).filter CLASS_FLAG_EXPLICIT) · k ·) := by
  obtain ⟨hcollected, hreach⟩ := querySets_spec hload params
  unfold rollExplicits
  split
  · refine mapM_yieldsFrom (fun s hs => ?_) MegaLootParty k
    exact (hload _ _ (hcollected.known s (List.mem_filter.mp hs).1)).2.1
  · next hflags =>
      have hnil : (table.querySets params).filter CLASS_FLAG_EXPLICIT = [] := by
        rw [List.eq_nil_iff_forall_not_mem]
        intro s hs
        obtain ⟨hs, hsflag⟩ := (mem_filter_explicit hload params s).mp hs
        exact hflags ((hcollected.flags 0).mpr ⟨s, (hreach s).mpr hs, hsflag⟩)
      rw [hnil]
      exact .pure (.nil k)

/-- A class admits a roll that is not above its shares, when some set in reach is of the class. -/
def Admits (table : DropTableManager) (params : DropRollParameters) (dropRoll : Int)
    (c : UInt32 × Int) : Prop :=
  dropRoll ≤ c.2 ∧ ∃ s, table.Reachable params s ∧ s.mClassFlag = c.1

/-- What a roll of the classes leads to: an item of a set of the first class that admits it. -/
def Further (table : DropTableManager) (params : DropRollParameters) (dropRoll : Int)
    (order : List (UInt32 × Int)) (further : List Int) : Prop :=
  (further = [] ∧ ∀ c ∈ order, ¬table.Admits params dropRoll c) ∨
  ∃ before c after i s, order = before ++ c :: after ∧
    (∀ c' ∈ before, ¬table.Admits params dropRoll c') ∧ table.Admits params dropRoll c ∧
    further = [i] ∧ table.Reachable params s ∧ s.mClassFlag = c.1 ∧ i ∈ s.mItemList

theorem Further.cons {dropRoll : Int} {c : UInt32 × Int} {order : List (UInt32 × Int)}
    {further : List Int} (h : table.Further params dropRoll order further)
    (hc : ¬table.Admits params dropRoll c) :
    table.Further params dropRoll (c :: order) further := by
  rcases h with ⟨hnone, hall⟩ | ⟨before, c', after, i, s, horder, hbefore, hrest⟩
  · exact .inl ⟨hnone, List.forall_mem_cons.mpr ⟨hc, hall⟩⟩
  · refine .inr ⟨c :: before, c', after, i, s, ?_, List.forall_mem_cons.mpr ⟨hc, hbefore⟩, hrest⟩
    rw [horder, List.cons_append]

theorem rollClasses_yields (hload : table.Loaded) (dropRoll : Int) (order : List (UInt32 × Int))
    (horder : ∀ c ∈ order, ∃ r, c.1 = DropSetDefinition.classFlag r) :
    Yields (rollClasses g_RandomManager (table.querySets params) dropRoll order)
      (table.Further params dropRoll order) := by
  obtain ⟨hcollected, hreach⟩ := querySets_spec hload params
  induction order with
  | nil => exact .pure (.inl ⟨rfl, by simp⟩)
  | cons c rest ih =>
      obtain ⟨⟨r, hr⟩, hrest⟩ := List.forall_mem_cons.mp horder
      have hskip : ¬table.Admits params dropRoll c →
          Yields (rollClasses g_RandomManager (table.querySets params) dropRoll rest)
            (table.Further params dropRoll (c :: rest)) := fun hc =>
        (ih hrest).mono fun _ h => h.cons hc
      have hflag := hcollected.flags r
      rw [← hr] at hflag
      obtain ⟨flag, shares⟩ := c
      simp only at hr hflag
      rw [rollClasses]
      split
      · next hzero =>
          refine hskip fun ⟨_, s, hs, hsflag⟩ => ?_
          exact hflag.mpr ⟨s, (hreach s).mpr hs, hsflag⟩ hzero
      · next hpresent =>
          split
          · next hroll => exact hskip fun ⟨hle, _⟩ => absurd hle (by simpa using hroll)
          · next hroll =>
              obtain ⟨s, hs, hsflag⟩ := hflag.mp hpresent
              have hfilter : s ∈ (table.querySets params).filter flag :=
                List.mem_filter.mpr ⟨hs, beq_iff_eq.mpr hsflag⟩
              have hne : (table.querySets params).filter flag ≠ [] := List.ne_nil_of_mem hfilter
              rw [if_neg fun h => hne (List.length_eq_zero_iff.mp h)]
              refine (yields_pick g_RandomManager hne).bind fun s' hs' => ?_
              obtain ⟨hs'mem, hs'flag⟩ := List.mem_filter.mp hs'
              have hs'items := (hload _ _ (hcollected.known s' hs'mem)).2.1
              refine (yields_pick g_RandomManager hs'items).bind fun i hi => .pure (.inr ?_)
              exact ⟨[], (flag, shares), rest, i, s', rfl, by simp,
                ⟨by simpa using hroll, s, (hreach s).mp hs, hsflag⟩, rfl, (hreach s').mp hs'mem,
                beq_iff_eq.mp hs'flag, hi⟩

/-- What is dropped: from each set of the explicit class in reach a number of its items up to its
limit, and what the roll of the other classes leads to. -/
structure Rolled (limit : DropSetDefinition → Nat) (table : DropTableManager)
    (params : DropRollParameters) (sets : List DropSetDefinition) (explicit : List (List Int))
    (dropRoll : Int) (further : List Int) : Prop where
  distinct : sets.Nodup
  reachable : ∀ s, s ∈ sets ↔ table.Reachable params s ∧ s.mClassFlag = CLASS_FLAG_EXPLICIT
  limited : List.Forall₂ (fun s items => items.length ≤ limit s ∧ ∀ i ∈ items, i ∈ s.mItemList)
    sets explicit
  roll : 1 ≤ dropRoll ∧ dropRoll ≤ adjust params
  further : table.Further params dropRoll classes further

theorem classes_flag : ∀ c ∈ classes, ∃ r, c.1 = DropSetDefinition.classFlag r := by
  simp only [classes, List.forall_mem_cons, List.not_mem_nil, false_implies, implies_true, and_true]
  exact ⟨⟨6, rfl⟩, ⟨5, rfl⟩, ⟨4, rfl⟩, ⟨3, rfl⟩, ⟨2, rfl⟩⟩

theorem one_le_adjust (params : DropRollParameters) : 1 ≤ adjust params := by
  unfold adjust DROP_MAX_SHARES
  simp only
  split
  · rw [Int.tdiv_eq_ediv_of_nonneg (by positivity)]
    omega
  · decide

/-- Whatever the tables say and whatever numbers are drawn, `RollDrops` reads no list out of its
bounds, and adds to the output items of the sets in reach: from each explicit set as many as its
rolls say, which is no more than its chance allows, or one with `MegaLootParty`, and one at most
from the rarest class that admits the next roll. -/
theorem rollDrops_rolled (sets packages creatures : List (List Text))
    (g_RandomManager : RandomNumbers) (MegaLootParty : Bool) (params : DropRollParameters)
    (output : List Int) (k : Nat) :
    YieldsFrom
      ((loadData sets packages creatures).rollDrops g_RandomManager MegaLootParty params output) k
      fun result _ => ∃ (reached : List DropSetDefinition) (explicit : List (List Int))
          (further : List Int) (k₁ : Nat),
        result = output ++ explicit.flatten ++ further ∧
        SetsDrop g_RandomManager MegaLootParty reached explicit k k₁ ∧
        Rolled (limit MegaLootParty) (loadData sets packages creatures) params reached explicit
          (g_RandomManager.answer k₁ 1 (adjust params)) further := by
  have hload := loadData_loaded sets packages creatures
  generalize loadData sets packages creatures = table at hload ⊢
  obtain ⟨hcollected, hreach⟩ := querySets_spec hload params
  have hnodup : ((table.querySets params).filter CLASS_FLAG_EXPLICIT).Nodup :=
    (List.Nodup.of_map _ hcollected.distinct).filter _
  have hroll (k : Nat) := g_RandomManager.bounds k 1 (adjust params) (one_le_adjust params)
  unfold rollDrops
  simp only
  split
  · next hempty =>
      -- nothing is in reach, and no roll is made
      have hnone : ∀ s, ¬table.Reachable params s := fun s hs => by
        have hmem := (hreach s).mpr hs
        rw [List.isEmpty_iff.mp hempty] at hmem
        cases hmem
      refine .pure
        ⟨[], [], [], k, by simp, .nil k, List.nodup_nil, ?_, .nil, hroll k, .inl ⟨rfl, ?_⟩⟩
      · exact fun s => ⟨fun h => absurd h List.not_mem_nil, fun h => absurd h.1 (hnone s)⟩
      · exact fun c _ ⟨_, s, hs, _⟩ => hnone s hs
  · refine (rollExplicits_yieldsFrom hload MegaLootParty params k).bind
      fun explicit k₁ hexplicit => ?_
    refine (yieldsFrom_randInt g_RandomManager (one_le_adjust params)).bind
      fun dropRoll k₂ ⟨hdrop, _⟩ => ?_
    subst hdrop
    refine (rollClasses_yields hload _ classes classes_flag).yieldsFrom.bind
      fun further k₃ hfurther => .pure ⟨_, explicit, further, k₁, rfl, hexplicit, hnodup,
        mem_filter_explicit hload params, hexplicit.limited, hroll k₁, hfurther⟩

/-- Numbers that are always the lowest ones. -/
def lowest : RandomNumbers where
  answer _ min _ := min
  bounds _ _ _ h := ⟨le_rfl, h⟩

/-- A creature with a set that has no chance. -/
def noChance : DropTableManager :=
  loadData [["A".toList, "0".toList, "0".toList, "7".toList]] []
    [["5".toList, "1".toList, "A".toList]]

/-- With `MegaLootParty` a set without a chance drops an item. -/
theorem rollDrops_mega : ¬∀ (sets packages creatures : List (List Text))
    (g_RandomManager : RandomNumbers) (MegaLootParty : Bool) (params : DropRollParameters)
    (output : List Int),
    Yields
      ((loadData sets packages creatures).rollDrops g_RandomManager MegaLootParty params output)
      fun result => ∃ reached explicit dropRoll further,
        result = output ++ explicit.flatten ++ further ∧
        Rolled rounds (loadData sets packages creatures) params reached explicit dropRoll
          further := by
  intro hall
  obtain ⟨result, k, hrun, sets, explicit, dropRoll, further, hflatten, -, hsets, hexplicit, -,
    hfurther⟩ := hall [["A".toList, "0".toList, "0".toList, "7".toList]] []
      [["5".toList, "1".toList, "A".toList]] lowest true { mCreatureDefID := 5 } [] 0
  have hresult : (noChance.rollDrops lowest true { mCreatureDefID := 5 } []).run 0 =
      some ([7], 2) := by decide
  cases hresult.symm.trans hrun
  obtain ⟨-, hreach⟩ := querySets_spec
    (loadData_loaded [["A".toList, "0".toList, "0".toList, "7".toList]] []
      [["5".toList, "1".toList, "A".toList]]) { mCreatureDefID := 5 }
  have hquery : (noChance.querySets { mCreatureDefID := 5 }).mSetListPtr =
      [⟨"A".toList, 0, 0, [7], 1⟩] := by decide
  have honly : ∀ s, noChance.Reachable { mCreatureDefID := 5 } s →
      s = ⟨"A".toList, 0, 0, [7], 1⟩ := fun s hs => by
    have hmem := (hreach s).mpr hs
    change s ∈ (noChance.querySets { mCreatureDefID := 5 }).mSetListPtr at hmem
    rwa [hquery, List.mem_singleton] at hmem
  -- the set that is in reach may not drop anything
  have hnone : ∀ {sets : List DropSetDefinition} {explicit : List (List Int)},
      (∀ s ∈ sets, rounds s = 0) →
      List.Forall₂ (fun s items => items.length ≤ rounds s ∧ ∀ i ∈ items, i ∈ s.mItemList)
        sets explicit → explicit.flatten = [] := by
    intro sets explicit hzero hrolled
    induction hrolled with
    | nil => rfl
    | @cons s items sets explicit h _ ih =>
        have hitems : items = [] := List.length_eq_zero_iff.mp (by
          have hle := h.1
          rw [hzero s List.mem_cons_self] at hle
          omega)
        rw [hitems]
        exact ih fun s' hs' => hzero s' (List.mem_cons_of_mem s hs')
  have hzero : ∀ s ∈ sets, rounds s = 0 := fun s hs => by
    rw [honly s ((hsets s).mp hs).1]
    simp [rounds, chance, CHANCE_PERCENT]
  rw [hnone hzero hexplicit, List.nil_append, List.nil_append] at hflatten
  rcases hfurther with ⟨hnil, -⟩ | ⟨before, c, after, i, s, horder, -, ⟨-, s', hs', hflag⟩, -⟩
  · rw [hnil] at hflatten
    cases hflatten
  · have hc : c ∈ classes := by
      rw [horder]
      exact List.mem_append_right _ List.mem_cons_self
    rw [honly s' hs'] at hflag
    have hnot : (classes.all fun c => c.1 != 1) = true := by decide
    have hne := List.all_eq_true.mp hnot c hc
    rw [← hflag] at hne
    exact absurd hne (by decide)

end DropTableManager

end Iceee
