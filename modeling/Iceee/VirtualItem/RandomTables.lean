import Iceee.Lib.Keyed
import Iceee.Lib.Trace
import Iceee.Util.Split
import Iceee.VirtualItem.RollStats
import Iceee.VirtualItem.ShareTables

/-!
# Applying the tables of a template

The template of a kind of equipment lists tables that always give an item a modifier, and tables
that are rolled by their shares. A table that was rolled as often as it may be leaves the list, and
takes its shares out of the total.

## Main results

* `round_spec`: what a round of the loop does.
* `kept_iff`: the total follows the list in every run.
* `shareTables_iff`: fair tables and runs.

## Implementation notes

A pointer to a table of the template is its place there. `maxMods` and `curMods` do not wrap around:
`modMax` is a `short`. The places of the tables that were applied are kept for the proofs.
-/

namespace Iceee.VirtualItem

open Lib Draw

/-! ### The tables of modifiers -/

namespace ModRow

def LOWEST_RARITY : Int := 2
def NUMRARITY : Nat := 5

end ModRow

/-- `ModRow`: two numbers for each rarity. -/
structure ModRow where
  level : Int
  data : Fin ModRow.NUMRARITY → Int × Int

namespace ModRow

variable (row : ModRow)

/-- The numbers of a rarity. -/
def columns (rarity : Int) : Option (Int × Int) :=
  let rarity := (if rarity < LOWEST_RARITY then LOWEST_RARITY else rarity) - LOWEST_RARITY
  if h : 0 ≤ rarity ∧ rarity.toNat < NUMRARITY then some (row.data ⟨rarity.toNat, h.2⟩) else none

/-- `FetchData`. -/
def fetchData (numbers : RandomNumbers) (rarity : Int) : Draw Int :=
  match row.columns rarity with
  | none => pure 0
  | some (min, max) => if max < min then randInt numbers max min else randInt numbers min max

/-- `FetchFirst`. -/
def fetchFirst (rarity : Int) : Int := ((row.columns rarity).map Prod.fst).getD 0

/-- `FetchSecond`. -/
def fetchSecond (rarity : Int) : Int := ((row.columns rarity).map Prod.snd).getD 0

end ModRow

structure ModTable where
  name : Text
  modRow : List ModRow

/-- `GetRowByLevel`. -/
def ModTable.getRowByLevel (t : ModTable) (level : Int) : Option ModRow :=
  t.modRow.find? (·.level = level)

/-- What virtual items are rolled from: the tables of modifiers and the configuration of each
rarity. -/
structure ModSystem where
  modTable : List ModTable
  rarityConfig : List RarityConfig

/-- `GetModTable`. -/
def ModSystem.getModTable (sys : ModSystem) (name : Text) : Option ModTable :=
  sys.modTable.find? (·.name = name)

structure ValidTable where
  tableName : Text := []
  statApp : Text := []
  shares : Int := 0
  core : Bool := false
  maxApply : Int := 0

structure EquipTemplate where
  mEquipType : Int := 0
  mWeaponType : Int := 0
  intrinsicTable : List ValidTable := []
  alwaysTable : List ValidTable := []
  randomTable : List ValidTable := []

section Apply

variable (sys : ModSystem) (numbers : RandomNumbers) (level rarity : Int)

/-- `ApplyModTable`: the number of modifiers added, and the modifiers. -/
def applyModTable (validTable : ValidTable) (mModString : Text) : Draw (Int × Text) :=
  match (sys.getModTable validTable.tableName).bind (·.getRowByLevel level) with
  | none => pure (0, mModString)
  | some modRow => do
      let value ← modRow.fetchData numbers rarity
      if value = 0 then pure (0, mModString)
      else if validTable.core then do
        let cfg ← index sys.rarityConfig rarity
        let value ← StateT.lift (cfg.getAdjustedCorePoints value)
        rollStats numbers cfg mModString value
      else
        match Util.split validTable.statApp ['|'] with
        | [stat] => pure (1, appendStat mModString stat value)
        | [first, second] =>
            pure (1, appendStat (appendStat mModString first (modRow.fetchFirst rarity)) second
              (modRow.fetchSecond rarity))
        | _ => pure (1, mModString)

/-- The loop over the tables that are all applied. -/
def applyAll : List ValidTable → Int → Text → Draw (Int × Text)
  | [], curMods, mModString => pure (curMods, mModString)
  | table :: tables, curMods, mModString => do
      let (added, mModString) ← applyModTable sys numbers level rarity table mModString
      applyAll tables (curMods + added) mModString

/-- `ApplyIntrinsicTables`. -/
def applyIntrinsicTables (eqTemplate : EquipTemplate) (mModString : Text) : Draw Text :=
  Prod.snd <$> applyAll sys numbers level rarity eqTemplate.intrinsicTable 0 mModString

end Apply

/-! ### The list of tables -/

/-- `UsedTable`. -/
structure UsedTable where
  table : ValidTable
  place : Nat
  usedCount : Int := 0

def UsedTable.shares (used : UsedTable) : Int := used.table.shares

/-- `IncrementTable`. -/
def incrementTable (tableList : List UsedTable) (index : Nat) (maxShares : Int) :
    List UsedTable × Int :=
  match tableList[index]? with
  | none => (tableList, maxShares)
  | some used =>
      if used.table.maxApply ≤ used.usedCount + 1 then
        (tableList.eraseIdx index, wrap32 (maxShares - used.shares))
      else (tableList.set index { used with usedCount := used.usedCount + 1 }, maxShares)

/-- `GetRandomTableIndex`. -/
def getRandomTableIndex (numbers : RandomNumbers) (tableList : List UsedTable) (maxShares : Int) :
    Draw (Option Nat) :=
  match tableList.findIdx? (·.table.core) with
  | some i => pure (some i)
  | none => do
      let rnd ← randInt numbers 1 maxShares
      pure (scan upTo (tableList.map UsedTable.shares) 1 rnd)

/-- The local variables of `ApplyRandomTables`, the modifiers, and the places of the tables that
were applied. -/
structure Loop where
  tableList : List UsedTable
  maxShares : Int
  maxMods : Int
  nullMod : Int
  curMods : Int
  mModString : Text
  applied : List Nat := []

/-- A table was applied. -/
def Loop.apply (s : Loop) (index : Nat) (used : UsedTable) (added : Int) (mModString : Text) :
    Loop :=
  { s with
    tableList := (incrementTable s.tableList index s.maxShares).1
    maxShares := (incrementTable s.tableList index s.maxShares).2
    curMods := s.curMods + added
    mModString := mModString
    applied := used.place :: s.applied }

section Rounds

variable (sys : ModSystem) (numbers : RandomNumbers) (level rarity : Int)

/-- The roll for a modifier that adds nothing. -/
def rollNull (nullMod : Int) : Draw Bool :=
  if 0 < nullMod then do
    let rnd ← randInt numbers 1 100
    pure (rnd ≤ nullMod)
  else pure false

/-- A round of the loop, or its end. -/
def round (s : Loop) : Draw (Option Loop) :=
  if s.curMods < s.maxMods ∧ s.tableList ≠ [] then do
    let null ← rollNull numbers s.nullMod
    if null then pure (some { s with curMods := s.curMods + 1 })
    else do
      let index ← getRandomTableIndex numbers s.tableList s.maxShares
      match index.bind fun i => (s.tableList[i]?).map (i, ·) with
      | none => pure none
      | some (i, used) => do
          let (added, mModString) ← applyModTable sys numbers level rarity used.table s.mModString
          pure (some (s.apply i used added mModString))
  else pure none

/-- The loop, with a bound for the number of its rounds. -/
def runLoop : Nat → Loop → Draw Loop
  | 0, _ => fun _ => none
  | rounds + 1, s => do
      match ← round sys numbers level rarity s with
      | some s' => runLoop rounds s'
      | none => pure s

/-- The rolls for more modifiers: one for each hundred of the bonus. -/
def rollBonus : Nat → Int → Int → Draw Int
  | 0, _, maxMods => pure maxMods
  | rounds + 1, bonus, maxMods => do
      let rnd ← randInt numbers 1 100
      rollBonus rounds (bonus - 100) (if rnd ≤ bonus then maxMods + 1 else maxMods)

/-- All tables, none of them used. -/
def startList (randomTable : List ValidTable) : List UsedTable :=
  randomTable.zipIdx.map fun (table, i) => { table, place := i }

/-- What `ApplyRandomTables` does before its loop. -/
def startLoop (eqTemplate : EquipTemplate) (mModString : Text) : Draw Loop := do
  let cfg ← index sys.rarityConfig rarity
  let bonus ← StateT.lift (toInt (Single.round (cfg.levelBonus * Single.round level)))
  let maxMods ← rollBonus numbers ((bonus.toNat + 99) / 100) bonus cfg.modMax
  let (curMods, mModString) ←
    applyAll sys numbers level rarity eqTemplate.alwaysTable 0 mModString
  pure { tableList := startList eqTemplate.randomTable
         maxShares := tally 31 (eqTemplate.randomTable.map ValidTable.shares)
         maxMods
         nullMod := cfg.nullMod
         curMods
         mModString }

/-- How many rounds are still to come at most. -/
def Loop.rounds (s : Loop) : Nat :=
  (s.tableList.map fun used => (used.table.maxApply - used.usedCount).toNat + 1).sum +
    (s.maxMods - s.curMods).toNat

/-- `ApplyRandomTables`. -/
def applyRandomTables (eqTemplate : EquipTemplate) (mModString : Text) : Draw Text := do
  let s ← startLoop sys numbers level rarity eqTemplate mModString
  let s ← runLoop sys numbers level rarity (s.rounds + 1) s
  pure s.mModString

end Rounds

/-! ### What a round does -/

section Turn

variable {sys : ModSystem} {numbers : RandomNumbers} {level rarity : Int}

theorem rollLoop_count (numbers : RandomNumbers) (rollMin rollMax maxIter : Int) (rounds : Nat)
    (statID : List Text) (remain iterCount : Int) (output : Text) :
    Ensures (rollLoop numbers rollMin rollMax maxIter rounds statID remain iterCount output)
      (iterCount ≤ ·.1) := by
  induction rounds generalizing statID remain iterCount output with
  | zero => exact Ensures.none
  | succ rounds ih =>
      rw [rollLoop]
      split
      · exact Ensures.pure le_rfl
      · refine (Ensures.trivial _).bind fun _ _ => (Ensures.trivial _).bind fun _ _ =>
          (Ensures.trivial _).bind fun _ _ => (ih _ _ _ _).mono fun result hcount => ?_
        exact (Int.le_add_one le_rfl).trans hcount

/-- A table adds no negative number of modifiers. -/
theorem applyModTable_added (sys : ModSystem) (numbers : RandomNumbers) (level rarity : Int)
    (validTable : ValidTable) (mModString : Text) :
    Ensures (applyModTable sys numbers level rarity validTable mModString) (0 ≤ ·.1) := by
  rw [applyModTable]
  split
  · exact Ensures.pure le_rfl
  · refine (Ensures.trivial _).bind fun value _ => ?_
    split
    · exact Ensures.pure le_rfl
    · split
      · refine (Ensures.trivial _).bind fun cfg _ => (Ensures.trivial _).bind fun value _ => ?_
        exact (Ensures.trivial _).bind fun rollMin _ => (Ensures.trivial _).bind fun rollMax _ =>
          rollLoop_count numbers rollMin rollMax _ _ _ _ _ _
      · split <;> exact Ensures.pure zero_le_one

/-- A round rolls a modifier that adds nothing, or applies a table of the list. -/
inductive Turn (s : Loop) : Loop → Prop
  | null (h : s.curMods < s.maxMods) : Turn s { s with curMods := s.curMods + 1 }
  | apply {index : Nat} {used : UsedTable} (hused : s.tableList[index]? = some used) {added : Int}
      (hadded : 0 ≤ added) (mModString : Text) : Turn s (s.apply index used added mModString)

theorem round_spec (sys : ModSystem) (numbers : RandomNumbers) (level rarity : Int) (s : Loop) :
    Ensures (round sys numbers level rarity s) fun o => ∀ s', o = some s' → Turn s s' := by
  have hend : Ensures (pure none : Draw (Option Loop)) fun o => ∀ s', o = some s' → Turn s s' :=
    Ensures.pure fun _ h => nomatch h
  rw [round]
  split
  · next hmore =>
      refine (Ensures.trivial _).bind fun null _ => ?_
      split
      · refine Ensures.pure fun s' hs' => ?_
        obtain rfl := Option.some.inj hs'
        exact .null hmore.1
      · refine (Ensures.trivial _).bind fun index _ => ?_
        split
        · exact hend
        · next i used hindex =>
            obtain ⟨j, -, hj⟩ := Option.bind_eq_some_iff.mp hindex
            obtain ⟨used', hused, hpair⟩ := Option.map_eq_some_iff.mp hj
            cases hpair
            refine (applyModTable_added sys numbers level rarity used.table s.mModString).bind
              fun result hadded => Ensures.pure fun s' hs' => ?_
            obtain rfl := Option.some.inj hs'
            exact .apply hused hadded result.2
  · exact hend

/-- What is left of the list when a table is taken out, and with it in its new state. -/
theorem incrementTable_cases {tableList : List UsedTable} {index : Nat} {used : UsedTable}
    (hused : tableList[index]? = some used) (maxShares : Int) :
    (used.table.maxApply ≤ used.usedCount + 1 ∧
      incrementTable tableList index maxShares =
        (tableList.eraseIdx index, wrap32 (maxShares - used.shares))) ∨
    (used.usedCount + 1 < used.table.maxApply ∧
      (incrementTable tableList index maxShares).1.Perm
        ({ used with usedCount := used.usedCount + 1 } :: tableList.eraseIdx index) ∧
      (incrementTable tableList index maxShares).2 = maxShares) := by
  rw [incrementTable, hused]
  rcases le_or_gt used.table.maxApply (used.usedCount + 1) with hle | hlt
  · exact .inl ⟨hle, if_pos hle⟩
  · refine .inr ⟨hlt, ?_⟩
    simp only [if_neg (not_le.mpr hlt)]
    exact ⟨List.set_perm_cons_eraseIdx (List.getElem?_eq_some_iff.mp hused).1 _, trivial⟩

theorem perm_cons_eraseIdx {tableList : List UsedTable} {index : Nat} {used : UsedTable}
    (hused : tableList[index]? = some used) :
    tableList.Perm (used :: tableList.eraseIdx index) := by
  obtain ⟨hlt, rfl⟩ := List.getElem?_eq_some_iff.mp hused
  exact (List.getElem_cons_eraseIdx_perm hlt).symm

/-- Every round brings the loop closer to its end. -/
theorem Turn.rounds_lt {s s' : Loop} (h : Turn s s') : s'.rounds < s.rounds := by
  cases h with
  | null hmore =>
      simp only [Loop.rounds]
      omega
  | @apply index used hused added hadded mModString =>
      have hsum := ((perm_cons_eraseIdx hused).map fun used =>
        (used.table.maxApply - used.usedCount).toNat + 1).sum_eq
      rw [List.map_cons, List.sum_cons] at hsum
      rw [Loop.rounds, Loop.rounds, hsum]
      rcases incrementTable_cases hused s.maxShares with ⟨-, hlist⟩ | ⟨hlt, hlist, -⟩
      · simp only [Loop.apply, hlist]
        omega
      · have hsum' := (hlist.map fun used =>
          (used.table.maxApply - used.usedCount).toNat + 1).sum_eq
        rw [List.map_cons, List.sum_cons] at hsum'
        simp only [Loop.apply, hsum']
        omega

end Turn

/-! ### Runs of the loop -/

section Runs

/-- The loop takes a round. The second component counts the numbers that were drawn. -/
def step (sys : ModSystem) (numbers : RandomNumbers) (level rarity : Int) (s : Loop × Nat)
    (_ : Unit) : Option (Loop × Nat) :=
  ((round sys numbers level rarity s.1).run s.2).bind fun (next, k) => next.map (·, k)

/-- The loop is entered, with `k` numbers drawn before. -/
def Enters (sys : ModSystem) (numbers : RandomNumbers) (level rarity : Int)
    (eqTemplate : EquipTemplate) (mModString : Text) (k : Nat) (s : Loop × Nat) : Prop :=
  (startLoop sys numbers level rarity eqTemplate mModString).run k = some s

/-- The total is that of the list, and no table was applied more often than it may be. -/
structure Kept (randomTable : List ValidTable) (s : Loop) : Prop where
  total : s.maxShares = (s.tableList.map UsedTable.shares).sum
  applied : ∀ i table, randomTable[i]? = some table →
    (s.applied.count i : Int) ≤ max 1 table.maxApply

variable {sys : ModSystem} {numbers : RandomNumbers} {level rarity : Int}

theorem step_turn {s s' : Loop × Nat} (h : step sys numbers level rarity s () = some s') :
    Turn s.1 s'.1 := by
  obtain ⟨⟨next, k⟩, hrun, hnext⟩ := Option.bind_eq_some_iff.mp h
  obtain ⟨s'', hs'', rfl⟩ := Option.map_eq_some_iff.mp hnext
  exact round_spec sys numbers level rarity s.1 s.2 next k hrun s'' hs''

variable {randomTable : List ValidTable} {applied : List Nat} {rest tableList : List UsedTable}
  {used : UsedTable}

/-- The tables of a list may be applied again, and were applied as often as they say. -/
structure Listed (randomTable : List ValidTable) (applied : List Nat) (tableList : List UsedTable) :
    Prop where
  positive : ∀ used ∈ tableList, 1 ≤ used.shares
  places : NodupKeys UsedTable.place tableList
  tables : ∀ used ∈ tableList, randomTable[used.place]? = some used.table ∧
    (applied.count used.place : Int) = used.usedCount ∧ used.usedCount < max 1 used.table.maxApply

theorem Listed.perm (h : Listed randomTable applied tableList) (hperm : tableList.Perm rest) :
    Listed randomTable applied rest where
  positive used hused := h.positive used (hperm.mem_iff.mpr hused)
  places := (hperm.map UsedTable.place).nodup_iff.mp h.places
  tables used hused := h.tables used (hperm.mem_iff.mpr hused)

/-- The first table is applied and leaves the list. -/
theorem Listed.tail (h : Listed randomTable applied (used :: rest)) :
    Listed randomTable (used.place :: applied) rest where
  positive := (List.forall_mem_cons.mp h.positive).2
  places := (List.nodup_cons.mp h.places).2
  tables other hother := by
    have hne : used.place ≠ other.place := fun heq =>
      (List.nodup_cons.mp h.places).1 (heq ▸ List.mem_map_of_mem hother)
    rw [List.count_cons_of_ne hne]
    exact h.tables other (List.mem_cons_of_mem used hother)

/-- The first table is applied and stays. -/
theorem Listed.again (h : Listed randomTable applied (used :: rest))
    (hmore : used.usedCount + 1 < used.table.maxApply) :
    Listed randomTable (used.place :: applied)
      ({ used with usedCount := used.usedCount + 1 } :: rest) := by
  obtain ⟨hplace, hcount, -⟩ := h.tables used List.mem_cons_self
  refine ⟨?_, h.places, List.forall_mem_cons.mpr ⟨⟨hplace, ?_, ?_⟩, h.tail.tables⟩⟩
  · exact List.forall_mem_cons.mpr (List.forall_mem_cons.mp h.positive)
  · rw [List.count_cons_self, Nat.cast_succ, hcount]
  · exact hmore.trans_le (le_max_right _ _)

/-- A table of the list may be applied once more. -/
theorem Listed.count_le (h : Listed randomTable applied (used :: rest))
    (happlied : ∀ i table, randomTable[i]? = some table →
      (applied.count i : Int) ≤ max 1 table.maxApply) (i : Nat) (table : ValidTable)
    (htable : randomTable[i]? = some table) :
    ((used.place :: applied).count i : Int) ≤ max 1 table.maxApply := by
  obtain ⟨hplace, hcount, hless⟩ := h.tables used List.mem_cons_self
  by_cases hi : used.place = i
  · subst hi
    obtain rfl := Option.some.inj (hplace.symm.trans htable)
    rw [List.count_cons_self, Nat.cast_succ, hcount]
    exact hless
  · rw [List.count_cons_of_ne hi]
    exact happlied i table htable

theorem Listed.sum_nonneg (h : Listed randomTable applied tableList) :
    0 ≤ (tableList.map UsedTable.shares).sum :=
  sum_nonneg_of_pos (List.forall_mem_map.mpr h.positive)

/-- The loop is in order, with a total that fits into its variable. -/
structure LoopInv (randomTable : List ValidTable) (s : Loop) : Prop where
  kept : Kept randomTable s
  fits : (s.tableList.map UsedTable.shares).sum < 2 ^ 31
  listed : Listed randomTable s.applied s.tableList

theorem LoopInv.turn {s s' : Loop} (h : LoopInv randomTable s) (hturn : Turn s s') :
    LoopInv randomTable s' := by
  cases hturn with
  | null hmore => exact ⟨⟨h.kept.total, h.kept.applied⟩, h.fits, h.listed⟩
  | @apply index used hused added hadded mModString =>
      have hperm := perm_cons_eraseIdx hused
      have hlisted := h.listed.perm hperm
      have happlied := hlisted.count_le h.kept.applied
      have hfits := h.fits
      have htotal := h.kept.total
      have hsum := (hperm.map UsedTable.shares).sum_eq
      rw [List.map_cons, List.sum_cons] at hsum
      rcases incrementTable_cases hused s.maxShares with ⟨-, hlist⟩ | ⟨hmore, hlist, hshares⟩
      · have hnonneg := hlisted.tail.sum_nonneg
        have hpositive := hlisted.positive used List.mem_cons_self
        have hwrap : wrap32 (s.maxShares - used.shares) =
            ((s.tableList.eraseIdx index).map UsedTable.shares).sum := by
          rw [htotal, hsum, add_sub_cancel_left]
          exact wrap32_eq ⟨by omega, by omega⟩
        rw [Loop.apply, hlist]
        exact ⟨⟨hwrap, happlied⟩, by simp only; omega, hlisted.tail⟩
      · have hsum' : ((incrementTable s.tableList index s.maxShares).1.map UsedTable.shares).sum =
            (s.tableList.map UsedTable.shares).sum :=
          ((hlist.map UsedTable.shares).sum_eq).trans hsum.symm
        exact ⟨⟨by rw [Loop.apply, hshares, hsum', htotal], happlied⟩,
          hsum'.trans_lt hfits, (hlisted.again hmore).perm hlist.symm⟩

theorem startLoop_spec (sys : ModSystem) (numbers : RandomNumbers) (level rarity : Int)
    (eqTemplate : EquipTemplate) (mModString : Text) :
    Ensures (startLoop sys numbers level rarity eqTemplate mModString) fun s =>
      s.tableList = startList eqTemplate.randomTable ∧
        s.maxShares = tally 31 (eqTemplate.randomTable.map ValidTable.shares) ∧ s.applied = [] := by
  refine (Ensures.trivial _).bind fun cfg _ => (Ensures.trivial _).bind fun bonus _ => ?_
  refine (Ensures.trivial _).bind fun maxMods _ => (Ensures.trivial _).bind fun always _ => ?_
  exact Ensures.pure ⟨rfl, rfl, rfl⟩

theorem startList_shares (randomTable : List ValidTable) :
    (startList randomTable).map UsedTable.shares = randomTable.map ValidTable.shares := by
  calc (startList randomTable).map UsedTable.shares
      = (randomTable.zipIdx.map Prod.fst).map ValidTable.shares := by
        rw [startList, List.map_map, List.map_map]; rfl
    _ = randomTable.map ValidTable.shares := by rw [List.zipIdx_map_fst]

theorem startList_listed (hpos : ∀ table ∈ randomTable, 1 ≤ table.shares) :
    Listed randomTable [] (startList randomTable) where
  positive used hused := by
    obtain ⟨⟨table, i⟩, hmem, rfl⟩ := List.mem_map.mp hused
    exact hpos table (List.mem_of_getElem? (List.mk_mem_zipIdx_iff_getElem?.mp hmem))
  places := by
    have hplaces : (startList randomTable).map UsedTable.place =
        List.range' 0 randomTable.length := by
      rw [startList, List.map_map, ← List.zipIdx_map_snd]
      rfl
    rw [NodupKeys, hplaces]
    exact List.nodup_range'
  tables used hused := by
    obtain ⟨⟨table, i⟩, hmem, rfl⟩ := List.mem_map.mp hused
    exact ⟨List.mk_mem_zipIdx_iff_getElem?.mp hmem, rfl, zero_lt_one.trans_le (le_max_left _ _)⟩

theorem Enters.inv {eqTemplate : EquipTemplate}
    (hpos : ∀ table ∈ eqTemplate.randomTable, 1 ≤ table.shares)
    (hfits : (eqTemplate.randomTable.map ValidTable.shares).sum < 2 ^ 31) {mModString : Text}
    {k : Nat} {s : Loop × Nat} (h : Enters sys numbers level rarity eqTemplate mModString k s) :
    LoopInv eqTemplate.randomTable s.1 := by
  obtain ⟨hlist, htotal, happlied⟩ :=
    startLoop_spec sys numbers level rarity eqTemplate mModString k s.1 s.2 h
  have hnonneg := (startList_listed hpos).sum_nonneg
  rw [startList_shares] at hnonneg
  refine ⟨⟨?_, fun i table _ => ?_⟩, ?_, ?_⟩
  · rw [htotal, hlist, startList_shares, tally_eq]
    exact wrap32_eq ⟨by omega, hfits⟩
  · rw [happlied, List.count_nil]
    exact zero_le_one.trans (le_max_left _ _)
  · rw [hlist, startList_shares]
    exact hfits
  · rw [hlist, happlied]
    exact startList_listed hpos

/-- Without tables of modifiers nothing is applied. -/
theorem applyAll_of_none (hnone : sys.modTable = []) (tables : List ValidTable) (curMods : Int)
    (mModString : Text) :
    applyAll sys numbers level rarity tables curMods mModString = pure (curMods, mModString) := by
  induction tables generalizing curMods with
  | nil => rfl
  | cons table tables ih =>
      rw [applyAll, applyModTable, ModSystem.getModTable, hnone]
      change applyAll sys numbers level rarity tables (curMods + 0) mModString = _
      rw [add_zero]
      exact ih curMods

/-- The loop is entered with the tables of every template. -/
theorem exists_enters (eqTemplate : EquipTemplate) :
    ∃ s, Enters { modTable := [], rarityConfig := [{}] } lowest 0 0 eqTemplate [] 0 s := by
  have hbonus : toInt (Single.round ((0 : ℚ) * Single.round ((0 : Int) : ℚ))) = some 0 := by
    rw [zero_mul, Single.round_zero]
    rfl
  refine Option.isSome_iff_exists.mp ?_
  simp only [startLoop, applyAll_of_none]
  change Option.isSome ((StateT.lift (toInt (Single.round ((0 : ℚ) *
    Single.round ((0 : Int) : ℚ)))) 0).bind _) = true
  rw [hbonus]
  rfl

/-- In every run the total follows the list and no table is applied too often, exactly when the sum
of all shares fits into the total. -/
theorem kept_iff {eqTemplate : EquipTemplate}
    (hpos : ∀ table ∈ eqTemplate.randomTable, 1 ≤ table.shares) :
    (∀ sys numbers level rarity mModString k h s,
      Trace (Enters sys numbers level rarity eqTemplate mModString k) (fun _ _ => True)
        (step sys numbers level rarity) h s → Kept eqTemplate.randomTable s.1) ↔
      (eqTemplate.randomTable.map ValidTable.shares).sum < 2 ^ 31 := by
  constructor
  · intro hkept
    obtain ⟨s, hs⟩ := exists_enters eqTemplate
    have htotal := (hkept _ _ _ _ _ _ _ s (.start hs)).total
    obtain ⟨hlist, hshares, -⟩ := startLoop_spec _ _ _ _ eqTemplate [] 0 s.1 s.2 hs
    rw [hlist, startList_shares, hshares, tally_eq] at htotal
    have hlt := Int.bmod_lt (x := (eqTemplate.randomTable.map ValidTable.shares).sum)
      (m := 2 ^ (31 + 1)) (by norm_num)
    rw [htotal] at hlt
    exact hlt
  · intro hfits sys numbers level rarity mModString k h s run
    have hinv : LoopInv eqTemplate.randomTable s.1 := by
      refine @Trace.invariant _ _ _ _ _ (fun _ s => LoopInv eqTemplate.randomTable s.1) ?_ ?_
        _ _ run
      · exact fun s hs => hs.inv hpos hfits
      · exact fun _ _ _ _ hinv _ hs => hinv.turn (step_turn hs)
    exact hinv.kept

/-- The loop ends: its run is not longer than what `rounds` says of the state at its start. -/
theorem length_run_le {eqTemplate : EquipTemplate} {mModString : Text} {k : Nat} {s₀ : Loop × Nat}
    (h₀ : Enters sys numbers level rarity eqTemplate mModString k s₀) {h s}
    (run : Trace (Enters sys numbers level rarity eqTemplate mModString k) (fun _ _ => True)
      (step sys numbers level rarity) h s) : h.length ≤ s₀.1.rounds := by
  have hlength := @Trace.length_add_le _ _ _ _ _ (fun s : Loop × Nat => s.1.rounds) s₀.1.rounds
    (fun s hs => (congrArg (fun s : Loop × Nat => s.1.rounds)
      (Option.some.inj (hs.symm.trans h₀))).le)
    (fun _ _ _ _ hs => (step_turn hs).rounds_lt) _ _ run
  exact (Nat.le_add_right _ _).trans hlength

end Runs

/-! ### Fair tables and runs -/

theorem tableIndex_fair_iff {tableList : List UsedTable}
    (hpos : ∀ share ∈ tableList.map UsedTable.shares, 1 ≤ share)
    (hcore : ∀ used ∈ tableList, used.table.core = false) :
    FairDraw (tableList.map UsedTable.shares) (tally 31 (tableList.map UsedTable.shares)) id
        (getRandomTableIndex · tableList (tally 31 (tableList.map UsedTable.shares))) ↔
      (tableList.map UsedTable.shares).sum < 2 ^ 31 :=
  @fairDraw_tally_iff _ _ _ _ 31 le_rfl hpos fun numbers k hle => by
    have hnone : tableList.findIdx? (·.table.core) = none :=
      List.findIdx?_eq_none_iff.mpr hcore
    rw [getRandomTableIndex, hnone]
    change (randInt numbers 1 _ k).bind _ = _
    rw [randInt, if_pos hle]
    rfl

/-- The four tables are fair, and the loop over the tables of a template keeps its total, exactly
when the sums fit into the variables, and `maxShares` of a package of spawns is the sum. The loop
always ends. -/
theorem shareTables_iff {equip : EquipTable} (hequip : ∀ share ∈ equip.shares, 1 ≤ share)
    {names : NameTemplate} (hnames : ∀ share ∈ names.shares, 1 ≤ share)
    {tableList : List UsedTable} (htables : ∀ share ∈ tableList.map UsedTable.shares, 1 ≤ share)
    (hcore : ∀ used ∈ tableList, used.table.core = false)
    {package : SpawnPackageDef} (hspawns : ∀ share ∈ package.shares, 1 ≤ share)
    (hdivide : package.divideLocation = 0) {spawnPoint : Option SpawnPoint}
    (hoverride : package.overrideOf spawnPoint = none)
    {eqTemplate : EquipTemplate} (hrandom : ∀ table ∈ eqTemplate.randomTable, 1 ≤ table.shares) :
    (FairDraw equip.shares equip.tallyMaxShares.maxShares
        (fun entry => entry.bind (equip.equipList[·]?)) equip.tallyMaxShares.getRandomEntry ↔
      equip.shares.sum < 2 ^ 31) ∧
    (FairDraw names.shares names.countShareTotal.maxShares
        (fun entry => entry.bind fun i => (names.nameList[i]?).map NameEntry.name)
        names.countShareTotal.getRandomName ↔ names.shares.sum < 2 ^ 15) ∧
    (FairDraw (tableList.map UsedTable.shares) (tally 31 (tableList.map UsedTable.shares)) id
        (getRandomTableIndex · tableList (tally 31 (tableList.map UsedTable.shares))) ↔
      (tableList.map UsedTable.shares).sum < 2 ^ 31) ∧
    (FairDraw package.shares package.maxShares package.creatureOf
        (package.getRandomSpawn · spawnPoint) ↔ package.shares.sum = max package.maxShares 0) ∧
    ((∀ sys numbers level rarity mModString k h s,
      Trace (Enters sys numbers level rarity eqTemplate mModString k) (fun _ _ => True)
        (step sys numbers level rarity) h s → Kept eqTemplate.randomTable s.1) ↔
      (eqTemplate.randomTable.map ValidTable.shares).sum < 2 ^ 31) ∧
    ∀ sys numbers level rarity mModString k s₀,
      Enters sys numbers level rarity eqTemplate mModString k s₀ → ∀ h s,
      Trace (Enters sys numbers level rarity eqTemplate mModString k) (fun _ _ => True)
        (step sys numbers level rarity) h s → h.length ≤ s₀.1.rounds :=
  ⟨EquipTable.fair_iff hequip, NameTemplate.fair_iff hnames, tableIndex_fair_iff htables hcore,
    SpawnPackageDef.fair_iff hspawns hdivide hoverride, kept_iff hrandom,
    fun _ _ _ _ _ _ _ h₀ _ _ run => length_run_le h₀ run⟩

/-- A ring and two helmets for every three boots, one name, a package of two spawns that share a
hundred, and a template with one table. -/
theorem shareTables_iff_small :
    let equip : EquipTable := { equipList := [⟨17, 0, 1⟩, ⟨8, 0, 2⟩, ⟨16, 0, 3⟩] }
    let names : NameTemplate := { nameList := [⟨['x'], 20⟩] }
    let tables : List UsedTable := [{ table := { shares := 5 }, place := 0 }]
    let package : SpawnPackageDef := { spawns := [(7, 60), (8, 40)], spawnCount_le := by decide }
    let template : EquipTemplate := { randomTable := [{ shares := 5 }] }
    FairDraw equip.shares equip.tallyMaxShares.maxShares
        (fun entry => entry.bind (equip.equipList[·]?)) equip.tallyMaxShares.getRandomEntry ∧
      FairDraw names.shares names.countShareTotal.maxShares
        (fun entry => entry.bind fun i => (names.nameList[i]?).map NameEntry.name)
        names.countShareTotal.getRandomName ∧
      FairDraw (tables.map UsedTable.shares) (tally 31 (tables.map UsedTable.shares)) id
        (getRandomTableIndex · tables (tally 31 (tables.map UsedTable.shares))) ∧
      FairDraw package.shares package.maxShares package.creatureOf
        (package.getRandomSpawn · none) ∧
      ∀ sys numbers level rarity mModString k s₀,
        Enters sys numbers level rarity template mModString k s₀ → ∀ h s,
        Trace (Enters sys numbers level rarity template mModString k) (fun _ _ => True)
          (step sys numbers level rarity) h s →
        Kept template.randomTable s.1 ∧ h.length ≤ s₀.1.rounds := by
  intro equip names tables package template
  have h := @shareTables_iff equip (by decide) names (by decide) tables (by decide) (by decide)
    package (by decide) rfl none rfl template (by decide)
  obtain ⟨hequip, hnames, htables, hspawns, hkept, hends⟩ := h
  refine ⟨hequip.mpr (by decide), hnames.mpr (by decide), htables.mpr (by decide),
    hspawns.mpr (by decide), ?_⟩
  intro sys numbers level rarity mModString k s₀ h₀ h s run
  exact ⟨hkept.mpr (by decide) _ _ _ _ _ _ _ _ run, hends _ _ _ _ _ _ _ h₀ _ _ run⟩

/-- 129 names of 255 shares each: their sum does not fit into a `short`. -/
def longNames : NameTemplate := { nameList := List.replicate 129 ⟨['x'], 255⟩ }

theorem longNames_unfair :
    ¬FairDraw longNames.shares longNames.countShareTotal.maxShares
      (fun entry => entry.bind fun i => (longNames.nameList[i]?).map NameEntry.name)
      longNames.countShareTotal.getRandomName := by
  have hshares : longNames.shares = List.replicate 129 255 := by
    rw [NameTemplate.shares, longNames, List.map_replicate]
    rfl
  have hpos : ∀ share ∈ longNames.shares, 1 ≤ share := by
    rw [hshares]
    intro share hshare
    rw [List.eq_of_mem_replicate hshare]
    norm_num
  rw [NameTemplate.fair_iff hpos, hshares, List.sum_replicate]
  norm_num

end Iceee.VirtualItem
