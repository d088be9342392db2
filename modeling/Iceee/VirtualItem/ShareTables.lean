import Iceee.Lib.Draw
import Iceee.Lib.Machine
import Iceee.Lib.Shares
import Iceee.Lib.Text

/-!
# Tables with shares

Types of equipment, names and spawns are rolled from tables in which every entry has shares. The
roll is compared with the running total of the shares. The two tables of items add their shares up in
`maxShares`; a spawn package takes it from its file.

## Main results

* `EquipTable.fair_iff`, `NameTemplate.fair_iff`, `SpawnPackageDef.fair_iff`: the tables that are
  fair.

## Implementation notes

An entry is told by its index. Integers wrap around.
-/

namespace Iceee.VirtualItem

open Lib Draw

/-- The loop over the shares, from an index on: the entry whose test the roll passes. -/
def scan (within : Int → Int → Int → Bool) : List Int → Int → Int → Option Nat
  | [], _, _ => none
  | share :: shares, base, rnd =>
      if base ≤ rnd ∧ within rnd base share = true then some 0
      else (scan within shares (wrap32 (base + share)) rnd).map Nat.succ

/-- `rnd <= base + shares - 1` -/
def upTo (rnd base shares : Int) : Bool := rnd ≤ wrap32 (wrap32 (base + shares) - 1)

/-- `rcheck < base + spawnShare[a]` -/
def below (rcheck base spawnShare : Int) : Bool := rcheck < wrap32 (base + spawnShare)

/-- A `short`. -/
def wrap16 (x : Int) : Int := x.bmod (2 ^ 16)

/-! ### Types of equipment -/

structure VirtualItemSpawnType where
  mEquipType : Int
  mWeaponType : Int
  shares : Int
  deriving DecidableEq, Repr

structure EquipTable where
  equipList : List VirtualItemSpawnType := []
  maxShares : Int := 0

namespace EquipTable

variable (t : EquipTable)

def shares : List Int := t.equipList.map VirtualItemSpawnType.shares

/-- `TallyMaxShares`. -/
def tallyMaxShares : EquipTable :=
  { t with maxShares := t.shares.foldl (fun maxShares share => wrap32 (maxShares + share)) 0 }

/-- The entry that a roll chooses. -/
def entryOf (rnd : Int) : Option Nat := scan upTo t.shares 1 rnd

/-- `GetRandomEntry`. -/
def getRandomEntry (numbers : RandomNumbers) : Draw (Option VirtualItemSpawnType) := do
  let rnd ← randInt numbers 1 t.maxShares
  pure ((t.entryOf rnd).bind fun i => t.equipList[i]?)

end EquipTable

/-! ### Names -/

structure NameEntry where
  name : Text
  shares : UInt8

structure NameTemplate where
  assetName : Text := []
  mEquipType : Int := 0
  mWeaponType : Int := 0
  nameList : List NameEntry := []
  maxShares : Int := 0

namespace NameTemplate

variable (t : NameTemplate)

def shares : List Int := t.nameList.map fun entry => (entry.shares.toNat : Int)

/-- `CountShareTotal`. -/
def countShareTotal : NameTemplate :=
  { t with maxShares := t.shares.foldl (fun maxShares share => wrap16 (maxShares + share)) 0 }

/-- The entry that a roll chooses. -/
def entryOf (r : Int) : Option Nat := scan upTo t.shares 1 r

/-- `GetRandomName`. -/
def getRandomName (numbers : RandomNumbers) : Draw (Option Text) := do
  let r ← randInt numbers 1 t.maxShares
  pure ((t.entryOf r).bind fun i => (t.nameList[i]?).map NameEntry.name)

end NameTemplate

/-! ### Spawns -/

/-- `MAX_SPAWNCOUNT`. -/
def MAX_SPAWNCOUNT : Nat := 12

/-- `DEFAULT_MAXSHARES`. -/
def DEFAULT_MAXSHARES : Int := 100

inductive Divider where
  | none
  | DIVIDER_VERTICAL
  | DIVIDER_HORIZONTAL
  deriving DecidableEq, Repr

/-- `SpawnPackageDef`: the creatures with their shares and the creatures of single points. -/
structure SpawnPackageDef where
  spawns : List (UInt16 × UInt16) := []
  maxShares : Int := DEFAULT_MAXSHARES
  divideOrient : Divider := .none
  divideLocation : Int := 0
  divideShareThreshold : Int := 0
  pointOverride : List (Int × Int) := []
  spawnCount_le : spawns.length ≤ MAX_SPAWNCOUNT

/-- A spawn point: the ID of the prop and its location without fractions. -/
structure SpawnPoint where
  id : Int
  locationX : Int
  locationZ : Int

namespace SpawnPackageDef

variable (p : SpawnPackageDef)

def shares : List Int := p.spawns.map fun spawn => (spawn.2.toNat : Int)

/-- The creature that a point has of its own. -/
def overrideOf (spawnPoint : Option SpawnPoint) : Option Int :=
  spawnPoint.bind fun point => (p.pointOverride.find? (·.1 = point.id)).map Prod.snd

/-- The bounds of the roll: a location divider leaves one part of the shares. -/
def rollBounds (spawnPoint : Option SpawnPoint) : Int × Int :=
  match spawnPoint with
  | some point =>
      if p.divideLocation = 0 then (1, p.maxShares)
      else
        let compareLoc :=
          match p.divideOrient with
          | .DIVIDER_HORIZONTAL => point.locationZ
          | .DIVIDER_VERTICAL => point.locationX
          | .none => 0
        if compareLoc < p.divideLocation then (1, p.divideShareThreshold)
        else (1 + p.divideShareThreshold, p.maxShares)
  | none => (1, p.maxShares)

/-- The entry that a roll chooses. -/
def entryOf (rcheck : Int) : Option Nat := scan below p.shares 1 rcheck

/-- The creature of an entry, or -1. -/
def creatureOf (entry : Option Nat) : Int :=
  ((entry.bind (p.spawns[·]?)).map fun spawn => (spawn.1.toNat : Int)).getD (-1)

/-- `GetRandomSpawn`. -/
def getRandomSpawn (numbers : RandomNumbers) (spawnPoint : Option SpawnPoint) : Draw Int :=
  match p.overrideOf spawnPoint with
  | some creature => pure creature
  | none => do
      let rcheck ← randInt numbers (p.rollBounds spawnPoint).1 (p.rollBounds spawnPoint).2
      pure (p.creatureOf (p.entryOf rcheck))

end SpawnPackageDef

/-! ### The scan -/

section Scan

variable {within : Int → Int → Int → Bool} {bound base rnd : Int} {shares : List Int}

/-- Where the total stays in the range that the test needs, the loop finds the interval of the
roll. -/
theorem scan_eq (hbound : bound ≤ 2 ^ 31)
    (hwithin : ∀ {rnd base share : Int}, 1 ≤ base → 1 ≤ share → base + share ≤ bound →
      (within rnd base share = true ↔ rnd < base + share))
    (hpos : ∀ share ∈ shares, 1 ≤ share) (hbase : 1 ≤ base) (hsum : base + shares.sum ≤ bound)
    (hrnd : base ≤ rnd) : scan within shares base rnd = shareAt shares (rnd - base + 1) := by
  induction shares generalizing base with
  | nil => rfl
  | cons share shares ih =>
      rw [List.forall_mem_cons] at hpos
      rw [List.sum_cons] at hsum
      have hnonneg := sum_nonneg_of_pos hpos.2
      have htest := @hwithin rnd base share hbase hpos.1 (by omega)
      rw [scan, shareAt]
      by_cases hlt : rnd < base + share
      · rw [if_pos ⟨hrnd, htest.mpr hlt⟩, if_pos (by omega)]
      · rw [if_neg fun h => hlt (htest.mp h.2), if_neg (by omega)]
        congr 1
        cases shares with
        | nil => rfl
        | cons next shares =>
            have hnext := hpos.2 next List.mem_cons_self
            have hrest := sum_nonneg_of_pos (List.forall_mem_cons.mp hpos.2).2
            have hsum' : (next :: shares).sum = next + shares.sum := List.sum_cons
            have hwrap : wrap32 (base + share) = base + share := wrap32_eq ⟨by omega, by omega⟩
            rw [hwrap, ih hpos.2 (by omega) (by omega) (by omega)]
            congr 1
            ring

theorem upTo_iff {share : Int} (hbase : 1 ≤ base) (hshare : 1 ≤ share)
    (hsum : base + share ≤ 2 ^ 31) : upTo rnd base share = true ↔ rnd < base + share := by
  rw [upTo, wrap32_sub_wrap32, wrap32_eq ⟨by omega, by omega⟩, decide_eq_true_iff]
  omega

theorem below_iff {share : Int} (hbase : 1 ≤ base) (hshare : 1 ≤ share)
    (hsum : base + share ≤ 2 ^ 31 - 1) : below rnd base share = true ↔ rnd < base + share := by
  rw [below, wrap32_eq ⟨by omega, by omega⟩, decide_eq_true_iff]

theorem fair_upTo (hpos : ∀ share ∈ shares, 1 ≤ share) (hsum : shares.sum < 2 ^ 31) :
    Fair shares shares.sum (scan upTo shares 1) :=
  (fair_shareAt hpos).congr fun r hlow _ => by
    rw [scan_eq le_rfl upTo_iff hpos le_rfl (by omega) hlow, sub_add_cancel]

theorem fair_below (hpos : ∀ share ∈ shares, 1 ≤ share) (hsum : shares.sum < 2 ^ 31 - 1) :
    Fair shares shares.sum (scan below shares 1) :=
  (fair_shareAt hpos).congr fun r hlow _ => by
    rw [scan_eq (by norm_num) below_iff hpos le_rfl (by omega) hlow, sub_add_cancel]

end Scan

/-! ### Fair tables -/

section FairTables

variable {β : Type} {shares : List Int} {maxRoll : Int} {result : Option Nat → β}
  {roll : RandomNumbers → Draw β}

/-- A function rolls one number up to `maxRoll`, and what it returns for the number is the result
for an entry that is chosen fairly. -/
def FairDraw (shares : List Int) (maxRoll : Int) (result : Option Nat → β)
    (roll : RandomNumbers → Draw β) : Prop :=
  ∃ select, Fair shares maxRoll select ∧ ∀ numbers k, 1 ≤ maxRoll →
    (roll numbers).run k = some (result (select (numbers.answer k 1 maxRoll)), k + 1)

theorem FairDraw.total (h : FairDraw shares maxRoll result roll) : shares.sum = max maxRoll 0 := by
  obtain ⟨select, hfair, -⟩ := h
  exact hfair.sum_eq

theorem fairDraw_of_total {select : Int → Option Nat} (hfair : Fair shares shares.sum select)
    (htotal : shares.sum = max maxRoll 0)
    (hroll : ∀ numbers k, 1 ≤ maxRoll →
      (roll numbers).run k = some (result (select (numbers.answer k 1 maxRoll)), k + 1)) :
    FairDraw shares maxRoll result roll :=
  ⟨select, fair_max_iff.mp (htotal ▸ hfair), hroll⟩

theorem foldl_bmod (m : Nat) (shares : List Int) (total : Int) :
    shares.foldl (fun total share => (total + share).bmod m) (total.bmod m) =
      (total + shares.sum).bmod m := by
  induction shares generalizing total with
  | nil => rw [List.foldl_nil, List.sum_nil, add_zero]
  | cons share shares ih => rw [List.foldl_cons, Int.bmod_add_bmod, ih, List.sum_cons, add_assoc]

/-- The total of the shares in a variable of some bits. -/
def tally (bits : Nat) (shares : List Int) : Int :=
  shares.foldl (fun total share => (total + share).bmod (2 ^ (bits + 1))) 0

theorem tally_eq (bits : Nat) (shares : List Int) :
    tally bits shares = shares.sum.bmod (2 ^ (bits + 1)) := by
  have htotal := foldl_bmod (2 ^ (bits + 1)) shares 0
  rwa [Int.zero_bmod, zero_add] at htotal

/-- The total in a variable is the sum of the shares exactly when that fits; otherwise it is
less. -/
theorem fairDraw_tally_iff {bits : Nat} (hbits : bits + 1 ≤ 32)
    (hpos : ∀ share ∈ shares, 1 ≤ share)
    (hroll : ∀ numbers k, 1 ≤ tally bits shares → (roll numbers).run k =
      some (result (scan upTo shares 1 (numbers.answer k 1 (tally bits shares))), k + 1)) :
    FairDraw shares (tally bits shares) result roll ↔ shares.sum < 2 ^ bits := by
  have hnonneg := sum_nonneg_of_pos hpos
  have hpow : (2 : Int) ^ (bits + 1) = 2 * 2 ^ bits := by ring
  have hone : (1 : Int) ≤ 2 ^ bits := one_le_pow₀ (by norm_num)
  constructor
  · intro h
    have hlt := Int.bmod_lt (x := shares.sum) (m := 2 ^ (bits + 1)) (by positivity)
    have htotal := h.total
    rw [tally_eq] at htotal
    push_cast at hlt
    omega
  · intro hfits
    have hle : (2 : Int) ^ bits ≤ 2 ^ 31 := pow_le_pow_right₀ (by norm_num) (by omega)
    refine fairDraw_of_total (fair_upTo hpos (by omega)) ?_ hroll
    rw [tally_eq, Int.bmod_eq_of_le (by push_cast; omega) (by push_cast; omega),
      max_eq_left hnonneg]

end FairTables

theorem EquipTable.fair_iff {t : EquipTable} (hpos : ∀ share ∈ t.shares, 1 ≤ share) :
    FairDraw t.shares t.tallyMaxShares.maxShares (fun entry => entry.bind (t.equipList[·]?))
        t.tallyMaxShares.getRandomEntry ↔ t.shares.sum < 2 ^ 31 :=
  @fairDraw_tally_iff _ _ _ _ 31 le_rfl hpos fun numbers k hle => by
    change (randInt numbers 1 (tally 31 t.shares) k).bind _ = _
    rw [randInt, if_pos hle]
    rfl

theorem NameTemplate.fair_iff {t : NameTemplate} (hpos : ∀ share ∈ t.shares, 1 ≤ share) :
    FairDraw t.shares t.countShareTotal.maxShares
        (fun entry => entry.bind fun i => (t.nameList[i]?).map NameEntry.name)
        t.countShareTotal.getRandomName ↔ t.shares.sum < 2 ^ 15 :=
  @fairDraw_tally_iff _ _ _ _ 15 (by norm_num) hpos fun numbers k hle => by
    change (randInt numbers 1 (tally 15 t.shares) k).bind _ = _
    rw [randInt, if_pos hle]
    rfl

namespace SpawnPackageDef

variable {p : SpawnPackageDef}

theorem sum_shares_lt (p : SpawnPackageDef) : p.shares.sum < 2 ^ 31 - 1 := by
  have hshare : ∀ share ∈ p.shares, share ≤ 65535 := by
    intro share hshare
    obtain ⟨spawn, -, rfl⟩ := List.mem_map.mp hshare
    have hlt := spawn.2.toNat_lt
    omega
  have hsum := List.sum_le_card_nsmul p.shares 65535 hshare
  have hlength : p.shares.length ≤ 12 := by
    rw [SpawnPackageDef.shares, List.length_map]
    exact p.spawnCount_le
  rw [nsmul_eq_mul] at hsum
  have hcast : (p.shares.length : Int) ≤ 12 := by exact_mod_cast hlength
  omega

/-- Without a divider the roll is up to `maxShares`. -/
theorem rollBounds_eq (h : p.divideLocation = 0) (spawnPoint : Option SpawnPoint) :
    p.rollBounds spawnPoint = (1, p.maxShares) := by
  cases spawnPoint with
  | none => rfl
  | some point => exact if_pos h

theorem getRandomSpawn_run (hdivide : p.divideLocation = 0) {spawnPoint : Option SpawnPoint}
    (hoverride : p.overrideOf spawnPoint = none) (numbers : RandomNumbers) (k : Nat)
    (hle : 1 ≤ p.maxShares) : (p.getRandomSpawn numbers spawnPoint).run k =
      some (p.creatureOf (p.entryOf (numbers.answer k 1 p.maxShares)), k + 1) := by
  rw [getRandomSpawn, hoverride, rollBounds_eq hdivide]
  change (randInt numbers 1 p.maxShares k).bind _ = _
  rw [randInt, if_pos hle]
  rfl

/-- Where no divider and no creature of its own takes a point away from the table, the spawns are
rolled fairly exactly when `maxShares` is the sum of the shares. -/
theorem fair_iff (hpos : ∀ share ∈ p.shares, 1 ≤ share) (hdivide : p.divideLocation = 0)
    {spawnPoint : Option SpawnPoint} (hoverride : p.overrideOf spawnPoint = none) :
    FairDraw p.shares p.maxShares p.creatureOf (p.getRandomSpawn · spawnPoint) ↔
      p.shares.sum = max p.maxShares 0 :=
  ⟨FairDraw.total, fun htotal => fairDraw_of_total (fair_below hpos p.sum_shares_lt) htotal
    (getRandomSpawn_run hdivide hoverride)⟩

end SpawnPackageDef

end Iceee.VirtualItem
