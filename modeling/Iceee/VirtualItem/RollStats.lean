import Iceee.Lib.Draw
import Iceee.Lib.Machine
import Iceee.Lib.Single
import Iceee.Lib.Text

/-!
# Rolling the core stats

`RollStats` gives a number of points away to the five core stats. Every round draws an amount and one
of the stats that are left; the last round that `statMax` allows gives away what is left.

## Main result

* `rollStats_iff`: when all points are given away.

## Implementation notes

A `float` is a rational number. To convert one that is out of the range of the integers has no
result, and neither has a draw between bounds in the wrong order.
-/

namespace Iceee.VirtualItem

open Lib Draw

/-! ### The configuration of a rarity -/

/-- `RarityConfig`. -/
structure RarityConfig where
  mQualityLevel : Int := 0
  level : Int := 0
  chance : Int := 0
  statMax : Int := 0
  modMax : Int := 0
  levelBonus : ℚ := 0
  rollMin : ℚ := 0
  rollMax : ℚ := 0
  nullMod : Int := 0
  statPointMult : ℚ := 0

/-- `Util::ClipInt`. -/
def clipInt (value min max : Int) : Int :=
  if value < min then min else if max < value then max else value

/-- A `float` as an `int`. -/
def toInt (x : ℚ) : Option Int := if InInt32 (trunc x) then some (trunc x) else none

/-- `(int)((float)numPoints * fraction)`. -/
def scale (numPoints : Int) (fraction : ℚ) : Option Int :=
  toInt (Single.round (Single.round numPoints * fraction))

/-- `0.001F`. -/
def tiny : ℚ := Single.round (1 / 1000)

namespace RarityConfig

variable (cfg : RarityConfig) (numPoints : Int)

/-- `GetMinRoll`. -/
def getMinRoll : Option Int :=
  if cfg.rollMin ≤ tiny then some 1
  else (scale numPoints cfg.rollMin).map fun retAmount => clipInt retAmount 1 numPoints

/-- `GetMaxRoll`. -/
def getMaxRoll : Option Int :=
  if cfg.rollMax ≤ tiny then some numPoints
  else (scale numPoints cfg.rollMax).map fun retAmount => clipInt retAmount 1 numPoints

/-- `GetAdjustedCorePoints`. -/
def getAdjustedCorePoints : Option Int :=
  if cfg.statPointMult ≤ tiny then some numPoints else scale numPoints cfg.statPointMult

end RarityConfig

/-! ### The rolls -/

/-- `AppendStat`. -/
def appendStat (output name : Text) (value : Int) : Text :=
  output ++ (if output = [] then [] else ['&']) ++ name ++ ['='] ++ printInt value

def coreStats : List Text :=
  ["strength".toList, "dexterity".toList, "constitution".toList, "psyche".toList, "spirit".toList]

section Rolling

variable (numbers : RandomNumbers) (rollMin rollMax maxIter : Int)

/-- The loop of `RollStats`, with a bound for the number of its rounds. Every round takes a stat out
of `statID`. -/
def rollLoop : Nat → List Text → Int → Int → Text → Draw (Int × Text)
  | 0, _, _, _, _ => fun _ => none
  | rounds + 1, statID, remain, iterCount, output =>
      if remain ≤ 0 then pure (iterCount, output)
      else do
        let allocPts ← randInt numbers rollMin rollMax
        let allocPts := if maxIter ≤ iterCount + 1 then remain else min allocPts remain
        -- for no stats the upper bound is -1
        let allocSt ← randInt numbers 0 (statID.length - 1)
        let stat ← index statID allocSt
        rollLoop rounds (statID.eraseIdx allocSt.toNat) (remain - allocPts) (iterCount + 1)
          (appendStat output stat allocPts)

end Rolling

/-- `RollStats`: how many stats got points, and the text with them. -/
def rollStats (numbers : RandomNumbers) (cfg : RarityConfig) (output : Text) (numPoints : Int) :
    Draw (Int × Text) := do
  let rollMin ← StateT.lift (cfg.getMinRoll numPoints)
  let rollMax ← StateT.lift (cfg.getMaxRoll numPoints)
  rollLoop numbers rollMin rollMax cfg.statMax (coreStats.length + 1) coreStats numPoints 0 output

/-! ### What is rolled -/

/-- The text with more stats. -/
def appendStats (output : Text) (rolled : List (Text × Int)) : Text :=
  rolled.foldl (fun output stat => appendStat output stat.1 stat.2) output

/-- The points are given away to different stats out of a list, not too many of them. -/
structure Rolled (statID : List Text) (most numPoints : Int) (rolled : List (Text × Int)) : Prop where
  distinct : (rolled.map Prod.fst).Nodup
  stats : ∀ stat ∈ rolled, stat.1 ∈ statID
  amounts : ∀ stat ∈ rolled, 1 ≤ stat.2
  few : rolled.length ≤ max 1 most
  exact : (rolled.map Prod.snd).sum = numPoints

/-- The amounts that the next rounds draw. -/
def drawn (numbers : RandomNumbers) (rollMin rollMax : Int) (rounds k : Nat) : Int :=
  ((List.range rounds).map fun j => numbers.answer (k + 2 * j) rollMin rollMax).sum

theorem drawn_succ (numbers : RandomNumbers) (rollMin rollMax : Int) (rounds k : Nat) :
    drawn numbers rollMin rollMax (rounds + 1) k =
      numbers.answer k rollMin rollMax + drawn numbers rollMin rollMax rounds (k + 2) := by
  rw [drawn, List.range_succ_eq_map, List.map_cons, List.sum_cons, List.map_map, drawn]
  congr 2
  refine List.map_congr_left fun j _ => ?_
  change numbers.answer (k + 2 * (j + 1)) rollMin rollMax = _
  rw [Nat.mul_succ, Nat.add_comm (2 * j), Nat.add_assoc]

section Loop

variable {numbers : RandomNumbers} {rollMin rollMax maxIter : Int}

/-- The amount of a round. -/
def allocated (maxIter iterCount remain drawn : Int) : Int :=
  if maxIter ≤ iterCount + 1 then remain else min drawn remain

variable (numbers maxIter) in
/-- A round with stats left takes one of them. -/
theorem exists_rollLoop_succ (hle : rollMin ≤ rollMax) {statID : List Text} (hne : statID ≠ [])
    {remain : Int} (hremain : 0 < remain) (rounds : Nat) (iterCount : Int) (output : Text) (k : Nat) :
    ∃ (i : Nat) (stat : Text), statID[i]? = some stat ∧
      rollLoop numbers rollMin rollMax maxIter (rounds + 1) statID remain iterCount output k =
        rollLoop numbers rollMin rollMax maxIter rounds (statID.eraseIdx i)
          (remain - allocated maxIter iterCount remain (numbers.answer k rollMin rollMax))
          (iterCount + 1) (appendStat output stat
            (allocated maxIter iterCount remain (numbers.answer k rollMin rollMax))) (k + 2) := by
  have hlength : 0 < statID.length := List.length_pos_of_ne_nil hne
  have hbounds : (0 : Int) ≤ statID.length - 1 := by omega
  obtain ⟨hlow, hhigh⟩ := numbers.bounds (k + 1) 0 (statID.length - 1) hbounds
  have hlt : (numbers.answer (k + 1) 0 (statID.length - 1)).toNat < statID.length := by omega
  refine ⟨_, _, List.getElem?_eq_getElem hlt, ?_⟩
  rw [rollLoop, if_neg (not_le.mpr hremain)]
  change (randInt numbers rollMin rollMax k).bind _ = _
  rw [randInt, if_pos hle]
  change (randInt numbers 0 (statID.length - 1) (k + 1)).bind _ = _
  rw [randInt, if_pos hbounds]
  change (index statID (numbers.answer (k + 1) 0 (statID.length - 1)) (k + 2)).bind _ = _
  rw [index, if_pos hlow, List.getElem?_eq_getElem hlt]
  rfl

/-- A round without a stat left has no result. -/
theorem rollLoop_nil (hle : rollMin ≤ rollMax) {remain : Int} (hremain : 0 < remain)
    (rounds : Nat) (iterCount : Int) (output : Text) (k : Nat) :
    rollLoop numbers rollMin rollMax maxIter (rounds + 1) [] remain iterCount output k = none := by
  rw [rollLoop, if_neg (not_le.mpr hremain)]
  change (randInt numbers rollMin rollMax k).bind _ = _
  rw [randInt, if_pos hle]
  rfl

theorem rollLoop_done (rounds : Nat) (statID : List Text) {remain : Int} (hremain : remain ≤ 0)
    (iterCount : Int) (output : Text) (k : Nat) :
    rollLoop numbers rollMin rollMax maxIter (rounds + 1) statID remain iterCount output k =
      some ((iterCount, output), k) := by
  rw [rollLoop, if_pos hremain]
  rfl

/-- The points that are left can be given away: by what the rounds draw for the stats, or because one
of them is the last one. -/
def Suffices (numbers : RandomNumbers) (rollMin rollMax maxIter : Int) (stats : Nat)
    (remain iterCount : Int) (k : Nat) : Prop :=
  remain ≤ drawn numbers rollMin rollMax stats k ∨ 0 < stats ∧ maxIter ≤ iterCount + stats

variable (numbers) in
theorem drawn_nonneg (hlow : 1 ≤ rollMin) (hle : rollMin ≤ rollMax) (stats k : Nat) :
    0 ≤ drawn numbers rollMin rollMax stats k := by
  refine List.sum_nonneg fun x hx => ?_
  obtain ⟨j, -, rfl⟩ := List.mem_map.mp hx
  exact (zero_le_one.trans hlow).trans (numbers.bounds _ _ _ hle).1

/-- A round leaves points that can be given away exactly where it found such. -/
theorem suffices_succ (hlow : 1 ≤ rollMin) (hle : rollMin ≤ rollMax) {stats k : Nat}
    {remain iterCount : Int} :
    Suffices numbers rollMin rollMax maxIter stats
        (remain - allocated maxIter iterCount remain (numbers.answer k rollMin rollMax))
        (iterCount + 1) (k + 2) ↔
      Suffices numbers rollMin rollMax maxIter (stats + 1) remain iterCount k := by
  have hnonneg := drawn_nonneg numbers hlow hle stats (k + 2)
  have hdrawn := (numbers.bounds k rollMin rollMax hle).1
  rw [Suffices, Suffices, drawn_succ, allocated]
  push_cast
  split
  · next hlast =>
      exact iff_of_true (.inl (by rw [sub_self]; exact hnonneg)) (.inr ⟨by omega, by omega⟩)
  · next hmore =>
      rcases Nat.eq_zero_or_pos stats with rfl | hstats
      · simp only [drawn, List.range_zero, List.map_nil, List.sum_nil]
        omega
      · omega

theorem not_suffices_zero {remain iterCount : Int} {k : Nat} :
    Suffices numbers rollMin rollMax maxIter 0 remain iterCount k ↔ remain ≤ 0 := by
  simp [Suffices, drawn]

/-- Where the points cannot be given away, the loop has no result. -/
theorem rollLoop_eq_none (hlow : 1 ≤ rollMin) (hle : rollMin ≤ rollMax) {statID : List Text}
    {remain iterCount : Int} {output : Text} {k : Nat}
    (h : ¬Suffices numbers rollMin rollMax maxIter statID.length remain iterCount k) :
    rollLoop numbers rollMin rollMax maxIter (statID.length + 1) statID remain iterCount output k =
      none := by
  generalize hn : statID.length = n at h ⊢
  induction n generalizing statID remain iterCount output k with
  | zero =>
      obtain rfl := List.length_eq_zero_iff.mp hn
      rw [not_suffices_zero, not_le] at h
      exact rollLoop_nil hle h 0 iterCount output k
  | succ n ih =>
      have hne : statID ≠ [] := List.ne_nil_of_length_eq_add_one hn
      have hremain : 0 < remain := by
        by_contra hdone
        exact h (.inl ((not_lt.mp hdone).trans (drawn_nonneg numbers hlow hle _ k)))
      obtain ⟨i, stat, hstat, hround⟩ :=
        exists_rollLoop_succ numbers maxIter hle hne hremain (n + 1)
          iterCount output k
      have hlt := (List.getElem?_eq_some_iff.mp hstat).1
      rw [hround]
      refine ih ?_ fun hrest => h ((suffices_succ hlow hle).mp hrest)
      rw [List.length_eraseIdx_of_lt hlt, hn]
      rfl

/-- The amount of a round is at least 1 and not more than what is left. -/
theorem allocated_bounds (hlow : 1 ≤ rollMin) (hle : rollMin ≤ rollMax) {remain : Int}
    (hremain : 0 < remain) (iterCount : Int) (k : Nat) :
    1 ≤ allocated maxIter iterCount remain (numbers.answer k rollMin rollMax) ∧
      allocated maxIter iterCount remain (numbers.answer k rollMin rollMax) ≤ remain := by
  have hdrawn := (numbers.bounds k rollMin rollMax hle).1
  rw [allocated]
  split <;> omega

/-- What a round takes out of a list of different stats is not in the rest. -/
theorem Rolled.cons {statID : List Text} {i : Nat} {stat : Text} (hnodup : statID.Nodup)
    (hstat : statID[i]? = some stat) {most amount numPoints : Int} {rolled : List (Text × Int)}
    (h : Rolled (statID.eraseIdx i) most numPoints rolled) (hamount : 1 ≤ amount)
    {most' : Int} (hfew : (rolled.length : Int) + 1 ≤ max 1 most') :
    Rolled statID most' (amount + numPoints) ((stat, amount) :: rolled) := by
  obtain ⟨hlt, hget⟩ := List.getElem?_eq_some_iff.mp hstat
  have hfresh : stat ∉ statID.eraseIdx i := by
    have hperm := (List.getElem_cons_eraseIdx_perm hlt).nodup_iff.mpr hnodup
    rw [hget] at hperm
    exact (List.nodup_cons.mp hperm).1
  refine ⟨?_, ?_, ?_, ?_, ?_⟩
  · rw [List.map_cons, List.nodup_cons]
    refine ⟨fun hmem => ?_, h.distinct⟩
    obtain ⟨other, hother, hname⟩ := List.mem_map.mp hmem
    have hrest := h.stats other hother
    rw [hname] at hrest
    exact hfresh hrest
  · refine List.forall_mem_cons.mpr ⟨List.mem_of_getElem? hstat, fun other hother => ?_⟩
    exact List.mem_of_mem_eraseIdx (h.stats other hother)
  · exact List.forall_mem_cons.mpr ⟨hamount, h.amounts⟩
  · rw [List.length_cons]
    push_cast
    exact hfew
  · rw [List.map_cons, List.sum_cons, h.exact]

/-- Where the points can be given away, the loop gives them away. -/
theorem exists_rollLoop (hlow : 1 ≤ rollMin) (hle : rollMin ≤ rollMax) {statID : List Text}
    (hnodup : statID.Nodup) {remain iterCount : Int} (hremain : 0 ≤ remain) {output : Text} {k : Nat}
    (h : Suffices numbers rollMin rollMax maxIter statID.length remain iterCount k) :
    ∃ rolled k', rollLoop numbers rollMin rollMax maxIter (statID.length + 1) statID remain
        iterCount output k = some ((iterCount + rolled.length, appendStats output rolled), k') ∧
      Rolled statID (maxIter - iterCount) remain rolled ∧ (remain = 0 → rolled = []) := by
  generalize hn : statID.length = n at h ⊢
  induction n generalizing statID remain iterCount output k with
  | zero =>
      obtain rfl : remain = 0 := le_antisymm (not_suffices_zero.mp h) hremain
      refine ⟨[], k, ?_, ⟨List.nodup_nil, by simp, by simp, by simp, rfl⟩, fun _ => rfl⟩
      rw [rollLoop_done 0 statID le_rfl, List.length_nil, Nat.cast_zero, add_zero]
      rfl
  | succ n ih =>
      rcases hremain.eq_or_lt with rfl | hpos
      · refine ⟨[], k, ?_, ⟨List.nodup_nil, by simp, by simp, by simp, rfl⟩, fun _ => rfl⟩
        rw [rollLoop_done (n + 1) statID le_rfl, List.length_nil, Nat.cast_zero, add_zero]
        rfl
      · have hne : statID ≠ [] := List.ne_nil_of_length_eq_add_one hn
        obtain ⟨i, stat, hstat, hround⟩ :=
          exists_rollLoop_succ numbers maxIter hle hne hpos (n + 1) iterCount output k
        have hlt := (List.getElem?_eq_some_iff.mp hstat).1
        obtain ⟨hamount, hamountle⟩ :=
          @allocated_bounds numbers rollMin rollMax maxIter hlow hle remain hpos iterCount k
        obtain ⟨rolled, k', hrun, hrolled, hdone⟩ :=
          @ih (statID.eraseIdx i) (hnodup.eraseIdx i)
            (remain - allocated maxIter iterCount remain (numbers.answer k rollMin rollMax))
            (iterCount + 1) (by omega) (appendStat output stat
              (allocated maxIter iterCount remain (numbers.answer k rollMin rollMax))) (k + 2)
            (by rw [List.length_eraseIdx_of_lt hlt, hn]; rfl) ((suffices_succ hlow hle).mpr h)
        refine ⟨(stat, allocated maxIter iterCount remain
          (numbers.answer k rollMin rollMax)) :: rolled, k', ?_, ?_, fun hzero => by omega⟩
        · rw [hround, hrun, List.length_cons, Nat.cast_succ, add_assoc, add_comm (1 : Int)]
          rfl
        · -- the last round that is allowed leaves nothing
          have hfew : (rolled.length : Int) + 1 ≤ max 1 (maxIter - iterCount) := by
            by_cases hlast : maxIter ≤ iterCount + 1
            · have hall : rolled = [] := hdone (by rw [allocated, if_pos hlast, sub_self])
              rw [hall]
              exact le_max_left _ _
            · have hrest := hrolled.few
              omega
          have hcons := hrolled.cons hnodup hstat hamount hfew
          rwa [add_sub_cancel] at hcons

end Loop

/-! ### The bounds of an amount -/

section Bounds

variable {cfg : RarityConfig} {numPoints rollMin rollMax : Int}

theorem tiny_nonneg : 0 ≤ tiny := Single.round_nonneg (by norm_num)

theorem one_le_clipInt (hpoints : 1 ≤ numPoints) (value : Int) : 1 ≤ clipInt value 1 numPoints := by
  rw [clipInt]
  split_ifs <;> omega

theorem clipInt_mono {value value' : Int} (h : value ≤ value') (hpoints : 1 ≤ numPoints) :
    clipInt value 1 numPoints ≤ clipInt value' 1 numPoints := by
  rw [clipInt, clipInt]
  split_ifs <;> omega

theorem one_le_getMinRoll (hpoints : 1 ≤ numPoints) (h : cfg.getMinRoll numPoints = some rollMin) :
    1 ≤ rollMin := by
  rw [RarityConfig.getMinRoll] at h
  split at h
  · cases h
    exact le_rfl
  · obtain ⟨value, -, rfl⟩ := Option.map_eq_some_iff.mp h
    exact one_le_clipInt hpoints value

theorem scale_mono (hpoints : 1 ≤ numPoints) {x y : ℚ} (hx : 0 < x) (hle : x ≤ y) {a b : Int}
    (ha : scale numPoints x = some a) (hb : scale numPoints y = some b) : a ≤ b := by
  have hround : 0 < Single.round numPoints := Single.round_pos (by exact_mod_cast hpoints)
  have hmul := mul_le_mul_of_nonneg_left hle hround.le
  have hmono := Single.round_mono (mul_pos hround hx) hmul
  have hnonneg := Single.round_nonneg (mul_pos hround hx).le
  rw [scale, toInt, Option.ite_none_right_eq_some] at ha hb
  obtain ⟨-, ha⟩ := ha
  obtain ⟨-, hb⟩ := hb
  rw [← Option.some.inj ha, ← Option.some.inj hb, trunc_of_nonneg hnonneg,
    trunc_of_nonneg (hnonneg.trans hmono)]
  exact Int.floor_le_floor hmono

theorem getMinRoll_le_getMaxRoll (hroll : cfg.rollMin ≤ cfg.rollMax) (hpoints : 1 ≤ numPoints)
    (hmin : cfg.getMinRoll numPoints = some rollMin)
    (hmax : cfg.getMaxRoll numPoints = some rollMax) : rollMin ≤ rollMax := by
  rw [RarityConfig.getMinRoll] at hmin
  rw [RarityConfig.getMaxRoll] at hmax
  split at hmin
  · cases hmin
    split at hmax
    · cases hmax
      exact hpoints
    · obtain ⟨value, -, rfl⟩ := Option.map_eq_some_iff.mp hmax
      exact one_le_clipInt hpoints value
  · next htiny =>
      rw [if_neg fun hmaxTiny => htiny (hroll.trans hmaxTiny)] at hmax
      obtain ⟨value, hvalue, rfl⟩ := Option.map_eq_some_iff.mp hmin
      obtain ⟨value', hvalue', rfl⟩ := Option.map_eq_some_iff.mp hmax
      have hpos : 0 < cfg.rollMin := tiny_nonneg.trans_lt (not_le.mp htiny)
      exact clipInt_mono (scale_mono hpoints hpos hroll hvalue hvalue') hpoints

end Bounds

/-! ### When all points are given away -/

/-- The bounds of an amount can be computed, and there are no more than five stats to give points to,
or the first five amounts that are drawn suffice. -/
def RarityConfig.CanRoll (cfg : RarityConfig) (numbers : RandomNumbers) (numPoints : Int) (k : Nat) :
    Prop :=
  ∃ rollMin rollMax, cfg.getMinRoll numPoints = some rollMin ∧
    cfg.getMaxRoll numPoints = some rollMax ∧
    (cfg.statMax ≤ 5 ∨ numPoints ≤ drawn numbers rollMin rollMax 5 k)

theorem rollStats_run {numbers : RandomNumbers} {cfg : RarityConfig} {output : Text}
    {numPoints rollMin rollMax : Int} (hmin : cfg.getMinRoll numPoints = some rollMin)
    (hmax : cfg.getMaxRoll numPoints = some rollMax) (k : Nat) :
    (rollStats numbers cfg output numPoints).run k =
      rollLoop numbers rollMin rollMax cfg.statMax (coreStats.length + 1) coreStats numPoints 0 output
        k := by
  rw [rollStats, hmin, hmax]
  rfl

/-- `RollStats` gives all points away, whatever was drawn before, exactly when it can. -/
theorem rollStats_iff (numbers : RandomNumbers) (cfg : RarityConfig) (output : Text) {numPoints : Int}
    (hpoints : 1 ≤ numPoints) (hroll : cfg.rollMin ≤ cfg.rollMax) (k : Nat) :
    (∃ rolled k', (rollStats numbers cfg output numPoints).run k =
        some (((rolled.length : Int), appendStats output rolled), k') ∧
      Rolled coreStats cfg.statMax numPoints rolled) ↔ cfg.CanRoll numbers numPoints k := by
  cases hmin : cfg.getMinRoll numPoints with
  | none =>
      refine iff_of_false ?_ fun ⟨_, _, hmin', _⟩ => by rw [hmin] at hmin'; cases hmin'
      rintro ⟨rolled, k', hrun, -⟩
      rw [rollStats, hmin] at hrun
      cases hrun
  | some rollMin =>
      cases hmax : cfg.getMaxRoll numPoints with
      | none =>
          refine iff_of_false ?_ fun ⟨_, _, _, hmax', _⟩ => by rw [hmax] at hmax'; cases hmax'
          rintro ⟨rolled, k', hrun, -⟩
          rw [rollStats, hmin, hmax] at hrun
          cases hrun
      | some rollMax =>
          have hlow := one_le_getMinRoll hpoints hmin
          have hle := getMinRoll_le_getMaxRoll hroll hpoints hmin hmax
          have hcan : cfg.CanRoll numbers numPoints k ↔
              Suffices numbers rollMin rollMax cfg.statMax coreStats.length numPoints 0 k := by
            have hfive : Suffices numbers rollMin rollMax cfg.statMax coreStats.length numPoints 0 k ↔
                cfg.statMax ≤ 5 ∨ numPoints ≤ drawn numbers rollMin rollMax 5 k := by
              change numPoints ≤ drawn numbers rollMin rollMax 5 k ∨ 0 < 5 ∧ cfg.statMax ≤ 0 + 5 ↔ _
              rw [zero_add, or_comm, and_iff_right (by norm_num)]
            rw [hfive]
            refine ⟨?_, fun h => ⟨rollMin, rollMax, hmin, hmax, h⟩⟩
            rintro ⟨_, _, hmin', hmax', h⟩
            obtain rfl := Option.some.inj (hmin.symm.trans hmin')
            obtain rfl := Option.some.inj (hmax.symm.trans hmax')
            exact h
          rw [rollStats_run hmin hmax, hcan]
          constructor
          · rintro ⟨rolled, k', hrun, -⟩
            by_contra hnot
            rw [rollLoop_eq_none hlow hle hnot] at hrun
            cases hrun
          · intro hsuffices
            obtain ⟨rolled, k', hrun, hrolled, -⟩ :=
              @exists_rollLoop numbers rollMin rollMax cfg.statMax hlow hle coreStats (by decide)
                numPoints 0 (by omega) output k hsuffices
            rw [zero_add] at hrun
            rw [sub_zero] at hrolled
            exact ⟨rolled, k', hrun, hrolled⟩

theorem lowest_bounds (_k : Nat) (min max : Int) (h : min ≤ max) : min ≤ min ∧ min ≤ max :=
  ⟨le_rfl, h⟩

/-- The source that always answers with the lower bound. -/
def lowest : RandomNumbers where
  answer := fun _ min _ => min
  bounds := lowest_bounds

theorem drawn_lowest (rollMin rollMax : Int) (k : Nat) :
    drawn lowest rollMin rollMax 5 k = 5 * rollMin := by
  change rollMin + (rollMin + (rollMin + (rollMin + (rollMin + 0)))) = _
  ring

theorem rollStats_iff_five :
    ∃ rolled k', (rollStats lowest { statMax := 5 } [] 6).run 0 =
        some (((rolled.length : Int), appendStats [] rolled), k') ∧ Rolled coreStats 5 6 rolled :=
  (rollStats_iff lowest { statMax := 5 } [] (by decide) le_rfl 0).mpr
    ⟨1, 6, if_pos tiny_nonneg, if_pos tiny_nonneg, .inl (by decide)⟩

/-- Six points for six stats, one each: after five of them no stat is left. -/
theorem six_points_stuck : (rollStats lowest { statMax := 6 } [] 6).run 0 = none := by
  have hmin : RarityConfig.getMinRoll { statMax := 6 } 6 = some 1 := if_pos tiny_nonneg
  have hmax : RarityConfig.getMaxRoll { statMax := 6 } 6 = some 6 := if_pos tiny_nonneg
  rw [rollStats_run hmin hmax]
  refine rollLoop_eq_none le_rfl (by decide) ?_
  rw [Suffices, show coreStats.length = 5 from rfl, drawn_lowest]
  decide

end Iceee.VirtualItem
