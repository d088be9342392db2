import Iceee.Buffs.Modifiers
import Iceee.Lib.Holding
import Iceee.Lib.Keyed
import Iceee.Lib.Trace

/-!
# The accounts of the modifiers

The totals and the reference counts agree with the list of modifiers, and a stat goes back to its
old value, as long as no modifier is added uncounted or replaced by one of another kind, nothing is
subtracted that no modifier gives, the entries are not cleared while modifiers remain, and no text
that is not a number is modified. -/

namespace Iceee.Buffs

open Lib

/-! ### Totals by stat -/

section Tally

variable {M : Type*} [AddCommGroup M] {w : ActiveStatMod → M} {l : List ActiveStatMod}
  {m : ActiveStatMod} {i : Nat}

/-- What the modifiers of a stat add up to. -/
def tally (w : ActiveStatMod → M) (l : List ActiveStatMod) (stat : Int) : M :=
  (l.map fun m => if m.modStatID = stat then w m else 0).sum

theorem tally_append (stat : Int) :
    tally w (l ++ [m]) stat = tally w l stat + if m.modStatID = stat then w m else 0 := by
  simp [tally]

theorem tally_eraseIdx (h : l[i]? = some m) (stat : Int) :
    tally w (l.eraseIdx i) stat = tally w l stat - if m.modStatID = stat then w m else 0 := by
  rw [tally, tally, sum_map_eraseIdx h, add_sub_cancel_left]

theorem tally_modify (h : l[i]? = some m) {f : ActiveStatMod → ActiveStatMod}
    (hf : ∀ m, (f m).modStatID = m.modStatID) (stat : Int) :
    tally w (l.modify i f) stat =
      tally w l stat + if m.modStatID = stat then w (f m) - w m else 0 := by
  rw [tally, sum_map_modify h, hf]
  split
  · rfl
  · rw [sub_zero]
    rfl

theorem tally_eq_zero {stat : Int} (h : ∀ m ∈ l, m.modStatID ≠ stat) : tally w l stat = 0 := by
  apply List.sum_eq_zero
  intro x hx
  obtain ⟨m, hm, rfl⟩ := List.mem_map.mp hx
  exact if_neg (h m hm)

/-- How many modifiers a stat has. -/
def tallyCount (l : List ActiveStatMod) : Int → Int := tally (fun _ => 1) l

theorem tallyCount_pos (h : m ∈ l) : 0 < tallyCount l m.modStatID := by
  have hnonneg : ∀ x ∈ l.map (fun m' => if m'.modStatID = m.modStatID then (1 : Int) else 0),
      0 ≤ x := by
    intro x hx
    obtain ⟨m', -, rfl⟩ := List.mem_map.mp hx
    split <;> omega
  have hone : (1 : Int) ∈ l.map fun m' => if m'.modStatID = m.modStatID then (1 : Int) else 0 :=
    List.mem_map.mpr ⟨m, h, if_pos rfl⟩
  have hle := List.single_le_sum hnonneg 1 hone
  exact Int.lt_of_lt_of_le Int.one_pos hle

end Tally

/-! ### What is to hold -/

/-- The entries agree with the modifiers. -/
structure Counted (mods : List ActiveStatMod) (l : List BaseStatData) : Prop where
  nodup : NodupKeys BaseStatData.StatID l
  total : ∀ b ∈ l, b.fModTotal = tally ActiveStatMod.amount mods b.StatID
  count : ∀ b ∈ l, b.RefCount = tallyCount mods b.StatID
  covered : ∀ m ∈ mods, ∃ b ∈ l, b.StatID = m.modStatID

namespace Counted

variable {mods mods' : List ActiveStatMod} {l : List BaseStatData}

theorem nil : Counted [] [] where
  nodup := List.nodup_nil
  total b hb := by cases hb
  count b hb := by cases hb
  covered m hm := by cases hm

/-- One entry changes with the modifiers of its stat. -/
theorem modify (h : Counted mods l) {stat : Int} {a : ℚ} {n : Int}
    {f : BaseStatData → BaseStatData}
    (hf : ∀ b, f b = { b with fModTotal := b.fModTotal + a, RefCount := b.RefCount + n })
    (ha : ∀ s, tally ActiveStatMod.amount mods' s =
      tally ActiveStatMod.amount mods s + if stat = s then a else 0)
    (hn : ∀ s, tallyCount mods' s = tallyCount mods s + if stat = s then n else 0)
    (hcovered : ∀ m ∈ mods', ∃ b ∈ l, b.StatID = m.modStatID) :
    Counted mods' (l.modify (l.findIdx fun b => b.StatID == stat) f) := by
  have hkey (b : BaseStatData) : (f b).StatID = b.StatID := by rw [hf]
  have hmem {b : BaseStatData} := h.nodup.mem_modify_findIdx (k := stat) (f := f) (b := b)
  refine ⟨h.nodup.replace fun b hb => (hkey b).trans hb, ?_, ?_, ?_⟩
  · intro b hb
    rcases hmem.mp hb with ⟨hold, hne⟩ | ⟨b, hold, hstat, rfl⟩
    · rw [ha, if_neg (Ne.symm hne), add_zero, h.total b hold]
    · rw [hkey, ha, if_pos hstat.symm, hf, ← h.total b hold]
  · intro b hb
    rcases hmem.mp hb with ⟨hold, hne⟩ | ⟨b, hold, hstat, rfl⟩
    · rw [hn, if_neg (Ne.symm hne), add_zero, h.count b hold]
    · rw [hkey, hn, if_pos hstat.symm, hf, ← h.count b hold]
  · intro m hm
    obtain ⟨b, hold, hb⟩ := hcovered m hm
    by_cases hstat : b.StatID = stat
    · exact ⟨f b, hmem.mpr (.inr ⟨b, hold, hstat, rfl⟩), (hkey b).trans hb⟩
    · exact ⟨b, hmem.mpr (.inl ⟨hold, hstat⟩), hb⟩

/-- The first modifier of a stat makes an entry. -/
theorem push (h : Counted mods l) {m : ActiveStatMod} (hnew : ∀ b ∈ l, b.StatID ≠ m.modStatID)
    (fBaseVal : ℚ) :
    Counted (mods ++ [m])
      (l ++ [{ StatID := m.modStatID, fBaseVal, fModTotal := m.amount, RefCount := 1 }]) := by
  have hnone : ∀ m' ∈ mods, m'.modStatID ≠ m.modStatID := by
    intro m' hm' heq
    obtain ⟨b, hb, hstat⟩ := h.covered m' hm'
    exact hnew b hb (hstat.trans heq)
  refine ⟨nodupKeys_append_singleton.mpr ⟨h.nodup, fun b hb heq => hnew b hb heq⟩, ?_, ?_, ?_⟩
  · intro b hb
    rw [tally_append]
    rcases List.mem_append.mp hb with hb | hb
    · rw [if_neg (Ne.symm (hnew b hb)), add_zero, h.total b hb]
    · rw [List.mem_singleton.mp hb, tally_eq_zero hnone, if_pos rfl, zero_add]
  · intro b hb
    rw [tallyCount, tally_append]
    rcases List.mem_append.mp hb with hb | hb
    · rw [if_neg (Ne.symm (hnew b hb)), add_zero, h.count b hb, tallyCount]
    · rw [List.mem_singleton.mp hb, tally_eq_zero hnone, if_pos rfl, zero_add]
  · intro m' hm'
    rcases List.mem_append.mp hm' with hm' | hm'
    · obtain ⟨b, hb, hstat⟩ := h.covered m' hm'
      exact ⟨b, List.mem_append_left _ hb, hstat⟩
    · exact ⟨_, List.mem_append_right _ List.mem_cons_self, by rw [List.mem_singleton.mp hm']⟩

/-- The entries without a modifier may go. -/
theorem filter (h : Counted mods l) : Counted mods (l.filter fun b => b.RefCount != 0) where
  nodup := h.nodup.sublist List.filter_sublist
  total b hb := h.total b (List.mem_of_mem_filter hb)
  count b hb := h.count b (List.mem_of_mem_filter hb)
  covered m hm := by
    obtain ⟨b, hb, hstat⟩ := h.covered m hm
    have hpos := tallyCount_pos hm
    have hne : b.RefCount ≠ 0 := by
      rw [h.count b hb, hstat]
      exact hpos.ne'
    exact ⟨b, List.mem_filter.mpr ⟨hb, by simpa using hne⟩, hstat⟩

end Counted

/-- The creature's accounts, where `css` are its stats without modifiers: writing the value that is
kept for a stat restores it, and the stats without entry are as they were. The pending entries are
those that were taken from the list and not written back. -/
structure Settling (css : Int → Option StatValue) (pending : List BaseStatData)
    (c : CreatureInstance) : Prop where
  counted : Counted c.activeStatMod c.baseStats
  crossed : c.crossed = false
  restores : ∀ b, b ∈ c.baseStats ∨ b ∈ pending →
    (css b.StatID).map (StatValue.write b.fBaseVal) = css b.StatID
  writes : ∀ stat value,
    (c.css stat).map (StatValue.write value) = (css stat).map (StatValue.write value)
  untouched : ∀ stat, (∀ b, b ∈ c.baseStats ∨ b ∈ pending → b.StatID ≠ stat) →
    c.css stat = css stat

/-- With nothing pending. -/
abbrev Accounted (css : Int → Option StatValue) : CreatureInstance → Prop := Settling css []

theorem StatValue.write_write (value value' : ℚ) (v : StatValue) :
    (v.write value').write value = v.write value := by
  cases v <;> rfl

namespace Settling

variable {css : Int → Option StatValue} {pending : List BaseStatData} {c c' : CreatureInstance}
  {statID : Int}

/-- Nothing else of the creature matters. -/
theorem of_eq (h : Settling css pending c) (hmods : c'.activeStatMod = c.activeStatMod)
    (hbase : c'.baseStats = c.baseStats) (hcss : c'.css = c.css)
    (hcrossed : c'.crossed = c.crossed) : Settling css pending c' where
  counted := by rw [hmods, hbase]; exact h.counted
  crossed := hcrossed.trans h.crossed
  restores := by rw [hbase]; exact h.restores
  writes := by rw [hcss]; exact h.writes
  untouched := by rw [hbase, hcss]; exact h.untouched

theorem writes_writeValueToStat (h : Settling css pending c) (value : ℚ) (stat : Int) (x : ℚ) :
    ((c.writeValueToStat statID value).css stat).map (StatValue.write x) =
      (css stat).map (StatValue.write x) := by
  rw [← h.writes, CreatureInstance.writeValueToStat]
  dsimp only
  rw [Function.update_apply]
  split
  · next heq =>
      rw [heq, Option.map_map]
      exact congrArg (Option.map · (c.css statID)) (funext (StatValue.write_write x value))
  · rfl

/-- The value of a stat that has an entry. -/
theorem writeValue (h : Settling css pending c) (hb : ∃ b ∈ c.baseStats, b.StatID = statID)
    (value : ℚ) : Settling css pending (c.writeValueToStat statID value) where
  counted := h.counted
  crossed := h.crossed
  restores := h.restores
  writes := h.writes_writeValueToStat value
  untouched stat hnone := by
    obtain ⟨b, hb, hstat⟩ := hb
    have hne : stat ≠ statID := fun heq => hnone b (.inl hb) (hstat.trans heq.symm)
    exact (Function.update_of_ne hne _ _).trans (h.untouched stat hnone)

/-- The value that was kept for a stat whose entry was taken. -/
theorem writeBack {b : BaseStatData} (h : Settling css (b :: pending) c) :
    Settling css pending (c.writeValueToStat b.StatID b.fBaseVal) where
  counted := h.counted
  crossed := h.crossed
  restores b' hb' := h.restores b' (hb'.imp_right (List.mem_cons_of_mem b))
  writes := h.writes_writeValueToStat b.fBaseVal
  untouched stat hnone := by
    by_cases heq : stat = b.StatID
    · rw [heq]
      refine (Function.update_self _ _ _).trans ?_
      rw [h.writes, h.restores b (.inr List.mem_cons_self)]
    · refine (Function.update_of_ne heq _ _).trans (h.untouched stat fun b' hb' => ?_)
      rcases hb' with hb' | hb'
      · exact hnone b' (.inl hb')
      · rcases List.mem_cons.mp hb' with rfl | hb'
        · exact Ne.symm heq
        · exact hnone b' (.inr hb')

/-- An entry changes with the modifiers of its stat. -/
theorem modifyBase (h : Accounted css c) {mods' : List ActiveStatMod} {stat : Int} {a : ℚ} {n : Int}
    {f : BaseStatData → BaseStatData}
    (hf : ∀ b, f b = { b with fModTotal := b.fModTotal + a, RefCount := b.RefCount + n })
    (ha : ∀ s, tally ActiveStatMod.amount mods' s =
      tally ActiveStatMod.amount c.activeStatMod s + if stat = s then a else 0)
    (hn : ∀ s, tallyCount mods' s = tallyCount c.activeStatMod s + if stat = s then n else 0)
    (hcovered : ∀ m ∈ mods', ∃ b ∈ c.baseStats, b.StatID = m.modStatID) :
    Accounted css { c.modifyBase stat f with activeStatMod := mods' } where
  counted := h.counted.modify hf ha hn hcovered
  crossed := h.crossed
  restores b hb := by
    have hb := hb.resolve_right List.not_mem_nil
    rcases h.counted.nodup.mem_modify_findIdx.mp hb with ⟨hold, -⟩ | ⟨b, hold, -, rfl⟩
    · exact h.restores b (.inl hold)
    · rw [hf]
      exact h.restores b (.inl hold)
  writes := h.writes
  untouched s hnone := by
    refine h.untouched s fun b hb heq => ?_
    have hb := hb.resolve_right List.not_mem_nil
    have hmem {b : BaseStatData} :=
      h.counted.nodup.mem_modify_findIdx (k := stat) (f := f) (b := b)
    by_cases hstat : b.StatID = stat
    · refine hnone (f b) (.inl (hmem.mpr (.inr ⟨b, hb, hstat, rfl⟩))) ?_
      rw [hf]
      exact heq
    · exact hnone b (.inl (hmem.mpr (.inl ⟨hb, hstat⟩))) heq

/-! ### Writing and sending -/

theorem foldl_writeValue {l : List BaseStatData} (h : Settling css pending c)
    (hl : ∀ b ∈ l, b ∈ c.baseStats) (value : BaseStatData → ℚ) :
    Settling css pending (l.foldl (fun c b => c.writeValueToStat b.StatID (value b)) c) := by
  induction l generalizing c with
  | nil => exact h
  | cons b l ih =>
      apply ih (h.writeValue ⟨b, hl b List.mem_cons_self, rfl⟩ (value b))
      intro b' hb'
      exact hl b' (List.mem_cons_of_mem b hb')

/-- The values of all pending entries are written back; a step in between may change the timers. -/
theorem foldl_writeBack {l : List BaseStatData} (h : Settling css l c)
    (tick : CreatureInstance → BaseStatData → CreatureInstance)
    (htick : ∀ c b l, Settling css l c → Settling css l (tick c b)) :
    Accounted css
      (l.foldl (fun c b => (tick c b).writeValueToStat b.StatID b.fBaseVal) c) := by
  induction l generalizing c with
  | nil => exact h
  | cons b l ih => exact ih (htick c b _ h).writeBack

theorem checkRemovedBuffs (h : Accounted css c) (g_ServerTime : Nat) :
    Accounted css (c.checkRemovedBuffs g_ServerTime) := by
  have hkept : Settling css (c.baseStats.filter fun b => b.RefCount == 0)
      { c with baseStats := c.baseStats.filter fun b => b.RefCount != 0 } := by
    have hsplit (b : BaseStatData) : (b ∈ (c.baseStats.filter fun b => b.RefCount != 0) ∨
        b ∈ c.baseStats.filter fun b => b.RefCount == 0) ↔ b ∈ c.baseStats := by
      simp only [List.mem_filter]
      by_cases hb : b.RefCount = 0 <;> simp [hb]
    exact {
      counted := h.counted.filter
      crossed := h.crossed
      restores := fun b hb => h.restores b (.inl ((hsplit b).mp hb))
      writes := h.writes
      untouched := fun stat hnone => h.untouched stat fun b hb =>
        hnone b ((hsplit b).mpr (hb.resolve_right List.not_mem_nil)) }
  refine hkept.foldl_writeBack (fun c b =>
    if b.StatID = STAT.WILL_REGEN then
      { c with timer_willregen := min c.timer_willregen (g_ServerTime + 2000) }
    else if b.StatID = STAT.MIGHT_REGEN then
      { c with timer_mightregen := min c.timer_mightregen (g_ServerTime + 2000) }
    else c) fun c b l h => ?_
  split_ifs
  · exact h.of_eq rfl rfl rfl rfl
  · exact h.of_eq rfl rfl rfl rfl
  · exact h

theorem sendUpdatedBuffs (h : Accounted css c) (g_ServerTime : Nat) :
    Accounted css (c.sendUpdatedBuffs g_ServerTime) :=
  (h.foldl_writeValue (fun _ hb => hb) fun b => b.fBaseVal + b.fModTotal).checkRemovedBuffs _

theorem clearBaseStats (h : Accounted css c) (hnone : c.activeStatMod = []) :
    Accounted css c.clearBaseStats := by
  have hclear : c.clearBaseStats =
      c.baseStats.foldl (fun c b => c.writeValueToStat b.StatID b.fBaseVal)
        { c with baseStats := [] } := by
    rw [CreatureInstance.clearBaseStats]
    generalize c.baseStats = l
    clear h hnone
    induction l generalizing c with
    | nil => rfl
    | cons b l ih => exact ih
  rw [hclear]
  refine Settling.foldl_writeBack ?_ (fun c _ => c) fun c b l h => h
  exact {
    counted := hnone ▸ Counted.nil
    crossed := h.crossed
    restores := fun b hb => h.restores b (.inl (hb.resolve_left List.not_mem_nil))
    writes := h.writes
    untouched := fun stat hstat => h.untouched stat fun b hb =>
      hstat b (.inr (hb.resolve_right List.not_mem_nil)) }

/-! ### Removing -/

/-- A modifier is erased with its part of the entry. -/
theorem eraseMod (h : Accounted css c) (index : Nat) : Accounted css (c.eraseMod index) := by
  rw [CreatureInstance.eraseMod]
  split
  · exact h
  · next m hm =>
      refine h.modifyBase (a := -m.amount) (n := -1) (fun b => ?_) (fun s => ?_) (fun s => ?_)
        fun m' hm' => h.counted.covered m' (List.mem_of_mem_eraseIdx hm')
      · rw [sub_eq_add_neg, sub_eq_add_neg]
      · rw [tally_eraseIdx hm, sub_eq_add_neg]
        split <;> simp
      · rw [tallyCount, tally_eraseIdx hm, sub_eq_add_neg]
        split <;> simp [tallyCount]

theorem eraseLoop (h : Accounted css c) (p : ActiveStatMod → Bool) (n pos : Nat) :
    Accounted css (CreatureInstance.eraseLoop p n pos c) := by
  induction n generalizing pos c with
  | zero => exact h
  | succ n ih =>
      rw [CreatureInstance.eraseLoop]
      split
      · exact h
      · split
        · exact ih (h.eraseMod pos) pos
        · exact ih h (pos + 1)

theorem dismount (h : Accounted css c) (g_ServerTime : Nat) :
    Accounted css (c.dismount g_ServerTime) := by
  rw [CreatureInstance.dismount]
  split
  · exact h
  · split
    · exact h
    · next abilityOnUse _ =>
        have hoff : Accounted css { c with mountedOn := none } := h.of_eq rfl rfl rfl rfl
        dsimp only
        split
        · have herased := hoff.eraseLoop (fun m => m.abilityID == abilityOnUse)
            c.activeStatMod.length 0
          refine of_eq (sendUpdatedBuffs (herased.of_eq ?_ ?_ ?_ ?_) g_ServerTime) rfl rfl rfl rfl
          · rfl
          · rfl
          · rfl
          · rfl
        · exact hoff.of_eq rfl rfl rfl rfl

theorem removeBuffIndex (h : Accounted css c) (g_ServerTime index : Nat) :
    Accounted css (c.removeBuffIndex g_ServerTime index) := by
  rw [CreatureInstance.removeBuffIndex]
  split
  · exact h
  · split
    · exact h.dismount g_ServerTime
    · exact h.eraseMod index

theorem removeLoop (h : Accounted css c) {g_ServerTime : Nat} {p : ActiveStatMod → Bool} {n : Nat}
    {pos : Nat} {found : Option Int} {r : Option Int × CreatureInstance}
    (hr : CreatureInstance.removeLoop g_ServerTime p n pos found c = some r) :
    Accounted css r.2 := by
  induction n generalizing pos found c with
  | zero =>
      rw [CreatureInstance.removeLoop] at hr
      split at hr
      · cases hr
      · exact Option.some.inj hr ▸ h
  | succ n ih =>
      rw [CreatureInstance.removeLoop] at hr
      split at hr
      · exact Option.some.inj hr ▸ h
      · split at hr
        · exact ih (h.removeBuffIndex g_ServerTime pos) hr
        · exact ih h hr

/-! ### Adding -/

end Settling

/-- A `float` has the integer, and a text is what the server writes of the number it reads there.
The other fields are always restored. -/
def Restorable (strtod : Text → ℚ) : Option StatValue → Prop
  | some (.integer v) => Int32.ofInt (trunc (Single.round v.toInt)) = v
  | some (.text t) => printInt (Int32.ofInt (trunc (Single.round (strtod t)))).toInt = t
  | _ => True

instance (strtod : Text → ℚ) : DecidablePred (Restorable strtod)
  | some (.integer v) => inferInstanceAs (Decidable (_ = v))
  | some (.text t) => inferInstanceAs (Decidable (printInt _ = t))
  | some (.short _) | some (.float _) | none => inferInstanceAs (Decidable True)

theorem Restorable.write_read {strtod : Text → ℚ} {v : Option StatValue} (h : Restorable strtod v) :
    v.map (StatValue.write ((v.map (StatValue.read strtod)).getD 0)) = v := by
  match v with
  | none => rfl
  | some (.short v) =>
      simp only [Option.map_some, Option.getD_some, StatValue.read, StatValue.write, trunc_intCast,
        Int16.ofInt_toInt]
  | some (.integer v) =>
      simp only [Option.map_some, Option.getD_some, StatValue.read, StatValue.write]
      rw [h]
  | some (.float v) => rfl
  | some (.text t) =>
      simp only [Option.map_some, Option.getD_some, StatValue.read, StatValue.write]
      rw [h]

namespace CreatureInstance

variable (strtod : Text → ℚ) (c : CreatureInstance)

/-- A stat has an entry, or one can be made of its value. -/
def CanHold (statID : Int) : Prop :=
  (∀ b ∈ c.baseStats, b.StatID ≠ statID) → Restorable strtod (c.css statID)

/-- A modifier that is replaced is of the same kind, and a new one is of a stat that can hold it. -/
def AddsInOrder (buffSource : BuffSource) (groupID statID : Int) : Prop :=
  match c.getExistingModIndex buffSource groupID statID with
  | some r => ∀ m ∈ c.activeStatMod[r]?, m.sourceType = buffSource
  | none => c.CanHold strtod statID

instance (statID : Int) : Decidable (c.CanHold strtod statID) :=
  inferInstanceAs (Decidable (_ → _))

instance (buffSource : BuffSource) (groupID statID : Int) :
    Decidable (c.AddsInOrder strtod buffSource groupID statID) :=
  match h : c.getExistingModIndex buffSource groupID statID with
  | some r => decidable_of_iff (∀ m ∈ c.activeStatMod[r]?, m.sourceType = buffSource) (by
      rw [AddsInOrder, h])
  | none => decidable_of_iff (c.CanHold strtod statID) (by rw [AddsInOrder, h])

end CreatureInstance

namespace Settling

variable {css : Int → Option StatValue} {c : CreatureInstance} {strtod : Text → ℚ}

/-- A new modifier is counted. -/
theorem pushMod (h : Accounted css c) {m : ActiveStatMod} (hold : c.CanHold strtod m.modStatID) :
    Accounted css ({ c with activeStatMod := c.activeStatMod ++ [m] }.addBaseStatMod strtod
      m.modStatID m.amount) := by
  rw [CreatureInstance.addBaseStatMod]
  split
  · next hany =>
      obtain ⟨b, hb, hstat⟩ := List.any_eq_true.mp hany
      have hstat : b.StatID = m.modStatID := eq_of_beq hstat
      refine h.modifyBase (a := m.amount) (n := 1) (fun _ => rfl) (fun s => tally_append s)
        (fun s => tally_append s) fun m' hm' => ?_
      rcases List.mem_append.mp hm' with hm' | hm'
      · exact h.counted.covered m' hm'
      · exact ⟨b, hb, hstat.trans (by rw [List.mem_singleton.mp hm'])⟩
  · next hany =>
      have hnew : ∀ b ∈ c.baseStats, b.StatID ≠ m.modStatID := by
        intro b hb heq
        exact hany (List.any_eq_true.mpr ⟨b, hb, beq_iff_eq.mpr heq⟩)
      have hsame : c.css m.modStatID = css m.modStatID :=
        h.untouched m.modStatID fun b hb => hnew b (hb.resolve_right List.not_mem_nil)
      -- without an entry the base value is the one the creature has
      have hbase : CreatureInstance.getBaseStat strtod
          { c with activeStatMod := c.activeStatMod ++ [m] } m.modStatID =
            c.getStatValueByID strtod m.modStatID := by
        have hfind : c.baseStats.find? (fun b => b.StatID == m.modStatID) = none :=
          List.find?_eq_none.mpr fun b hb heq => hnew b hb (eq_of_beq heq)
        rw [CreatureInstance.getBaseStat, hfind]
        rfl
      have hval : (if m.modStatID ∈ [STAT.STRENGTH, STAT.DEXTERITY, STAT.CONSTITUTION, STAT.PSYCHE,
          STAT.SPIRIT] then CreatureInstance.getBaseStat strtod
            { c with activeStatMod := c.activeStatMod ++ [m] } m.modStatID
          else c.getStatValueByID strtod m.modStatID) =
            c.getStatValueByID strtod m.modStatID := by
        rw [hbase, ite_self]
      have hwrite := (hold hnew).write_read
      refine {
        counted := h.counted.push hnew _
        crossed := h.crossed
        restores := fun b hb => ?_
        writes := h.writes
        untouched := fun stat hnone => h.untouched stat fun b hb =>
          hnone b (.inl (List.mem_append_left _ (hb.resolve_right List.not_mem_nil))) }
      rcases List.mem_append.mp (hb.resolve_right List.not_mem_nil) with hb | hb
      · exact h.restores b (.inl hb)
      · rw [List.mem_singleton.mp hb]
        refine (congrArg (fun value => (css m.modStatID).map (StatValue.write value)) hval).trans ?_
        rw [← hsame]
        exact hwrite

/-- A modifier changes with the total of its entry. -/
theorem replaceMod (h : Accounted css c) {r : Nat} {m : ActiveStatMod}
    (hm : c.activeStatMod[r]? = some m) {g : ActiveStatMod → ActiveStatMod}
    (hg : ∀ m, (g m).modStatID = m.modStatID) {f : BaseStatData → BaseStatData}
    (hf : ∀ b, f b = { b with fModTotal := b.fModTotal + ((g m).amount - m.amount) }) :
    Accounted css { c.modifyBase m.modStatID f with
      activeStatMod := c.activeStatMod.modify r g } := by
  refine h.modifyBase (a := (g m).amount - m.amount) (n := 0) (fun b => ?_)
    (fun s => tally_modify hm hg s) (fun s => ?_) fun m' hm' => ?_
  · rw [hf, add_zero]
  · rw [tallyCount, tally_modify hm hg, sub_self]
    rfl
  · rcases mem_modify hm' with hm' | ⟨m, hm, rfl⟩
    · exact h.counted.covered m' hm'
    · rw [hg]
      exact h.counted.covered m (List.mem_of_getElem? hm)

theorem modStatID_of_getExistingModIndex {type : BuffSource} {groupID statID : Int} {r : Nat}
    {m : ActiveStatMod} (hr : c.getExistingModIndex type groupID statID = some r)
    (hm : c.activeStatMod[r]? = some m) : m.modStatID = statID := by
  obtain ⟨hlt, hp, -⟩ := List.findIdx?_eq_some_iff_getElem.mp hr
  rw [(List.getElem?_eq_some_iff.mp hm).2] at hp
  exact eq_of_beq (Bool.and_eq_true_iff.mp hp).2

/-- `AddBuff` in order. -/
theorem addBuff (h : Accounted css c) {buffSource : BuffSource} {abGroupID statID : Int}
    (hok : c.AddsInOrder strtod buffSource abGroupID statID) (g_ServerTime : Nat)
    (buffCategory : UInt8) (abID : Int) (calcAmount durationSec : ℚ) :
    Accounted css (c.addBuff strtod g_ServerTime buffSource buffCategory abID abGroupID statID
      calcAmount durationSec) := by
  rw [CreatureInstance.AddsInOrder] at hok
  rw [CreatureInstance.addBuff]
  generalize hr : c.getExistingModIndex buffSource abGroupID statID = found at hok ⊢
  cases found with
  | none => exact h.pushMod hok
  | some r =>
      dsimp only at hok ⊢
      split
      · exact h
      · next m hm =>
          obtain rfl := modStatID_of_getExistingModIndex hr hm
          have hkind : (c.crossed || m.sourceType != buffSource) = c.crossed := by
            rw [hok m hm, bne_self_eq_false, Bool.or_false]
          let expireTime : Option Int :=
            if |durationSec + 1| ≤ 1 / 1000 then none
            else some (g_ServerTime + trunc durationSec * 1000)
          have hreplaced := h.replaceMod hm
            (g := fun m => { m with amount := calcAmount, expireTime }) (fun _ => rfl)
            (f := fun b => { b with fModTotal := b.fModTotal - m.amount + calcAmount }) fun b => by
              rw [← add_sub_assoc, add_sub_right_comm]
          exact hreplaced.of_eq rfl rfl rfl hkind

/-- `AddItemStatMod`. -/
theorem addItemStatMod (h : Accounted css c) {statID : Int} (hold : c.CanHold strtod statID)
    (itemID : Int) (amount : ℚ) :
    Accounted css (c.addItemStatMod strtod itemID statID amount) :=
  h.pushMod (m := ⟨statID, 0, 0, amount, none, 0, .ITEM, itemID⟩) hold

/-- The value of an entry, where the stat has one. -/
theorem writeFound (h : Accounted css c) (statID : Int) :
    Accounted css (match c.baseStats.find? fun b => b.StatID == statID with
      | some b => c.writeValueToStat b.StatID (b.fBaseVal + b.fModTotal)
      | none => c) := by
  split
  · next b hb => exact h.writeValue ⟨b, List.mem_of_find?_eq_some hb, rfl⟩ _
  · exact h

/-- `Add` up to the call of `AddBuff`. -/
theorem prepareAdd (h : Accounted css c) {g_ServerTime : Nat} {tier buffCategory : UInt8}
    {abID statID : Int} {calcAmount : ℚ} {c' : CreatureInstance}
    (hc' : c.prepareAdd g_ServerTime tier buffCategory abID statID calcAmount = some c') :
    Accounted css c' := by
  rw [CreatureInstance.prepareAdd, CreatureInstance.removeAbilityBuffTypeExcept] at hc'
  have hready : Accounted css ({ c with
      buffManager := (c.buffManager.hasBuff g_ServerTime tier buffCategory).2 }.restartTimer
        g_ServerTime statID calcAmount) := by
    rw [CreatureInstance.restartTimer]
    split_ifs <;> exact h.of_eq rfl rfl rfl rfl
  split at hc'
  · exact Option.some.inj hc' ▸ hready
  · obtain ⟨r, hr, rfl⟩ := Option.map_eq_some_iff.mp hc'
    exact hready.removeLoop hr

/-- `Add`, where `AddBuff` is in order. -/
theorem add (h : Accounted css c) {g_ServerTime : Nat} {tier buffCategory : UInt8}
    {abID abgID statID : Int} {calcAmount durationSec : ℚ} {c' : CreatureInstance}
    (hok : (c.buffManager.hasBuff g_ServerTime tier buffCategory).1 = none →
      ∀ c₁ ∈ c.prepareAdd g_ServerTime tier buffCategory abID statID calcAmount,
        c₁.AddsInOrder strtod .ABILITY abgID statID)
    (hc' : c.add strtod g_ServerTime tier buffCategory abID abgID statID calcAmount durationSec =
      some c') : Accounted css c' := by
  rw [CreatureInstance.add] at hc'
  split at hc'
  · exact Option.some.inj hc' ▸ h
  · next hnone =>
      obtain ⟨c₁, hc₁, rfl⟩ := Option.map_eq_some_iff.mp hc'
      have hbuff := hok (Option.not_isSome_iff_eq_none.mp hnone) c₁ hc₁
      have hadded := addBuff (c := { c₁ with buffManager := (c₁.buffManager.updateBuff g_ServerTime
          tier buffCategory abID abgID durationSec c₁.initialisingAbilities).2 })
        ((h.prepareAdd hc₁).of_eq rfl rfl rfl rfl) hbuff g_ServerTime buffCategory abID calcAmount
        (c₁.buffManager.updateBuff g_ServerTime tier buffCategory abID abgID durationSec
          c₁.initialisingAbilities).1.durationS
      dsimp only
      split
      · exact hadded.writeFound statID
      · exact hadded

/-- `SubtractAbilityBuffStat`, where there is a modifier to subtract from or no entry. -/
theorem subtractAbilityBuffStat (h : Accounted css c) {statID abgID : Int} {amount : ℚ}
    (hok : (c.getExistingModIndex .ABILITY abgID statID).isSome ∨
      (∀ b ∈ c.baseStats, b.StatID ≠ statID) ∨ amount = 0) (g_ServerTime : Nat) :
    Accounted css (c.subtractAbilityBuffStat g_ServerTime statID abgID amount) := by
  rw [CreatureInstance.subtractAbilityBuffStat]
  apply writeFound
  split
  · next hnone =>
      rw [hnone] at hok
      rcases hok.resolve_left Bool.false_ne_true with hno | rfl
      · have hidx : c.baseStats.length ≤ c.baseStats.findIdx fun b => b.StatID == statID := by
          refine (List.findIdx_eq_length.mpr fun b hb => ?_).ge
          exact beq_eq_false_iff_ne.mpr (hno b hb)
        refine h.of_eq rfl ?_ rfl rfl
        exact List.modify_eq_self hidx
      · refine h.modifyBase (a := 0) (n := 0) (fun b => ?_) (fun s => ?_) (fun s => ?_)
          h.counted.covered
        · rw [sub_zero, add_zero, add_zero]
        · rw [ite_self, add_zero]
        · rw [ite_self, add_zero]
  · next r hr =>
      obtain ⟨hlt, -⟩ := List.findIdx?_eq_some_iff_getElem.mp hr
      have hm := List.getElem?_eq_getElem hlt
      have hstat := modStatID_of_getExistingModIndex hr hm
      let expireTime (m : ActiveStatMod) : Option Int :=
        if statID = STAT.BONUS_HEALTH ∧ m.amount - amount < 1 then some g_ServerTime
        else m.expireTime
      have hreplaced := h.replaceMod hm
        (g := fun m => { m with amount := m.amount - amount, expireTime := expireTime m })
        (fun _ => rfl) (f := fun b => { b with fModTotal := b.fModTotal - amount }) fun b => by
          rw [sub_sub_cancel_left, sub_eq_add_neg]
      rw [hstat] at hreplaced
      exact hreplaced.of_eq rfl rfl rfl rfl

end Settling

/-! ### No modifier appears by a removal -/

namespace CreatureInstance

variable {c : CreatureInstance} {g_ServerTime : Nat}

theorem foldl_activeStatMod {l : List BaseStatData}
    {f : CreatureInstance → BaseStatData → CreatureInstance}
    (hf : ∀ c b, (f c b).activeStatMod = c.activeStatMod) :
    (l.foldl f c).activeStatMod = c.activeStatMod := by
  induction l generalizing c with
  | nil => rfl
  | cons b l ih => exact ih.trans (hf c b)

theorem foldl_baseStats {l : List BaseStatData}
    {f : CreatureInstance → BaseStatData → CreatureInstance}
    (hf : ∀ c b, (f c b).baseStats = c.baseStats) : (l.foldl f c).baseStats = c.baseStats := by
  induction l generalizing c with
  | nil => rfl
  | cons b l ih => exact ih.trans (hf c b)

@[simp] theorem checkRemovedBuffs_activeStatMod :
    (c.checkRemovedBuffs g_ServerTime).activeStatMod = c.activeStatMod := by
  refine foldl_activeStatMod fun c b => ?_
  dsimp only
  split_ifs <;> rfl

/-- No entry without a modifier stays. -/
theorem refCount_of_mem_checkRemovedBuffs {b : BaseStatData}
    (hb : b ∈ (c.checkRemovedBuffs g_ServerTime).baseStats) : b.RefCount ≠ 0 := by
  have hkept : (c.checkRemovedBuffs g_ServerTime).baseStats =
      c.baseStats.filter fun b => b.RefCount != 0 := by
    refine foldl_baseStats fun c b => ?_
    dsimp only
    split_ifs <;> rfl
  rw [hkept] at hb
  exact bne_iff_ne.mp (List.mem_filter.mp hb).2

@[simp] theorem sendUpdatedBuffs_activeStatMod :
    (c.sendUpdatedBuffs g_ServerTime).activeStatMod = c.activeStatMod :=
  checkRemovedBuffs_activeStatMod.trans (foldl_activeStatMod fun _ _ => rfl)

theorem eraseMod_subset (index : Nat) : (c.eraseMod index).activeStatMod ⊆ c.activeStatMod := by
  rw [eraseMod]
  split
  · exact fun m hm => hm
  · exact fun m hm => List.mem_of_mem_eraseIdx hm

theorem eraseLoop_subset (p : ActiveStatMod → Bool) (n pos : Nat) :
    (eraseLoop p n pos c).activeStatMod ⊆ c.activeStatMod := by
  induction n generalizing pos c with
  | zero => exact fun m hm => hm
  | succ n ih =>
      rw [eraseLoop]
      split
      · exact fun m hm => hm
      · split
        · exact fun m hm => eraseMod_subset pos (ih pos hm)
        · exact ih (pos + 1)

theorem dismount_subset : (c.dismount g_ServerTime).activeStatMod ⊆ c.activeStatMod := by
  rw [dismount]
  split
  · exact fun m hm => hm
  · split
    · exact fun m hm => hm
    · dsimp only
      split
      · rw [sendUpdatedBuffs_activeStatMod]
        exact eraseLoop_subset _ _ _
      · exact fun m hm => hm

theorem removeBuffIndex_subset (index : Nat) :
    (c.removeBuffIndex g_ServerTime index).activeStatMod ⊆ c.activeStatMod := by
  rw [removeBuffIndex]
  split
  · exact fun m hm => hm
  · split
    · exact dismount_subset
    · exact eraseMod_subset index

/-- Where every modifier is one of those to remove, none is left. -/
theorem removeLoop_all {p : ActiveStatMod → Bool} (hp : ∀ m ∈ c.activeStatMod, p m) {n : Nat}
    {found : Option Int} {r : Option Int × CreatureInstance}
    (hr : removeLoop g_ServerTime p n 0 found c = some r) : r.2.activeStatMod = [] := by
  induction n generalizing c found with
  | zero =>
      rw [removeLoop] at hr
      split at hr
      · cases hr
      · next hlen =>
          rw [← Option.some.inj hr]
          exact List.length_eq_zero_iff.mp (Nat.le_zero.mp (Nat.not_lt.mp hlen))
  | succ n ih =>
      rw [removeLoop] at hr
      split at hr
      · next hnone =>
          rw [← Option.some.inj hr]
          exact List.length_eq_zero_iff.mp (Nat.le_zero.mp (List.getElem?_eq_none_iff.mp hnone))
      · next m hm =>
          rw [if_pos (hp m (List.mem_of_getElem? hm))] at hr
          exact ih (fun m' hm' => hp m' (removeBuffIndex_subset 0 hm')) hr

end CreatureInstance

/-! ### Runs -/

/-- A creature without modifiers, whose stats are `css`. -/
def Unmodified (css : Int → Option StatValue) (c : CreatureInstance) : Prop :=
  c.activeStatMod = [] ∧ c.baseStats = [] ∧ c.crossed = false ∧ c.css = css

/-- The accounts of each stat agree with its modifiers, none was replaced by one of another kind,
and a stat without modifiers gets its old value. -/
def Kept (css : Int → Option StatValue) (c : CreatureInstance) : Prop :=
  (∀ stat, match c.baseStats.find? fun b => b.StatID == stat with
    | some b => b.fModTotal = tally ActiveStatMod.amount c.activeStatMod stat ∧
        b.RefCount = tallyCount c.activeStatMod stat
    | none => ∀ m ∈ c.activeStatMod, m.modStatID ≠ stat) ∧
  c.crossed = false ∧
  ∀ stat now, (∀ m ∈ c.activeStatMod, m.modStatID ≠ stat) →
    (c.checkRemovedBuffs now).css stat = css stat

/-- What each operation needs. -/
def CreatureInstance.InOrder (strtod : Text → ℚ) (c : CreatureInstance) : Nat × Op → Prop
  | (now, .add tier buffCategory abID abgID statID calcAmount _) =>
      (c.buffManager.hasBuff now tier buffCategory).1 = none →
        ∀ c' ∈ c.prepareAdd now tier buffCategory abID statID calcAmount,
          c'.AddsInOrder strtod .ABILITY abgID statID
  | (_, .addBuff buffSource _ _ abGroupID statID _ _) =>
      c.AddsInOrder strtod buffSource abGroupID statID
  | (_, .addMod ..) => False
  | (_, .addItemStatMod _ statID _) => c.CanHold strtod statID
  | (_, .subtractAbilityBuffStat statID abgID amount) =>
      (c.getExistingModIndex .ABILITY abgID statID).isSome ∨
        (∀ b ∈ c.baseStats, b.StatID ≠ statID) ∨ amount = 0
  | (_, .removeAllBuffsExceptGroupID abilityGroupID) =>
      ∀ m ∈ c.activeStatMod, m.abilityGroupID ≠ abilityGroupID
  | _ => True

instance (strtod : Text → ℚ) (c : CreatureInstance) : DecidablePred (c.InOrder strtod)
  | (_, .add ..) =>
      inferInstanceAs (Decidable (_ → ∀ _ ∈ _, CreatureInstance.AddsInOrder _ _ _ _ _))
  | (_, .addBuff ..) => inferInstanceAs (Decidable (CreatureInstance.AddsInOrder _ _ _ _ _))
  | (_, .addMod ..) => inferInstanceAs (Decidable False)
  | (_, .addItemStatMod ..) => inferInstanceAs (Decidable (CreatureInstance.CanHold _ _ _))
  | (_, .subtractAbilityBuffStat ..) => inferInstanceAs (Decidable (_ ∨ _))
  | (_, .removeAllBuffsExceptGroupID _) => inferInstanceAs (Decidable (∀ _ ∈ _, _))
  | (_, .removeBuffIndex _) | (_, .removeBuffsFromAbility ..) | (_, .removeStatModsBySource _)
  | (_, .removeAbilityBuffTypeExcept ..) | (_, .removeAbilityBuffWithStat ..)
  | (_, .removeAllBuffs) | (_, .checkRemovedBuffs) => inferInstanceAs (Decidable True)

theorem Settling.kept {css : Int → Option StatValue} {c : CreatureInstance} (h : Accounted css c) :
    Kept css c := by
  refine ⟨fun stat => ?_, h.crossed, fun stat now hnone => ?_⟩
  · split
    · next b hb =>
        have hmem := List.mem_of_find?_eq_some hb
        have hstat : b.StatID = stat := by simpa using List.find?_some hb
        rw [← hstat]
        exact ⟨h.counted.total b hmem, h.counted.count b hmem⟩
    · next hfind =>
        intro m hm heq
        obtain ⟨b, hb, hstat⟩ := h.counted.covered m hm
        exact List.find?_eq_none.mp hfind b hb (beq_iff_eq.mpr (hstat.trans heq))
  · refine (h.checkRemovedBuffs now).untouched stat fun b hb heq => ?_
    have hb := hb.resolve_right List.not_mem_nil
    have hcount := (h.checkRemovedBuffs now).counted.count b hb
    rw [CreatureInstance.checkRemovedBuffs_activeStatMod, heq, tallyCount,
      tally_eq_zero hnone] at hcount
    exact CreatureInstance.refCount_of_mem_checkRemovedBuffs hb hcount

/-- One operation in order keeps the accounts. -/
theorem Settling.step {strtod : Text → ℚ} {css : Int → Option StatValue} {c c' : CreatureInstance}
    {op : Nat × Op} (h : Accounted css c) (hok : c.InOrder strtod op)
    (hs : c.step strtod op = some c') : Accounted css c' := by
  obtain ⟨now, op⟩ := op
  cases op with
  | add tier buffCategory abID abgID statID calcAmount durationSec => exact h.add hok hs
  | addBuff buffSource buffCategory abID abGroupID statID calcAmount durationSec =>
      rw [← Option.some.inj hs]
      exact h.addBuff hok now buffCategory abID calcAmount durationSec
  | addMod => exact hok.elim
  | addItemStatMod itemID statID amount =>
      rw [← Option.some.inj hs]
      exact h.addItemStatMod hok itemID amount
  | subtractAbilityBuffStat statID abgID amount =>
      rw [← Option.some.inj hs]
      exact h.subtractAbilityBuffStat hok now
  | removeBuffIndex index =>
      rw [← Option.some.inj hs]
      exact h.removeBuffIndex now index
  | removeBuffsFromAbility abilityID send =>
      obtain ⟨r, hr, rfl⟩ := Option.map_eq_some_iff.mp hs
      have hremoved : Accounted css
          { r.2 with buffManager := r.2.buffManager.removeBuff abilityID } :=
        (h.removeLoop hr).of_eq rfl rfl rfl rfl
      dsimp only
      split
      · exact sendUpdatedBuffs hremoved now
      · exact hremoved
  | removeStatModsBySource buffSource =>
      obtain ⟨r, hr, rfl⟩ := Option.map_eq_some_iff.mp hs
      dsimp only
      split
      · exact (h.removeLoop hr).sendUpdatedBuffs now
      · exact h.removeLoop hr
  | removeAbilityBuffTypeExcept buffCategory abilityID =>
      dsimp only [CreatureInstance.step, CreatureInstance.removeAbilityBuffTypeExcept] at hs
      split at hs
      · exact Option.some.inj hs ▸ h
      · obtain ⟨r, hr, rfl⟩ := Option.map_eq_some_iff.mp hs
        exact h.removeLoop hr
  | removeAbilityBuffWithStat statID sign =>
      obtain ⟨r, hr, rfl⟩ := Option.map_eq_some_iff.mp hs
      dsimp only
      split
      · exact (h.removeLoop hr).sendUpdatedBuffs now
      · exact h.removeLoop hr
  | removeAllBuffs =>
      obtain ⟨r, hr, rfl⟩ := Option.map_eq_some_iff.mp hs
      exact (h.removeLoop hr).clearBaseStats
        (CreatureInstance.removeLoop_all (fun _ _ => rfl) hr)
  | removeAllBuffsExceptGroupID abilityGroupID =>
      obtain ⟨r, hr, rfl⟩ := Option.map_eq_some_iff.mp hs
      refine (h.removeLoop hr).clearBaseStats (CreatureInstance.removeLoop_all ?_ hr)
      intro m hm
      exact bne_iff_ne.mpr (hok m hm)
  | checkRemovedBuffs =>
      rw [← Option.some.inj hs]
      exact h.checkRemovedBuffs now

/-- As long as every operation is in order, the accounts are kept. -/
theorem modifiers_kept {strtod : Text → ℚ} {css : Int → Option StatValue} {c : CreatureInstance}
    (h : Reach (Unmodified css) (CreatureInstance.InOrder strtod)
      (CreatureInstance.step strtod) c) : Kept css c := by
  have hstart (c : CreatureInstance) (hc : Unmodified css c) : Accounted css c := by
    obtain ⟨hmods, hbase, hcrossed, hcss⟩ := hc
    exact {
      counted := by rw [hmods, hbase]; exact Counted.nil
      crossed := hcrossed
      restores := fun b hb => by simp [hbase] at hb
      writes := fun stat value => by rw [hcss]
      untouched := fun stat _ => by rw [hcss] }
  exact (h.invariant hstart fun c op c' hc hok hs => hc.step hok hs).kept

def strongCreature : CreatureInstance where
  css stat := if stat = STAT.STRENGTH then some (.short 40) else none

/-- An item and an ability that strengthen by 5 and by 3. -/
def strengthen : List (Nat × Op) :=
  [(1000, .addItemStatMod 7 STAT.STRENGTH 5),
    (2000, .add 1 3 500 120 STAT.STRENGTH 3 60),
    (3000, .removeStatModsBySource .ITEM),
    (4000, .removeBuffsFromAbility 500 true)]

/-- The strength is what it was when both are gone. -/
theorem strengthen_kept :
    ∃ c, Lib.runAll (CreatureInstance.step fun _ => 0) strongCreature strengthen = some c ∧
      c.activeStatMod = [] ∧ Kept strongCreature.css c := by
  have hrun := Lib.eq_some_getD (o := Lib.runAll (CreatureInstance.step fun _ => 0) strongCreature
    strengthen) (by decide) {}
  have start : Trace (Unmodified strongCreature.css) (CreatureInstance.InOrder fun _ => 0)
      (CreatureInstance.step fun _ => 0) [] strongCreature := .start ⟨rfl, rfl, rfl, rfl⟩
  exact ⟨_, hrun, by decide, modifiers_kept ⟨_, start.runAll (by decide) hrun⟩⟩

/-- A modifier of the group that is to stay loses its entry. -/
theorem kept_group_uncounted : ¬∀ (strtod : Text → ℚ) css c,
    Reach (Unmodified css) (fun _ _ => True) (CreatureInstance.step strtod) c → Kept css c := by
  intro hall
  have hrun := Lib.eq_some_getD (o := Lib.runAll (CreatureInstance.step fun _ => 0) strongCreature
    [(1000, .add 1 3 500 999 STAT.STRENGTH 3 60), (2000, .removeAllBuffsExceptGroupID 999)])
    (by decide) {}
  obtain ⟨hcounts, -⟩ := hall _ strongCreature.css _ (reach_of_runAll ⟨rfl, rfl, rfl, rfl⟩ hrun)
  have hcount := hcounts STAT.STRENGTH
  split at hcount
  · next b hb => exact absurd (Option.isSome_of_mem hb) (by decide)
  · exact absurd hcount (by decide)

end Iceee.Buffs
