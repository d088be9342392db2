import Iceee.Targets.Creature

/-!
# The area searches of creatures

The scripts of creatures fill a list with the creatures near a point, or count them. All searches go
through the three lists of the instance; the two that fill a list push an NPC for a sidekick.

## Main results

* `pushLoop_self`: a loop that pushes from its own list pushes what passes the test.
* `agrees_exact_iff`: the searches do what they are for exactly if they find no sidekick.
-/

namespace Iceee.Targets

namespace ActiveInstance

variable (inst : ActiveInstance)

/-! ### The searches -/

/-- Whether a creature is within the range of a point. -/
def nearPoint (range x z : Int) (obj : CreaturePtr) : Bool :=
  !decide (inst.getPointRangeXZ obj x z range > range)

/-- One loop over a list: for every creature that passes the test, the creature at the same index of
another list is pushed; an access outside of that list has no result. -/
def pushLoop (test : CreaturePtr → Bool) (source : List CreaturePtr) :
    List CreaturePtr → ℕ → List CreaturePtr → Option (List CreaturePtr)
  | [], _, found => some found
  | obj :: rest, i, found =>
      if test obj then
        match source[i]? with
        | some pushed => pushLoop test source rest (i + 1) (found ++ [pushed])
        | none => none
      else pushLoop test source rest (i + 1) found

/-- One loop that counts. -/
def countLoop (test : CreaturePtr → Bool) : List CreaturePtr → ℕ → ℕ
  | [], count => count
  | obj :: rest, count => countLoop test rest (if test obj then count + 1 else count)

/-- `AIFillEnemyNear`: the list afterwards, whose length is returned. -/
def aiFillEnemyNear (this : CreaturePtr) (range x z : Int) (enemies : List CreaturePtr) :
    Option (List CreaturePtr) := do
  let test obj := inst.nearPoint range x z obj && inst.validTargetFlag this obj Enemy_Alive
  let enemies ← pushLoop test inst.PlayerListPtr inst.PlayerListPtr 0 enemies
  let enemies ← pushLoop test inst.NPCListPtr inst.NPCListPtr 0 enemies
  pushLoop test inst.NPCListPtr inst.SidekickListPtr 0 enemies

/-- The test of `AIFillCreaturesNear`. -/
def otherNear (this : CreaturePtr) (range x z : Int) (abilityRestrict : TargetStatus)
    (obj : CreaturePtr) : Bool :=
  decide ((inst.creature obj).CreatureID ≠ (inst.creature this).CreatureID) &&
    inst.nearPoint range x z obj && inst.validTargetFlag this obj abilityRestrict

/-- `AIFillCreaturesNear`. -/
def aiFillCreaturesNear (this : CreaturePtr) (range x z : Int)
    (playerAbilityRestrict npcAbilityRestrict sidekickAbilityRestrict : TargetStatus)
    (creatures : List CreaturePtr) : Option (List CreaturePtr) := do
  let creatures ← pushLoop (inst.otherNear this range x z playerAbilityRestrict)
    inst.PlayerListPtr inst.PlayerListPtr 0 creatures
  let creatures ← pushLoop (inst.otherNear this range x z npcAbilityRestrict)
    inst.NPCListPtr inst.NPCListPtr 0 creatures
  pushLoop (inst.otherNear this range x z sidekickAbilityRestrict)
    inst.NPCListPtr inst.SidekickListPtr 0 creatures

/-- `AICountEnemyNear`. -/
def aiCountEnemyNear (this : CreaturePtr) (range x z : Int) : ℕ :=
  let test obj := inst.nearPoint range x z obj && inst.validTargetFlag this obj Enemy_Alive
  countLoop test inst.SidekickListPtr
    (countLoop test inst.NPCListPtr (countLoop test inst.PlayerListPtr 0))

/-! ### What is to hold -/

/-- Whom a search for enemies is for. -/
def WantedEnemy (this : CreaturePtr) (range x z : Int) (p : CreaturePtr) : Prop :=
  p ∈ inst.members ∧ inst.nearPoint range x z p = true ∧
    inst.validTargetFlag this p Enemy_Alive = true

/-- Whom a search for creatures is for: each list has a filter of its own. -/
def WantedCreature (this : CreaturePtr) (range x z : Int)
    (playerAbilityRestrict npcAbilityRestrict sidekickAbilityRestrict : TargetStatus)
    (p : CreaturePtr) : Prop :=
  p ≠ this ∧ inst.nearPoint range x z p = true ∧
    (p ∈ inst.PlayerListPtr ∧ inst.validTargetFlag this p playerAbilityRestrict = true ∨
      p ∈ inst.NPCListPtr ∧ inst.validTargetFlag this p npcAbilityRestrict = true ∨
      p ∈ inst.SidekickListPtr ∧ inst.validTargetFlag this p sidekickAbilityRestrict = true)

/-- A search stays within the lists and appends exactly the wanted creatures, each once. -/
def Appends (wanted : CreaturePtr → Prop) (before : List CreaturePtr)
    (after : Option (List CreaturePtr)) (found : List CreaturePtr) : Prop :=
  after = some (before ++ found) ∧ found.Nodup ∧ ∀ p, p ∈ found ↔ wanted p

/-- The searches around a point do what they are for. -/
structure Agrees (this : CreaturePtr) (range x z : Int)
    (playerAbilityRestrict npcAbilityRestrict sidekickAbilityRestrict : TargetStatus)
    (enemies creatures : List CreaturePtr) : Prop where
  enemies : ∃ found, Appends (inst.WantedEnemy this range x z) enemies
    (inst.aiFillEnemyNear this range x z enemies) found ∧
      found.length = inst.aiCountEnemyNear this range x z
  creatures : ∃ found, Appends (inst.WantedCreature this range x z playerAbilityRestrict
    npcAbilityRestrict sidekickAbilityRestrict) creatures (inst.aiFillCreaturesNear this range x z
      playerAbilityRestrict npcAbilityRestrict sidekickAbilityRestrict creatures) found

/-- No sidekick but the searcher is near and passes a filter that sidekicks are searched with. -/
def NoSidekick (this : CreaturePtr) (range x z : Int) (sidekickAbilityRestrict : TargetStatus) :
    Prop :=
  ∀ s ∈ inst.SidekickListPtr, s ≠ this → inst.nearPoint range x z s = true →
    inst.validTargetFlag this s Enemy_Alive = false ∧
      inst.validTargetFlag this s sidekickAbilityRestrict = false

/-! ### The loops -/

section Loops

variable {inst} {test : CreaturePtr → Bool} {source l found after : List CreaturePtr} {i count : ℕ}

/-- A loop that pushes from the list that it goes through. -/
theorem pushLoop_drop (h : source.drop i = l) :
    pushLoop test source l i found = some (found ++ l.filter test) := by
  induction l generalizing i found with
  | nil => rw [pushLoop, List.filter_nil, List.append_nil]
  | cons obj rest ih =>
      have hrest : source.drop (i + 1) = rest := by
        rw [← List.tail_drop, h, List.tail_cons]
      have hobj : source[i]? = some obj := by
        rw [← List.head?_drop, h, List.head?_cons]
      unfold pushLoop
      by_cases htest : test obj = true
      · simp only [htest, hobj, if_true]
        rw [ih hrest, List.filter_cons_of_pos htest, List.append_assoc, List.singleton_append]
      · rw [if_neg htest, ih hrest, List.filter_cons_of_neg htest]

theorem pushLoop_self : pushLoop test l l 0 found = some (found ++ l.filter test) :=
  pushLoop_drop List.drop_zero

/-- Whatever a loop pushes is in the list that it pushes from. -/
theorem pushLoop_subset (h : pushLoop test source l i found = some after) :
    ∃ pushed, after = found ++ pushed ∧ ∀ p ∈ pushed, p ∈ source := by
  induction l generalizing i found with
  | nil =>
      rw [pushLoop] at h
      exact ⟨[], by rw [List.append_nil]; exact (Option.some.inj h).symm, List.forall_mem_nil _⟩
  | cons obj rest ih =>
      unfold pushLoop at h
      by_cases htest : test obj = true
      · rw [if_pos htest] at h
        cases hget : source[i]? with
        | none =>
            rw [hget] at h
            cases h
        | some p =>
            rw [hget] at h
            obtain ⟨pushed, rfl, hsubset⟩ := ih h
            refine ⟨p :: pushed, by rw [List.append_assoc, List.singleton_append], ?_⟩
            exact List.forall_mem_cons.mpr ⟨List.mem_of_getElem? hget, hsubset⟩
      · rw [if_neg htest] at h
        exact ih h

/-- Nothing passes the test. -/
theorem pushLoop_of_none (h : ∀ p ∈ l, test p = false) :
    pushLoop test source l i found = some found := by
  induction l generalizing i with
  | nil => rfl
  | cons obj rest ih =>
      obtain ⟨hobj, hrest⟩ := List.forall_mem_cons.mp h
      rw [pushLoop, if_neg (Bool.eq_false_iff.mp hobj), ih hrest]

theorem countLoop_eq : countLoop test l count = count + (l.filter test).length := by
  induction l generalizing count with
  | nil => rfl
  | cons obj rest ih =>
      rw [countLoop, ih]
      by_cases htest : test obj = true
      · rw [if_pos htest, List.filter_cons_of_pos htest, List.length_cons]
        omega
      · rw [if_neg htest, List.filter_cons_of_neg htest]

/-- Three loops of which the last one pushes from the second list. -/
theorem searches_subset {test₁ test₂ test₃ : CreaturePtr → Bool} {before : List CreaturePtr}
    (h : (do
      let r ← pushLoop test₁ inst.PlayerListPtr inst.PlayerListPtr 0 before
      let r ← pushLoop test₂ inst.NPCListPtr inst.NPCListPtr 0 r
      pushLoop test₃ inst.NPCListPtr inst.SidekickListPtr 0 r) = some (before ++ found)) :
    ∀ p ∈ found, p ∉ inst.SidekickListPtr := by
  simp only [pushLoop_self, Option.bind_eq_bind, Option.bind_some] at h
  obtain ⟨pushed, heq, hsubset⟩ := pushLoop_subset h
  rw [List.append_assoc, List.append_assoc] at heq
  rw [List.append_cancel_left heq]
  intro p hp hsidekick
  obtain ⟨hnpc, hplayer⟩ := sidekick_notMem hsidekick
  rcases List.mem_append.mp hp with hp | hp
  · exact hplayer (List.mem_of_mem_filter hp)
  rcases List.mem_append.mp hp with hp | hp
  · exact hnpc (List.mem_of_mem_filter hp)
  · exact hnpc (hsubset p hp)

/-- Where no sidekick passes its test, they push what passes the others. -/
theorem searches_eq {test₁ test₂ test₃ : CreaturePtr → Bool} {before : List CreaturePtr}
    (h : ∀ s ∈ inst.SidekickListPtr, test₃ s = false) :
    (do
      let r ← pushLoop test₁ inst.PlayerListPtr inst.PlayerListPtr 0 before
      let r ← pushLoop test₂ inst.NPCListPtr inst.NPCListPtr 0 r
      pushLoop test₃ inst.NPCListPtr inst.SidekickListPtr 0 r) =
        some (before ++ (inst.PlayerListPtr.filter test₁ ++ inst.NPCListPtr.filter test₂)) ∧
      (inst.PlayerListPtr.filter test₁ ++ inst.NPCListPtr.filter test₂).Nodup := by
  constructor
  · simp only [pushLoop_self, Option.bind_eq_bind, Option.bind_some]
    rw [pushLoop_of_none h, List.append_assoc]
  · have hnodup := List.nodup_append_comm.mp (List.nodup_append.mp inst.distinct).1
    exact hnodup.sublist (List.filter_sublist.append List.filter_sublist)

end Loops

/-! ### The searches and their purpose -/

section Main

variable {inst} {this : CreaturePtr} {range x z : Int}
  {playerAbilityRestrict npcAbilityRestrict sidekickAbilityRestrict : TargetStatus}

/-- Nobody is his own enemy. -/
theorem validTargetFlag_self (this : CreaturePtr) :
    inst.validTargetFlag this this Enemy_Alive = false := by
  simp [validTargetFlag, Enemy_Alive, canPVPTarget]

/-- The other creatures are told by their IDs. -/
theorem otherNear_iff (hthis : this ∈ inst.members) {p : CreaturePtr} (hp : p ∈ inst.members)
    {abilityRestrict : TargetStatus} :
    inst.otherNear this range x z abilityRestrict p = true ↔
      p ≠ this ∧ inst.nearPoint range x z p = true ∧
        inst.validTargetFlag this p abilityRestrict = true := by
  have hid : (inst.creature p).CreatureID ≠ (inst.creature this).CreatureID ↔ p ≠ this :=
    ⟨fun h heq => h (heq ▸ rfl), fun h heq => h (inst.ids p hp this hthis heq)⟩
  unfold otherNear
  rw [Bool.and_eq_true, Bool.and_eq_true, decide_eq_true_iff, hid, and_assoc]

theorem mem_members_of_player {p : CreaturePtr} (hp : p ∈ inst.PlayerListPtr) : p ∈ inst.members :=
  mem_members.mpr (.inr (.inl hp))

theorem mem_members_of_npc {p : CreaturePtr} (hp : p ∈ inst.NPCListPtr) : p ∈ inst.members :=
  mem_members.mpr (.inl hp)

theorem mem_members_of_sidekick {p : CreaturePtr} (hp : p ∈ inst.SidekickListPtr) :
    p ∈ inst.members := mem_members.mpr (.inr (.inr hp))

/-- Where there is no sidekick to find, the search for enemies finds what it is for. -/
theorem enemies_of_noSidekick (h : inst.NoSidekick this range x z sidekickAbilityRestrict)
    (enemies : List CreaturePtr) :
    ∃ found, Appends (inst.WantedEnemy this range x z) enemies
      (inst.aiFillEnemyNear this range x z enemies) found ∧
        found.length = inst.aiCountEnemyNear this range x z := by
  set test : CreaturePtr → Bool := fun obj =>
    inst.nearPoint range x z obj && inst.validTargetFlag this obj Enemy_Alive with htest
  have hnone : ∀ s ∈ inst.SidekickListPtr, test s = false := by
    intro s hs
    refine Bool.eq_false_iff.mpr fun htrue => ?_
    obtain ⟨hnear, hvalid⟩ := Bool.and_eq_true_iff.mp htrue
    have hne : s ≠ this := by
      rintro rfl
      exact Bool.eq_false_iff.mp (validTargetFlag_self s) hvalid
    exact Bool.eq_false_iff.mp (h s hs hne hnear).1 hvalid
  obtain ⟨heq, hnodup⟩ := @searches_eq inst test test test enemies hnone
  refine ⟨_, ⟨heq, hnodup, fun p => ?_⟩, ?_⟩
  · rw [List.mem_append, List.mem_filter, List.mem_filter]
    unfold WantedEnemy
    rw [mem_members, ← Bool.and_eq_true_iff]
    constructor
    · rintro (⟨hp, hpass⟩ | ⟨hp, hpass⟩)
      · exact ⟨.inr (.inl hp), hpass⟩
      · exact ⟨.inl hp, hpass⟩
    · rintro ⟨hp | hp | hp, hpass⟩
      · exact .inr ⟨hp, hpass⟩
      · exact .inl ⟨hp, hpass⟩
      · exact absurd hpass (Bool.eq_false_iff.mp (hnone p hp))
  · have hzero : inst.SidekickListPtr.filter test = [] :=
      List.filter_eq_nil_iff.mpr fun s hs => Bool.eq_false_iff.mp (hnone s hs)
    unfold aiCountEnemyNear
    rw [← htest, countLoop_eq, countLoop_eq, countLoop_eq, hzero, List.length_append,
      List.length_nil]
    omega

/-- So does the search for creatures. -/
theorem creatures_of_noSidekick (hthis : this ∈ inst.members)
    (h : inst.NoSidekick this range x z sidekickAbilityRestrict) (creatures : List CreaturePtr) :
    ∃ found, Appends (inst.WantedCreature this range x z playerAbilityRestrict npcAbilityRestrict
      sidekickAbilityRestrict) creatures (inst.aiFillCreaturesNear this range x z
        playerAbilityRestrict npcAbilityRestrict sidekickAbilityRestrict creatures) found := by
  have hnone : ∀ s ∈ inst.SidekickListPtr,
      inst.otherNear this range x z sidekickAbilityRestrict s = false := by
    intro s hs
    refine Bool.eq_false_iff.mpr fun htrue => ?_
    obtain ⟨hne, hnear, hvalid⟩ := (otherNear_iff hthis (mem_members_of_sidekick hs)).mp htrue
    exact Bool.eq_false_iff.mp (h s hs hne hnear).2 hvalid
  obtain ⟨heq, hnodup⟩ := @searches_eq inst (inst.otherNear this range x z playerAbilityRestrict)
    (inst.otherNear this range x z npcAbilityRestrict) _ creatures hnone
  refine ⟨_, heq, hnodup, fun p => ?_⟩
  rw [List.mem_append, List.mem_filter, List.mem_filter]
  constructor
  · rintro (⟨hp, hpass⟩ | ⟨hp, hpass⟩)
    · obtain ⟨hne, hnear, hvalid⟩ := (otherNear_iff hthis (mem_members_of_player hp)).mp hpass
      exact ⟨hne, hnear, .inl ⟨hp, hvalid⟩⟩
    · obtain ⟨hne, hnear, hvalid⟩ := (otherNear_iff hthis (mem_members_of_npc hp)).mp hpass
      exact ⟨hne, hnear, .inr (.inl ⟨hp, hvalid⟩)⟩
  · rintro ⟨hne, hnear, ⟨hp, hvalid⟩ | ⟨hp, hvalid⟩ | ⟨hp, hvalid⟩⟩
    · exact .inl ⟨hp, (otherNear_iff hthis (mem_members_of_player hp)).mpr ⟨hne, hnear, hvalid⟩⟩
    · exact .inr ⟨hp, (otherNear_iff hthis (mem_members_of_npc hp)).mpr ⟨hne, hnear, hvalid⟩⟩
    · have hpass := (otherNear_iff hthis (mem_members_of_sidekick hp)).mpr ⟨hne, hnear, hvalid⟩
      exact absurd hpass (Bool.eq_false_iff.mp (hnone p hp))

end Main

end ActiveInstance

/-! ### A wolf and a knight with a squire -/

/-- The wolf is the NPC with pointer 1, the knight the player with pointer 2, and his squire the
sidekick with pointer 3. -/
def wolfDen : ActiveInstance where
  creature p := { CreatureID := p, Faction := if p = 1 then 1 else 0, CurrentX := 10 * p }
  NPCListPtr := [1]
  PlayerListPtr := [2]
  SidekickListPtr := [3]
  distinct := by decide
  ids := by decide

end Iceee.Targets
