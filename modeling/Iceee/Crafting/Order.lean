import Iceee.Crafting.Recipe

/-!
# The order of the inputs

The inputs are sorted before a recipe looks at them, by the types and the IDs of their items. What
the recipe sees does not depend on the order in which they came, unless two stacks of one item have
different sizes: either may come first then.
-/

namespace Iceee.Crafting

open Lib

/-- Where the order cannot tell two entries apart, sorting puts the one before the other. -/
theorem insertionSort_cons_cons {α : Type*} {r : α → α → Prop} [DecidableRel r] {a b : α}
    (hbb : r b b) (hsame : ∀ x, r a x ↔ r b x) (l : List α) :
    (a :: b :: l).insertionSort r =
      (l.insertionSort r).takeWhile (fun x => ¬r b x) ++
        a :: b :: (l.insertionSort r).dropWhile (fun x => ¬r b x) := by
  have hfun : (fun x => decide ¬r a x) = fun x => decide ¬r b x := by
    funext x
    exact decide_eq_decide.mpr (not_congr (hsame x))
  have htake : ∀ x ∈ (l.insertionSort r).takeWhile (fun x => ¬r b x), (decide ¬r b x) = true :=
    fun x hx => List.mem_takeWhile_imp (p := fun x => decide ¬r b x) hx
  rw [List.insertionSort_cons, List.insertionSort_cons, List.orderedInsert_eq_take_drop r b,
    List.orderedInsert_eq_take_drop r a, hfun, List.takeWhile_append_of_pos htake,
    List.dropWhile_append_of_pos htake, List.takeWhile_cons_of_neg (by simpa using hbb),
    List.dropWhile_cons_of_neg (by simpa using hbb), List.append_nil]

/-- Two entries that the order cannot tell apart change places when they come the other way. -/
theorem insertionSort_swap {α : Type*} {r : α → α → Prop} [DecidableRel r] {a b : α}
    (haa : r a a) (hbb : r b b) (hsame : ∀ x, r a x ↔ r b x) (l : List α) :
    ∃ p q, (a :: b :: l).insertionSort r = p ++ a :: b :: q ∧
      (b :: a :: l).insertionSort r = p ++ b :: a :: q := by
  have hfun : (fun x => decide ¬r a x) = fun x => decide ¬r b x := by
    funext x
    exact decide_eq_decide.mpr (not_congr (hsame x))
  refine ⟨_, _, insertionSort_cons_cons hbb hsame l, ?_⟩
  rw [insertionSort_cons_cons haa (fun x => (hsame x).symm) l, hfun]

/-! ### What a recipe sees -/

/-- An input without its CCSID. -/
def CraftInputSlot.seen (input : CraftInputSlot) : CraftInputSlot := { input with mCCSID := 0 }

theorem getElem?_map_seen (inputItems : List CraftInputSlot) (i : Nat) :
    (inputItems.map CraftInputSlot.seen)[i]? = (inputItems[i]?).map CraftInputSlot.seen :=
  List.getElem?_map

theorem checkOne_seen (properties : Int → CraftProperties) (inputItems : List CraftInputSlot)
    (condition : Text) :
    checkOne properties (inputItems.map CraftInputSlot.seen) condition =
      checkOne properties inputItems condition := by
  unfold checkOne
  simp only [getElem?_map_seen]
  split
  · rfl
  · split
    · rfl
    · cases inputItems[(getIntParam (split condition) 0).toNat]? with
      | none => rfl
      | some input =>
          simp only [Option.map_some, Option.any_map]
          rfl

theorem checkCondition_seen (properties : Int → CraftProperties) (conditions : List Text)
    (inputItems : List CraftInputSlot) :
    checkCondition properties conditions (inputItems.map CraftInputSlot.seen) =
      checkCondition properties conditions inputItems := by
  unfold checkCondition
  simp only [checkOne_seen]

theorem generateOne_seen (inputItems : List CraftInputSlot) (action : Text) :
    generateOne (inputItems.map CraftInputSlot.seen) action = generateOne inputItems action := by
  unfold generateOne
  simp only [getElem?_map_seen, Option.map_map, Option.bind_map]
  rfl

theorem generateOutputs_seen (recipe : CraftRecipe) (inputItems : List CraftInputSlot) :
    recipe.generateOutputs (inputItems.map CraftInputSlot.seen) =
      recipe.generateOutputs inputItems := by
  unfold CraftRecipe.generateOutputs
  congr 1
  ext1 action
  exact generateOne_seen inputItems action

namespace CraftManager

variable (cm : CraftManager)

/-- `GetRecipe`, which sorts the inputs itself. -/
def findRecipe (inputItems : List CraftInputSlot) : Option CraftRecipe :=
  cm.getRecipe (cm.sortInputs.sort inputItems)

/-- `RunRecipe`: the outputs, and whether there are any. Without a recipe it looks for one, which
sorts the inputs once more. -/
def runRecipe (recipe : Option CraftRecipe) (inputItems : List CraftInputSlot) :
    Bool × List CraftInputSlot :=
  let inputItems := cm.sortInputs.sort inputItems
  match recipe with
  | some recipe =>
      let outputItems := recipe.generateOutputs inputItems
      (!outputItems.isEmpty, outputItems)
  | none =>
      let inputItems := cm.sortInputs.sort inputItems
      match cm.getRecipe inputItems with
      | none => (false, [])
      | some recipe =>
          let outputItems := recipe.generateOutputs inputItems
          (!outputItems.isEmpty, outputItems)

theorem getRecipe_seen (inputItems : List CraftInputSlot) :
    cm.getRecipe (inputItems.map CraftInputSlot.seen) = cm.getRecipe inputItems := by
  unfold getRecipe
  simp only [checkCondition_seen, List.length_map]

end CraftManager

/-- Stacks of one item are of one size. -/
def EvenStacks (inputItems : List CraftInputSlot) : Prop :=
  ∀ a ∈ inputItems, ∀ b ∈ inputItems, a.mID = b.mID → a.mStackCount = b.mStackCount

variable {properties : Int → CraftProperties} {inputItems l₁ l₂ : List CraftInputSlot}

theorem sorted_seen {l : List CraftInputSlot}
    (h : l.Pairwise fun a b => sortComparator properties b a = false) :
    (l.map CraftInputSlot.seen).Pairwise fun a b => sortComparator properties b a = false :=
  List.pairwise_map.mpr h

/-- Where stacks of one item are of one size, a recipe sees one order of the inputs only. -/
theorem EvenStacks.seen_eq (heven : EvenStacks inputItems) (h₁ : l₁.Perm inputItems)
    (h₂ : l₂.Perm inputItems)
    (hs₁ : l₁.Pairwise fun a b => sortComparator properties b a = false)
    (hs₂ : l₂.Pairwise fun a b => sortComparator properties b a = false) :
    l₁.map CraftInputSlot.seen = l₂.map CraftInputSlot.seen := by
  refine List.Perm.eq_of_pairwise ?_ (sorted_seen hs₁) (sorted_seen hs₂)
    ((h₁.trans h₂.symm).map _)
  intro seen seen' hseen hseen' hab hba
  obtain ⟨a, ha, rfl⟩ := List.mem_map.mp hseen
  obtain ⟨b, hb, rfl⟩ := List.mem_map.mp hseen'
  -- inputs that the order cannot tell apart are of the same item
  have hid : a.mID = b.mID := by
    rw [sortComparator_eq_false] at hab hba
    simp only [CraftInputSlot.seen] at hab hba
    omega
  have hcount := heven a (h₁.subset ha) b (h₂.subset hb) hid
  simp only [CraftInputSlot.seen, hid, hcount]

/-- Whatever the recipes are and however inputs are sorted that the order cannot tell apart, two
arrangements of the inputs lead to the same recipe and the same outputs. -/
def OrderIndependent (properties : Int → CraftProperties) (inputItems : List CraftInputSlot) :
    Prop :=
  ∀ (items : ItemManager) (mRecipes : List CraftRecipe) (sortInputs : InputSort properties)
    (recipe : Option CraftRecipe) (l₁ l₂ : List CraftInputSlot),
    l₁.Perm inputItems → l₂.Perm inputItems →
    let cm : CraftManager := { items, properties, mRecipes, sortInputs }
    cm.findRecipe l₁ = cm.findRecipe l₂ ∧ cm.runRecipe recipe l₁ = cm.runRecipe recipe l₂

theorem EvenStacks.orderIndependent (heven : EvenStacks inputItems) :
    OrderIndependent properties inputItems := by
  intro items mRecipes sortInputs recipe l₁ l₂ h₁ h₂ cm
  have hperm : ∀ l, l.Perm inputItems → (sortInputs.sort l).Perm inputItems := fun l hl =>
    (sortInputs.perm l).trans hl
  have hsort : ∀ l l', l.Perm inputItems → l'.Perm inputItems →
      (sortInputs.sort l).map CraftInputSlot.seen = (sortInputs.sort l').map CraftInputSlot.seen :=
    fun l l' hl hl' => heven.seen_eq (hperm l hl) (hperm l' hl') (sortInputs.sorted l)
      (sortInputs.sorted l')
  have hfind : ∀ l l', l.Perm inputItems → l'.Perm inputItems →
      cm.findRecipe l = cm.findRecipe l' := by
    intro l l' hl hl'
    unfold CraftManager.findRecipe
    rw [← cm.getRecipe_seen, hsort l l' hl hl', cm.getRecipe_seen]
  have houtputs : ∀ (r : CraftRecipe) l l', l.Perm inputItems → l'.Perm inputItems →
      r.generateOutputs (sortInputs.sort l) = r.generateOutputs (sortInputs.sort l') := by
    intro r l l' hl hl'
    rw [← generateOutputs_seen, hsort l l' hl hl', generateOutputs_seen]
  refine ⟨hfind l₁ l₂ h₁ h₂, ?_⟩
  cases recipe with
  | some r =>
      simp only [CraftManager.runRecipe]
      rw [houtputs r l₁ l₂ h₁ h₂]
  | none =>
      have hrecipe : cm.getRecipe (cm.sortInputs.sort (cm.sortInputs.sort l₁)) =
          cm.getRecipe (cm.sortInputs.sort (cm.sortInputs.sort l₂)) :=
        hfind _ _ (hperm l₁ h₁) (hperm l₂ h₂)
      have houtputs : ∀ r : CraftRecipe,
          r.generateOutputs (cm.sortInputs.sort (cm.sortInputs.sort l₁)) =
            r.generateOutputs (cm.sortInputs.sort (cm.sortInputs.sort l₂)) := fun r =>
        houtputs r _ _ (hperm l₁ h₁) (hperm l₂ h₂)
      simp only [CraftManager.runRecipe, hrecipe, houtputs]

def giveidxmult : Text := "giveidxmult".toList

/-- A recipe whose output has the size of the input at one place. -/
def sizeOf (i : Nat) : CraftRecipe where
  mActions := [commas [giveidxmult, ['1'], printNat i]]

theorem generateOutputs_sizeOf {i : Nat} {input : CraftInputSlot} (hi : i < 2 ^ 31)
    (hcount : InInt32 input.mStackCount) (h : inputItems[i]? = some input) :
    (sizeOf i).generateOutputs inputItems = [{ mID := 1, mStackCount := input.mStackCount }] := by
  have hsplit : split (commas [giveidxmult, ['1'], printNat i]) =
      [giveidxmult, ['1'], printNat i] := by
    refine split_commas ?_ (by simp)
    simp only [List.forall_mem_cons, List.not_mem_nil, false_implies, implies_true, and_true]
    exact ⟨by decide, by decide, comma_notMem_printNat i⟩
  have hop : String.ofList giveidxmult = "giveidxmult" := by decide
  have hone : atoi ['1'] = 1 := by decide
  have haction : generateOne inputItems (commas [giveidxmult, ['1'], printNat i]) =
      some { mID := 1, mStackCount := input.mStackCount } := by
    simp only [generateOne, hsplit, getIntParam, List.getD_cons_zero, hop, List.getElem?_cons_succ,
      List.getElem?_cons_zero, List.getElem?_nil, atoi_printNat hi, hone, Int.toNat_natCast, h,
      Option.map_some]
    simp [wrap32_eq hcount]
  unfold CraftRecipe.generateOutputs sizeOf
  rw [List.filterMap_cons, haction, List.filterMap_nil]

/-- Two stacks of one item with different sizes come out of a stable sort in the order in which they
went in. -/
theorem orderIndependent_evenStacks (hlen : inputItems.length < 2 ^ 31)
    (hcount : ∀ a ∈ inputItems, InInt32 a.mStackCount)
    (h : OrderIndependent properties inputItems) : EvenStacks inputItems := by
  intro a ha b hb hid
  by_contra hne'
  have hne : b ≠ a := fun heq => hne' (by rw [heq])
  obtain ⟨rest, hrest⟩ : ∃ rest, (a :: b :: rest).Perm inputItems := by
    have hb' : b ∈ inputItems.erase a := (List.mem_erase_of_ne hne).mpr hb
    exact ⟨_, ((List.perm_cons_erase ha).trans ((List.perm_cons_erase hb').cons a)).symm⟩
  have hrest' : (b :: a :: rest).Perm inputItems := (List.Perm.swap a b rest).trans hrest
  have hself : ∀ x : CraftInputSlot, sortComparator properties x x = false := fun x =>
    sortComparator_eq_false.mpr (.inr ⟨rfl, le_rfl⟩)
  have hsame : ∀ x,
      sortComparator properties x a = false ↔ sortComparator properties x b = false := by
    intro x
    rw [sortComparator_eq_false, sortComparator_eq_false, hid]
  obtain ⟨p, q, hsort, hsort'⟩ := insertionSort_swap
    (r := fun a b => sortComparator properties b a = false) (hself a) (hself b) hsame rest
  obtain ⟨-, hrun⟩ := h { getPointerByID := fun _ => none, mID_eq := fun h => by cases h } []
    (.inserting properties) (some (sizeOf p.length)) _ _ hrest hrest'
  have hat : ∀ (x y : CraftInputSlot), (p ++ x :: y :: q)[p.length]? = some x := fun x y => by
    rw [List.getElem?_append_right le_rfl, Nat.sub_self, List.getElem?_cons_zero]
  have hp : p.length < 2 ^ 31 := by
    have hlen' := congrArg List.length hsort
    rw [List.length_insertionSort, hrest.length_eq, List.length_append, List.length_cons] at hlen'
    omega
  have hrun' : (sizeOf p.length).generateOutputs (p ++ a :: b :: q) =
      (sizeOf p.length).generateOutputs (p ++ b :: a :: q) := by
    rw [← hsort, ← hsort']
    exact (Prod.mk.inj hrun).2
  rw [generateOutputs_sizeOf hp (hcount a ha) (hat a b),
    generateOutputs_sizeOf hp (hcount b hb) (hat b a)] at hrun'
  exact hne' (CraftInputSlot.mk.inj (List.cons.inj hrun').1).2.2

/-- The choice of a recipe and its outputs do not depend on the order of the inputs exactly when
stacks of one item are of one size. The places and the sizes of the inputs are `int`s. -/
theorem orderIndependent_iff (properties : Int → CraftProperties)
    (inputItems : List CraftInputSlot) (hlen : inputItems.length < 2 ^ 31)
    (hcount : ∀ a ∈ inputItems, InInt32 a.mStackCount) :
    OrderIndependent properties inputItems ↔ EvenStacks inputItems :=
  ⟨orderIndependent_evenStacks hlen hcount, EvenStacks.orderIndependent⟩

theorem orderIndependent_iff_ingots : OrderIndependent (fun _ => {}) [⟨1, 5, 2⟩, ⟨2, 5, 2⟩] :=
  (orderIndependent_iff _ _ (by decide) (by decide)).mpr (by unfold EvenStacks; decide)

/-- A recipe of one and three pieces of item 5 is found when the one comes first. -/
theorem orderIndependent_stacks : ¬∀ (properties : Int → CraftProperties)
    (inputItems : List CraftInputSlot), OrderIndependent properties inputItems := by
  intro h
  have hfind := (h (fun _ => {}) [⟨1, 5, 1⟩, ⟨2, 5, 3⟩]
    { getPointerByID := fun _ => none, mID_eq := fun h => by cases h }
    [{ mInputCount := 2, mConditions := ["0,requireid,5,1".toList, "1,requireid,5,3".toList] }]
    (.inserting _) none [⟨1, 5, 1⟩, ⟨2, 5, 3⟩] [⟨2, 5, 3⟩, ⟨1, 5, 1⟩] (.refl _)
    (.swap _ _ _)).1
  exact absurd hfind (by decide)

end Iceee.Crafting
