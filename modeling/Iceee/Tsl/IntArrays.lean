import Iceee.Lib.Neighbours
import Iceee.Tsl.Script

/-!
# The integer arrays of a script

An operand that names an integer array is compiled to an index. `CreateIntArray` gives the index of
the last array, which is that of the name when the name is new.

## Main results

* `consistent_iff`: the operands of a script have one index for each name exactly where the uses of
  each name stand together.
-/

namespace Iceee.Tsl

open Lib

/-! ### Indices in the order of the uses -/

/-- The arrays there are after a name was used. -/
def withName (l : List String) (name : String) : List String :=
  if name ∈ l then l else l ++ [name]

/-- The names that are used, with the indices that they get. -/
def indices : List String → List String → List (String × Int)
  | _, [] => []
  | l, name :: rest =>
      (name, ((withName l name).length : Int) - 1) :: indices (withName l name) rest

/-- Every name has one index, and every index one name. -/
def Consistent (uses : List (String × Int)) : Prop :=
  ∀ p ∈ uses, ∀ q ∈ uses, p.1 = q.1 ↔ p.2 = q.2

instance : DecidablePred Consistent := fun _ => inferInstanceAs (Decidable (∀ p ∈ _, _))

section Indices

variable {l names : List String} {name : String} {p q : String × Int}

theorem length_le_length_withName (l : List String) (name : String) :
    l.length ≤ (withName l name).length := by
  unfold withName
  split <;> simp

theorem mem_withName {x : String} : x ∈ withName l name ↔ x ∈ l ∨ x = name := by
  unfold withName
  split
  · rename_i hname
    exact ⟨.inl, fun h => h.elim id fun heq => heq ▸ hname⟩
  · rw [List.mem_append, List.mem_singleton]

theorem indices_append (l xs ys : List String) :
    indices l (xs ++ ys) = indices l xs ++ indices (xs.foldl withName l) ys := by
  induction xs generalizing l with
  | nil => rfl
  | cons x xs ih => exact congrArg _ (ih _)

theorem map_fst_indices (l names : List String) : (indices l names).map Prod.fst = names := by
  induction names generalizing l with
  | nil => rfl
  | cons name names ih => exact congrArg _ (ih _)

/-- Indices do not get smaller. -/
theorem le_of_mem_indices (h : p ∈ indices l names) : (l.length : Int) - 1 ≤ p.2 := by
  induction names generalizing l with
  | nil => cases h
  | cons name names ih =>
      have hle := length_le_length_withName l name
      rcases List.mem_cons.mp h with rfl | h
      · simp only
        omega
      · have hlater := ih h
        omega

theorem mem_names_of_mem_indices (h : p ∈ indices l names) : p.1 ∈ names := by
  rw [← map_fst_indices l names]
  exact List.mem_map_of_mem h

theorem exists_of_mem_names (h : name ∈ names) : ∃ i, (name, i) ∈ indices l names := by
  rw [← map_fst_indices l names, List.mem_map] at h
  obtain ⟨p, hp, rfl⟩ := h
  exact ⟨p.2, hp⟩

theorem Consistent.of_cons {uses : List (String × Int)} (h : Consistent (p :: uses)) :
    Consistent uses := fun q hq r hr =>
  h q (List.mem_cons_of_mem _ hq) r (List.mem_cons_of_mem _ hr)

theorem consistent_cons {uses : List (String × Int)} (h : Consistent uses)
    (hp : ∀ q ∈ uses, q.1 = p.1 ↔ q.2 = p.2) : Consistent (p :: uses) := by
  intro q hq r hr
  rcases List.mem_cons.mp hq with hqp | hq <;> rcases List.mem_cons.mp hr with hrp | hr
  · rw [hqp, hrp]
    exact ⟨fun _ => rfl, fun _ => rfl⟩
  · rw [hqp, eq_comm, hp r hr, eq_comm]
  · rw [hrp]
    exact hp q hq
  · exact h q hq r hr

/-- What is used between two uses of a name has its index. -/
theorem grouped_of_consistent (h : Consistent (indices l names)) : Grouped names := by
  induction names generalizing l with
  | nil => trivial
  | cons a names ih =>
      cases names with
      | nil => trivial
      | cons b names =>
          refine ⟨fun hmem => ?_, ih h.of_cons⟩
          rcases List.mem_cons.mp hmem with hab | hmem
          · exact hab
          · obtain ⟨i, hi⟩ := @exists_of_mem_names (withName (withName l a) b) names a hmem
            have hagain : (a, i) ∈ indices l (a :: b :: names) :=
              List.mem_cons_of_mem _ (List.mem_cons_of_mem _ hi)
            have hfirst := (h _ List.mem_cons_self _ hagain).mp rfl
            have hle := length_le_length_withName (withName l a) b
            have hge := le_of_mem_indices hi
            exact (h _ List.mem_cons_self _ (List.mem_cons_of_mem _ List.mem_cons_self)).mpr
              (by simp only at hfirst hge ⊢; omega)

/-- Where the uses of each name stand together, a name that comes up after the last array `a` is
`a` or new. -/
theorem consistent_of_grouped {a : String} (hgrouped : Grouped (a :: names)) (ha : a ∈ l)
    (hlast : ∀ x ∈ l, x ∈ names → x = a) :
    Consistent (indices l names) ∧
      ∀ q ∈ indices l names, q.1 = a ↔ q.2 = (l.length : Int) - 1 := by
  induction names generalizing l a with
  | nil =>
      exact ⟨fun p hp => absurd hp List.not_mem_nil, fun q hq => absurd hq List.not_mem_nil⟩
  | cons b names ih =>
      obtain ⟨hnext, hrest⟩ := hgrouped
      rcases eq_or_ne a b with rfl | hab
      · -- the last array is used again
        have hsame : withName l a = l := if_pos ha
        obtain ⟨hcons, huse⟩ := ih hrest ha fun x hx hxn => hlast x hx (List.mem_cons_of_mem _ hxn)
        rw [indices, hsame]
        refine ⟨consistent_cons hcons huse, fun q hq => ?_⟩
        rcases List.mem_cons.mp hq with rfl | hq
        · exact ⟨fun _ => rfl, fun _ => rfl⟩
        · exact huse q hq
      · -- another array is made
        have hnotmem : a ∉ b :: names := fun hmem => hab (hnext hmem)
        have hnew : b ∉ l := fun hb => hab (hlast b hb List.mem_cons_self).symm
        have hwith : withName l b = l ++ [b] := if_neg hnew
        have hlast' : ∀ x ∈ withName l b, x ∈ names → x = b := by
          intro x hx hxn
          rcases mem_withName.mp hx with hx | hx
          · have hxa := hlast x hx (List.mem_cons_of_mem _ hxn)
            exact absurd (List.mem_cons_of_mem b hxn) (hxa ▸ hnotmem)
          · exact hx
        obtain ⟨hcons, huse⟩ := ih hrest (mem_withName.mpr (.inr rfl)) hlast'
        refine ⟨consistent_cons hcons huse, fun q hq => ?_⟩
        have hne : q.1 ≠ a := by
          have hmem := mem_names_of_mem_indices hq
          rintro rfl
          exact hnotmem hmem
        have hlarger : (l.length : Int) ≤ q.2 := by
          have hlength : (withName l b).length = l.length + 1 := by simp [hwith]
          rcases List.mem_cons.mp hq with rfl | hq
          · simp only [hlength]
            omega
          · have hge := le_of_mem_indices hq
            omega
        refine ⟨fun heq => absurd heq hne, fun heq => ?_⟩
        omega

/-- From no arrays on, the names have one index each exactly where their uses stand together. -/
theorem consistent_indices_iff : Consistent (indices [] names) ↔ Grouped names := by
  refine ⟨grouped_of_consistent, fun h => ?_⟩
  cases names with
  | nil => exact fun p hp => absurd hp List.not_mem_nil
  | cons a names =>
      obtain ⟨hcons, huse⟩ := @consistent_of_grouped (withName [] a) names a h
        (mem_withName.mpr (.inr rfl)) fun x hx _ => (mem_withName.mp hx).elim nofun id
      exact consistent_cons hcons huse

end Indices

/-! ### The operands of a script -/

/-- Of the values that operands are compiled to, those of integer arrays, with their names. -/
def arrayOperands : List OpCodeParamType → List String → List Int → List (String × Int)
  | .intArr :: types, name :: tokens, value :: values =>
      (name, value) :: arrayOperands types tokens values
  | _ :: types, tokens, _ :: values => arrayOperands types tokens.tail values
  | _, _, _ => []

/-- The names of integer arrays among operands. -/
def arrayNames : List OpCodeParamType → List String → List String
  | [], _ => []
  | .intArr :: types, name :: tokens => name :: arrayNames types tokens
  | _ :: types, tokens => arrayNames types tokens.tail

namespace Compilation

/-- The integer arrays that a command uses, with the indices in the instruction that is made of
it. -/
def arrayUses (g : Dialect) (s : Compilation) : Command → List (String × Int)
  | .instruction opname args =>
      let opinfo := g.getInstructionDataByName opname
      if opinfo.opCode = .nop then []
      else arrayOperands opinfo.paramType args (s.d.compileParams opinfo.paramType args).2
  | _ => []

/-- The integer arrays that lines of a source use, in their order. -/
def sourceUses (g : Dialect) : Compilation → List Text → List (String × Int)
  | _, [] => []
  | s, line :: rest =>
      (s.addQuoted (s.read line)).arrayUses g (g.command (s.read line).tokens) ++
        sourceUses g (s.compileLine g line) rest

end Compilation

section Compiled

variable {g : Dialect} {d : ScriptDef} {s : Compilation}

theorem createIntArray_eq (d : ScriptDef) (name : String) :
    d.createIntArray name = ({ d with mIntArray := withName d.mIntArray name },
      ((withName d.mIntArray name).length : Int) - 1) := by
  unfold ScriptDef.createIntArray withName
  split <;> rfl

theorem mIntArray_createString (d : ScriptDef) (name : String) :
    (d.createString name).1.mIntArray = d.mIntArray := by
  unfold ScriptDef.createString
  split <;> rfl

theorem mIntArray_createVariable (d : ScriptDef) (name : String) :
    (d.createVariable name).1.mIntArray = d.mIntArray := by
  unfold ScriptDef.createVariable
  split <;> rfl

theorem mIntArray_createLabel (d : ScriptDef) (name : String) (targInst : Int) :
    (d.createLabel name targInst).1.mIntArray = d.mIntArray := by
  unfold ScriptDef.createLabel
  split
  · rfl
  · simp only
    split <;> split <;> rfl

theorem mIntArray_resolveOperandType (d : ScriptDef) (token : String) :
    (d.resolveOperandType token).1.mIntArray = d.mIntArray := by
  unfold ScriptDef.resolveOperandType
  split
  · exact mIntArray_createString d token
  · split
    · rfl
    · split <;> rfl

/-- Only an operand that names an integer array makes one. -/
theorem mIntArray_compileParam {type : OpCodeParamType} {token : Option String}
    (h : type = .intArr → token = none) :
    (d.compileParam type token).1.mIntArray = d.mIntArray := by
  have hresolve : (d.resolveOperand type token).1.mIntArray = d.mIntArray := by
    cases token with
    | none => rfl
    | some token =>
        cases type with
        | label => exact mIntArray_createLabel d token (-1)
        | str => exact mIntArray_createString d token
        | var => exact mIntArray_createVariable d token
        | intStk => exact mIntArray_resolveOperandType d token
        | intArr => exact nomatch h rfl
        | _ => rfl
  unfold ScriptDef.compileParam
  simp only
  split <;> exact hresolve

section Skip

variable {type : OpCodeParamType} {types : List OpCodeParamType} {tokens : List String}

theorem arrayNames_skip (h : ¬(type = .intArr ∧ tokens ≠ [])) :
    arrayNames (type :: types) tokens = arrayNames types tokens.tail := by
  cases tokens with
  | nil => cases type <;> rfl
  | cons name rest =>
      cases type with
      | intArr => exact absurd ⟨rfl, List.cons_ne_nil name rest⟩ h
      | _ => rfl

theorem arrayOperands_skip (h : ¬(type = .intArr ∧ tokens ≠ [])) (value : Int)
    (values : List Int) : arrayOperands (type :: types) tokens (value :: values) =
      arrayOperands types tokens.tail values := by
  cases tokens with
  | nil => cases type <;> rfl
  | cons name rest =>
      cases type with
      | intArr => exact absurd ⟨rfl, List.cons_ne_nil name rest⟩ h
      | _ => rfl

end Skip

/-- The operands of an instruction are compiled to indices in their order. -/
theorem compileParams_spec (types : List OpCodeParamType) (tokens : List String) (d : ScriptDef) :
    arrayOperands types tokens (d.compileParams types tokens).2 =
        indices d.mIntArray (arrayNames types tokens) ∧
      (d.compileParams types tokens).1.mIntArray =
        (arrayNames types tokens).foldl withName d.mIntArray := by
  induction types generalizing tokens d with
  | nil => exact ⟨by cases tokens <;> rfl, rfl⟩
  | cons type types ih =>
      obtain ⟨huses, hmade⟩ := ih tokens.tail (d.compileParam type tokens.head?).1
      by_cases harray : type = .intArr ∧ tokens ≠ []
      · obtain ⟨rfl, htokens⟩ := harray
        obtain ⟨name, rest, rfl⟩ := List.exists_cons_of_ne_nil htokens
        have hparam : d.compileParam .intArr (some name) =
            ({ d with mIntArray := withName d.mIntArray name },
              ((withName d.mIntArray name).length : Int) - 1) := by
          unfold ScriptDef.compileParam ScriptDef.resolveOperand
          simp only [createIntArray_eq]
          rfl
        simp only [List.head?_cons, List.tail_cons, hparam] at huses hmade
        simp only [ScriptDef.compileParams, List.head?_cons, List.tail_cons, hparam,
          arrayOperands, arrayNames, indices, List.foldl_cons]
        exact ⟨congrArg _ huses, hmade⟩
      · have hkeep : (d.compileParam type tokens.head?).1.mIntArray = d.mIntArray := by
          refine mIntArray_compileParam fun htype => List.head?_eq_none_iff.mpr ?_
          exact not_not.mp fun hne => harray ⟨htype, hne⟩
        rw [hkeep] at huses hmade
        rw [arrayNames_skip harray]
        exact ⟨(arrayOperands_skip harray _ _).trans huses, hmade⟩

theorem mIntArray_compileIf (s : Compilation) (args : List String) :
    (s.compileIf args).d.mIntArray = s.d.mIntArray := by
  obtain _ | ⟨left, _ | ⟨cmp, _ | ⟨right, rest⟩⟩⟩ := args
  · rfl
  · rfl
  · rfl
  · have hleft := mIntArray_resolveOperandType s.d left
    have hright := mIntArray_resolveOperandType (s.d.resolveOperandType left).1 right
    have hpush (o : Option OpCode) (s : Compilation) (value : Int) :
        (o.elim s fun op => s.pushOpCode { opCode := op, param1 := value }).d.mIntArray =
          s.d.mIntArray := by
      cases o <;> rfl
    unfold Compilation.compileIf
    simp only
    split
    · exact hright.trans hleft
    · split <;> exact (hpush _ _ _).trans ((hpush _ _ _).trans (hright.trans hleft))

theorem mIntArray_compileEndif (s : Compilation) :
    s.compileEndif.d.mIntArray = s.d.mIntArray := by
  unfold Compilation.compileEndif
  split
  · rfl
  · simp only
    split <;> rfl

theorem mIntArray_compileElse (s : Compilation) :
    s.compileElse.d.mIntArray = s.d.mIntArray := by
  unfold Compilation.compileElse
  split <;> rfl

theorem mIntArray_compileRecompare (s : Compilation) :
    s.compileRecompare.d.mIntArray = s.d.mIntArray := by
  unfold Compilation.compileRecompare
  split <;> rfl

theorem mIntArray_setMetaDataBase (s : Compilation) (tokens : List String) :
    (s.setMetaDataBase tokens).d.mIntArray = s.d.mIntArray := by
  unfold Compilation.setMetaDataBase
  split <;> rfl

theorem mIntArray_foldl_pushOpCode (ops : List OpData) (s : Compilation) :
    (ops.foldl Compilation.pushOpCode s).d.mIntArray = s.d.mIntArray := by
  induction ops generalizing s with
  | nil => rfl
  | cons op ops ih => exact ih _

/-- A command uses integer arrays by their names, in their order. -/
theorem execute_spec (g : Dialect) (s : Compilation) (command : Command) :
    ∃ names, s.arrayUses g command = indices s.d.mIntArray names ∧
      (s.execute g command).d.mIntArray = names.foldl withName s.d.mIntArray := by
  cases command with
  | instruction opname args =>
      unfold Compilation.arrayUses Compilation.execute Compilation.compileInstruction
      simp only
      split
      · exact ⟨[], rfl, rfl⟩
      · obtain ⟨huses, hmade⟩ :=
          compileParams_spec (g.getInstructionDataByName opname).paramType args s.d
        refine ⟨_, huses, ?_⟩
        split <;> exact hmade
  | empty => exact ⟨[], rfl, rfl⟩
  | label name => exact ⟨[], rfl, mIntArray_createLabel s.d name _⟩
  | ifStatement args => exact ⟨[], rfl, mIntArray_compileIf s args⟩
  | endif => exact ⟨[], rfl, mIntArray_compileEndif s⟩
  | elseStatement => exact ⟨[], rfl, mIntArray_compileElse s⟩
  | recompare => exact ⟨[], rfl, mIntArray_compileRecompare s⟩
  | metaData tokens => exact ⟨[], rfl, mIntArray_setMetaDataBase s tokens⟩
  | advanced ops => exact ⟨[], rfl, mIntArray_foldl_pushOpCode ops s⟩

/-- The lines of a source use integer arrays by their names, in their order. -/
theorem sourceUses_eq (g : Dialect) (s : Compilation) (lines : List Text) :
    ∃ names, s.sourceUses g lines = indices s.d.mIntArray names := by
  induction lines generalizing s with
  | nil => exact ⟨[], rfl⟩
  | cons line lines ih =>
      obtain ⟨names, huses, hmade⟩ :=
        execute_spec g (s.addQuoted (s.read line)) (g.command (s.read line).tokens)
      obtain ⟨later, hlater⟩ := ih (s.compileLine g line)
      refine ⟨names ++ later, ?_⟩
      rw [indices_append, Compilation.sourceUses, huses, hlater]
      exact congrArg (fun l => _ ++ indices l later) hmade

end Compiled

/-- The names of the integer arrays of a source have one index each exactly where the uses of each
name stand together. -/
theorem consistent_iff (g : Dialect) (lines : List Text) :
    Consistent (({} : Compilation).sourceUses g lines) ↔
      Grouped ((({} : Compilation).sourceUses g lines).map Prod.fst) := by
  obtain ⟨names, hnames⟩ := sourceUses_eq g {} lines
  rw [hnames, map_fst_indices]
  exact consistent_indices_iff

/-- The first array is used after a second one was made. -/
def threeAppends : List Text :=
  ["iarrappend a 1".toList, "iarrappend b 2".toList, "iarrappend a 3".toList]

/-- The third line appends to the array of the second one. -/
theorem threeAppends_not_consistent :
    ¬Consistent (({} : Compilation).sourceUses {} threeAppends) ∧
      (compileSource {} threeAppends).instr[5]? = some ⟨.iarrAppend, 1, 0, 0⟩ := by
  decide

end Iceee.Tsl
