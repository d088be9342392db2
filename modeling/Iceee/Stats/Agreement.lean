import Iceee.Stats.Accessors

/-!
# The accessors agree

A stat that is copied, printed and read, or assigned and looked up is what it was, and it is written
alike by all functions that write it; `isStatEqual` is the wrong way round for texts of any length.

## Main result

* `accessorsAgree_iff`: the stats whose accessors agree.
-/

namespace Iceee.Stats

open Lib Packet

/-! ### Arrays of characters -/

theorem nul_notMem_cstr (t : Text) : NUL ∉ cstr t := by
  intro h
  have hne := List.mem_takeWhile_imp h
  rw [decide_eq_true_iff] at hne
  exact hne rfl

theorem forall_of_nul_notMem {t : Text} (h : NUL ∉ t) : ∀ c ∈ t, decide (c ≠ NUL) = true := by
  intro c hc
  rw [decide_eq_true_iff]
  rintro rfl
  exact h hc

theorem cstr_of_notMem {t : Text} (h : NUL ∉ t) : cstr t = t :=
  List.takeWhile_eq_self_iff.mpr (forall_of_nul_notMem h)

/-- A text in front of a NUL is read. -/
theorem cstr_append_nul {t : Text} (h : NUL ∉ t) (rest : Text) : cstr (t ++ NUL :: rest) = t := by
  rw [cstr, List.takeWhile_append_of_pos (forall_of_nul_notMem h),
    List.takeWhile_cons_of_neg (by simp), List.append_nil]

namespace CharArray

variable {size : ℕ} (a : CharArray size)

/-- A text that fits is read as it was copied in. -/
theorem text_copyIn {value : Text} (hnul : NUL ∉ value) (hlen : value.length < size) :
    (a.copyIn value).text = value := by
  have htake : value.take (size - 1) = value := List.take_of_length_le (by omega)
  have hdata : (a.copyIn value).data =
      value.take (size - 1) ++ NUL :: a.data.drop (min (size - 1) value.length + 1) := rfl
  rw [text, hdata, htake]
  exact cstr_append_nul hnul _

theorem nul_notMem_text : NUL ∉ a.text := nul_notMem_cstr _

theorem length_text_lt : a.text.length < size := by
  have hle : (cstr a.data).length ≤ a.data.length := (List.takeWhile_sublist _).length_le
  rcases eq_or_lt_of_le hle with heq | hlt
  · have hsame : cstr a.data = a.data := (List.takeWhile_sublist _).eq_of_length heq
    exact absurd a.nul_mem (hsame ▸ nul_notMem_cstr a.data)
  · exact hlt.trans_eq a.length_eq

end CharArray

theorem nul_notMem_printInt (n : ℤ) : NUL ∉ printInt n := fun h =>
  (mem_printInt h).elim (fun hdigit => absurd hdigit (by decide)) fun hminus =>
    absurd hminus (by decide)

/-! ### Numbers -/

theorem abs_toInt_short (x : BitVec 16) : |x.toInt| ≤ 2 ^ 15 := by
  have hlow := x.two_mul_toInt_lt
  have hhigh := x.le_two_mul_toInt
  rw [abs_le]
  omega

theorem abs_toInt_int (x : BitVec 32) : |x.toInt| ≤ 2 ^ 31 := by
  have hlow := x.two_mul_toInt_lt
  have hhigh := x.le_two_mul_toInt
  rw [abs_le]
  omega

theorem toInt_ofInt_short {n : ℤ} (h : -2 ^ 15 ≤ n ∧ n < 2 ^ 15) :
    (BitVec.ofInt 16 n).toInt = n := by
  rw [BitVec.toInt_ofInt]
  exact Int.bmod_eq_of_le (by omega) (by omega)

theorem toInt_ofInt_int {n : ℤ} (h : -2 ^ 31 ≤ n ∧ n < 2 ^ 31) :
    (BitVec.ofInt 32 n).toInt = n := by
  rw [BitVec.toInt_ofInt]
  exact Int.bmod_eq_of_le (by omega) (by omega)

theorem toShort_of_value {v : Single} {n : ℤ} (hn : -2 ^ 15 ≤ n ∧ n < 2 ^ 15)
    (hv : v.value = .finite n) : toShort v = some (BitVec.ofInt 16 n) := by
  rw [toShort, Single.toInt_of_value hv, Option.bind_some, if_pos hn]

theorem toInt_of_value {v : Single} {n : ℤ} (hn : -2 ^ 31 ≤ n ∧ n < 2 ^ 31)
    (hv : v.value = .finite n) : toInt v = some (BitVec.ofInt 32 n) := by
  rw [toInt, Single.toInt_of_value hv, Option.bind_some, if_pos hn]

/-- A whole number that is a `float` has itself as its value. -/
theorem value_ofInt {n : ℤ} (hn : |n| ≤ 2 ^ 31) (h : Single.IsSingle n) :
    (Single.ofInt n).value = .finite n :=
  (Single.value_ofInt hn).trans (congrArg Double.finite h)

/-- A `short` comes back from a `float`. -/
theorem toShort_ofInt (x : BitVec 16) : toShort (Single.ofInt x.toInt) = some x := by
  have habs := abs_toInt_short x
  have hvalue := value_ofInt (habs.trans (by decide)) (Single.isSingle_intCast (by omega))
  have hlow := x.two_mul_toInt_lt
  have hhigh := x.le_two_mul_toInt
  rw [toShort_of_value (by omega) hvalue, BitVec.ofInt_toInt]

/-- An `int` comes back from a `float` exactly when it is one. -/
theorem toInt_ofInt_iff (x : BitVec 32) :
    toInt (Single.ofInt x.toInt) = some x ↔ Single.IsSingle x.toInt := by
  have habs := abs_toInt_int x
  rw [← Single.toInt_ofInt_iff habs]
  constructor
  · intro h
    obtain ⟨n, hn, hrange⟩ := Option.bind_eq_some_iff.mp h
    split at hrange
    · next hin =>
        have heq := congrArg BitVec.toInt (Option.some.inj hrange)
        rw [toInt_ofInt_int hin] at heq
        rw [hn, heq]
    · cases hrange
  · intro h
    have hlow := x.two_mul_toInt_lt
    have hhigh := x.le_two_mul_toInt
    rw [toInt, h, Option.bind_some, if_pos (by omega), BitVec.ofInt_toInt]

/-- A number is written as its own bytes. -/
theorem putInteger_injective {x y : BitVec 32} {buffer : Memory} {pos : ℕ}
    (h : putInteger buffer pos x = putInteger buffer pos y) : x = y := by
  have hbytes := congrArg (written pos) h
  have hx := (puts_putInteger x).written_eq buffer pos
  have hy := (puts_putInteger y).written_eq buffer pos
  rw [hx, hy] at hbytes
  have hnat := congrArg ofBe hbytes
  rw [ofBe_be_of_lt (by simpa using x.isLt), ofBe_be_of_lt (by simpa using y.isLt)] at hnat
  exact BitVec.eq_of_toNat_eq hnat

/-! ### Members -/

/-- The value of a stat. -/
inductive StatValue where
  | short (value : BitVec 16)
  | integer (value : BitVec 32)
  | float (value : Double)
  | text (value : Text)

/-- What is stored in a member, as it is read. -/
def cellStored (t : StatType) (m : Member) (base : m.Cell) : StatValue :=
  match t with
  | .SHORT => .short (m.asShort base)
  | .INTEGER => .integer (m.asInt base)
  | .FLOAT => .float (m.asFloat base).value
  | .CSTRING => .text (m.asChars base)
  | .STRING => .text (m.asString base)

/-- The numbers that a stat can be assigned: texts get whole numbers. -/
def Representable (t : StatType) (v : Single) : Prop :=
  match t with
  | .SHORT => ∃ n : ℤ, (-2 ^ 15 ≤ n ∧ n < 2 ^ 15) ∧ v.value = .finite n
  | .FLOAT => True
  | .INTEGER | .CSTRING | .STRING => ∃ n : ℤ, (-2 ^ 31 ≤ n ∧ n < 2 ^ 31) ∧ v.value = .finite n

/-- `isNumericalType`. -/
def isNumericalType (t : StatType) : Bool :=
  match t with
  | .FLOAT | .INTEGER | .SHORT => true
  | .CSTRING | .STRING => false

section Cells

variable {t : StatType} {m : Member}

/-- All types but that of texts of any length are compared. -/
theorem equalCells_iff {x y : m.Cell} (hstring : t ≠ .STRING)
    (hnan : t = .FLOAT → (m.asFloat x).value ≠ .nan) :
    equalCells t m x y = true ↔ cellStored t m x = cellStored t m y := by
  cases t with
  | SHORT => rw [equalCells, cellStored, cellStored, beq_iff_eq, StatValue.short.injEq]
  | INTEGER => rw [equalCells, cellStored, cellStored, beq_iff_eq, StatValue.integer.injEq]
  | FLOAT =>
      rw [equalCells, cellStored, cellStored, floatsEqual, decide_eq_true_iff,
        and_iff_right (hnan rfl), StatValue.float.injEq]
  | CSTRING => rw [equalCells, cellStored, cellStored, beq_iff_eq, StatValue.text.injEq]
  | STRING => exact absurd rfl hstring

/-- Texts of any length are found equal when they are not. -/
theorem equalCells_self_string (x y : m.Cell) (h : m.asString x = m.asString y) :
    equalCells .STRING m x y = false := by
  rw [equalCells, h, bne_self_eq_false]

/-! What is written is read. -/

theorem asShort_setShort (h : Fits .SHORT m) (base : m.Cell) (val : BitVec 16) :
    m.asShort (m.setShort base val) = val := by
  cases h with
  | short => rfl
  | lowerHalf => exact @BitVec.setWidth_append_eq_right 16 16 (BitVec.extractLsb' 16 16 base) val

theorem asInt_setInt (h : Fits .INTEGER m) (base : m.Cell) (val : BitVec 32) :
    m.asInt (m.setInt base val) = val := by
  cases h
  rfl

theorem asFloat_setFloat (h : Fits .FLOAT m) (base : m.Cell) (val : Single) :
    m.asFloat (m.setFloat base val) = val := by
  cases h
  rfl

theorem asString_setString (h : Fits .STRING m) (base : m.Cell) (value : Text) :
    m.asString (m.setString base value) = value := by
  cases h
  rfl

/-- A text of an array fits into another one of the same size. -/
theorem asChars_setText (h : Fits .CSTRING m) (x y : m.Cell) :
    m.asChars (setText .CSTRING m (m.asChars x) y).2 = m.asChars x := by
  cases h with
  | cstring =>
      exact CharArray.text_copyIn y (CharArray.nul_notMem_text x) (CharArray.length_text_lt x)

/-- A number fits into every array. -/
theorem asChars_setChars_printInt (h : Fits .CSTRING m) (base : m.Cell) {n : ℤ}
    (hn : -2 ^ 31 ≤ n ∧ n < 2 ^ 31) : m.asChars (m.setChars base (printInt n)) = printInt n := by
  cases h with
  | cstring hsize =>
      have hlen := length_printInt_le hn.1 hn.2
      exact CharArray.text_copyIn base (nul_notMem_printInt n) (by omega)

theorem cellStored_copyCell (hfits : Fits t m) (x y : m.Cell) :
    cellStored t m (copyCell t m y x) = cellStored t m x := by
  cases t with
  | SHORT => rw [copyCell, cellStored, asShort_setShort hfits, cellStored]
  | INTEGER => rw [copyCell, cellStored, asInt_setInt hfits, cellStored]
  | FLOAT => rw [copyCell, cellStored, asFloat_setFloat hfits, cellStored]
  | CSTRING => rfl
  | STRING => rw [copyCell, cellStored, asString_setString hfits, cellStored]

/-- Of the health, when it is a `short`, the upper half is not copied. -/
theorem upperHalf_copyCell (x y : Member.int.Cell) :
    BitVec.extractLsb' 16 16 (copyCell .SHORT .int y x) = BitVec.extractLsb' 16 16 y :=
  @BitVec.extractLsb'_append_eq_left 16 16 (BitVec.extractLsb' 16 16 y) (BitVec.setWidth 16 x)

/-- What is cleared is zero. -/
theorem zeroCell_clearCell (hfits : Fits t m) (x : m.Cell) :
    zeroCell t m (clearCell t m x) = true := by
  have hzero : (⟨0⟩ : Single).value = .finite 0 := Single.value_make_zero false
  cases t with
  | SHORT => rw [clearCell, zeroCell, asShort_setShort hfits, beq_self_eq_true]
  | INTEGER => rw [clearCell, zeroCell, asInt_setInt hfits, beq_self_eq_true]
  | FLOAT => rw [clearCell, zeroCell, asFloat_setFloat hfits, hzero, beq_self_eq_true]
  | CSTRING =>
      cases hfits with
      | @cstring size hsize =>
          have htext : (CharArray.zeroed x).text = [] := by
            have hdata : (CharArray.zeroed x).data = NUL :: List.replicate (size - 1) NUL := by
              rw [← List.replicate_succ, Nat.sub_add_cancel (by omega)]
              rfl
            rw [CharArray.text, hdata]
            exact cstr_append_nul List.not_mem_nil _
          exact congrArg List.isEmpty htext
  | STRING => rw [clearCell, zeroCell, asString_setString hfits, List.isEmpty_nil]

theorem inInt32_toInt {w : Nat} (hw : w ≤ 32) (b : BitVec w) : InInt32 b.toInt := by
  have hlow := b.le_two_mul_toInt
  have hhigh := b.two_mul_toInt_lt
  have hpow : (2 : Int) ^ w ≤ 2 ^ 32 := by exact_mod_cast Nat.pow_le_pow_right (by decide) hw
  constructor <;> omega

/-- A stat that is printed is read as it was. -/
theorem cellStored_setText (hfits : Fits t m) (hstring : t ≠ .STRING) (x y : m.Cell)
    (hexact : t = .FLOAT → Single.PrintsExactly (m.asFloat x).value) :
    cellStored t m (setText t m (cellText t m x) y).2 = cellStored t m x := by
  cases t with
  | SHORT =>
      rw [cellText, setText, cellStored, asShort_setShort hfits,
        atoi_printInt (inInt32_toInt (by decide) _), BitVec.ofInt_toInt, cellStored]
  | INTEGER =>
      rw [cellText, setText, cellStored, asInt_setInt hfits,
        atoi_printInt (inInt32_toInt le_rfl _), BitVec.ofInt_toInt, cellStored]
  | FLOAT =>
      rw [cellText, setText, cellStored, asFloat_setFloat hfits,
        Single.value_ofText_format (hexact rfl), cellStored]
  | CSTRING => exact congrArg StatValue.text (asChars_setText hfits x y)
  | STRING => exact absurd rfl hstring

/-- A number that is assigned is looked up. -/
theorem value_setValue (hfits : Fits t m) {v : Single} (hv : Representable t v) (x : m.Cell) :
    ∃ y, setValue t m v x = some y ∧ (cellValue t m y).value = v.value := by
  have hint {n : ℤ} (hn : -2 ^ 31 ≤ n ∧ n < 2 ^ 31) : |n| ≤ 2 ^ 31 := abs_le.mpr (by omega)
  cases t with
  | SHORT =>
      obtain ⟨n, hn, hvalue⟩ := hv
      rw [setValue, toShort_of_value hn hvalue, Option.map_some]
      refine ⟨_, rfl, ?_⟩
      rw [cellValue, asShort_setShort hfits, toInt_ofInt_short hn, hvalue]
      exact value_ofInt (hint (by omega)) (Single.isSingle_of_value hvalue)
  | INTEGER =>
      obtain ⟨n, hn, hvalue⟩ := hv
      rw [setValue, toInt_of_value hn hvalue, Option.map_some]
      refine ⟨_, rfl, ?_⟩
      rw [cellValue, asInt_setInt hfits, toInt_ofInt_int hn, hvalue]
      exact value_ofInt (hint hn) (Single.isSingle_of_value hvalue)
  | FLOAT => exact ⟨_, rfl, by rw [cellValue, asFloat_setFloat hfits]⟩
  | CSTRING =>
      obtain ⟨n, hn, hvalue⟩ := hv
      rw [setValue, toInt_of_value hn hvalue, Option.map_some]
      refine ⟨_, rfl, ?_⟩
      rw [cellValue, toInt_ofInt_int hn, asChars_setChars_printInt hfits x hn, hvalue]
      exact Single.value_ofText_printInt (hint hn) (Single.isSingle_of_value hvalue)
  | STRING =>
      obtain ⟨n, hn, hvalue⟩ := hv
      rw [setValue, toInt_of_value hn hvalue, Option.map_some]
      refine ⟨_, rfl, ?_⟩
      rw [cellValue, asString_setString hfits, toInt_ofInt_int hn,
        cstr_of_notMem (nul_notMem_printInt n), hvalue]
      exact Single.value_ofText_printInt (hint hn) (Single.isSingle_of_value hvalue)

/-- A number is written as it is looked up, unless it is an `int` that a `float` does not hold. -/
theorem putValue_cellValue_iff (hnum : isNumericalType t = true) (base : m.Cell) (buffer : Memory)
    (pos : ℕ) :
    putValue t buffer pos (cellValue t m base) = some (putCurrent t m base buffer pos) ↔
      (t = .INTEGER → Single.IsSingle (m.asInt base).toInt) := by
  cases t with
  | SHORT =>
      rw [putValue, cellValue, toShort_ofInt]
      exact iff_of_true rfl nofun
  | INTEGER =>
      rw [putValue, cellValue, putCurrent, Option.map_eq_some_iff, ← toInt_ofInt_iff]
      constructor
      · rintro ⟨ival, hival, hput⟩ -
        rw [hival, putInteger_injective hput]
      · exact fun h => ⟨_, h rfl, rfl⟩
  | FLOAT => exact iff_of_true rfl nofun
  | CSTRING | STRING => cases hnum

end Cells

/-! ### Stats -/

section Stats

variable (useIntegerHealth : Bool) (i : StatIndex) (a b : CharacterStatSet)

/-- The value that a stat has in a set. -/
def stored : StatValue := cellStored (etype useIntegerHealth i) _ (a i)

/-- A set that is cleared has the defaults and zeros. -/
theorem isStatZero_clear (h : (StatList.get i).ID ∉ defaults.map Prod.fst) :
    isStatZero useIntegerHealth (some i) (clear useIntegerHealth a) = true := by
  rw [isStatZero, clear_apply _ _ _ h]
  exact zeroCell_clearCell (fits useIntegerHealth i) (a i)

/-- The accessors of a stat agree. -/
structure AccessorsAgree : Prop where
  equal : isStatEqual useIntegerHealth (some i) a b = true ↔
    stored useIntegerHealth i a = stored useIntegerHealth i b
  copied : isStatEqual useIntegerHealth (some i) a (copyFrom useIntegerHealth b a) = true
  printed : (etype useIntegerHealth i = .FLOAT →
      Single.PrintsExactly ((StatList.get i).member.asFloat (a i)).value) →
    ∀ value, getStatValueAsString useIntegerHealth (some i) a = some value →
      isStatEqual useIntegerHealth (some i) a
        (writeStatToSet useIntegerHealth (some i) value b).2 = true
  assigned : ∀ v, Representable (etype useIntegerHealth i) v →
    ∃ a', writeValueToStat useIntegerHealth (StatList.get i).ID v a = some a' ∧
      (getStatValueByID useIntegerHealth (StatList.get i).ID a').value = v.value
  written : isNumericalType (etype useIntegerHealth i) = true → ∀ buffer pos,
    writeStatToBuffer useIntegerHealth buffer pos (StatList.get i).ID
        (getStatValueByID useIntegerHealth (StatList.get i).ID a) =
      some (writeCurrentStatToBuffer useIntegerHealth buffer pos (StatList.get i).ID a)
  entry : ∀ flagMask, (StatList.get i).updflag &&& flagMask ≠ 0 → ∀ out, ∃ pos, out.wpos ≤ pos ∧
    ∀ buffer pos', (writeCharacterStats useIntegerHealth a flagMask out).buffer.Holds pos
      (Packet.written pos' (putShort buffer pos' (BitVec.ofInt 32 (StatList.get i).ID)) ++
        Packet.written pos' (writeCurrentStatToBuffer useIntegerHealth buffer pos'
          (StatList.get i).ID a))

/-- A stat is no text of any length, an `int` that a `float` holds, and a number. -/
structure Plain : Prop where
  string : etype useIntegerHealth i ≠ .STRING
  integer : etype useIntegerHealth i = .INTEGER →
    Single.IsSingle ((StatList.get i).member.asInt (a i)).toInt
  float : etype useIntegerHealth i = .FLOAT →
    ((StatList.get i).member.asFloat (a i)).value ≠ .nan

/-- A copy of a text of any length, or of what is no number, is not found equal. -/
theorem plain_of_copied
    (h : isStatEqual useIntegerHealth (some i) a (copyFrom useIntegerHealth b a) = true) :
    etype useIntegerHealth i ≠ .STRING ∧ (etype useIntegerHealth i = .FLOAT →
      ((StatList.get i).member.asFloat (a i)).value ≠ .nan) := by
  have hfits := fits useIntegerHealth i
  rw [isStatEqual, copyFrom_apply] at h
  generalize etype useIntegerHealth i = t at hfits h ⊢
  refine ⟨?_, ?_⟩
  · rintro rfl
    rw [equalCells_self_string _ _ (by rw [copyCell, asString_setString hfits])] at h
    cases h
  · rintro rfl hnan
    rw [equalCells, floatsEqual, decide_eq_true_iff] at h
    exact h.1 hnan

theorem written_iff (hnum : isNumericalType (etype useIntegerHealth i) = true) :
    (∀ buffer pos, writeStatToBuffer useIntegerHealth buffer pos (StatList.get i).ID
        (getStatValueByID useIntegerHealth (StatList.get i).ID a) =
      some (writeCurrentStatToBuffer useIntegerHealth buffer pos (StatList.get i).ID a)) ↔
      (etype useIntegerHealth i = .INTEGER →
        Single.IsSingle ((StatList.get i).member.asInt (a i)).toInt) := by
  simp only [writeStatToBuffer, getStatValueByID, writeCurrentStatToBuffer, getStatIndex_ID]
  exact ⟨fun h => (putValue_cellValue_iff hnum (a i) (fun _ => 0) 0).mp (h _ _),
    fun h buffer pos => (putValue_cellValue_iff hnum (a i) buffer pos).mpr h⟩

/-- The entry of a stat, whatever its type is. -/
theorem holds_entry {flagMask : BitVec 32} (h : (StatList.get i).updflag &&& flagMask ≠ 0)
    (out : Output) : ∃ pos, out.wpos ≤ pos ∧ ∀ buffer pos',
      (writeCharacterStats useIntegerHealth a flagMask out).buffer.Holds pos
        (Packet.written pos' (putShort buffer pos' (BitVec.ofInt 32 (StatList.get i).ID)) ++
          Packet.written pos' (writeCurrentStatToBuffer useIntegerHealth buffer pos'
            (StatList.get i).ID a)) := by
  obtain ⟨pos, hpos, hholds⟩ := exists_holds_entry useIntegerHealth a flagMask h out
  obtain ⟨bytes, hbytes⟩ := exists_puts_putCurrent (etype useIntegerHealth i) _ (a i)
  refine ⟨pos, hpos, fun buffer pos' => ?_⟩
  have hshort := (puts_putShort (BitVec.ofInt 32 (StatList.get i).ID)).written_eq buffer pos'
  have hcurrent : Packet.written pos' (writeCurrentStatToBuffer useIntegerHealth buffer pos'
      (StatList.get i).ID a) = bytes := by
    rw [writeCurrentStatToBuffer, getStatIndex_ID]
    exact hbytes.written_eq buffer pos'
  rw [hshort, hcurrent]
  rwa [entryBytes, (puts_putEntry hbytes _).written_eq] at hholds

/-- The accessors of a stat agree exactly when it is plain. -/
theorem accessorsAgree_iff :
    AccessorsAgree useIntegerHealth i a b ↔ Plain useIntegerHealth i a := by
  have hfits := fits useIntegerHealth i
  constructor
  · intro h
    obtain ⟨hstring, hfloat⟩ := plain_of_copied useIntegerHealth i a b h.copied
    refine ⟨hstring, fun hint => ?_, hfloat⟩
    have hnum : isNumericalType (etype useIntegerHealth i) = true := by rw [hint, isNumericalType]
    exact (written_iff useIntegerHealth i a hnum).mp (h.written hnum) hint
  · intro h
    refine ⟨equalCells_iff h.string h.float, ?_, fun hexact value hvalue => ?_, fun v hv => ?_,
      fun hnum => (written_iff useIntegerHealth i a hnum).mpr h.integer,
      fun flagMask hflag out => holds_entry useIntegerHealth i a hflag out⟩
    · rw [isStatEqual, copyFrom_apply]
      exact (equalCells_iff h.string h.float).mpr (cellStored_copyCell hfits (a i) (b i)).symm
    · obtain rfl := Option.some.inj hvalue
      rw [isStatEqual, writeStatToSet]
      simp only [Function.update_self]
      refine (equalCells_iff h.string h.float).mpr ?_
      exact (cellStored_setText hfits h.string (a i) (b i) hexact).symm
    · obtain ⟨y, hy, hvalue⟩ := value_setValue hfits hv (a i)
      refine ⟨Function.update a i y, ?_, ?_⟩
      · rw [writeValueToStat, getStatIndex_ID]
        simp only [hy, Option.map_some]
      · rw [getStatValueByID, getStatIndex_ID]
        simp only [Function.update_self]
        exact hvalue

end Stats

/-! ### A set of blank stats -/

/-- A blank member of a type. -/
def blankCell {t : StatType} : (m : Member) → Fits t m → m.Cell
  | .short, _ => (0 : BitVec 16)
  | .int, _ => (0 : BitVec 32)
  | .float, _ => ⟨0⟩
  | .chars size, h =>
      { data := List.replicate size NUL
        length_eq := List.length_replicate
        nul_mem := List.mem_replicate.mpr ⟨by cases h; omega, rfl⟩ }
  | .string, _ => ([] : Text)

/-- A set with blank stats. -/
def blank : CharacterStatSet := fun i => blankCell _ (fits false i)

/-- The look of a character is copied, and the copy is not found equal. -/
theorem appearance_not_equal :
    ∃ i : StatIndex, (StatList.get i).ID = 0 ∧ ¬AccessorsAgree false i blank blank := by
  obtain ⟨i, hID, hstring⟩ := exists_appearance
  refine ⟨i, hID, fun h => ?_⟩
  exact (plain_of_copied false i blank blank h.copied).1 (hstring false)

end Iceee.Stats
