import Iceee.Packet.ByteBuffer
import Iceee.Stats.StatList

/-!
# The accessors of the stats

Ten functions switch over the type of a stat. Each switch is a function of the type and of what the
member holds.

## Main results

* `copyFrom_apply`, `clear_apply`: the loops treat each stat by itself.
* `writeCharacterStats_eq`: the entries of the stats stand one after the other.

## Implementation notes

A conversion of a `float` to an integer type has no result outside of the range of the type. The
characters of a text are bytes; `atoi` and `atof` stop at a NUL as at any other character.
-/

namespace Iceee.Stats

open Lib Packet

/-! ### Reading and writing a member -/

namespace Member

/-- `*(short*) base`, of an `int` the lower half. -/
def asShort : (m : Member) → m.Cell → BitVec 16
  | short, base => base
  | int, base => BitVec.setWidth 16 base
  | float, _ | chars _, _ | string, _ => 0

def asInt : (m : Member) → m.Cell → BitVec 32
  | int, base => base
  | short, _ | float, _ | chars _, _ | string, _ => 0

def asFloat : (m : Member) → m.Cell → Single
  | float, base => base
  | short, _ | int, _ | chars _, _ | string, _ => ⟨0⟩

/-- The text that an array holds. -/
def asChars : (m : Member) → m.Cell → Text
  | chars _, base => base.text
  | short, _ | int, _ | float, _ | string, _ => []

def asString : (m : Member) → m.Cell → Text
  | string, base => base
  | short, _ | int, _ | float, _ | chars _, _ => []

def setShort : (m : Member) → m.Cell → BitVec 16 → m.Cell
  | short, _, val => val
  | int, base, val => BitVec.extractLsb' 16 16 base ++ val
  | float, base, _ | chars _, base, _ | string, base, _ => base

def setInt : (m : Member) → m.Cell → BitVec 32 → m.Cell
  | int, _, val => val
  | short, base, _ | float, base, _ | chars _, base, _ | string, base, _ => base

def setFloat : (m : Member) → m.Cell → Single → m.Cell
  | float, _, val => val
  | short, base, _ | int, base, _ | chars _, base, _ | string, base, _ => base

/-- A text is copied into an array. -/
def setChars : (m : Member) → m.Cell → Text → m.Cell
  | chars _, base, value => base.copyIn value
  | short, base, _ | int, base, _ | float, base, _ | string, base, _ => base

def setString : (m : Member) → m.Cell → Text → m.Cell
  | string, _, value => value
  | short, base, _ | int, base, _ | float, base, _ | chars _, base, _ => base

/-- `memset` with zeros. -/
def zeroed : (m : Member) → m.Cell → m.Cell
  | chars _, base => base.zeroed
  | short, base | int, base | float, base | string, base => base

end Member

/-- `(short)`. -/
def toShort (value : Single) : Option (BitVec 16) :=
  value.toInt.bind fun n => if -2 ^ 15 ≤ n ∧ n < 2 ^ 15 then some (BitVec.ofInt 16 n) else none

/-- `(int)`. -/
def toInt (value : Single) : Option (BitVec 32) :=
  value.toInt.bind fun n => if -2 ^ 31 ≤ n ∧ n < 2 ^ 31 then some (BitVec.ofInt 32 n) else none

/-- The bytes of a text. -/
def bytesOf (t : Text) : List Byte := t.map fun c => BitVec.ofNat 8 c.toNat

/-- `PutFloat`. -/
def putFloat (buffer : Memory) (pos : ℕ) (val : Single) : Memory × ℕ :=
  let data (k : ℕ) : Byte := (val.bits >>> (8 * k)).setWidth 8
  (buffer.write pos [data 3, data 2, data 1, data 0], 4)

/-! ### The switches -/

section Switch

variable (t : StatType) (m : Member)

/-- The switch of `CopyFrom`. -/
def copyCell (dstData srcData : m.Cell) : m.Cell :=
  match t with
  | .SHORT => m.setShort dstData (m.asShort srcData)
  | .INTEGER => m.setInt dstData (m.asInt srcData)
  | .FLOAT => m.setFloat dstData (m.asFloat srcData)
  | .CSTRING => srcData
  | .STRING => m.setString dstData (m.asString srcData)

/-- The switch of `Clear`. -/
def clearCell (data : m.Cell) : m.Cell :=
  match t with
  | .SHORT => m.setShort data 0
  | .INTEGER => m.setInt data 0
  | .FLOAT => m.setFloat data ⟨0⟩
  | .CSTRING => m.zeroed data
  | .STRING => m.setString data []

/-- The switch of `WriteCurrentStatToBuffer`. -/
def putCurrent (base : m.Cell) (buffer : Memory) (pos : ℕ) : Memory × ℕ :=
  match t with
  | .SHORT => putShort buffer pos ((m.asShort base).signExtend 32)
  | .INTEGER => putInteger buffer pos (m.asInt base)
  | .FLOAT => putFloat buffer pos (m.asFloat base)
  | .CSTRING => putStringUTF buffer pos (bytesOf (m.asChars base))
  | .STRING => putStringUTF buffer pos (bytesOf (cstr (m.asString base)))

/-- The switch of `WriteStatToBuffer`. -/
def putValue (buffer : Memory) (pos : ℕ) (value : Single) : Option (Memory × ℕ) :=
  match t with
  | .SHORT => (toShort value).map fun wval => putShort buffer pos (wval.signExtend 32)
  | .INTEGER => (toInt value).map fun ival => putInteger buffer pos ival
  | .FLOAT => some (putFloat buffer pos value)
  | .CSTRING | .STRING => some (putStringUTF buffer pos [])

/-- The switch of `WriteStatToSet`: what it returns, and the member. -/
def setText (value : Text) (base : m.Cell) : Int × m.Cell :=
  match t with
  | .SHORT => (2, m.setShort base (BitVec.ofInt 16 (atoi value)))
  | .INTEGER => (4, m.setInt base (BitVec.ofInt 32 (atoi value)))
  | .FLOAT => (4, m.setFloat base (Single.ofText value))
  | .CSTRING =>
      match m with
      | .chars size => (min (size - 1) value.length, Member.setChars (.chars size) base value)
      | _ => (0, base)
  | .STRING => (value.length, m.setString base value)

/-- The switch of `isStatZero`. -/
def zeroCell (base : m.Cell) : Bool :=
  match t with
  | .SHORT => m.asShort base == 0
  | .INTEGER => m.asInt base == 0
  | .FLOAT => (m.asFloat base).value == .finite 0
  | .CSTRING => (m.asChars base).isEmpty
  | .STRING => (m.asString base).isEmpty

/-- `==` of two `float`s. -/
def floatsEqual (x y : Double) : Bool := decide (x ≠ .nan ∧ x = y)

/-- The switch of `isStatEqual`; `compare` gives a number that is zero for equal texts. -/
def equalCells (base1 base2 : m.Cell) : Bool :=
  match t with
  | .SHORT => m.asShort base1 == m.asShort base2
  | .INTEGER => m.asInt base1 == m.asInt base2
  | .FLOAT => floatsEqual (m.asFloat base1).value (m.asFloat base2).value
  | .CSTRING => m.asChars base1 == m.asChars base2
  | .STRING => m.asString base1 != m.asString base2

/-- The switch of `GetStatValueAsString`. -/
def cellText (base : m.Cell) : Text :=
  match t with
  | .SHORT => printInt (m.asShort base).toInt
  | .INTEGER => printInt (m.asInt base).toInt
  | .FLOAT => (m.asFloat base).format
  | .CSTRING => m.asChars base
  | .STRING => cstr (m.asString base)

/-- The switch of `GetStatValueByID`. -/
def cellValue (base : m.Cell) : Single :=
  match t with
  | .SHORT => Single.ofInt (m.asShort base).toInt
  | .INTEGER => Single.ofInt (m.asInt base).toInt
  | .FLOAT => m.asFloat base
  | .CSTRING => Single.ofText (m.asChars base)
  | .STRING => Single.ofText (cstr (m.asString base))

/-- The switch of `WriteValueToStat`. -/
def setValue (value : Single) (base : m.Cell) : Option m.Cell :=
  match t with
  | .SHORT => (toShort value).map fun val => m.setShort base val
  | .INTEGER => (toInt value).map fun val => m.setInt base val
  | .FLOAT => some (m.setFloat base value)
  | .CSTRING => (toInt value).map fun val => m.setChars base (printInt val.toInt)
  | .STRING => (toInt value).map fun val => m.setString base (printInt val.toInt)

/-- The switch of `WriteCharacterStats`: the ID and the member. -/
def putEntry (ID : Int) (data : m.Cell) (buffer : Memory) (wpos : ℕ) : Memory × ℕ :=
  let (buffer, n) := putShort buffer wpos (BitVec.ofInt 32 ID)
  let (buffer, k) := match t with
    | .SHORT => putShort buffer (wpos + n) ((m.asShort data).signExtend 32)
    | .INTEGER => putInteger buffer (wpos + n) (m.asInt data)
    | .FLOAT => putFloat buffer (wpos + n) (m.asFloat data)
    | .CSTRING => putStringUTF buffer (wpos + n) (bytesOf (m.asChars data))
    | .STRING => putStringUTF buffer (wpos + n) (bytesOf (cstr (m.asString data)))
  (buffer, n + k)

end Switch

/-! ### The functions -/

section Functions

variable (useIntegerHealth : Bool)

/-- `CopyFrom`. -/
def copyFrom (css source : CharacterStatSet) : CharacterStatSet :=
  (List.finRange StatList.length).foldl (fun css i =>
    Function.update css i (copyCell (etype useIntegerHealth i) _ (css i) (source i))) css

/-- The defaults that are not zero; `mod_casting_speed` has the smallest `float` there is. -/
def defaults : List (Int × Single) :=
  [(155, Single.ofInt 1), (85, Single.ofInt 1), (150, ⟨1⟩), (47, Single.ofInt 1),
    (49, Single.ofInt 1), (165, Single.ofInt 100), (166, Single.ofInt 0)]

/-- A member is assigned a number. -/
def assign (css : CharacterStatSet) (entry : Int × Single) : CharacterStatSet :=
  match getStatIndex entry.1 with
  | none => css
  | some i =>
      Function.update css i
        ((setValue (StatList.get i).etype (StatList.get i).member entry.2 (css i)).getD (css i))

/-- The loop of `Clear`. -/
def clearLoop (css : CharacterStatSet) : CharacterStatSet :=
  (List.finRange StatList.length).foldl (fun css i =>
    Function.update css i (clearCell (etype useIntegerHealth i) _ (css i))) css

/-- `Clear`. -/
def clear (css : CharacterStatSet) : CharacterStatSet :=
  defaults.foldl assign (clearLoop useIntegerHealth css)

/-- `WriteCurrentStatToBuffer`. -/
def writeCurrentStatToBuffer (buffer : Memory) (pos : ℕ) (StatID : Int) (css : CharacterStatSet) :
    Memory × ℕ :=
  match getStatIndex StatID with
  | none => (buffer, 0)
  | some r => putCurrent (etype useIntegerHealth r) _ (css r) buffer pos

/-- `WriteStatToBuffer`. -/
def writeStatToBuffer (buffer : Memory) (pos : ℕ) (StatID : Int) (value : Single) :
    Option (Memory × ℕ) :=
  match getStatIndex StatID with
  | none => some (buffer, 0)
  | some r => putValue (etype useIntegerHealth r) buffer pos value

/-- `WriteStatToSet`. -/
def writeStatToSet (StatIndex : Option StatIndex) (value : Text) (css : CharacterStatSet) :
    Int × CharacterStatSet :=
  match StatIndex with
  | none => (-1, css)
  | some r =>
      let result := setText (etype useIntegerHealth r) _ value (css r)
      (result.1, Function.update css r result.2)

/-- `isStatZero`. -/
def isStatZero (StatIndex : Option StatIndex) (css : CharacterStatSet) : Bool :=
  match StatIndex with
  | none => true
  | some i => zeroCell (etype useIntegerHealth i) _ (css i)

/-- `isStatEqual`. -/
def isStatEqual (StatIndex : Option StatIndex) (css1 css2 : CharacterStatSet) : Bool :=
  match StatIndex with
  | none => false
  | some i => equalCells (etype useIntegerHealth i) _ (css1 i) (css2 i)

/-- `GetStatValueAsString`. -/
def getStatValueAsString (StatIndex : Option StatIndex) (css : CharacterStatSet) : Option Text :=
  StatIndex.map fun i => cellText (etype useIntegerHealth i) _ (css i)

/-- `GetStatValueByID`. -/
def getStatValueByID (statID : Int) (css : CharacterStatSet) : Single :=
  match getStatIndex statID with
  | none => Single.ofInt 0
  | some i => cellValue (etype useIntegerHealth i) _ (css i)

/-- `WriteValueToStat`, whose result is -1 in every case. -/
def writeValueToStat (StatID : Int) (value : Single) (css : CharacterStatSet) :
    Option CharacterStatSet :=
  match getStatIndex StatID with
  | none => some css
  | some r =>
      (setValue (etype useIntegerHealth r) _ value (css r)).map fun base =>
        Function.update css r base

/-- What `WriteCharacterStats` has written so far. -/
structure Output where
  buffer : Memory
  wpos : ℕ
  stcount : ℕ := 0

/-- What `WriteCharacterStats` does with a stat. -/
def writeStat (css : CharacterStatSet) (flagMask : BitVec 32) (out : Output) (a : StatIndex) :
    Output :=
  if (StatList.get a).updflag &&& flagMask ≠ 0 then
    let (buffer, n) := putEntry (etype useIntegerHealth a) _ (StatList.get a).ID (css a)
      out.buffer out.wpos
    { buffer, wpos := out.wpos + n, stcount := out.stcount + 1 }
  else out

/-- `WriteCharacterStats`. -/
def writeCharacterStats (css : CharacterStatSet) (flagMask : BitVec 32) (out : Output) : Output :=
  (List.finRange StatList.length).foldl (writeStat useIntegerHealth css flagMask) out

end Functions

/-! ### The loops -/

/-- A loop that updates every place once, from what stands there. -/
theorem foldl_update {ι : Type*} [DecidableEq ι] {β : ι → Type*} (f : (i : ι) → β i → β i)
    (l : List ι) (hl : l.Nodup) (g : (i : ι) → β i) (i : ι) :
    l.foldl (fun g i => Function.update g i (f i (g i))) g i =
      if i ∈ l then f i (g i) else g i := by
  induction l generalizing g with
  | nil => rfl
  | cons j l ih =>
      obtain ⟨hj, hl⟩ := List.nodup_cons.mp hl
      rw [List.foldl_cons, ih hl]
      rcases eq_or_ne i j with rfl | hne
      · rw [if_neg hj, if_pos List.mem_cons_self, Function.update_self]
      · rw [Function.update_of_ne hne]
        exact if_congr (by rw [List.mem_cons, or_iff_right hne]) rfl rfl

section Loops

variable (useIntegerHealth : Bool) (css source : CharacterStatSet) (i : StatIndex)

/-- `CopyFrom` copies each stat. -/
theorem copyFrom_apply : copyFrom useIntegerHealth css source i =
    copyCell (etype useIntegerHealth i) _ (css i) (source i) := by
  rw [copyFrom, foldl_update (fun i base => copyCell (etype useIntegerHealth i) _ base (source i)) _
    (List.nodup_finRange _), if_pos (List.mem_finRange i)]

theorem assign_apply_of_ne (entry : Int × Single) (h : (StatList.get i).ID ≠ entry.1) :
    assign css entry i = css i := by
  cases hfind : getStatIndex entry.1 with
  | none => simp only [assign, hfind]
  | some j =>
      have hne : i ≠ j := by
        rintro rfl
        exact h (ID_of_getStatIndex hfind)
      simp only [assign, hfind]
      exact Function.update_of_ne hne _ _

theorem foldl_assign_apply_of_notMem (entries : List (Int × Single))
    (h : (StatList.get i).ID ∉ entries.map Prod.fst) : entries.foldl assign css i = css i := by
  induction entries generalizing css with
  | nil => rfl
  | cons entry entries ih =>
      rw [List.map_cons, List.mem_cons, not_or] at h
      rw [List.foldl_cons, ih _ h.2, assign_apply_of_ne _ _ _ h.1]

/-- `Clear` clears each stat that has no other default. -/
theorem clear_apply (h : (StatList.get i).ID ∉ defaults.map Prod.fst) :
    clear useIntegerHealth css i = clearCell (etype useIntegerHealth i) _ (css i) := by
  calc clear useIntegerHealth css i = clearLoop useIntegerHealth css i :=
        foldl_assign_apply_of_notMem _ i defaults h
    _ = clearCell (etype useIntegerHealth i) _ (css i) := by
        rw [clearLoop, foldl_update (fun i base => clearCell (etype useIntegerHealth i) _ base) _
          (List.nodup_finRange _), if_pos (List.mem_finRange i)]

end Loops

/-! ### The buffers -/

/-- A function writes these bytes, wherever it writes. -/
def Puts (put : Memory → ℕ → Memory × ℕ) (bytes : List Byte) : Prop :=
  ∀ buffer pos, put buffer pos = (buffer.write pos bytes, bytes.length)

section Puts

variable {put : Memory → ℕ → Memory × ℕ} {bytes : List Byte}

theorem puts_putShort (val : BitVec 32) :
    Puts (fun buffer pos => putShort buffer pos val) (be 2 val.toNat) := by
  intro buffer pos
  exact (putShort_eq buffer pos val).trans (by rw [length_be])

theorem puts_putInteger (val : BitVec 32) :
    Puts (fun buffer pos => putInteger buffer pos val) (be 4 val.toNat) := by
  intro buffer pos
  exact (putInteger_eq buffer pos val).trans (by rw [length_be])

/-- Each type of a stat is written as bytes of its own. -/
theorem exists_puts_putCurrent (t : StatType) (m : Member) (base : m.Cell) :
    ∃ bytes, Puts (putCurrent t m base) bytes := by
  have hstring (tocopy : List Byte) :
      ∃ bytes, Puts (fun buffer pos => putStringUTF buffer pos tocopy) bytes := by
    simp only [putStringUTF]
    split
    · exact ⟨_, fun _ _ => rfl⟩
    · exact ⟨_, fun _ _ => rfl⟩
  cases t with
  | SHORT => exact ⟨_, puts_putShort _⟩
  | INTEGER => exact ⟨_, puts_putInteger _⟩
  | FLOAT => exact ⟨_, fun _ _ => rfl⟩
  | CSTRING => exact hstring _
  | STRING => exact hstring _

theorem Puts.written_eq (h : Puts put bytes) (buffer : Memory) (pos : ℕ) :
    written pos (put buffer pos) = bytes := by
  rw [h buffer pos, written_write]

/-- The entry of a stat is its ID and what `WriteCurrentStatToBuffer` writes. -/
theorem puts_putEntry {t : StatType} {m : Member} {base : m.Cell}
    (h : Puts (putCurrent t m base) bytes) (ID : Int) :
    Puts (putEntry t m ID base) (be 2 (BitVec.ofInt 32 ID).toNat ++ bytes) := by
  intro buffer pos
  have hentry : putEntry t m ID base buffer pos =
      ((putCurrent t m base (putShort buffer pos (BitVec.ofInt 32 ID)).1
          (pos + (putShort buffer pos (BitVec.ofInt 32 ID)).2)).1,
        (putShort buffer pos (BitVec.ofInt 32 ID)).2 +
          (putCurrent t m base (putShort buffer pos (BitVec.ofInt 32 ID)).1
            (pos + (putShort buffer pos (BitVec.ofInt 32 ID)).2)).2) := by
    cases t <;> rfl
  have hshort := puts_putShort (BitVec.ofInt 32 ID) buffer pos
  simp only at hshort
  rw [hentry, hshort, h, Memory.write_write_append, List.length_append]

end Puts

section Entries

variable (useIntegerHealth : Bool) (css : CharacterStatSet) (flagMask : BitVec 32)

/-- The bytes of an entry. -/
def entryBytes (i : StatIndex) : List Byte :=
  written 0 (putEntry (etype useIntegerHealth i) _ (StatList.get i).ID (css i) (fun _ => 0) 0)

theorem puts_entryBytes (i : StatIndex) :
    Puts (putEntry (etype useIntegerHealth i) _ (StatList.get i).ID (css i))
      (entryBytes useIntegerHealth css i) := by
  obtain ⟨bytes, hbytes⟩ := exists_puts_putCurrent (etype useIntegerHealth i) _ (css i)
  have hentry := puts_putEntry hbytes (StatList.get i).ID
  rwa [entryBytes, hentry.written_eq]

/-- The stats that are written. -/
def selected (i : StatIndex) : Bool := decide ((StatList.get i).updflag &&& flagMask ≠ 0)

/-- The bytes of the stats that are selected. -/
def entries (l : List StatIndex) : List Byte :=
  (l.filter (selected flagMask)).flatMap (entryBytes useIntegerHealth css)

theorem foldl_writeStat (l : List StatIndex) (out : Output) :
    l.foldl (writeStat useIntegerHealth css flagMask) out =
      { buffer := out.buffer.write out.wpos (entries useIntegerHealth css flagMask l)
        wpos := out.wpos + (entries useIntegerHealth css flagMask l).length
        stcount := out.stcount + (l.filter (selected flagMask)).length } := by
  induction l generalizing out with
  | nil => simp [entries]
  | cons i l ih =>
      rw [List.foldl_cons, ih]
      by_cases hsel : (StatList.get i).updflag &&& flagMask ≠ 0
      · have hpos : selected flagMask i = true := decide_eq_true hsel
        have hstep : writeStat useIntegerHealth css flagMask out i =
            { buffer := out.buffer.write out.wpos (entryBytes useIntegerHealth css i)
              wpos := out.wpos + (entryBytes useIntegerHealth css i).length
              stcount := out.stcount + 1 } := by
          rw [writeStat, if_pos hsel, puts_entryBytes]
        have hentries : entries useIntegerHealth css flagMask (i :: l) =
            entryBytes useIntegerHealth css i ++ entries useIntegerHealth css flagMask l := by
          rw [entries, List.filter_cons_of_pos hpos, List.flatMap_cons, entries]
        rw [hstep, hentries, Memory.write_write_append, List.length_append,
          List.filter_cons_of_pos hpos, List.length_cons, Nat.add_assoc, Nat.add_assoc,
          Nat.add_comm 1]
      · have hskip : writeStat useIntegerHealth css flagMask out i = out := if_neg hsel
        have hnot : ¬selected flagMask i = true := by rwa [selected, decide_eq_true_iff]
        rw [hskip, entries, entries, List.filter_cons_of_neg hnot]

/-- `WriteCharacterStats` writes the entries of the selected stats, one after the other. -/
theorem writeCharacterStats_eq (out : Output) :
    writeCharacterStats useIntegerHealth css flagMask out =
      { buffer := out.buffer.write out.wpos
          (entries useIntegerHealth css flagMask (List.finRange StatList.length))
        wpos := out.wpos +
          (entries useIntegerHealth css flagMask (List.finRange StatList.length)).length
        stcount := out.stcount +
          ((List.finRange StatList.length).filter (selected flagMask)).length } :=
  foldl_writeStat useIntegerHealth css flagMask _ out

/-- The entry of a selected stat stands in the buffer. -/
theorem exists_holds_entry {i : StatIndex} (h : (StatList.get i).updflag &&& flagMask ≠ 0)
    (out : Output) :
    ∃ pos, out.wpos ≤ pos ∧ (writeCharacterStats useIntegerHealth css flagMask out).buffer.Holds pos
      (entryBytes useIntegerHealth css i) := by
  have hmem : i ∈ (List.finRange StatList.length).filter (selected flagMask) :=
    List.mem_filter.mpr ⟨List.mem_finRange i, decide_eq_true h⟩
  obtain ⟨before, after, hsplit⟩ := List.append_of_mem hmem
  rw [writeCharacterStats_eq, entries, hsplit, List.flatMap_append, List.flatMap_cons]
  refine ⟨_, Nat.le_add_right _ (before.flatMap (entryBytes useIntegerHealth css)).length, ?_⟩
  have hholds := Memory.holds_write out.buffer out.wpos
    (before.flatMap (entryBytes useIntegerHealth css) ++
      (entryBytes useIntegerHealth css i ++ after.flatMap (entryBytes useIntegerHealth css)))
  exact (Memory.holds_append.mp (Memory.holds_append.mp hholds).2).1

end Entries

end Iceee.Stats
