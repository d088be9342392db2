import Iceee.Lib.Memory

/-!
# Wire primitives

The numbers and texts of a packet are written into a buffer and read of one by free functions, and
written a second time by `BinaryBuffer`. The free functions read what they wrote; the texts of
`BinaryBuffer` are not those of the free functions.

## Main results

* `roundTrips`: what the free functions read of what they wrote.
* `appends_iff`: `BinaryBuffer` appends the same bytes.
-/

namespace Iceee.Packet

open Lib

/-! ### The free functions -/

/-- `PutByte`: the buffer and the number of bytes written. -/
def putByte (buffer : Memory) (pos : ℕ) (val : BitVec 32) : Memory × ℕ :=
  (buffer.write pos [(val &&& 0xFF).setWidth 8], 1)

/-- `GetByte`. -/
def getByte (buffer : Memory) (pos advance : ℕ) : BitVec 8 × ℕ := (buffer pos, advance + 1)

/-- `PutShort`. -/
def putShort (buffer : Memory) (pos : ℕ) (val : BitVec 32) : Memory × ℕ :=
  (buffer.write pos [((val &&& 0xFF00) >>> 8).setWidth 8, (val &&& 0x00FF).setWidth 8], 2)

/-- Two bytes as the upper and the lower half of a number. -/
def joinShort (hi lo : Byte) : BitVec 32 := hi.setWidth 32 <<< 8 ||| lo.setWidth 32

/-- `GetShort`. -/
def getShort (buffer : Memory) (pos advance : ℕ) : BitVec 16 × ℕ :=
  ((joinShort (buffer pos) (buffer (pos + 1))).setWidth 16, advance + 2)

/-- `PutInteger`. -/
def putInteger (buffer : Memory) (pos : ℕ) (val : BitVec 32) : Memory × ℕ :=
  (buffer.write pos [((val &&& 0xFF000000) >>> 24).setWidth 8,
    ((val &&& 0x00FF0000) >>> 16).setWidth 8, ((val &&& 0x0000FF00) >>> 8).setWidth 8,
    (val &&& 0x000000FF).setWidth 8], 4)

/-- `GetInteger`. -/
def getInteger (buffer : Memory) (pos advance : ℕ) : BitVec 32 × ℕ :=
  ((buffer pos).setWidth 32 <<< 24 ||| (buffer (pos + 1)).setWidth 32 <<< 16 |||
    (buffer (pos + 2)).setWidth 32 <<< 8 ||| (buffer (pos + 3)).setWidth 32, advance + 4)

/-- `PutStringUTF`, of a text without its final NUL. -/
def putStringUTF (buffer : Memory) (pos : ℕ) (tocopy : List Byte) : Memory × ℕ :=
  let len := BitVec.ofNat 32 tocopy.length
  if tocopy.length < 255 then
    (buffer.write pos (len.setWidth 8 :: tocopy), tocopy.length + 1)
  else
    (buffer.write pos (0xFF :: ((len &&& 0xFF00) >>> 8).setWidth 8 ::
      (len &&& 0x00FF).setWidth 8 :: tocopy), tocopy.length + 3)

/-- `PutStringReq`. -/
def putStringReq (tocopy : List Byte) : ℕ :=
  if tocopy.length < 255 then tocopy.length + 1 else tocopy.length + 3

/-- The length in front of a text, and how many bytes it takes. -/
def stringLength (buffer : Memory) (pos : ℕ) : ℕ × ℕ :=
  if buffer pos = 0xFF then ((joinShort (buffer (pos + 1)) (buffer (pos + 2))).toNat, 3)
  else ((buffer pos).toNat, 1)

/-- `GetStringUTF`: what the receiving buffer, of `bufsize` bytes, has afterwards. -/
def getStringUTF (buffer : Memory) (pos : ℕ) (recbuf : Memory) (bufsize advance : ℕ) :
    Memory × ℕ :=
  let (len, start) := stringLength buffer pos
  let tocopy := min len (bufsize - 1)
  ((recbuf.write 0 (buffer.read (pos + start) tocopy)).write tocopy [0], advance + (len + start))

/-! ### `BinaryBuffer` -/

structure BinaryBuffer where
  mData : List Byte := []
  deriving DecidableEq

namespace BinaryBuffer

/-- `BinaryBuffer::PutByte`. -/
def putByte (c : BinaryBuffer) (value : BitVec 32) : BinaryBuffer :=
  { mData := c.mData ++ [(value &&& 0xFF).setWidth 8] }

/-- `BinaryBuffer::PutShort`. -/
def putShort (c : BinaryBuffer) (value : BitVec 32) : BinaryBuffer :=
  { mData := c.mData ++ [((value &&& 0xFF00) >>> 8).setWidth 8, (value &&& 0x00FF).setWidth 8] }

/-- `BinaryBuffer::PutInteger`. -/
def putInteger (c : BinaryBuffer) (value : BitVec 32) : BinaryBuffer :=
  { mData := c.mData ++ [((value &&& 0xFF000000) >>> 24).setWidth 8,
      ((value &&& 0x00FF0000) >>> 16).setWidth 8, ((value &&& 0x0000FF00) >>> 8).setWidth 8,
      (value &&& 0x000000FF).setWidth 8] }

/-- `insert` of `n` equal elements at the end; a negative number of them is out of range. -/
def insert (c : BinaryBuffer) (n value : Byte) : Option BinaryBuffer :=
  if n.toInt < 0 then none else some { mData := c.mData ++ List.replicate n.toNat value }

/-- The character at an index of a text with its final NUL. -/
def charAt (tocopy : List Byte) (i : ℕ) : Byte := tocopy.getD i 0

/-- `BinaryBuffer::PutStringUTF`; two characters are given where a range is meant, and are taken as
a number of elements and their value. -/
def putStringUTF (c : BinaryBuffer) (tocopy : List Byte) : Option BinaryBuffer :=
  let len := tocopy.length
  if len < 255 then
    let c : BinaryBuffer := { mData := c.mData ++ [BitVec.ofNat 8 len] }
    if len > 0 then c.insert (charAt tocopy 0) (charAt tocopy len) else some c
  else
    let c : BinaryBuffer := { mData := c.mData ++ [(0xFF : Byte),
      ((BitVec.ofNat 32 len &&& 0xFF00) >>> 8).setWidth 8,
      (BitVec.ofNat 32 len &&& 0x00FF).setWidth 8] }
    c.insert (charAt tocopy 0) (charAt tocopy len)

end BinaryBuffer

/-! ### The bytes of a number -/

/-- A byte of a number, cut out with a mask. -/
theorem setWidth_mask {mask : BitVec 32} {k : ℕ} (hmask : ∀ i < 8, mask.getLsbD (k + i) = true)
    (v : BitVec 32) : ((v &&& mask) >>> k).setWidth 8 = BitVec.ofNat 8 (v.toNat / 2 ^ k) := by
  have hshift : (v >>> k).setWidth 8 = BitVec.ofNat 8 (v.toNat / 2 ^ k) := by
    apply BitVec.eq_of_toNat_eq
    rw [BitVec.toNat_setWidth, BitVec.toNat_ushiftRight, BitVec.toNat_ofNat,
      Nat.shiftRight_eq_div_pow]
  rw [← hshift]
  ext i hi
  simp [hmask i hi]

theorem setWidth_low (v : BitVec 32) : (v &&& 0xFF).setWidth 8 = BitVec.ofNat 8 v.toNat := by
  simpa using @setWidth_mask 0xFF 0 (by decide) v

/-- A byte below the ones that are there. -/
theorem toNat_or_byte {x : BitVec 32} (hx : x.toNat < 2 ^ 24) (b : Byte) :
    (x <<< 8 ||| b.setWidth 32).toNat = x.toNat * 256 + b.toNat := by
  have hb := b.isLt
  have hwide : b.toNat % 2 ^ 32 = b.toNat := Nat.mod_eq_of_lt (by omega)
  have hshift : x.toNat <<< 8 % 2 ^ 32 = x.toNat <<< 8 := by
    rw [Nat.shiftLeft_eq]
    exact Nat.mod_eq_of_lt (by omega)
  rw [BitVec.toNat_or, BitVec.toNat_shiftLeft, BitVec.toNat_setWidth, hwide, hshift,
    ← Nat.shiftLeft_add_eq_or_of_lt hb, Nat.shiftLeft_eq]

theorem toNat_setWidth_byte (b : Byte) : (b.setWidth 32).toNat = b.toNat :=
  BitVec.toNat_setWidth_of_le (by norm_num)

theorem toNat_joinShort (hi lo : Byte) : (joinShort hi lo).toNat = ofBe [hi, lo] := by
  have hhi := hi.isLt
  have hwide := toNat_setWidth_byte hi
  unfold joinShort
  rw [toNat_or_byte (by omega), hwide]
  simp [ofBe]

section Free

variable (buffer recbuf : Memory) (pos advance : ℕ) (val : BitVec 32)

theorem putByte_eq : putByte buffer pos val = (buffer.write pos (be 1 val.toNat), 1) := by
  unfold putByte
  rw [setWidth_low]
  rfl

theorem putShort_eq : putShort buffer pos val = (buffer.write pos (be 2 val.toNat), 2) := by
  unfold putShort
  rw [setWidth_low, setWidth_mask (by decide)]
  rfl

theorem putInteger_eq : putInteger buffer pos val = (buffer.write pos (be 4 val.toNat), 4) := by
  have hsplit : be 4 val.toNat = [BitVec.ofNat 8 (val.toNat / 2 ^ 24),
      BitVec.ofNat 8 (val.toNat / 2 ^ 16), BitVec.ofNat 8 (val.toNat / 2 ^ 8),
      BitVec.ofNat 8 val.toNat] := by
    simp [be, Nat.div_div_eq_div_mul]
  unfold putInteger
  rw [setWidth_low, setWidth_mask (by decide), setWidth_mask (by decide),
    setWidth_mask (by decide), hsplit]

theorem toNat_getByte : (getByte buffer pos advance).1.toNat = ofBe (buffer.read pos 1) := by
  simp [getByte, ofBe, Memory.read]

theorem toNat_getShort : (getShort buffer pos advance).1.toNat = ofBe (buffer.read pos 2) := by
  have hhi := (buffer pos).isLt
  have hlo := (buffer (pos + 1)).isLt
  have hread : buffer.read pos 2 = [buffer pos, buffer (pos + 1)] := rfl
  unfold getShort
  rw [BitVec.toNat_setWidth, toNat_joinShort, hread]
  refine Nat.mod_eq_of_lt ?_
  simp only [ofBe, List.foldl_cons, List.foldl_nil]
  omega

theorem toNat_getInteger :
    (getInteger buffer pos advance).1.toNat = ofBe (buffer.read pos 4) := by
  have h₀ := (buffer pos).isLt
  have h₁ := (buffer (pos + 1)).isLt
  have h₂ := (buffer (pos + 2)).isLt
  have hwide := toNat_setWidth_byte (buffer pos)
  have hread : buffer.read pos 4 =
      [buffer pos, buffer (pos + 1), buffer (pos + 2), buffer (pos + 3)] := rfl
  -- the shifts one byte at a time
  have hnest : (getInteger buffer pos advance).1 =
      (((buffer pos).setWidth 32 <<< 8 ||| (buffer (pos + 1)).setWidth 32) <<< 8 |||
        (buffer (pos + 2)).setWidth 32) <<< 8 ||| (buffer (pos + 3)).setWidth 32 := by
    simp only [getInteger, BitVec.shiftLeft_or_distrib, ← BitVec.shiftLeft_add]
  have htwo := @toNat_or_byte ((buffer pos).setWidth 32) (by omega) (buffer (pos + 1))
  rw [hnest, hread]
  simp only [ofBe, List.foldl_cons, List.foldl_nil]
  rw [toNat_or_byte (by rw [toNat_or_byte (by omega)]; omega), toNat_or_byte (by omega), htwo,
    hwide]
  omega

end Free

/-! ### What is written is read -/

/-- The length in front of a text. -/
def lengthPrefix (len : ℕ) : List Byte := if len < 255 then be 1 len else 0xFF :: be 2 len

section String

variable {buffer recbuf : Memory} {pos advance bufsize : ℕ} {tocopy : List Byte}

theorem putStringReq_eq (tocopy : List Byte) :
    putStringReq tocopy = (lengthPrefix tocopy.length ++ tocopy).length := by
  unfold putStringReq lengthPrefix
  split <;> simp <;> omega

/-- The two bytes of a length that are split by hand. -/
theorem lengthBytes {len : ℕ} (hlen : len < 2 ^ 16) :
    [(0xFF : Byte), ((BitVec.ofNat 32 len &&& 0xFF00) >>> 8).setWidth 8,
      (BitVec.ofNat 32 len &&& 0x00FF).setWidth 8] = 0xFF :: be 2 len := by
  have hnat : (BitVec.ofNat 32 len).toNat = len := by
    rw [BitVec.toNat_ofNat]
    omega
  rw [setWidth_low, setWidth_mask (by decide), hnat]
  rfl

/-- `PutStringUTF` writes the length and the text. -/
theorem putStringUTF_eq (hlen : tocopy.length < 2 ^ 16) :
    putStringUTF buffer pos tocopy =
      (buffer.write pos (lengthPrefix tocopy.length ++ tocopy), putStringReq tocopy) := by
  have hbytes := congrArg (· ++ tocopy) (lengthBytes hlen)
  unfold putStringUTF putStringReq lengthPrefix
  split
  · simp [be]
  · rw [← hbytes]
    rfl

/-- The length is read of what it was written as. -/
theorem stringLength_write {len : ℕ} (hlen : len < 2 ^ 16) (rest : List Byte) :
    stringLength (buffer.write pos (lengthPrefix len ++ rest)) pos =
      (len, (lengthPrefix len).length) := by
  unfold stringLength lengthPrefix
  by_cases hshort : len < 255
  · have hfirst : buffer.write pos (be 1 len ++ rest) pos = BitVec.ofNat 8 len :=
      @Memory.write_apply _ _ _ 0 _ rfl
    have hnat : (BitVec.ofNat 8 len).toNat = len := by
      rw [BitVec.toNat_ofNat]
      omega
    have hne : BitVec.ofNat 8 len ≠ 0xFF := by
      intro heq
      rw [heq] at hnat
      exact absurd hnat (by simp; omega)
    rw [if_pos hshort, hfirst, if_neg hne, hnat]
    rfl
  · have hfirst : buffer.write pos (0xFF :: be 2 len ++ rest) pos = 0xFF :=
      @Memory.write_apply _ _ _ 0 _ rfl
    have hjoin : (joinShort (buffer.write pos (0xFF :: be 2 len ++ rest) (pos + 1))
        (buffer.write pos (0xFF :: be 2 len ++ rest) (pos + 2))).toNat = len := by
      rw [toNat_joinShort, Memory.write_apply rfl, Memory.write_apply rfl]
      exact @ofBe_be_of_lt 2 len hlen
    rw [if_neg hshort, hfirst, if_pos rfl, hjoin]
    rfl

/-- What `GetStringUTF` receives of a text that was written. -/
theorem getStringUTF_putStringUTF (hlen : tocopy.length < 2 ^ 16) :
    getStringUTF (putStringUTF buffer pos tocopy).1 pos recbuf bufsize advance =
      (recbuf.write 0 (tocopy.take (bufsize - 1) ++ [0]),
        advance + (putStringUTF buffer pos tocopy).2) := by
  set n := min tocopy.length (bufsize - 1) with hn
  have htake : tocopy.take n = tocopy.take (bufsize - 1) := by
    rw [hn, List.take_eq_take_iff]
    omega
  have hlength : (tocopy.take n).length = n := by
    rw [List.length_take]
    exact min_eq_left (min_le_left _ _)
  have hread : (buffer.write pos (lengthPrefix tocopy.length ++ tocopy)).read
      (pos + (lengthPrefix tocopy.length).length) n = tocopy.take n := by
    have hpart := buffer.read_write_of_append pos (lengthPrefix tocopy.length) (tocopy.take n)
      (tocopy.drop n)
    rwa [List.append_assoc, List.take_append_drop, hlength] at hpart
  have hwrite : (recbuf.write 0 (tocopy.take n)).write n [0] =
      recbuf.write 0 (tocopy.take n ++ [0]) := by
    have hnext := recbuf.write_write_append 0 (tocopy.take n) [0]
    rwa [Nat.zero_add, hlength] at hnext
  rw [putStringUTF_eq hlen, putStringReq_eq, List.length_append, Nat.add_comm (List.length _)]
  unfold getStringUTF
  rw [stringLength_write hlen]
  simp only
  rw [← hn, hread, hwrite, htake]

end String

section Main

variable {s : List Byte} {b : ℕ} {v : BitVec 32} {buffer recbuf : Memory} {pos advance : ℕ}
  {c : BinaryBuffer}

/-- The bytes that a free function wrote. -/
def written (pos : ℕ) (r : Memory × ℕ) : List Byte := r.1.read pos r.2

/-- The free functions read what they wrote: of a text as much as fits into `b` bytes with the final
NUL, of a number as much as its type holds. -/
structure RoundTrips (s : List Byte) (b : ℕ) (v : BitVec 32) (buffer recbuf : Memory)
    (pos advance : ℕ) : Prop where
  string : getStringUTF (putStringUTF buffer pos s).1 pos recbuf b advance =
    (recbuf.write 0 (s.take (min s.length (b - 1)) ++ [0]),
      advance + (putStringUTF buffer pos s).2)
  fits : (s.take (min s.length (b - 1)) ++ [0]).length ≤ b
  size : ∃ bytes, putStringUTF buffer pos s = (buffer.write pos bytes, bytes.length) ∧
    putStringReq s = bytes.length
  byte : getByte (putByte buffer pos v).1 pos advance =
    (BitVec.ofNat 8 v.toNat, advance + (putByte buffer pos v).2)
  short : getShort (putShort buffer pos v).1 pos advance =
    (BitVec.ofNat 16 v.toNat, advance + (putShort buffer pos v).2)
  integer : getInteger (putInteger buffer pos v).1 pos advance =
    (BitVec.ofNat 32 v.toNat, advance + (putInteger buffer pos v).2)

/-- `BinaryBuffer` appends the bytes that the free functions write. -/
structure Appends (c : BinaryBuffer) (s : List Byte) (v : BitVec 32) (buffer : Memory) (pos : ℕ) :
    Prop where
  byte : (c.putByte v).mData = c.mData ++ written pos (putByte buffer pos v)
  short : (c.putShort v).mData = c.mData ++ written pos (putShort buffer pos v)
  integer : (c.putInteger v).mData = c.mData ++ written pos (putInteger buffer pos v)
  string : c.putStringUTF s =
    some { mData := c.mData ++ written pos (putStringUTF buffer pos s) }

theorem written_write (bytes : List Byte) :
    written pos (buffer.write pos bytes, bytes.length) = bytes := Memory.read_write _ _ _

/-- A number is read of as many bytes as it was written in. -/
theorem eq_ofNat_of_read {w n : ℕ} {x : BitVec w} (hw : 256 ^ n = 2 ^ w) {k : ℕ}
    (h : x.toNat = ofBe ((buffer.write pos (be n k)).read pos n)) : x = BitVec.ofNat w k := by
  apply BitVec.eq_of_toNat_eq
  have hread := buffer.read_write pos (be n k)
  rw [length_be] at hread
  rw [h, hread, ofBe_be, BitVec.toNat_ofNat, hw]

theorem roundTrips (hlen : s.length < 2 ^ 16) (hb : 0 < b) :
    RoundTrips s b v buffer recbuf pos advance := by
  constructor
  · have htake : s.take (min s.length (b - 1)) = s.take (b - 1) := by
      rw [List.take_eq_take_iff]
      omega
    rw [getStringUTF_putStringUTF hlen, htake]
  · rw [List.length_append, List.length_take, List.length_singleton]
    omega
  · refine ⟨lengthPrefix s.length ++ s, ?_, putStringReq_eq s⟩
    rw [putStringUTF_eq hlen, putStringReq_eq]
  · rw [putByte_eq]
    exact Prod.ext (eq_ofNat_of_read (by norm_num) (toNat_getByte _ pos advance)) rfl
  · rw [putShort_eq]
    exact Prod.ext (eq_ofNat_of_read (by norm_num) (toNat_getShort _ pos advance)) rfl
  · rw [putInteger_eq]
    exact Prod.ext (eq_ofNat_of_read (by norm_num) (toNat_getInteger _ pos advance)) rfl

/-- A text that is not empty is put behind its length by `insert`. -/
theorem BinaryBuffer.putStringUTF_eq (hs : s ≠ []) (hlen : s.length < 2 ^ 16) :
    c.putStringUTF s = ({ mData := c.mData ++ lengthPrefix s.length } : BinaryBuffer).insert
      (charAt s 0) (charAt s s.length) := by
  have hpos := List.length_pos_iff.mpr hs
  unfold BinaryBuffer.putStringUTF lengthPrefix
  by_cases hshort : s.length < 255
  · simp only [if_pos hshort, if_pos hpos]
    rfl
  · simp only [if_neg hshort, lengthBytes hlen]

/-- What `insert` adds is not the text. -/
theorem insert_ne (hs : s ≠ []) (hnul : 0 ∉ s) :
    c.insert (BinaryBuffer.charAt s 0) (BinaryBuffer.charAt s s.length) ≠
      some { mData := c.mData ++ s } := by
  obtain ⟨first, rest, rfl⟩ := List.exists_cons_of_ne_nil hs
  have hend : BinaryBuffer.charAt (first :: rest) (first :: rest).length = 0 := by
    unfold BinaryBuffer.charAt
    rw [List.getD_eq_default _ _ le_rfl]
  unfold BinaryBuffer.insert
  rw [hend]
  split
  · exact nofun
  · intro heq
    have hdata := congrArg BinaryBuffer.mData (Option.some.inj heq)
    have hsame := List.append_cancel_left hdata
    have hfirst : first ∈ List.replicate (BinaryBuffer.charAt (first :: rest) 0).toNat 0 := by
      rw [hsame]
      exact List.mem_cons_self
    exact hnul (List.eq_of_mem_replicate hfirst ▸ List.mem_cons_self)

/-- The only text that `BinaryBuffer` appends as the free function writes it is the empty one. -/
theorem putStringUTF_appends_iff (hnul : 0 ∉ s) (hlen : s.length < 2 ^ 16) :
    c.putStringUTF s = some { mData := c.mData ++ written pos (putStringUTF buffer pos s) } ↔
      s = [] := by
  have hbytes : written pos (putStringUTF buffer pos s) = lengthPrefix s.length ++ s := by
    rw [putStringUTF_eq hlen, putStringReq_eq, written_write]
  rw [hbytes, ← List.append_assoc]
  constructor
  · intro heq
    by_contra hs
    rw [BinaryBuffer.putStringUTF_eq hs hlen] at heq
    exact insert_ne hs hnul heq
  · rintro rfl
    rw [List.append_nil]
    rfl

/-- `BinaryBuffer` and the free functions agree on numbers. -/
theorem appends_iff (hnul : 0 ∉ s) (hlen : s.length < 2 ^ 16) :
    Appends c s v buffer pos ↔ s = [] := by
  refine ⟨fun h => (putStringUTF_appends_iff hnul hlen).mp h.string, fun hs => ?_⟩
  refine ⟨?_, ?_, ?_, (putStringUTF_appends_iff hnul hlen).mpr hs⟩
  all_goals exact congrArg (c.mData ++ ·) (written_write _).symm

/-- The wire primitives are as the free functions have them, twice over, exactly for the empty
text; the free functions read what they wrote in any case. -/
theorem roundTrips_and_appends_iff (hnul : 0 ∉ s) (hlen : s.length < 2 ^ 16) (hb : 0 < b) :
    (RoundTrips s b v buffer recbuf pos advance ∧ Appends c s v buffer pos ↔ s = []) ∧
      RoundTrips s b v buffer recbuf pos advance := by
  refine ⟨?_, roundTrips hlen hb⟩
  rw [appends_iff hnul hlen]
  exact and_iff_right (roundTrips hlen hb)

/-- A text of one character. -/
theorem roundTrips_and_appends_witness :
    (RoundTrips [0x41] 8 300 (fun _ => 0) (fun _ => 0) 0 0 ∧
        Appends {} [0x41] 300 (fun _ => 0) 0 ↔ ([0x41] : List Byte) = []) ∧
      RoundTrips [0x41] 8 300 (fun _ => 0) (fun _ => 0) 0 0 :=
  roundTrips_and_appends_iff (by decide) (by decide) (by decide)

/-- `BinaryBuffer` has one NUL in the place of the character 1. -/
theorem putStringUTF_one :
    ({} : BinaryBuffer).putStringUTF [1] = some { mData := [1, 0] } ∧
      written 0 (putStringUTF (fun _ => 0) 0 [1]) = [1, 1] := by
  decide

end Main

end Iceee.Packet
