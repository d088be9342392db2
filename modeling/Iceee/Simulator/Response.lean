import Iceee.Quest.Framing
import Iceee.Simulator.Query

/-!
# Responses to queries

A response has rows of texts. It is written as a message: the ID of the query, the number of rows,
and for each row the number of its texts and the texts.

## Main results

* `QueryResponse.writes_write`: the bytes of a response.
* `QueryResponse.decode_of_holds`: a response is read as it was.

## Implementation notes

A text is a `std::string`, of which `PutStringUTF` takes what is in front of the first NUL. The
buffer of `Write` is the one of its caller, as large as it has to be.
-/

namespace Iceee.Simulator

open Lib Packet Quest QueryMessage

/-- What a response is made of. -/
structure QueryResponse where
  mQueryID : Int
  mResponse : List (List (List Byte)) := []
  deriving DecidableEq

/-- `PutStringUTF` of a `std::string`. -/
def stringWriter (tocopy : List Byte) : Writer := fun buffer pos =>
  putStringUTF buffer pos (upToNul tocopy)

/-- The count and the texts of a row. -/
def rowWriter (row : List (List Byte)) : Writer :=
  puts (byteWriter (.ofNat 32 row.length) :: row.map stringWriter)

namespace QueryResponse

variable (r : QueryResponse)

/-- What is written behind the size. -/
def parts : List Writer :=
  integerWriter r.mQueryID :: shortWriter (.ofNat 32 r.mResponse.length) ::
    r.mResponse.map rowWriter

/-- `QueryResponse::Write`. -/
def write : Writer := messageWriter 1 r.parts

/-! ### The bytes of a response -/

def rowBytes (row : List (List Byte)) : List Byte := be 1 row.length ++ row.flatMap utf

def payload : List Byte :=
  be 4 (BitVec.ofInt 32 r.mQueryID).toNat ++
    (be 2 r.mResponse.length ++ r.mResponse.flatMap rowBytes)

/-- As many rows as two bytes count, in each as many texts as a byte counts, and an encoding whose
size fits into two bytes. A text has no NUL. -/
structure Encodable : Prop where
  rows : r.mResponse.length < 2 ^ 16
  strings : ∀ row ∈ r.mResponse, row.length < 256
  texts : ∀ row ∈ r.mResponse, ∀ col ∈ row, 0 ∉ col ∧ col.length < 2 ^ 16
  size : r.payload.length < 2 ^ 16

end QueryResponse

section Writers

theorem upToNul_of_notMem {text : List Byte} (h : 0 ∉ text) : upToNul text = text :=
  List.takeWhile_eq_self_iff.mpr fun _ hb => decide_eq_true fun hzero => h (hzero ▸ hb)

theorem writes_stringWriter {text : List Byte} (hnul : 0 ∉ text) (hlen : text.length < 2 ^ 16) :
    Writes (stringWriter text) (utf text) := by
  intro m p
  rw [stringWriter, upToNul_of_notMem hnul, putStringUTF_eq hlen, putStringReq_eq]
  rfl

/-- Writers in a row write what each of them writes. -/
theorem Writes.puts_map {α : Type*} {w : α → Writer} {bytes : α → List Byte} {l : List α}
    (h : ∀ a ∈ l, Writes (w a) (bytes a)) : Writes (puts (l.map w)) (l.flatMap bytes) := by
  induction l with
  | nil => exact Writes.puts_nil
  | cons a l ih =>
      have hrest := ih fun b hb => h b (List.mem_cons_of_mem a hb)
      exact (h a List.mem_cons_self).puts_cons hrest

theorem toNat_count {n : ℕ} (h : n < 2 ^ 16) : (BitVec.ofNat 32 n).toNat = n := by
  rw [BitVec.toNat_ofNat]
  omega

theorem writes_rowWriter {row : List (List Byte)} (hcount : row.length < 256)
    (htexts : ∀ col ∈ row, 0 ∉ col ∧ col.length < 2 ^ 16) :
    Writes (rowWriter row) (QueryResponse.rowBytes row) := by
  have hbyte := writes_byteWriter (.ofNat 32 row.length)
  rw [toNat_count (by omega)] at hbyte
  exact hbyte.puts_cons <| Writes.puts_map fun col hcol =>
    writes_stringWriter (htexts col hcol).1 (htexts col hcol).2

namespace QueryResponse

variable {r : QueryResponse}

theorem writes_parts (h : r.Encodable) : Writes (puts r.parts) r.payload := by
  have hcount := writes_shortWriter (.ofNat 32 r.mResponse.length)
  rw [toNat_count h.rows] at hcount
  exact (writes_integerWriter r.mQueryID).puts_cons <| hcount.puts_cons <|
    Writes.puts_map fun row hrow => writes_rowWriter (h.strings row hrow) (h.texts row hrow)

/-- A response is one message. -/
theorem writes_write (h : r.Encodable) : Writes r.write (frame 1 r.payload) :=
  writes_messageWriter 1 (writes_parts h) h.size

end QueryResponse

end Writers

/-! ### Reading a response -/

/-- `GetStringUTF` into a buffer that no text is too long for. -/
def getText (buffer : Memory) (pos : ℕ) : List Byte × ℕ :=
  let (recbuf, rpos) := getStringUTF buffer pos (fun _ => 0) (2 ^ 16) pos
  (cString recbuf (2 ^ 16), rpos)

def getTexts (buffer : Memory) : ℕ → ℕ → List (List Byte) × ℕ
  | 0, pos => ([], pos)
  | n + 1, pos =>
      let (col, pos) := getText buffer pos
      let (cols, pos) := getTexts buffer n pos
      (col :: cols, pos)

def getRows (buffer : Memory) : ℕ → ℕ → List (List (List Byte)) × ℕ
  | 0, pos => ([], pos)
  | n + 1, pos =>
      let (strings, pos) := getByte buffer pos pos
      let (row, pos) := getTexts buffer strings.toNat pos
      let (rows, pos) := getRows buffer n pos
      (row :: rows, pos)

/-- A message that is read as a response: its type, its size, the response, and where it ends. -/
structure Decoded where
  type : BitVec 8
  size : BitVec 16
  queryID : BitVec 32
  rows : List (List (List Byte))
  rpos : ℕ
  deriving DecidableEq

def decode (buffer : Memory) (pos : ℕ) : Decoded :=
  let (type, pos) := getByte buffer pos pos
  let (size, pos) := getShort buffer pos pos
  let (queryID, pos) := getInteger buffer pos pos
  let (count, pos) := getShort buffer pos pos
  let (rows, rpos) := getRows buffer count.toNat pos
  { type, size, queryID, rows, rpos }

section Readers

variable {buffer : Memory} {pos : ℕ}

theorem getByte_of_holds {n : ℕ} (hn : n < 256) (h : buffer.Holds pos (be 1 n)) :
    getByte buffer pos pos = (BitVec.ofNat 8 n, pos + 1) := by
  have hread : buffer.read pos 1 = be 1 n := by rw [← h, length_be]
  refine Prod.ext (BitVec.eq_of_toNat_eq ?_) rfl
  rw [toNat_getByte, hread, ofBe_be_of_lt (by omega), BitVec.toNat_ofNat, Nat.mod_eq_of_lt hn]

theorem getShort_of_holds {n : ℕ} (hn : n < 2 ^ 16) (h : buffer.Holds pos (be 2 n)) :
    getShort buffer pos pos = (BitVec.ofNat 16 n, pos + 2) := by
  have hread : buffer.read pos 2 = be 2 n := by rw [← h, length_be]
  refine Prod.ext (BitVec.eq_of_toNat_eq ?_) rfl
  rw [toNat_getShort, hread, ofBe_be_of_lt (by omega), BitVec.toNat_ofNat, Nat.mod_eq_of_lt hn]

theorem getInteger_of_holds {v : BitVec 32} (h : buffer.Holds pos (be 4 v.toNat)) :
    getInteger buffer pos pos = (v, pos + 4) := by
  have hread : buffer.read pos 4 = be 4 v.toNat := by rw [← h, length_be]
  refine Prod.ext (BitVec.eq_of_toNat_eq ?_) rfl
  rw [toNat_getInteger, hread, ofBe_be_of_lt v.isLt]

theorem getText_of_holds {text : List Byte} (hnul : 0 ∉ text) (hlen : text.length < 2 ^ 16)
    (h : buffer.Holds pos (utf text)) :
    getText buffer pos = (text, pos + (utf text).length) := by
  have hput : putStringUTF buffer pos text = (buffer, (utf text).length) := by
    have hwrite := writes_stringWriter hnul hlen buffer pos
    rwa [stringWriter, upToNul_of_notMem hnul, h.write_eq] at hwrite
  have hget := @getStringUTF_putStringUTF buffer (fun _ => 0) pos pos (2 ^ 16) text hlen
  rw [hput, List.take_of_length_le (by omega)] at hget
  have hread : cString (Memory.write (fun _ => 0) 0 (text ++ [0])) (2 ^ 16) = text := by
    have hsize : 2 ^ 16 = (text ++ [0]).length + (2 ^ 16 - (text.length + 1)) := by
      rw [List.length_append, List.length_singleton]
      omega
    have hall : text.takeWhile (· ≠ 0) = text := upToNul_of_notMem hnul
    rw [cString, hsize, Memory.read_add, Memory.read_write, List.append_assoc,
      List.takeWhile_append, if_pos (by rw [hall]), List.singleton_append,
      List.takeWhile_cons_of_neg (by simp), List.append_nil]
  simp only [getText, hget, hread]

theorem getTexts_of_holds {row : List (List Byte)}
    (htexts : ∀ col ∈ row, 0 ∉ col ∧ col.length < 2 ^ 16)
    (h : buffer.Holds pos (row.flatMap utf)) :
    getTexts buffer row.length pos = (row, pos + (row.flatMap utf).length) := by
  induction row generalizing pos with
  | nil => rfl
  | cons col rest ih =>
      rw [List.flatMap_cons, Memory.holds_append] at h
      obtain ⟨hnul, hlen⟩ := htexts col List.mem_cons_self
      have hrest := ih (fun c hc => htexts c (List.mem_cons_of_mem _ hc)) h.2
      simp only [List.length_cons, getTexts, getText_of_holds hnul hlen h.1, hrest,
        List.flatMap_cons, List.length_append, Nat.add_assoc]

theorem getRows_of_holds {rows : List (List (List Byte))}
    (hcounts : ∀ row ∈ rows, row.length < 256)
    (htexts : ∀ row ∈ rows, ∀ col ∈ row, 0 ∉ col ∧ col.length < 2 ^ 16)
    (h : buffer.Holds pos (rows.flatMap QueryResponse.rowBytes)) :
    getRows buffer rows.length pos =
      (rows, pos + (rows.flatMap QueryResponse.rowBytes).length) := by
  induction rows generalizing pos with
  | nil => rfl
  | cons row rest ih =>
      have hcount := hcounts row List.mem_cons_self
      have hn : (BitVec.ofNat 8 row.length).toNat = row.length := by
        rw [BitVec.toNat_ofNat]
        omega
      rw [List.flatMap_cons, Memory.holds_append, QueryResponse.rowBytes, Memory.holds_append,
        List.length_append, length_be] at h
      obtain ⟨⟨hbyte, hrow⟩, htail⟩ := h
      have htext := getTexts_of_holds (htexts row List.mem_cons_self) hrow
      rw [← Nat.add_assoc] at htail
      have hrest := ih (fun r hr => hcounts r (List.mem_cons_of_mem _ hr))
        (fun r hr => htexts r (List.mem_cons_of_mem _ hr)) htail
      simp only [List.length_cons, getRows, getByte_of_holds hcount hbyte, hn, htext, hrest]
      simp only [List.flatMap_cons, List.length_append, QueryResponse.rowBytes, length_be,
        Nat.add_assoc]

/-- A response is read as it was written, wherever it is. -/
theorem QueryResponse.decode_of_holds {r : QueryResponse} (hr : r.Encodable)
    (h : buffer.Holds pos (frame 1 r.payload)) :
    decode buffer pos =
      { type := 1
        size := BitVec.ofNat 16 r.payload.length
        queryID := BitVec.ofInt 32 r.mQueryID
        rows := r.mResponse
        rpos := pos + (frame 1 r.payload).length } := by
  have hframe : frame 1 r.payload = be 1 1 ++ (be 2 r.payload.length ++ r.payload) := rfl
  have hcount : (BitVec.ofNat 16 r.mResponse.length).toNat = r.mResponse.length := by
    rw [BitVec.toNat_ofNat]
    exact Nat.mod_eq_of_lt hr.rows
  rw [hframe, Memory.holds_append, Memory.holds_append, length_be, length_be] at h
  obtain ⟨htype, hsize, hpayload⟩ := h
  rw [QueryResponse.payload, Memory.holds_append, Memory.holds_append, length_be, length_be]
    at hpayload
  obtain ⟨hid, hrows, hbody⟩ := hpayload
  simp only [decode, getByte_of_holds (by decide) htype, getShort_of_holds hr.size hsize,
    getInteger_of_holds hid, getShort_of_holds hr.rows hrows, hcount,
    getRows_of_holds hr.strings hr.texts hbody]
  rw [length_frame, QueryResponse.payload, List.length_append, List.length_append, length_be,
    length_be]
  congr 1
  omega

end Readers

end Iceee.Simulator
