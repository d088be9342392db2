import Iceee.Lib.Memory

/-!
# Writers and framed messages

A writer puts bytes into a memory from a place on and says how many they were. Writers follow each
other. A message has a type of one byte, the length of its payload in two bytes and the payload; a
sequence of messages is taken apart again without a mark between them.

## Main results

* `Writes.puts_cons`: writers that follow each other write their bytes one after the other.
* `unframe_frames`: messages are taken apart as they were put together.
-/

namespace Iceee.Lib

/-! ### Writers -/

/-- What becomes of a memory at a place, and how many bytes were written there. -/
abbrev Writer := Memory → ℕ → Memory × ℕ

/-- Writers one after the other. -/
def puts : List Writer → Writer
  | [], m, _ => (m, 0)
  | w :: rest, m, p =>
      let (m, n) := w m p
      let (m, k) := puts rest m (p + n)
      (m, n + k)

/-- The writer writes these bytes, wherever it is. -/
def Writes (w : Writer) (bytes : List Byte) : Prop :=
  ∀ m p, w m p = (m.write p bytes, bytes.length)

section Writes

variable {w : Writer} {ws : List Writer} {xs ys : List Byte}

theorem Writes.puts_nil : Writes (puts []) [] := by
  intro m p
  rw [Memory.write_nil]
  rfl

theorem Writes.puts_cons (hw : Writes w xs) (hws : Writes (puts ws) ys) :
    Writes (puts (w :: ws)) (xs ++ ys) := by
  intro m p
  simp only [puts, hw m p, hws (m.write p xs) (p + xs.length), Memory.write_write_append,
    List.length_append]

/-- One writer at the end of what others wrote. -/
theorem Writes.after (hw : Writes w ys) (m : Memory) (p : ℕ) (xs : List Byte) :
    w (m.write p xs) (p + xs.length) = (m.write p (xs ++ ys), ys.length) := by
  rw [hw, Memory.write_write_append]

end Writes

/-! ### Messages -/

/-- A message: its type, the length of its payload, and the payload. -/
def frame (type : Byte) (payload : List Byte) : List Byte :=
  type :: (be 2 payload.length ++ payload)

/-- Messages one after the other. -/
def frames (messages : List (Byte × List Byte)) : List Byte :=
  messages.flatMap fun message => frame message.1 message.2

/-- Take a sequence of messages apart, if it ends where a message does. -/
def unframe : List Byte → Option (List (Byte × List Byte))
  | [] => some []
  | type :: hi :: lo :: rest =>
      if ofBe [hi, lo] ≤ rest.length then
        (unframe (rest.drop (ofBe [hi, lo]))).map ((type, rest.take (ofBe [hi, lo])) :: ·)
      else none
  | _ => none
termination_by bytes => bytes.length
decreasing_by
  simp only [List.length_drop, List.length_cons]
  omega

section Frames

variable {type : Byte} {payload rest : List Byte}

@[simp] theorem length_frame : (frame type payload).length = payload.length + 3 := by
  simp [frame]
  omega

@[simp] theorem frames_append (messages messages' : List (Byte × List Byte)) :
    frames (messages ++ messages') = frames messages ++ frames messages' :=
  List.flatMap_append

@[simp] theorem frames_singleton (type : Byte) (payload : List Byte) :
    frames [(type, payload)] = frame type payload :=
  List.flatMap_singleton _ _

/-- The message in front is taken off. -/
theorem unframe_frame (hlength : payload.length < 2 ^ 16) :
    unframe (frame type payload ++ rest) = (unframe rest).map ((type, payload) :: ·) := by
  obtain ⟨hi, lo, hbe⟩ : ∃ hi lo, be 2 payload.length = [hi, lo] := ⟨_, _, rfl⟩
  have hsize : ofBe [hi, lo] = payload.length := by
    rw [← hbe]
    exact ofBe_be_of_lt hlength
  have hfits : payload.length ≤ (payload ++ rest).length := by simp
  simp only [frame, hbe, List.cons_append, List.nil_append, unframe, hsize, if_pos hfits,
    List.drop_left, List.take_left]

theorem unframe_frames {messages : List (Byte × List Byte)}
    (hlength : ∀ message ∈ messages, message.2.length < 2 ^ 16) :
    unframe (frames messages) = some messages := by
  induction messages with
  | nil => exact unframe.eq_1
  | cons message rest ih =>
      have hrest := ih fun other hmem => hlength other (List.mem_cons_of_mem _ hmem)
      calc unframe (frame message.1 message.2 ++ frames rest)
        _ = (unframe (frames rest)).map (message :: ·) :=
            unframe_frame (hlength message List.mem_cons_self)
        _ = some (message :: rest) := by rw [hrest]; rfl

end Frames

end Iceee.Lib
