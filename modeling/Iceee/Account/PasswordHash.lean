import Iceee.Lib.Absorb
import Iceee.Lib.Memory

/-!
# The hash of passwords

`MD5` takes its message in parts: `update` compresses the blocks of 64 bytes that are full and keeps
the rest in a buffer, and `finalize` appends the padding and the length, again through `update`.

## Implementation notes

What the buffer holds at first is any bytes. A result of `none` is a read behind the end of the
input, which a counter near `2 ^ 32` leads to.

## Main results

* `digests_exact`: the digest is that of the whole message, in whatever parts it came.
-/

namespace Iceee.Account

open Lib

/-! ### The compression of a block -/

/-- `uint4 state[4]`. -/
structure Words where
  a : BitVec 32
  b : BitVec 32
  c : BitVec 32
  d : BitVec 32
  deriving DecidableEq, Repr

/-- The four functions of the rounds. -/
inductive RoundFunction where
  | f | g | h | i
  deriving DecidableEq, Repr

namespace RoundFunction

/-- `F`, `G`, `H` and `I`. -/
def apply (x y z : BitVec 32) : RoundFunction → BitVec 32
  | f => x &&& y ||| ~~~x &&& z
  | g => x &&& z ||| y &&& ~~~z
  | h => x ^^^ y ^^^ z
  | i => y ^^^ (x ||| ~~~z)

end RoundFunction

/-- `ROTATE_LEFT`. -/
def rotateLeft (x : BitVec 32) (n : ℕ) : BitVec 32 := x <<< n ||| x >>> (32 - n)

/-- `FF`, `GG`, `HH` and `II`: the new value of `a`. -/
def roundStep (function : RoundFunction) (w : Words) (x : BitVec 32) (s : ℕ) (ac : BitVec 32) :
    BitVec 32 :=
  rotateLeft (w.a + (function.apply w.b w.c w.d + x + ac)) s + w.b

/-- A line of `transform`: the function, the word of the block, the rotation and the constant. -/
structure RoundLine where
  function : RoundFunction
  word : ℕ
  s : ℕ
  ac : BitVec 32

/-- The lines of `transform`. The names of the four words move on from line to line. -/
def rounds : List RoundLine :=
  [⟨.f, 0, 7, 0xd76aa478⟩, ⟨.f, 1, 12, 0xe8c7b756⟩, ⟨.f, 2, 17, 0x242070db⟩,
    ⟨.f, 3, 22, 0xc1bdceee⟩, ⟨.f, 4, 7, 0xf57c0faf⟩, ⟨.f, 5, 12, 0x4787c62a⟩,
    ⟨.f, 6, 17, 0xa8304613⟩, ⟨.f, 7, 22, 0xfd469501⟩, ⟨.f, 8, 7, 0x698098d8⟩,
    ⟨.f, 9, 12, 0x8b44f7af⟩, ⟨.f, 10, 17, 0xffff5bb1⟩, ⟨.f, 11, 22, 0x895cd7be⟩,
    ⟨.f, 12, 7, 0x6b901122⟩, ⟨.f, 13, 12, 0xfd987193⟩, ⟨.f, 14, 17, 0xa679438e⟩,
    ⟨.f, 15, 22, 0x49b40821⟩, ⟨.g, 1, 5, 0xf61e2562⟩, ⟨.g, 6, 9, 0xc040b340⟩,
    ⟨.g, 11, 14, 0x265e5a51⟩, ⟨.g, 0, 20, 0xe9b6c7aa⟩, ⟨.g, 5, 5, 0xd62f105d⟩,
    ⟨.g, 10, 9, 0x2441453⟩, ⟨.g, 15, 14, 0xd8a1e681⟩, ⟨.g, 4, 20, 0xe7d3fbc8⟩,
    ⟨.g, 9, 5, 0x21e1cde6⟩, ⟨.g, 14, 9, 0xc33707d6⟩, ⟨.g, 3, 14, 0xf4d50d87⟩,
    ⟨.g, 8, 20, 0x455a14ed⟩, ⟨.g, 13, 5, 0xa9e3e905⟩, ⟨.g, 2, 9, 0xfcefa3f8⟩,
    ⟨.g, 7, 14, 0x676f02d9⟩, ⟨.g, 12, 20, 0x8d2a4c8a⟩, ⟨.h, 5, 4, 0xfffa3942⟩,
    ⟨.h, 8, 11, 0x8771f681⟩, ⟨.h, 11, 16, 0x6d9d6122⟩, ⟨.h, 14, 23, 0xfde5380c⟩,
    ⟨.h, 1, 4, 0xa4beea44⟩, ⟨.h, 4, 11, 0x4bdecfa9⟩, ⟨.h, 7, 16, 0xf6bb4b60⟩,
    ⟨.h, 10, 23, 0xbebfbc70⟩, ⟨.h, 13, 4, 0x289b7ec6⟩, ⟨.h, 0, 11, 0xeaa127fa⟩,
    ⟨.h, 3, 16, 0xd4ef3085⟩, ⟨.h, 6, 23, 0x4881d05⟩, ⟨.h, 9, 4, 0xd9d4d039⟩,
    ⟨.h, 12, 11, 0xe6db99e5⟩, ⟨.h, 15, 16, 0x1fa27cf8⟩, ⟨.h, 2, 23, 0xc4ac5665⟩,
    ⟨.i, 0, 6, 0xf4292244⟩, ⟨.i, 7, 10, 0x432aff97⟩, ⟨.i, 14, 15, 0xab9423a7⟩,
    ⟨.i, 5, 21, 0xfc93a039⟩, ⟨.i, 12, 6, 0x655b59c3⟩, ⟨.i, 3, 10, 0x8f0ccc92⟩,
    ⟨.i, 10, 15, 0xffeff47d⟩, ⟨.i, 1, 21, 0x85845dd1⟩, ⟨.i, 8, 6, 0x6fa87e4f⟩,
    ⟨.i, 15, 10, 0xfe2ce6e0⟩, ⟨.i, 6, 15, 0xa3014314⟩, ⟨.i, 13, 21, 0x4e0811a1⟩,
    ⟨.i, 4, 6, 0xf7537e82⟩, ⟨.i, 11, 10, 0xbd3af235⟩, ⟨.i, 2, 15, 0x2ad7d2bb⟩,
    ⟨.i, 9, 21, 0xeb86d391⟩]

/-- A word of `decode`, the lowest byte first. -/
def decodeWord (input : List Byte) (i : ℕ) : BitVec 32 :=
  (input.getD (4 * i) 0).setWidth 32 ||| (input.getD (4 * i + 1) 0).setWidth 32 <<< 8 |||
    (input.getD (4 * i + 2) 0).setWidth 32 <<< 16 ||| (input.getD (4 * i + 3) 0).setWidth 32 <<< 24

/-- A word of `encode`. -/
def encodeWord (word : BitVec 32) : List Byte :=
  [word.setWidth 8, (word >>> 8).setWidth 8, (word >>> 16).setWidth 8, (word >>> 24).setWidth 8]

/-- `transform`. -/
def transform (state : Words) (block : List Byte) : Words :=
  let w := rounds.foldl (fun w line =>
    { a := w.d
      b := roundStep line.function w (decodeWord block line.word) line.s line.ac
      c := w.b
      d := w.c }) state
  { a := state.a + w.a, b := state.b + w.b, c := state.c + w.c, d := state.d + w.d }

/-! ### Updates -/

/-- The constants of `init`. -/
def initialState : Words := ⟨0x67452301, 0xefcdab89, 0x98badcfe, 0x10325476⟩

structure MD5 where
  state : Words := initialState
  count₀ : BitVec 32 := 0
  count₁ : BitVec 32 := 0
  buffer : Memory
  digest : List Byte := []
  finalized : Bool := false

namespace MD5

/-- The loop over the blocks of the input, from the place `inputIndex` on. -/
def transformLoop (input : List Byte) : ℕ → Words → ℕ → Option (Words × ℕ)
  | 0, _, _ => none
  | fuel + 1, state, inputIndex =>
      if (inputIndex + 63) % 2 ^ 32 < input.length then
        if inputIndex + 64 ≤ input.length then
          transformLoop input fuel (transform state ((input.drop inputIndex).take 64))
            ((inputIndex + 64) % 2 ^ 32)
        else none
      else some (state, inputIndex)

/-- `update`. A digest that is finalized is left alone. -/
def update (m : MD5) (input : List Byte) : Option MD5 :=
  if m.finalized then some m
  else
    let inputLength := BitVec.ofNat 32 input.length
    let bufferIndex := (m.count₀ >>> 3 &&& 0x3f).toNat
    let count₀ := m.count₀ + inputLength <<< 3
    let carry := if count₀ < inputLength <<< 3 then m.count₁ + 1 else m.count₁
    let count₁ := carry + inputLength >>> 29
    let bufferSpace := 64 - bufferIndex
    if bufferSpace ≤ input.length then
      let buffer := m.buffer.write bufferIndex (input.take bufferSpace)
      (transformLoop input input.length (transform m.state (buffer.read 0 64)) bufferSpace).map
        fun r => { m with
          state := r.1
          count₀ := count₀
          count₁ := count₁
          buffer := buffer.write 0 (input.drop r.2) }
    else
      some { m with
        count₀ := count₀
        count₁ := count₁
        buffer := m.buffer.write bufferIndex input }

/-- `PADDING`. -/
def padding : List Byte := 0x80 :: List.replicate 63 0

/-- `finalize`. -/
def finalize (m : MD5) : Option MD5 :=
  if m.finalized then some m
  else
    let bits := encodeWord m.count₀ ++ encodeWord m.count₁
    let index := (m.count₀ >>> 3 &&& 0x3f).toNat
    let padLen := if index < 56 then 56 - index else 120 - index
    (m.update (padding.take padLen)).bind fun m =>
      (m.update bits).map fun m => { m with
        digest := encodeWord m.state.a ++ encodeWord m.state.b ++ encodeWord m.state.c ++
          encodeWord m.state.d
        buffer := m.buffer.write 0 [0]
        finalized := true }

/-- A digit of `%02x`. -/
def hexDigit (n : ℕ) : Char := "0123456789abcdef".toList.getD n ' '

/-- `hex_digest`. -/
def hexDigest (m : MD5) : String :=
  if m.finalized then
    String.ofList (m.digest.flatMap fun b => [hexDigit (b.toNat / 16), hexDigit (b.toNat % 16)])
  else ""

end MD5

/-! ### The digest of a message -/

/-- The message with a set bit, zeros up to eight places in front of the end of a block, and its
length in bits. -/
def padded (msg : List Byte) : List Byte :=
  msg ++ (0x80 :: List.replicate ((119 - msg.length % 64) % 64) 0) ++
    (be 8 (8 * msg.length)).reverse

/-- The words that a message is compressed to. -/
def compressed (msg : List Byte) : Words :=
  (absorb 64 transform initialState (padded msg)).1

/-- The digest of a message, in digits. -/
def md5 (msg : List Byte) : String :=
  let w := compressed msg
  String.ofList ((encodeWord w.a ++ encodeWord w.b ++ encodeWord w.c ++ encodeWord w.d).flatMap
    fun b => [MD5.hexDigit (b.toNat / 16), MD5.hexDigit (b.toNat % 16)])

/-! ### A digest that is under way -/

namespace MD5

/-- The message so far: its blocks are compressed, the rest is in the buffer, and the bits are
counted. -/
structure Digesting (m : MD5) (msg : List Byte) : Prop where
  state : m.state = (absorb 64 transform initialState msg).1
  buffer : m.buffer.Holds 0 (absorb 64 transform initialState msg).2
  count₀ : m.count₀ = BitVec.ofNat 32 (8 * msg.length)
  count₁ : m.count₁ = BitVec.ofNat 32 (8 * msg.length / 2 ^ 32)
  finalized : m.finalized = false

theorem bufferIndex_eq (n : ℕ) : (BitVec.ofNat 32 (8 * n) >>> 3 &&& 0x3f).toNat = n % 64 := by
  have hmask : ∀ x : ℕ, x &&& 63 = x % 64 := fun x => Nat.and_two_pow_sub_one_eq_mod x 6
  rw [BitVec.toNat_and, BitVec.toNat_ushiftRight, BitVec.toNat_ofNat, Nat.shiftRight_eq_div_pow]
  change 8 * n % 2 ^ 32 / 2 ^ 3 &&& 63 = _
  rw [hmask]
  omega

theorem count₀_add (n k : ℕ) :
    BitVec.ofNat 32 (8 * n) + BitVec.ofNat 32 k <<< 3 = BitVec.ofNat 32 (8 * (n + k)) := by
  apply BitVec.eq_of_toNat_eq
  rw [BitVec.toNat_add, BitVec.toNat_shiftLeft, BitVec.toNat_ofNat, BitVec.toNat_ofNat,
    BitVec.toNat_ofNat, Nat.shiftLeft_eq]
  omega

/-- The carry is noticed when the sum is less than what was added. -/
theorem count₁_add (n : ℕ) {k : ℕ} (hk : k < 2 ^ 32) :
    (if BitVec.ofNat 32 (8 * (n + k)) < BitVec.ofNat 32 k <<< 3 then
        BitVec.ofNat 32 (8 * n / 2 ^ 32) + 1 else BitVec.ofNat 32 (8 * n / 2 ^ 32)) +
      BitVec.ofNat 32 k >>> 29 = BitVec.ofNat 32 (8 * (n + k) / 2 ^ 32) := by
  have hlt : BitVec.ofNat 32 (8 * (n + k)) < BitVec.ofNat 32 k <<< 3 ↔
      8 * (n + k) % 2 ^ 32 < 8 * k % 2 ^ 32 := by
    rw [BitVec.lt_def, BitVec.toNat_shiftLeft, BitVec.toNat_ofNat, BitVec.toNat_ofNat,
      Nat.shiftLeft_eq]
    omega
  have hhigh : BitVec.ofNat 32 k >>> 29 = BitVec.ofNat 32 (8 * k / 2 ^ 32) := by
    apply BitVec.eq_of_toNat_eq
    rw [BitVec.toNat_ushiftRight, BitVec.toNat_ofNat, BitVec.toNat_ofNat,
      Nat.shiftRight_eq_div_pow]
    omega
  have hone : (1 : BitVec 32) = BitVec.ofNat 32 1 := rfl
  rw [hhigh, hone, ← BitVec.ofNat_add]
  split
  · rename_i hcarry
    rw [hlt] at hcarry
    rw [← BitVec.ofNat_add]
    congr 1
    omega
  · rename_i hcarry
    rw [hlt] at hcarry
    rw [← BitVec.ofNat_add]
    congr 1
    omega

/-- The loop compresses the blocks of the input that are left. -/
theorem transformLoop_eq {input : List Byte} (hlength : input.length ≤ 2 ^ 32 - 64) {fuel : ℕ}
    (state : Words) {i : ℕ} (hi : i ≤ input.length) (hfuel : input.length - i < 64 * fuel) :
    ∃ j, transformLoop input fuel state i =
        some ((absorb 64 transform state (input.drop i)).1, j) ∧
      input.drop j = (absorb 64 transform state (input.drop i)).2 := by
  induction fuel generalizing state i with
  | zero => omega
  | succ fuel ih =>
      rw [transformLoop, Nat.mod_eq_of_lt (by omega)]
      by_cases hmore : i + 63 < input.length
      · rw [if_pos hmore, if_pos (by omega), Nat.mod_eq_of_lt (by omega)]
        obtain ⟨j, hloop, hdrop⟩ := ih (transform state ((input.drop i).take 64))
          (i := i + 64) (by omega) (by omega)
        have habsorb : absorb 64 transform state (input.drop i) =
            absorb 64 transform (transform state ((input.drop i).take 64))
              (input.drop (i + 64)) := by
          conv_lhs => rw [← List.take_append_drop 64 (input.drop i)]
          rw [absorb_block (by norm_num), List.drop_drop]
          rw [List.length_take, List.length_drop]
          omega
        rw [habsorb]
        exact ⟨j, hloop, hdrop⟩
      · rw [if_neg hmore, absorb_of_lt]
        · exact ⟨i, rfl, rfl⟩
        · rw [List.length_drop]
          omega

theorem Digesting.new (buffer : Memory) : Digesting { buffer := buffer } [] where
  state := rfl
  buffer := rfl
  count₀ := rfl
  count₁ := rfl
  finalized := rfl

/-- An update appends its input to the message. -/
theorem Digesting.update {m : MD5} {msg input : List Byte} (h : Digesting m msg)
    (hinput : input.length ≤ 2 ^ 32 - 64) :
    ∃ m', m.update input = some m' ∧ Digesting m' (msg ++ input) := by
  obtain ⟨hstate, hbuffer, hcount₀, hcount₁, hfinalized⟩ := h
  have hadd₀ := count₀_add msg.length input.length
  have hadd₁ := count₁_add msg.length (k := input.length) (by omega)
  have hlength : (absorb 64 transform initialState msg).2.length = msg.length % 64 :=
    length_snd_absorb _ msg
  have happend : absorb 64 transform initialState (msg ++ input) = _ :=
    absorb_append (by norm_num) _ msg input
  set kept := (absorb 64 transform initialState msg).2
  rw [← hstate] at happend
  have hkept := hbuffer.write_append
  rw [Nat.zero_add, hlength] at hkept
  rw [MD5.update, hfinalized, if_neg (by simp)]
  simp only [hcount₀, hcount₁, bufferIndex_eq, hadd₀, hadd₁]
  by_cases hfull : 64 - msg.length % 64 ≤ input.length
  · -- the buffer gets full
    rw [if_pos hfull]
    have hblock : (kept ++ input.take (64 - msg.length % 64)).length = 64 := by
      rw [List.length_append, hlength, List.length_take]
      omega
    have hread := hkept (input.take (64 - msg.length % 64))
    rw [Memory.Holds, hblock] at hread
    obtain ⟨j, hloop, hdrop⟩ := transformLoop_eq hinput
      (transform m.state (kept ++ input.take (64 - msg.length % 64))) hfull
      (by omega : input.length - _ < 64 * input.length)
    have hsplit : kept ++ input = kept ++ input.take (64 - msg.length % 64) ++
        input.drop (64 - msg.length % 64) := by
      rw [List.append_assoc, List.take_append_drop]
    rw [hsplit, absorb_block (by norm_num) hblock] at happend
    rw [hread, hloop, Option.map_some]
    refine ⟨_, rfl, ?_, ?_, by rw [List.length_append], by rw [List.length_append], rfl⟩
    · rw [happend]
    · rw [happend, ← hdrop]
      exact Memory.holds_write (m.buffer.write _ _) 0 (input.drop j)
  · rw [if_neg hfull]
    have hshort : (kept ++ input).length < 64 := by
      rw [List.length_append, hlength]
      omega
    rw [absorb_of_lt hshort] at happend
    refine ⟨_, rfl, ?_, ?_, by rw [List.length_append], by rw [List.length_append], rfl⟩
    · rw [happend]
    · rw [happend]
      exact hkept input

theorem setWidth_ushiftRight (n k : ℕ) (hk : k ≤ 24) :
    ((BitVec.ofNat 32 n) >>> k).setWidth 8 = BitVec.ofNat 8 (n / 2 ^ k) := by
  apply BitVec.eq_of_toNat_eq
  rw [BitVec.toNat_setWidth, BitVec.toNat_ushiftRight, BitVec.toNat_ofNat, BitVec.toNat_ofNat,
    Nat.shiftRight_eq_div_pow]
  have hdvd : 2 ^ 32 = 2 ^ k * (2 ^ 8 * 2 ^ (24 - k)) := by
    rw [← pow_add, ← pow_add]
    congr 1
    omega
  rw [hdvd, Nat.mod_mul_right_div_self, Nat.mod_mul_right_mod]

/-- `encode` writes the lowest byte first. -/
theorem encodeWord_ofNat (n : ℕ) : encodeWord (BitVec.ofNat 32 n) = (be 4 n).reverse := by
  have hlow := setWidth_ushiftRight n 0 (by norm_num)
  rw [BitVec.ushiftRight_zero, pow_zero, Nat.div_one] at hlow
  simp only [encodeWord, hlow, setWidth_ushiftRight n _ (by norm_num : 8 ≤ 24),
    setWidth_ushiftRight n _ (by norm_num : 16 ≤ 24),
    setWidth_ushiftRight n _ (by norm_num : 24 ≤ 24), be, List.nil_append, List.cons_append,
    List.reverse_cons, List.reverse_nil, Nat.div_div_eq_div_mul]
  norm_num

/-- Both counters give the eight bytes of the number of bits. -/
theorem encodeWord_append (n : ℕ) :
    encodeWord (BitVec.ofNat 32 n) ++ encodeWord (BitVec.ofNat 32 (n / 2 ^ 32)) =
      (be 8 n).reverse := by
  rw [encodeWord_ofNat, encodeWord_ofNat, ← List.reverse_append]
  simp only [be, List.nil_append, List.cons_append, Nat.div_div_eq_div_mul]
  norm_num

theorem take_padding (n : ℕ) :
    padding.take (if n % 64 < 56 then 56 - n % 64 else 120 - n % 64) =
      0x80 :: List.replicate ((119 - n % 64) % 64) 0 := by
  have hlt : n % 64 < 64 := Nat.mod_lt _ (by norm_num)
  have hlength : (if n % 64 < 56 then 56 - n % 64 else 120 - n % 64) = (119 - n % 64) % 64 + 1 := by
    split <;> omega
  rw [hlength, padding, List.take_succ_cons, List.take_replicate, Nat.min_eq_left (by omega)]

/-- The padding and the length are appended by updates, and what is left is the digest. -/
theorem Digesting.finalize {m : MD5} {msg : List Byte} (h : Digesting m msg) :
    ∃ m', m.finalize = some m' ∧ m'.hexDigest = md5 msg := by
  have hpad : (padding.take
      (if msg.length % 64 < 56 then 56 - msg.length % 64 else 120 - msg.length % 64)).length ≤
        2 ^ 32 - 64 :=
    (List.length_take_le' _ _).trans (by decide)
  obtain ⟨m₁, hupdate₁, h₁⟩ := h.update hpad
  have hbits : ((be 8 (8 * msg.length)).reverse).length ≤ 2 ^ 32 - 64 := by
    rw [List.length_reverse, length_be]
    norm_num
  obtain ⟨m₂, hupdate₂, h₂⟩ := h₁.update hbits
  rw [take_padding, List.append_assoc] at h₂
  have hstate : m₂.state = compressed msg := h₂.state.trans (by
    rw [compressed, padded, List.append_assoc])
  rw [MD5.finalize, h.finalized, if_neg (by simp)]
  simp only [h.count₀, h.count₁, bufferIndex_eq, encodeWord_append, hupdate₁, Option.bind_some,
    hupdate₂, Option.map_some]
  refine ⟨_, rfl, ?_⟩
  simp only [hexDigest, md5, hstate, if_true]

/-- Updates append their inputs to the message. -/
theorem Digesting.foldlM_update {inputs : List (List Byte)} {m : MD5} {msg : List Byte}
    (h : Digesting m msg) (hinputs : ∀ input ∈ inputs, input.length ≤ 2 ^ 32 - 64) :
    ∃ m', inputs.foldlM MD5.update m = some m' ∧ Digesting m' (msg ++ inputs.flatten) := by
  induction inputs generalizing m msg with
  | nil => exact ⟨m, rfl, by rwa [List.flatten_nil, List.append_nil]⟩
  | cons input inputs ih =>
      obtain ⟨hfirst, hlater⟩ := List.forall_mem_cons.mp hinputs
      obtain ⟨m₁, hupdate, h₁⟩ := h.update hfirst
      obtain ⟨m₂, hfold, h₂⟩ := ih h₁ hlater
      refine ⟨m₂, ?_, by rwa [List.flatten_cons, ← List.append_assoc]⟩
      rw [List.foldlM_cons, hupdate]
      exact hfold

/-- What a digest of inputs is finalized to. -/
def digestOf (buffer : Memory) (inputs : List (List Byte)) : Option String :=
  ((inputs.foldlM update { buffer := buffer }).bind finalize).map hexDigest

theorem digestOf_eq (buffer : Memory) {inputs : List (List Byte)}
    (hinputs : ∀ input ∈ inputs, input.length ≤ 2 ^ 32 - 64) :
    digestOf buffer inputs = some (md5 inputs.flatten) := by
  obtain ⟨m, hfold, h⟩ := (Digesting.new buffer).foldlM_update hinputs
  obtain ⟨m', hfinalize, hdigest⟩ := h.finalize
  rw [digestOf, hfold, Option.bind_some, hfinalize, Option.map_some, hdigest, List.nil_append]

end MD5

/-! ### Hashes of accounts -/

/-- The bytes of a text of plain characters. -/
def bytes (s : String) : List Byte := s.toList.map fun c => BitVec.ofNat 8 c.toNat

/-- `GenerateClientPasswordHash`. -/
def generateClientPasswordHash (buffer buffer' : Memory) (g_AuthKey username password : List Byte) :
    Option String :=
  (MD5.digestOf buffer [password]).bind fun passwordHash =>
    MD5.digestOf buffer' [username ++ bytes ":" ++ bytes passwordHash ++ bytes ":" ++ g_AuthKey]

/-- `GenerateSaltedHash`. The size of the array `RandomSalt` counts the zero behind it. -/
def generateSaltedHash (buffer : Memory) (RandomSalt inputString : List Byte) : Option String :=
  MD5.digestOf buffer [inputString ++ (RandomSalt ++ [0])]

theorem length_bytes_md5 (msg : List Byte) : (bytes (md5 msg)).length = 32 := by
  simp [bytes, md5, encodeWord]

/-- The hash of a message does not depend on the parts in which it is updated nor on what the buffer
held; it is the padded message compressed. So the hash of a client and the salted hash are those of
the texts that they are said to be of. -/
theorem digests_exact (buffer buffer' : Memory) (inputs : List (List Byte))
    (g_AuthKey username password RandomSalt : List Byte)
    (hinputs : ∀ input ∈ inputs, input.length ≤ 2 ^ 32 - 64)
    (hpassword : password.length ≤ 2 ^ 32 - 64)
    (husername : username.length + g_AuthKey.length ≤ 2 ^ 32 - 98)
    (hsalt : password.length + RandomSalt.length ≤ 2 ^ 32 - 65) :
    MD5.digestOf buffer inputs = some (md5 inputs.flatten) ∧
      generateClientPasswordHash buffer buffer' g_AuthKey username password =
        some (md5 (username ++ bytes ":" ++ bytes (md5 password) ++ bytes ":" ++ g_AuthKey)) ∧
      generateSaltedHash buffer RandomSalt password =
        some (md5 (password ++ (RandomSalt ++ [0]))) := by
  refine ⟨MD5.digestOf_eq buffer hinputs, ?_, ?_⟩
  · have hlength : (username ++ bytes ":" ++ bytes (md5 password) ++ bytes ":" ++
        g_AuthKey).length ≤ 2 ^ 32 - 64 := by
      have hcolon : (bytes ":").length = 1 := rfl
      simp only [List.length_append, length_bytes_md5, hcolon]
      omega
    rw [generateClientPasswordHash, MD5.digestOf_eq buffer (by simpa using hpassword),
      List.flatten_singleton, Option.bind_some, MD5.digestOf_eq buffer' (by simpa using hlength),
      List.flatten_singleton]
  · have hlength : (password ++ (RandomSalt ++ [0])).length ≤ 2 ^ 32 - 64 := by
      simp only [List.length_append, List.length_singleton]
      omega
    rw [generateSaltedHash, MD5.digestOf_eq buffer (by simpa using hlength),
      List.flatten_singleton]

theorem digests_exact_abc :
    MD5.digestOf (fun _ => 7) [bytes "a", bytes "bc"] =
      some "900150983cd24fb0d6963f7d28e17f72" :=
  (digests_exact (fun _ => 7) (fun _ => 0) [bytes "a", bytes "bc"] (bytes "key") (bytes "u")
    (bytes "p") (bytes "s") (by decide) (by decide) (by decide) (by decide)).1.trans
      (by decide +kernel)

end Iceee.Account
