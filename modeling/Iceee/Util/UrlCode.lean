import Mathlib

/-!
# URLs

`URLEncode` writes every byte that is not plain as a percent sign and two digits, and `URLDecode`
reads it back. The decoder counts in an `unsigned int`, where the other function of that name, which
nothing calls, counts in a `size_t`.

## Main results

* `stop_next`: what a step of the decoder does not change, until the counter wraps.
* `urlDecode_iff`: which texts are decoded at all, and which come back.

## Implementation notes

A text is a list of bytes. `sscanf` leaves the variable alone where it finds no number; at the first
escape the variable has no value yet, so it begins with any. An access past the end of the text, and
a call of `substr` that throws, are a fault.
-/

namespace Iceee.Util.Url

/-! ### Encoding -/

/-- `isalnum`, in the locale "C". -/
def isalnum (c : UInt8) : Bool := (48 ≤ c && c ≤ 57) || (65 ≤ c && c ≤ 90) || (97 ≤ c && c ≤ 122)

/-- The bytes that stay as they are: letters, digits, `-`, `_`, `.` and `~`. -/
def isPlain (c : UInt8) : Bool := isalnum c || c == 45 || c == 95 || c == 46 || c == 126

/-- A digit that `hex` prints. -/
def hexDigit (n : UInt8) : UInt8 := if n < 10 then 48 + n else 87 + n

/-- `URLEncode`. -/
def urlEncode (str : List UInt8) : List UInt8 :=
  str.flatMap fun c => if isPlain c then [c] else [37, hexDigit (c / 16), hexDigit (c % 16)]

/-! ### Decoding -/

/-- `isspace`. -/
def isspace (c : UInt8) : Bool := c == 32 || (9 ≤ c && c ≤ 13)

/-- The value of a hexadecimal digit. -/
def digitOf (c : UInt8) : Option UInt32 :=
  if 48 ≤ c && c ≤ 57 then some (c - 48).toUInt32
  else if 97 ≤ c && c ≤ 102 then some (c - 87).toUInt32
  else if 65 ≤ c && c ≤ 70 then some (c - 55).toUInt32
  else none

/-- The number that the digits at the start of a text make, after the number so far. -/
def scanDigits : Option UInt32 → List UInt8 → Option UInt32
  | n, [] => n
  | n, c :: t =>
      match digitOf c with
      | none => n
      | some d => scanDigits (some (16 * n.getD 0 + d)) t

/-- The digits behind a prefix `0x`, of which the zero alone is a number. -/
def scanPrefixed : List UInt8 → Option UInt32
  | 48 :: 120 :: t => scanDigits (some 0) t
  | 48 :: 88 :: t => scanDigits (some 0) t
  | t => scanDigits none t

/-- `sscanf` with `%x`: the number that it stores, if it stores one. -/
def sscanf (t : List UInt8) : Option UInt32 :=
  match (t.takeWhile (· ≠ 0)).dropWhile isspace with
  | 45 :: t => (scanPrefixed t).map (- ·)
  | 43 :: t => scanPrefixed t
  | t => scanPrefixed t

/-- `substr`, which throws for a place past the end. -/
def substr (str : List UInt8) (pos len : Nat) : Option (List UInt8) :=
  if pos ≤ str.length then some ((str.drop pos).take len) else none

/-- The variables of `URLDecode`. -/
structure Decoder where
  i : UInt32
  ii : UInt32
  ret : List UInt8

inductive DecodeStep
  | returned (ret : List UInt8)
  | next (d : Decoder)
  | fault

/-- One round of the loop of `URLDecode`. -/
def decodeStep (str : List UInt8) (d : Decoder) : DecodeStep :=
  if d.i.toNat < str.length then
    match str[d.i.toNat]? with
    | none => .fault
    | some c =>
        if c = 37 then
          match substr str (d.i + 1).toNat 2 with
          | none => .fault
          | some t =>
              let ii := (sscanf t).getD d.ii
              .next { i := d.i + 2 + 1, ii, ret := d.ret ++ [ii.toUInt8] }
        else .next { d with i := d.i + 1, ret := d.ret ++ [if c = 43 then 32 else c] }
  else .returned d.ret

/-- The loop of `URLDecode`, for as many rounds as there is fuel. -/
def decodeLoop (str : List UInt8) : Nat → Decoder → Option (List UInt8)
  | 0, _ => none
  | fuel + 1, d =>
      match decodeStep str d with
      | .returned ret => some ret
      | .next d => decodeLoop str fuel d
      | .fault => none

/-- `URLDecode` ends, with a result. -/
def Decodes (ii : UInt32) (str ret : List UInt8) : Prop :=
  ∃ fuel, decodeLoop str fuel { i := 0, ii, ret := [] } = some ret

/-! ### Where the decoder goes -/

/-- The bytes that the last escape of a text lacks, when some of its bytes belong to an escape in
front of it. -/
def lackingAfter : Nat → List UInt8 → Nat
  | k, [] => k
  | 0, c :: t => lackingAfter (if c = 37 then 2 else 0) t
  | k + 1, _ :: t => lackingAfter k t

/-- The bytes that the last escape of a text lacks. -/
def lacking (t : List UInt8) : Nat := lackingAfter 0 t

theorem lackingAfter_eq (k : Nat) (t : List UInt8) :
    lackingAfter k t = if t.length < k then k - t.length else lacking (t.drop k) := by
  induction t generalizing k with
  | nil => cases k <;> rfl
  | cons c t ih =>
      cases k with
      | zero => rfl
      | succ k =>
          rw [lackingAfter, ih, List.length_cons, List.drop_succ_cons, Nat.add_sub_add_right]
          exact if_congr (Nat.add_lt_add_iff_right).symm rfl rfl

theorem lackingAfter_le {k : Nat} (hk : k ≤ 2) (t : List UInt8) : lackingAfter k t ≤ 2 := by
  induction t generalizing k with
  | nil => cases k <;> exact hk
  | cons c t ih =>
      cases k with
      | zero =>
          rw [lackingAfter]
          exact ih (by split <;> omega)
      | succ k => exact ih (by omega)

section Position

variable (str : List UInt8)

/-- The place behind a byte, or behind an escape. -/
def next (i : Nat) : Nat := if str[i]? = some 37 then i + 3 else i + 1

/-- The place that the decoder would stop at, could it count that far. -/
def stop (i : Nat) : Nat := max i (str.length + lacking (str.drop i))

variable {str}

theorem stop_of_le {i : Nat} (h : str.length ≤ i) : stop str i = i := by
  rw [stop, List.drop_eq_nil_of_le h]
  exact max_eq_left h

theorem stop_of_lt {i : Nat} (h : i < str.length) :
    stop str i = str.length + lacking (str.drop i) := by
  rw [stop]
  omega

theorem stop_le (i : Nat) (h : i ≤ str.length) : stop str i ≤ str.length + 2 := by
  have hle : lacking (str.drop i) ≤ 2 := lackingAfter_le (by omega) _
  rw [stop]
  omega

/-- A step does not change where the decoder stops. -/
theorem stop_next {i : Nat} (h : i < str.length) : stop str (next str i) = stop str i := by
  have hdrop : str.drop i = str[i] :: str.drop (i + 1) := List.drop_eq_getElem_cons h
  have hlacking : lacking (str.drop i) =
      lackingAfter (if str[i] = 37 then 2 else 0) (str.drop (i + 1)) := by rw [hdrop]; rfl
  rw [stop_of_lt h, hlacking, next, List.getElem?_eq_getElem h]
  by_cases hescape : str[i] = 37
  · rw [if_pos hescape, if_pos (by rw [hescape]), lackingAfter_eq, List.length_drop,
      List.drop_drop, stop]
    split
    · rw [List.drop_eq_nil_of_le (by omega)]
      have hnil : lacking [] = 0 := rfl
      omega
    · rw [show i + 1 + 2 = i + 3 by omega]
      omega
  · rw [if_neg hescape, if_neg (by simpa using hescape), stop]
    change max (i + 1) (str.length + lacking (str.drop (i + 1))) = _
    rw [lacking]
    omega

end Position

/-! ### Runs of the decoder -/

section Runs

variable {str : List UInt8} {d : Decoder}

theorem decodeStep_of_le (h : str.length ≤ d.i.toNat) : decodeStep str d = .returned d.ret := by
  rw [decodeStep, if_neg (not_lt.mpr h)]

/-- A round reads nothing past the end, and goes to the next place, modulo 2^32. -/
theorem decodeStep_of_lt (h : d.i.toNat < str.length) :
    ∃ d', decodeStep str d = .next d' ∧ d'.i.toNat = next str d.i.toNat % 2 ^ 32 := by
  have hone : (d.i + 1).toNat = (d.i.toNat + 1) % 2 ^ 32 := UInt32.toNat_add d.i 1
  rw [decodeStep, if_pos h, next, List.getElem?_eq_getElem h]
  by_cases hescape : str[d.i.toNat] = 37
  · have hsubstr : substr str (d.i + 1).toNat 2 =
        some ((str.drop (d.i + 1).toNat).take 2) := if_pos (by omega)
    simp only [if_pos hescape, hsubstr]
    refine ⟨_, rfl, ?_⟩
    simp only [Option.some.injEq, if_pos hescape, UInt32.toNat_add, UInt32.reduceToNat]
    omega
  · simp only [if_neg hescape, Option.some.injEq]
    exact ⟨_, rfl, hone⟩

theorem decodeLoop_succ_of_next {d' : Decoder} (h : decodeStep str d = .next d') (fuel : Nat) :
    decodeLoop str (fuel + 1) d = decodeLoop str fuel d' := by
  rw [decodeLoop, h]

/-- Where the counter does not wrap, the decoder ends. -/
theorem exists_decodeLoop (h : stop str d.i.toNat < 2 ^ 32) :
    ∃ fuel ret, decodeLoop str fuel d = some ret := by
  induction hn : str.length - d.i.toNat using Nat.strong_induction_on generalizing d with
  | _ n ih =>
      rcases Nat.lt_or_ge d.i.toNat str.length with hlt | hge
      · obtain ⟨d', hstep, hi⟩ := decodeStep_of_lt hlt
        have hstop := stop_next hlt
        have hnext : next str d.i.toNat < 2 ^ 32 := by
          have hle : next str d.i.toNat ≤ stop str (next str d.i.toNat) := le_max_left _ _
          omega
        rw [Nat.mod_eq_of_lt hnext] at hi
        have hmore : d.i.toNat < next str d.i.toNat := by
          rw [next]
          split <;> omega
        obtain ⟨fuel, ret, hrun⟩ := ih (str.length - d'.i.toNat) (by omega) (by rw [hi]; omega) rfl
        exact ⟨fuel + 1, ret, by rw [decodeLoop_succ_of_next hstep, hrun]⟩
      · exact ⟨1, d.ret, by rw [decodeLoop, decodeStep_of_le hge]⟩

/-- Where the counter wraps, the decoder comes to one of the first two places. -/
theorem exists_wrapped (hlength : str.length < 2 ^ 32) (hlt : d.i.toNat < str.length)
    (h : 2 ^ 32 ≤ stop str d.i.toNat) :
    ∃ m d', d'.i.toNat + 2 ^ 32 = stop str d.i.toNat ∧
      ∀ fuel, decodeLoop str (fuel + m) d = decodeLoop str fuel d' := by
  induction hn : str.length - d.i.toNat using Nat.strong_induction_on generalizing d with
  | _ n ih =>
      obtain ⟨d', hstep, hi⟩ := decodeStep_of_lt hlt
      have hstop := stop_next hlt
      have hmore : d.i.toNat < next str d.i.toNat ∧ next str d.i.toNat ≤ d.i.toNat + 3 := by
        rw [next]
        split <;> omega
      rcases Nat.lt_or_ge (next str d.i.toNat) (2 ^ 32) with hsmall | hwrap
      · rw [Nat.mod_eq_of_lt hsmall] at hi
        have hlt' : d'.i.toNat < str.length := by
          by_contra hge
          rw [stop_of_le (by omega)] at hstop
          omega
        obtain ⟨m, d'', hd'', hrun⟩ := ih (str.length - d'.i.toNat) (by omega) hlt'
          (by rw [hi]; omega) rfl
        refine ⟨m + 1, d'', by rw [hd'', hi, hstop], fun fuel => ?_⟩
        rw [← Nat.add_assoc, decodeLoop_succ_of_next hstep, hrun]
      · rw [stop_of_le (by omega)] at hstop
        refine ⟨1, d', by omega, fun fuel => decodeLoop_succ_of_next hstep fuel⟩

/-- Among places inside the text that lead to each other the decoder goes on for ever. -/
theorem decodeLoop_eq_none {P : Nat → Prop} (hin : ∀ i, P i → i < str.length)
    (hnext : ∀ i, P i → P (next str i % 2 ^ 32)) (hd : P d.i.toNat) (fuel : Nat) :
    decodeLoop str fuel d = none := by
  induction fuel generalizing d with
  | zero => rfl
  | succ fuel ih =>
      obtain ⟨d', hstep, hi⟩ := decodeStep_of_lt (hin _ hd)
      rw [decodeLoop_succ_of_next hstep]
      exact ih (by rw [hi]; exact hnext _ hd)

end Runs

/-! ### What is decoded -/

/-- The counter reaches the end of the text before it wraps, or skips the end once and reaches it
when it comes by again. -/
def Ends (t : List UInt8) : Prop :=
  t.length + lacking t < 2 ^ 32 ∨
    t.length + lacking t = 2 ^ 32 + 1 ∧ t.length + lacking t.tail < 2 ^ 32

instance (t : List UInt8) : Decidable (Ends t) := inferInstanceAs (Decidable (_ ∨ _ ∧ _))

theorem not_decodes_of_length {str : List UInt8} (h : 2 ^ 32 ≤ str.length) (ii : UInt32)
    (ret : List UInt8) : ¬Decodes ii str ret := by
  rintro ⟨fuel, hrun⟩
  rw [decodeLoop_eq_none (P := (· < 2 ^ 32)) (fun i hi => lt_of_lt_of_le hi h)
    (fun i _ => Nat.mod_lt _ (by norm_num)) (UInt32.toNat_lt 0)] at hrun
  cases hrun

/-- The decoder ends on exactly these texts. -/
theorem exists_decodes_iff (ii : UInt32) (t : List UInt8) :
    (∃ ret, Decodes ii t ret) ↔ Ends t := by
  rcases Nat.lt_or_ge t.length (2 ^ 32) with hlength | hlong
  · rcases t.length.eq_zero_or_pos with hzero | hpos
    · obtain rfl := List.length_eq_zero_iff.mp hzero
      exact iff_of_true ⟨[], 1, rfl⟩ (.inl (by decide))
    · have hstart : stop t 0 = t.length + lacking t := stop_of_lt hpos
      have hle := stop_le 0 hpos.le
      constructor
      · rintro ⟨ret, fuel, hrun⟩
        by_contra hends
        rw [Ends, not_or, not_and] at hends
        have hwrap : 2 ^ 32 ≤ stop t 0 := by omega
        have hfirst : stop t 0 = 2 ^ 32 + 1 → 1 < t.length ∧ 2 ^ 32 ≤ stop t 1 := by
          intro h
          have hone : 1 < t.length := by omega
          have htail : stop t 1 = t.length + lacking t.tail := by
            rw [stop_of_lt hone, List.drop_one]
          exact ⟨hone, by have := hends.2 (by omega); omega⟩
        -- the places from which the counter wraps to the first one, or to one of the first two
        have hnone := decodeLoop_eq_none (d := { i := 0, ii, ret := [] })
          (P := fun i => i < t.length ∧ 2 ^ 32 ≤ stop t i ∧
            (stop t 0 = 2 ^ 32 → stop t i = 2 ^ 32)) (fun i hi => hi.1) ?_ ⟨hpos, hwrap, id⟩ fuel
        · rw [hnone] at hrun
          cases hrun
        · rintro i ⟨hi, hstop, honly⟩
          have hsame := stop_next hi
          have hmore : next t i ≤ i + 3 := by
            rw [next]
            split <;> omega
          rcases Nat.lt_or_ge (next t i) (2 ^ 32) with hsmall | hbig
          · rw [Nat.mod_eq_of_lt hsmall, hsame]
            refine ⟨?_, hstop, honly⟩
            by_contra hge
            rw [stop_of_le (by omega)] at hsame
            omega
          · rw [stop_of_le (by omega)] at hsame
            rcases Nat.eq_or_lt_of_le hbig with heq | hlt
            · rw [← heq, Nat.mod_self]
              exact ⟨hpos, hwrap, id⟩
            · have htwo : next t i = 2 ^ 32 + 1 := by omega
              have hzero : stop t 0 = 2 ^ 32 + 1 := by
                by_contra hne
                have := honly (by omega)
                omega
              rw [htwo, Nat.add_mod_left, Nat.mod_eq_of_lt (by norm_num)]
              exact ⟨(hfirst hzero).1, (hfirst hzero).2, fun h => by omega⟩
      · rintro (hsmall | ⟨hskip, hagain⟩)
        · obtain ⟨fuel, ret, hrun⟩ := exists_decodeLoop
            (d := { i := 0, ii, ret := [] }) (show stop t 0 < 2 ^ 32 by omega)
          exact ⟨ret, fuel, hrun⟩
        · obtain ⟨m, d, hd, hrun⟩ := exists_wrapped (d := { i := 0, ii, ret := [] })
            hlength hpos (show 2 ^ 32 ≤ stop t 0 by omega)
          have hi : d.i.toNat = 1 := by
            change d.i.toNat + 2 ^ 32 = stop t 0 at hd
            omega
          have hone : 1 < t.length := by
            by_contra hge
            have := lackingAfter_le (k := 0) (by omega) t
            change lacking t ≤ 2 at this
            omega
          obtain ⟨fuel, ret, hrun'⟩ := exists_decodeLoop (d := d)
            (show stop t d.i.toNat < 2 ^ 32 by
              rw [hi, stop_of_lt hone, List.drop_one]
              exact hagain)
          exact ⟨ret, fuel + m, by rw [hrun, hrun']⟩
  · refine iff_of_false (fun ⟨ret, h⟩ => not_decodes_of_length hlong ii ret h) ?_
    rw [Ends]
    omega

theorem isPlain_ne {c : UInt8} (h : isPlain c) : c ≠ 37 ∧ c ≠ 43 := by
  constructor <;> rintro rfl <;> exact absurd h (by decide)

/-- The digits of a byte are read as the byte. -/
theorem sscanf_hexDigit (c : UInt8) :
    (sscanf [hexDigit (c / 16), hexDigit (c % 16)]).map UInt32.toUInt8 = some c := by
  obtain ⟨n, hn, rfl⟩ : ∃ n < 256, c = UInt8.ofNat n := ⟨c.toNat, c.toNat_lt, by simp⟩
  interval_cases n <;> decide

section RoundTrip

variable {str rest : List UInt8} {d : Decoder} {c : UInt8}

theorem lt_of_drop (h : str.drop d.i.toNat = c :: rest) : d.i.toNat < str.length := by
  by_contra hge
  rw [List.drop_eq_nil_of_le (not_lt.mp hge)] at h
  cases h

theorem decodeStep_plain (h : str.drop d.i.toNat = c :: rest) (hc : isPlain c) :
    decodeStep str d = .next { d with i := d.i + 1, ret := d.ret ++ [c] } := by
  have hget : str[d.i.toNat]? = some c := by
    rw [← List.head?_drop, h]
    rfl
  rw [decodeStep, if_pos (lt_of_drop h), hget]
  simp only [if_neg (isPlain_ne hc).1, if_neg (isPlain_ne hc).2]

theorem decodeStep_escape
    (h : str.drop d.i.toNat = 37 :: hexDigit (c / 16) :: hexDigit (c % 16) :: rest)
    (hi : (d.i + 1).toNat = d.i.toNat + 1) :
    ∃ ii, decodeStep str d = .next { i := d.i + 2 + 1, ii, ret := d.ret ++ [c] } := by
  have hget : str[d.i.toNat]? = some 37 := by
    rw [← List.head?_drop, h]
    rfl
  have hlt := lt_of_drop h
  have hsubstr : substr str (d.i + 1).toNat 2 = some [hexDigit (c / 16), hexDigit (c % 16)] := by
    rw [substr, hi, if_pos (Nat.succ_le_of_lt hlt), ← List.drop_drop, h]
    rfl
  obtain ⟨ii, hscan, hbyte⟩ := Option.map_eq_some_iff.mp (sscanf_hexDigit c)
  refine ⟨ii, ?_⟩
  rw [decodeStep, if_pos hlt, hget]
  simp only [hsubstr, hscan, Option.getD_some, hbyte, if_true]

/-- Encoded bytes are decoded one after the other. -/
theorem decodeLoop_urlEncode {s : List UInt8} (hlength : str.length < 2 ^ 32)
    (hd : str.drop d.i.toNat = urlEncode s) :
    ∃ fuel, decodeLoop str fuel d = some (d.ret ++ s) := by
  induction s generalizing d with
  | nil =>
      refine ⟨1, ?_⟩
      rw [decodeLoop, decodeStep_of_le (List.drop_eq_nil_iff.mp hd), List.append_nil]
  | cons c s ih =>
      have hone : (d.i + 1).toNat = (d.i.toNat + 1) % 2 ^ 32 := UInt32.toNat_add d.i 1
      rw [urlEncode, List.flatMap_cons] at hd
      by_cases hc : isPlain c
      · rw [if_pos hc, List.singleton_append] at hd
        have hlt := lt_of_drop hd
        obtain ⟨fuel, hrun⟩ := ih (d := { d with i := d.i + 1, ret := d.ret ++ [c] }) (by
          change str.drop (d.i + 1).toNat = _
          rw [hone, Nat.mod_eq_of_lt (by omega), ← List.drop_drop, hd]
          rfl)
        refine ⟨fuel + 1, ?_⟩
        rw [decodeLoop_succ_of_next (decodeStep_plain hd hc), hrun, List.append_assoc,
          List.singleton_append]
      · rw [if_neg hc, List.cons_append, List.cons_append, List.cons_append, List.nil_append] at hd
        have hlt := lt_of_drop hd
        have hthree : d.i.toNat + 3 ≤ str.length := by
          have h := congrArg List.length hd
          simp only [List.length_drop, List.length_cons] at h
          omega
        obtain ⟨ii, hstep⟩ := decodeStep_escape hd (by omega)
        obtain ⟨fuel, hrun⟩ := ih (d := { i := d.i + 2 + 1, ii, ret := d.ret ++ [c] }) (by
          have hi : (d.i + 2 + 1).toNat = d.i.toNat + 3 := by
            simp only [UInt32.toNat_add, UInt32.reduceToNat]
            omega
          change str.drop (d.i + 2 + 1).toNat = _
          rw [hi, ← List.drop_drop, hd]
          rfl)
        refine ⟨fuel + 1, ?_⟩
        rw [decodeLoop_succ_of_next hstep, hrun, List.append_assoc, List.singleton_append]

end RoundTrip

/-- The texts on which the decoder ends, and those that it gives back. -/
theorem urlDecode_iff (ii : UInt32) (s t : List UInt8) :
    (Decodes ii (urlEncode s) s ↔ (urlEncode s).length < 2 ^ 32) ∧
      ((∃ ret, Decodes ii t ret) ↔ Ends t) := by
  refine ⟨⟨fun h => ?_, fun h => ?_⟩, exists_decodes_iff ii t⟩
  · by_contra hlong
    exact not_decodes_of_length (not_lt.mp hlong) ii s h
  · obtain ⟨fuel, hrun⟩ := decodeLoop_urlEncode (d := { i := 0, ii, ret := [] }) h rfl
    exact ⟨fuel, hrun⟩

/-- A text of 2^32 letters is never decoded, neither to itself nor to anything. -/
theorem urlDecode_long :
    ¬Decodes 0 (urlEncode (List.replicate (2 ^ 32) 97)) (List.replicate (2 ^ 32) 97) ∧
      ¬∃ ret, Decodes 0 (List.replicate (2 ^ 32) 97) ret := by
  have hlength : (List.replicate (2 ^ 32) (97 : UInt8)).length = 2 ^ 32 := List.length_replicate
  have hencode : urlEncode (List.replicate (2 ^ 32) 97) = List.replicate (2 ^ 32) 97 := by
    generalize 2 ^ 32 = n
    induction n with
    | zero => rfl
    | succ n ih =>
        rw [List.replicate_succ, urlEncode, List.flatMap_cons]
        exact congrArg (97 :: ·) ih
  rw [hencode]
  exact ⟨not_decodes_of_length hlength.ge 0 _, fun ⟨ret, h⟩ =>
    not_decodes_of_length hlength.ge 0 ret h⟩

end Iceee.Util.Url
