import Iceee.Lib.Double
import Iceee.Lib.Text

/-!
# Floating-point numbers printed with `%g`

`%g` prints six significant digits, without zeros at the end of the fraction, and an exponent from
10^6 on and below 10^-4. `atof` reads the longest number at the front of a text.

## Main results

* `format_intCast`: whole numbers below 10^6 are printed as integers.
* `atof_printInt`: an integer is read as the number nearest to it.
-/

namespace Iceee.Lib.Double

/-! ### Printing -/

/-- Six significant digits, as a number, and the exponent of the first. -/
def significant (q : ℚ) : Nat × ℤ :=
  let x := Int.log 10 |q|
  let m := (roundEven (|q| / 10 ^ (x - 5))).toNat
  if m = 10 ^ 6 then (10 ^ 5, x + 1) else (m, x)

/-- The digits in front of the point and, without zeros at the end, those behind it. -/
def pointed (whole fraction : Text) : Text :=
  let stripped := fraction.rdropWhile (· == '0')
  if stripped = [] then whole else whole ++ '.' :: stripped

/-- The exponent has two digits at least. -/
def printExponent (x : ℤ) : Text :=
  'e' :: (if x < 0 then '-' else '+') ::
    (if x.natAbs < 10 then '0' :: printNat x.natAbs else printNat x.natAbs)

/-- `%g` of the absolute value. -/
def formatAbs (q : ℚ) : Text :=
  let digits := printNat (significant q).1
  let x := (significant q).2
  if x < -4 ∨ 6 ≤ x then pointed (digits.take 1) (digits.drop 1) ++ printExponent x
  else if x < 0 then pointed ['0'] (List.replicate (x.natAbs - 1) '0' ++ digits)
  else pointed (digits.take (x.toNat + 1)) (digits.drop (x.toNat + 1))

/-- `%g`. -/
def format : Double → Text
  | finite q =>
      if q = 0 then ['0'] else if q < 0 then '-' :: formatAbs q else formatAbs q
  | infinite s => if s then "-inf".toList else "inf".toList
  | nan => "nan".toList

/-! ### Reading -/

/-- The exponent behind the digits, if there is one. -/
def readExponent : Text → ℤ
  | e :: sign :: t =>
      if e = 'e' ∨ e = 'E' then
        if sign = '-' then -(parseNat t : ℤ)
        else if sign = '+' then parseNat t
        else parseNat (sign :: t)
      else 0
  | _ => 0

/-- Digits with a point and an exponent. -/
def readDecimal (t : Text) : ℚ :=
  let whole := t.takeWhile Char.isDigit
  match t.dropWhile Char.isDigit with
  | '.' :: rest =>
      let fraction := rest.takeWhile Char.isDigit
      (parseNat (whole ++ fraction) : ℚ) / 10 ^ fraction.length *
        10 ^ readExponent (rest.dropWhile Char.isDigit)
  | rest => (parseNat whole : ℚ) * 10 ^ readExponent rest

/-- What follows a sign. -/
def readUnsigned (negative : Bool) (t : Text) : Double :=
  let lower := (t.take 3).map Char.toLower
  if lower = "inf".toList then infinite negative
  else if lower = "nan".toList then nan
  else ofRat (if negative then -readDecimal t else readDecimal t)

/-- `atof`, of decimal numbers. -/
def atof (t : Text) : Double :=
  match t.dropWhile Char.isWhitespace with
  | '-' :: rest => readUnsigned true rest
  | '+' :: rest => readUnsigned false rest
  | rest => readUnsigned false rest

/-! ### Digits -/

theorem toLower_of_isDigit {c : Char} (hc : c.isDigit) : c.toLower = c := by
  rw [Char.toLower, dif_neg]
  rintro ⟨h, -⟩
  simp only [Char.isDigit, Bool.and_eq_true, decide_eq_true_eq] at hc
  have hle := hc.2
  rw [UInt32.le_iff_toNat_le] at hle
  rw [ge_iff_le, UInt32.le_iff_toNat_le] at h
  exact absurd (Nat.le_trans h hle) (by decide)

theorem ne_of_isDigit {c d : Char} (hc : c.isDigit) (hd : d.isDigit = false) : c ≠ d := by
  rintro rfl
  rw [hc] at hd
  cases hd

/-- A text that begins with a digit is a decimal number. -/
theorem readUnsigned_digit {t : Text} {c : Char} (hc : c.isDigit) (negative : Bool) :
    readUnsigned negative (c :: t) =
      ofRat (if negative then -readDecimal (c :: t) else readDecimal (c :: t)) := by
  have hne {word : Text} {d : Char} (hd : d.isDigit = false) :
      ((c :: t).take 3).map Char.toLower ≠ d :: word := by
    rw [List.take_succ_cons, List.map_cons, toLower_of_isDigit hc]
    exact fun h => ne_of_isDigit hc hd (List.cons.inj h).1
  have hinf : ((c :: t).take 3).map Char.toLower ≠ "inf".toList := @hne ['n', 'f'] 'i' (by decide)
  have hnan : ((c :: t).take 3).map Char.toLower ≠ "nan".toList := @hne ['a', 'n'] 'n' (by decide)
  rw [readUnsigned]
  exact (if_neg hinf).trans (if_neg hnan)

theorem atof_digit {t : Text} {c : Char} (hc : c.isDigit) :
    atof (c :: t) = ofRat (readDecimal (c :: t)) := by
  have hdrop : (c :: t).dropWhile Char.isWhitespace = c :: t :=
    List.dropWhile_cons_of_neg (by simp [not_isWhitespace_of_isDigit hc])
  rw [atof, hdrop]
  split
  · next h => exact absurd (List.cons.inj h).1 (ne_of_isDigit hc (by decide))
  · next h => exact absurd (List.cons.inj h).1 (ne_of_isDigit hc (by decide))
  · exact readUnsigned_digit hc false

theorem atof_minus_digit {t : Text} {c : Char} (hc : c.isDigit) :
    atof ('-' :: c :: t) = ofRat (-readDecimal (c :: t)) := by
  have hdrop : ('-' :: c :: t).dropWhile Char.isWhitespace = '-' :: c :: t :=
    List.dropWhile_cons_of_neg (by decide)
  rw [atof, hdrop]
  exact readUnsigned_digit hc true

theorem readDecimal_digits {d : Text} (hd : ∀ c ∈ d, c.isDigit) : readDecimal d = parseNat d := by
  have htake : d.takeWhile Char.isDigit = d := List.takeWhile_eq_self_iff.mpr hd
  have hdrop : d.dropWhile Char.isDigit = [] := List.dropWhile_eq_nil_iff.mpr hd
  rw [readDecimal, htake, hdrop]
  simp [readExponent]

/-- A literal. -/
theorem atof_digits {d : Text} (hne : d ≠ []) (hd : ∀ c ∈ d, c.isDigit) :
    atof d = ofInt (parseNat d) ∧ atof ('-' :: d) = ofInt (-parseNat d) := by
  cases d with
  | nil => exact absurd rfl hne
  | cons c t =>
      have hc := hd c List.mem_cons_self
      rw [atof_digit hc, atof_minus_digit hc, readDecimal_digits hd, ofInt, ofInt]
      push_cast
      exact ⟨rfl, rfl⟩

/-! ### Whole numbers -/

theorem printNat_mul_pow {a : Nat} (ha : 0 < a) (k : Nat) :
    printNat (a * 10 ^ k) = printNat a ++ List.replicate k '0' := by
  induction k with
  | zero => simp
  | succ k ih =>
      have hpos : 0 < a * 10 ^ k := Nat.mul_pos ha (by positivity)
      have hstep := @Nat.toDigits_append_toDigits 10 (a * 10 ^ k) 0 (by decide) hpos (by decide)
      calc printNat (a * 10 ^ (k + 1))
          = Nat.toDigits 10 (10 * (a * 10 ^ k) + 0) := by
            rw [printNat, pow_succ]
            congr 1
            ring
        _ = printNat (a * 10 ^ k) ++ ['0'] := hstep.symm
        _ = printNat a ++ List.replicate (k + 1) '0' := by
            rw [ih, List.append_assoc, List.replicate_succ']

theorem length_printNat {a : Nat} : (printNat a).length = Nat.log 10 a + 1 := by
  have hle : (printNat a).length ≤ Nat.log 10 a + 1 :=
    (Nat.length_toDigits_le_iff (by decide) (Nat.succ_pos _)).mpr
      (Nat.lt_pow_succ_log_self (by decide) a)
  have hpos : 0 < (printNat a).length := List.length_pos_of_ne_nil (printNat_ne_nil a)
  rcases Nat.eq_zero_or_pos (Nat.log 10 a) with hzero | hlog
  · omega
  · have ha : a ≠ 0 := fun h => by simp [h] at hlog
    have hgt : ¬(printNat a).length ≤ Nat.log 10 a := fun h =>
      absurd ((Nat.length_toDigits_le_iff (by decide) hlog).mp h)
        (not_lt.mpr (Nat.pow_log_le_self 10 ha))
    omega

/-- The significant digits of a whole number that has no more than six. -/
theorem significant_natCast {a m : Nat} (h : a * 10 ^ 5 = m * 10 ^ Nat.log 10 a) :
    significant a = (m, (Nat.log 10 a : ℤ)) := by
  have hlog : Int.log 10 |(a : ℚ)| = Nat.log 10 a := by
    rw [abs_of_nonneg (Nat.cast_nonneg a)]
    exact Int.log_natCast 10 a
  have hscaled : |(a : ℚ)| / 10 ^ ((Nat.log 10 a : ℤ) - 5) = ((m : ℤ) : ℚ) := by
    have hcast : (a : ℚ) * 10 ^ 5 = m * 10 ^ Nat.log 10 a := by exact_mod_cast h
    rw [abs_of_nonneg (Nat.cast_nonneg a), zpow_sub₀ (by norm_num), zpow_natCast]
    field_simp
    push_cast
    linarith
  have hlt : m < 10 ^ 6 := by
    have hpow := Nat.lt_pow_succ_log_self (by decide : 1 < 10) a
    by_contra hge
    have hle : 10 ^ 6 * 10 ^ Nat.log 10 a ≤ m * 10 ^ Nat.log 10 a :=
      Nat.mul_le_mul_right _ (not_lt.mp hge)
    rw [← h, Nat.pow_succ] at *
    omega
  rw [significant]
  simp only [hlog, hscaled, roundEven_intCast, Int.toNat_natCast]
  rw [if_neg (Nat.ne_of_lt hlt)]

theorem rdropWhile_replicate (k : Nat) : (List.replicate k '0').rdropWhile (· == '0') = [] := by
  induction k with
  | zero => rfl
  | succ k ih => rw [List.replicate_succ', List.rdropWhile_concat_pos _ _ _ (by rfl), ih]

/-- Whole numbers below 10^6 have all their digits printed, and no point. -/
theorem formatAbs_natCast {a : Nat} (ha : 0 < a) (hlt : a < 10 ^ 6) :
    formatAbs a = printNat a := by
  set l := Nat.log 10 a with hl
  have hle : l ≤ 5 := by
    have := Nat.log_lt_of_lt_pow (Nat.pos_iff_ne_zero.mp ha) hlt
    omega
  have hsplit : 5 = (5 - l) + l := by omega
  have hsig : significant a = (a * 10 ^ (5 - l), (l : ℤ)) := by
    refine significant_natCast ?_
    rw [mul_assoc, ← pow_add, ← hl]
    congr 2
  have hdigits := printNat_mul_pow ha (5 - l)
  have hlength : (printNat a).length = l + 1 := length_printNat
  have hfixed : ¬((l : ℤ) < -4 ∨ 6 ≤ (l : ℤ)) := by omega
  have hwhole : ¬((l : ℤ) < 0) := by omega
  rw [formatAbs, hsig]
  simp only [if_neg hfixed, if_neg hwhole, Int.toNat_natCast, hdigits]
  rw [← hlength, List.take_left, List.drop_left, pointed, rdropWhile_replicate]
  rfl

/-- The sign of a printed integer. -/
def minus (n : ℤ) : Text := if n < 0 then ['-'] else []

theorem printInt_eq (n : ℤ) : printInt n = minus n ++ printNat n.natAbs := by
  cases n with
  | ofNat a => rfl
  | negSucc a =>
      rw [minus, if_pos (Int.negSucc_lt_zero a)]
      rfl

theorem format_eq {n : ℤ} (hn : n ≠ 0) :
    format (finite n) = minus n ++ formatAbs (n.natAbs : ℚ) := by
  have hne : (n : ℚ) ≠ 0 := Int.cast_ne_zero.mpr hn
  have habs : formatAbs (n : ℚ) = formatAbs (n.natAbs : ℚ) := by
    rw [Nat.cast_natAbs, Int.cast_abs, formatAbs, formatAbs, significant, significant, abs_abs]
  rw [format, if_neg hne, minus, habs]
  by_cases hneg : n < 0
  · rw [if_pos hneg, if_pos (Int.cast_lt_zero.mpr hneg)]
    rfl
  · rw [if_neg hneg, if_neg (fun h => hneg (Int.cast_lt_zero.mp h))]
    rfl

/-- `%g` prints whole numbers below 10^6 as integers. -/
theorem format_intCast {n : ℤ} (h : |n| < 10 ^ 6) : format (finite n) = printInt n := by
  rcases eq_or_ne n 0 with rfl | hn
  · rfl
  · have habs : (n.natAbs : ℤ) = |n| := Int.natCast_natAbs n
    rw [format_eq hn, printInt_eq,
      formatAbs_natCast (Int.natAbs_pos.mpr hn) (by omega)]

theorem atof_printInt (n : ℤ) : atof (printInt n) = ofInt n := by
  obtain ⟨hplain, hminus⟩ := atof_digits (printNat_ne_nil n.natAbs)
    fun c hc => isDigit_of_mem_printNat hc
  rw [parseNat_printNat] at hplain hminus
  rw [printInt_eq, minus]
  by_cases hneg : n < 0
  · rw [if_pos hneg, List.singleton_append, hminus]
    congr 1
    omega
  · rw [if_neg hneg, List.nil_append, hplain]
    congr 1
    omega

end Iceee.Lib.Double
