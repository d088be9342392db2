import Iceee.Lib.Text

/-!
# Dates as texts

`FormatDate` prints day, month and year of a local time, with the month counted from 1 and the year
in full. `ParseDate` scans three numbers into a `struct tm`, where months count from 0 and years
from 1900, and leaves the other fields as it finds them.

## Implementation notes

The local clock is a parameter; what stands in the fields that nothing sets is another.
-/

namespace Iceee

open Lib

/-- The fields of a `struct tm` that `localtime` sets and `mktime` reads. -/
structure Tm where
  mday : Int := 1
  mon : Int := 0
  year : Int := 70
  hour : Int := 0
  min : Int := 0
  sec : Int := 0
  isdst : Int := 0
  deriving DecidableEq, Repr

/-- `localtime` and `mktime`. -/
structure Clock where
  localtime : Int → Tm
  mktime : Tm → Int
  mday_range : ∀ t, 1 ≤ (localtime t).mday ∧ (localtime t).mday ≤ 31
  mon_range : ∀ t, 0 ≤ (localtime t).mon ∧ (localtime t).mon ≤ 11

namespace Util

/-- `%d` and `%m` of `strftime`: two digits. -/
def twoDigits (n : Nat) : Text := [Nat.digitChar (n / 10), Nat.digitChar (n % 10)]

/-- `FormatDate`: `%d/%m/%Y` of the local time. -/
def formatDate (clock : Clock) (time : Int) : Text :=
  let timeinfo := clock.localtime time
  twoDigits timeinfo.mday.toNat ++ '/' :: (twoDigits (timeinfo.mon + 1).toNat ++
    '/' :: printInt (timeinfo.year + 1900))

/-- At least one digit, and at most `width` of them. -/
def scanDigits (width : Nat) (t : Text) : Option (Nat × Text) :=
  let digits := (t.take width).takeWhile Char.isDigit
  if digits.isEmpty then none else some (Nat.ofDigitChars 10 digits 0, t.drop digits.length)

/-- A `%d` of `sscanf` with a width; the sign counts. -/
def scanInt (width : Nat) (t : Text) : Option (Int × Text) :=
  match t.dropWhile Char.isWhitespace with
  | '-' :: t => (scanDigits (width - 1) t).map fun r => (-r.1, r.2)
  | '+' :: t => (scanDigits (width - 1) t).map fun r => (r.1, r.2)
  | t => (scanDigits width t).map fun r => (r.1, r.2)

/-- A slash in the format of `sscanf`. -/
def scanSlash : Text → Option Text
  | '/' :: t => some t
  | _ => none

/-- `%2d/%2d/%4d`. -/
def scanDate (str : Text) : Option (Int × Int × Int) :=
  (scanInt 2 str).bind fun mday =>
    (scanSlash mday.2).bind fun t =>
      (scanInt 2 t).bind fun mon =>
        (scanSlash mon.2).bind fun t =>
          (scanInt 4 t).map fun year => (mday.1, mon.1, year.1)

/-- `ParseDate`: the numbers go into the fields as they are. A text that is no date changes
nothing. -/
def parseDate (clock : Clock) (ptime : Tm) (str : Text) (time : Int) : Int :=
  match scanDate str with
  | some (mday, mon, year) => clock.mktime { ptime with mday := mday, mon := mon, year := year }
  | none => time

/-! ### What is scanned of a date -/

/-- What `%4d` reads of a year: its first four characters. -/
def scanYear (year : Int) : Int := ((scanInt 4 (printInt year)).map Prod.fst).getD 0

/-- The broken-down time that `ParseDate` makes of a formatted one. -/
def reparsed (clock : Clock) (ptime : Tm) (time : Int) : Tm :=
  { ptime with
    mday := (clock.localtime time).mday
    mon := (clock.localtime time).mon + 1
    year := scanYear ((clock.localtime time).year + 1900) }

/-- Two digits before a slash are scanned as their number. -/
theorem scanInt_twoDigits {n : Nat} (h : n < 100) (rest : Text) :
    scanInt 2 (twoDigits n ++ '/' :: rest) = some ((n : Int), '/' :: rest) := by
  interval_cases n <;> rfl

theorem scanDigits_printNat {width : Nat} (h : 0 < width) (n : Nat) :
    ∃ r, scanDigits width (printNat n) = some r := by
  cases hp : printNat n with
  | nil => exact absurd hp (printNat_ne_nil n)
  | cons c t =>
      have hc : c.isDigit := isDigit_of_mem_printNat (by rw [hp]; exact List.mem_cons_self)
      obtain ⟨w, rfl⟩ := Nat.exists_eq_succ_of_ne_zero h.ne'
      simp [scanDigits, hc]

/-- A number that is printed is scanned with its sign. -/
theorem scanInt_printInt (width : Nat) (i : Int) :
    scanInt width (printInt i) =
      if i < 0 then (scanDigits (width - 1) (printNat i.natAbs)).map fun r => (-(r.1 : Int), r.2)
      else (scanDigits width (printNat i.natAbs)).map fun r => ((r.1 : Int), r.2) := by
  cases i with
  | negSucc n =>
      rw [if_pos (Int.negSucc_lt_zero n)]
      rfl
  | ofNat n =>
      rw [if_neg (by simp)]
      cases hp : printNat n with
      | nil => exact absurd hp (printNat_ne_nil n)
      | cons c t =>
          have hc : c.isDigit := isDigit_of_mem_printNat (by rw [hp]; exact List.mem_cons_self)
          have hdrop : (printInt (.ofNat n)).dropWhile Char.isWhitespace = c :: t := by
            rw [printInt, hp,
              List.dropWhile_cons_of_neg (by simp [not_isWhitespace_of_isDigit hc])]
          unfold scanInt
          rw [hdrop]
          have habs : (Int.ofNat n).natAbs = n := rfl
          rw [habs, hp]
          split
          · rename_i heq
            obtain ⟨rfl, -⟩ := List.cons.inj heq
            exact absurd hc (by decide)
          · rename_i heq
            obtain ⟨rfl, -⟩ := List.cons.inj heq
            exact absurd hc (by decide)
          · rfl

/-- Some year is always scanned. -/
theorem scanInt_year (year : Int) :
    ∃ rest, scanInt 4 (printInt year) = some (scanYear year, rest) := by
  have hsome : ∃ r, scanInt 4 (printInt year) = some r := by
    rw [scanInt_printInt]
    split
    · obtain ⟨r, hr⟩ := @scanDigits_printNat (4 - 1) (by norm_num) year.natAbs
      exact ⟨_, by rw [hr]; rfl⟩
    · obtain ⟨r, hr⟩ := @scanDigits_printNat 4 (by norm_num) year.natAbs
      exact ⟨_, by rw [hr]; rfl⟩
  obtain ⟨r, hr⟩ := hsome
  refine ⟨r.2, ?_⟩
  unfold scanYear
  rw [hr]
  rfl

/-- Of a year in full the first four digits are read. -/
theorem scanYear_natCast (n : Nat) :
    scanYear n = Nat.ofDigitChars 10 ((printNat n).take 4) 0 := by
  have hdigits : ((printNat n).take 4).takeWhile Char.isDigit = (printNat n).take 4 :=
    List.takeWhile_eq_self_iff.mpr fun _ hc => isDigit_of_mem_printNat (List.mem_of_mem_take hc)
  have hne : ((printNat n).take 4).isEmpty = false := by
    simpa using printNat_ne_nil n
  unfold scanYear
  rw [scanInt_printInt, if_neg (by omega), Int.natAbs_natCast]
  unfold scanDigits
  dsimp only
  rw [hdigits, hne]
  rfl

/-- A year of at most four digits is scanned as it is. -/
theorem scanYear_eq {n : Nat} (h : n < 10000) : scanYear n = n := by
  have hlen : (printNat n).length ≤ 4 := Nat.toDigits_length 10 n 4 (by norm_num) (by omega)
  have hvalue : Nat.ofDigitChars 10 (printNat n) 0 = n := Nat.ofDigitChars_ten_toDigits
  rw [scanYear_natCast, List.take_of_length_le hlen, hvalue]

/-- The last digit of a longer year is not scanned. -/
theorem scanYear_div {n : Nat} (h : 10000 ≤ n) : scanYear n = scanYear (n / 10 : Nat) := by
  have hlen : 4 ≤ (printNat (n / 10)).length := by
    by_contra hlt
    have hsmall := (@Nat.length_toDigits_le_iff 10 (n / 10) 3 (by norm_num) (by norm_num)).mp
      (by unfold printNat at hlt; omega)
    omega
  have hprint : printNat n = printNat (n / 10) ++ [Nat.digitChar (n % 10)] :=
    Nat.toDigits_of_base_le (by norm_num) (by omega)
  rw [scanYear_natCast, scanYear_natCast, hprint, List.take_append_of_le_length hlen]

theorem scanYear_le (n : Nat) : scanYear n ≤ 9999 := by
  induction n using Nat.strong_induction_on with
  | _ n ih =>
      rcases Nat.lt_or_ge n 10000 with hlt | hge
      · rw [scanYear_eq hlt]
        omega
      · rw [scanYear_div hge]
        exact ih _ (by omega)

/-- Scanned without taking 1900 off, no year comes out within a few years of where it was. -/
theorem scanYear_late (n : Nat) :
    (n : Int) - 1900 + 3 < scanYear n ∨ scanYear n + 1903 < n := by
  rcases Nat.lt_or_ge n 10000 with hlt | hge
  · rw [scanYear_eq hlt]
    omega
  · right
    rcases Nat.lt_or_ge n 100000 with hlt | hge'
    · rw [scanYear_div hge, scanYear_eq (by omega)]
      omega
    · have hle := scanYear_le n
      omega

/-- What `ParseDate` makes of what `FormatDate` printed. -/
theorem parseDate_formatDate (clock : Clock) (ptime : Tm) (t time : Int) :
    parseDate clock ptime (formatDate clock t) time = clock.mktime (reparsed clock ptime t) := by
  obtain ⟨hdlo, hdhi⟩ := clock.mday_range t
  obtain ⟨hmlo, hmhi⟩ := clock.mon_range t
  obtain ⟨rest, hyear⟩ := scanInt_year ((clock.localtime t).year + 1900)
  have hmday : ((clock.localtime t).mday.toNat : Int) = (clock.localtime t).mday := by omega
  have hmon : (((clock.localtime t).mon + 1).toNat : Int) = (clock.localtime t).mon + 1 := by
    omega
  have hscan : scanDate (formatDate clock t) = some ((clock.localtime t).mday,
      (clock.localtime t).mon + 1, scanYear ((clock.localtime t).year + 1900)) := by
    unfold scanDate formatDate
    dsimp only
    rw [scanInt_twoDigits (by omega), Option.bind_some]
    simp only [scanSlash, Option.bind_some]
    rw [scanInt_twoDigits (by omega)]
    simp only [Option.bind_some, hyear, Option.map_some, hmday, hmon]
  unfold parseDate
  rw [hscan]
  rfl

theorem formatDate_ne_nil (clock : Clock) (t : Int) : formatDate clock t ≠ [] :=
  List.cons_ne_nil _ _

end Util

/-- Whether the time of day is one. -/
structure Tm.OfDay (tm : Tm) : Prop where
  hour : 0 ≤ tm.hour ∧ tm.hour ≤ 23
  min : 0 ≤ tm.min ∧ tm.min ≤ 59
  sec : 0 ≤ tm.sec ∧ tm.sec ≤ 60

/-- What is relied on of a clock: no time from 1970 on is before 1969, and `mktime` carries what
is left over of a day or a month that does not exist, which moves the year by a few at most. -/
structure Clock.Lawful (clock : Clock) : Prop where
  year_localtime : ∀ t, 0 < t → 69 ≤ (clock.localtime t).year
  year_mktime : ∀ tm : Tm, 1 ≤ tm.mday → tm.mday ≤ 31 → 0 ≤ tm.mon → tm.mon ≤ 12 → tm.OfDay →
    tm.year - 3 ≤ (clock.localtime (clock.mktime tm)).year ∧
      (clock.localtime (clock.mktime tm)).year ≤ tm.year + 3

namespace Util

/-- No date from 1970 on comes back: its year is read 1900 years late, or cut to four digits. -/
theorem mktime_reparsed_ne {clock : Clock} (hclock : clock.Lawful) {ptime : Tm}
    (hptime : ptime.OfDay) {t : Int} (ht : 0 < t) : clock.mktime (reparsed clock ptime t) ≠ t := by
  intro heq
  obtain ⟨hdlo, hdhi⟩ := clock.mday_range t
  obtain ⟨hmlo, hmhi⟩ := clock.mon_range t
  have hyear := hclock.year_localtime t ht
  obtain ⟨n, hn⟩ := Int.eq_ofNat_of_zero_le (show 0 ≤ (clock.localtime t).year + 1900 by omega)
  have hlate := scanYear_late n
  have hback := hclock.year_mktime (reparsed clock ptime t) hdlo hdhi
    (show 0 ≤ (clock.localtime t).mon + 1 by omega)
    (show (clock.localtime t).mon + 1 ≤ 12 by omega) ⟨hptime.hour, hptime.min, hptime.sec⟩
  have hscan : (reparsed clock ptime t).year = scanYear n := congrArg scanYear hn
  rw [heq, hscan] at hback
  omega

/-! ### A clock -/

/-- The year of an era of 400 years, counted from March, of a day of the era. -/
def yearOfEra (doe : Int) : Int := (doe - doe / 1460 + doe / 36524 - doe / 146096) / 365

/-- The day of an era on which a year of it starts. -/
def dayOfEra (yoe : Int) : Int := yoe * 365 + yoe / 4 - yoe / 100

/-- The clock of the time zone UTC; days are counted from 1 March of the year 0. -/
def utc : Clock where
  localtime t :=
    let z := t / 86400 + 719468
    let yoe := yearOfEra (z % 146097)
    let doy := z % 146097 - dayOfEra yoe
    let mp := (5 * doy + 2) / 153
    let mon := (mp + 2) % 12
    { mday := doy - (153 * mp + 2) / 5 + 1
      mon := mon
      year := z / 146097 * 400 + yoe + (if mon < 2 then 1 else 0) - 1900
      hour := t % 86400 / 3600
      min := t % 3600 / 60
      sec := t % 60 }
  mktime tm :=
    let mon := tm.mon % 12
    let year := tm.year + 1900 + tm.mon / 12 - (if mon < 2 then 1 else 0)
    let doy := (153 * ((mon + 10) % 12) + 2) / 5 + tm.mday - 1
    (year / 400 * 146097 + dayOfEra (year % 400) + doy - 719468) * 86400 +
      tm.hour * 3600 + tm.min * 60 + tm.sec
  mday_range t := by
    dsimp only
    omega
  mon_range t := by
    dsimp only
    omega

theorem yearOfEra_dayOfEra {yoe doy : Int} (hlo : 0 ≤ yoe) (hhi : yoe < 400) (hdlo : 0 ≤ doy)
    (hdhi : doy ≤ 368) :
    yoe - 1 ≤ yearOfEra (dayOfEra yoe + doy) ∧ yearOfEra (dayOfEra yoe + doy) ≤ yoe + 1 := by
  unfold yearOfEra dayOfEra
  omega

/-- The year of a day, if the day is one of `year` or comes soon after. -/
theorem year_day {year doy z : Int} (hdlo : 0 ≤ doy) (hdhi : doy ≤ 368)
    (hz : z = year / 400 * 146097 + dayOfEra (year % 400) + doy) :
    year - 1 ≤ z / 146097 * 400 + yearOfEra (z % 146097) ∧
      z / 146097 * 400 + yearOfEra (z % 146097) ≤ year + 1 := by
  have hstart : 0 ≤ dayOfEra (year % 400) ∧ dayOfEra (year % 400) ≤ 145731 := by
    unfold dayOfEra
    omega
  rcases lt_or_ge (dayOfEra (year % 400) + doy) 146097 with hin | hout
  · have hera : z / 146097 = year / 400 := by omega
    have hday : z % 146097 = dayOfEra (year % 400) + doy := by omega
    have hyear := @yearOfEra_dayOfEra (year % 400) doy (by omega) (by omega) hdlo hdhi
    rw [hera, hday]
    omega
  · have hera : z / 146097 = year / 400 + 1 := by omega
    have hlast : year % 400 = 399 := by
      unfold dayOfEra at hout
      omega
    have hday : z % 146097 ≤ 2 := by
      rw [hlast] at hz hout
      unfold dayOfEra at hz hout
      omega
    have hyear : yearOfEra (z % 146097) = 0 := by
      unfold yearOfEra
      omega
    omega

theorem utc_lawful : utc.Lawful where
  year_localtime t ht := by
    have hz : 719468 ≤ t / 86400 + 719468 := by omega
    unfold utc
    dsimp only
    generalize t / 86400 + 719468 = z at hz
    unfold yearOfEra
    split <;> omega
  year_mktime tm hdlo hdhi hmlo hmhi h := by
    obtain ⟨hhour, hmin, hsec⟩ := h
    unfold utc
    dsimp only
    generalize hyear : tm.year + 1900 + tm.mon / 12 - (if tm.mon % 12 < 2 then 1 else 0) = year
    generalize hdoy : (153 * ((tm.mon % 12 + 10) % 12) + 2) / 5 + tm.mday - 1 = doy
    have hrange : 0 ≤ doy ∧ doy ≤ 367 := by omega
    generalize hday : year / 400 * 146097 + dayOfEra (year % 400) = day
    generalize hz : ((day + doy - 719468) * 86400 + tm.hour * 3600 + tm.min * 60 + tm.sec) / 86400 +
      719468 = z
    -- the second 60 of the last minute may be one of the next day
    have hnext : z = day + doy ∨ z = day + (doy + 1) := by omega
    have hback : year - 1 ≤ z / 146097 * 400 + yearOfEra (z % 146097) ∧
        z / 146097 * 400 + yearOfEra (z % 146097) ≤ year + 1 := by
      rcases hnext with hsame | hlate
      · exact year_day hrange.1 (by omega) (by rw [hsame, hday])
      · exact year_day (show 0 ≤ doy + 1 by omega) (by omega) (by rw [hlate, hday])
    generalize z / 146097 * 400 + yearOfEra (z % 146097) = back at hback
    clear hz hdoy hday hnext
    split at hyear <;> split <;> omega

end Util

end Iceee
