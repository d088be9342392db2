import Iceee.Lib.Machine

/-!
# Texts

Texts are lists of characters. This module has the two list formats of the server: pieces
joined by a comma, and pieces in which the commas and backslashes are escaped before they
are joined; and the decimal numerals.
-/

namespace Iceee.Lib

abbrev Text := List Char

/-! ### Numerals -/

/-- `%d` for a natural number, and `%lu`. -/
def printNat (n : Nat) : Text := Nat.toDigits 10 n

/-- `%d`. -/
def printInt : Int → Text
  | .ofNat n => printNat n
  | .negSucc n => '-' :: printNat (n + 1)

/-- The value of the digits a text starts with. -/
def parseNat (t : Text) : Nat := Nat.ofDigitChars 10 (t.takeWhile Char.isDigit) 0

/-- The number after an optional sign. -/
def parseSigned : Text → Int
  | '-' :: t => -parseNat t
  | '+' :: t => parseNat t
  | t => parseNat t

/-- The number a text starts with: white space, an optional sign, digits. -/
def parseInt (t : Text) : Int := parseSigned (t.dropWhile Char.isWhitespace)

/-- `atol`: a number out of range becomes the nearest one. -/
def atol (t : Text) : Int := max (-2 ^ 63) (min (2 ^ 63 - 1) (parseInt t))

/-- `atoi`, which cuts what `atol` returns. -/
def atoi (t : Text) : Int := wrap32 (atol t)

theorem isDigit_of_mem_printNat {n : Nat} {c : Char} (h : c ∈ printNat n) : c.isDigit :=
  Nat.isDigit_of_mem_toDigits (by norm_num) le_rfl h

theorem printNat_ne_nil (n : Nat) : printNat n ≠ [] := Nat.toDigits_ne_nil

@[simp] theorem parseNat_printNat (n : Nat) : parseNat (printNat n) = n := by
  have hall : (printNat n).takeWhile Char.isDigit = printNat n :=
    List.takeWhile_eq_self_iff.mpr fun _ => isDigit_of_mem_printNat
  unfold parseNat
  rw [hall]
  exact Nat.ofDigitChars_ten_toDigits

theorem parseSigned_printNat (n : Nat) : parseSigned (printNat n) = n := by
  have hdigit {c : Char} {t : Text} (h : printNat n = c :: t) : c.isDigit :=
    isDigit_of_mem_printNat (by rw [h]; exact List.mem_cons_self)
  unfold parseSigned
  split
  · rename_i t h
    exact absurd (hdigit h) (by decide)
  · rename_i t h
    exact absurd (hdigit h) (by decide)
  · rw [parseNat_printNat]

theorem not_isWhitespace_of_isDigit {c : Char} (h : c.isDigit) : c.isWhitespace = false := by
  rw [Bool.eq_false_iff]
  intro hc
  simp only [Char.isWhitespace, Bool.or_eq_true, decide_eq_true_eq] at hc
  rcases hc with ((rfl | rfl) | rfl) | rfl <;> exact absurd h (by decide)

@[simp] theorem parseInt_printInt (i : Int) : parseInt (printInt i) = i := by
  unfold parseInt
  cases i with
  | ofNat n =>
      have hdrop : (printInt (.ofNat n)).dropWhile Char.isWhitespace = printNat n := by
        cases hp : printNat n with
        | nil => exact absurd hp (printNat_ne_nil n)
        | cons c t =>
            have hc : c.isDigit := isDigit_of_mem_printNat (by rw [hp]; exact List.mem_cons_self)
            have hint : printInt (.ofNat n) = c :: t := hp
            rw [hint, List.dropWhile_cons_of_neg (by simp [not_isWhitespace_of_isDigit hc])]
      rw [hdrop, parseSigned_printNat]
      rfl
  | negSucc n =>
      have hdrop : (printInt (.negSucc n)).dropWhile Char.isWhitespace =
          '-' :: printNat (n + 1) := List.dropWhile_cons_of_neg (by decide)
      have hsigned : parseSigned ('-' :: printNat (n + 1)) = -(parseNat (printNat (n + 1)) : Int) :=
        rfl
      rw [hdrop, hsigned, parseNat_printNat]
      rfl

@[simp] theorem parseInt_printNat (n : Nat) : parseInt (printNat n) = n := parseInt_printInt n

theorem atoi_inInt32 (t : Text) : InInt32 (atoi t) := wrap32_inInt32 _

theorem atoi_eq {t : Text} (h : InInt32 (parseInt t)) : atoi t = parseInt t := by
  obtain ⟨hlow, hhigh⟩ := h
  have hatol : atol t = parseInt t := by
    unfold atol
    omega
  rw [atoi, hatol, wrap32_eq ⟨hlow, hhigh⟩]

theorem atoi_printInt {i : Int} (h : InInt32 i) : atoi (printInt i) = i := by
  rw [atoi_eq (by rwa [parseInt_printInt]), parseInt_printInt]

theorem atoi_printNat {n : Nat} (h : n < 2 ^ 31) : atoi (printNat n) = n :=
  atoi_printInt (i := n) ⟨by omega, by omega⟩

theorem mem_printInt {i : Int} {c : Char} (h : c ∈ printInt i) : c.isDigit ∨ c = '-' := by
  cases i with
  | ofNat n => exact .inl (isDigit_of_mem_printNat h)
  | negSucc n =>
      rcases List.mem_cons.mp h with h | h
      · exact .inr h
      · exact .inl (isDigit_of_mem_printNat h)

theorem length_printNat_le {n : Nat} (h : n ≤ 2 ^ 31) : (printNat n).length ≤ 10 :=
  Nat.toDigits_length 10 n 10 (by decide) (by omega)

theorem length_printInt_le {i : Int} (hlow : -2 ^ 31 ≤ i) (hhigh : i < 2 ^ 31) :
    (printInt i).length ≤ 11 := by
  cases i with
  | ofNat n =>
      have hn : (n : Int) < 2 ^ 31 := hhigh
      exact (length_printNat_le (by omega)).trans (by decide)
  | negSucc n =>
      exact Nat.succ_le_succ (length_printNat_le (by omega))

theorem comma_notMem_printInt (i : Int) : ',' ∉ printInt i := fun h =>
  (mem_printInt h).elim (by decide) (by decide)

theorem comma_notMem_printNat (n : Nat) : ',' ∉ printNat n := comma_notMem_printInt n

theorem printInt_ne_nil (i : Int) : printInt i ≠ [] := by
  cases i with
  | ofNat n => exact printNat_ne_nil n
  | negSucc n => exact List.cons_ne_nil _ _

/-- The value of a digit in any base up to 36. -/
def digitValue (c : Char) : Option Nat :=
  if c.isDigit then some (c.toNat - '0'.toNat)
  else if c.isLower then some (c.toNat - 'a'.toNat + 10)
  else if c.isUpper then some (c.toNat - 'A'.toNat + 10)
  else none

/-- The value of the digits of a base that a text starts with, after the digits so far. -/
def parseDigits (base : Nat) : Text → Nat → Nat
  | [], n => n
  | c :: t, n =>
      match digitValue c with
      | some d => if d < base then parseDigits base t (base * n + d) else n
      | none => n

/-- The number `strtoul` finds with base 0: the prefix says which base. -/
def parseMagnitude : Text → Nat
  | '0' :: 'x' :: t => parseDigits 16 t 0
  | '0' :: 'X' :: t => parseDigits 16 t 0
  | '0' :: t => parseDigits 8 t 0
  | t => parseDigits 10 t 0

/-- A number that does not fit is `ULONG_MAX`. -/
def clampULong (negative : Bool) (n : Nat) : UInt64 :=
  if n < 2 ^ 64 then if negative then -UInt64.ofNat n else UInt64.ofNat n
  else UInt64.ofNat (2 ^ 64 - 1)

/-- `strtoul` with base 0. -/
def parseULong (t : Text) : UInt64 :=
  match t.dropWhile Char.isWhitespace with
  | '-' :: t => clampULong true (parseMagnitude t)
  | '+' :: t => clampULong false (parseMagnitude t)
  | t => clampULong false (parseMagnitude t)

/-- `%lu`. -/
def printULong (n : UInt64) : Text := printNat n.toNat

theorem parseDigits_eq {t : Text} (h : ∀ c ∈ t, c.isDigit) (n : Nat) :
    parseDigits 10 t n = Nat.ofDigitChars 10 t n := by
  induction t generalizing n with
  | nil => rfl
  | cons c t ih =>
      have hc : c.isDigit := h c List.mem_cons_self
      have hlt : c.toNat - '0'.toNat < 10 := by
        have hle := (Char.isDigit_iff_toNat.mp hc).2
        have h9 : '9'.toNat = 57 := rfl
        have h0 : '0'.toNat = 48 := rfl
        omega
      have hvalue : digitValue c = some (c.toNat - '0'.toNat) := if_pos hc
      rw [parseDigits, hvalue]
      dsimp only
      rw [if_pos hlt, ih fun c hc => h c (List.mem_cons_of_mem _ hc)]
      rfl

/-- A positive number is not printed with a leading zero. -/
theorem head?_printNat {n : Nat} (h : 0 < n) : (printNat n).head? ≠ some '0' := by
  induction n using Nat.strongRecOn with
  | ind n ih =>
      unfold printNat
      by_cases hlt : n < 10
      · rw [Nat.toDigits_of_lt_base hlt]
        interval_cases n <;> decide
      · rw [Nat.toDigits_of_base_le (by norm_num) (by omega),
          List.head?_append_of_ne_nil _ Nat.toDigits_ne_nil]
        exact ih (n / 10) (by omega) (by omega)

theorem parseMagnitude_printNat (n : Nat) : parseMagnitude (printNat n) = n := by
  have hdecimal : parseDigits 10 (printNat n) 0 = n := by
    rw [parseDigits_eq fun _ => isDigit_of_mem_printNat]
    exact Nat.ofDigitChars_ten_toDigits
  rcases Nat.eq_zero_or_pos n with rfl | hpos
  · rfl
  · have hhead := head?_printNat hpos
    unfold parseMagnitude
    split
    · rename_i h
      simp [h] at hhead
    · rename_i h
      simp [h] at hhead
    · rename_i h
      simp [h] at hhead
    · exact hdecimal

@[simp] theorem parseULong_printULong (n : UInt64) : parseULong (printULong n) = n := by
  have hclamp : clampULong false (parseMagnitude (printULong n)) = n := by
    unfold clampULong printULong
    rw [parseMagnitude_printNat, if_pos n.toNat_lt]
    simp
  have hdigit {c : Char} {t : Text} (h : printULong n = c :: t) : c.isDigit :=
    isDigit_of_mem_printNat (n := n.toNat) (by
      change c ∈ printULong n
      rw [h]
      exact List.mem_cons_self)
  have hdrop : (printULong n).dropWhile Char.isWhitespace = printULong n := by
    cases hp : printULong n with
    | nil => exact absurd hp (printNat_ne_nil _)
    | cons c t => rw [List.dropWhile_cons_of_neg (by simp [not_isWhitespace_of_isDigit (hdigit hp)])]
  unfold parseULong
  rw [hdrop]
  split
  · rename_i h
    exact absurd (hdigit h) (by decide)
  · rename_i h
    exact absurd (hdigit h) (by decide)
  · exact hclamp

theorem comma_notMem_printULong (n : UInt64) : ',' ∉ printULong n := comma_notMem_printNat _

/-! ### Pieces between commas -/

/-- `Util::Split` at commas. -/
def split (t : Text) : List Text := t.splitOn ','

/-- The pieces of a format like `%d,%d`. -/
def commas (pieces : List Text) : Text := [','].intercalate pieces

theorem split_commas {pieces : List Text} (h : ∀ t ∈ pieces, ',' ∉ t) (hne : pieces ≠ []) :
    split (commas pieces) = pieces :=
  List.splitOn_intercalate ',' h hne

theorem mem_commas {ts : List Text} {c : Char} (h : c ∈ commas ts) :
    c = ',' ∨ ∃ t ∈ ts, c ∈ t := by
  induction ts with
  | nil => cases h
  | cons t ts ih =>
      cases ts with
      | nil =>
          rw [commas, List.intercalate_singleton] at h
          exact .inr ⟨t, List.mem_cons_self, h⟩
      | cons t' ts =>
          rw [commas, List.intercalate_cons_cons, List.append_assoc, List.mem_append,
            List.singleton_append, List.mem_cons] at h
          obtain h | h | h := h
          · exact .inr ⟨t, List.mem_cons_self, h⟩
          · exact .inl h
          · obtain h | ⟨t, ht, hc⟩ := ih h
            · exact .inl h
            · exact .inr ⟨t, List.mem_cons_of_mem _ ht, hc⟩

theorem split_of_comma_notMem {t : Text} (h : ',' ∉ t) : split t = [t] :=
  List.splitOn_eq_singleton h

/-! ### Escaped pieces -/

/-- Replace a character. -/
def replaceChar (a : Char) (new t : Text) : Text :=
  t.flatMap fun c => if c = a then new else [c]

/-- Replace every two characters `a` `b`, from the left. -/
def replacePair (a b : Char) (new : Text) : Text → Text
  | [] => []
  | [c] => [c]
  | c :: d :: rest =>
      if c = a ∧ d = b then new ++ replacePair a b new rest
      else c :: replacePair a b new (d :: rest)

/-- Backslashes are doubled first, then the commas get a backslash. -/
def escape (t : Text) : Text := replaceChar ',' ['\\', ','] (replaceChar '\\' ['\\', '\\'] t)

/-- The replacements of `escape` in the other direction, the commas first. -/
def unescape (t : Text) : Text := replacePair '\\' '\\' ['\\'] (replacePair '\\' ',' [','] t)

/-- `Util::SplitEscaped` at commas; `escaped` says that a backslash came before. -/
def splitEscaped (escaped : Bool) : Text → List Text
  | [] => [[]]
  | c :: rest =>
      if c = '\\' ∧ !escaped then (splitEscaped true rest).modifyHead (c :: ·)
      else if c = ',' ∧ !escaped then [] :: splitEscaped false rest
      else (splitEscaped false rest).modifyHead (c :: ·)

/-- The loop of `ListValue`: a comma goes in front of a piece once the text is not empty. -/
def joinEscaped (pieces : List Text) : Text :=
  pieces.foldl (fun v t => (if v.isEmpty then v else v ++ [',']) ++ escape t) []

/-- The pieces of a text that `joinEscaped` made; an empty text has none. -/
def parseEscaped (v : Text) : List Text :=
  if v.isEmpty then [] else (splitEscaped false v).map unescape

theorem escape_cons (c : Char) (t : Text) :
    escape (c :: t) =
      (if c = '\\' then ['\\', '\\'] else if c = ',' then ['\\', ','] else [c]) ++ escape t := by
  unfold escape replaceChar
  rw [List.flatMap_cons, List.flatMap_append]
  congr 1
  by_cases h : c = '\\'
  · subst h
    rfl
  · by_cases h' : c = ','
    · subst h'
      rfl
    · simp [h, h']

@[simp] theorem escape_nil : escape [] = [] := rfl

theorem escape_ne_nil {t : Text} (h : t ≠ []) : escape t ≠ [] := by
  cases t with
  | nil => exact absurd rfl h
  | cons c t =>
      rw [escape_cons]
      split
      · simp
      · split <;> simp

/-- An escaped text does not start with a comma. -/
theorem head?_escape (t : Text) : (escape t).head? ≠ some ',' := by
  cases t with
  | nil => simp
  | cons c t =>
      rw [escape_cons]
      by_cases h : c = '\\'
      · simp [h]
      · by_cases h' : c = ','
        · simp [h']
        · simp [h, h']

/-- A piece that was escaped has no comma to split at. -/
theorem splitEscaped_append (t rest : Text) :
    splitEscaped false (escape t ++ rest) =
      (splitEscaped false rest).modifyHead (escape t ++ ·) := by
  induction t with
  | nil => cases h : splitEscaped false rest <;> simp [h]
  | cons c t ih =>
      rw [escape_cons]
      by_cases h : c = '\\'
      · subst h
        simp [splitEscaped, ih, List.modifyHead_modifyHead, Function.comp_def]
      · by_cases h' : c = ','
        · subst h'
          simp [splitEscaped, ih, List.modifyHead_modifyHead, Function.comp_def]
        · simp [h, h', splitEscaped, ih, List.modifyHead_modifyHead, Function.comp_def]

theorem splitEscaped_escape (t : Text) : splitEscaped false (escape t) = [escape t] := by
  have h := splitEscaped_append t []
  rw [List.append_nil] at h
  rw [h]
  simp [splitEscaped]

theorem splitEscaped_intercalate {pieces : List Text} (hne : pieces ≠ []) :
    splitEscaped false ([','].intercalate (pieces.map escape)) = pieces.map escape := by
  induction pieces with
  | nil => exact absurd rfl hne
  | cons t rest ih =>
      cases rest with
      | nil => simpa using splitEscaped_escape t
      | cons u rest =>
          have hrest := ih (List.cons_ne_nil _ _)
          rw [List.map_cons, List.map_cons, List.intercalate_cons_cons, ← List.map_cons,
            List.append_assoc, splitEscaped_append]
          simp [splitEscaped, ← List.map_cons, hrest]

theorem replaceChar_cons (a : Char) (new : Text) (c : Char) (t : Text) :
    replaceChar a new (c :: t) = (if c = a then new else [c]) ++ replaceChar a new t := rfl

/-- The first replacement of `unescape` takes the backslashes of the commas away. -/
theorem replacePair_escape (t : Text) :
    replacePair '\\' ',' [','] (escape t) = replaceChar '\\' ['\\', '\\'] t := by
  induction t with
  | nil => rfl
  | cons c t ih =>
      have hkeep (d : Char) (hd : d ≠ '\\' ∨ (escape t).head? ≠ some ',') :
          replacePair '\\' ',' [','] (d :: escape t) =
            d :: replaceChar '\\' ['\\', '\\'] t := by
        rw [← ih]
        cases h : escape t with
        | nil => rfl
        | cons e rest =>
            rw [h] at hd
            rw [replacePair, if_neg]
            rintro ⟨rfl, rfl⟩
            simp at hd
      rw [replaceChar_cons, escape_cons]
      by_cases h : c = '\\'
      · subst h
        have hslash := hkeep '\\' (.inr (head?_escape t))
        simp [replacePair, hslash]
      · by_cases h' : c = ','
        · subst h'
          simp [replacePair, ih]
        · simp [h, h', hkeep c (.inl h)]

/-- The second one halves the backslashes. -/
theorem replacePair_replaceChar (t : Text) :
    replacePair '\\' '\\' ['\\'] (replaceChar '\\' ['\\', '\\'] t) = t := by
  induction t with
  | nil => rfl
  | cons c t ih =>
      rw [replaceChar_cons]
      by_cases h : c = '\\'
      · subst h
        simp [replacePair, ih]
      · rw [if_neg h]
        cases ht : replaceChar '\\' ['\\', '\\'] t with
        | nil =>
            rw [ht] at ih
            rw [← ih]
            rfl
        | cons d rest =>
            rw [ht] at ih
            simp [replacePair, h, ih]

@[simp] theorem unescape_escape (t : Text) : unescape (escape t) = t := by
  unfold unescape
  rw [replacePair_escape, replacePair_replaceChar]

theorem intercalate_cons (t : Text) (pieces : List Text) :
    [','].intercalate (t :: pieces) = t ++ pieces.flatMap (',' :: ·) := by
  induction pieces generalizing t with
  | nil => simp
  | cons u rest ih => simp [List.intercalate_cons_cons, ih]

/-- Once the text is not empty, every further piece follows a comma. -/
theorem foldl_joinEscaped (pieces : List Text) {v : Text} (hv : v ≠ []) :
    pieces.foldl (fun v t => (if v.isEmpty then v else v ++ [',']) ++ escape t) v =
      v ++ (pieces.map escape).flatMap (',' :: ·) := by
  induction pieces generalizing v with
  | nil => simp
  | cons t rest ih =>
      have hstep : (if v.isEmpty then v else v ++ [',']) ++ escape t ≠ [] := by simp [hv]
      rw [List.foldl_cons, ih hstep]
      simp [hv]

/-- Pieces are joined by commas when the first one is not empty. -/
theorem joinEscaped_eq {t : Text} (ht : t ≠ []) (rest : List Text) :
    joinEscaped (t :: rest) = [','].intercalate ((t :: rest).map escape) := by
  have hfold := foldl_joinEscaped rest (escape_ne_nil ht)
  rw [List.map_cons, intercalate_cons, ← hfold]
  simp [joinEscaped]

/-- What `joinEscaped` made is read back, when the first piece is not empty. -/
theorem parseEscaped_joinEscaped {pieces : List Text} (h : pieces.head? ≠ some []) :
    parseEscaped (joinEscaped pieces) = pieces := by
  cases pieces with
  | nil => rfl
  | cons t rest =>
      have ht : t ≠ [] := by simpa using h
      have hne : [','].intercalate ((t :: rest).map escape) ≠ [] := by
        rw [List.map_cons, intercalate_cons]
        exact List.append_ne_nil_of_left_ne_nil (escape_ne_nil ht) _
      rw [joinEscaped_eq ht]
      unfold parseEscaped
      rw [if_neg (by simpa using hne), splitEscaped_intercalate (List.cons_ne_nil _ _),
        List.map_map]
      simp [Function.comp_def]

/-- An empty piece leaves no trace in front. -/
theorem joinEscaped_nil_cons (rest : List Text) : joinEscaped ([] :: rest) = joinEscaped rest := rfl

theorem length_parseEscaped_le (pieces : List Text) :
    (parseEscaped (joinEscaped pieces)).length ≤ pieces.length := by
  induction pieces with
  | nil => exact le_rfl
  | cons t rest ih =>
      cases t with
      | nil =>
          rw [joinEscaped_nil_cons]
          exact ih.trans (Nat.le_succ _)
      | cons c t => rw [parseEscaped_joinEscaped (by simp)]

/-- Exactly the lists that do not start with an empty piece are read back. -/
theorem parseEscaped_joinEscaped_iff (pieces : List Text) :
    parseEscaped (joinEscaped pieces) = pieces ↔ pieces.head? ≠ some [] := by
  constructor
  · intro h hhead
    obtain ⟨rest, rfl⟩ := List.head?_eq_some_iff.mp hhead
    rw [joinEscaped_nil_cons] at h
    have hlen := length_parseEscaped_le rest
    rw [h, List.length_cons] at hlen
    exact absurd hlen (Nat.not_succ_le_self _)
  · exact parseEscaped_joinEscaped

end Iceee.Lib
