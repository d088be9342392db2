import Iceee.Ability.EventList

/-!
# Reading the canonical text of an event list

The scanners agree on the levels of a canonical text, so every function is read under its own name,
with its chance and the number of its block. An empty last argument is lost, an argument of blanks
stays untrimmed, and the number of a block is kept in one byte.

## Main results

* `functions_eq`: what the canonical text is read as.
* `parses_iff`: the event lists that are read as they were meant.
-/

namespace Iceee.Ability

open Lib Nesting

/-! ### Levels of the canonical text -/

theorem IsArgument.balanced_nestLevel {t : Text} (h : IsArgument t) : Balanced nestLevel t := by
  refine h.balanced.congr fun c hc => ?_
  have hplain := h.plain c hc
  simp only [List.mem_cons, List.not_mem_nil, or_false, not_or] at hplain
  simp [parenthesis, nestLevel, hplain]

theorem nestLevel_of_isName {t : Text} (h : IsName t) {c : Char} (hc : c ∈ t) :
    nestLevel c = 0 ∧ c ≠ ',' := by
  have hplain := h c hc
  simp only [List.mem_cons, List.not_mem_nil, or_false, not_or] at hplain
  simp [nestLevel, hplain]

/-- A head that opens nothing in front of what opens and closes. -/
theorem balanced_sealed {head body : Text} {o c : Char} (ho : nestLevel o = 1)
    (hc : nestLevel c = -1) (hosep : o ≠ ',') (hcsep : c ≠ ',')
    (hhead : ∀ c ∈ head, nestLevel c = 0 ∧ c ≠ ',') (hbody : Balanced nestLevel body) :
    Balanced nestLevel (head ++ o :: (body ++ [c])) ∧
      Sealed nestLevel ',' 0 (head ++ o :: (body ++ [c])) := by
  have hflat : Balanced nestLevel head := .of_flat fun c hc => (hhead c hc).1
  refine ⟨hflat.append (hbody.wrap ho hc), sealed_append.mpr ⟨?_, ?_⟩⟩
  · exact sealed_of_notMem fun hmem => (hhead _ hmem).2 rfl
  · rw [hflat.depth_eq, add_zero]
    exact hbody.sealed_wrap ho hosep hcsep

theorem Call.balanced_sealed (f : Call) :
    Balanced nestLevel f.text ∧ Sealed nestLevel ',' 0 f.text := by
  refine Ability.balanced_sealed (by decide) (by decide) (by decide) (by decide)
    (fun c hc => nestLevel_of_isName f.isName hc) ?_
  exact Balanced.intercalate (by decide) fun t ht => (f.isArgument t ht).balanced_nestLevel

theorem notMem_printNat {c : Char} (hc : c.isDigit = false) (n : Nat) : c ∉ printNat n :=
  fun h => by
    have hdigit := isDigit_of_mem_printNat h
    rw [hc] at hdigit
    exact absurd hdigit (by decide)

theorem Block.balanced_sealed (b : Block) :
    Balanced nestLevel b.text ∧ Sealed nestLevel ',' 0 b.text := by
  have hhead : ∀ c ∈ '~' :: (printNat b.chance ++ ['%']), nestLevel c = 0 ∧ c ≠ ',' := by
    intro c hc
    rcases List.mem_cons.mp hc with rfl | hc
    · decide
    rcases List.mem_append.mp hc with hc | hc
    · have hne (d : Char) (hd : d.isDigit = false) : c ≠ d := fun h =>
        notMem_printNat hd b.chance (h ▸ hc)
      refine ⟨?_, hne ',' (by decide)⟩
      simp [nestLevel, hne '(' (by decide), hne ')' (by decide), hne '{' (by decide),
        hne '}' (by decide)]
    · rw [List.mem_singleton.mp hc]
      decide
  have hbody : Balanced nestLevel (commas (b.calls.map Call.text)) := by
    refine Balanced.intercalate (by decide) fun t ht => ?_
    obtain ⟨f, -, rfl⟩ := List.mem_map.mp ht
    exact f.balanced_sealed.1
  have h := @Ability.balanced_sealed _ _ '{' '}' (by decide) (by decide) (by decide) (by decide)
    hhead hbody
  simpa only [Block.text, List.cons_append, List.append_assoc, List.nil_append] using h

theorem Entry.balanced_sealed (e : Entry) :
    Balanced nestLevel e.text ∧ Sealed nestLevel ',' 0 e.text := by
  cases e with
  | call f => exact f.balanced_sealed
  | block b => exact b.balanced_sealed

theorem Call.text_ne_nil (f : Call) : f.text ≠ [] := by simp [Call.text]

theorem Entry.text_ne_nil (e : Entry) : e.text ≠ [] := by
  cases e with
  | call f => exact f.text_ne_nil
  | block b => simp [Entry.text, Block.text]

theorem splitFunctionList_calls (fs : List Call) :
    splitFunctionList (commas (fs.map Call.text)) = fs.map Call.text := by
  refine cut_intercalate ?_ ?_ ?_ <;> intro t ht <;> obtain ⟨f, -, rfl⟩ := List.mem_map.mp ht
  · exact f.text_ne_nil
  · exact f.balanced_sealed.1.depth_eq
  · exact f.balanced_sealed.2

theorem splitFunctionList_canonical (entries : List Entry) :
    splitFunctionList (canonical entries) = entries.map Entry.text := by
  refine cut_intercalate ?_ ?_ ?_ <;> intro t ht <;> obtain ⟨e, -, rfl⟩ := List.mem_map.mp ht
  · exact e.text_ne_nil
  · exact e.balanced_sealed.1.depth_eq
  · exact e.balanced_sealed.2

/-! ### Trimming -/

/-- What `TrimWhitespace` takes off. -/
def isBlank (c : Char) : Bool := c == ' ' || c == '\t'

/-- A text without the blanks at its ends. -/
def trim (t : Text) : Text := (t.dropWhile isBlank).rdropWhile isBlank

theorem trimWhitespace_eq (t : Text) :
    Crafting.trimWhitespace t = if t.all isBlank then t else trim t := rfl

theorem trim_of_blank {t : Text} (h : t.all isBlank) : trim t = [] := by
  have hdrop : t.dropWhile isBlank = [] :=
    List.dropWhile_eq_nil_iff.mpr fun c hc => List.all_eq_true.mp h c hc
  rw [trim, hdrop]
  rfl

theorem trimWhitespace_eq_trim_iff (t : Text) :
    Crafting.trimWhitespace t = trim t ↔ (t.all isBlank → t = []) := by
  rw [trimWhitespace_eq]
  by_cases h : t.all isBlank
  · rw [if_pos h, trim_of_blank h]
    exact ⟨fun heq _ => heq, fun himp => himp h⟩
  · rw [if_neg h]
    exact ⟨fun _ hblank => absurd hblank h, fun _ => rfl⟩

/-- A text without blanks at its ends is not trimmed. -/
theorem trimWhitespace_eq_self {a b : Text} {c d : Char} (hc : isBlank c = false)
    (hd : isBlank d = false) (ha : c :: a = b ++ [d]) :
    Crafting.trimWhitespace (c :: a) = c :: a := by
  have hall : ¬(c :: a).all isBlank := fun h => by
    have := List.all_eq_true.mp h c List.mem_cons_self
    rw [hc] at this
    exact absurd this (by decide)
  have hdrop : (c :: a).dropWhile isBlank = c :: a := List.dropWhile_cons_of_neg (by simp [hc])
  have hrdrop : (c :: a).rdropWhile isBlank = c :: a := by
    rw [ha]
    exact List.rdropWhile_concat_neg _ _ _ (by simp [hd])
  rw [trimWhitespace_eq, if_neg hall, trim, hdrop, hrdrop]

theorem isBlank_of_isName {t : Text} (h : IsName t) {c : Char} (hc : c ∈ t) :
    isBlank c = false := by
  have hplain := h c hc
  simp only [List.mem_cons, List.not_mem_nil, or_false, not_or] at hplain
  simp [isBlank, hplain]

theorem Call.trimWhitespace_text (f : Call) : Crafting.trimWhitespace f.text = f.text := by
  obtain ⟨b, hb⟩ : ∃ b, f.text = b ++ [')'] :=
    ⟨f.name ++ '(' :: commas f.args, by simp [Call.text]⟩
  have hclose : isBlank ')' = false := rfl
  cases hname : f.name with
  | nil =>
      have htext : f.text = '(' :: (commas f.args ++ [')']) := by rw [Call.text, hname]; rfl
      rw [htext] at hb ⊢
      exact trimWhitespace_eq_self (by decide) hclose hb
  | cons c rest =>
      have htext : f.text = c :: (rest ++ '(' :: (commas f.args ++ [')'])) := by
        rw [Call.text, hname]
        rfl
      have hc : c ∈ f.name := hname ▸ List.mem_cons_self
      rw [htext] at hb ⊢
      exact trimWhitespace_eq_self (isBlank_of_isName f.isName hc) hclose hb

theorem Block.trimWhitespace_text (b : Block) : Crafting.trimWhitespace b.text = b.text := by
  have hlast : b.text = ('~' :: (printNat b.chance ++ '%' :: '{' ::
      commas (b.calls.map Call.text))) ++ ['}'] := by simp [Block.text]
  have htilde : isBlank '~' = false := rfl
  have hbrace : isBlank '}' = false := rfl
  exact trimWhitespace_eq_self htilde hbrace hlast

/-! ### One function -/

theorem findFrom_eq {c : Char} {pos : Nat} {t a b : Text} (ha : c ∉ a)
    (h : t.drop pos = a ++ c :: b) : findFrom c pos t = some (a.length + pos) := by
  have hnone : a.findIdx? (· == c) = none :=
    List.findIdx?_eq_none_iff.mpr fun x hx => by
      simpa using fun heq : x = c => ha (heq ▸ hx)
  have hhit : (c :: b).findIdx? (· == c) = some 0 := by simp [List.findIdx?_cons]
  rw [findFrom, h, List.findIdx?_append, hnone, hhit]
  simp

/-- The scanner stays within an argument. Its last parenthesis is forgotten at the next cut. -/
theorem splitArguments_append {t : Text} (hplain : ∀ c ∈ t, c ≠ ',' ∧ c ≠ '"') {n : Int}
    (habove : Above parenthesis n t) (quote : Bool) (piece : Text) (last : Option Text)
    (rest : Text) :
    ∃ last', splitArguments (n + 1) quote piece last (t ++ rest) =
      splitArguments (n + depth parenthesis t + 1) quote (piece ++ t) last' rest := by
  induction t generalizing n piece last with
  | nil => exact ⟨last, by simp⟩
  | cons c t ih =>
      obtain ⟨⟨hcomma, hquote⟩, hrest⟩ := List.forall_mem_cons.mp hplain
      obtain ⟨last', ih⟩ := ih hrest habove.2 (piece ++ [c]) (if c = ')' then some piece else last)
      refine ⟨last', ?_⟩
      rw [List.append_assoc, List.singleton_append] at ih
      rw [depth_cons, ← add_assoc, ← ih, List.cons_append, splitArguments]
      by_cases hopen : c = '('
      · subst hopen
        simp [parenthesis]
      by_cases hclose : c = ')'
      · subst hclose
        have hlevel : ¬(n + 1 - 1 < 0) := by have := habove.nonneg; omega
        rw [if_neg hopen, if_pos rfl, if_neg hlevel, if_pos rfl]
        congr 1
        simp [parenthesis]
      · simp [parenthesis, hopen, hclose, hcomma, hquote]

/-- The arguments that are found: the last one is not when it is empty. -/
def written : List Text → List Text
  | [] => []
  | [t] => if t = [] then [] else [t]
  | t :: u :: rest => t :: written (u :: rest)

theorem splitArguments_commas {args : List Text} (h : ∀ t ∈ args, IsArgument t) :
    (splitArguments 1 false [] none (commas args ++ [')'])).1 = written args := by
  have hstep {t : Text} (ht : IsArgument t) (rest : Text) :
      ∃ last, splitArguments 1 false [] none (t ++ rest) = splitArguments 1 false t last rest := by
    have hplain : ∀ c ∈ t, c ≠ ',' ∧ c ≠ '"' := fun c hc => by
      have hnot := ht.plain c hc
      simp only [List.mem_cons, List.not_mem_nil, or_false, not_or] at hnot
      exact ⟨hnot.1, hnot.2.1⟩
    obtain ⟨last, hlast⟩ :=
      splitArguments_append hplain ht.balanced.above false [] none rest
    refine ⟨last, ?_⟩
    simpa only [zero_add, ht.balanced.depth_eq, List.nil_append] using hlast
  induction args with
  | nil => rfl
  | cons t args ih =>
      obtain ⟨ht, hargs⟩ := List.forall_mem_cons.mp h
      cases args with
      | nil =>
          obtain ⟨last, hlast⟩ := hstep ht [')']
          have hjoin : commas [t] = t := by simp [commas]
          rw [hjoin, hlast]
          by_cases hempty : t = [] <;> simp [splitArguments, written, hempty]
      | cons u args =>
          obtain ⟨last, hlast⟩ := hstep ht (',' :: (commas (u :: args) ++ [')']))
          have hjoin : commas (t :: u :: args) ++ [')'] =
              t ++ ',' :: (commas (u :: args) ++ [')']) := by simp [commas]
          calc (splitArguments 1 false [] none (commas (t :: u :: args) ++ [')'])).1
              = (splitArguments 1 false t last (',' :: (commas (u :: args) ++ [')']))).1 := by
                rw [hjoin, hlast]
            _ = t :: (splitArguments 1 false [] none (commas (u :: args) ++ [')'])).1 := by
                simp [splitArguments]
            _ = written (t :: u :: args) := by rw [ih hargs, written]

theorem splitFunction_text (f : Call) :
    (splitFunction f.text).1 = f.name :: written f.args := by
  have hname : '(' ∉ f.name := fun h => f.isName '(' h (by decide)
  have hfind : findFrom '(' 0 f.text = some f.name.length :=
    findFrom_eq hname (by rfl)
  have htake : f.text.take f.name.length = f.name := by simp [Call.text]
  have hdrop : f.text.drop (f.name.length + 1) = commas f.args ++ [')'] := by
    simp [Call.text, List.drop_append]
  rw [splitFunction, hfind]
  simp only [htake, hdrop, splitArguments_commas f.isArgument]

/-- Without quotes an argument is only trimmed. -/
theorem readArgument_eq {t : Text} (h : '"' ∉ t) :
    readArgument t = Crafting.trimWhitespace t := by
  have hnot : '"' ∉ Crafting.trimWhitespace t := fun hmem => by
    rw [trimWhitespace_eq] at hmem
    split at hmem
    · exact h hmem
    · have hsub : (t.dropWhile isBlank).rdropWhile isBlank <+: t.dropWhile isBlank :=
        List.rdropWhile_prefix _ _
      exact h ((List.dropWhile_suffix _).subset (hsub.subset hmem))
  rw [readArgument]
  exact if_neg hnot

/-- What a function is read as. -/
def Call.read (chance id : UInt8) (f : Call) : AbilityFunction2 where
  mChance := chance
  mChanceID := id
  mFunctionName := f.name
  mArguments := (written f.args).map Crafting.trimWhitespace

theorem mem_of_mem_written {args : List Text} {t : Text} (h : t ∈ written args) : t ∈ args := by
  induction args using written.induct with
  | case1 => exact h
  | case2 => simp [written] at h
  | case3 u hu => simpa [written, hu] using h
  | case4 u v rest ih =>
      rcases List.mem_cons.mp h with rfl | h
      · exact List.mem_cons_self
      · exact List.mem_cons_of_mem _ (ih h)

theorem assignFormula_text (chance id : UInt8) (f : Call) :
    AbilityFunction2.assignFormula { mChance := chance, mChanceID := id } f.text =
      f.read chance id := by
  have hread : (written f.args).map readArgument =
      (written f.args).map Crafting.trimWhitespace := by
    refine List.map_congr_left fun t ht => readArgument_eq fun hquote => ?_
    exact (f.isArgument t (mem_of_mem_written ht)).plain _ hquote (by decide)
  rw [AbilityFunction2.assignFormula, splitFunction_text]
  simp only [List.nil_append, hread, Call.read]

/-! ### One block -/

theorem readChance_printNat {p : Nat} (h : p ≤ 100) :
    (readChance (printNat p)).toNat = p := by
  have hmod : ((p : Int) % 256).toNat = p := by omega
  have hlow : ¬UInt8.ofNat p > 100 := by
    rw [gt_iff_lt, UInt8.lt_iff_toNat_lt]
    simp only [UInt8.toNat_ofNat', UInt8.reduceToNat]
    omega
  rw [readChance, atoi_printNat (by omega), hmod]
  simp only [if_neg hlow, UInt8.toNat_ofNat']
  omega

theorem Call.brace_notMem_text (f : Call) {c : Char} (hc : c ∈ ['{', '}']) : c ∉ f.text := by
  have hname : c ∉ f.name := fun h => by
    have hnot := f.isName c h
    fin_cases hc <;> exact absurd hnot (by decide)
  have hargs : c ∉ commas f.args := fun h => by
    rcases mem_commas h with rfl | ⟨t, ht, hmem⟩
    · exact absurd hc (by decide)
    · have hnot := (f.isArgument t ht).plain c hmem
      fin_cases hc <;> exact absurd hnot (by decide)
  have hround : c ≠ '(' ∧ c ≠ ')' := by fin_cases hc <;> decide
  simp [Call.text, hname, hargs, hround]

theorem brace_notMem_commas (fs : List Call) {c : Char} (hc : c ∈ ['{', '}']) :
    c ∉ commas (fs.map Call.text) := fun h => by
  rcases mem_commas h with rfl | ⟨t, ht, hmem⟩
  · exact absurd hc (by decide)
  · obtain ⟨f, -, rfl⟩ := List.mem_map.mp ht
    exact f.brace_notMem_text hc hmem

/-- What an entry is read as, under a number for its block. -/
def Entry.read (id : UInt8) : Entry → List AbilityFunction2
  | .call f => [f.read 0 0]
  | .block b => b.calls.map (Call.read (UInt8.ofNat b.chance) id)

/-- The number of the block after the entry. -/
def Entry.next (id : UInt8) : Entry → UInt8
  | .call _ => id
  | .block _ => id + 1

theorem addChanceFunctionList_text (e : AbilityEvent2) (b : Block) :
    e.addChanceFunctionList b.text =
      { mFunctionList := e.mFunctionList ++ (Entry.block b).read e.mChanceID
        mChanceID := (Entry.block b).next e.mChanceID } := by
  set p := printNat b.chance with hp
  set body := commas (b.calls.map Call.text) with hbody
  have htilde : findFrom '~' 0 b.text = some 0 := findFrom_eq (a := []) (by simp) rfl
  have hpercent : findFrom '%' 0 b.text = some (p.length + 1) := by
    have hmem : '%' ∉ '~' :: p := by
      simpa using notMem_printNat (by decide : '%'.isDigit = false) b.chance
    exact findFrom_eq hmem rfl
  have hdrop : b.text.drop (p.length + 1) = '%' :: '{' :: (body ++ ['}']) := by
    simp [Block.text, ← hp, ← hbody]
  have hopening : findFrom '{' (p.length + 1) b.text = some (1 + (p.length + 1)) :=
    findFrom_eq (a := ['%']) (by decide) hdrop
  have hclosing : findFrom '}' (p.length + 1) b.text =
      some (('%' :: '{' :: body).length + (p.length + 1)) := by
    have hmem : '}' ∉ '%' :: '{' :: body := by
      simpa using brace_notMem_commas b.calls (by decide : '}' ∈ ['{', '}'])
    exact findFrom_eq hmem hdrop
  have hchance : substr b.text (0 + 1) (p.length + 1) = p := by
    simp [substr, Block.text, ← hp]
  have hinner : substr b.text (1 + (p.length + 1) + 1)
      (('%' :: '{' :: body).length + (p.length + 1)) = body := by
    have hlong : b.text.drop (1 + (p.length + 1) + 1) = body ++ ['}'] := by
      rw [show 1 + (p.length + 1) + 1 = p.length + 1 + 2 by omega, ← List.drop_drop, hdrop]
      rfl
    have hlevel : ¬('%' :: '{' :: body).length + (p.length + 1) < 1 + (p.length + 1) + 1 := by
      simp only [List.length_cons]
      omega
    rw [substr, if_neg hlevel, hlong]
    have hlen : ('%' :: '{' :: body).length + (p.length + 1) - (1 + (p.length + 1) + 1) =
        body.length := by
      simp only [List.length_cons]
      omega
    rw [hlen, List.take_left]
  have hread : (splitFunctionList body).map (fun piece =>
      { mChance := readChance p, mChanceID := e.mChanceID : AbilityFunction2 }.assignFormula
        (Crafting.trimWhitespace piece)) = (Entry.block b).read e.mChanceID := by
    have heq : readChance p = UInt8.ofNat b.chance := by
      apply UInt8.toNat_inj.mp
      have hle := b.chance_le
      rw [hp, readChance_printNat hle, UInt8.toNat_ofNat']
      omega
    rw [hbody, splitFunctionList_calls, List.map_map]
    refine List.map_congr_left fun f _ => ?_
    rw [Function.comp_apply, f.trimWhitespace_text, assignFormula_text, heq]
  rw [AbilityEvent2.addChanceFunctionList, htilde, hpercent]
  simp only [hopening, hclosing, hchance, hinner, hread, Entry.next]

/-! ### The whole list -/

/-- What a list of entries is read as, the first block under the number `id`. -/
def readEntries : UInt8 → List Entry → List AbilityFunction2
  | _, [] => []
  | id, e :: rest => e.read id ++ readEntries (e.next id) rest

theorem addEntry_text (e : AbilityEvent2) (entry : Entry) :
    e.addEntry entry.text =
      { mFunctionList := e.mFunctionList ++ entry.read e.mChanceID
        mChanceID := entry.next e.mChanceID } := by
  cases entry with
  | call f =>
      have hnot : findFrom '~' 0 f.text ≠ some 0 := by
        intro h
        obtain ⟨i, hi, hzero⟩ := Option.map_eq_some_iff.mp h
        obtain rfl : i = 0 := by omega
        rw [List.drop_zero, List.findIdx?_eq_some_iff_getElem] at hi
        obtain ⟨hlt, heq, -⟩ := hi
        cases hname : f.name with
        | nil => simp [Call.text, hname] at heq
        | cons c rest =>
            have hc : c = '~' := by simpa [Call.text, hname] using heq
            have hmem : '~' ∈ f.name := by rw [hname, hc]; exact List.mem_cons_self
            exact f.isName '~' hmem (by decide)
      rw [AbilityEvent2.addEntry]
      simp only [Entry.text, f.trimWhitespace_text, if_neg hnot]
      rw [assignFormula_text 0 0 f]
      rfl
  | block b =>
      have htilde : findFrom '~' 0 b.text = some 0 := findFrom_eq (a := []) (by simp) rfl
      rw [AbilityEvent2.addEntry]
      simp only [Entry.text, b.trimWhitespace_text, if_pos htilde]
      exact addChanceFunctionList_text e b

theorem foldl_addEntry (entries : List Entry) (e : AbilityEvent2) :
    ((entries.map Entry.text).foldl AbilityEvent2.addEntry e).mFunctionList =
      e.mFunctionList ++ readEntries e.mChanceID entries := by
  induction entries generalizing e with
  | nil => simp [readEntries]
  | cons entry rest ih =>
      rw [List.map_cons, List.foldl_cons, ih, addEntry_text, readEntries, List.append_assoc]

/-- The canonical text is read entry by entry, the blocks numbered from zero. -/
theorem functions_eq (entries : List Entry) : functions entries = readEntries 0 entries := by
  rw [functions, AbilityEvent2.setFunctionEvent, splitFunctionList_canonical, foldl_addEntry]
  rfl

/-! ### Exactly those functions -/

/-- For each function the index of its block. -/
def labels : Nat → List Entry → List (Option Nat)
  | _, [] => []
  | k, .call _ :: rest => none :: labels k rest
  | k, .block b :: rest => List.replicate b.calls.length (some k) ++ labels (k + 1) rest

/-- The blocks among the entries. -/
def blocks : List Entry → List Block
  | [] => []
  | .call _ :: rest => blocks rest
  | .block b :: rest => b :: blocks rest

/-- The canonical text is read as the functions it was written from: in order, with their trimmed
arguments and chances, and with one number for each block. -/
structure Parses (entries : List Entry) : Prop where
  calls : (functions entries).map (fun f => (f.mFunctionName, f.mArguments)) =
    (entries.flatMap Entry.calls).map fun f => (f.name, f.args.map trim)
  chances : (functions entries).map (fun f => f.mChance.toNat) =
    entries.flatMap fun e => e.calls.map fun _ => e.chance
  ids : ∀ x ∈ (labels 0 entries).zip (functions entries),
    ∀ y ∈ (labels 0 entries).zip (functions entries), ∀ k l, x.1 = some k → y.1 = some l →
      (x.2.mChanceID = y.2.mChanceID ↔ k = l)

/-- A function with a last argument that is not empty, and no argument of blanks only. -/
def Call.Legible (f : Call) : Prop :=
  f.args.getLast? ≠ some [] ∧ ∀ t ∈ f.args, t.all isBlank → t = []

theorem length_written (args : List Text) :
    (written args).length = args.length ↔ args.getLast? ≠ some [] := by
  induction args using written.induct with
  | case1 => simp [written]
  | case2 => simp [written]
  | case3 t ht => simp [written, ht]
  | case4 t u rest ih =>
      rw [written, List.length_cons, List.length_cons, Nat.add_right_cancel_iff, ih,
        List.getLast?_cons_cons]

theorem written_eq_self {args : List Text} (h : args.getLast? ≠ some []) :
    written args = args := by
  induction args using written.induct with
  | case1 => rfl
  | case2 => exact absurd rfl h
  | case3 t ht => rw [written, if_neg ht]
  | case4 t u rest ih =>
      rw [List.getLast?_cons_cons] at h
      rw [written, ih h]

theorem Call.legible_iff (f : Call) :
    (written f.args).map Crafting.trimWhitespace = f.args.map trim ↔ f.Legible := by
  constructor
  · intro h
    have hlength : (written f.args).length = f.args.length := by
      simpa using congrArg List.length h
    have hlast := (length_written f.args).mp hlength
    rw [written_eq_self hlast] at h
    exact ⟨hlast, fun t ht => (trimWhitespace_eq_trim_iff t).mp (List.map_inj_left.mp h t ht)⟩
  · rintro ⟨hlast, hblank⟩
    rw [written_eq_self hlast]
    exact List.map_congr_left fun t ht => (trimWhitespace_eq_trim_iff t).mpr (hblank t ht)

theorem readEntries_map {β : Type*} {g : AbilityFunction2 → β} {g' : Call → β}
    (h : ∀ chance id f, g (Call.read chance id f) = g' f) (id : UInt8) (entries : List Entry) :
    (readEntries id entries).map g = (entries.flatMap Entry.calls).map g' := by
  induction entries generalizing id with
  | nil => rfl
  | cons e rest ih =>
      have he : (e.read id).map g = e.calls.map g' := by
        cases e with
        | call f => simp [Entry.read, Entry.calls, h]
        | block b => simp [Entry.read, Entry.calls, h]
      rw [readEntries, List.map_append, ih, he, List.flatMap_cons, List.map_append]

theorem readEntries_chances (id : UInt8) (entries : List Entry) :
    (readEntries id entries).map (fun f => f.mChance.toNat) =
      entries.flatMap fun e => e.calls.map fun _ => e.chance := by
  induction entries generalizing id with
  | nil => rfl
  | cons e rest ih =>
      have he : (e.read id).map (fun f => f.mChance.toNat) = e.calls.map fun _ => e.chance := by
        cases e with
        | call f => rfl
        | block b =>
            have hle := b.chance_le
            have hchance : (UInt8.ofNat b.chance).toNat = b.chance := by
              rw [UInt8.toNat_ofNat']
              omega
            rw [Entry.read, List.map_map]
            exact List.map_congr_left fun f _ => hchance
      rw [readEntries, List.map_append, ih, he, List.flatMap_cons]

theorem zip_labels_block (k : Nat) (id : UInt8) (b : Block) (rest : List Entry) :
    (labels k (.block b :: rest)).zip (readEntries id (.block b :: rest)) =
      (b.calls.map fun f => (some k, f.read (UInt8.ofNat b.chance) id)) ++
        (labels (k + 1) rest).zip (readEntries (id + 1) rest) := by
  have hlength : (List.replicate b.calls.length (some k)).length =
      ((Entry.block b).read id).length := by simp [Entry.read]
  rw [labels, readEntries, List.zip_append hlength]
  congr 1
  rw [Entry.read, ← List.map_const', List.zip_map']

/-- A function of a block is read with the number of the block. -/
theorem id_of_mem_zip {entries : List Entry} {k l : Nat} {x : Option Nat × AbilityFunction2}
    (hx : x ∈ (labels k entries).zip (readEntries (UInt8.ofNat k) entries))
    (hl : x.1 = some l) :
    x.2.mChanceID = UInt8.ofNat l ∧ k ≤ l ∧ l < k + (blocks entries).length := by
  induction entries generalizing k with
  | nil => cases hx
  | cons e rest ih =>
      cases e with
      | call f =>
          rcases List.mem_cons.mp hx with rfl | hx
          · cases hl
          · exact ih hx
      | block b =>
          have hnext : UInt8.ofNat k + 1 = UInt8.ofNat (k + 1) := (UInt8.ofNat_add k 1).symm
          rw [zip_labels_block, hnext, List.mem_append] at hx
          rcases hx with hx | hx
          · obtain ⟨f, -, rfl⟩ := List.mem_map.mp hx
            obtain rfl := Option.some.inj hl
            exact ⟨rfl, le_refl k, by simp only [blocks, List.length_cons]; omega⟩
          · obtain ⟨hid, hlow, hhigh⟩ := ih hx
            exact ⟨hid, by omega, by simp only [blocks, List.length_cons]; omega⟩

/-- Every block shows up. -/
theorem exists_mem_zip {entries : List Entry} {k l : Nat} (hlow : k ≤ l)
    (hhigh : l < k + (blocks entries).length) :
    ∃ x ∈ (labels k entries).zip (readEntries (UInt8.ofNat k) entries), x.1 = some l := by
  induction entries generalizing k with
  | nil => exact absurd hhigh (not_lt.mpr hlow)
  | cons e rest ih =>
      cases e with
      | call f =>
          obtain ⟨x, hx, hl⟩ := ih hlow hhigh
          exact ⟨x, List.mem_cons_of_mem _ hx, hl⟩
      | block b =>
          have hnext : UInt8.ofNat k + 1 = UInt8.ofNat (k + 1) := (UInt8.ofNat_add k 1).symm
          rw [zip_labels_block, hnext]
          rw [blocks, List.length_cons] at hhigh
          rcases Nat.eq_or_lt_of_le hlow with rfl | hlt
          · obtain ⟨f, hf⟩ := List.exists_mem_of_ne_nil _ b.calls_ne
            exact ⟨_, List.mem_append_left _ (List.mem_map_of_mem hf), rfl⟩
          · obtain ⟨x, hx, hl⟩ := ih hlt (by omega)
            exact ⟨x, List.mem_append_right _ hx, hl⟩

/-- The functions of a block and their labels, among the others. -/
theorem exists_split {entries : List Entry} {k j : Nat} {b : Block}
    (h : (blocks entries)[j]? = some b) :
    ∃ ls ms fs gs, ls.length = fs.length ∧
      labels k entries = ls ++ (List.replicate b.calls.length (some (k + j)) ++ ms) ∧
      readEntries (UInt8.ofNat k) entries =
        fs ++ ((Entry.block b).read (UInt8.ofNat (k + j)) ++ gs) := by
  induction entries generalizing k j with
  | nil => cases h
  | cons e rest ih =>
      cases e with
      | call f =>
          obtain ⟨ls, ms, fs, gs, hlength, hlabels, hread⟩ := @ih k j h
          refine ⟨none :: ls, ms, f.read 0 0 :: fs, gs, congrArg (· + 1) hlength, ?_, ?_⟩
          · exact congrArg (none :: ·) hlabels
          · exact congrArg (f.read 0 0 :: ·) hread
      | block b' =>
          have hnext : UInt8.ofNat k + 1 = UInt8.ofNat (k + 1) := (UInt8.ofNat_add k 1).symm
          cases j with
          | zero =>
              obtain rfl := Option.some.inj h
              exact ⟨[], labels (k + 1) rest, [], readEntries (UInt8.ofNat k + 1) rest, rfl, rfl,
                rfl⟩
          | succ j =>
              obtain ⟨ls, ms, fs, gs, hlength, hlabels, hread⟩ := @ih (k + 1) j h
              rw [show k + 1 + j = k + (j + 1) by omega] at hlabels hread
              refine ⟨List.replicate b'.calls.length (some k) ++ ls, ms,
                (Entry.block b').read (UInt8.ofNat k) ++ fs, gs, ?_, ?_, ?_⟩
              · rw [List.length_append, List.length_append, hlength, List.length_replicate,
                  Entry.read, List.length_map]
              · rw [labels, hlabels, List.append_assoc]
              · rw [readEntries, Entry.next, hnext, hread, List.append_assoc]

/-- One byte tells 256 blocks apart. -/
theorem ids_iff (entries : List Entry) :
    (∀ x ∈ (labels 0 entries).zip (functions entries),
      ∀ y ∈ (labels 0 entries).zip (functions entries), ∀ k l, x.1 = some k → y.1 = some l →
        (x.2.mChanceID = y.2.mChanceID ↔ k = l)) ↔ (blocks entries).length ≤ 256 := by
  rw [functions_eq]
  constructor
  · intro h
    by_contra hmany
    obtain ⟨x, hx, hzero⟩ := @exists_mem_zip entries 0 0 (le_refl 0) (by omega)
    obtain ⟨y, hy, hlast⟩ := @exists_mem_zip entries 0 256 (by omega) (by omega)
    have hsame : x.2.mChanceID = y.2.mChanceID := by
      rw [(id_of_mem_zip hx hzero).1, (id_of_mem_zip hy hlast).1]
      rfl
    exact absurd ((h x hx y hy 0 256 hzero hlast).mp hsame) (by decide)
  · intro hfew x hx y hy k l hk hl
    obtain ⟨hidx, -, hxhigh⟩ := @id_of_mem_zip entries 0 k x hx hk
    obtain ⟨hidy, -, hyhigh⟩ := @id_of_mem_zip entries 0 l y hy hl
    rw [hidx, hidy]
    constructor
    · intro heq
      have hnat := congrArg UInt8.toNat heq
      rw [UInt8.toNat_ofNat', UInt8.toNat_ofNat'] at hnat
      omega
    · exact congrArg UInt8.ofNat

/-- The event lists that are read as they were meant. -/
theorem parses_iff (entries : List Entry) :
    Parses entries ↔
      (∀ e ∈ entries, ∀ f ∈ e.calls, f.Legible) ∧ (blocks entries).length ≤ 256 := by
  have hcalls : (functions entries).map (fun f => (f.mFunctionName, f.mArguments)) =
      (entries.flatMap Entry.calls).map
        fun f => (f.name, (written f.args).map Crafting.trimWhitespace) := by
    rw [functions_eq]
    exact readEntries_map (fun _ _ _ => rfl) 0 entries
  have hlegible : (functions entries).map (fun f => (f.mFunctionName, f.mArguments)) =
      (entries.flatMap Entry.calls).map (fun f => (f.name, f.args.map trim)) ↔
        ∀ e ∈ entries, ∀ f ∈ e.calls, f.Legible := by
    rw [hcalls, List.map_inj_left, List.forall_mem_flatMap]
    simp only [Prod.mk.injEq, true_and, Call.legible_iff]
  constructor
  · intro h
    exact ⟨hlegible.mp h.calls, (ids_iff entries).mp h.ids⟩
  · rintro ⟨hl, hfew⟩
    refine ⟨hlegible.mpr hl, ?_, (ids_iff entries).mpr hfew⟩
    rw [functions_eq]
    exact readEntries_chances 0 entries

end Iceee.Ability
