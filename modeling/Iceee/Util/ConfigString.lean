import Iceee.Lib.Trace
import Iceee.Util.Split

/-!
# Configuration strings

A list of keys with values, written as `foo=1&bar=whatever`. The numbers of a repeated key are read
of its first entry and the text of its last one, and nothing is assigned of an empty text.
Floating-point numbers are a parameter, with how `atof` reads them.

## Main results

* `ConfigString.faithful_iff`: what the content must be like for the string to be a map.
* `ConfigString.run_faithful_iff`: the runs that keep it so.
-/

namespace Iceee.Util

open Lib

structure ConfigString where
  mData : List (List Text) := []
  deriving DecidableEq, Repr

namespace ConfigString

/-- The entry has the key. -/
def hasKeyAt (key : Text) (values : List Text) : Bool := values.head? == some key

/-- The values of a pair; there are at least two. -/
def pairValues (pair : Text) : List Text :=
  let values := split pair ['=']
  values ++ List.replicate (2 - values.length) []

/-- `Assign`. -/
def assign (c : ConfigString) (data : Text) : ConfigString :=
  if data.length = 0 then c else { mData := (split data ['&']).map pairValues }

/-- The value that the loops of `GetValueIntOrDefault` and `GetValueFloatOrDefault` stop at. -/
def firstValue (c : ConfigString) (key : Text) : Option Text :=
  (c.mData.find? (hasKeyAt key)).bind fun values => values[1]?

/-- `GetValueIntOrDefault`. -/
def getValueIntOrDefault (c : ConfigString) (key : Text) (default : Int) : Int :=
  match c.firstValue key with
  | some value => atoi value
  | none => default

/-- `GetValueFloatOrDefault`. -/
def getValueFloatOrDefault {F : Type*} (atof : Text → F) (c : ConfigString) (key : Text)
    (default : F) : F :=
  match c.firstValue key with
  | some value => atof value
  | none => default

/-- `GetValueInt`. -/
def getValueInt (c : ConfigString) (key : Text) : Int := c.getValueIntOrDefault key 0

/-- `GetValueString`; its loop goes on after an entry with the key. -/
def getValueString (c : ConfigString) (key : Text) : Text :=
  c.mData.foldl (fun output values =>
    if hasKeyAt key values then values[1]?.getD output else output) []

/-- `HasKey`. -/
def hasKey (c : ConfigString) (key : Text) : Bool := c.mData.any (hasKeyAt key)

/-- `SetKeyValue`. -/
def setKeyValue (c : ConfigString) (key value : Text) : ConfigString :=
  match c.mData.findIdx? (hasKeyAt key) with
  | some i => { mData := c.mData.modify i fun values => values.set 1 value }
  | none => { mData := c.mData ++ [[key, value]] }

/-- What `GenerateString` writes of an entry. -/
def entryString (values : List Text) : Text :=
  values.getD 0 [] ++ (if values.length > 0 then '=' :: values.getD 1 [] else [])

/-- `GenerateString`. -/
def generateString (c : ConfigString) : Text := join (c.mData.map entryString) ['&']

/-! ### A map -/

/-- A key or a value: it has no separator. -/
def Free (t : Text) : Prop := '&' ∉ t ∧ '=' ∉ t

instance : DecidablePred Free := fun _ => inferInstanceAs (Decidable (_ ∧ _))

/-- What all getters see of a key. -/
structure SameAt {F : Type*} (atof : Text → F) (c c' : ConfigString) (key : Text) : Prop where
  string : c.getValueString key = c'.getValueString key
  int : ∀ d, c.getValueIntOrDefault key d = c'.getValueIntOrDefault key d
  float : ∀ d, c.getValueFloatOrDefault atof key d = c'.getValueFloatOrDefault atof key d

/-- All getters see a value for a key. -/
structure Sees {F : Type*} (atof : Text → F) (c : ConfigString) (key value : Text) : Prop where
  string : c.getValueString key = value
  int : ∀ d, c.getValueIntOrDefault key d = atoi value
  float : ∀ d, c.getValueFloatOrDefault atof key d = atof value

/-- The string is a map that can be written and read, changed at a key, and asked for its values. -/
structure Faithful {F : Type*} (atof : Text → F) (c : ConfigString) : Prop where
  regenerate : ({} : ConfigString).assign c.generateString = c
  set : ∀ key value, Free key → Free value → (c.setKeyValue key value).Sees atof key value
  other : ∀ key value, Free key → Free value → ∀ key' ≠ key,
    (c.setKeyValue key value).SameAt atof c key'
  same : ∀ key, c.hasKey key → c.Sees atof key (c.getValueString key)

/-- Every entry has one value, and no key is repeated. -/
structure Keyed (c : ConfigString) : Prop where
  pairs : ∀ values ∈ c.mData, ∃ key value, values = [key, value]
  nodup : (c.mData.map List.head?).Nodup

/-- What any content is like: an entry has a key and some values without separators. -/
def Wellformed (c : ConfigString) : Prop :=
  ∀ values ∈ c.mData, 2 ≤ values.length ∧ ∀ t ∈ values, Free t

/-! ### The entries of a key -/

section Lists

variable {α : Type*} {p q : α → Bool} {f : α → α} {a : α}

/-- Change the first element that satisfies `p`, or add `a`. -/
def modifyOrAppend (p : α → Bool) (f : α → α) (a : α) (l : List α) : List α :=
  (l.findIdx? p).elim (l ++ [a]) fun i => l.modify i f

theorem modifyOrAppend_cons_of_pos {x : α} (hx : p x = true) (l : List α) :
    modifyOrAppend p f a (x :: l) = f x :: l := by
  unfold modifyOrAppend
  rw [List.findIdx?_cons, if_pos hx]
  rfl

theorem modifyOrAppend_cons_of_neg {x : α} (hx : ¬p x = true) (l : List α) :
    modifyOrAppend p f a (x :: l) = x :: modifyOrAppend p f a l := by
  unfold modifyOrAppend
  rw [List.findIdx?_cons, if_neg hx]
  cases l.findIdx? p <;> rfl

/-- Of the elements that satisfy `p`, only the first is changed. -/
theorem filter_modifyOrAppend (hf : ∀ x, p (f x) = p x) (ha : p a = true) (l : List α) :
    (modifyOrAppend p f a l).filter p =
      if l.filter p = [] then [a] else (l.filter p).modifyHead f := by
  induction l with
  | nil => simp [modifyOrAppend, ha]
  | cons x l ih =>
      by_cases hx : p x = true
      · rw [modifyOrAppend_cons_of_pos hx]
        simp [hf, hx]
      · rw [modifyOrAppend_cons_of_neg hx, List.filter_cons_of_neg hx, List.filter_cons_of_neg hx]
        exact ih

/-- Elements that satisfy `q` are left alone where `p` and `q` exclude each other. -/
theorem filter_modifyOrAppend_of_ne (hpq : ∀ x, p x = true → q x = false)
    (hf : ∀ x, p (f x) = p x) (ha : p a = true) (l : List α) :
    (modifyOrAppend p f a l).filter q = l.filter q := by
  induction l with
  | nil => simp [modifyOrAppend, hpq a ha]
  | cons x l ih =>
      by_cases hx : p x = true
      · have hfx : q (f x) = false := hpq _ ((hf x).trans hx)
        rw [modifyOrAppend_cons_of_pos hx]
        simp [hpq x hx, hfx]
      · rw [modifyOrAppend_cons_of_neg hx, List.filter_cons, List.filter_cons, ih]

/-- What is there afterwards is as before, changed, or new. -/
theorem forall_mem_modifyOrAppend {P : α → Prop} {l : List α} (hl : ∀ x ∈ l, P x)
    (hf : ∀ x, P x → P (f x)) (ha : P a) : ∀ x ∈ modifyOrAppend p f a l, P x := by
  induction l with
  | nil => simpa [modifyOrAppend] using ha
  | cons y l ih =>
      obtain ⟨hy, hl⟩ := List.forall_mem_cons.mp hl
      by_cases hp : p y = true
      · rw [modifyOrAppend_cons_of_pos hp]
        exact List.forall_mem_cons.mpr ⟨hf y hy, hl⟩
      · rw [modifyOrAppend_cons_of_neg hp]
        exact List.forall_mem_cons.mpr ⟨hy, ih hl⟩

end Lists

/-- The entries with a key. -/
def entries (c : ConfigString) (key : Text) : List (List Text) := c.mData.filter (hasKeyAt key)

section Getters

variable {F : Type*} {atof : Text → F} {c c' : ConfigString} {key value : Text}

theorem firstValue_eq (c : ConfigString) (key : Text) :
    c.firstValue key = (c.entries key).head?.bind fun values => values[1]? := by
  unfold firstValue entries
  rw [List.head?_filter]

theorem getValueString_eq (c : ConfigString) (key : Text) :
    c.getValueString key =
      (c.entries key).foldl (fun output values => values[1]?.getD output) [] := by
  unfold getValueString entries
  rw [List.foldl_filter]

/-- The getters see nothing but the entries of the key. -/
theorem sameAt_of_entries (h : c.entries key = c'.entries key) : c.SameAt atof c' key := by
  have hfirst : c.firstValue key = c'.firstValue key := by
    rw [firstValue_eq, firstValue_eq, h]
  constructor
  · rw [getValueString_eq, getValueString_eq, h]
  · intro d
    unfold getValueIntOrDefault
    rw [hfirst]
  · intro d
    unfold getValueFloatOrDefault
    rw [hfirst]

/-- All getters see the value of a single entry. -/
theorem sees_of_entries {values : List Text} (h : c.entries key = [values])
    (hvalue : values[1]? = some value) : c.Sees atof key value := by
  have hfirst : c.firstValue key = some value := by
    rw [firstValue_eq, h]
    exact hvalue
  constructor
  · rw [getValueString_eq, h, List.foldl_cons, List.foldl_nil, hvalue, Option.getD_some]
  · intro d
    unfold getValueIntOrDefault
    rw [hfirst]
  · intro d
    unfold getValueFloatOrDefault
    rw [hfirst]

@[simp] theorem hasKeyAt_cons (key : Text) (rest : List Text) :
    hasKeyAt key (key :: rest) = true := by
  simp [hasKeyAt]

theorem hasKeyAt_set (key value : Text) (values : List Text) :
    hasKeyAt key (values.set 1 value) = hasKeyAt key values := by
  cases values with
  | nil => rfl
  | cons first rest => rfl

theorem setKeyValue_mData (c : ConfigString) (key value : Text) :
    (c.setKeyValue key value).mData =
      modifyOrAppend (hasKeyAt key) (fun values => values.set 1 value) [key, value] c.mData := by
  unfold setKeyValue modifyOrAppend
  cases c.mData.findIdx? (hasKeyAt key) <;> rfl

/-- `SetKeyValue` changes the first entry of the key, or adds one. -/
theorem entries_setKeyValue (c : ConfigString) (key value : Text) :
    (c.setKeyValue key value).entries key =
      if c.entries key = [] then [[key, value]]
      else (c.entries key).modifyHead fun values => values.set 1 value := by
  unfold entries
  rw [setKeyValue_mData]
  exact filter_modifyOrAppend (hasKeyAt_set key value) (hasKeyAt_cons key _) c.mData

theorem entries_setKeyValue_of_ne (c : ConfigString) {key key' : Text} (hne : key' ≠ key)
    (value : Text) : (c.setKeyValue key value).entries key' = c.entries key' := by
  have hexcl (values : List Text) (hkey : hasKeyAt key values = true) :
      hasKeyAt key' values = false := by
    unfold hasKeyAt at hkey ⊢
    rw [beq_iff_eq] at hkey
    rw [hkey]
    simpa using hne.symm
  unfold entries
  rw [setKeyValue_mData]
  exact filter_modifyOrAppend_of_ne hexcl (hasKeyAt_set key value) (hasKeyAt_cons key _) c.mData

end Getters

/-! ### Writing and reading a pair -/

section Written

variable {c : ConfigString} {values : List Text}

/-- The pieces of a pair have no separators. -/
theorem free_of_mem_pairValues {s pair t : Text} (hpair : pair ∈ split s ['&'])
    (ht : t ∈ pairValues pair) : Free t := by
  rcases List.mem_append.mp ht with ht | ht
  · refine ⟨fun hamp => ?_, notMem_of_mem_split ht⟩
    exact notMem_of_mem_split hpair ((infix_of_mem_split ht).subset hamp)
  · rw [List.eq_of_mem_replicate ht]
    exact ⟨List.not_mem_nil, List.not_mem_nil⟩

theorem two_le_length_pairValues (pair : Text) : 2 ≤ (pairValues pair).length := by
  unfold pairValues
  rw [List.length_append, List.length_replicate]
  omega

theorem assign_mData {s : Text} (hs : s ≠ []) (c : ConfigString) :
    (c.assign s).mData = (split s ['&']).map pairValues := by
  unfold assign
  rw [if_neg (mt List.length_eq_zero_iff.mp hs)]

@[simp] theorem assign_nil (c : ConfigString) : c.assign [] = c := rfl

theorem wellformed_assign (hc : c.Wellformed) (s : Text) : (c.assign s).Wellformed := by
  rcases eq_or_ne s [] with rfl | hs
  · exact hc
  · unfold Wellformed
    rw [assign_mData hs]
    intro values hvalues
    obtain ⟨pair, hpair, rfl⟩ := List.mem_map.mp hvalues
    exact ⟨two_le_length_pairValues pair, fun t ht => free_of_mem_pairValues hpair ht⟩

theorem wellformed_setKeyValue (hc : c.Wellformed) {key value : Text} (hkey : Free key)
    (hvalue : Free value) : (c.setKeyValue key value).Wellformed := by
  unfold Wellformed
  rw [setKeyValue_mData]
  refine forall_mem_modifyOrAppend hc ?_ ?_
  · intro values ⟨hlength, hfree⟩
    refine ⟨by rwa [List.length_set], fun t ht => ?_⟩
    exact (List.mem_or_eq_of_mem_set ht).elim (hfree t) fun heq => heq ▸ hvalue
  · simp [hkey, hvalue]

/-- Of an entry, the key and the first value come back. -/
theorem pairValues_entryString (hlength : 2 ≤ values.length) (hfree : ∀ t ∈ values, Free t) :
    pairValues (entryString values) = values.take 2 := by
  obtain _ | ⟨key, _ | ⟨value, rest⟩⟩ := values
  · cases hlength
  · simp at hlength
  · have hkey : '=' ∉ key := (hfree key (by simp)).2
    have hvalue : '=' ∉ value := (hfree value (by simp)).2
    have hsplit : split (entryString (key :: value :: rest)) ['='] = [key, value] :=
      calc split (key ++ '=' :: value) ['=']
        _ = (key ++ '=' :: value).splitOn '=' := split_singleton _ _
        _ = key :: value.splitOn '=' := List.splitOn_append_cons_self_of_not_mem hkey _
        _ = [key, value] := by rw [List.splitOn_eq_singleton hvalue]
    unfold pairValues
    rw [hsplit]
    rfl

/-- What an entry is written as ends where the next one begins. -/
theorem notMem_entryString (hfree : ∀ t ∈ values, Free t) : '&' ∉ entryString values := by
  have hget (i : ℕ) : '&' ∉ values.getD i [] := by
    rw [List.getD_eq_getElem?_getD]
    cases hi : values[i]? with
    | none => exact List.not_mem_nil
    | some t => exact (hfree t (List.mem_of_getElem? hi)).1
  unfold entryString
  rw [List.mem_append, not_or]
  refine ⟨hget 0, ?_⟩
  split
  · exact fun hmem => (List.mem_cons.mp hmem).elim (by decide) (hget 1)
  · exact List.not_mem_nil

/-- Of every entry the key and the first value come back. -/
theorem assign_generateString (hc : c.Wellformed) :
    (({} : ConfigString).assign c.generateString).mData = c.mData.map (·.take 2) := by
  rcases eq_or_ne c.mData [] with hnil | hne
  · unfold generateString
    rw [hnil]
    rfl
  · have hstrings : c.mData.map entryString ≠ [] := mt List.map_eq_nil_iff.mp hne
    have hfree : ∀ t ∈ c.mData.map entryString, ¬['&'] <:+: t := by
      intro t ht
      obtain ⟨values, hvalues, rfl⟩ := List.mem_map.mp ht
      rw [List.singleton_infix_iff]
      exact notMem_entryString (hc values hvalues).2
    have hsplit := (split_join_iff (List.cons_ne_nil _ _) hstrings hfree).mpr (.inl rfl)
    have hwritten : c.generateString ≠ [] := by
      obtain ⟨values, rest, hmData⟩ := List.exists_cons_of_ne_nil hne
      have hentry : entryString values ≠ [] := by
        have hpos := Nat.lt_of_lt_of_le Nat.two_pos (hc values (by simp [hmData])).1
        simp [entryString, hpos]
      unfold generateString
      rw [hmData, List.map_cons]
      exact join_ne_nil hentry _ _
    rw [assign_mData hwritten]
    unfold generateString
    rw [hsplit, List.map_map]
    exact List.map_congr_left fun values hvalues =>
      pairValues_entryString (hc values hvalues).1 (hc values hvalues).2

end Written

/-! ### When the string is a map -/

section Map

variable {F : Type*} {atof : Text → F} {c : ConfigString}

theorem length_entries (c : ConfigString) (key : Text) :
    (c.entries key).length = (c.mData.map List.head?).count (some key) := by
  unfold entries
  rw [← List.countP_eq_length_filter, List.count, List.countP_map]
  rfl

/-- An entry with a key has that key in front. -/
theorem head?_of_mem_entries {key : Text} {values : List Text} (h : values ∈ c.entries key) :
    values.head? = some key := beq_iff_eq.mp (List.mem_filter.mp h).2

/-- No key is repeated where setting it is seen by `GetValueString`. -/
theorem nodup_of_set (hc : c.Wellformed) (hset : ∀ key value, Free key → Free value →
    (c.setKeyValue key value).getValueString key = value) : (c.mData.map List.head?).Nodup := by
  rw [List.nodup_iff_count_le_one]
  intro o
  by_contra hmany
  rw [not_le] at hmany
  -- the entries that the count is of
  obtain ⟨values, hvalues, hhead⟩ :=
    List.mem_map.mp (List.count_pos_iff.mp (Nat.zero_lt_one.trans hmany))
  obtain ⟨hlength, hfree⟩ := hc values hvalues
  obtain ⟨key, others, rfl⟩ :=
    List.exists_cons_of_ne_nil (List.ne_nil_of_length_pos (Nat.two_pos.trans_le hlength))
  rw [List.head?_cons] at hhead
  subst hhead
  rw [← length_entries] at hmany
  -- the value set is in the first of them, and a later one is read
  obtain ⟨first, tail, hentries⟩ :=
    List.exists_cons_of_ne_nil (List.ne_nil_of_length_pos (Nat.zero_lt_one.trans hmany))
  rw [hentries, List.length_cons, Nat.lt_add_left_iff_pos] at hmany
  obtain ⟨second, rest, rfl⟩ := List.exists_cons_of_ne_nil (List.ne_nil_of_length_pos hmany)
  have hsecond : second ∈ c.mData := by
    have hmem : second ∈ c.entries key := by rw [hentries]; simp
    exact (List.mem_filter.mp hmem).1
  obtain ⟨later, hlater⟩ : ∃ later, second[1]? = some later :=
    ⟨_, List.getElem?_eq_getElem (hc second hsecond).1⟩
  have hread (value : Text) : (c.setKeyValue key value).getValueString key =
      rest.foldl (fun output values => values[1]?.getD output) later := by
    rw [getValueString_eq, entries_setKeyValue, hentries, if_neg (List.cons_ne_nil _ _),
      List.modifyHead_cons, List.foldl_cons, List.foldl_cons, hlater, Option.getD_some]
  have hkey : Free key := hfree key List.mem_cons_self
  have hnone : Free [] := ⟨List.not_mem_nil, List.not_mem_nil⟩
  have hone : Free ['a'] := ⟨by decide, by decide⟩
  have heq : ([] : Text) = ['a'] :=
    calc ([] : Text)
      _ = (c.setKeyValue key []).getValueString key := (hset key [] hkey hnone).symm
      _ = (c.setKeyValue key ['a']).getValueString key := by rw [hread, hread]
      _ = ['a'] := hset key ['a'] hkey hone
  cases heq

/-- A key that is not repeated has one entry at most. -/
theorem Keyed.entries (h : c.Keyed) (key : Text) :
    c.entries key = [] ∨ ∃ value, c.entries key = [[key, value]] := by
  have hle : (c.entries key).length ≤ 1 := by
    rw [length_entries]
    exact List.nodup_iff_count_le_one.mp h.nodup _
  rcases Nat.le_one_iff_eq_zero_or_eq_one.mp hle with hzero | hone
  · exact .inl (List.length_eq_zero_iff.mp hzero)
  · obtain ⟨values, hvalues⟩ := List.length_eq_one_iff.mp hone
    have hmem : values ∈ c.entries key := by rw [hvalues]; exact List.mem_singleton_self _
    obtain ⟨key', value, rfl⟩ := h.pairs values (List.mem_filter.mp hmem).1
    obtain rfl : key' = key := Option.some.inj (head?_of_mem_entries hmem)
    exact .inr ⟨value, hvalues⟩

/-- The content must have two texts in each entry, and no key twice. -/
theorem faithful_iff (hc : c.Wellformed) : c.Faithful atof ↔ c.Keyed := by
  constructor
  · intro h
    refine ⟨fun values hvalues => ?_, nodup_of_set hc fun key value hkey hvalue =>
      (h.set key value hkey hvalue).string⟩
    have hmap : c.mData.map (·.take 2) = c.mData.map id := by
      rw [← assign_generateString hc, h.regenerate, List.map_id]
    have htake : values.take 2 = values := List.map_inj_left.mp hmap values hvalues
    refine List.length_eq_two.mp (le_antisymm ?_ (hc values hvalues).1)
    rw [← htake]
    exact List.length_take_le 2 values
  · intro h
    refine ⟨?_, ?_, ?_, ?_⟩
    · have htake : ∀ values ∈ c.mData, values.take 2 = id values := by
        intro values hvalues
        obtain ⟨key, value, rfl⟩ := h.pairs values hvalues
        rfl
      have hmap : c.mData.map (·.take 2) = c.mData :=
        (List.map_congr_left htake).trans (List.map_id c.mData)
      cases c
      exact congrArg mk ((assign_generateString hc).trans hmap)
    · intro key value _ _
      have hentries : (c.setKeyValue key value).entries key = [[key, value]] := by
        rw [entries_setKeyValue]
        rcases h.entries key with hnone | ⟨old, hone⟩
        · rw [if_pos hnone]
        · rw [hone, if_neg (List.cons_ne_nil _ _)]
          rfl
      exact sees_of_entries hentries rfl
    · intro key value _ _ key' hne
      exact sameAt_of_entries (entries_setKeyValue_of_ne c hne value)
    · intro key hkey
      rcases h.entries key with hnone | ⟨value, hone⟩
      · obtain ⟨values, hvalues, hhas⟩ := List.any_eq_true.mp hkey
        exact absurd (List.mem_filter.mpr ⟨hvalues, hhas⟩)
          (List.eq_nil_iff_forall_not_mem.mp hnone values)
      · have hsees : c.Sees atof key value := sees_of_entries hone rfl
        exact hsees.string.symm ▸ hsees

end Map

/-! ### Runs -/

section Run

variable {F : Type*} {atof : Text → F}

/-- What is done to a configuration string. -/
inductive Op where
  | assign (s : Text)
  | set (key value : {t : Text // Free t})
  deriving DecidableEq

def apply (c : ConfigString) : Op → ConfigString
  | .assign s => c.assign s
  | .set key value => c.setKeyValue key value

def step (c : ConfigString) (op : Op) : Option ConfigString := some (c.apply op)

/-- Nothing is left of the earlier content. -/
def Replaces (_ : ConfigString) : Op → ConfigString → Prop
  | .assign s, c' => c' = ({} : ConfigString).assign s
  | .set _ _, _ => True

/-- The text assigned is not empty where there is content, every pair of it has one `=` at most, and
no key is repeated. -/
def Assignable (c : ConfigString) : Op → Prop
  | .assign s =>
      (s = [] → c.mData = []) ∧ (∀ pair ∈ split s ['&'], (split pair ['=']).length ≤ 2) ∧
        ((split s ['&']).map fun pair => (split pair ['=']).head?).Nodup
  | .set _ _ => True

instance (c : ConfigString) : DecidablePred c.Assignable := by
  intro op
  cases op <;> unfold Assignable <;> infer_instance

/-- What is assigned of a text that is not empty. -/
theorem keyed_assign_iff {s : Text} (hs : s ≠ []) (c : ConfigString) :
    (c.assign s).Keyed ↔ (∀ pair ∈ split s ['&'], (split pair ['=']).length ≤ 2) ∧
      ((split s ['&']).map fun pair => (split pair ['=']).head?).Nodup := by
  have hpair (pair : Text) : (∃ key value, pairValues pair = [key, value]) ↔
      (split pair ['=']).length ≤ 2 := by
    rw [← List.length_eq_two]
    unfold pairValues
    rw [List.length_append, List.length_replicate]
    omega
  have hkeys : (c.assign s).mData.map List.head? =
      (split s ['&']).map fun pair => (split pair ['=']).head? := by
    rw [assign_mData hs, List.map_map]
    refine List.map_congr_left fun pair _ => ?_
    exact List.head?_append_of_ne_nil _ (split_ne_nil pair ['='])
  calc (c.assign s).Keyed
    _ ↔ (∀ values ∈ (c.assign s).mData, ∃ key value, values = [key, value]) ∧
        ((c.assign s).mData.map List.head?).Nodup := ⟨fun h => ⟨h.1, h.2⟩, fun h => ⟨h.1, h.2⟩⟩
    _ ↔ _ := by
        rw [hkeys, assign_mData hs, List.forall_mem_map]
        exact and_congr_left' (forall₂_congr fun pair _ => hpair pair)

/-- Setting a key keeps one entry for each key. -/
theorem Keyed.setKeyValue {c : ConfigString} (h : c.Keyed) (key value : Text) :
    (c.setKeyValue key value).Keyed := by
  have hpairs : ∀ values ∈ (c.setKeyValue key value).mData, ∃ k v, values = [k, v] := by
    rw [setKeyValue_mData]
    refine forall_mem_modifyOrAppend h.pairs ?_ ⟨key, value, rfl⟩
    rintro _ ⟨key', value', rfl⟩
    exact ⟨key', value, rfl⟩
  refine ⟨hpairs, List.nodup_iff_count_le_one.mpr fun o => ?_⟩
  cases o with
  | none =>
      refine (List.count_eq_zero_of_not_mem fun hmem => ?_).trans_le (Nat.zero_le 1)
      obtain ⟨values, hvalues, hhead⟩ := List.mem_map.mp hmem
      obtain ⟨key', value', rfl⟩ := hpairs values hvalues
      cases hhead
  | some key' =>
      rw [← length_entries]
      rcases eq_or_ne key' key with rfl | hne
      · rw [entries_setKeyValue]
        rcases h.entries key' with hnone | ⟨old, hone⟩
        · rw [if_pos hnone]
          exact le_rfl
        · rw [hone, if_neg (List.cons_ne_nil _ _)]
          exact le_rfl
      · rw [entries_setKeyValue_of_ne c hne, length_entries]
        exact List.nodup_iff_count_le_one.mp h.nodup _

theorem wellformed_step {c c' : ConfigString} {op : Op} (hc : c.Wellformed)
    (hs : c.step op = some c') : c'.Wellformed := by
  obtain rfl := Option.some.inj hs
  cases op with
  | assign s => exact wellformed_assign hc s
  | set key value => exact wellformed_setKeyValue hc key.2 value.2

/-- A text that can be assigned is all there is of the content, and a map. -/
theorem step_assignable {c c' : ConfigString} {op : Op} (hc : c.Keyed) (hop : c.Assignable op)
    (hs : c.step op = some c') : c'.Keyed ∧ c.Replaces op c' := by
  obtain rfl := Option.some.inj hs
  cases op with
  | assign s =>
      obtain ⟨hempty, hmap⟩ := hop
      rcases eq_or_ne s [] with rfl | hne
      · refine ⟨hc, ?_⟩
        obtain ⟨mData⟩ := c
        exact congrArg mk (hempty rfl)
      · refine ⟨(keyed_assign_iff hne c).mpr hmap, ?_⟩
        exact congrArg mk ((assign_mData hne c).trans (assign_mData hne {}).symm)
  | set key value => exact ⟨hc.setKeyValue key value, trivial⟩

/-- A text of which a map was made, without anything else, could be assigned. -/
theorem assignable_of_step {c c' : ConfigString} {op : Op} (hs : c.step op = some c')
    (hc' : c'.Keyed) (hreplaces : c.Replaces op c') : c.Assignable op := by
  obtain rfl := Option.some.inj hs
  cases op with
  | assign s =>
      rcases eq_or_ne s [] with rfl | hne
      · refine ⟨fun _ => congrArg mData hreplaces, ?_⟩
        rw [split_nil]
        simp [split_nil]
      · exact ⟨fun hnil => absurd hnil hne, (keyed_assign_iff hne c).mp hc'⟩
  | set key value => trivial

/-- Along a run the string is a map of which nothing is left when another text is assigned, exactly
where every text could be assigned. -/
theorem run_faithful_iff {h : List (ConfigString × Op)} {c : ConfigString}
    (run : Trace (fun c => c = {}) (fun _ _ => True) step h c) :
    (c.Faithful atof ∧ ∀ e ∈ h, e.1.Faithful atof ∧
        ∀ c', step e.1 e.2 = some c' → e.1.Replaces e.2 c') ↔
      ∀ e ∈ h, e.1.Assignable e.2 := by
  refine @Trace.sound_iff _ _ _ Assignable _ step (fun c => c.Wellformed ∧ c.Keyed) _ Replaces
    ?_ ?_ ?_ ?_ h c run
  · rintro _ rfl
    exact ⟨fun values hvalues => absurd hvalues List.not_mem_nil,
      fun values hvalues => absurd hvalues List.not_mem_nil, List.nodup_nil⟩
  · intro c ⟨hwell, hkeyed⟩
    exact (faithful_iff hwell).mpr hkeyed
  · intro c op c' ⟨hwell, hkeyed⟩ hop hs
    obtain ⟨hkeyed', hreplaces⟩ := step_assignable hkeyed hop hs
    exact ⟨⟨wellformed_step hwell hs, hkeyed'⟩, hreplaces⟩
  · intro c op c' ⟨hwell, _⟩ hs hfaithful hreplaces
    exact assignable_of_step hs ((faithful_iff (wellformed_step hwell hs)).mp hfaithful) hreplaces

/-- A text is assigned, written, and changed at a key. -/
theorem run_faithful_witness :
    let step₁ := (({} : ConfigString).apply (.assign "a=1&b=2".toList))
    let key : {t : Text // Free t} := ⟨"b".toList, by decide⟩
    let value : {t : Text // Free t} := ⟨"".toList, by decide⟩
    let h := [(step₁, Op.set key value), ({}, .assign "a=1&b=2".toList)]
    ((step₁.apply (.set key value)).Faithful atoi ∧
        ∀ e ∈ h, e.1.Faithful atoi ∧
          ∀ c', step e.1 e.2 = some c' → e.1.Replaces e.2 c') ↔
      ∀ e ∈ h, e.1.Assignable e.2 :=
  run_faithful_iff (.next (.next (.start rfl) trivial rfl) trivial rfl)

/-- What was assigned before is still there, and of a repeated key the last text is read. -/
theorem assign_nil_ne :
    (({} : ConfigString).assign "a=1".toList).assign [] ≠ ({} : ConfigString).assign [] ∧
      let c := ({} : ConfigString).assign "a=1&a=2".toList
      c.getValueInt "a".toList = 1 ∧ c.getValueString "a".toList = "2".toList ∧
        (c.setKeyValue "a".toList "3".toList).getValueString "a".toList = "2".toList := by
  decide +kernel

end Run

end ConfigString

end Iceee.Util
