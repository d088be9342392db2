import Mathlib

/-!
# A store of hashes and lists

The commands of a key-value server that keeps hashes and lists, as its documentation gives
them: `HMSET` merges fields into a hash, `HGETALL` returns each field once, `LREM` with
count 0 removes every copy, `RPUSH` appends, `DEL` removes a key. A missing hash is an
empty one, and so is a missing list.
-/

namespace Iceee.Lib

/-- Hashes from fields to values, and lists of keys. -/
structure Redis (κ φ ν : Type*) where
  hashes : κ → AList fun _ : φ => ν := fun _ => ∅
  lists : κ → List κ := fun _ => []

namespace Redis

variable {κ φ ν : Type*} [DecidableEq κ] [DecidableEq φ]

def hgetall (r : Redis κ φ ν) (k : κ) : List (φ × ν) :=
  (r.hashes k).entries.map fun e => (e.1, e.2)

def hmset (r : Redis κ φ ν) (k : κ) (fields : List (φ × ν)) : Redis κ φ ν :=
  { r with
    hashes := Function.update r.hashes k
      (fields.foldl (fun h field => h.insert field.1 field.2) (r.hashes k)) }

def lrange (r : Redis κ φ ν) (k : κ) : List κ := r.lists k

def lrem (r : Redis κ φ ν) (k value : κ) : Redis κ φ ν :=
  { r with lists := Function.update r.lists k ((r.lists k).filter (· ≠ value)) }

def rpush (r : Redis κ φ ν) (k value : κ) : Redis κ φ ν :=
  { r with lists := Function.update r.lists k (r.lists k ++ [value]) }

def del (r : Redis κ φ ν) (k : κ) : Redis κ φ ν where
  hashes := Function.update r.hashes k ∅
  lists := Function.update r.lists k []

/-- What a field of a hash holds. -/
def field (r : Redis κ φ ν) (k : κ) (f : φ) : Option ν := (r.hashes k).lookup f

omit [DecidableEq κ] in
/-- Searching the reply to `HGETALL` finds what the field holds. -/
theorem lookup_hgetall (r : Redis κ φ ν) (k : κ) (f : φ) :
    (r.hgetall k).lookup f = r.field k f := by
  unfold hgetall field AList.lookup
  induction (r.hashes k).entries with
  | nil => rfl
  | cons e rest ih =>
      obtain ⟨g, v⟩ := e
      rw [List.map_cons, List.lookup_cons]
      by_cases h : f = g
      · subst h
        simp
      · rw [List.dlookup_cons_ne _ _ h, ← ih, beq_false_of_ne h]

theorem hmset_append (r : Redis κ φ ν) (k : κ) (xs ys : List (φ × ν)) :
    r.hmset k (xs ++ ys) = (r.hmset k xs).hmset k ys := by
  simp [hmset, List.foldl_append]

/-- Setting one field. -/
theorem field_hmset_singleton (r : Redis κ φ ν) (k k' : κ) (f f' : φ) (v : ν) :
    (r.hmset k [(f, v)]).field k' f' = if k' = k ∧ f' = f then some v else r.field k' f' := by
  unfold field hmset
  by_cases hk : k' = k
  · subst hk
    by_cases hf : f' = f
    · subst hf
      simp
    · simp [hf, AList.lookup_insert_ne hf]
  · simp [hk]

theorem hmset_lrem (r : Redis κ φ ν) (k l v : κ) (xs : List (φ × ν)) :
    (r.hmset k xs).lrem l v = (r.lrem l v).hmset k xs := rfl

theorem hmset_rpush (r : Redis κ φ ν) (k l v : κ) (xs : List (φ × ν)) :
    (r.hmset k xs).rpush l v = (r.rpush l v).hmset k xs := rfl

omit [DecidableEq φ] in
/-- Moving a value to the end of a list twice moves it there once. -/
theorem move_move (r : Redis κ φ ν) (l v : κ) :
    (((r.lrem l v).rpush l v).lrem l v).rpush l v = (r.lrem l v).rpush l v := by
  simp [lrem, rpush, List.filter_filter]

omit [DecidableEq φ] in
theorem mem_lrange_move (r : Redis κ φ ν) (l v k : κ) :
    k ∈ ((r.lrem l v).rpush l v).lrange l ↔ k = v ∨ k ∈ r.lrange l := by
  simp only [lrem, rpush, lrange, Function.update_self, List.mem_append, List.mem_filter,
    List.mem_singleton, decide_eq_true_eq]
  by_cases h : k = v
  · simp [h]
  · simp [h]

theorem field_foldl_del (ks : List κ) (r : Redis κ φ ν) (k : κ) (f : φ) :
    (ks.foldl del r).field k f = if k ∈ ks then none else r.field k f := by
  induction ks generalizing r with
  | nil => simp
  | cons k' rest ih =>
      rw [List.foldl_cons, ih]
      by_cases hk : k = k'
      · subst hk
        simp [field, del]
      · simp [hk, field, del]

omit [DecidableEq φ] in
theorem lrange_foldl_del {ks : List κ} {l : κ} (h : l ∉ ks) (r : Redis κ φ ν) :
    (ks.foldl del r).lrange l = r.lrange l := by
  induction ks generalizing r with
  | nil => rfl
  | cons k' rest ih =>
      rw [List.mem_cons, not_or] at h
      rw [List.foldl_cons, ih h.2]
      simp [lrange, del, h.1]

end Redis

end Iceee.Lib
