import Iceee.Cluster.Entity
import Iceee.Lib.Trace

/-!
# What the cluster returns of an entity

`End` groups the values by section before it writes them; the result is that of writing
them one by one. A section that is written again keeps the fields that are not written, and
a section that is not written goes. So an entity is read back as it was written when every
field that one of its sections already has is written again.
-/

namespace Iceee

open Lib

/-- The value an entity was last given under a key of a section. -/
def valueOf (vals : List ClusterEntityStringValue) (sec key : String) : Option Text :=
  (vals.reverse.find? fun v =>
    EntityKey.sectionName v.sec = EntityKey.sectionName sec ∧ v.key = key).map
      ClusterEntityStringValue.value

theorem valueOf_append (vals later : List ClusterEntityStringValue) (sec key : String) :
    valueOf (vals ++ later) sec key = (valueOf later sec key).or (valueOf vals sec key) := by
  unfold valueOf
  rw [List.reverse_append, List.find?_append]
  cases later.reverse.find? _ <;> rfl

theorem valueOf_nil (sec key : String) : valueOf [] sec key = none := rfl

theorem valueOf_cons (v : ClusterEntityStringValue) (vals : List ClusterEntityStringValue)
    (sec key : String) :
    valueOf (v :: vals) sec key =
      (valueOf vals sec key).or
        (if EntityKey.sectionName v.sec = EntityKey.sectionName sec ∧ v.key = key then
          some v.value
        else none) := by
  rw [← List.singleton_append, valueOf_append]
  congr 1
  by_cases h : EntityKey.sectionName v.sec = EntityKey.sectionName sec ∧ v.key = key
  · rw [if_pos h]
    simp [valueOf, h]
  · rw [if_neg h]
    simp [valueOf, h]

namespace ClusterEntityWriter

variable {k : EntityKey} {c : Client × List String} {vals : List ClusterEntityStringValue}

/-- Write one value by itself. -/
def put (k : EntityKey) (c : Client × List String) (val : ClusterEntityStringValue) :
    Client × List String :=
  let secKey := k.sectionKey val.sec
  (((c.1.lrem k.listKey secKey).rpush k.listKey secKey).hmset secKey [(val.key, val.value)],
    c.2.filter (· ≠ secKey))

theorem flush_endStep (k : EntityKey) (st : EndState) (val : ClusterEntityStringValue) :
    flush k (endStep k st val) = put k (flush k st) val := by
  unfold endStep
  by_cases hsec : val.sec = st.sec
  · rw [if_neg (not_not.mpr hsec)]
    cases ha : st.a with
    | nil => simp [flush, put, ha, hsec]
    | cons x rest =>
        have hne : st.a.isEmpty = false := by simp [ha]
        have hne' : (st.a ++ [(val.key, val.value)]).isEmpty = false := by simp
        rw [← ha]
        simp only [flush, put, hne, hne', hsec, Bool.false_eq_true, if_false]
        rw [Redis.hmset_append, Redis.hmset_lrem, Redis.hmset_rpush, Redis.move_move]
        simp
  · rw [if_pos hsec]
    rfl

/-- The grouping by sections is not visible in the store. -/
theorem finish_eq (w : ClusterEntityWriter) (client : Client) :
    w.finish client =
      (w.mStringValues.foldl (put w.key) (client, client.lrange w.key.listKey)).2.foldl Redis.del
        (w.mStringValues.foldl (put w.key) (client, client.lrange w.key.listKey)).1 := by
  have hfold (vals : List ClusterEntityStringValue) (st : EndState) :
      flush w.key (vals.foldl (endStep w.key) st) = vals.foldl (put w.key) (flush w.key st) := by
    induction vals generalizing st with
    | nil => rfl
    | cons val rest ih => rw [List.foldl_cons, List.foldl_cons, ih, flush_endStep]
  unfold finish
  dsimp only
  rw [hfold]
  rfl

theorem field_put (k : EntityKey) (c : Client × List String) (val : ClusterEntityStringValue)
    (sec f : String) :
    (put k c val).1.field (k.sectionKey sec) f =
      if EntityKey.sectionName val.sec = EntityKey.sectionName sec ∧ val.key = f then
        some val.value
      else c.1.field (k.sectionKey sec) f := by
  unfold put
  rw [Redis.field_hmset_singleton]
  simp only [k.sectionKey_inj, eq_comm]
  rfl

theorem field_foldl_put (vals : List ClusterEntityStringValue) (sec f : String) :
    (vals.foldl (put k) c).1.field (k.sectionKey sec) f =
      (valueOf vals sec f).or (c.1.field (k.sectionKey sec) f) := by
  induction vals using List.reverseRecOn with
  | nil => rfl
  | append_singleton vals val ih =>
      rw [List.foldl_append, List.foldl_cons, List.foldl_nil, field_put, ih]
      unfold valueOf
      rw [List.reverse_append, List.reverse_singleton, List.singleton_append, List.find?_cons]
      by_cases h : EntityKey.sectionName val.sec = EntityKey.sectionName sec ∧ val.key = f
      · simp [h]
      · rw [if_neg h, decide_eq_false h]

theorem mem_put_snd (k : EntityKey) (c : Client × List String) (val : ClusterEntityStringValue)
    (secKey : String) : secKey ∈ (put k c val).2 ↔ secKey ∈ c.2 ∧ k.sectionKey val.sec ≠ secKey := by
  unfold put
  rw [List.mem_filter, decide_eq_true_eq, ne_comm]

theorem mem_foldl_put_snd (vals : List ClusterEntityStringValue) (secKey : String) :
    secKey ∈ (vals.foldl (put k) c).2 ↔
      secKey ∈ c.2 ∧ ∀ v ∈ vals, k.sectionKey v.sec ≠ secKey := by
  induction vals using List.reverseRecOn with
  | nil => simp
  | append_singleton vals val ih =>
      rw [List.foldl_append, List.foldl_cons, List.foldl_nil]
      rw [mem_put_snd, ih, and_assoc, List.forall_mem_append, List.forall_mem_singleton]

theorem mem_lrange_foldl_put (vals : List ClusterEntityStringValue) (secKey : String) :
    secKey ∈ (vals.foldl (put k) c).1.lrange k.listKey ↔
      secKey ∈ c.1.lrange k.listKey ∨ ∃ v ∈ vals, k.sectionKey v.sec = secKey := by
  induction vals using List.reverseRecOn with
  | nil => simp
  | append_singleton vals val ih =>
      rw [List.foldl_append, List.foldl_cons, List.foldl_nil]
      have hput : secKey ∈ (put k (vals.foldl (put k) c) val).1.lrange k.listKey ↔
          secKey = k.sectionKey val.sec ∨ secKey ∈ (vals.foldl (put k) c).1.lrange k.listKey :=
        Redis.mem_lrange_move _ _ _ _
      rw [hput, ih]
      simp only [List.mem_append, List.mem_singleton, or_and_right, exists_or, exists_eq_left]
      constructor
      · rintro (h | h | h)
        · exact .inr (.inr h.symm)
        · exact .inl h
        · exact .inr (.inl h)
      · rintro (h | h | h)
        · exact .inr (.inl h)
        · exact .inr (.inr h)
        · exact .inl h.symm

end ClusterEntityWriter

/-- The list of sections is right: it holds section keys only, and the key of every section
that has a field. -/
structure Registered (k : EntityKey) (client : Client) : Prop where
  sections : ∀ secKey ∈ client.lrange k.listKey, ∃ sec, secKey = k.sectionKey sec
  listed : ∀ sec f, (client.field (k.sectionKey sec) f).isSome →
    k.sectionKey sec ∈ client.lrange k.listKey

theorem EntityKey.sectionKey_ne_listKey (k : EntityKey) (sec : String) :
    k.sectionKey sec ≠ k.listKey := by
  unfold EntityKey.sectionKey EntityKey.listKey
  intro h
  have hrest : ":" ++ sectionName sec = "^" ++ "_SUBKEYS_" := by
    rw [← String.append_right_inj (k.mCatalog ++ ":" ++ k.mID), ← String.append_assoc, h,
      String.append_assoc]
  have hhead := congrArg (fun s => s.toList.head?) hrest
  simp at hhead

namespace ClusterEntityWriter

variable {k : EntityKey} {client : Client} {vals : List ClusterEntityStringValue}

/-- What `End` leaves in a section: the sections that are written keep the fields that are
not written, and the others go. -/
theorem field_finish_of_mem (client : Client) (mSection : String) {sec : String}
    (hsec : ∃ v ∈ vals, EntityKey.sectionName v.sec = EntityKey.sectionName sec) (f : String) :
    (finish ⟨k, mSection, vals⟩ client).field (k.sectionKey sec) f =
      (valueOf vals sec f).or (client.field (k.sectionKey sec) f) := by
  have hkept : k.sectionKey sec ∉
      (vals.foldl (put k) (client, client.lrange k.listKey)).2 := by
    rw [mem_foldl_put_snd]
    rintro ⟨-, hnone⟩
    obtain ⟨v, hv, hname⟩ := hsec
    exact hnone v hv (k.sectionKey_inj.mpr hname)
  rw [finish_eq, Redis.field_foldl_del, if_neg hkept, field_foldl_put]

theorem valueOf_eq_none {sec : String}
    (hsec : ¬∃ v ∈ vals, EntityKey.sectionName v.sec = EntityKey.sectionName sec) (f : String) :
    valueOf vals sec f = none := by
  unfold valueOf
  rw [Option.map_eq_none_iff, List.find?_eq_none]
  intro v hv
  rw [decide_eq_true_eq]
  rintro ⟨hname, -⟩
  exact hsec ⟨v, List.mem_reverse.mp hv, hname⟩

theorem field_finish_of_notMem (hreg : Registered k client) (mSection : String) {sec : String}
    (hsec : ¬∃ v ∈ vals, EntityKey.sectionName v.sec = EntityKey.sectionName sec) (f : String) :
    (finish ⟨k, mSection, vals⟩ client).field (k.sectionKey sec) f = none := by
  rw [finish_eq, Redis.field_foldl_del, field_foldl_put, valueOf_eq_none hsec, Option.none_or]
  apply ite_eq_left_iff.mpr
  intro hcleared
  rw [mem_foldl_put_snd] at hcleared
  cases hf : client.field (k.sectionKey sec) f with
  | none => rfl
  | some value =>
      have hlisted := hreg.listed sec f (by rw [hf]; rfl)
      refine absurd ⟨hlisted, ?_⟩ hcleared
      intro v hv hkey
      exact hsec ⟨v, hv, k.sectionKey_inj.mp hkey⟩

/-- `End` keeps the list of sections right. -/
theorem registered_finish (hreg : Registered k client) (mSection : String) :
    Registered k (finish ⟨k, mSection, vals⟩ client) := by
  have hlist (secKey : String) :
      secKey ∈ (finish ⟨k, mSection, vals⟩ client).lrange k.listKey ↔
        secKey ∈ client.lrange k.listKey ∨ ∃ v ∈ vals, k.sectionKey v.sec = secKey := by
    rw [finish_eq, Redis.lrange_foldl_del, mem_lrange_foldl_put]
    intro hmem
    obtain ⟨hmem, -⟩ := (mem_foldl_put_snd vals k.listKey).mp hmem
    obtain ⟨sec, hsec⟩ := hreg.sections _ hmem
    exact k.sectionKey_ne_listKey sec hsec.symm
  constructor
  · intro secKey hmem
    obtain hmem | ⟨v, -, rfl⟩ := (hlist secKey).mp hmem
    · exact hreg.sections secKey hmem
    · exact ⟨v.sec, rfl⟩
  · intro sec f hsome
    rw [hlist]
    by_cases hsec : ∃ v ∈ vals, EntityKey.sectionName v.sec = EntityKey.sectionName sec
    · obtain ⟨v, hv, hname⟩ := hsec
      exact .inr ⟨v, hv, k.sectionKey_inj.mpr hname⟩
    · rw [field_finish_of_notMem hreg mSection hsec] at hsome
      exact absurd hsome (by simp)

end ClusterEntityWriter

/-- What the earlier `End` calls for an entity left in an empty store. -/
def stored (k : EntityKey) (hist : List (List ClusterEntityStringValue)) : Client :=
  hist.foldl
    (fun client vals => ClusterEntityWriter.finish { key := k, mStringValues := vals } client) {}

theorem registered_stored (k : EntityKey) (hist : List (List ClusterEntityStringValue)) :
    Registered k (stored k hist) := by
  induction hist using List.reverseRecOn with
  | nil =>
      exact ⟨fun _ h => absurd h List.not_mem_nil,
        fun _ _ h => absurd h (by simp [stored, Redis.field])⟩
  | append_singleton hist vals ih =>
      unfold stored
      rw [List.foldl_append]
      exact ClusterEntityWriter.registered_finish ih ""

namespace ClusterEntityReader

variable {rd : ClusterEntityReader} {client : Client}

/-- What a reader keeps of a section is what the store holds. -/
def Fresh (client : Client) (rd : ClusterEntityReader) : Prop :=
  ∀ sec fields, rd.mValues.lookup sec = some fields →
    fields = client.hgetall (rd.key.sectionKey sec)

theorem fresh_checkLoaded (h : rd.Fresh client) : (rd.checkLoaded client).Fresh client := by
  unfold checkLoaded
  split
  · exact h
  · intro sec fields hlookup
    rw [List.lookup_cons] at hlookup
    split at hlookup
    · rename_i heq
      rw [beq_iff_eq] at heq
      rw [heq, ← Option.some.inj hlookup]
    · exact h sec fields hlookup

theorem loaded_eq (h : rd.Fresh client) :
    rd.loaded client = client.hgetall (rd.key.sectionKey rd.mSection) := by
  have hfresh := fresh_checkLoaded h
  have hsome : ((rd.checkLoaded client).mValues.lookup rd.mSection).isSome := by
    unfold checkLoaded
    split
    · assumption
    · simp
  obtain ⟨fields, hfields⟩ := Option.isSome_iff_exists.mp hsome
  have hkey : (rd.checkLoaded client).key = rd.key := by
    unfold checkLoaded
    split <;> rfl
  unfold loaded
  rw [hfields, Option.getD_some, hfresh _ _ hfields, hkey]

/-- A reader answers what the field holds, or the default. -/
theorem value_eq (h : rd.Fresh client) (key : String) (defaultValue : Text) :
    rd.value client key defaultValue =
      (client.field (rd.key.sectionKey rd.mSection) key).getD defaultValue := by
  unfold value
  rw [loaded_eq h, Redis.lookup_hgetall]

theorem fresh_new (k : EntityKey) (sec : String) (client : Client) :
    Fresh client { key := k, mSection := sec } := fun _ _ h => by simp at h

end ClusterEntityReader

/-- Every field that a section of the entity already has is written again with it. -/
def Overwrites (k : EntityKey) (client : Client) (vals : List ClusterEntityStringValue) : Prop :=
  ∀ v ∈ vals, ∀ f, (client.field (k.sectionKey v.sec) f).isSome → (valueOf vals v.sec f).isSome

theorem valueOf_congr (vals : List ClusterEntityStringValue) {sec sec' : String}
    (h : EntityKey.sectionName sec = EntityKey.sectionName sec') (f : String) :
    valueOf vals sec f = valueOf vals sec' f := by
  unfold valueOf
  rw [h]

/-- An entity is read back as it was written last exactly when the sections it has in the
store have no field that is not written again. -/
theorem reads_back_iff_overwrites (k : EntityKey) (hist : List (List ClusterEntityStringValue))
    (vals : List ClusterEntityStringValue) :
    (∀ sec key defaultValue,
      ClusterEntityReader.value { key := k, mSection := sec }
        (ClusterEntityWriter.finish { key := k, mStringValues := vals } (stored k hist))
        key defaultValue = (valueOf vals sec key).getD defaultValue) ↔
      Overwrites k (stored k hist) vals := by
  have hreg := registered_stored k hist
  have hread (sec key : String) (defaultValue : Text) :
      ClusterEntityReader.value { key := k, mSection := sec }
        (ClusterEntityWriter.finish { key := k, mStringValues := vals } (stored k hist))
        key defaultValue =
      ((ClusterEntityWriter.finish { key := k, mStringValues := vals } (stored k hist)).field
        (k.sectionKey sec) key).getD defaultValue :=
    ClusterEntityReader.value_eq (ClusterEntityReader.fresh_new k sec _) key defaultValue
  constructor
  · intro hall v hv f hsome
    obtain ⟨old, hold⟩ := Option.isSome_iff_exists.mp hsome
    cases hval : valueOf vals v.sec f with
    | some _ => rfl
    | none =>
        -- A default that is not the old value shows that the old value is still there.
        have hgot := hall v.sec f ('+' :: old)
        rw [hread, ClusterEntityWriter.field_finish_of_mem _ _ ⟨v, hv, rfl⟩, hval, hold] at hgot
        simp at hgot
  · intro hover sec key defaultValue
    rw [hread]
    by_cases hsec : ∃ v ∈ vals, EntityKey.sectionName v.sec = EntityKey.sectionName sec
    · rw [ClusterEntityWriter.field_finish_of_mem _ _ hsec]
      obtain ⟨v, hv, hname⟩ := hsec
      have hagain := hover v hv key
      rw [k.sectionKey_inj.mpr hname, valueOf_congr vals hname] at hagain
      cases hval : valueOf vals sec key with
      | some value => rfl
      | none =>
          rw [hval] at hagain
          cases hold : (stored k hist).field (k.sectionKey sec) key with
          | none => rfl
          | some old => exact absurd (hagain (by rw [hold]; rfl)) (by simp)
    · rw [ClusterEntityWriter.field_finish_of_notMem hreg _ hsec,
        ClusterEntityWriter.valueOf_eq_none hsec]

/-! ### Writing in the first section -/

/-- A writer of an entity is in its first section and has collected some values. -/
def ClusterEntityWriter.Wrote (w : ClusterEntityWriter) (k : EntityKey)
    (vals : List ClusterEntityStringValue) : Prop := w = ⟨k, "", vals⟩

namespace ClusterEntityWriter.Wrote

variable {w w' : ClusterEntityWriter} {k : EntityKey} {vals more : List ClusterEntityStringValue}

theorem new (k : EntityKey) : Wrote { key := k } k [] := rfl

theorem value (h : w.Wrote k vals) (key : String) (t : Text) :
    (w.value key t).Wrote k (vals ++ [⟨"", key, t⟩]) := by
  rw [show w = ⟨k, "", vals⟩ from h]
  rfl

theorem valueInt (h : w.Wrote k vals) (key : String) (i : Int) :
    (w.valueInt key i).Wrote k (vals ++ [⟨"", key, printInt i⟩]) := h.value key (printInt i)

/-- Values that are written under a condition. -/
theorem ite (c : Prop) [Decidable c] (h : w.Wrote k vals) (h' : w'.Wrote k (vals ++ more)) :
    (if c then w' else w).Wrote k (vals ++ if c then more else []) := by
  split
  · exact h'
  · rwa [List.append_nil]

end ClusterEntityWriter.Wrote

theorem valueOf_ite (c : Prop) [Decidable c] (vals : List ClusterEntityStringValue)
    (sec key : String) :
    valueOf (if c then vals else []) sec key = if c then valueOf vals sec key else none := by
  split <;> rfl

/-- A character that had copper is written without the stat, as a character that has none:
the old amount is read back. -/
theorem omitted_field_survives :
    ClusterEntityReader.value { key := ⟨"CharacterData", "1"⟩, mSection := "STATS" }
        (ClusterEntityWriter.finish
          { key := ⟨"CharacterData", "1"⟩, mStringValues := [⟨"STATS", "level", ['1']⟩] }
          (stored ⟨"CharacterData", "1"⟩ [[⟨"STATS", "level", ['1']⟩, ⟨"STATS", "copper", ['5']⟩]]))
        "copper" ['0'] ≠
      (valueOf [⟨"STATS", "level", ['1']⟩] "STATS" "copper").getD ['0'] := by
  decide

end Iceee
