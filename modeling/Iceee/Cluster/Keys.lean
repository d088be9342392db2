import Iceee.Cluster.Faithful

/-!
# Keys of the cluster

Beside its entities the cluster keeps single keys that hold a text. A key that holds anything
exists, and what `RemoveEntity` removes is found through the list of the sections.

## Implementation notes

An entry of the list of sections is longer than the catalog and the ID, as those that are
written are.
-/

namespace Iceee

open Lib

/-- The keys of the cluster that hold a hash or a list, and those that hold a text. -/
structure KeyStore where
  client : Client := {}
  strings : String → Option Text := fun _ => none

namespace KeyStore

variable (st : KeyStore)

/-- `HasKey`. -/
def hasKey (key : String) : Bool :=
  (st.strings key).isSome || !(st.client.hgetall key).isEmpty || !(st.client.lrange key).isEmpty

/-- `GetKey`. -/
def getKey (key : String) (defaultValue : Text) : Text := (st.strings key).getD defaultValue

/-- `SetKey`. -/
def setKey (key : String) (value : Text) : KeyStore where
  client := st.client.del key
  strings := Function.update st.strings key (some value)

/-- `RemoveKey`. -/
def removeKey (key : String) : KeyStore where
  client := st.client.del key
  strings := Function.update st.strings key none

/-- `WriteEntity`. -/
def writeEntity (w : ClusterEntityWriter) : KeyStore := { st with client := w.finish st.client }

end KeyStore

/-- `Sections`: those that begin with the current section and are not below it. -/
def ClusterEntityReader.sections (rd : ClusterEntityReader) (client : Client) : List String :=
  let mSections := (client.lrange rd.key.listKey).map fun a =>
    String.ofList (a.toList.drop (rd.key.mCatalog.length + rd.key.mID.length + 2))
  mSections.filter fun a =>
    let skipped :=
      if rd.mSection.length = 0 ∨ a.length = rd.mSection.length then 0
      else rd.mSection.length + 1
    rd.mSection.toList.isPrefixOf a.toList && !(a.toList.drop skipped).contains '/'

/-- `RemoveEntity`. -/
def KeyStore.removeEntity (st : KeyStore) (k : EntityKey) : KeyStore :=
  let sections := ClusterEntityReader.sections { key := k } st.client
  (sections.foldl (fun st a => st.removeKey (k.mCatalog ++ ":" ++ k.mID ++ ":" ++ a)) st).removeKey
    k.listKey

namespace ClusterEntityWriter

variable {k : EntityKey} {client : Client} {vals : List ClusterEntityStringValue}

/-- `End` puts nothing under a key that is neither a section of the entity nor its list. -/
theorem finish_frame (mSection : String) {key : String}
    (hsec : ∀ v ∈ vals, k.sectionKey v.sec ≠ key) (hlist : k.listKey ≠ key)
    (hhash : client.hashes key = ∅) (hkeys : client.lists key = []) :
    (finish ⟨k, mSection, vals⟩ client).hashes key = ∅ ∧
      (finish ⟨k, mSection, vals⟩ client).lists key = [] := by
  have hput : (vals.foldl (put k) (client, client.lrange k.listKey)).1.hashes key = ∅ ∧
      (vals.foldl (put k) (client, client.lrange k.listKey)).1.lists key = [] := by
    induction vals using List.reverseRecOn with
    | nil => exact ⟨hhash, hkeys⟩
    | append_singleton vals v ih =>
        obtain ⟨hvals, hv⟩ := List.forall_mem_append.mp hsec
        obtain ⟨h1, h2⟩ := ih hvals
        rw [List.foldl_append, List.foldl_cons, List.foldl_nil]
        constructor
        · rw [← h1]
          exact Function.update_of_ne (hv v List.mem_cons_self).symm _ _
        · rw [← h2]
          exact (Function.update_of_ne hlist.symm _ _).trans
            (Function.update_of_ne hlist.symm _ _)
  have hdel (ks : List String) (c : Client) (h : c.hashes key = ∅ ∧ c.lists key = []) :
      (ks.foldl Redis.del c).hashes key = ∅ ∧ (ks.foldl Redis.del c).lists key = [] := by
    induction ks generalizing c with
    | nil => exact h
    | cons k' rest ih =>
        rw [List.foldl_cons]
        apply ih
        by_cases hk : key = k'
        · rw [hk]
          exact ⟨Function.update_self _ _ _, Function.update_self _ _ _⟩
        · exact ⟨(Function.update_of_ne hk _ _).trans h.1,
            (Function.update_of_ne hk _ _).trans h.2⟩
  rw [finish_eq]
  exact hdel _ _ hput

end ClusterEntityWriter

namespace KeyStore

variable {st : KeyStore} {key : String}

theorem hasKey_eq_false :
    st.hasKey key = false ↔
      st.strings key = none ∧ st.client.hashes key = ∅ ∧ st.client.lists key = [] := by
  have hhash : st.client.hgetall key = [] ↔ st.client.hashes key = ∅ := by
    rw [Redis.hgetall, List.map_eq_nil_iff]
    constructor
    · intro h
      exact AList.ext h
    · intro h
      rw [h]
      rfl
  simp [hasKey, Redis.lrange, hhash, and_assoc]

theorem hasKey_removeKey_self (key : String) : (st.removeKey key).hasKey key = false := by
  rw [hasKey_eq_false]
  exact ⟨Function.update_self _ _ _, Function.update_self _ _ _, Function.update_self _ _ _⟩

/-- A key that does not exist is not made by removing a key, or by setting another one. -/
theorem hasKey_removeKey (h : st.hasKey key = false) (other : String) :
    (st.removeKey other).hasKey key = false := by
  by_cases hk : key = other
  · rw [hk]
    exact hasKey_removeKey_self other
  · obtain ⟨h1, h2, h3⟩ := hasKey_eq_false.mp h
    rw [hasKey_eq_false]
    exact ⟨(Function.update_of_ne hk _ _).trans h1, (Function.update_of_ne hk _ _).trans h2,
      (Function.update_of_ne hk _ _).trans h3⟩

theorem hasKey_setKey (h : st.hasKey key = false) {other : String} (hk : key ≠ other)
    (value : Text) : (st.setKey other value).hasKey key = false := by
  obtain ⟨h1, h2, h3⟩ := hasKey_eq_false.mp h
  rw [hasKey_eq_false]
  exact ⟨(Function.update_of_ne hk _ _).trans h1, (Function.update_of_ne hk _ _).trans h2,
    (Function.update_of_ne hk _ _).trans h3⟩

theorem hasKey_writeEntity (h : st.hasKey key = false) {w : ClusterEntityWriter}
    (hsec : ∀ v ∈ w.mStringValues, w.key.sectionKey v.sec ≠ key) (hlist : w.key.listKey ≠ key) :
    (st.writeEntity w).hasKey key = false := by
  obtain ⟨h1, h2, h3⟩ := hasKey_eq_false.mp h
  rw [hasKey_eq_false]
  exact ⟨h1, ClusterEntityWriter.finish_frame w.mSection hsec hlist h2 h3⟩

/-- What removing any key preserves is preserved by removing an entity. -/
theorem removeEntity_induction {P : KeyStore → Prop} (h : P st)
    (hstep : ∀ st key, P st → P (st.removeKey key)) (k : EntityKey) : P (st.removeEntity k) := by
  have hfold (sections : List String) (st : KeyStore) (h : P st) :
      P (sections.foldl
        (fun st a => st.removeKey (k.mCatalog ++ ":" ++ k.mID ++ ":" ++ a)) st) := by
    induction sections generalizing st with
    | nil => exact h
    | cons a rest ih => exact ih _ (hstep _ _ h)
  exact hstep _ _ (hfold _ _ h)

theorem strings_removeKey (h : st.strings key = none) (other : String) :
    (st.removeKey other).strings key = none := by
  by_cases hk : key = other
  · rw [hk]
    exact Function.update_self _ _ _
  · exact (Function.update_of_ne hk _ _).trans h

end KeyStore

end Iceee
