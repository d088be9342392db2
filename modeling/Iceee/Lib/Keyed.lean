import Mathlib

/-!
# Lists whose entries have distinct keys

An unordered table kept in a list: each entry has a key, and a well-formed table has no
key twice. The lemmas say which changes of the list keep that, and that a search by key
in such a table leads back to the entry.
-/

namespace Iceee.Lib

variable {α κ : Type*} {key : α → κ}

/-- No two entries share a key. -/
def NodupKeys (key : α → κ) (l : List α) : Prop := (l.map key).Nodup

theorem NodupKeys.sublist {l l' : List α} (h : NodupKeys key l) (hs : l'.Sublist l) :
    NodupKeys key l' :=
  List.Nodup.sublist (hs.map key) h

theorem nodupKeys_append_singleton {l : List α} {a : α} :
    NodupKeys key (l ++ [a]) ↔ NodupKeys key l ∧ ∀ b ∈ l, key b ≠ key a := by
  simp only [NodupKeys, List.map_append, List.map_cons, List.map_nil, List.nodup_append,
    List.nodup_singleton, List.mem_map, List.mem_singleton, true_and]
  refine and_congr_right fun _ => ⟨fun h b hb => h _ ⟨b, hb, rfl⟩ _ rfl, ?_⟩
  rintro h _ ⟨b, hb, rfl⟩ _ rfl
  exact h b hb

/-- What stands in a list after one entry was changed. -/
theorem mem_modify {l : List α} {i : Nat} {f : α → α} {b : α} (h : b ∈ l.modify i f) :
    b ∈ l ∨ ∃ a, l[i]? = some a ∧ b = f a := by
  obtain ⟨j, hj⟩ := List.mem_iff_getElem?.mp h
  rw [List.getElem?_modify] at hj
  by_cases hij : i = j
  · subst hij
    obtain ⟨a, ha, rfl⟩ := Option.map_eq_some_iff.mp hj
    exact .inr ⟨a, ha, by simp⟩
  · simp only [hij, if_false, id_map'] at hj
    exact .inl (List.mem_iff_getElem?.mpr ⟨j, by simpa using hj⟩)

/-- Changing an entry but not its key leaves the keys as they are. -/
theorem map_key_modify {l : List α} {i : Nat} {f : α → α} (hf : ∀ a, key (f a) = key a) :
    (l.modify i f).map key = l.map key := by
  induction l generalizing i with
  | nil => simp
  | cons b rest ih =>
      cases i with
      | zero => simp [hf]
      | succ i => simp [ih]

theorem NodupKeys.modify {l : List α} (h : NodupKeys key l) (i : Nat) {f : α → α}
    (hf : ∀ a, key (f a) = key a) : NodupKeys key (l.modify i f) := by
  unfold NodupKeys
  rw [map_key_modify hf]
  exact h

/-- An entry may take a new key that no other entry has. -/
theorem NodupKeys.rekey {l : List α} (h : NodupKeys key l) {i : Nat} {f : α → α} {k : κ}
    (hf : ∀ a, key (f a) = k) (hfree : ∀ j b, j ≠ i → l[j]? = some b → key b ≠ k) :
    NodupKeys key (l.modify i f) := by
  induction l generalizing i with
  | nil => simpa using h
  | cons b rest ih =>
      simp only [NodupKeys, List.map_cons, List.nodup_cons] at h
      cases i with
      | zero =>
          simp only [NodupKeys, List.modify_zero_cons, List.map_cons, List.nodup_cons, hf]
          refine ⟨fun hmem => ?_, h.2⟩
          obtain ⟨c, hc, hck⟩ := List.mem_map.mp hmem
          obtain ⟨j, hj⟩ := List.mem_iff_getElem?.mp hc
          exact hfree (j + 1) c (by omega) (by simpa using hj) hck
      | succ i =>
          simp only [NodupKeys, List.modify_succ_cons, List.map_cons, List.nodup_cons]
          refine ⟨fun hmem => ?_, ih h.2 fun j c hj hc => ?_⟩
          · obtain ⟨c, hc, hck⟩ := List.mem_map.mp hmem
            rcases mem_modify hc with hc | ⟨a, -, rfl⟩
            · exact h.1 (List.mem_map.mpr ⟨c, hc, hck⟩)
            · exact hfree 0 b (by omega) rfl (hck.symm.trans (hf a))
          · exact hfree (j + 1) c (by omega) (by simpa using hc)

/-- Appending an entry and then erasing the first one with key `k` is fine also when the
new entry takes the key of the erased one. -/
theorem NodupKeys.append_eraseP [DecidableEq κ] {l : List α} {a : α} {k : κ}
    (h : NodupKeys key l) (hfree : ∀ b ∈ l, key b = key a → key b = k) :
    NodupKeys key ((l ++ [a]).eraseP fun b => key b == k) := by
  by_cases hk : ∀ b ∈ l, key b ≠ key a
  · exact (nodupKeys_append_singleton.mpr ⟨h, hk⟩).sublist List.eraseP_sublist
  · simp only [not_forall, not_not] at hk
    obtain ⟨b, hb, hba⟩ := hk
    have hbk := hfree b hb hba
    have hrest : (l.eraseP fun b => key b == k).map key = (l.map key).erase k := by
      clear h hfree hb hba
      induction l with
      | nil => rfl
      | cons c rest ih =>
          by_cases hc : key c = k
          · simp [hc]
          · simp [hc, ih]
    rw [List.eraseP_append_left (by simpa using hbk) _ hb, nodupKeys_append_singleton]
    refine ⟨h.sublist List.eraseP_sublist, fun c hc hca => ?_⟩
    have hmem : key a ∈ (l.map key).erase k := by
      rw [← hrest]
      exact List.mem_map.mpr ⟨c, hc, hca⟩
    rw [← hba, hbk] at hmem
    exact List.Nodup.not_mem_erase h hmem

/-- A search by key finds the entry with that key. -/
theorem NodupKeys.findIdx? [DecidableEq κ] {l : List α} (h : NodupKeys key l) {i : Nat} {a : α}
    (ha : l[i]? = some a) : l.findIdx? (fun b => key b == key a) = some i := by
  obtain ⟨hlt, rfl⟩ := List.getElem?_eq_some_iff.mp ha
  rw [List.findIdx?_eq_some_iff_getElem]
  refine ⟨hlt, by simp, fun j hj => ?_⟩
  have hinj := List.nodup_iff_injective_getElem.mp h
  have hne (heq : key l[j] = key l[i]) : False := by
    have hfin : (⟨j, by simpa using hj.trans hlt⟩ : Fin (l.map key).length) =
        ⟨i, by simpa using hlt⟩ := hinj (by simpa using heq)
    exact hj.ne (congrArg Fin.val hfin)
  simpa using hne

/-! ### Search by key -/

section Search

variable [DecidableEq κ] {l : List α}

/-- Changing the entry a search by key finds. -/
theorem NodupKeys.modify_findIdx (h : NodupKeys key l) (k : κ) (f : α → α) :
    l.modify (l.findIdx fun a => key a == k) f = l.map fun a => if key a = k then f a else a := by
  induction l with
  | nil => rfl
  | cons a rest ih =>
      obtain ⟨ha, hrest⟩ := List.nodup_cons.mp h
      rw [List.findIdx_cons, List.map_cons]
      by_cases hk : key a = k
      · have hother : rest.map (fun b => if key b = k then f b else b) = rest.map id := by
          apply List.map_congr_left
          intro b hb
          apply if_neg
          intro hbk
          exact ha (List.mem_map.mpr ⟨b, hb, hbk.trans hk.symm⟩)
        simp [hk, hother]
      · simp [beq_false_of_ne hk, hk, ih hrest]

/-- Erasing the entry a search by key finds. -/
theorem NodupKeys.eraseP (h : NodupKeys key l) (k : κ) :
    (l.eraseP fun a => key a == k) = l.filter fun a => key a ≠ k := by
  induction l with
  | nil => rfl
  | cons a rest ih =>
      obtain ⟨ha, hrest⟩ := List.nodup_cons.mp h
      by_cases hk : key a = k
      · have hother : rest.filter (fun b => key b ≠ k) = rest := by
          apply List.filter_eq_self.mpr
          intro b hb
          rw [decide_eq_true_eq]
          intro hbk
          exact ha (List.mem_map.mpr ⟨b, hb, hbk.trans hk.symm⟩)
        simpa [hk] using hother.symm
      · simp [hk, ih hrest]

/-- What a search by key finds. -/
theorem NodupKeys.find?_eq_some (h : NodupKeys key l) {k : κ} {a : α} :
    (l.find? fun b => key b == k) = some a ↔ a ∈ l ∧ key a = k := by
  constructor
  · intro hfind
    exact ⟨List.mem_of_find?_eq_some hfind, by simpa using List.find?_some hfind⟩
  · rintro ⟨ha, rfl⟩
    have hsome : (l.find? fun b => key b == key a).isSome :=
      List.find?_isSome.mpr ⟨a, ha, beq_self_eq_true (key a)⟩
    obtain ⟨b, hb⟩ := Option.isSome_iff_exists.mp hsome
    have hkey : key b = key a := by simpa using List.find?_some hb
    rw [hb, List.inj_on_of_nodup_map h (List.mem_of_find?_eq_some hb) ha hkey]

/-- What stands in the list after the entry that a search by key finds was changed. -/
theorem NodupKeys.mem_modify_findIdx (h : NodupKeys key l) {k : κ} {f : α → α} {b : α} :
    b ∈ l.modify (l.findIdx fun a => key a == k) f ↔
      b ∈ l ∧ key b ≠ k ∨ ∃ a ∈ l, key a = k ∧ f a = b := by
  rw [h.modify_findIdx, List.mem_map]
  constructor
  · rintro ⟨a, ha, hab⟩
    by_cases hk : key a = k
    · rw [if_pos hk] at hab
      exact .inr ⟨a, ha, hk, hab⟩
    · rw [if_neg hk] at hab
      exact .inl (hab ▸ ⟨ha, hk⟩)
  · rintro (⟨hb, hk⟩ | ⟨a, ha, hk, hab⟩)
    · exact ⟨b, hb, if_neg hk⟩
    · exact ⟨a, ha, (if_pos hk).trans hab⟩

/-- The entry that a search by key finds may be replaced by one with that key. -/
theorem NodupKeys.replace (h : NodupKeys key l) {k : κ} {f : α → α}
    (hf : ∀ a, key a = k → key (f a) = k) :
    NodupKeys key (l.modify (l.findIdx fun a => key a == k) f) := by
  have hkeys : (l.map fun a => if key a = k then f a else a).map key = l.map key := by
    rw [List.map_map]
    apply List.map_congr_left
    intro a _
    dsimp only [Function.comp_apply]
    split
    · next hk => exact (hf a hk).trans hk.symm
    · rfl
  unfold NodupKeys
  rw [h.modify_findIdx, hkeys]
  exact h

/-- It may also be replaced by one with a key that no other entry has. -/
theorem NodupKeys.rekey_findIdx (h : NodupKeys key l) {k k' : κ} {f : α → α}
    (hf : ∀ a, key (f a) = k') (hfree : ∀ b ∈ l, key b = k' → k' = k) :
    NodupKeys key (l.modify (l.findIdx fun a => key a == k) f) := by
  apply h.rekey hf
  intro j b hj hb hbk
  apply hj
  have hkey : key b = k := hbk.trans (hfree b (List.mem_of_getElem? hb) hbk)
  have hfind := h.findIdx? hb
  rw [hkey] at hfind
  exact (List.findIdx?_eq_some_iff_findIdx_eq.mp hfind).2.symm

/-- What stands in the list after the entry that a search by key finds was erased. -/
theorem NodupKeys.mem_eraseP (h : NodupKeys key l) {k : κ} {b : α} :
    b ∈ (l.eraseP fun a => key a == k) ↔ b ∈ l ∧ key b ≠ k := by
  rw [h.eraseP, List.mem_filter, decide_eq_true_eq]

/-- What a search finds after the entry of one key was changed. -/
theorem NodupKeys.find?_modify_findIdx (h : NodupKeys key l) {k : κ} {f : α → α}
    (hf : ∀ a, key (f a) = key a) (k' : κ) :
    (l.modify (l.findIdx fun a => key a == k) f).find? (fun a => key a == k') =
      if k' = k then (l.find? fun a => key a == k').map f else l.find? fun a => key a == k' := by
  have hkey (a : α) : key (if key a = k then f a else a) = key a := by
    split
    · exact hf a
    · rfl
  rw [h.modify_findIdx, List.find?_map]
  simp only [Function.comp_def, hkey]
  cases hfind : l.find? fun a => key a == k' with
  | none => simp
  | some a =>
      have ha : key a = k' := by simpa using List.find?_some hfind
      rw [Option.map_some, ha]
      split <;> rfl

/-- What a search finds after an entry of a new key was appended. -/
theorem find?_append_singleton {a : α} (hnew : ∀ b ∈ l, key b ≠ key a) (k : κ) :
    (l ++ [a]).find? (fun b => key b == k) =
      if k = key a then some a else l.find? fun b => key b == k := by
  rw [List.find?_append]
  split
  · next heq =>
      have hnone : (l.find? fun b => key b == k) = none :=
        List.find?_eq_none.mpr fun b hb hk => hnew b hb ((eq_of_beq hk).trans heq)
      rw [hnone, Option.none_or, List.find?_singleton, if_pos (beq_iff_eq.mpr heq.symm)]
  · next hne => simp [Ne.symm hne]

/-- What a search finds among the entries that meet a condition. -/
theorem NodupKeys.find?_filter (h : NodupKeys key l) (p : α → Bool) (k : κ) :
    ((l.filter p).find? fun a => key a == k) = (l.find? fun a => key a == k).filter p := by
  ext a
  rw [(h.sublist List.filter_sublist).find?_eq_some, Option.filter_eq_some_iff, h.find?_eq_some,
    List.mem_filter]
  exact and_right_comm

/-- What a search finds after the entry of one key was erased. -/
theorem NodupKeys.find?_eraseP (h : NodupKeys key l) (k k' : κ) :
    ((l.eraseP fun a => key a == k).find? fun a => key a == k') =
      if k' = k then none else l.find? fun a => key a == k' := by
  rw [h.eraseP, h.find?_filter]
  cases hfind : l.find? fun a => key a == k' with
  | none => simp
  | some a =>
      have ha : key a = k' := by simpa using List.find?_some hfind
      rw [Option.filter_some, ha]
      split <;> simp_all

end Search
/-! ### At most one match -/

section CountP

variable {p : α → Bool} {l : List α} {i : Nat} {f : α → α}

/-- Changing one entry adds at most one match. -/
theorem countP_modify_le (p : α → Bool) (l : List α) (i : Nat) (f : α → α) :
    (l.modify i f).countP p ≤ l.countP p + 1 := by
  induction l generalizing i with
  | nil => simp
  | cons b rest ih =>
      cases i with
      | zero =>
          simp only [List.modify_zero_cons, List.countP_cons]
          split <;> omega
      | succ i =>
          simp only [List.modify_succ_cons, List.countP_cons]
          have := ih i
          omega

/-- Changing one entry to something that does not match adds none. -/
theorem countP_modify_of_not (l : List α) (i : Nat) (hf : ∀ a, p (f a) = false) :
    (l.modify i f).countP p ≤ l.countP p := by
  induction l generalizing i with
  | nil => simp
  | cons b rest ih =>
      cases i with
      | zero => simp [List.countP_cons, hf]
      | succ i =>
          simp only [List.modify_succ_cons, List.countP_cons]
          have := ih i
          omega

/-- A list with at most one match has no two different ones. -/
theorem eq_of_countP_le_one (h : l.countP p ≤ 1) {a b : α} (ha : a ∈ l) (hb : b ∈ l)
    (hpa : p a) (hpb : p b) : a = b := by
  rw [List.countP_eq_length_filter] at h
  have hma : a ∈ l.filter p := List.mem_filter.mpr ⟨ha, hpa⟩
  have hmb : b ∈ l.filter p := List.mem_filter.mpr ⟨hb, hpb⟩
  obtain hnil | ⟨c, hc⟩ : l.filter p = [] ∨ ∃ c, l.filter p = [c] := by
    rwa [← List.length_eq_zero_iff, ← List.length_eq_one_iff, ← Nat.le_one_iff_eq_zero_or_eq_one]
  · rw [hnil] at hma
    cases hma
  · rw [hc, List.mem_singleton] at hma hmb
    rw [hma, hmb]

end CountP

end Iceee.Lib
