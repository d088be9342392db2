import Iceee.Lib.Keyed
import Iceee.Lib.Trace
import Iceee.Persona.Registry

/-!
# What the registry keeps

The slots of an account and its cache agree in every run. The names are only in order as long as no
character was created: a name is written under itself and looked up as a number.
-/

namespace Iceee.Persona

open Lib

/-! ### What is to hold -/

/-- The slots of an account: distinct characters at the front, no more than allowed, and an entry of
the cache for each. -/
structure Packed (a : AccountData) : Prop where
  front : ∀ i j, i ≤ j → a.CharacterSet i = 0 → a.CharacterSet j = 0
  distinct : ∀ i j, a.CharacterSet i = a.CharacterSet j → a.CharacterSet i ≠ 0 → i = j
  allowed : ∀ i, a.CharacterSet i ≠ 0 → i.val < a.MaxCharacters.val
  once : NodupKeys CharacterCacheEntry.creatureDefID a.characterCache
  cached : ∀ id, (∃ e ∈ a.characterCache, e.creatureDefID = id) ↔
    id ≠ 0 ∧ ∃ i, a.CharacterSet i = id

namespace AccountManager

variable (s : AccountManager)

/-- A character of some account. -/
def Existing (id : Int) : Prop := id ≠ 0 ∧ ∃ acc i, (s.accounts acc).CharacterSet i = id

/-- An existing character and its name. -/
def Named (id : Int) (name : Text) : Prop :=
  s.Existing id ∧ ∃ cd, s.charList id = some cd ∧ cd.display_name = name

end AccountManager

/-- The names are unique and looked up right, what is deleted is free, and the accounts agree. -/
structure Registered (u : Undefined) (s : AccountManager) : Prop where
  unique : ∀ id id' name, s.Named id name → s.Named id' name → id = id'
  hasName : ∀ name, s.keys.hasName u name = true ↔ ∃ id, s.Named id name
  hasID : ∀ id, s.keys.hasID id = true ↔ s.Existing id
  inverse : ∀ id name, s.Named id name →
    s.keys.getIDByName u name = id ∧ s.keys.getNameByID u id = name
  packed : ∀ acc, Packed (s.accounts acc)

/-- An empty store. -/
def Fresh (s : AccountManager) : Prop :=
  (∀ acc i, (s.accounts acc).CharacterSet i = 0) ∧ (∀ acc, (s.accounts acc).characterCache = []) ∧
    s.keys = (fun _ => none) ∧ s.charList = (fun _ => none) ∧ s.nextCharacterID = -400000000

/-- A call that creates no character where no name is used: the list of arguments is short, there is
no slot, a part of the name is not valid, or the name of a sage is not permitted. -/
def Refused (s : AccountManager) : Call → Prop
  | .createCharacter args accID =>
      args.length ≤ 12 ∨ (s.accounts accID).getFreeCharacterSlot = none ∨
        checkNameParts (args.getD 0 []) (args.getD 1 []) ≠ CHARACTER_SUCCESS ∨
        (caseInsensitiveStringCompare (args.getD 0 []) "Sage".toList = true ∧
          (s.accounts accID).permissionSage = false)
  | .deleteCharacter .. => True

instance (s : AccountManager) : DecidablePred (Refused s)
  | .createCharacter .. => inferInstanceAs (Decidable (_ ∨ _ ∨ _ ∨ _ ∧ _))
  | .deleteCharacter .. => inferInstanceAs (Decidable True)

/-! ### The slots -/

namespace Packed

variable {a : AccountData}

theorem of_empty (hset : ∀ i, a.CharacterSet i = 0) (hcache : a.characterCache = []) :
    Packed a where
  front _ j _ _ := hset j
  distinct i _ _ hne := absurd (hset i) hne
  allowed i hne := absurd (hset i) hne
  once := by rw [hcache]; exact List.nodup_nil
  cached id := by
    rw [hcache]
    refine iff_of_false ?_ ?_
    · rintro ⟨e, he, -⟩
      cases he
    · rintro ⟨hne, i, hi⟩
      exact hne (hi.symm.trans (hset i))

theorem getFreeCharacterSlot_eq_some {slot : Fin 8} (h : a.getFreeCharacterSlot = some slot) :
    slot.val < a.MaxCharacters.val ∧ a.CharacterSet slot = 0 ∧
      ∀ j < slot, a.CharacterSet j ≠ 0 := by
  obtain ⟨hp, k, hk, rfl, hbefore⟩ := List.find?_eq_some_iff_getElem.mp h
  simp only [Bool.and_eq_true, decide_eq_true_eq, beq_iff_eq] at hp
  refine ⟨hp.1, hp.2, fun j hj hzero => ?_⟩
  have hlt : j.val < k := by
    rw [List.getElem_finRange] at hj
    exact hj
  have hnot := hbefore j.val hlt
  rw [List.getElem_finRange] at hnot
  have hless : j.val < a.MaxCharacters.val := by
    rw [List.getElem_finRange] at hp
    exact hlt.trans hp.1
  simp [hless, hzero] at hnot

/-- A new character in the first free slot. -/
theorem fill (h : Packed a) {slot : Fin 8} (hslot : a.getFreeCharacterSlot = some slot)
    (entry : CharacterCacheEntry) (hne : entry.creatureDefID ≠ 0)
    (hnew : ∀ i, a.CharacterSet i ≠ entry.creatureDefID) :
    Packed { a with
      CharacterSet := Function.update a.CharacterSet slot entry.creatureDefID
      characterCache := a.characterCache ++ [entry] } := by
  obtain ⟨hless, hzero, hbefore⟩ := getFreeCharacterSlot_eq_some hslot
  have hget (i : Fin 8) : Function.update a.CharacterSet slot entry.creatureDefID i =
      if i = slot then entry.creatureDefID else a.CharacterSet i := Function.update_apply _ _ _ _
  have hcached : ∀ e ∈ a.characterCache, e.creatureDefID ≠ entry.creatureDefID := by
    intro e he heq
    obtain ⟨-, i, hi⟩ := (h.cached _).mp ⟨e, he, heq⟩
    exact hnew i hi
  refine ⟨?_, ?_, ?_, nodupKeys_append_singleton.mpr ⟨h.once, hcached⟩, ?_⟩
  · intro i j hij hi
    dsimp only at hi ⊢
    rw [hget] at hi ⊢
    split at hi
    · exact absurd hi hne
    · next hislot =>
        have hj : a.CharacterSet j = 0 := h.front i j hij hi
        have hafter : slot < i :=
          lt_of_le_of_ne (not_lt.mp fun hlt => hbefore i hlt hi) (Ne.symm hislot)
        rw [if_neg (hafter.trans_le hij).ne', hj]
  · intro i j hij hi
    dsimp only at hij hi
    rw [hget] at hij hi
    rw [hget] at hij
    split_ifs at hij hi with hislot hjslot hjslot
    · exact hislot.trans hjslot.symm
    · exact absurd hij.symm (hnew j)
    · exact absurd hij (hnew i)
    · exact h.distinct i j hij hi
  · intro i hi
    dsimp only at hi ⊢
    rw [hget] at hi
    split at hi
    · next hislot => exact hislot ▸ hless
    · exact h.allowed i hi
  · intro id
    dsimp only
    constructor
    · rintro ⟨e, he, rfl⟩
      rcases List.mem_append.mp he with he | he
      · obtain ⟨hid, i, hi⟩ := (h.cached _).mp ⟨e, he, rfl⟩
        refine ⟨hid, i, ?_⟩
        rw [hget, if_neg, hi]
        rintro rfl
        exact hid (hi.symm.trans hzero)
      · rw [List.mem_singleton.mp he]
        exact ⟨hne, slot, by rw [hget, if_pos rfl]⟩
    · rintro ⟨hid, i, hi⟩
      rw [hget] at hi
      split at hi
      · exact ⟨entry, List.mem_append_right _ List.mem_cons_self, hi⟩
      · obtain ⟨e, he, heq⟩ := (h.cached id).mpr ⟨hid, i, hi⟩
        exact ⟨e, List.mem_append_left _ he, heq⟩

/-- What a slot holds after another one was closed: it is left of that one, or takes from its
right. -/
theorem closeSlot_get (slot i : Fin 8) :
    (∃ j, (a.closeSlot slot).CharacterSet i = a.CharacterSet j ∧ (i < slot ∧ j = i ∨
      slot ≤ i ∧ j.val = i.val + 1)) ∨
        (a.closeSlot slot).CharacterSet i = 0 ∧ i.val = 7 ∧ slot ≤ i := by
  by_cases hi : i < slot
  · exact .inl ⟨i, if_pos hi, .inl ⟨hi, rfl⟩⟩
  · by_cases hlast : i.val + 1 < 8
    · exact .inl ⟨⟨i.val + 1, hlast⟩, (if_neg hi).trans (dif_pos hlast),
        .inr ⟨not_lt.mp hi, rfl⟩⟩
    · exact .inr ⟨(if_neg hi).trans (dif_neg hlast), by omega, not_lt.mp hi⟩

/-- A slot that is closed, with its entry of the cache. -/
theorem close (h : Packed a) (slot : Fin 8) :
    Packed { a.closeSlot slot with
      characterCache := a.characterCache.eraseP fun e =>
        e.creatureDefID == a.CharacterSet slot } := by
  refine ⟨?_, ?_, ?_, h.once.sublist List.eraseP_sublist, ?_⟩
  · intro i j hij hi
    dsimp only at hi ⊢
    rcases closeSlot_get (a := a) slot i with ⟨k, hk, hki⟩ | ⟨-, hlast, hslot⟩
    · rcases closeSlot_get (a := a) slot j with ⟨l, hl, hlj⟩ | ⟨hzero, -⟩
      · rw [hk] at hi
        rw [hl]
        exact h.front k l (by omega) hi
      · exact hzero
    · have heq : j = i := by omega
      rw [heq]
      exact hi
  · intro i j hij hi
    dsimp only at hij hi
    rcases closeSlot_get (a := a) slot i with ⟨k, hk, hki⟩ | ⟨hzero, -⟩
    · rcases closeSlot_get (a := a) slot j with ⟨l, hl, hlj⟩ | ⟨hzero, -⟩
      · have hkl := h.distinct k l (by rw [← hk, ← hl, hij]) (hk ▸ hi)
        omega
      · exact absurd (hij.trans hzero) hi
    · exact absurd hzero hi
  · intro i hi
    dsimp only at hi ⊢
    rcases closeSlot_get (a := a) slot i with ⟨k, hk, hki⟩ | ⟨hzero, -⟩
    · have hless := h.allowed k (hk ▸ hi)
      exact lt_of_le_of_lt (by omega) hless
    · exact absurd hzero hi
  · intro id
    have hmem (e : CharacterCacheEntry) := h.once.mem_eraseP (k := a.CharacterSet slot) (b := e)
    constructor
    · rintro ⟨e, he, rfl⟩
      obtain ⟨he, hother⟩ := (hmem e).mp he
      obtain ⟨hid, i, hi⟩ := (h.cached _).mp ⟨e, he, rfl⟩
      refine ⟨hid, ?_⟩
      have hislot : i ≠ slot := fun heq => hother (hi.symm.trans (congrArg a.CharacterSet heq))
      by_cases hlt : i < slot
      · exact ⟨i, (if_pos hlt).trans hi⟩
      · refine ⟨⟨i.val - 1, by omega⟩, ?_⟩
        have hprev : ¬(⟨i.val - 1, by omega⟩ : Fin 8) < slot := by
          rw [Fin.lt_def]
          dsimp only
          omega
        have hnext : i.val - 1 + 1 = i.val := by omega
        refine (if_neg hprev).trans ((dif_pos (by dsimp only; omega)).trans ?_)
        rw [← hi]
        congr 1
        exact Fin.ext hnext
    · rintro ⟨hid, i, hi⟩
      dsimp only at hi
      rcases closeSlot_get (a := a) slot i with ⟨k, hk, hki⟩ | ⟨hzero, -⟩
      · have hkid : a.CharacterSet k = id := hk.symm.trans hi
        obtain ⟨e, he, heq⟩ := (h.cached id).mpr ⟨hid, k, hkid⟩
        refine ⟨e, (hmem e).mpr ⟨he, fun hslot => ?_⟩, heq⟩
        have hsame := h.distinct k slot (by rw [hkid, ← heq, hslot]) (hkid ▸ hid)
        omega
      · exact absurd (hi.symm.trans hzero) hid

end Packed

/-! ### Runs -/

/-- The accounts agree, and the counter is below all characters. -/
structure Kept (s : AccountManager) : Prop where
  packed : ∀ acc, Packed (s.accounts acc)
  above : ∀ acc i, (s.accounts acc).CharacterSet i ≠ 0 →
    s.nextCharacterID ≤ (s.accounts acc).CharacterSet i
  negative : s.nextCharacterID < 0

/-! ### What a registration changes -/

namespace AccountManager

variable (s : AccountManager) (accID : Int) (slot : Fin 8) (first last race : Text)

theorem register_nextCharacterID :
    (s.register accID slot first last race).nextCharacterID = s.nextCharacterID - 8 := by
  rw [register, addExternalCharacter]
  dsimp only
  split <;> rfl

theorem register_accounts :
    (s.register accID slot first last race).accounts =
      Function.update s.accounts accID { s.accounts accID with
        CharacterSet :=
          Function.update (s.accounts accID).CharacterSet slot (s.nextCharacterID - 8)
        characterCache := (s.accounts accID).characterCache ++
          [⟨s.nextCharacterID - 8, 1, profession race, fullName first last⟩] } := by
  rw [register, addExternalCharacter]
  dsimp only
  split <;> rfl

theorem register_keys :
    (s.register accID slot first last race).keys =
      s.keys.add (s.nextCharacterID - 8) (fullName first last) := by
  rw [register, addExternalCharacter]
  dsimp only
  split <;> rfl

theorem register_charList (hnew : s.charList (s.nextCharacterID - 8) = none) :
    (s.register accID slot first last race).charList (s.nextCharacterID - 8) =
      some ⟨s.nextCharacterID - 8, fullName first last, profession race, 1, accID⟩ := by
  rw [register, addExternalCharacter]
  dsimp only
  rw [hnew]
  exact Function.update_self _ _ _

end AccountManager

section Step

variable {u : Undefined} {s s' : AccountManager}

theorem Kept.register (h : Kept s) {accID : Int} {slot : Fin 8}
    (hslot : (s.accounts accID).getFreeCharacterSlot = some slot) (first last race : Text) :
    Kept (s.register accID slot first last race) := by
  have hcounter := s.register_nextCharacterID accID slot first last race
  have haccounts := s.register_accounts accID slot first last race
  have hneg := h.negative
  refine ⟨fun acc => ?_, fun acc i hi => ?_, by omega⟩
  · rw [haccounts, Function.update_apply]
    split
    · refine (h.packed accID).fill hslot
        ⟨s.nextCharacterID - 8, 1, profession race, fullName first last⟩ ?_ fun i heq => ?_
      · dsimp only
        omega
      · have habove := h.above accID i
        dsimp only at heq
        omega
    · exact h.packed acc
  · rw [haccounts, Function.update_apply] at hi ⊢
    rw [hcounter]
    split_ifs at hi ⊢ with hacc
    · dsimp only at hi ⊢
      rw [Function.update_apply] at hi ⊢
      split_ifs at hi ⊢ with hslot
      · exact le_rfl
      · have habove := h.above accID i hi
        omega
    · have habove := h.above acc i hi
      omega

theorem Kept.createCharacter (h : Kept s) (args : List Text) (accID : Int) :
    Kept (s.createCharacter u args accID).2 := by
  rw [AccountManager.createCharacter]
  split
  · exact h
  · split
    · exact h
    · next slot hslot =>
        dsimp only
        split_ifs
        · exact h
        · exact h
        · exact h.register hslot _ _ _

theorem deleteCharacter_accounts (h : Kept s) (index accID : Int) :
    (s.deleteCharacter u index accID).nextCharacterID = s.nextCharacterID ∧
      ((s.deleteCharacter u index accID).accounts = s.accounts ∨
        ∃ slot : Fin 8, (s.deleteCharacter u index accID).accounts =
          Function.update s.accounts accID { (s.accounts accID).closeSlot slot with
            characterCache := (s.accounts accID).characterCache.eraseP fun e =>
              e.creatureDefID == (s.accounts accID).CharacterSet slot }) := by
  rw [AccountManager.deleteCharacter]
  split
  · next hindex =>
      generalize (⟨index.toNat, _⟩ : Fin 8) = slot
      dsimp only
      split
      · exact ⟨rfl, .inl rfl⟩
      · next hne =>
          obtain ⟨e, he, heq⟩ := ((h.packed accID).cached _).mpr ⟨hne, slot, rfl⟩
          have hfind := (h.packed accID).once.find?_eq_some.mpr ⟨he, heq⟩
          have hcache : (Function.update s.accounts accID
              ((s.accounts accID).closeSlot slot) accID).characterCache =
                (s.accounts accID).characterCache := by
            rw [Function.update_self]
            rfl
          rw [AccountManager.removeCharacter]
          dsimp only
          rw [hcache, hfind, Function.update_self]
          exact ⟨rfl, .inr ⟨slot, by rw [Function.update_idem]⟩⟩
  · exact ⟨rfl, .inl rfl⟩

theorem Kept.deleteCharacter (h : Kept s) (index accID : Int) :
    Kept (s.deleteCharacter u index accID) := by
  obtain ⟨hcounter, haccounts⟩ := deleteCharacter_accounts (u := u) h index accID
  refine ⟨fun acc => ?_, fun acc i hi => ?_, hcounter ▸ h.negative⟩
  · rcases haccounts with haccounts | ⟨slot, haccounts⟩
    · rw [haccounts]
      exact h.packed acc
    · rw [haccounts, Function.update_apply]
      split
      · exact (h.packed accID).close slot
      · exact h.packed acc
  · rw [hcounter]
    rcases haccounts with haccounts | ⟨slot, haccounts⟩
    · rw [haccounts] at hi ⊢
      exact h.above acc i hi
    · rw [haccounts, Function.update_apply] at hi ⊢
      split_ifs at hi ⊢ with hacc
      · rcases Packed.closeSlot_get (a := s.accounts accID) slot i with ⟨k, hk, -⟩ | ⟨hzero, -⟩
        · dsimp only at hi ⊢
          rw [hk] at hi ⊢
          exact h.above accID k hi
        · exact absurd hzero hi
      · exact h.above acc i hi

theorem Kept.step (h : Kept s) {call : Call} (hs : s.step u call = some s') : Kept s' := by
  cases call with
  | createCharacter args accID =>
      rw [← Option.some.inj hs]
      exact h.createCharacter args accID
  | deleteCharacter index accID =>
      rw [← Option.some.inj hs]
      exact h.deleteCharacter index accID

end Step

/-! ### The first character -/

/-- Nobody has a character. -/
structure Unused (s : AccountManager) : Prop where
  slots : ∀ acc i, (s.accounts acc).CharacterSet i = 0
  caches : ∀ acc, (s.accounts acc).characterCache = []
  keys : s.keys = fun _ => none
  charList : s.charList = fun _ => none
  negative : s.nextCharacterID < 0

theorem space_notMem_printInt (i : Int) : ' ' ∉ printInt i := by
  intro h
  rcases mem_printInt h with hdigit | heq
  · exact absurd hdigit (by decide)
  · exact absurd heq (by decide)

/-- A name is never printed as a number. -/
theorem fullName_ne_printInt (first last : Text) (i : Int) : fullName first last ≠ printInt i := by
  intro heq
  apply space_notMem_printInt i
  rw [← heq, fullName]
  exact List.mem_append_right _ List.mem_cons_self

/-- After a name was written its lookup finds nothing. -/
theorem hasName_add (u : Undefined) (id : Int) (first last name : Text) :
    (Keys.add (fun _ => none) id (fullName first last)).hasName u name = false := by
  have hid : formatKey KEYPREFIX_CHARACTER_NAME_TO_ID (printInt (u.address name)) ≠
      formatKey KEYPREFIX_CHARACTER_ID_TO_NAME (printInt id) := by
    intro heq
    -- the prefixes differ in their tenth character
    have hchar := congrArg (fun key => key[9]?) heq
    dsimp only [formatKey] at hchar
    rw [List.getElem?_append_left (by decide),
      List.getElem?_append_left (by decide)] at hchar
    exact absurd hchar (by decide)
  have hname : formatKey KEYPREFIX_CHARACTER_NAME_TO_ID (printInt (u.address name)) ≠
      formatKey KEYPREFIX_CHARACTER_NAME_TO_ID (fullName first last) := by
    intro heq
    rw [formatKey, formatKey, List.append_cancel_left_eq, List.cons.injEq] at heq
    exact fullName_ne_printInt first last _ heq.2.symm
  rw [Keys.hasName, Keys.hasKey, Keys.add, Keys.setKey, Keys.setKey, Function.update_of_ne hid,
    Function.update_of_ne hname]
  rfl

namespace Unused

variable {u : Undefined} {s s' : AccountManager}

theorem not_existing (h : Unused s) (id : Int) : ¬s.Existing id := by
  rintro ⟨hne, acc, i, hi⟩
  exact hne (hi.symm.trans (h.slots acc i))

theorem registered (h : Unused s) : Registered u s where
  unique id _ name hname := absurd hname.1 (h.not_existing id)
  hasName name := by
    rw [h.keys]
    refine iff_of_false Bool.false_ne_true ?_
    rintro ⟨id, hid, -⟩
    exact h.not_existing id hid
  hasID id := by
    rw [h.keys]
    exact iff_of_false Bool.false_ne_true (h.not_existing id)
  inverse id name hname := absurd hname.1 (h.not_existing id)
  packed acc := Packed.of_empty (h.slots acc) (h.caches acc)

/-- A call that is refused changes nothing. -/
theorem refused (h : Unused s) {call : Call} (hok : Refused s call)
    (hs : s.step u call = some s') : s' = s := by
  cases call with
  | createCharacter args accID =>
      rw [← Option.some.inj hs, AccountManager.createCharacter]
      split
      · rfl
      · next hlong =>
          split
          · rfl
          · next slot hslot =>
              have hrest := (hok.resolve_left hlong).resolve_left (by rw [hslot]; rintro ⟨⟩)
              dsimp only
              split_ifs with hresult hsage
              · rfl
              · rfl
              · exfalso
                rw [not_not, AccountManager.validateNameParts] at hresult
                rcases hrest with hparts | ⟨hsame, hpermission⟩
                · rw [if_pos hparts] at hresult
                  exact hparts hresult
                · exact hsage (by rw [hsame, hpermission]; rfl)
  | deleteCharacter index accID =>
      rw [← Option.some.inj hs, AccountManager.deleteCharacter]
      split
      · dsimp only
        rw [if_pos (h.slots accID _)]
      · rfl

/-- A call that is not refused makes a character whose name is not found. -/
theorem created (h : Unused s) {call : Call} (hbad : ¬Refused s call)
    (hs : s.step u call = some s') : ¬Registered u s' := by
  cases call with
  | deleteCharacter index accID => exact absurd trivial hbad
  | createCharacter args accID =>
      simp only [Refused, not_or, not_not, not_and] at hbad
      obtain ⟨hlong, hfree, hparts, hsage⟩ := hbad
      obtain ⟨slot, hslot⟩ := Option.ne_none_iff_exists'.mp hfree
      have hname (name : Text) : s.keys.hasName u name = false := by
        rw [h.keys]
        rfl
      have hvalid : s.validateNameParts u (args.getD 0 []) (args.getD 1 []) =
          CHARACTER_SUCCESS := by
        rw [AccountManager.validateNameParts, if_neg (not_not.mpr hparts), hname]
        rfl
      have hpermitted : ¬(caseInsensitiveStringCompare (args.getD 0 []) "Sage".toList &&
          !(s.accounts accID).permissionSage) = true := by
        rw [Bool.and_eq_true, Bool.not_eq_true']
        exact fun hboth => hsage hboth.1 hboth.2
      have hs' : s' = s.register accID slot (args.getD 0 []) (args.getD 1 []) (args.getD 2 []) := by
        rw [← Option.some.inj hs, AccountManager.createCharacter, if_neg hlong, hslot]
        dsimp only
        rw [if_neg (not_not.mpr hvalid), if_neg hpermitted]
      intro hreg
      have hneg := h.negative
      -- the new character exists under its name
      have hnamed : s'.Named (s.nextCharacterID - 8)
          (fullName (args.getD 0 []) (args.getD 1 [])) := by
        rw [hs']
        refine ⟨⟨by omega, accID, slot, ?_⟩, _, s.register_charList _ _ _ _ _ (by rw [h.charList]),
          rfl⟩
        rw [s.register_accounts, Function.update_self]
        exact Function.update_self _ _ _
      have hfound := (hreg.hasName _).mpr ⟨_, hnamed⟩
      rw [hs', s.register_keys, h.keys, hasName_add] at hfound
      cases hfound

end Unused

/-- In every run from an empty store the slots and the cache of each account agree; the registry is
in order throughout exactly where every call that would create a character is refused. -/
theorem registry_iff {u : Undefined} {h : List (AccountManager × Call)} {s : AccountManager}
    (run : Trace Fresh (fun _ _ => True) (AccountManager.step u) h s) :
    (∀ acc, Packed (s.accounts acc)) ∧
      ((Registered u s ∧ ∀ e ∈ h, Registered u e.1) ↔ ∀ e ∈ h, Refused e.1 e.2) := by
  have hstart (s : AccountManager) (hs : Fresh s) : Unused s := by
    obtain ⟨hslots, hcaches, hkeys, hlist, hcounter⟩ := hs
    exact ⟨hslots, hcaches, hkeys, hlist, by rw [hcounter]; decide⟩
  constructor
  · have hkept : Kept s := by
      refine Reach.invariant (fun s hs => ?_) (fun s call s' hs _ hstep => hs.step hstep) ⟨h, run⟩
      have hunused := hstart s hs
      exact ⟨hunused.registered (u := u) |>.packed,
        fun acc i hi => absurd (hunused.slots acc i) hi, hunused.negative⟩
    exact hkept.packed
  · refine run.safe_iff hstart (fun _ hs => hs.registered) ?_ ?_
    · intro s call s' hs hok hstep
      exact hs.refused hok hstep ▸ hs
    · intro s call s' hs hbad hstep
      exact hs.created hbad hstep

/-! ### Two accounts -/

/-- A pointer is some number, and the other two read nothing. -/
def someUndefined : Undefined :=
  { address := fun _ => 4196352, object := fun _ => [], dangling := fun _ => [] }

def twoAccounts : AccountManager := { accounts := fun _ => {} }

theorem fresh_twoAccounts : Fresh twoAccounts :=
  ⟨fun _ _ => rfl, fun _ => rfl, rfl, rfl, rfl⟩

def annLee : List Text :=
  ["Ann".toList, "Lee".toList, "Mage".toList] ++ List.replicate 12 "0".toList

/-- A character is created and deleted again: the slots agree with the cache, the names are not
found. -/
theorem registry_iff_annLee : ∃ h s, Trace Fresh (fun _ _ => True)
    (AccountManager.step someUndefined) h s ∧ h.length = 2 ∧ (∀ acc, Packed (s.accounts acc)) ∧
      ¬(Registered someUndefined s ∧ ∀ e ∈ h, Registered someUndefined e.1) := by
  have start : Trace Fresh (fun _ _ => True) (AccountManager.step someUndefined) [] twoAccounts :=
    .start fresh_twoAccounts
  have run := (start.next (a := .createCharacter annLee 1) trivial rfl).next
    (a := .deleteCharacter 0 1) trivial rfl
  refine ⟨_, _, run, rfl, (registry_iff run).1, fun hreg => ?_⟩
  have hrefused := (registry_iff run).2.mp hreg _ (List.mem_cons_of_mem _ List.mem_cons_self)
  exact absurd hrefused (by decide)

/-- Two accounts each get a character of the same name. -/
theorem same_name_twice : ¬∀ u s, Reach Fresh (fun _ _ => True) (AccountManager.step u) s →
    Registered u s := by
  intro hall
  have start : Reach Fresh (fun _ _ => True) (AccountManager.step someUndefined) twoAccounts :=
    .start fresh_twoAccounts
  have hreg := hall _ _ ((start.next (a := .createCharacter annLee 1) trivial rfl).next
    (a := .createCharacter annLee 2) trivial rfl)
  have hfirst := hreg.unique (-400000008) (-400000016) "Ann Lee".toList
    ⟨⟨by decide, 1, 0, by decide⟩, _, rfl, by decide⟩
    ⟨⟨by decide, 2, 0, by decide⟩, _, rfl, by decide⟩
  exact absurd hfirst (by decide)

end Iceee.Persona
