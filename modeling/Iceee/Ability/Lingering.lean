import Iceee.Ability.Time
import Iceee.Lib.Position
import Iceee.Lib.Holding
import Iceee.Lib.Keyed

/-!
# What hides a cooldown, and what replaces a buff

A lookup stops at the first entry of a category. A second entry behind it is hidden, and shows
only after the first has ended and a lookup has erased it.
-/

namespace Iceee.Ability

open Lib Buffs

/-! ### Cooldowns -/

namespace ActiveCooldownManager

variable {cm : ActiveCooldownManager} {now now' : UInt64} {c : Int}

/-- The entry of a category that a lookup meets. -/
def first (cm : ActiveCooldownManager) (category : Int) : Option ActiveCooldown :=
  cm.cooldownList.find? fun e => e.category == category

theorem first_mem {e : ActiveCooldown} (h : cm.first c = some e) :
    e ∈ cm.cooldownList ∧ e.category = c :=
  ⟨List.mem_of_find?_eq_some h, by simpa using List.find?_some h⟩

theorem exists_first {x : ActiveCooldown} (hx : x ∈ cm.cooldownList) (hc : x.category = c) :
    ∃ e, cm.first c = some e :=
  Option.isSome_iff_exists.mp (List.find?_isSome.mpr ⟨x, hx, by simpa using hc⟩)

/-- `HasCooldown` answers for the first entry of the category, and erases it once it has ended. -/
theorem hasCooldown_cases (cm : ActiveCooldownManager) (now : UInt64) (c : Int) :
    (cm.first c = none ∧ cm.hasCooldown now c = (none, cm)) ∨
    (∃ e, cm.first c = some e ∧ e.castEndTimeMS ≤ now ∧ cm.hasCooldown now c =
      (none, { cm with cooldownList := cm.cooldownList.eraseP fun e => e.category == c })) ∨
    ∃ e i, cm.first c = some e ∧ now < e.castEndTimeMS ∧ cm.hasCooldown now c = (some i, cm) := by
  rcases findIdx?_cases (fun e : ActiveCooldown => e.category == c) cm.cooldownList with
    ⟨hi, hfirst⟩ | ⟨i, e, hi, he, hfirst, herase⟩
  · refine .inl ⟨hfirst, ?_⟩
    simp only [hasCooldown, hi]
  · by_cases hend : e.castEndTimeMS ≤ now
    · refine .inr (.inl ⟨e, hfirst, hend, ?_⟩)
      simp only [hasCooldown, hi, he, ge_iff_le, if_pos hend, herase]
    · refine .inr (.inr ⟨e, i, hfirst, UInt64.not_le.mp hend, ?_⟩)
      simp only [hasCooldown, hi, he, ge_iff_le, if_neg hend]

/-- At one time, `HasCooldown` tells of every category whether it has an entry that has not ended.
-/
def Tells (cm : ActiveCooldownManager) (now : UInt64) : Prop :=
  ∀ c, (cm.hasCooldown now c).1.isSome = true ↔
    ∃ e ∈ cm.cooldownList, e.category = c ∧ now < e.castEndTimeMS

/-- An entry that has not ended is not behind one of its category that ends before it. -/
def Covered (cm : ActiveCooldownManager) (now : UInt64) : Prop :=
  ∀ c e, cm.first c = some e → ∀ x ∈ cm.cooldownList, x.category = c →
    x.castEndTimeMS ≤ now ∨ x.castEndTimeMS ≤ e.castEndTimeMS

theorem Covered.later (h : Covered cm now) (hle : now ≤ now') : Covered cm now' :=
  fun c e he x hx hxc => (h c e he x hx hxc).imp_left fun hend => UInt64.le_trans hend hle

theorem Covered.tells (h : Covered cm now) : cm.Tells now := by
  intro c
  rcases hasCooldown_cases cm now c with ⟨hfirst, heq⟩ | ⟨e, hfirst, hend, heq⟩ |
      ⟨e, i, hfirst, hend, heq⟩
  · rw [heq]
    refine iff_of_false Bool.false_ne_true fun ⟨x, hx, hxc, _⟩ => ?_
    obtain ⟨e, he⟩ := exists_first hx hxc
    rw [hfirst] at he
    cases he
  · rw [heq]
    refine iff_of_false Bool.false_ne_true fun ⟨x, hx, hxc, hlt⟩ => ?_
    rcases h c e hfirst x hx hxc with hle | hle
    · exact UInt64.not_le.mpr hlt hle
    · exact UInt64.not_le.mpr hlt (UInt64.le_trans hle hend)
  · rw [heq]
    exact iff_of_true rfl ⟨e, (first_mem hfirst).1, (first_mem hfirst).2, hend⟩

/-- What `HasCooldown` says is right now and stays right exactly when no entry is hidden. -/
theorem covered_iff : Covered cm now ↔ ∀ t, now ≤ t → cm.Tells t := by
  refine ⟨fun h t ht => (h.later ht).tells, fun h c e hfirst x hx hxc => ?_⟩
  by_contra hhidden
  obtain ⟨hnow, hend⟩ := not_or.mp hhidden
  rw [UInt64.not_le] at hnow hend
  -- a moment at which the first entry has ended and the hidden one has not
  obtain ⟨t, hnowt, het, htx⟩ : ∃ t, now ≤ t ∧ e.castEndTimeMS ≤ t ∧ t < x.castEndTimeMS := by
    rcases UInt64.le_total now e.castEndTimeMS with hle | hle
    · exact ⟨_, hle, UInt64.le_refl _, hend⟩
    · exact ⟨_, UInt64.le_refl _, hle, hnow⟩
  have hsome := (h t hnowt c).mpr ⟨x, hx, hxc, htx⟩
  rcases hasCooldown_cases cm t c with ⟨hnone, -⟩ | ⟨e', he', -, heq⟩ | ⟨e', i, he', hlt, -⟩
  · rw [hfirst] at hnone
    cases hnone
  · rw [heq] at hsome
    exact Bool.false_ne_true hsome
  · rw [hfirst] at he'
    cases he'
    exact UInt64.not_le.mpr hlt het

/-- A lookup that erases an entry finds nothing left of its category that has not ended. -/
theorem Covered.hasCooldown (h : Covered cm now) (c : Int) :
    Covered (cm.hasCooldown now c).2 now := by
  rcases hasCooldown_cases cm now c with ⟨-, heq⟩ | ⟨e, hfirst, hend, heq⟩ | ⟨e, i, -, -, heq⟩
  · rwa [heq]
  · rw [heq]
    intro c' e' he' x hx hxc
    have hx' := List.eraseP_subset hx
    by_cases hcc : c' = c
    · refine .inl ?_
      rcases h c e hfirst x hx' (hxc.trans hcc) with hle | hle
      · exact hle
      · exact UInt64.le_trans hle hend
    · have hkept : cm.first c' = some e' := by
        rw [← he']
        exact (find?_eraseP fun a ha => by
          simp only [beq_iff_eq] at ha
          simpa [ha] using Ne.symm hcc).symm
      exact h c' e' hkept x hx' hxc
  · rwa [heq]

/-- A new entry is not hidden when it is the only one of its category, or has ended at once, or ends
no later than the first of its category. -/
def Admits (cm : ActiveCooldownManager) (now : UInt64) (new : ActiveCooldown) : Prop :=
  ∀ e, cm.first new.category = some e →
    new.castEndTimeMS ≤ now ∨ new.castEndTimeMS ≤ e.castEndTimeMS

theorem covered_append (h : Covered cm now) (new : ActiveCooldown) :
    Covered { cm with cooldownList := cm.cooldownList ++ [new] } now ↔ cm.Admits now new := by
  constructor
  · intro h' e he
    exact h' new.category e (find?_append_of_some he _) new
      (List.mem_append_right _ (List.mem_singleton_self _)) rfl
  · intro hadmit c e he x hx hxc
    rcases List.mem_append.mp hx with hx | hx
    · -- the first entry of the category is the one it was
      obtain ⟨e₀, he₀⟩ := exists_first hx hxc
      have heq := (find?_append_of_some he₀ [new]).symm.trans he
      cases heq
      exact h c e he₀ x hx hxc
    · obtain rfl := List.mem_singleton.mp hx
      subst hxc
      cases hfirst : cm.first x.category with
      | none =>
          have hnew := (find?_append_singleton_of_none hfirst x).symm.trans he
          rw [if_pos (beq_self_eq_true _)] at hnew
          cases hnew
          exact .inr (UInt64.le_refl _)
      | some e₀ =>
          have heq := (find?_append_of_some hfirst [x]).symm.trans he
          cases heq
          exact hadmit e hfirst

end ActiveCooldownManager

namespace CooldownState

variable {resolve : Text → Int} {s s' : CooldownState}

/-- What `HasCooldown` says in a state, and in every later one with the same list. -/
def Reliable (s : CooldownState) : Prop :=
  ∀ now, s.g_ServerTime ≤ now → s.manager.Tells now

/-- A call that adds an entry of a category adds it where it is not hidden. -/
def Ok (resolve : Text → Int) (s : CooldownState) : CooldownEvent → Prop
  | .addCooldown category remainMS timeElapsedMS =>
      s.manager.Admits s.g_ServerTime
        (ActiveCooldownManager.newCooldown s.g_ServerTime category remainMS timeElapsedMS)
  | .loadEntry name remainTimeMS timeElapsedMS =>
      resolve name ≠ 0 → s.manager.Admits s.g_ServerTime
        (ActiveCooldownManager.newCooldown s.g_ServerTime (resolve name) remainTimeMS
          timeElapsedMS)
  | .hasCooldown _ => True
  | .tick _ => True

theorem covered_step {a : CooldownEvent} (h : s.manager.Covered s.g_ServerTime)
    (hs : s.step resolve a = some s') :
    s'.manager.Covered s'.g_ServerTime ↔ s.Ok resolve a := by
  cases a with
  | addCooldown category remainMS timeElapsedMS =>
      obtain rfl := Option.some.inj hs
      exact ActiveCooldownManager.covered_append h _
  | loadEntry name remainTimeMS timeElapsedMS =>
      obtain rfl := Option.some.inj hs
      unfold Ok ActiveCooldownManager.loadEntry
      by_cases hname : resolve name = 0
      · simp only [hname, ne_eq, not_true_eq_false, if_false, false_implies, iff_true]
        exact h
      · simp only [ne_eq, hname, not_false_eq_true, if_true, true_implies]
        exact ActiveCooldownManager.covered_append h _
  | hasCooldown category =>
      obtain rfl := Option.some.inj hs
      exact iff_of_true (h.hasCooldown category) trivial
  | tick now =>
      simp only [step] at hs
      split at hs
      · next hle =>
          obtain rfl := Option.some.inj hs
          exact iff_of_true (h.later hle) trivial
      · cases hs

theorem reliable_iff : s.Reliable ↔ s.manager.Covered s.g_ServerTime :=
  ActiveCooldownManager.covered_iff.symm

end CooldownState

/-! ### Buffs -/

namespace BuffState

variable {s s' : BuffState}

/-- The entry of a category that a lookup meets. -/
def first (bm : ActiveBuffManager) (buffType : UInt8) : Option ActiveBuff :=
  bm.buffList.find? fun b => b.buffType == buffType

/-- No two entries of one category. -/
def OneEach (s : BuffState) : Prop := NodupKeys ActiveBuff.buffType s.manager.buffList

/-- An entry that has not ended gives way to one of its category only if that has its tier at
least. -/
def Gives (s s' : BuffState) : Prop :=
  ∀ x ∈ s.manager.buffList, (s.g_ServerTime : Int) < x.castEndTimeMS → x ∉ s'.manager.buffList →
    ∀ y ∈ s'.manager.buffList, y.buffType = x.buffType → x.tier ≤ y.tier

theorem hasBuff_cases (bm : ActiveBuffManager) (now : Nat) (tier buffType : UInt8) :
    (first bm buffType = none ∧ bm.hasBuff now tier buffType = (none, bm)) ∨
    (∃ b, first bm buffType = some b ∧ (b.castEndTimeMS ≤ now ∨ b.tier ≤ tier) ∧
      bm.hasBuff now tier buffType =
        (none, { bm with buffList := bm.buffList.eraseP fun b => b.buffType == buffType })) ∨
    ∃ b i, first bm buffType = some b ∧ (now < b.castEndTimeMS ∧ tier < b.tier) ∧
      bm.buffList[i]? = some b ∧ bm.hasBuff now tier buffType = (some i, bm) := by
  rcases findIdx?_cases (fun b : ActiveBuff => b.buffType == buffType) bm.buffList with
    ⟨hi, hfirst⟩ | ⟨i, b, hi, hb, hfirst, herase⟩
  · refine .inl ⟨hfirst, ?_⟩
    simp only [ActiveBuffManager.hasBuff, hi]
  · by_cases hgone : (now : Int) ≥ b.castEndTimeMS ∨ tier ≥ b.tier
    · refine .inr (.inl ⟨b, hfirst, hgone, ?_⟩)
      simp only [ActiveBuffManager.hasBuff, hi, hb, if_pos hgone, herase]
    · refine .inr (.inr ⟨b, i, hfirst, ?_, hb, ?_⟩)
      · obtain ⟨hend, htier⟩ := not_or.mp hgone
        exact ⟨by omega, UInt8.not_le.mp htier⟩
      · simp only [ActiveBuffManager.hasBuff, hi, hb, if_neg hgone]

/-- An entry is added where there is none of its category, and an update finds none of a higher
tier that has not ended. -/
def Ok (s : BuffState) : BuffEvent → Prop
  | .updateBuff tier buffType _ _ _ _ => ∀ b, first s.manager buffType = some b →
      b.castEndTimeMS ≤ s.g_ServerTime ∨ b.tier ≤ tier
  | .addBuff _ buffType _ _ _ _ => first s.manager buffType = none
  | .hasBuff _ _ => True
  | .removeBuff _ => True
  | .tick _ => True

theorem first_eq_none {bm : ActiveBuffManager} {buffType : UInt8} :
    first bm buffType = none ↔ ∀ b ∈ bm.buffList, b.buffType ≠ buffType := by
  simp [first]

theorem OneEach.eq {x y : ActiveBuff} (h : s.OneEach) (hx : x ∈ s.manager.buffList)
    (hy : y ∈ s.manager.buffList) (hxy : x.buffType = y.buffType) : x = y :=
  List.inj_on_of_nodup_map h hx hy hxy

/-- Calls that only take entries out. -/
theorem OneEach.sublist (h : s.OneEach)
    (hsub : s'.manager.buffList.Sublist s.manager.buffList) : s'.OneEach ∧ s.Gives s' := by
  refine ⟨NodupKeys.sublist h hsub, fun x hx _ hgone y hy hyx => ?_⟩
  obtain rfl := h.eq (hsub.subset hy) hx hyx
  exact absurd hy hgone

theorem append_iff (h : s.OneEach) {b : ActiveBuff}
    (hm : s'.manager.buffList = s.manager.buffList ++ [b]) :
    (s'.OneEach ∧ s.Gives s') ↔ first s.manager b.buffType = none := by
  unfold OneEach
  rw [hm, nodupKeys_append_singleton, first_eq_none]
  refine ⟨fun hall => hall.1.2, fun hnew => ⟨⟨h, hnew⟩, fun x hx _ hgone => ?_⟩⟩
  exact absurd (hm ▸ List.mem_append_left _ hx) hgone

/-- An entry that has ended or is of no higher tier is replaced. -/
theorem OneEach.replace (h : s.OneEach) (new : ActiveBuff) {b : ActiveBuff}
    (hfirst : first s.manager new.buffType = some b)
    (hgone : b.castEndTimeMS ≤ s.g_ServerTime ∨ b.tier ≤ new.tier)
    (hm : s'.manager.buffList =
      (s.manager.buffList.eraseP fun b => b.buffType == new.buffType) ++ [new]) :
    s'.OneEach ∧ s.Gives s' := by
  have hmem := fun y => NodupKeys.mem_eraseP h (k := new.buffType) (b := y)
  refine ⟨?_, fun x hx hlt hout y hy hyx => ?_⟩
  · unfold OneEach
    rw [hm, nodupKeys_append_singleton]
    exact ⟨NodupKeys.sublist h List.eraseP_sublist, fun y hy => ((hmem y).mp hy).2⟩
  · rw [hm] at hout hy
    -- what was taken out is the entry of the category, and what is there of it is the new one
    have hx' : x.buffType = new.buffType := by
      by_contra hne
      exact hout (List.mem_append_left _ ((hmem x).mpr ⟨hx, hne⟩))
    have hxb : x = b :=
      h.eq hx (List.mem_of_find?_eq_some hfirst) (hx'.trans (by
        have hb := List.find?_some hfirst
        exact (beq_iff_eq.mp hb).symm))
    rcases List.mem_append.mp hy with hy | hy
    · exact absurd (hyx.trans hx') ((hmem y).mp hy).2
    · obtain rfl := List.mem_singleton.mp hy
      subst hxb
      rcases hgone with hle | hle
      · omega
      · exact hle

/-- The entry that `UpdateBuff` finds is overwritten in its place. -/
theorem OneEach.not_gives (h : s.OneEach) (new : ActiveBuff) {b : ActiveBuff} {i : Nat}
    (hb : s.manager.buffList[i]? = some b) (hkey : new.buffType = b.buffType)
    (hlt : s.g_ServerTime < b.castEndTimeMS) (htier : new.tier < b.tier)
    (hm : s'.manager.buffList = s.manager.buffList.set i new) : ¬s.Gives s' := by
  intro hgives
  obtain ⟨hi, rfl⟩ := List.getElem?_eq_some_iff.mp hb
  have hkeys : (s.manager.buffList.set i new).map ActiveBuff.buffType =
      s.manager.buffList.map ActiveBuff.buffType := by
    rw [List.map_set, hkey, ← List.getElem_map ActiveBuff.buffType (h := by simpa using hi),
      List.set_getElem_self]
  have hnew : new ∈ s.manager.buffList.set i new := List.mem_set hi new
  have hout : s.manager.buffList[i] ∉ s'.manager.buffList := by
    rw [hm]
    intro hin
    have hnodup : NodupKeys ActiveBuff.buffType (s.manager.buffList.set i new) := by
      unfold NodupKeys
      rw [hkeys]
      exact h
    have heq := List.inj_on_of_nodup_map hnodup hnew hin hkey
    rw [← heq] at htier
    exact UInt8.lt_irrefl _ htier
  have hle := hgives _ (List.getElem_mem hi) hlt hout new (hm ▸ hnew) hkey
  exact UInt8.not_le.mpr htier hle

theorem proper_step {a : BuffEvent} (h : s.OneEach) (hs : s.step a = some s') :
    (s'.OneEach ∧ s.Gives s') ↔ s.Ok a := by
  cases a with
  | updateBuff tier buffType abID abgID duration initialising =>
      obtain rfl := Option.some.inj hs
      rcases hasBuff_cases s.manager s.g_ServerTime tier buffType with
        ⟨hfirst, heq⟩ | ⟨b, hfirst, hgone, heq⟩ | ⟨b, i, hfirst, ⟨hlt, htier⟩, hb, heq⟩
      · refine (append_iff h (b := (s.manager.updateBuff s.g_ServerTime tier buffType abID abgID
          duration initialising).1) ?_).trans (iff_of_true ?_ fun b hb => ?_)
        · simp only [ActiveBuffManager.updateBuff, heq]
        · simpa only [ActiveBuffManager.updateBuff, heq] using hfirst
        · rw [hfirst] at hb
          cases hb
      · refine iff_of_true (h.replace (s.manager.updateBuff s.g_ServerTime tier buffType
          abID abgID duration initialising).1 (b := b) ?_ ?_ ?_) fun b' hb' => ?_
        · simpa only [ActiveBuffManager.updateBuff, heq] using hfirst
        · simpa only [ActiveBuffManager.updateBuff, heq] using hgone
        · simp only [ActiveBuffManager.updateBuff, heq]
        · rw [hfirst] at hb'
          cases hb'
          exact hgone
      · have htype : b.buffType = buffType := by simpa using List.find?_some hfirst
        refine iff_of_false (fun hall => h.not_gives (s.manager.updateBuff s.g_ServerTime
          tier buffType abID abgID duration initialising).1 hb ?_ hlt ?_ ?_ hall.2) fun hok => ?_
        · simp only [ActiveBuffManager.updateBuff, heq, htype]
        · simpa only [ActiveBuffManager.updateBuff, heq] using htier
        · simp only [ActiveBuffManager.updateBuff, heq]
        · rcases hok b hfirst with hle | hle
          · omega
          · exact UInt8.not_le.mpr htier hle
  | addBuff tier buffType abID abgID duration initialising =>
      obtain rfl := Option.some.inj hs
      exact append_iff h (b := ⟨tier, buffType, abID, abgID,
        s.manager.duration tier abID duration initialising, _⟩) rfl
  | hasBuff tier buffType =>
      obtain rfl := Option.some.inj hs
      refine iff_of_true (h.sublist ?_) trivial
      rcases hasBuff_cases s.manager s.g_ServerTime tier buffType with
        ⟨-, heq⟩ | ⟨b, -, -, heq⟩ | ⟨b, i, -, -, -, heq⟩
      · rw [heq]
      · rw [heq]
        exact List.eraseP_sublist
      · rw [heq]
  | removeBuff abilityID =>
      obtain rfl := Option.some.inj hs
      exact iff_of_true (h.sublist List.filter_sublist) trivial
  | tick now =>
      simp only [step] at hs
      split at hs
      · obtain rfl := Option.some.inj hs
        exact iff_of_true (h.sublist (List.Sublist.refl _)) trivial
      · cases hs

end BuffState

/-! ### Runs -/

/-- A creature starts with empty lists. -/
def CooldownState.Init (s : CooldownState) : Prop := s.manager.cooldownList = []

def BuffState.Init (s : BuffState) : Prop := s.manager.buffList = []

/-- Over a run, `HasCooldown` always tells whether a cooldown is going on exactly when no entry was
ever added behind one of its category that ends before it; and there is always one buff of a
category, replaced by those of its tier or a higher one before it has ended, exactly when no buff
was added beside another one and none was updated with a lower tier before it had ended. -/
theorem lasting_iff {resolve : Text → Int} {h : List (CooldownState × CooldownEvent)}
    {s : CooldownState}
    (run : Trace CooldownState.Init (fun _ _ => True) (CooldownState.step resolve) h s)
    {hb : List (BuffState × BuffEvent)} {b : BuffState}
    (runb : Trace BuffState.Init (fun _ _ => True) BuffState.step hb b) :
    ((s.Reliable ∧ ∀ e ∈ h, e.1.Reliable) ↔ ∀ e ∈ h, e.1.Ok resolve e.2) ∧
    ((b.OneEach ∧ ∀ e ∈ hb, e.1.OneEach ∧ ∀ b', e.1.step e.2 = some b' → e.1.Gives b') ↔
      ∀ e ∈ hb, e.1.Ok e.2) := by
  constructor
  · have hinit : ∀ s, CooldownState.Init s → s.manager.Covered s.g_ServerTime := by
      intro s hinit c e he
      have hmem := (ActiveCooldownManager.first_mem he).1
      rw [hinit] at hmem
      cases hmem
    refine Trace.safe_iff hinit (fun s => CooldownState.reliable_iff.mpr) ?_ ?_ run
    · exact fun s a s' hinv hok hs => (CooldownState.covered_step hinv hs).mpr hok
    · exact fun s a s' hinv hbad hs hsafe =>
        hbad ((CooldownState.covered_step hinv hs).mp (CooldownState.reliable_iff.mp hsafe))
  · have hinit : ∀ s, BuffState.Init s → s.OneEach := by
      intro s hinit
      unfold BuffState.OneEach
      rw [hinit]
      exact List.nodup_nil
    have hstep : ∀ s a s', BuffState.OneEach s → s.step a = some s' →
        (s'.OneEach ∧ s.Gives s' ↔ s.Ok a) := fun s a s' hinv hs => BuffState.proper_step hinv hs
    exact @Trace.proper_iff _ _ _ _ _ _ _ (fun s _ s' => s.Gives s') hinit hstep _ _ runb

instance (resolve : Text → Int) (s : CooldownState) : DecidablePred (s.Ok resolve)
  | .addCooldown _ _ _ => inferInstanceAs (Decidable (∀ _ ∈ ActiveCooldownManager.first _ _, _))
  | .loadEntry _ _ _ =>
      inferInstanceAs (Decidable (_ → ∀ _ ∈ ActiveCooldownManager.first _ _, _))
  | .hasCooldown _ | .tick _ => inferInstanceAs (Decidable True)

instance (s : BuffState) : DecidablePred s.Ok
  | .updateBuff _ _ _ _ _ _ => inferInstanceAs (Decidable (∀ _ ∈ BuffState.first _ _, _))
  | .addBuff _ _ _ _ _ _ => inferInstanceAs (Decidable (_ = none))
  | .hasBuff _ _ | .removeBuff _ | .tick _ => inferInstanceAs (Decidable True)

/-- Two cooldowns, of which one has ended, was asked for and starts again; and two types of buffs,
with a tier that replaces another. -/
theorem lasting_iff_several :
    (∃ s, s.manager.cooldownList.length = 2 ∧ CooldownState.Reliable s) ∧
      ∃ s, s.manager.buffList.length = 2 ∧ BuffState.OneEach s := by
  have start : Trace CooldownState.Init (fun _ _ => True) (CooldownState.step fun _ => 0) [] {} :=
    .start rfl
  have startb : Trace BuffState.Init (fun _ _ => True) BuffState.step [] {} := .start rfl
  have hrun : runAll (CooldownState.step fun _ => 0) {}
      [.addCooldown 5 100 0, .addCooldown 6 200 0, .tick 150, .hasCooldown 5,
        .addCooldown 5 300 0] = some _ := rfl
  have hrunb : runAll BuffState.step {} [.updateBuff 1 7 10 0 60 false,
      .updateBuff 2 7 11 0 60 false, .addBuff 1 8 12 0 60 false] = some _ := rfl
  obtain ⟨hcooldown, hbuff⟩ :=
    lasting_iff (start.runAll (okAll_true _ _) hrun) (startb.runAll (okAll_true _ _) hrunb)
  exact ⟨⟨_, by decide, (hcooldown.mpr (by decide)).1⟩, ⟨_, by decide, (hbuff.mpr (by decide)).1⟩⟩

/-- A second cooldown that outlasts the first one is denied once the first has ended, and a buff of
the second tier gives way to one of the first. -/
theorem cooldown_hidden :
    (∃ s, Reach CooldownState.Init (fun _ _ => True) (CooldownState.step fun _ => 0) s ∧
      (s.manager.hasCooldown s.g_ServerTime 5).1 = none ∧
      ∃ e ∈ s.manager.cooldownList, e.category = 5 ∧ s.g_ServerTime < e.castEndTimeMS) ∧
    ∃ s s', Reach BuffState.Init (fun _ _ => True) BuffState.step s ∧
      s.step (.updateBuff 1 7 11 0 60 false) = some s' ∧ ¬s.Gives s' := by
  constructor
  · have hrun : runAll (CooldownState.step fun _ => 0) {}
        [.addCooldown 5 100 0, .addCooldown 5 200 0, .tick 150] = some _ := rfl
    have hreach := reach_of_runAll (show CooldownState.Init {} from rfl) hrun
    exact ⟨_, hreach, by decide, by decide⟩
  · have hrun : runAll BuffState.step {} [.updateBuff 2 7 10 0 60 false] = some _ := rfl
    have hreach := reach_of_runAll (show BuffState.Init {} from rfl) hrun
    refine ⟨_, _, hreach, rfl, ?_⟩
    intro hgives
    have hle := hgives ⟨2, 7, 10, 0, 60, 60000⟩ (by decide) (by decide)
      (by decide) ⟨1, 7, 11, 0, 60, 60000⟩ (by decide) rfl
    exact absurd hle (by decide)

end Iceee.Ability
