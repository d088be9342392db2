import Iceee.Clan.Handlers
import Iceee.Lib.Keyed

/-!
# The structure of the clans

Every clan has a leader, and the clan of a character is the one that lists him. `leave` and the
missing test of the ranks in `remove` break this, and nothing else does.
-/

namespace Iceee.Clans

open Lib

/-! ### What is to hold -/

/-- What holds of the clans and of the characters. -/
structure Structured (w : World) : Prop where
  led : ∀ id c, w.clans id = some c → ∃ m ∈ c.mMembers, m.mRank = Rank.LEADER
  distinct : ∀ id c, w.clans id = some c → NodupKeys ClanMember.mID c.mMembers
  listed : ∀ character id, id ≠ 0 → (w.clan character = id ↔
    ∃ c, w.clans id = some c ∧ character ∈ c.mMembers.map ClanMember.mID)

/-- What a character may make of a clan. -/
structure MayChange (actor : Int) (c c' : Clan) : Prop where
  /-- Only a member of a higher rank removes or demotes. -/
  outranked : ∀ m ∈ c.mMembers,
    (∀ m' ∈ c'.mMembers, m'.mID = m.mID → m'.mRank < m.mRank) →
      ∃ me ∈ c.mMembers, me.mID = actor ∧ m.mRank < me.mRank
  /-- The members are changed by an officer or a leader, or by an invited character. -/
  members : c'.mMembers ≠ c.mMembers →
    (∃ me ∈ c.mMembers, me.mID = actor ∧ Rank.OFFICER ≤ me.mRank) ∨
      (actor ∈ c.mPendingMembers ∧
        c'.mMembers = c.mMembers ++ [{ mID := actor, mRank := Rank.INITIATE }])
  /-- Only an officer or a leader invites. -/
  invited : ∀ x ∈ c'.mPendingMembers, x ∉ c.mPendingMembers →
    ∃ me ∈ c.mMembers, me.mID = actor ∧ Rank.OFFICER ≤ me.mRank

/-- What a query of a character may do. -/
structure Caused (actor : Int) (w w' : World) : Prop where
  kept : ∀ id c c', w.clans id = some c → w'.clans id = some c' → MayChange actor c c'
  ended : ∀ id c, w.clans id = some c → w'.clans id = none →
    ∃ me ∈ c.mMembers, me.mID = actor ∧ me.mRank = Rank.LEADER
  founded : ∀ id c', w.clans id = none → w'.clans id = some c' →
    c'.mMembers = [{ mID := actor, mRank := Rank.LEADER }]

/-- The condition of a query: a character who leaves has no clan, and a member who is removed
has a lower rank than the one who removes him. -/
def Allowed (w : World) : Handler × Query → Prop
  | (.leave, q) => q.clansEnabled = false ∨ w.clan q.CreatureDefID = 0
  | (.remove, q) =>
      match w.clans (w.clan q.CreatureDefID), q.args with
      | some c, memberName :: _ =>
          Rank.OFFICER ≤ (c.getMember q.CreatureDefID).mRank →
            q.getIDByName memberName ≠ q.CreatureDefID →
            (c.getMember (q.getIDByName memberName)).mID ≠ 0 →
            (c.getMember (q.getIDByName memberName)).mRank <
              (c.getMember q.CreatureDefID).mRank
      | _, _ => True
  | _ => True

instance Allowed.decidable (w : World) : (e : Handler × Query) → Decidable (Allowed w e)
  | (.leave, q) => inferInstanceAs (Decidable (q.clansEnabled = false ∨ w.clan q.CreatureDefID = 0))
  | (.remove, q) =>
      match h : w.clans (w.clan q.CreatureDefID), ha : q.args with
      | some c, memberName :: _ =>
          decidable_of_iff (Rank.OFFICER ≤ (c.getMember q.CreatureDefID).mRank →
            q.getIDByName memberName ≠ q.CreatureDefID →
            (c.getMember (q.getIDByName memberName)).mID ≠ 0 →
            (c.getMember (q.getIDByName memberName)).mRank <
              (c.getMember q.CreatureDefID).mRank) (by simp only [Allowed, h, ha])
      | none, _ => isTrue (by simp only [Allowed, h])
      | some c, [] => isTrue (by simp only [Allowed, h, ha])
  | (.disband, _) | (.create, _) | (.inviteAccept, _) | (.invite, _) | (.rank, _) =>
      inferInstanceAs (Decidable True)

/-! ### Members -/

namespace Clan

variable {c : Clan} {id : Int}

/-- A character is listed, or `GetMember` makes a member without ID. -/
theorem getMember_cases (c : Clan) (id : Int) :
    (c.getMember id ∈ c.mMembers ∧ (c.getMember id).mID = id) ∨
      (c.getMember id = {} ∧ id ∉ c.mMembers.map ClanMember.mID) := by
  unfold getMember
  cases h : c.mMembers.find? fun m => m.mID == id with
  | none =>
      right
      refine ⟨rfl, fun hmem => ?_⟩
      obtain ⟨m, hm, rfl⟩ := List.mem_map.mp hmem
      exact List.find?_eq_none.mp h m hm (beq_self_eq_true _)
  | some m => exact .inl ⟨List.mem_of_find?_eq_some h, by simpa using List.find?_some h⟩

/-- A rank above the one of a new member comes from the list. -/
theorem getMember_of_officer (h : Rank.OFFICER ≤ (c.getMember id).mRank) :
    c.getMember id ∈ c.mMembers ∧ (c.getMember id).mID = id := by
  obtain hmem | ⟨hnew, -⟩ := c.getMember_cases id
  · exact hmem
  · rw [hnew] at h
    exact absurd h (by decide)

theorem getMember_of_mID (h : (c.getMember id).mID ≠ 0) :
    c.getMember id ∈ c.mMembers ∧ (c.getMember id).mID = id := by
  obtain hmem | ⟨hnew, -⟩ := c.getMember_cases id
  · exact hmem
  · rw [hnew] at h
    exact absurd rfl h

end Clan

/-- Of two entries with one ID there is one. -/
theorem eq_of_mID {l : List ClanMember} (h : NodupKeys ClanMember.mID l) {a b : ClanMember}
    (ha : a ∈ l) (hb : b ∈ l) (hab : a.mID = b.mID) : a = b :=
  List.inj_on_of_nodup_map h ha hb hab

/-! ### What is kept -/

/-- What the queries keep: the structure, and the IDs and names of the clans. -/
structure Kept (w : World) : Prop extends Structured w where
  ranks : ∀ id c, w.clans id = some c → ∀ m ∈ c.mMembers, m.mRank ≤ Rank.LEADER
  ids : ∀ id c, w.clans id = some c → c.mId = id ∧ 0 < id ∧ id ≤ w.nextClanID
  named : ∀ name id, w.clanNameToID name = some id → ∃ c, w.clans id = some c ∧ c.mName = name
  next : 0 ≤ w.nextClanID

theorem MayChange.refl (actor : Int) (c : Clan) : MayChange actor c c where
  outranked m hm h := absurd (h m hm rfl) (lt_irrefl _)
  members h := absurd rfl h
  invited _ hx hnot := absurd hx hnot

variable {w w' : World} {actor id : Int} {c c' : Clan}

theorem caused_same (h : w'.clans = w.clans) : Caused actor w w' := by
  refine ⟨fun id c c' hc hc' => ?_, fun id c hc hc' => ?_, fun id c' hc hc' => ?_⟩
  · rw [h, hc] at hc'
    cases hc'
    exact MayChange.refl actor c
  · rw [h, hc] at hc'
    cases hc'
  · rw [h, hc] at hc'
    cases hc'

/-- A query that changes, removes or founds one clan. -/
theorem caused_update (id : Int) {o : Option Clan} (h : w'.clans = Function.update w.clans id o)
    (hkept : ∀ c c', w.clans id = some c → o = some c' → MayChange actor c c')
    (hended : ∀ c, w.clans id = some c → o = none →
      ∃ me ∈ c.mMembers, me.mID = actor ∧ me.mRank = Rank.LEADER)
    (hfounded : ∀ c', w.clans id = none → o = some c' →
      c'.mMembers = [{ mID := actor, mRank := Rank.LEADER }]) : Caused actor w w' := by
  have hother {i : Int} (hi : i ≠ id) : w'.clans i = w.clans i := by
    rw [h, Function.update_of_ne hi]
  have hself : w'.clans id = o := by rw [h, Function.update_self]
  refine ⟨fun i c₀ c₁ h0 h1 => ?_, fun i c₀ h0 h1 => ?_, fun i c₁ h0 h1 => ?_⟩
  · by_cases hi : i = id
    · subst hi
      exact hkept c₀ c₁ h0 (hself.symm.trans h1)
    · cases h0.symm.trans ((hother hi).symm.trans h1)
      exact MayChange.refl actor _
  · by_cases hi : i = id
    · subst hi
      exact hended c₀ h0 (hself.symm.trans h1)
    · cases h0.symm.trans ((hother hi).symm.trans h1)
  · by_cases hi : i = id
    · subst hi
      exact hfounded c₁ h0 (hself.symm.trans h1)
    · cases h0.symm.trans ((hother hi).symm.trans h1)

theorem World.of_hasClan {id : Int} (h : ¬ (!w.hasClan id) = true) :
    w.clans id = some (w.getClan id) := by
  simp only [hasClan, Bool.not_eq_true', Bool.not_eq_false] at h
  obtain ⟨c, hc⟩ := Option.isSome_iff_exists.mp h
  rw [getClan, hc]
  rfl

/-- A clan is saved whose members are right. -/
theorem Kept.saveClan (hk : Kept w) (hc : w.clans id = some c) (hid : c'.mId = c.mId)
    (hname : c'.mName = c.mName) (hled : ∃ m ∈ c'.mMembers, m.mRank = Rank.LEADER)
    (hdistinct : NodupKeys ClanMember.mID c'.mMembers)
    (hranks : ∀ m ∈ c'.mMembers, m.mRank ≤ Rank.LEADER) {clan' : Int → Int}
    (hlisted : ∀ ch, clan' ch = id ↔ ch ∈ c'.mMembers.map ClanMember.mID)
    (hother : ∀ ch i, i ≠ id → i ≠ 0 → (clan' ch = i ↔ w.clan ch = i)) :
    Kept (World.saveClan { w with clan := clan' } c') := by
  have hself : (World.saveClan { w with clan := clan' } c').clans id = some c' := by
    rw [← (hk.ids id c hc).1, ← hid]
    exact Function.update_self _ _ _
  have hclans {i : Int} (hi : i ≠ id) :
      (World.saveClan { w with clan := clan' } c').clans i = w.clans i := by
    apply Function.update_of_ne
    rw [hid, (hk.ids id c hc).1]
    exact hi
  refine ⟨⟨fun i c₁ h1 => ?_, fun i c₁ h1 => ?_, fun ch i hi0 => ?_⟩, fun i c₁ h1 => ?_,
    fun i c₁ h1 => ?_, fun name i hname' => ?_, hk.next⟩
  · by_cases hi : i = id
    · subst hi
      cases hself.symm.trans h1
      exact hled
    · exact hk.led i c₁ ((hclans hi).symm.trans h1)
  · by_cases hi : i = id
    · subst hi
      cases hself.symm.trans h1
      exact hdistinct
    · exact hk.distinct i c₁ ((hclans hi).symm.trans h1)
  · by_cases hi : i = id
    · subst hi
      rw [hself]
      refine (hlisted ch).trans ⟨fun h => ⟨c', rfl, h⟩, ?_⟩
      rintro ⟨_, h, hmem⟩
      cases h
      exact hmem
    · rw [hclans hi]
      exact (hother ch i hi hi0).trans (hk.listed ch i hi0)
  · by_cases hi : i = id
    · subst hi
      cases hself.symm.trans h1
      exact hranks
    · exact hk.ranks i c₁ ((hclans hi).symm.trans h1)
  · by_cases hi : i = id
    · subst hi
      cases hself.symm.trans h1
      exact ⟨hid.trans (hk.ids i c hc).1, (hk.ids i c hc).2⟩
    · exact hk.ids i c₁ ((hclans hi).symm.trans h1)
  · by_cases hn : name = c'.mName
    · subst hn
      have hi : i = c'.mId := by
        have hstored : (World.saveClan { w with clan := clan' } c').clanNameToID c'.mName =
            some c'.mId := Function.update_self _ _ _
        exact Option.some.inj (hname'.symm.trans hstored)
      rw [hi, hid, (hk.ids id c hc).1]
      exact ⟨c', hself, rfl⟩
    · have hstored : w.clanNameToID name = some i :=
        (Function.update_of_ne hn _ _).symm.trans hname'
      obtain ⟨c₁, h1, h1name⟩ := hk.named name i hstored
      have hi : i ≠ id := by
        rintro rfl
        cases hc.symm.trans h1
        exact hn (h1name.symm.trans hname.symm)
      exact ⟨c₁, (hclans hi).trans h1, h1name⟩

theorem Kept.mem_iff (hk : Kept w) (hc : w.clans id = some c) (ch : Int) :
    w.clan ch = id ↔ ch ∈ c.mMembers.map ClanMember.mID := by
  rw [hk.listed ch id (hk.ids id c hc).2.1.ne', hc]
  constructor
  · rintro ⟨_, h, hmem⟩
    cases h
    exact hmem
  · intro hmem
    exact ⟨c, rfl, hmem⟩

/-- A query that saves a clan. -/
theorem Kept.saved (hk : Kept w) (hc : w.clans id = some c) (c' : Clan) (clan' : Int → Int)
    (hid : c'.mId = c.mId) (hname : c'.mName = c.mName)
    (hled : ∃ m ∈ c'.mMembers, m.mRank = Rank.LEADER)
    (hdistinct : NodupKeys ClanMember.mID c'.mMembers)
    (hranks : ∀ m ∈ c'.mMembers, m.mRank ≤ Rank.LEADER)
    (hlisted : ∀ ch, clan' ch = id ↔ ch ∈ c'.mMembers.map ClanMember.mID)
    (hother : ∀ ch i, i ≠ id → i ≠ 0 → (clan' ch = i ↔ w.clan ch = i))
    (hmay : MayChange actor c c') :
    Kept (World.saveClan { w with clan := clan' } c') ∧
      Caused actor w (World.saveClan { w with clan := clan' } c') := by
  refine ⟨hk.saveClan hc hid hname hled hdistinct hranks hlisted hother, ?_⟩
  have h : (World.saveClan { w with clan := clan' } c').clans =
      Function.update w.clans id (some c') := by
    rw [← (hk.ids id c hc).1, ← hid]
    rfl
  apply caused_update id h
  · intro c₀ c₁ h0 h1
    cases hc.symm.trans h0
    cases h1
    exact hmay
  · intro c₀ _ h1
    cases h1
  · intro c₁ h0 _
    cases hc.symm.trans h0

/-- A clan is removed and its members have none. -/
theorem Kept.removeClan (hk : Kept w) (hc : w.clans id = some c) {clan' : Int → Int}
    (hclan : ∀ ch, clan' ch = if ch ∈ c.mMembers.map ClanMember.mID then 0 else w.clan ch) :
    Kept (World.removeClan { w with clan := clan' } c) := by
  have hcid := (hk.ids id c hc).1
  have hself : (World.removeClan { w with clan := clan' } c).clans id = none := by
    rw [← hcid]
    exact Function.update_self _ _ _
  have hclans {i : Int} (hi : i ≠ id) :
      (World.removeClan { w with clan := clan' } c).clans i = w.clans i := by
    apply Function.update_of_ne
    rw [hcid]
    exact hi
  have hsome {i : Int} {c₁ : Clan}
      (h1 : (World.removeClan { w with clan := clan' } c).clans i = some c₁) :
      i ≠ id ∧ w.clans i = some c₁ := by
    by_cases hi : i = id
    · subst hi
      cases hself.symm.trans h1
    · exact ⟨hi, (hclans hi).symm.trans h1⟩
  refine ⟨⟨fun i c₁ h1 => hk.led i c₁ (hsome h1).2,
    fun i c₁ h1 => hk.distinct i c₁ (hsome h1).2, fun ch i hi0 => ?_⟩,
    fun i c₁ h1 => hk.ranks i c₁ (hsome h1).2, fun i c₁ h1 => hk.ids i c₁ (hsome h1).2,
    fun name i hname => ?_, hk.next⟩
  · have hfield : (World.removeClan { w with clan := clan' } c).clan ch = clan' ch := rfl
    rw [hfield, hclan]
    by_cases hch : ch ∈ c.mMembers.map ClanMember.mID
    · rw [if_pos hch]
      constructor
      · intro h0
        exact absurd h0.symm hi0
      · rintro ⟨c₁, h1, hmem⟩
        have hhis := (hk.listed ch id (hk.ids id c hc).2.1.ne').mpr ⟨c, hc, hch⟩
        have hhere := (hk.listed ch i hi0).mpr ⟨c₁, (hsome h1).2, hmem⟩
        exact absurd (hhere.symm.trans hhis) (hsome h1).1
    · rw [if_neg hch, hk.listed ch i hi0]
      constructor
      · rintro ⟨c₁, h1, hmem⟩
        have hi : i ≠ id := by
          rintro rfl
          cases hc.symm.trans h1
          exact hch hmem
        exact ⟨c₁, (hclans hi).trans h1, hmem⟩
      · rintro ⟨c₁, h1, hmem⟩
        exact ⟨c₁, (hsome h1).2, hmem⟩
  · have hn : name ≠ c.mName := by
      rintro rfl
      have hnone : (World.removeClan { w with clan := clan' } c).clanNameToID c.mName = none :=
        Function.update_self _ _ _
      cases hnone.symm.trans hname
    obtain ⟨c₁, h1, h1name⟩ :=
      hk.named name i ((Function.update_of_ne hn _ _).symm.trans hname)
    have hi : i ≠ id := by
      rintro rfl
      cases hc.symm.trans h1
      exact hn h1name.symm
    exact ⟨c₁, (hclans hi).trans h1, h1name⟩

/-- A clan is founded by a character who has none. -/
theorem Kept.createClan (hk : Kept w) (time : UInt64) (name : Text) {ch : Int}
    (hch : w.clan ch = 0) :
    Kept ((w.createClan time
      { mName := name, mMembers := [{ mID := ch, mRank := Rank.LEADER }] }).1.setClan ch
        (w.createClan time
          { mName := name, mMembers := [{ mID := ch, mRank := Rank.LEADER }] }).2) := by
  obtain ⟨id, hid⟩ : ∃ id, w.nextClanID + 1 = id := ⟨_, rfl⟩
  obtain ⟨c, hc⟩ : ∃ c : Clan, c =
    { mName := name, mMembers := [{ mID := ch, mRank := Rank.LEADER }], mId := id
      mCreated := time } := ⟨_, rfl⟩
  have hw : (w.createClan time
      { mName := name, mMembers := [{ mID := ch, mRank := Rank.LEADER }] }).1.setClan ch
        (w.createClan time
          { mName := name, mMembers := [{ mID := ch, mRank := Rank.LEADER }] }).2 =
      { w with
        nextClanID := id, clans := Function.update w.clans id (some c)
        clanNameToID := Function.update w.clanNameToID name (some id)
        clan := Function.update w.clan ch id } := by
    rw [← hid] at hc
    rw [← hid, hc]
    rfl
  have hnew (i : Int) (c₁ : Clan) (h1 : w.clans i = some c₁) : i ≠ id := by
    have hle := (hk.ids i c₁ h1).2.2
    omega
  have hpos : 0 < id := by
    have hnext := hk.next
    omega
  have hself : Function.update w.clans id (some c) id = some c := Function.update_self _ _ _
  have hmem : ∃ m ∈ c.mMembers, m.mRank = Rank.LEADER := by
    rw [hc]
    exact ⟨_, List.mem_cons_self, rfl⟩
  have hids : c.mMembers.map ClanMember.mID = [ch] := by rw [hc]; rfl
  rw [hw]
  refine ⟨⟨fun i c₁ h1 => ?_, fun i c₁ h1 => ?_, fun x i hi0 => ?_⟩, fun i c₁ h1 => ?_,
    fun i c₁ h1 => ?_, fun n i hn => ?_, hpos.le⟩
  · by_cases hi : i = id
    · subst hi
      cases hself.symm.trans h1
      exact hmem
    · exact hk.led i c₁ ((Function.update_of_ne hi _ _).symm.trans h1)
  · by_cases hi : i = id
    · subst hi
      cases hself.symm.trans h1
      rw [NodupKeys, hids]
      exact List.nodup_singleton ch
    · exact hk.distinct i c₁ ((Function.update_of_ne hi _ _).symm.trans h1)
  · dsimp only
    by_cases hi : i = id
    · subst hi
      rw [hself]
      constructor
      · intro hx
        refine ⟨c, rfl, ?_⟩
        rw [hids, List.mem_singleton]
        by_contra hne
        rw [Function.update_of_ne hne] at hx
        obtain ⟨c₁, h1, -⟩ := (hk.listed x i hpos.ne').mp hx
        exact hnew i c₁ h1 rfl
      · rintro ⟨_, h, hx⟩
        cases h
        rw [hids, List.mem_singleton] at hx
        rw [hx, Function.update_self]
    · rw [Function.update_of_ne hi]
      by_cases hx : x = ch
      · subst hx
        rw [Function.update_self, ← hk.listed x i hi0, hch]
        exact ⟨fun h => absurd h.symm hi, fun h => absurd h.symm hi0⟩
      · rw [Function.update_of_ne hx]
        exact hk.listed x i hi0
  · by_cases hi : i = id
    · subst hi
      cases hself.symm.trans h1
      rw [hc]
      intro m hm
      rw [List.mem_singleton.mp hm]
    · exact hk.ranks i c₁ ((Function.update_of_ne hi _ _).symm.trans h1)
  · by_cases hi : i = id
    · subst hi
      cases hself.symm.trans h1
      rw [hc]
      exact ⟨rfl, hpos, le_rfl⟩
    · obtain ⟨h2, h3, h4⟩ := hk.ids i c₁ ((Function.update_of_ne hi _ _).symm.trans h1)
      refine ⟨h2, h3, ?_⟩
      dsimp only
      omega
  · by_cases hname : n = name
    · subst hname
      have hi : i = id := Option.some.inj (hn.symm.trans (Function.update_self _ _ _))
      rw [hi]
      refine ⟨c, hself, ?_⟩
      rw [hc]
    · obtain ⟨c₁, h1, h1name⟩ := hk.named n i ((Function.update_of_ne hname _ _).symm.trans hn)
      exact ⟨c₁, (Function.update_of_ne (hnew i c₁ h1) _ _).trans h1, h1name⟩

/-! ### The handlers -/

/-- Only a change of the copper. -/
theorem Kept.adjustCopper (hk : Kept w) (ch coinChange : Int) :
    Kept (w.adjustCopper ch coinChange) :=
  ⟨⟨hk.led, hk.distinct, hk.listed⟩, hk.ranks, hk.ids, hk.named, hk.next⟩

theorem World.foldl_setClan (l : List ClanMember) (w : World) :
    l.foldl (fun w m => w.setClan m.mID 0) w =
      { w with clan := fun ch => if ch ∈ l.map ClanMember.mID then 0 else w.clan ch } := by
  induction l generalizing w with
  | nil => simp
  | cons m rest ih =>
      rw [List.foldl_cons, ih, setClan]
      congr 1
      funext ch
      by_cases hch : ch = m.mID
      · simp [hch]
      · simp [hch]

theorem Kept.disband (hk : Kept w) (q : Query) :
    Kept (w.disband q).1 ∧ Caused q.CreatureDefID w (w.disband q).1 := by
  have hsame : Kept w ∧ Caused q.CreatureDefID w w := ⟨hk, caused_same rfl⟩
  unfold World.disband
  dsimp only
  split
  · exact hsame
  split
  · exact hsame
  split
  · exact hsame
  next hzero hhas hrank =>
    obtain ⟨id, hid⟩ : ∃ id, w.clan q.CreatureDefID = id := ⟨_, rfl⟩
    rw [hid] at hzero hhas hrank ⊢
    have hc := World.of_hasClan hhas
    generalize w.getClan id = c at hc hrank ⊢
    rw [not_not] at hrank
    have hofficer : Rank.OFFICER ≤ (c.getMember q.CreatureDefID).mRank := by
      rw [hrank]
      decide
    obtain ⟨hmem, hmid⟩ := Clan.getMember_of_officer hofficer
    rw [World.foldl_setClan]
    refine ⟨hk.removeClan hc fun _ => rfl, ?_⟩
    apply caused_update c.mId (o := none) rfl
    · intro _ _ _ h
      cases h
    · intro c₀ h0 _
      rw [(hk.ids id c hc).1, hc] at h0
      cases h0
      exact ⟨_, hmem, hmid, hrank⟩
    · intro _ _ h
      cases h

theorem Kept.create (hk : Kept w) (q : Query) :
    Kept (w.create q).1 ∧ Caused q.CreatureDefID w (w.create q).1 := by
  have hsame : Kept w ∧ Caused q.CreatureDefID w w := ⟨hk, caused_same rfl⟩
  unfold World.create
  split
  · exact hsame
  split
  · exact hsame
  split
  · exact hsame
  split
  · exact hsame
  next name _ _ hclan _ =>
    have hpaid := hk.adjustCopper q.CreatureDefID (-q.ClanCost)
    have hzero : w.clan q.CreatureDefID = 0 := by
      by_contra hne
      obtain ⟨c, hc, -⟩ := (hk.listed q.CreatureDefID _ hne).mp rfl
      exact hclan (hk.ids _ c hc).2.1
    dsimp only
    split
    · refine ⟨hpaid.createClan q.time name hzero, ?_⟩
      apply caused_update (w.nextClanID + 1) rfl
      · intro c _ h0 _
        have hle := (hk.ids _ c h0).2.2
        omega
      · intro c h0 _
        have hle := (hk.ids _ c h0).2.2
        omega
      · intro c' _ h1
        cases h1
        rfl
    · exact ⟨hpaid, caused_same rfl⟩

theorem Kept.inviteAccept (hk : Kept w) (q : Query) :
    Kept (w.inviteAccept q).1 ∧ Caused q.CreatureDefID w (w.inviteAccept q).1 := by
  have hsame : Kept w ∧ Caused q.CreatureDefID w w := ⟨hk, caused_same rfl⟩
  unfold World.inviteAccept
  dsimp only
  split
  · exact hsame
  split
  · exact hsame
  split
  · exact hsame
  split
  · exact hsame
  split
  · exact hsame
  next name _ _ hclan hfound hpending =>
    obtain ⟨id, hid⟩ : ∃ id, w.findClanID name = id := ⟨_, rfl⟩
    rw [hid] at hfound hpending ⊢
    rw [not_not] at hclan hpending
    obtain ⟨c, hc⟩ : ∃ c, w.clans id = some c := by
      cases hname : w.clanNameToID name with
      | none =>
          rw [World.findClanID, hname] at hid
          exact absurd hid.symm hfound
      | some i =>
          rw [World.findClanID, hname] at hid
          obtain ⟨c, hc, -⟩ := hk.named name i hname
          exact ⟨c, hid ▸ hc⟩
    have hget : w.getClan id = c := by rw [World.getClan, hc]; rfl
    rw [hget] at hpending ⊢
    have hpos := (hk.ids id c hc).2.1
    have hnot : q.CreatureDefID ∉ c.mMembers.map ClanMember.mID := by
      rw [← hk.mem_iff hc, hclan]
      exact hpos.ne
    obtain ⟨leader, hleader, hrank⟩ := hk.led id c hc
    refine hk.saved hc
      { c with
        mPendingMembers := c.mPendingMembers.erase q.CreatureDefID
        mMembers := c.mMembers ++ [{ mID := q.CreatureDefID, mRank := Rank.INITIATE }] }
      (Function.update w.clan q.CreatureDefID id) rfl rfl
      ⟨leader, List.mem_append_left _ hleader, hrank⟩ ?_ ?_ (fun ch => ?_)
      (fun ch i hi hi0 => ?_) ?_
    · apply nodupKeys_append_singleton.mpr
      refine ⟨hk.distinct id c hc, fun m hm heq => hnot ?_⟩
      exact List.mem_map.mpr ⟨m, hm, heq⟩
    · intro m hm
      obtain hm | hm := List.mem_append.mp hm
      · exact hk.ranks id c hc m hm
      · rw [List.mem_singleton.mp hm]
        exact (by decide : Rank.INITIATE ≤ Rank.LEADER)
    · rw [List.map_append, List.mem_append, List.map_singleton, List.mem_singleton]
      by_cases hch : ch = q.CreatureDefID
      · simp [hch]
      · rw [Function.update_of_ne hch, hk.mem_iff hc]
        simp [hch]
    · by_cases hch : ch = q.CreatureDefID
      · rw [hch, Function.update_self, hclan]
        exact ⟨fun h => absurd h.symm hi, fun h => absurd h.symm hi0⟩
      · rw [Function.update_of_ne hch]
    · refine ⟨fun m hm h => ?_, fun _ => .inr ⟨hpending, rfl⟩, fun x hx hnew => ?_⟩
      · exact absurd (h m (List.mem_append_left _ hm) rfl) (lt_irrefl _)
      · exact absurd (List.mem_of_mem_erase hx) hnew

theorem Kept.invite (hk : Kept w) (q : Query) :
    Kept (w.invite q).1 ∧ Caused q.CreatureDefID w (w.invite q).1 := by
  have hsame : Kept w ∧ Caused q.CreatureDefID w w := ⟨hk, caused_same rfl⟩
  unfold World.invite
  dsimp only
  split
  · exact hsame
  split
  · exact hsame
  split
  · exact hsame
  split
  · exact hsame
  split
  · exact hsame
  split
  · exact hsame
  next cd _ =>
    have hhas := ‹¬ (!w.hasClan (w.clan q.CreatureDefID)) = true›
    have hrank := ‹¬ ((w.getClan (w.clan q.CreatureDefID)).getMember q.CreatureDefID).mRank < _›
    obtain ⟨id, hid⟩ : ∃ id, w.clan q.CreatureDefID = id := ⟨_, rfl⟩
    rw [hid] at hhas hrank ⊢
    have hc := World.of_hasClan hhas
    generalize w.getClan id = c at hc hrank ⊢
    obtain ⟨hmem, hmid⟩ := Clan.getMember_of_officer (not_lt.mp hrank)
    refine hk.saved hc { c with mPendingMembers := c.mPendingMembers ++ [cd] } w.clan rfl rfl
      (hk.led id c hc) (hk.distinct id c hc) (hk.ranks id c hc) (hk.mem_iff (c := c) hc)
      (fun _ _ _ _ => Iff.rfl) ?_
    exact ⟨fun m hm h => absurd (h m hm rfl) (lt_irrefl _), fun h => absurd rfl h,
      fun _ _ _ => ⟨_, hmem, hmid, not_lt.mp hrank⟩⟩

/-- A leader is not the lower one of two members. -/
theorem Kept.led_of_ne (hk : Kept w) (hc : w.clans id = some c) {me them : ClanMember}
    (hme : me ∈ c.mMembers) (hthem : them ∈ c.mMembers) (hlt : them.mRank < me.mRank) :
    ∃ m ∈ c.mMembers, m.mID ≠ them.mID ∧ m.mRank = Rank.LEADER := by
  obtain ⟨leader, hleader, hrank⟩ := hk.led id c hc
  refine ⟨leader, hleader, fun h => ?_, hrank⟩
  have heq := eq_of_mID (hk.distinct id c hc) hleader hthem h
  have hle := hk.ranks id c hc me hme
  rw [heq] at hrank
  omega

theorem Kept.changeRank (hk : Kept w) (q : Query) (hc : w.clans id = some c)
    (memberCDefID newRank : Int) :
    Kept (w.changeRank q c memberCDefID newRank).1 ∧
      Caused q.CreatureDefID w (w.changeRank q c memberCDefID newRank).1 := by
  have hsame : Kept w ∧ Caused q.CreatureDefID w w := ⟨hk, caused_same rfl⟩
  unfold World.changeRank
  dsimp only
  split
  · exact hsame
  split
  · exact hsame
  split
  · exact hsame
  split
  · exact hsame
  split
  · exact hsame
  split
  · exact hsame
  split
  · exact hsame
  split
  · exact hsame
  next hmine htheirs hself hofficer hlower hnew _ _ =>
    obtain ⟨hme, hmid⟩ := Clan.getMember_of_mID hmine
    obtain ⟨hthem, htid⟩ := Clan.getMember_of_mID htheirs
    generalize c.getMember q.CreatureDefID = me at *
    generalize c.getMember memberCDefID = them at *
    rw [not_le] at hlower
    rw [not_lt] at hofficer hnew
    have hdistinct := hk.distinct id c hc
    have hmem {b : ClanMember} : b ∈ (c.updateMember { them with mRank := newRank }).mMembers ↔ _ :=
      hdistinct.mem_modify_findIdx
    obtain ⟨leader, hleader, hne, hrank⟩ := hk.led_of_ne hc hme hthem hlower
    refine hk.saved hc (c.updateMember { them with mRank := newRank }) w.clan rfl rfl
      ⟨leader, hmem.mpr (.inl ⟨hleader, hne⟩), hrank⟩ ?_ (fun m hm => ?_) (fun ch => ?_)
      (fun _ _ _ _ => Iff.rfl) ?_
    · exact hdistinct.replace fun _ _ => rfl
    · obtain ⟨hold, -⟩ | ⟨_, _, _, rfl⟩ := hmem.mp hm
      · exact hk.ranks id c hc m hold
      · exact hnew.trans (hk.ranks id c hc me hme)
    · rw [hk.mem_iff hc, List.mem_map, List.mem_map]
      constructor
      · rintro ⟨m, hm, rfl⟩
        by_cases hmt : m.mID = them.mID
        · exact ⟨{ them with mRank := newRank }, hmem.mpr (.inr ⟨them, hthem, rfl, rfl⟩), hmt.symm⟩
        · exact ⟨m, hmem.mpr (.inl ⟨hm, hmt⟩), rfl⟩
      · rintro ⟨m, hm, rfl⟩
        obtain ⟨hold, -⟩ | ⟨_, _, _, rfl⟩ := hmem.mp hm
        · exact ⟨m, hold, rfl⟩
        · exact ⟨them, hthem, rfl⟩
    · refine ⟨fun m hm h => ?_, fun _ => .inl ⟨me, hme, hmid, hofficer⟩, fun x hx hnot => ?_⟩
      · by_cases hmt : m.mID = them.mID
        · rw [eq_of_mID hdistinct hm hthem hmt]
          exact ⟨me, hme, hmid, hlower⟩
        · exact absurd (h m (hmem.mpr (.inl ⟨hm, hmt⟩)) rfl) (lt_irrefl _)
      · exact absurd hx hnot

theorem Kept.rank (hk : Kept w) (q : Query) :
    Kept (w.rank q).1 ∧ Caused q.CreatureDefID w (w.rank q).1 := by
  have hsame : Kept w ∧ Caused q.CreatureDefID w w := ⟨hk, caused_same rfl⟩
  unfold World.rank
  dsimp only
  split
  · exact hsame
  split
  · exact hsame
  split
  · exact hsame
  next hhas =>
    split
    · split
      · exact hsame
      · exact hk.changeRank q (World.of_hasClan hhas) _ _
    · exact hsame

theorem Kept.remove (hk : Kept w) (q : Query) (hq : Allowed w (.remove, q)) :
    Kept (w.remove q).1 ∧ Caused q.CreatureDefID w (w.remove q).1 := by
  have hsame : Kept w ∧ Caused q.CreatureDefID w w := ⟨hk, caused_same rfl⟩
  unfold World.remove
  dsimp only
  split
  · exact hsame
  split
  · exact hsame
  next memberName _ hargs =>
    split
    · exact hsame
    split
    · exact hsame
    next hhas =>
      simp only [Allowed, World.of_hasClan hhas, hargs] at hq
      obtain ⟨id, hid⟩ : ∃ id, w.clan q.CreatureDefID = id := ⟨_, rfl⟩
      rw [hid] at hhas hq ⊢
      have hc := World.of_hasClan hhas
      generalize w.getClan id = c at hc hq ⊢
      generalize q.getIDByName memberName = memberCDefID at *
      split
      · exact hsame
      split
      · exact hsame
      split
      · exact hsame
      split
      · exact hsame
      next hofficer hknown hother htheirs =>
        rw [not_lt] at hofficer
        have hlower := hq hofficer hother htheirs
        obtain ⟨hme, hmid⟩ := Clan.getMember_of_officer hofficer
        obtain ⟨hthem, htid⟩ := Clan.getMember_of_mID htheirs
        generalize c.getMember q.CreatureDefID = me at *
        generalize c.getMember memberCDefID = them at *
        have hdistinct := hk.distinct id c hc
        have hmem {b : ClanMember} : b ∈ (c.removeMember them).mMembers ↔ _ :=
          hdistinct.mem_eraseP
        obtain ⟨leader, hleader, hne, hrank⟩ := hk.led_of_ne hc hme hthem hlower
        refine hk.saved hc (c.removeMember them) (Function.update w.clan memberCDefID 0) rfl rfl
          ⟨leader, hmem.mpr ⟨hleader, hne⟩, hrank⟩ ?_ (fun m hm => ?_) (fun ch => ?_)
          (fun ch i hi hi0 => ?_) ?_
        · exact hdistinct.sublist List.eraseP_sublist
        · exact hk.ranks id c hc m (hmem.mp hm).1
        · rw [List.mem_map]
          by_cases hch : ch = memberCDefID
          · rw [hch, Function.update_self]
            refine ⟨fun h => absurd h (hk.ids id c hc).2.1.ne, ?_⟩
            rintro ⟨m, hm, hmc⟩
            exact absurd (hmc.trans htid.symm) (hmem.mp hm).2
          · rw [Function.update_of_ne hch, hk.mem_iff hc, List.mem_map]
            constructor
            · rintro ⟨m, hm, hmc⟩
              exact ⟨m, hmem.mpr ⟨hm, fun h => hch (hmc.symm.trans (h.trans htid))⟩, hmc⟩
            · rintro ⟨m, hm, hmc⟩
              exact ⟨m, (hmem.mp hm).1, hmc⟩
        · by_cases hch : ch = memberCDefID
          · have hhis : w.clan ch = id :=
              (hk.mem_iff hc ch).mpr (List.mem_map.mpr ⟨them, hthem, htid.trans hch.symm⟩)
            rw [hhis, hch, Function.update_self]
            exact ⟨fun h => absurd h.symm hi0, fun h => absurd h.symm hi⟩
          · rw [Function.update_of_ne hch]
        · refine ⟨fun m hm h => ?_, fun _ => .inl ⟨me, hme, hmid, hofficer⟩, fun x hx hnot => ?_⟩
          · by_cases hmt : m.mID = them.mID
            · rw [eq_of_mID hdistinct hm hthem hmt]
              exact ⟨me, hme, hmid, hlower⟩
            · exact absurd (h m (hmem.mpr ⟨hm, hmt⟩) rfl) (lt_irrefl _)
          · exact absurd hx hnot

theorem Kept.leave (hk : Kept w) (q : Query) (hq : Allowed w (.leave, q)) :
    Kept (w.leave q).1 ∧ Caused q.CreatureDefID w (w.leave q).1 := by
  have hsame : (w.leave q).1 = w := by
    unfold World.leave
    dsimp only
    obtain hdisabled | hzero := hq
    · rw [hdisabled]
      rfl
    · rw [if_pos hzero]
      split <;> rfl
  rw [hsame]
  exact ⟨hk, caused_same rfl⟩

/-! ### Runs -/

/-- Nobody has a clan, and there is none. -/
def Start (w : World) : Prop :=
  ∃ copper, w = { copper }

theorem kept_of_start (h : Start w) : Kept w := by
  obtain ⟨copper, rfl⟩ := h
  refine ⟨⟨?_, ?_, ?_⟩, ?_, ?_, ?_, le_rfl⟩
  · intro id c h
    cases h
  · intro id c h
    cases h
  · intro ch id hid
    constructor
    · intro h
      exact absurd h.symm hid
    · rintro ⟨c, h, -⟩
      cases h
  · intro id c h
    cases h
  · intro id c h
    cases h
  · intro name id h
    cases h

/-- What one query preserves, and what it does. -/
theorem Kept.handleQuery (hk : Kept w) (q : Query) (handler : Handler)
    (hq : Allowed w (handler, q)) :
    Kept (w.handleQuery q handler).1 ∧ Caused q.CreatureDefID w (w.handleQuery q handler).1 := by
  cases handler with
  | disband => exact hk.disband q
  | create => exact hk.create q
  | inviteAccept => exact hk.inviteAccept q
  | invite => exact hk.invite q
  | rank => exact hk.rank q
  | remove => exact hk.remove q hq
  | leave => exact hk.leave q hq

/-- In every run in which nobody who has a clan leaves it and only members of a lower rank are
removed, every clan has a leader, lists distinct characters, and these are the ones whose clan
it is; and every query did to a clan only what the rank of the character or his invitation
allows. -/
theorem structured_of_allowed {h : List (World × (Handler × Query))}
    (run : Trace Start Allowed step h w) :
    Structured w ∧
      ∀ e ∈ h, Caused e.2.2.CreatureDefID e.1 (e.1.handleQuery e.2.2 e.2.1).1 := by
  have hkept : Kept w ∧
      ∀ e ∈ h, Caused e.2.2.CreatureDefID e.1 (e.1.handleQuery e.2.2 e.2.1).1 := by
    induction run with
    | start h => exact ⟨kept_of_start h, List.forall_mem_nil _⟩
    | next run hok hs ih =>
        obtain ⟨hk, hall⟩ := ih
        cases hs
        obtain ⟨hk', hcaused⟩ := hk.handleQuery _ _ hok
        exact ⟨hk', List.forall_mem_cons.mpr ⟨hcaused, hall⟩⟩
  exact ⟨hkept.1.toStructured, hkept.2⟩

/-! Anna founds a clan, and Bert becomes an officer of it. -/

def founding (last : Handler × Query) : List (Handler × Query) :=
  [(.create, { CreatureDefID := 1, args := [['a']], ClanCost := 0 }),
    (.invite, { CreatureDefID := 1, args := [['b']], getCharacterByName := fun _ => some 2 }),
    (.inviteAccept, { CreatureDefID := 2, args := [['a']] }),
    (.rank, { CreatureDefID := 1, args := [['b'], "Officer".toList], getIDByName := fun _ => 2 }),
    last]

theorem start_empty : Start {} := ⟨_, rfl⟩

/-- The theorem where Anna removes Bert again. -/
theorem structured_of_allowed_founding :
    ∃ w : World, Structured w ∧ w.clan 1 = 1 ∧ w.clan 2 = 0 := by
  let last : Handler × Query :=
    (.remove, { CreatureDefID := 1, args := [['b']], getIDByName := fun _ => 2 })
  have hok : OkAll Allowed step {} (founding last) := by decide
  have hrun : (runAll step {} (founding last)).isSome = true := by decide
  have hend : ((runAll step {} (founding last)).getD {}).clan 1 = 1 ∧
      ((runAll step {} (founding last)).getD {}).clan 2 = 0 := by decide
  exact ⟨_, (structured_of_allowed
    ((Trace.start start_empty).runAll hok (eq_some_getD hrun {}))).1, hend⟩

/-- Where Anna leaves, the clan has no leader and is still hers; and without anybody leaving,
Bert, the officer, removes her. -/
theorem unstructured_after_leave_or_remove :
    (¬ ∀ h w, Trace Start (fun _ _ => True) step h w → Structured w) ∧
      ¬ ∀ h w, Trace Start (fun _ e => e.1 ≠ .leave) step h w → Structured w := by
  constructor
  · intro hall
    let last : Handler × Query := (.leave, { CreatureDefID := 1 })
    have hrun : (runAll step {} (founding last)).isSome = true := by decide
    obtain ⟨h, run⟩ := reach_of_runAll start_empty (eq_some_getD hrun {})
    have hstill : ((runAll step {} (founding last)).getD {}).clan 1 = 1 := by decide
    obtain ⟨c, hc, hmem⟩ := ((hall h _ run).listed 1 1 (by decide)).mp hstill
    have hleft : ∀ c ∈ ((runAll step {} (founding last)).getD {}).clans 1,
        1 ∉ c.mMembers.map ClanMember.mID := by decide
    exact hleft c hc hmem
  · intro hall
    let last : Handler × Query :=
      (.remove, { CreatureDefID := 2, args := [['a']], getIDByName := fun _ => 1 })
    have hok : OkAll (fun _ e => e.1 ≠ .leave) step {} (founding last) := by decide
    have hrun : (runAll step {} (founding last)).isSome = true := by decide
    have run := (Trace.start start_empty).runAll hok (eq_some_getD hrun {})
    have hclan : (((runAll step {} (founding last)).getD {}).clans 1).isSome = true := by
      decide
    obtain ⟨c, hc⟩ := Option.isSome_iff_exists.mp hclan
    obtain ⟨m, hm, hrank⟩ := (hall _ _ run).led 1 c hc
    have hnone : ∀ c ∈ ((runAll step {} (founding last)).getD {}).clans 1,
        ∀ m ∈ c.mMembers, m.mRank ≠ Rank.LEADER := by decide
    exact hnone c hc m hm hrank

end Iceee.Clans
