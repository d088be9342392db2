import Iceee.Clan.Structure

/-!
# The fee of a new clan

`clan.create` takes its fee and then looks up the name. A name that is taken costs the fee; every
other refusal leaves everything as it was.

## Main results

* `filed_of_reach`: after any queries, every clan is filed under its ID and its name.
* `charges_exact_iff`: when money and clans agree with the answer.
-/

namespace Iceee.Clans

open Lib

/-! ### What is to hold -/

/-- A database of clans: every clan is found under its ID and under its name, no name leads to
anything else, and no ID is in use that has not been given out. -/
structure Filed (w : World) : Prop where
  ids : ∀ id c, w.clans id = some c → c.mId = id ∧ 0 < id ∧ id ≤ w.nextClanID
  named : ∀ name id, w.clanNameToID name = some id → ∃ c, w.clans id = some c ∧ c.mName = name
  found : ∀ id c, w.clans id = some c → w.clanNameToID c.mName = some id
  next : 0 ≤ w.nextClanID

/-- There is a clan of this name. -/
def NameTaken (w : World) (name : Text) : Prop := ∃ id c, w.clans id = some c ∧ c.mName = name

/-- What an answer of `clan.create` says about the database before and after it. -/
structure Charges (w w' : World) (q : Query) (reply : Reply) : Prop where
  /-- An error changes nothing. -/
  refused : ∀ message, reply = .error message → w' = w
  /-- The fee is taken for one new clan, with the creator as its leader and only member. -/
  founded : reply = .ok → ∃ name c, q.args.head? = some name ∧ w.clans c.mId = none ∧
    c.mName = name ∧ c.mMembers = [{ mID := q.CreatureDefID, mRank := Rank.LEADER }] ∧
    w'.clans = Function.update w.clans c.mId (some c) ∧
    (∀ id c', w'.clans id = some c' → c'.mName = name → c' = c) ∧
    w'.clan = Function.update w.clan q.CreatureDefID c.mId ∧
    w'.copper = Function.update w.copper q.CreatureDefID (w.copper q.CreatureDefID - q.ClanCost)
  /-- The names of the clans that there were lead to them as before. -/
  names : ∀ id c, w.clans id = some c → w'.clanNameToID c.mName = some id

/-- A character who may found a clan and can pay for it asks for a name that is taken, and the fee
is not zero. -/
structure PaysInVain (w : World) (q : Query) : Prop where
  enabled : q.clansEnabled = true
  taken : ∃ name ∈ q.args.head?, NameTaken w name
  alone : w.clan q.CreatureDefID ≤ 0
  rich : q.ClanCost ≤ w.copper q.CreatureDefID
  cost : q.ClanCost ≠ 0

/-! ### The database -/

section Filed

variable {w : World} {id : Int} {c c' : Clan}

/-- Only the clans, their names and the counter matter. -/
theorem Filed.of_eq {w' : World} (hw : Filed w) (hclans : w'.clans = w.clans)
    (hnames : w'.clanNameToID = w.clanNameToID) (hnext : w'.nextClanID = w.nextClanID) :
    Filed w' := by
  constructor
  · rw [hclans, hnext]
    exact hw.ids
  · rw [hclans, hnames]
    exact hw.named
  · rw [hclans, hnames]
    exact hw.found
  · rw [hnext]
    exact hw.next

theorem Filed.nameTaken_iff (hw : Filed w) {name : Text} :
    NameTaken w name ↔ w.findClanID name ≠ -1 := by
  unfold World.findClanID
  constructor
  · rintro ⟨id, c, hc, rfl⟩
    have hpos := (hw.ids id c hc).2.1
    rw [hw.found id c hc, Option.getD_some]
    omega
  · intro hne
    cases hname : w.clanNameToID name with
    | none =>
        rw [hname] at hne
        exact absurd rfl hne
    | some id =>
        obtain ⟨c, hc, hcname⟩ := hw.named name id hname
        exact ⟨id, c, hc, hcname⟩

/-- The clan that a name leads to. -/
theorem Filed.getClan_findClanID (hw : Filed w) {name : Text} (hne : w.findClanID name ≠ -1) :
    w.clans (w.findClanID name) = some (w.getClan (w.findClanID name)) := by
  obtain ⟨id, c, hc, rfl⟩ := hw.nameTaken_iff.mpr hne
  have hid : w.findClanID c.mName = id := by
    rw [World.findClanID, hw.found id c hc, Option.getD_some]
  rw [hid, World.getClan, hc, Option.getD_some]

/-- A clan is saved under the ID and the name that it had. -/
theorem Filed.saveClan (hw : Filed w) (hc : w.clans id = some c) (hid : c'.mId = c.mId)
    (hname : c'.mName = c.mName) : Filed (w.saveClan c') := by
  obtain ⟨hcid, hpos, hle⟩ := hw.ids id c hc
  have hself : c'.mId = id := hid.trans hcid
  have hclans (i : Int) : (w.saveClan c').clans i = if i = id then some c' else w.clans i := by
    rw [← hself]
    exact Function.update_apply _ _ _ _
  have hnames (name : Text) : (w.saveClan c').clanNameToID name = w.clanNameToID name := by
    by_cases hsame : name = c.mName
    · rw [hsame, hw.found id c hc, ← hself, ← hname]
      exact Function.update_self _ _ _
    · exact Function.update_of_ne (hname ▸ hsame) _ _
  refine ⟨fun i d hd => ?_, fun name i hi => ?_, fun i d hd => ?_, hw.next⟩
  · rw [hclans] at hd
    split at hd
    · next heq =>
        obtain rfl := Option.some.inj hd
        exact heq ▸ ⟨hself, hpos, hle⟩
    · exact hw.ids i d hd
  · rw [hnames] at hi
    obtain ⟨d, hd, hdname⟩ := hw.named name i hi
    rw [hclans]
    split
    · next heq =>
        rw [heq, hc] at hd
        obtain rfl := Option.some.inj hd
        exact ⟨c', rfl, hname.trans hdname⟩
    · exact ⟨d, hd, hdname⟩
  · rw [hclans] at hd
    rw [hnames]
    split at hd
    · next heq =>
        obtain rfl := Option.some.inj hd
        rw [hname, heq, hw.found id c hc]
    · exact hw.found i d hd

/-- A clan is removed with its name. -/
theorem Filed.removeClan (hw : Filed w) (hc : w.clans id = some c) : Filed (w.removeClan c) := by
  have hcid := (hw.ids id c hc).1
  have hclans {i : Int} {d : Clan} (hd : (w.removeClan c).clans i = some d) :
      i ≠ id ∧ w.clans i = some d := by
    have hi : i ≠ c.mId := by
      rintro rfl
      have hnone : (w.removeClan c).clans c.mId = none := Function.update_self _ _ _
      cases hnone.symm.trans hd
    exact ⟨hcid ▸ hi, (Function.update_of_ne hi _ _).symm.trans hd⟩
  refine ⟨fun i d hd => hw.ids i d (hclans hd).2, fun name i hi => ?_, fun i d hd => ?_, hw.next⟩
  · have hne : name ≠ c.mName := by
      rintro rfl
      have hnone : (w.removeClan c).clanNameToID c.mName = none := Function.update_self _ _ _
      cases hnone.symm.trans hi
    have hi' : w.clanNameToID name = some i := (Function.update_of_ne hne _ _).symm.trans hi
    obtain ⟨d, hd, hdname⟩ := hw.named name i hi'
    have hother : i ≠ c.mId := by
      rintro rfl
      rw [hcid, hc] at hd
      exact hne (Option.some.inj hd ▸ hdname.symm)
    exact ⟨d, (Function.update_of_ne hother _ _).trans hd, hdname⟩
  · obtain ⟨hne, hd'⟩ := hclans hd
    have hother : d.mName ≠ c.mName := by
      intro heq
      have hsame := hw.found i d hd'
      rw [heq, hw.found id c hc] at hsame
      exact hne (Option.some.inj hsame).symm
    exact (Function.update_of_ne hother _ _).trans (hw.found i d hd')

/-- No clan has the next ID. -/
theorem Filed.clans_next (hw : Filed w) : w.clans (w.nextClanID + 1) = none := by
  by_contra hsome
  obtain ⟨c, hc⟩ := Option.ne_none_iff_exists'.mp hsome
  have hle := (hw.ids _ c hc).2.2
  omega

/-- A clan is founded under a name that no clan has. -/
theorem Filed.createClan (hw : Filed w) (time : UInt64) (hfree : ¬ NameTaken w c.mName) :
    Filed (w.createClan time c).1 := by
  have hclans (i : Int) : (w.createClan time c).1.clans i =
      if i = w.nextClanID + 1 then
        some { c with mId := w.nextClanID + 1, mCreated := time }
      else w.clans i := Function.update_apply _ _ _ _
  have hnames (name : Text) : (w.createClan time c).1.clanNameToID name =
      if name = c.mName then some (w.nextClanID + 1) else w.clanNameToID name :=
    Function.update_apply _ _ _ _
  have hcounter : (w.createClan time c).1.nextClanID = w.nextClanID + 1 := rfl
  have hnext := hw.next
  refine ⟨fun i d hd => ?_, fun name i hi => ?_, fun i d hd => ?_, by omega⟩
  · rw [hclans] at hd
    rw [hcounter]
    split at hd
    · next heq =>
        obtain rfl := Option.some.inj hd
        exact ⟨heq.symm, by omega, by omega⟩
    · have hold := hw.ids i d hd
      exact ⟨hold.1, hold.2.1, by omega⟩
  · rw [hnames] at hi
    rw [hclans]
    split at hi
    · next heq =>
        obtain rfl := Option.some.inj hi
        exact ⟨_, if_pos rfl, heq.symm⟩
    · obtain ⟨d, hd, hdname⟩ := hw.named name i hi
      have hle := (hw.ids i d hd).2.2
      exact ⟨d, (if_neg (by omega)).trans hd, hdname⟩
  · rw [hclans] at hd
    rw [hnames]
    split at hd
    · next heq =>
        obtain rfl := Option.some.inj hd
        rw [if_pos rfl, heq]
    · rw [if_neg fun heq => hfree ⟨i, d, hd, heq⟩]
      exact hw.found i d hd

end Filed

/-! ### Runs of queries -/

section Run

variable {w : World} (hw : Filed w) (q : Query)
include hw

/-- A query that changes one clan, and the clans of the characters. -/
theorem Filed.saved {id : Int} {c c' : Clan} (hc : w.clans id = some c) (hid : c'.mId = c.mId)
    (hname : c'.mName = c.mName) {clan' : Int → Int} :
    Filed (World.saveClan { w with clan := clan' } c') := by
  have hsame : Filed { w with clan := clan' } := hw.of_eq rfl rfl rfl
  exact hsame.saveClan hc hid hname

theorem Filed.removed {id : Int} {c : Clan} (hc : w.clans id = some c) {clan' : Int → Int} :
    Filed (World.removeClan { w with clan := clan' } c) := by
  have hsame : Filed { w with clan := clan' } := hw.of_eq rfl rfl rfl
  exact hsame.removeClan hc

theorem Filed.disband : Filed (w.disband q).1 := by
  unfold World.disband
  dsimp only
  split
  · exact hw
  split
  · exact hw
  split
  · exact hw
  next hhas _ =>
    rw [World.foldl_setClan]
    exact hw.removed (World.of_hasClan hhas)

theorem Filed.create : Filed (w.create q).1 := by
  unfold World.create
  split
  · exact hw
  split
  · exact hw
  split
  · exact hw
  split
  · exact hw
  next name _ _ _ _ =>
    have hpaid : Filed (w.adjustCopper q.CreatureDefID (-q.ClanCost)) := hw.of_eq rfl rfl rfl
    dsimp only
    split
    · next hfree =>
        have hnew := hpaid.createClan (c :=
          { mName := name, mMembers := [{ mID := q.CreatureDefID, mRank := Rank.LEADER }] })
          q.time (mt hpaid.nameTaken_iff.mp (not_not.mpr hfree))
        exact hnew.of_eq rfl rfl rfl
    · exact hpaid

theorem Filed.inviteAccept : Filed (w.inviteAccept q).1 := by
  unfold World.inviteAccept
  split
  · exact hw
  split
  · exact hw
  split
  · exact hw
  dsimp only
  split
  · exact hw
  split
  · exact hw
  next hfound _ =>
    have hc := hw.getClan_findClanID hfound
    apply hw.saved hc
    · rfl
    · rfl

theorem Filed.invite : Filed (w.invite q).1 := by
  unfold World.invite
  split
  · exact hw
  split
  · exact hw
  dsimp only
  split
  · exact hw
  split
  · exact hw
  split
  · exact hw
  next hhas _ =>
    split
    · exact hw
    · exact hw.saveClan (World.of_hasClan hhas) rfl rfl

theorem Filed.changeRank {id : Int} {c : Clan} (hc : w.clans id = some c)
    (memberCDefID newRank : Int) : Filed (w.changeRank q c memberCDefID newRank).1 := by
  unfold World.changeRank
  dsimp only
  split
  · exact hw
  split
  · exact hw
  split
  · exact hw
  split
  · exact hw
  split
  · exact hw
  split
  · exact hw
  split
  · exact hw
  split
  · exact hw
  exact hw.saveClan hc rfl rfl

theorem Filed.rank : Filed (w.rank q).1 := by
  unfold World.rank
  dsimp only
  split
  · exact hw
  split
  · exact hw
  split
  · exact hw
  next hhas =>
    split
    · split
      · exact hw
      · exact hw.changeRank q (World.of_hasClan hhas) _ _
    · exact hw

theorem Filed.remove : Filed (w.remove q).1 := by
  unfold World.remove
  split
  · exact hw
  split
  · exact hw
  dsimp only
  split
  · exact hw
  split
  · exact hw
  split
  · exact hw
  split
  · exact hw
  split
  · exact hw
  split
  · exact hw
  next hhas _ _ _ _ =>
    apply hw.saved (World.of_hasClan hhas)
    · rfl
    · rfl

theorem Filed.leave : Filed (w.leave q).1 := by
  unfold World.leave
  split
  · exact hw
  dsimp only
  split
  · exact hw
  split
  · exact hw
  split
  · exact hw
  next hhas _ => exact hw.saveClan (World.of_hasClan hhas) rfl rfl

/-- What one query preserves. -/
theorem Filed.handleQuery (handler : Handler) : Filed (w.handleQuery q handler).1 := by
  cases handler with
  | disband => exact hw.disband q
  | create => exact hw.create q
  | inviteAccept => exact hw.inviteAccept q
  | invite => exact hw.invite q
  | rank => exact hw.rank q
  | remove => exact hw.remove q
  | leave => exact hw.leave q

end Run

theorem filed_of_start {w : World} (h : Start w) : Filed w := by
  obtain ⟨copper, rfl⟩ := h
  refine ⟨fun id c hc => ?_, fun name id hid => ?_, fun id c hc => ?_, le_rfl⟩
  · cases hc
  · cases hid
  · cases hc

/-- What any run of queries preserves, also where clans lose their leaders. -/
theorem filed_of_reach {ok : World → Handler × Query → Prop} {w : World}
    (h : Reach Start ok step w) : Filed w := by
  refine h.invariant (fun _ => filed_of_start) fun w e w' hw _ hs => ?_
  cases hs
  exact hw.handleQuery e.2 e.1

/-- The leader of a clan has left it, and it has no leader. -/
theorem filed_of_reach_leaderless :
    ∃ w : World, Filed w ∧ ∃ c, w.clans 1 = some c ∧ 1 ∉ c.mMembers.map ClanMember.mID := by
  let last : Handler × Query := (.leave, { CreatureDefID := 1 })
  have hrun : (runAll step {} (founding last)).isSome = true := by decide
  have hclan : (((runAll step {} (founding last)).getD {}).clans 1).isSome = true := by decide
  have hleft : ∀ c ∈ ((runAll step {} (founding last)).getD {}).clans 1,
      1 ∉ c.mMembers.map ClanMember.mID := by decide
  obtain ⟨c, hc⟩ := Option.isSome_iff_exists.mp hclan
  exact ⟨_, filed_of_reach (reach_of_runAll start_empty (eq_some_getD hrun {})), c, hc, hleft c hc⟩

/-! ### The query that founds a clan -/

section Create

variable {w : World} {q : Query}

/-- An error that changes nothing. -/
theorem Filed.charges_error (hw : Filed w) (message : String) :
    Charges w w q (.error message) := by
  refine ⟨fun _ _ => rfl, fun hok => ?_, hw.found⟩
  cases hok

/-- The fee of a character who can pay it. -/
theorem adjustCopper_fee (hrich : q.ClanCost ≤ w.copper q.CreatureDefID) :
    w.adjustCopper q.CreatureDefID (-q.ClanCost) = { w with
      copper := Function.update w.copper q.CreatureDefID
        (w.copper q.CreatureDefID - q.ClanCost) } := by
  have hmax : max 0 (w.copper q.CreatureDefID + -q.ClanCost) =
      w.copper q.CreatureDefID - q.ClanCost := by
    omega
  rw [World.adjustCopper, hmax]

/-- The fee is taken and then the name is refused. -/
theorem charges_taken_iff (hw : Filed w) (hrich : q.ClanCost ≤ w.copper q.CreatureDefID)
    (message : String) :
    Charges w (w.adjustCopper q.CreatureDefID (-q.ClanCost)) q (.error message) ↔
      q.ClanCost = 0 := by
  rw [adjustCopper_fee hrich]
  constructor
  · intro h
    have hcopper := congrFun (congrArg World.copper (h.refused message rfl)) q.CreatureDefID
    simp only [Function.update_self] at hcopper
    omega
  · intro hzero
    have hsame : Function.update w.copper q.CreatureDefID
        (w.copper q.CreatureDefID - q.ClanCost) = w.copper := by
      rw [hzero, Nat.cast_zero, Int.sub_zero, Function.update_eq_self]
    rw [hsame]
    exact hw.charges_error message

/-- A clan is founded for the fee. -/
theorem charges_founded (hw : Filed w) {name : Text} (hname : q.args.head? = some name)
    (hrich : q.ClanCost ≤ w.copper q.CreatureDefID) (hfree : ¬ NameTaken w name) {paid : World}
    (hpaid : paid = w.adjustCopper q.CreatureDefID (-q.ClanCost)) {c : Clan}
    (hc : c = { mName := name, mMembers := [{ mID := q.CreatureDefID, mRank := Rank.LEADER }] }) :
    Charges w ((paid.createClan q.time c).1.setClan q.CreatureDefID (w.nextClanID + 1)) q .ok := by
  rw [adjustCopper_fee hrich] at hpaid
  subst hpaid hc
  refine ⟨fun message herror => ?_, fun _ => ?_, fun id d hd => ?_⟩
  · cases herror
  · refine ⟨name, { mName := name, mMembers := [{ mID := q.CreatureDefID, mRank := Rank.LEADER }]
                    mId := w.nextClanID + 1, mCreated := q.time },
      hname, hw.clans_next, rfl, rfl, rfl, fun id d hd hdname => ?_, rfl, rfl⟩
    by_cases hid : id = w.nextClanID + 1
    · subst hid
      have hself := (Function.update_self _ _ _).symm.trans hd
      exact (Option.some.inj hself).symm
    · exact absurd ⟨id, d, (Function.update_of_ne hid _ _).symm.trans hd, hdname⟩ hfree
  · have hne : d.mName ≠ name := fun heq => hfree ⟨id, d, hd, heq⟩
    exact (Function.update_of_ne hne _ _).trans (hw.found id d hd)

/-- Money and clans agree with the answer, unless a character who could found a clan has paid for a
name that is taken. -/
theorem charges_exact_iff (hw : Filed w) :
    Charges w (w.create q).1 q (w.create q).2 ↔ ¬ PaysInVain w q := by
  unfold World.create
  split
  · next hoff =>
      refine iff_of_true (hw.charges_error _) fun hvain => ?_
      rw [hvain.enabled] at hoff
      cases hoff
  next hon =>
    rw [Bool.not_eq_true, Bool.not_eq_false'] at hon
    split
    · next hargs =>
        refine iff_of_true (hw.charges_error _) fun hvain => ?_
        obtain ⟨name, hname, -⟩ := hvain.taken
        rw [hargs] at hname
        cases hname
    next name rest hargs =>
      have hname : q.args.head? = some name := by rw [hargs, List.head?_cons]
      split
      · next halone => exact iff_of_true (hw.charges_error _) fun hvain => hvain.alone.not_gt halone
      next halone =>
        split
        · next hpoor => exact iff_of_true (hw.charges_error _) fun hvain => hvain.rich.not_gt hpoor
        next hrich =>
          rw [not_lt] at halone hrich
          have hfind : (w.adjustCopper q.CreatureDefID (-q.ClanCost)).findClanID name =
              w.findClanID name := rfl
          have htaken := @Filed.nameTaken_iff w hw name
          dsimp only
          rw [hfind]
          split
          · next hfree =>
              have hnot : ¬ NameTaken w name := fun h => htaken.mp h hfree
              refine iff_of_true (charges_founded hw hname hrich hnot rfl rfl) fun hvain => ?_
              obtain ⟨name', hname', h⟩ := hvain.taken
              rw [hname] at hname'
              exact hnot (Option.some.inj hname' ▸ h)
          · next hfound =>
              rw [charges_taken_iff hw hrich]
              constructor
              · exact fun hzero hvain => hvain.cost hzero
              · intro hvain
                by_contra hcost
                exact hvain ⟨hon, ⟨name, hname, htaken.mpr hfound⟩, halone, hrich, hcost⟩

/-- A clan is founded in the empty database. -/
theorem charges_exact_iff_empty :
    let w : World := { copper := fun _ => 150000 }
    let q : Query := { CreatureDefID := 1, args := [['a']] }
    Charges w (w.create q).1 q (w.create q).2 ↔ ¬ PaysInVain w q := by
  intro w q
  exact charges_exact_iff (filed_of_start ⟨_, rfl⟩)

/-- The name is taken: an error, and the copper is gone. -/
theorem taken_name_charged :
    let w : World := (World.create { copper := fun _ => 150000 }
      { CreatureDefID := 1, args := [['a']] }).1
    let q : Query := { CreatureDefID := 2, args := [['a']] }
    Filed w ∧ (w.create q).2 = .error "A clan with that name already exists." ∧
      (w.create q).1.copper 2 = 50000 ∧ ¬ Charges w (w.create q).1 q (w.create q).2 := by
  intro w q
  have hstart : Start { copper := fun _ => 150000 } := ⟨_, rfl⟩
  have herror : (w.create q).2 = .error "A clan with that name already exists." := by
    decide
  have hcopper : (w.create q).1.copper 2 = 50000 := by decide
  have hbefore : w.copper 2 = 150000 := by decide
  refine ⟨(filed_of_start hstart).create _, herror, hcopper, fun h => ?_⟩
  have hsame := h.refused _ herror
  rw [hsame, hbefore] at hcopper
  cases hcopper

end Create

end Iceee.Clans
