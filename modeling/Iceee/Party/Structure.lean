import Iceee.Loot.Membership
import Iceee.Party.Manager

/-!
# The structure of the parties

Every change keeps the parties apart, with two members at least and a leader among them, but
for four slips: an invitation accepted by the leader himself, or from a leader who is in
another party; a leader who quits with a creature his party does not know; a kick right in
front of the leader's entry, or of the leader; and `DoDisband`, which leaves the leader alone
in the party.
-/

namespace Iceee

open Lib

/-- The three ways a party knows its leader. -/
def ActiveParty.leader (party : ActiveParty) : Int × Int × String :=
  (party.mLeaderDefID, party.mLeaderID, party.mLeaderName)

/-- What makes a member the leader. -/
def PartyMember.asLeader (m : PartyMember) : Int × Int × String :=
  (m.mCreatureDefID, m.mCreatureID, m.mDisplayName)

namespace Loot

/-- No parties, and players with distinct creatures. -/
def NoParties (w : World) : Prop :=
  w.mPartyList = [] ∧ NodupKeys CreatureInstance.creatureID w.playerList

/-- What the callers see to: who accepts an invitation is in no party, and a new creature has
an ID of its own and comes after the party has let go of the old one. -/
def Promised (w : World) : PartyEvent → Prop
  | .acceptInvite memberID _ =>
      ∀ c ∈ w.getCreature memberID, ∀ party ∈ w.mPartyList,
        party.hasMember c.creatureDefID = false
  | .load creatureID newID _ =>
      (∀ party ∈ w.mPartyList, ∀ m ∈ party.mMemberList, m.creature ≠ some creatureID) ∧
        ∀ c ∈ w.playerList, c.creatureID = newID → newID = creatureID
  | _ => True

/-- When a kick leaves the party with its leader. -/
def KickFits (party : ActiveParty) (m : PartyMember) (erased : Int) : Prop :=
  party.mMemberList.length ≤ 2 ∨
    (m.mCreatureDefID = party.mLeaderDefID → erased = party.mLeaderID) ∧
      (m.mCreatureDefID ≠ party.mLeaderDefID → erased = party.mLeaderID →
        (party.removeMember m.mCreatureDefID).mMemberList.head?.map PartyMember.mCreatureDefID =
          some party.mLeaderDefID)

/-- When a change keeps the structure. -/
def Keeps (w : World) : PartyEvent → Prop
  | .acceptInvite memberID leaderDefID =>
      (∀ c ∈ w.getCreature memberID, c.creatureDefID ≠ leaderDefID) ∧
        ((∃ party ∈ w.mPartyList, party.mLeaderDefID = leaderDefID) ∨
          ∀ party ∈ w.mPartyList, party.hasMember leaderDefID = false)
  | .quit creatureID =>
      ∀ c ∈ w.getCreature creatureID, ∀ party ∈ w.getPartyByID c.partyID,
        party.mLeaderDefID = c.creatureDefID →
          party.mMemberList.length ≤ 2 ∨ party.mLeaderID = creatureID
  | .kick creatureID memberID behind =>
      ∀ c ∈ w.getCreature creatureID, ∀ party ∈ w.getPartyByID c.partyID,
        party.mLeaderID = creatureID → ∀ m ∈ party.getMemberByID memberID,
          KickFits party m (party.erasedID memberID m.mCreatureDefID behind)
  | .disband partyID => w.getPartyByID partyID = none
  | _ => True

instance Promised.decidable (w : World) : ∀ e, Decidable (Promised w e)
  | .acceptInvite memberID _ =>
      inferInstanceAs (Decidable (∀ c ∈ w.getCreature memberID, ∀ party ∈ w.mPartyList,
        party.hasMember c.creatureDefID = false))
  | .load creatureID newID _ =>
      inferInstanceAs (Decidable
        ((∀ party ∈ w.mPartyList, ∀ m ∈ party.mMemberList, m.creature ≠ some creatureID) ∧
          ∀ c ∈ w.playerList, c.creatureID = newID → newID = creatureID))
  | .quit _ | .kick .. | .setLeader .. | .disband _ | .updateReferences _ | .removeReferences .. =>
      inferInstanceAs (Decidable True)

instance KickFits.decidable (party : ActiveParty) (m : PartyMember) (erased : Int) :
    Decidable (KickFits party m erased) := by
  unfold KickFits
  infer_instance

instance Keeps.decidable (w : World) : ∀ e, Decidable (Keeps w e)
  | .acceptInvite memberID leaderDefID =>
      inferInstanceAs (Decidable ((∀ c ∈ w.getCreature memberID, c.creatureDefID ≠ leaderDefID) ∧
        ((∃ party ∈ w.mPartyList, party.mLeaderDefID = leaderDefID) ∨
          ∀ party ∈ w.mPartyList, party.hasMember leaderDefID = false)))
  | .quit creatureID =>
      inferInstanceAs (Decidable
        (∀ c ∈ w.getCreature creatureID, ∀ party ∈ w.getPartyByID c.partyID,
          party.mLeaderDefID = c.creatureDefID →
            party.mMemberList.length ≤ 2 ∨ party.mLeaderID = creatureID))
  | .kick creatureID memberID behind =>
      inferInstanceAs (Decidable
        (∀ c ∈ w.getCreature creatureID, ∀ party ∈ w.getPartyByID c.partyID,
          party.mLeaderID = creatureID → ∀ m ∈ party.getMemberByID memberID,
            KickFits party m (party.erasedID memberID m.mCreatureDefID behind)))
  | .disband partyID =>
      decidable_of_iff ((w.getPartyByID partyID).isNone = true) Option.isNone_iff_eq_none
  | .setLeader .. | .load .. | .updateReferences _ | .removeReferences .. =>
      inferInstanceAs (Decidable True)

/-- Nobody is in two parties, and the members who are online know theirs. -/
structure World.Assigned (w : World) : Prop where
  apart : ∀ p ∈ w.mPartyList, ∀ q ∈ w.mPartyList, ∀ m ∈ p.mMemberList, ∀ n ∈ q.mMemberList,
    m.mCreatureDefID = n.mCreatureDefID → p = q
  online : ∀ party ∈ w.mPartyList, ∀ m ∈ party.mMemberList, ∀ id ∈ m.creature,
    ∃ c, w.getCreature id = some c ∧ c.creatureDefID = m.mCreatureDefID ∧
      c.partyID = party.mPartyID

/-- A party has two members at least, all different, and one of them is its leader. -/
structure Sound (party : ActiveParty) : Prop where
  two : 2 ≤ party.mMemberList.length
  distinct : (party.mMemberList.map PartyMember.mCreatureDefID).Nodup
  leader : ∃ m ∈ party.mMemberList, m.asLeader = party.leader

/-- The structure of the parties. -/
structure World.Structured (w : World) : Prop extends w.Assigned where
  sound : ∀ party ∈ w.mPartyList, Sound party

/-- To kick somebody else does not change the leader. -/
def KickKeepsLeader (w : World) (creatureID memberID behind : Int) : Prop :=
  ∀ c ∈ w.getCreature creatureID, ∀ party ∈ w.getPartyByID c.partyID,
    ∀ m ∈ party.getMemberByID memberID, m.mCreatureDefID ≠ party.mLeaderDefID →
      ∀ p ∈ (w.kick creatureID memberID behind).mPartyList, p.mPartyID = party.mPartyID →
        p.leader = party.leader

/-! ### Leaders -/

section Leaders

variable {party : ActiveParty} {m : PartyMember}

theorem leader_updateLeaderDropped {first : PartyMember} {rest : List PartyMember}
    (hlist : party.mMemberList = first :: rest) (memberID : Int) :
    (party.updateLeaderDropped memberID).leader =
      if memberID = party.mLeaderID then first.asLeader else party.leader := by
  unfold ActiveParty.updateLeaderDropped
  rw [hlist]
  dsimp only
  split <;> rfl

theorem length_removeMember (hm : m ∈ party.mMemberList) :
    (party.removeMember m.mCreatureDefID).mMemberList.length = party.mMemberList.length - 1 :=
  List.length_eraseP_of_mem hm (beq_self_eq_true m.mCreatureDefID)

/-- A party that loses a member keeps its leader, or finds a new one. -/
theorem Sound.dropMember (h : Sound party) {memberDefID droppedID : Int}
    (hlarge : 2 ≤ (party.removeMember memberDefID).mMemberList.length)
    (hleader : party.mLeaderDefID = memberDefID → droppedID = party.mLeaderID) :
    Sound ((party.removeMember memberDefID).updateLeaderDropped droppedID) := by
  obtain ⟨first, rest, hlist⟩ : ∃ first rest,
      (party.removeMember memberDefID).mMemberList = first :: rest :=
    List.exists_cons_of_length_pos (by omega)
  refine ⟨?_, ?_, ?_⟩
  · rwa [mMemberList_updateLeaderDropped]
  · rw [mMemberList_updateLeaderDropped]
    exact h.distinct.sublist ((removeMember_sublist party memberDefID).map _)
  · rw [mMemberList_updateLeaderDropped, leader_updateLeaderDropped hlist]
    split
    · exact ⟨first, hlist ▸ List.mem_cons_self, rfl⟩
    · rename_i hother
      obtain ⟨m, hm, hlead⟩ := h.leader
      have hdef : m.mCreatureDefID = party.mLeaderDefID := congrArg Prod.fst hlead
      refine ⟨m, (mem_removeMember h.distinct).mpr ⟨hm, ?_⟩, hlead⟩
      intro heq
      exact hother (hleader (hdef ▸ heq))

/-- The leader stays when the entry that was compared is not his, or he comes first. -/
theorem Sound.leader_dropMember (h : Sound party) {memberDefID droppedID : Int}
    (hlarge : 2 ≤ (party.removeMember memberDefID).mMemberList.length)
    (hfirst : droppedID = party.mLeaderID →
      (party.removeMember memberDefID).mMemberList.head?.map PartyMember.mCreatureDefID =
        some party.mLeaderDefID) :
    ((party.removeMember memberDefID).updateLeaderDropped droppedID).leader = party.leader := by
  obtain ⟨first, rest, hlist⟩ : ∃ first rest,
      (party.removeMember memberDefID).mMemberList = first :: rest :=
    List.exists_cons_of_length_pos (by omega)
  rw [leader_updateLeaderDropped hlist]
  split
  · rename_i hsame
    have hdef := hfirst hsame
    rw [hlist, List.head?_cons, Option.map_some, Option.some.injEq] at hdef
    have hmem : first ∈ party.mMemberList :=
      (removeMember_sublist party memberDefID).subset (hlist ▸ List.mem_cons_self)
    obtain ⟨m, hm, hlead⟩ := h.leader
    have hm' : m = first :=
      List.inj_on_of_nodup_map h.distinct hm hmem ((congrArg Prod.fst hlead).trans hdef.symm)
    rw [← hm', hlead]
  · rfl

/-- The leader's entry and the leader get the same new ID. -/
theorem Sound.updatePlayerReferences (h : Sound party) (memberID memberDefID : Int) :
    Sound (party.updatePlayerReferences memberID memberDefID) where
  two := (List.length_modify ..).symm ▸ h.two
  distinct := NodupKeys.modify h.distinct _ fun _ => rfl
  leader := by
    obtain ⟨m, hm, hlead⟩ := h.leader
    have hleader : m.mCreatureDefID = party.mLeaderDefID ∧ m.mCreatureID = party.mLeaderID ∧
        m.mDisplayName = party.mLeaderName := by
      simpa [PartyMember.asLeader, ActiveParty.leader] using hlead
    obtain ⟨hdef, hid, hname⟩ := hleader
    by_cases heq : party.mLeaderDefID = memberDefID
    · refine ⟨_, (mem_modifyMember h.distinct).mpr (.inr ⟨m, hm, hdef.trans heq, rfl⟩), ?_⟩
      simp [PartyMember.asLeader, ActiveParty.leader, ActiveParty.updatePlayerReferences,
        ActiveParty.modifyMember, heq, hdef, hname]
    · have hne : m.mCreatureDefID ≠ memberDefID := hdef ▸ heq
      refine ⟨m, (mem_modifyMember h.distinct).mpr (.inl ⟨hm, hne⟩), ?_⟩
      simp [PartyMember.asLeader, ActiveParty.leader, ActiveParty.updatePlayerReferences,
        ActiveParty.modifyMember, heq, hdef, hid, hname]

end Leaders

/-! ### Parties and players -/

namespace World

variable {w w' : World} {party : ActiveParty} {m : PartyMember} {c : CreatureInstance}

/-- The creature of a member who is online. -/
theorem Assigned.creature (h : w.Assigned) (hk : w.Keyed) (hparty : party ∈ w.mPartyList)
    (hm : m ∈ party.mMemberList) (hc : c ∈ w.playerList) (hid : m.creature = some c.creatureID) :
    c.creatureDefID = m.mCreatureDefID ∧ c.partyID = party.mPartyID := by
  obtain ⟨c', hc', hknows⟩ := h.online party hparty m hm c.creatureID hid
  rw [(getCreature_eq_some hk).mpr ⟨hc, rfl⟩, Option.some.injEq] at hc'
  rwa [hc']

/-- Parties stay apart when every entry comes from one of the same party and player. -/
theorem Assigned.apart_of_origin (h : w.Assigned) (hk' : w'.Keyed)
    (horigin : ∀ p ∈ w'.mPartyList, ∀ m ∈ p.mMemberList, ∃ q ∈ w.mPartyList,
      q.mPartyID = p.mPartyID ∧ ∃ n ∈ q.mMemberList, n.mCreatureDefID = m.mCreatureDefID) :
    ∀ p ∈ w'.mPartyList, ∀ q ∈ w'.mPartyList, ∀ m ∈ p.mMemberList, ∀ n ∈ q.mMemberList,
      m.mCreatureDefID = n.mCreatureDefID → p = q := by
  intro p hp q hq m hm n hn hdef
  obtain ⟨p₀, hp₀, hpid, m₀, hm₀, hmdef⟩ := horigin p hp m hm
  obtain ⟨q₀, hq₀, hqid, n₀, hn₀, hndef⟩ := horigin q hq n hn
  have hsame : p₀ = q₀ := h.apart p₀ hp₀ q₀ hq₀ m₀ hm₀ n₀ hn₀ (by rw [hmdef, hdef, hndef])
  apply List.inj_on_of_nodup_map hk'.parties hp hq
  rw [← hpid, hsame, hqid]

/-- A change that adds no member and leaves the creatures of the members alone. -/
theorem Assigned.of_frame (h : w.Assigned) (hk : w.Keyed) (hk' : w'.Keyed)
    (hparties : ∀ p ∈ w'.mPartyList, ∃ q ∈ w.mPartyList, q.mPartyID = p.mPartyID ∧
      ∀ m ∈ p.mMemberList, ∃ n ∈ q.mMemberList,
        n.mCreatureDefID = m.mCreatureDefID ∧ ∀ id ∈ m.creature, n.creature = some id)
    (hplayers : ∀ p ∈ w'.mPartyList, ∀ m ∈ p.mMemberList, ∀ c ∈ w.playerList,
      m.creature = some c.creatureID → c.creatureDefID = m.mCreatureDefID →
        c.partyID = p.mPartyID → c ∈ w'.playerList) : w'.Assigned where
  apart := by
    apply h.apart_of_origin hk'
    intro p hp m hm
    obtain ⟨q, hq, hid, hmem⟩ := hparties p hp
    obtain ⟨n, hn, hdef, -⟩ := hmem m hm
    exact ⟨q, hq, hid, n, hn, hdef⟩
  online := by
    intro p hp m hm id hid
    obtain ⟨q, hq, hqid, hqmem⟩ := hparties p hp
    obtain ⟨n, hn, hdef, hcreature⟩ := hqmem m hm
    obtain ⟨c, hc, hcdef, hparty⟩ := h.online q hq n hn id (hcreature id hid)
    obtain ⟨hmem, rfl⟩ := (getCreature_eq_some hk).mp hc
    have hkept := hplayers p hp m hm c hmem hid (hcdef.trans hdef) (hparty.trans hqid)
    exact ⟨c, (getCreature_eq_some hk').mpr ⟨hkept, rfl⟩, hcdef.trans hdef, hparty.trans hqid⟩

/-- A party loses a member. The player may have left it before. -/
theorem Structured.dropMember (h : w.Structured) (hk : w.Keyed) (hk' : w'.Keyed)
    {partyID memberDefID droppedID : Int} (hparty : w.getPartyByID partyID = some party)
    (hlist : w'.mPartyList = w.mPartyList)
    (hplayers : ∀ c ∈ w.playerList,
      c ∈ w'.playerList ∨ c.partyID = partyID ∧ c.creatureDefID = memberDefID)
    (hleader : 2 ≤ (party.removeMember memberDefID).mMemberList.length →
      party.mLeaderDefID = memberDefID → droppedID = party.mLeaderID) :
    (w'.dropMember partyID memberDefID droppedID).Structured := by
  have hparty' : w'.getPartyByID partyID = some party := by
    unfold getPartyByID
    rw [hlist]
    exact hparty
  obtain ⟨hmem, hid⟩ := (getPartyByID_eq_some hk).mp hparty
  have hsound := h.sound party hmem
  constructor
  · apply h.of_frame hk (hk'.dropMember partyID memberDefID droppedID)
    · intro p hp
      obtain ⟨hp, -⟩ | ⟨-, rfl⟩ := (mem_dropMember hk' hparty').mp hp
      · exact ⟨p, hlist ▸ hp, rfl, fun m hm => ⟨m, hm, rfl, fun _ => id⟩⟩
      · refine ⟨party, hmem, ?_, ?_⟩
        · rw [mPartyID_updateLeaderDropped, mPartyID_removeMember]
        · intro m hm
          rw [mMemberList_updateLeaderDropped] at hm
          exact ⟨m, (removeMember_sublist party memberDefID).subset hm, rfl, fun _ => id⟩
    · intro p hp m hm c hc hcreature hdef hknows
      -- A creature that knows the party has an entry there that was not dropped.
      have hstays : c.partyID = partyID → c.creatureDefID ≠ memberDefID ∧
          2 ≤ (party.removeMember memberDefID).mMemberList.length := by
        intro hcid
        obtain ⟨-, hne⟩ | ⟨hlarge, rfl⟩ := (mem_dropMember hk' hparty').mp hp
        · exact absurd (hknows.symm.trans hcid) hne
        · rw [mMemberList_updateLeaderDropped, mem_removeMember hsound.distinct, ← hdef] at hm
          exact ⟨hm.2, hlarge⟩
      obtain hc' | ⟨hcid, hcdef⟩ := hplayers c hc
      · apply mem_dropMember_playerList hk' hparty' hc'
        intro n hn hncreature
        obtain ⟨hndef, hnparty⟩ := h.creature hk hmem hn hc hncreature
        rw [← hndef]
        exact hstays (hnparty.trans hid)
      · exact absurd hcdef (hstays hcid).1
  · intro p hp
    obtain ⟨hp, -⟩ | ⟨hlarge, rfl⟩ := (mem_dropMember hk' hparty').mp hp
    · exact h.sound p (hlist ▸ hp)
    · exact hsound.dropMember hlarge (hleader hlarge)

theorem Structured.doQuit (h : w.Structured) (hk : w.Keyed) {creatureID : Int}
    (hkeeps : Keeps w (.quit creatureID)) : (w.doQuit creatureID).Structured := by
  unfold World.doQuit
  cases hc : w.getCreature creatureID with
  | none => exact h
  | some c =>
      obtain ⟨hcmem, hcid⟩ := (getCreature_eq_some hk).mp hc
      have hk' := hk.setPartyID creatureID 0
      have hother (c' : CreatureInstance) (hc' : c' ∈ w.playerList) (hne : c' ≠ c) :
          c' ∈ (w.setPartyID creatureID 0).playerList := by
        apply mem_setPartyID hk hc'
        intro heq
        exact hne (List.inj_on_of_nodup_map hk.players hc' hcmem (heq.trans hcid.symm))
      dsimp only
      cases hparty : w.getPartyByID c.partyID with
      | none =>
          have hsame : (w.setPartyID creatureID 0).dropMember c.partyID c.creatureDefID creatureID =
              w.setPartyID creatureID 0 := by
            unfold World.dropMember
            rw [show (w.setPartyID creatureID 0).getPartyByID c.partyID = none from hparty]
          rw [hsame]
          refine ⟨h.of_frame hk hk' (fun p hp => ⟨p, hp, rfl, fun m hm =>
            ⟨m, hm, rfl, fun _ => id⟩⟩) ?_, h.sound⟩
          intro p hp m hm c' hc' _ _ hknows
          apply hother c' hc'
          rintro rfl
          rw [(getPartyByID_eq_some hk).mpr ⟨hp, hknows.symm⟩] at hparty
          cases hparty
      | some party =>
          apply h.dropMember hk hk' hparty rfl
          · intro c' hc'
            by_cases heq : c' = c
            · exact .inr ⟨heq ▸ rfl, heq ▸ rfl⟩
            · exact .inl (hother c' hc' heq)
          · intro hlarge hdef
            obtain ⟨hmem, -⟩ := (getPartyByID_eq_some hk).mp hparty
            obtain ⟨m, hm, hlead⟩ := (h.sound party hmem).leader
            have hmdef : m.mCreatureDefID = c.creatureDefID := (congrArg Prod.fst hlead).trans hdef
            rw [← hmdef, length_removeMember hm] at hlarge
            obtain hsmall | hlead := hkeeps c hc party hparty hdef
            · omega
            · exact hlead.symm

/-- What a kick comes to when it is allowed. -/
theorem kick_cases (creatureID memberID behind : Int) :
    w.kick creatureID memberID behind = w ∨
      ∃ c party m, w.getCreature creatureID = some c ∧ w.getPartyByID c.partyID = some party ∧
        party.mLeaderID = creatureID ∧ party.getMemberByID memberID = some m ∧
          w.kick creatureID memberID behind = w.dropMember c.partyID m.mCreatureDefID
            (party.erasedID memberID m.mCreatureDefID behind) := by
  unfold World.kick World.doKick
  cases hc : w.getCreature creatureID with
  | none => exact .inl rfl
  | some c =>
      cases hparty : w.getPartyByID c.partyID with
      | none =>
          left
          simp only [Option.bind_some, hparty]
      | some party =>
          cases hm : party.getMemberByID memberID with
          | none =>
              left
              simp only [Option.bind_some, hparty, hm]
          | some m =>
              by_cases hlead : party.mLeaderID = creatureID
              · right
                refine ⟨c, party, m, rfl, hparty, hlead, hm, ?_⟩
                simp only [Option.bind_some, hparty, hm, hlead, Option.filter_some, beq_self_eq_true,
                  if_true]
              · left
                simp only [Option.bind_some, hparty, hm, Option.filter_some, beq_eq_false_iff_ne.mpr hlead,
                  Bool.false_eq_true, if_false]

theorem Structured.kick (h : w.Structured) (hk : w.Keyed) {creatureID memberID behind : Int}
    (hkeeps : Keeps w (.kick creatureID memberID behind)) :
    (w.kick creatureID memberID behind).Structured := by
  obtain heq | ⟨c, party, m, hc, hparty, hlead, hm, heq⟩ :=
    kick_cases creatureID memberID behind
  · rwa [heq]
  · rw [heq]
    apply h.dropMember hk hk hparty rfl (fun c hc => .inl hc)
    intro hlarge hdef
    have hmem : m ∈ party.mMemberList := List.mem_of_find?_eq_some hm
    rw [length_removeMember hmem] at hlarge
    obtain hsmall | ⟨hleader, -⟩ := hkeeps c hc party hparty hlead m hm
    · omega
    · exact hleader hdef.symm

/-- Whom `DoKick` removes does not matter to the leader, if not he. -/
theorem Structured.kickKeepsLeader (h : w.Structured) (hk : w.Keyed)
    {creatureID memberID behind : Int} (hkeeps : Keeps w (.kick creatureID memberID behind)) :
    KickKeepsLeader w creatureID memberID behind := by
  intro c hc party hparty m hm hne p hp hid
  obtain ⟨hmem, hpid⟩ := (getPartyByID_eq_some hk).mp hparty
  obtain heq | ⟨c', party', m', hc', hparty', hlead, hm', heq⟩ :=
    kick_cases creatureID memberID behind
  · rw [heq] at hp
    rw [List.inj_on_of_nodup_map hk.parties hp hmem hid]
  · obtain rfl : c' = c := Option.some.inj (hc'.symm.trans hc)
    obtain rfl : party' = party := Option.some.inj (hparty'.symm.trans hparty)
    obtain rfl : m' = m := Option.some.inj (hm'.symm.trans hm)
    rw [heq] at hp
    obtain ⟨-, hother⟩ | ⟨hlarge, rfl⟩ := (mem_dropMember hk hparty).mp hp
    · exact absurd (hid.trans hpid) hother
    · apply (h.sound party' hmem).leader_dropMember hlarge
      have hin : m' ∈ party'.mMemberList := List.mem_of_find?_eq_some hm
      rw [length_removeMember hin] at hlarge
      obtain hsmall | ⟨-, hfirst⟩ := hkeeps c' hc' party' hparty hlead m' hm
      · omega
      · exact hfirst hne

/-- A party that is written back with the members it had. -/
theorem Structured.setParty (h : w.Structured) (hk : w.Keyed) {p : ActiveParty}
    (hparty : party ∈ w.mPartyList) (hid : p.mPartyID = party.mPartyID)
    (hlist : p.mMemberList = party.mMemberList)
    (hleader : ∃ m ∈ party.mMemberList, m.asLeader = p.leader) : (w.setParty p).Structured := by
  have hsound := h.sound party hparty
  constructor
  · apply h.of_frame hk (hk.setParty (hlist ▸ hsound.distinct))
    · intro q hq
      obtain ⟨hq, -⟩ | ⟨-, rfl⟩ := (mem_setParty hk).mp hq
      · exact ⟨q, hq, rfl, fun m hm => ⟨m, hm, rfl, fun _ => id⟩⟩
      · exact ⟨party, hparty, hid.symm, fun m hm => ⟨m, hlist ▸ hm, rfl, fun _ => id⟩⟩
    · intro _ _ _ _ c hc _ _ _
      exact hc
  · intro q hq
    obtain ⟨hq, -⟩ | ⟨-, rfl⟩ := (mem_setParty hk).mp hq
    · exact h.sound q hq
    · exact ⟨hlist ▸ hsound.two, hlist ▸ hsound.distinct, hlist ▸ hleader⟩

theorem Structured.doSetLeader (h : w.Structured) (hk : w.Keyed) (creatureID newLeaderID : Int) :
    (w.doSetLeader creatureID newLeaderID).Structured := by
  unfold World.doSetLeader World.modifyParty
  cases hbind : (w.getCreature creatureID).bind fun c => w.getPartyByID c.partyID with
  | none => exact h
  | some party =>
      obtain ⟨c, -, hparty⟩ := Option.bind_eq_some_iff.mp hbind
      obtain ⟨hmem, -⟩ := (getPartyByID_eq_some hk).mp hparty
      have hleader := (h.sound party hmem).leader
      dsimp only
      split
      · exact h.setParty hk hmem rfl rfl hleader
      · split
        · rename_i m hm
          refine h.setParty hk hmem (mPartyID_setLeader party _) (mMemberList_setLeader party _) ?_
          unfold ActiveParty.setLeader
          split
          · rename_i m' hm'
            exact ⟨m', List.mem_of_find?_eq_some hm', rfl⟩
          · exact hleader
        · exact h.setParty hk hmem rfl rfl hleader

theorem Structured.load (h : w.Structured) (hk : w.Keyed) {creatureID newID partyID : Int}
    (hk' : (w.load creatureID newID partyID).Keyed)
    (hpromised : Promised w (.load creatureID newID partyID)) :
    (w.load creatureID newID partyID).Structured := by
  refine ⟨h.of_frame hk hk' (fun p hp => ⟨p, hp, rfl, fun m hm => ⟨m, hm, rfl, fun _ => id⟩⟩) ?_,
    h.sound⟩
  intro p hp m hm c hc hid _ _
  apply hk.players.mem_modify_findIdx.mpr (.inl ⟨hc, ?_⟩)
  intro heq
  exact hpromised.1 p hp m hm (heq ▸ hid)

/-! ### References -/

/-- Somebody is in one party at most. -/
theorem Assigned.pairwise (h : w.Assigned) (hk : w.Keyed) (memberDefID : Int) :
    w.mPartyList.Pairwise fun p q =>
      p.hasMember memberDefID = true → q.hasMember memberDefID = false := by
  have hne : w.mPartyList.Pairwise (· ≠ ·) := List.Nodup.of_map _ hk.parties
  refine hne.imp_of_mem ?_
  intro p q hp hq hne hhas
  rw [← Bool.not_eq_true]
  intro hhas'
  obtain ⟨m, hm, hmdef⟩ := hasMember_iff.mp hhas
  obtain ⟨n, hn, hndef⟩ := hasMember_iff.mp hhas'
  exact hne (h.apart p hp q hq m hm n hn (hmdef.trans hndef.symm))

theorem Structured.removePlayerReferences (h : w.Structured) (hk : w.Keyed) (memberDefID : Int)
    (disconnect : Bool) : (w.removePlayerReferences memberDefID disconnect).Structured := by
  -- The entry of the player loses its pointer; the others stay as they are.
  have hentry (q : ActiveParty) (hq : q ∈ w.mPartyList) (m : PartyMember)
      (hm : m ∈ (q.removePlayerReferences memberDefID disconnect).mMemberList) :
      m ∈ q.mMemberList ∨ ∃ n ∈ q.mMemberList, n.asLeader = m.asLeader ∧ m.creature = none := by
    obtain ⟨hm, -⟩ | ⟨n, hn, -, rfl⟩ := (mem_modifyMember (hk.distinct q hq)).mp hm
    · exact .inl hm
    · exact .inr ⟨n, hn, rfl, rfl⟩
  constructor
  · apply h.of_frame hk (hk.removePlayerReferences memberDefID disconnect)
    · intro p hp
      obtain hp | ⟨q, hq, rfl⟩ := mem_visitParties hp
      · exact ⟨p, hp, rfl, fun m hm => ⟨m, hm, rfl, fun _ => id⟩⟩
      · refine ⟨q, hq, rfl, ?_⟩
        intro m hm
        obtain hm | ⟨n, hn, hlead, hnone⟩ := hentry q hq m hm
        · exact ⟨m, hm, rfl, fun _ => id⟩
        · refine ⟨n, hn, congrArg Prod.fst hlead, ?_⟩
          intro id hid
          rw [hnone] at hid
          cases hid
    · intro _ _ _ _ c hc _ _ _
      exact hc
  · intro p hp
    obtain hp | ⟨q, hq, rfl⟩ := mem_visitParties hp
    · exact h.sound p hp
    · have hsound := h.sound q hq
      refine ⟨?_, ?_, ?_⟩
      · exact (List.length_modify ..).symm ▸ hsound.two
      · exact NodupKeys.modify hsound.distinct _ fun _ => rfl
      · obtain ⟨m, hm, hlead⟩ := hsound.leader
        by_cases hdef : m.mCreatureDefID = memberDefID
        · exact ⟨_, (mem_modifyMember hsound.distinct).mpr (.inr ⟨m, hm, hdef, rfl⟩), hlead⟩
        · exact ⟨m, (mem_modifyMember hsound.distinct).mpr (.inl ⟨hm, hdef⟩), hlead⟩

section UpdateReferences

variable {creatureID : Int}

theorem mem_updateReferences (h : w.Assigned) (hk : w.Keyed)
    (hc : w.getCreature creatureID = some c) {p : ActiveParty}
    (hp : p ∈ (w.updateReferences creatureID).mPartyList) :
    p ∈ w.mPartyList ∧ p.hasMember c.creatureDefID = false ∨
      ∃ q ∈ w.mPartyList, q.updatePlayerReferences creatureID c.creatureDefID = p := by
  unfold World.updateReferences at hp
  rw [hc] at hp
  dsimp only at hp
  unfold World.updatePlayerReferences at hp
  rw [hc] at hp
  exact mem_visitParties_of_pairwise (h.pairwise hk c.creatureDefID) hp

theorem Keyed.updateReferences (hk : w.Keyed) (creatureID : Int) :
    (w.updateReferences creatureID).Keyed := by
  unfold World.updateReferences
  split
  · exact hk
  · exact hk.updatePlayerReferences (fun _ _ _ => rfl) _

/-- What the player's creature is told, and nobody else's. -/
theorem mem_updateReferences_playerList (hk : w.Keyed) (hc : w.getCreature creatureID = some c)
    {c' : CreatureInstance} :
    c' ∈ (w.updateReferences creatureID).playerList ↔
      c' ∈ w.playerList ∧ c'.creatureID ≠ creatureID ∨
        ∃ c₀ ∈ w.playerList, c₀.creatureID = creatureID ∧
          { c₀ with
            creatureID, actInst := c.actInst
            partyID := ((w.mPartyList.find? fun party => party.hasMember c.creatureDefID).map
              ActiveParty.mPartyID).getD c.partyID } = c' := by
  unfold World.updateReferences
  rw [hc]
  dsimp only
  unfold World.updatePlayerReferences
  rw [hc]
  exact hk.players.mem_modify_findIdx

/-- The entries of a party whose references were updated. -/
theorem mem_updatePlayerReferences (hk : w.Keyed) (hparty : party ∈ w.mPartyList)
    {memberDefID : Int}
    (hm : m ∈ (party.updatePlayerReferences creatureID memberDefID).mMemberList) :
    m ∈ party.mMemberList ∧ m.mCreatureDefID ≠ memberDefID ∨
      m.mCreatureDefID = memberDefID ∧ m.creature = some creatureID ∧
        ∃ n ∈ party.mMemberList, n.mCreatureDefID = memberDefID := by
  obtain hm | ⟨n, hn, hdef, rfl⟩ := (mem_modifyMember (hk.distinct party hparty)).mp hm
  · exact .inl hm
  · exact .inr ⟨hdef, rfl, n, hn, hdef⟩

theorem Assigned.updateReferences (h : w.Assigned) (hk : w.Keyed) (creatureID : Int) :
    (w.updateReferences creatureID).Assigned := by
  cases hc : w.getCreature creatureID with
  | none =>
      unfold World.updateReferences
      rw [hc]
      exact h
  | some c =>
      obtain ⟨hcmem, hcid⟩ := (getCreature_eq_some hk).mp hc
      have hk' := hk.updateReferences creatureID
      -- An entry of somebody else, or the one of the player.
      have hentry (p : ActiveParty) (hp : p ∈ (w.updateReferences creatureID).mPartyList)
          (m : PartyMember) (hm : m ∈ p.mMemberList) :
          ∃ q ∈ w.mPartyList, q.mPartyID = p.mPartyID ∧
            (m ∈ q.mMemberList ∧ m.mCreatureDefID ≠ c.creatureDefID ∨
              m.mCreatureDefID = c.creatureDefID ∧ m.creature = some creatureID ∧
                ∃ n ∈ q.mMemberList, n.mCreatureDefID = c.creatureDefID) := by
        obtain ⟨hp, hnot⟩ | ⟨q, hq, rfl⟩ := mem_updateReferences h hk hc hp
        · refine ⟨p, hp, rfl, .inl ⟨hm, ?_⟩⟩
          intro hdef
          rw [hasMember_iff.mpr ⟨m, hm, hdef⟩] at hnot
          cases hnot
        · exact ⟨q, hq, rfl, mem_updatePlayerReferences hk hq hm⟩
      constructor
      · apply h.apart_of_origin hk'
        intro p hp m hm
        obtain ⟨q, hq, hid, ⟨hm, -⟩ | ⟨hdef, -, n, hn, hndef⟩⟩ := hentry p hp m hm
        · exact ⟨q, hq, hid, m, hm, rfl⟩
        · exact ⟨q, hq, hid, n, hn, hndef.trans hdef.symm⟩
      · intro p hp m hm id hid
        obtain ⟨q, hq, hpid, ⟨hm, hne⟩ | ⟨hdef, hself, n, hn, hndef⟩⟩ := hentry p hp m hm
        · obtain ⟨c', hc', hdef, hknows⟩ := h.online q hq m hm id hid
          obtain ⟨hmem, rfl⟩ := (getCreature_eq_some hk).mp hc'
          refine ⟨c', (getCreature_eq_some hk').mpr ⟨?_, rfl⟩, hdef, hknows.trans hpid⟩
          apply (mem_updateReferences_playerList hk hc).mpr (.inl ⟨hmem, ?_⟩)
          intro heq
          have hsame := List.inj_on_of_nodup_map hk.players hmem hcmem (heq.trans hcid.symm)
          exact hne (hdef.symm.trans (congrArg CreatureInstance.creatureDefID hsame))
        · obtain rfl : creatureID = id := Option.some.inj (hself.symm.trans hid)
          have hfind : (w.mPartyList.find? fun party => party.hasMember c.creatureDefID) = some q := by
            have hhas : q.hasMember c.creatureDefID = true := hasMember_iff.mpr ⟨n, hn, hndef⟩
            obtain ⟨q', hq'⟩ := Option.isSome_iff_exists.mp
              ((List.find?_isSome (p := fun party : ActiveParty => party.hasMember c.creatureDefID)).mpr
                ⟨q, hq, hhas⟩)
            obtain ⟨n', hn', hndef'⟩ := hasMember_iff.mp
              (List.find?_some (p := fun party : ActiveParty => party.hasMember c.creatureDefID) hq')
            rw [hq', h.apart q' (List.mem_of_find?_eq_some hq') q hq n' hn' n hn
              (hndef'.trans hndef.symm)]
          refine ⟨_, (getCreature_eq_some hk').mpr
            ⟨(mem_updateReferences_playerList hk hc).mpr (.inr ⟨c, hcmem, hcid, rfl⟩), rfl⟩, ?_, ?_⟩
          · exact hdef.symm
          · rw [hfind]
            exact hpid

theorem Structured.updateReferences (h : w.Structured) (hk : w.Keyed) (creatureID : Int) :
    (w.updateReferences creatureID).Structured := by
  refine ⟨h.toAssigned.updateReferences hk creatureID, ?_⟩
  cases hc : w.getCreature creatureID with
  | none =>
      unfold World.updateReferences
      rw [hc]
      exact h.sound
  | some c =>
      intro p hp
      obtain ⟨hp, -⟩ | ⟨q, hq, rfl⟩ := mem_updateReferences h.toAssigned hk hc hp
      · exact h.sound p hp
      · exact (h.sound q hq).updatePlayerReferences creatureID c.creatureDefID

end UpdateReferences

/-! ### Invitations -/

section Invitations

/-- Somebody who is in no party joins one. -/
theorem Assigned.addMember (h : w.Assigned) (hk : w.Keyed) (hparty : party ∈ w.mPartyList)
    (hc : c ∈ w.playerList) (hfree : ∀ p ∈ w.mPartyList, p.hasMember c.creatureDefID = false) :
    (w.addMember party c).Assigned := by
  have hk' := hk.addMember hparty c
  have hnew := hfree party hparty
  have hnotIn (p : ActiveParty) (hp : p ∈ w.mPartyList) (m : PartyMember) (hm : m ∈ p.mMemberList) :
      m.mCreatureDefID ≠ c.creatureDefID := by
    intro hdef
    have hnot := hfree p hp
    rw [hasMember_iff.mpr ⟨m, hm, hdef⟩] at hnot
    cases hnot
  -- An entry that was there, or the new one.
  have hentry (p : ActiveParty) (hp : p ∈ (w.addMember party c).mPartyList) (m : PartyMember)
      (hm : m ∈ p.mMemberList) :
      (∃ q ∈ w.mPartyList, q.mPartyID = p.mPartyID ∧ m ∈ q.mMemberList) ∨
        p.mPartyID = party.mPartyID ∧ m = c.member := by
    obtain ⟨hp, -⟩ | rfl := (mem_addMember hk hparty hnew).mp hp
    · exact .inl ⟨p, hp, rfl, hm⟩
    · obtain hm | hm := List.mem_append.mp hm
      · exact .inl ⟨party, hparty, rfl, hm⟩
      · exact .inr ⟨rfl, List.mem_singleton.mp hm⟩
  constructor
  · intro p hp q hq m hm n hn hdef
    apply List.inj_on_of_nodup_map hk'.parties hp hq
    obtain ⟨p₀, hp₀, hpid, hm₀⟩ | ⟨hpid, rfl⟩ := hentry p hp m hm
    · obtain ⟨q₀, hq₀, hqid, hn₀⟩ | ⟨hqid, rfl⟩ := hentry q hq n hn
      · rw [← hpid, ← hqid, h.apart p₀ hp₀ q₀ hq₀ m hm₀ n hn₀ hdef]
      · exact absurd hdef (hnotIn p₀ hp₀ m hm₀)
    · obtain ⟨q₀, hq₀, -, hn₀⟩ | ⟨hqid, -⟩ := hentry q hq n hn
      · exact absurd hdef.symm (hnotIn q₀ hq₀ n hn₀)
      · exact hpid.trans hqid.symm
  · intro p hp m hm id hid
    obtain ⟨q, hq, hpid, hm⟩ | ⟨hpid, rfl⟩ := hentry p hp m hm
    · obtain ⟨c', hc', hdef, hknows⟩ := h.online q hq m hm id hid
      obtain ⟨hmem, rfl⟩ := (getCreature_eq_some hk).mp hc'
      refine ⟨c', (getCreature_eq_some hk').mpr ⟨?_, rfl⟩, hdef, hknows.trans hpid⟩
      apply mem_addMember_playerList hk hmem
      intro heq
      have hsame := List.inj_on_of_nodup_map hk.players hmem hc heq
      exact hnotIn q hq m hm (hdef.symm.trans (congrArg CreatureInstance.creatureDefID hsame))
    · obtain rfl : c.creatureID = id := Option.some.inj hid
      exact ⟨_, (getCreature_eq_some hk').mpr ⟨mem_addMember_self hk hc hnew, rfl⟩, rfl, hpid.symm⟩

theorem Assigned.newParty (h : w.Assigned) (hnil : party.mMemberList = []) (next : Int) :
    Assigned { w with mPartyList := w.mPartyList ++ [party], nextPartyID := next } := by
  have hold (p : ActiveParty) (hp : p ∈ w.mPartyList ++ [party]) (m : PartyMember)
      (hm : m ∈ p.mMemberList) : p ∈ w.mPartyList := by
    obtain hp | hp := List.mem_append.mp hp
    · exact hp
    · rw [List.mem_singleton.mp hp, hnil] at hm
      cases hm
  constructor
  · intro p hp q hq m hm n hn
    exact h.apart p (hold p hp m hm) q (hold q hq n hn) m hm n hn
  · intro p hp m hm
    exact h.online p (hold p hp m hm) m hm

/-- A party with its leader, or an old one, gets a new member. -/
theorem sound_append (hlist : party.mMemberList ≠ [])
    (hdistinct : NodupKeys PartyMember.mCreatureDefID party.mMemberList)
    (hleader : ∃ m ∈ party.mMemberList, m.asLeader = party.leader)
    (hnew : party.hasMember c.creatureDefID = false) :
    Sound { party with mMemberList := party.mMemberList ++ [c.member] } where
  two := by
    have hpos := List.length_pos_iff.mpr hlist
    simp only [List.length_append, List.length_singleton]
    omega
  distinct := by
    apply nodupKeys_append_singleton.mpr ⟨hdistinct, ?_⟩
    intro m hm hdef
    have hhas : party.hasMember c.creatureDefID = true := hasMember_iff.mpr ⟨m, hm, hdef⟩
    rw [hhas] at hnew
    cases hnew
  leader := by
    obtain ⟨m, hm, hlead⟩ := hleader
    exact ⟨m, List.mem_append_left _ hm, hlead⟩

theorem addMemberTo_eq (hk : w.Keyed) (hparty : party ∈ w.mPartyList) (c : CreatureInstance) :
    w.addMemberTo party.mPartyID c = w.addMember party c := by
  unfold World.addMemberTo
  rw [(getPartyByID_eq_some hk).mpr ⟨hparty, rfl⟩]

/-- Two players who are in no party make one. -/
theorem Structured.newParty (h : w.Structured) (hk : w.Keyed) {leader member : CreatureInstance}
    (hid : party.mPartyID = w.nextPartyID) (hnil : party.mMemberList = [])
    (hlead : leader.member.asLeader = party.leader) (hleader : leader ∈ w.playerList)
    (hmember : member ∈ w.playerList) (hne : member.creatureDefID ≠ leader.creatureDefID)
    (hleaderFree : ∀ p ∈ w.mPartyList, p.hasMember leader.creatureDefID = false)
    (hmemberFree : ∀ p ∈ w.mPartyList, p.hasMember member.creatureDefID = false) :
    ((World.addMemberTo
      { w with mPartyList := w.mPartyList ++ [party], nextPartyID := w.nextPartyID + 1 }
        party.mPartyID leader).addMemberTo party.mPartyID member).Structured := by
  -- Nobody is in the new party, then the leader alone.
  let w₁ : World :=
    { w with mPartyList := w.mPartyList ++ [party], nextPartyID := w.nextPartyID + 1 }
  let party₁ : ActiveParty := { party with mMemberList := party.mMemberList ++ [leader.member] }
  have hk₁ : w₁.Keyed := hk.newParty hid hnil
  have hparty : party ∈ w₁.mPartyList := List.mem_append_right _ List.mem_cons_self
  have hempty (defID : Int) : party.hasMember defID = false := by
    simp [ActiveParty.hasMember, hnil]
  have hold (p : ActiveParty) (hp : p ∈ w₁.mPartyList) : p ∈ w.mPartyList ∨ p = party :=
    (List.mem_append.mp hp).imp_right List.mem_singleton.mp
  have hk₂ := hk₁.addMember hparty leader
  have hmem₂ (p : ActiveParty) : p ∈ (w₁.addMember party leader).mPartyList ↔
      p ∈ w₁.mPartyList ∧ p.mPartyID ≠ party.mPartyID ∨ party₁ = p :=
    mem_addMember hk₁ hparty (hempty leader.creatureDefID)
  have hparty₁ : party₁ ∈ (w₁.addMember party leader).mPartyList := (hmem₂ party₁).mpr (.inr rfl)
  have hold₂ (p : ActiveParty) (hp : p ∈ (w₁.addMember party leader).mPartyList) :
      p ∈ w.mPartyList ∨ p = party₁ := by
    obtain ⟨hp, hother⟩ | heq := (hmem₂ p).mp hp
    · obtain hp | rfl := hold p hp
      · exact .inl hp
      · exact absurd rfl hother
    · exact .inr heq.symm
  have halone : party₁.hasMember member.creatureDefID = false := by
    rw [← Bool.not_eq_true, hasMember_iff]
    rintro ⟨m, hm, hdef⟩
    obtain hm | hm := List.mem_append.mp hm
    · rw [hnil] at hm
      cases hm
    · rw [List.mem_singleton.mp hm] at hdef
      exact hne hdef.symm
  rw [addMemberTo_eq hk₁ hparty, show party.mPartyID = party₁.mPartyID from rfl,
    addMemberTo_eq hk₂ hparty₁]
  constructor
  · have hassigned₁ : w₁.Assigned := h.toAssigned.newParty hnil _
    apply Assigned.addMember _ hk₂ hparty₁
    · apply mem_addMember_playerList hk₁ hmember
      intro heq
      exact hne (congrArg CreatureInstance.creatureDefID
        (List.inj_on_of_nodup_map hk.players hmember hleader heq))
    · intro p hp
      obtain hp | rfl := hold₂ p hp
      · exact hmemberFree p hp
      · exact halone
    · apply hassigned₁.addMember hk₁ hparty hleader
      intro p hp
      obtain hp | rfl := hold p hp
      · exact hleaderFree p hp
      · exact hempty leader.creatureDefID
  · intro p hp
    obtain ⟨hp, hother⟩ | rfl := (mem_addMember hk₂ hparty₁ halone).mp hp
    · obtain hp | rfl := hold₂ p hp
      · exact h.sound p hp
      · exact absurd rfl hother
    · refine sound_append ?_ (hk₂.distinct party₁ hparty₁) ?_ halone
      · exact List.append_ne_nil_of_right_ne_nil _ (List.cons_ne_nil _ _)
      · exact ⟨leader.member, List.mem_append_right _ List.mem_cons_self, hlead⟩

theorem Structured.acceptInvite (h : w.Structured) (hk : w.Keyed) {memberID leaderDefID : Int}
    (hpromised : Promised w (.acceptInvite memberID leaderDefID))
    (hkeeps : Keeps w (.acceptInvite memberID leaderDefID)) :
    (w.acceptInvite memberID leaderDefID).Structured := by
  unfold World.acceptInvite
  cases hmember : w.getCreature memberID with
  | none => exact h
  | some member =>
      obtain ⟨hmemberIn, -⟩ := (getCreature_eq_some hk).mp hmember
      have hfree := hpromised member hmember
      cases hlead : w.playerList.find? fun c => c.creatureDefID == leaderDefID with
      | none => exact h
      | some leader =>
          have hleaderIn : leader ∈ w.playerList := List.mem_of_find?_eq_some hlead
          have hleaderDef : leader.creatureDefID = leaderDefID := by
            simpa using List.find?_some hlead
          dsimp only
          cases hparty : w.mPartyList.find? fun party => party.mLeaderDefID == leaderDefID with
          | some party =>
              have hmem : party ∈ w.mPartyList := List.mem_of_find?_eq_some hparty
              have hsound := h.sound party hmem
              refine ⟨h.toAssigned.addMember hk hmem hmemberIn hfree, ?_⟩
              intro p hp
              obtain ⟨hp, -⟩ | rfl := (mem_addMember hk hmem (hfree party hmem)).mp hp
              · exact h.sound p hp
              · apply sound_append _ hsound.distinct hsound.leader (hfree party hmem)
                apply List.ne_nil_of_length_pos
                have := hsound.two
                omega
          | none =>
              obtain ⟨hne, ⟨party, hmem, hdef⟩ | hleaderFree⟩ := hkeeps
              · have hnot := List.find?_eq_none.mp hparty party hmem
                simp [hdef] at hnot
              · apply h.newParty hk rfl rfl rfl hleaderIn hmemberIn
                · rw [hleaderDef]
                  exact hne member hmember
                · rwa [hleaderDef]
                · exact hfree

end Invitations

end World

/-! ### Steps and runs -/

section Run

variable {w w' : World} {h : List (World × PartyEvent)}

theorem keyed_partyStep (hk : w.Keyed) {e : PartyEvent} (hpromised : Promised w e)
    (hkeeps : Keeps w e) (hs : partyStep w e = some w') : w'.Keyed := by
  cases e with
  | acceptInvite memberID leaderDefID =>
      exact Option.some.inj hs ▸ hk.acceptInvite memberID leaderDefID
  | quit creatureID => exact Option.some.inj hs ▸ hk.doQuit creatureID
  | kick creatureID memberID behind =>
      rw [← Option.some.inj hs]
      obtain heq | ⟨c, party, m, -, -, -, -, heq⟩ := World.kick_cases creatureID memberID behind
      · rwa [heq]
      · rw [heq]
        exact hk.dropMember _ _ _
  | setLeader creatureID newLeaderID =>
      exact Option.some.inj hs ▸ hk.doSetLeader creatureID newLeaderID
  | disband partyID =>
      rw [← Option.some.inj hs]
      unfold World.doDisband
      rw [show w.getPartyByID partyID = none from hkeeps]
      exact hk
  | load creatureID newID partyID =>
      exact Option.some.inj hs ▸ hk.modifyCreature newID (fun _ => rfl) hpromised.2
  | updateReferences creatureID => exact Option.some.inj hs ▸ hk.updateReferences creatureID
  | removeReferences memberDefID disconnect =>
      exact Option.some.inj hs ▸ hk.removePlayerReferences memberDefID disconnect

theorem structured_partyStep (hstr : w.Structured) (hk : w.Keyed) {e : PartyEvent}
    (hpromised : Promised w e) (hkeeps : Keeps w e) (hs : partyStep w e = some w') :
    w'.Structured := by
  have hk' := keyed_partyStep hk hpromised hkeeps hs
  cases e with
  | acceptInvite memberID leaderDefID =>
      exact Option.some.inj hs ▸ hstr.acceptInvite hk hpromised hkeeps
  | quit creatureID => exact Option.some.inj hs ▸ hstr.doQuit hk hkeeps
  | kick creatureID memberID behind => exact Option.some.inj hs ▸ hstr.kick hk hkeeps
  | setLeader creatureID newLeaderID =>
      exact Option.some.inj hs ▸ hstr.doSetLeader hk creatureID newLeaderID
  | disband partyID =>
      rw [← Option.some.inj hs]
      unfold World.doDisband
      rw [show w.getPartyByID partyID = none from hkeeps]
      exact hstr
  | load creatureID newID partyID =>
      rw [← Option.some.inj hs] at hk' ⊢
      exact hstr.load hk hk' hpromised
  | updateReferences creatureID =>
      exact Option.some.inj hs ▸ hstr.updateReferences hk creatureID
  | removeReferences memberDefID disconnect =>
      exact Option.some.inj hs ▸ hstr.removePlayerReferences hk memberDefID disconnect

theorem run_keyed_structured
    (run : Trace NoParties (fun w e => Promised w e ∧ Keeps w e) partyStep h w) :
    w.Keyed ∧ w.Structured := by
  induction run with
  | @start s hstart =>
      obtain ⟨hnil, hplayers⟩ := hstart
      have hnone (p : ActiveParty) (hp : p ∈ s.mPartyList) : False := by
        rw [hnil] at hp
        cases hp
      refine ⟨⟨hplayers, ?_, fun p hp => (hnone p hp).elim, fun p hp => (hnone p hp).elim⟩,
        ⟨⟨fun p hp => (hnone p hp).elim, fun p hp => (hnone p hp).elim⟩,
          fun p hp => (hnone p hp).elim⟩⟩
      rw [hnil]
      exact List.nodup_nil
  | next _ hok hs ih =>
      exact ⟨keyed_partyStep ih.1 hok.1 hok.2 hs,
        structured_partyStep ih.2 ih.1 hok.1 hok.2 hs⟩

/-- In a run of changes that keep the structure, the parties are structured at any time, and
nobody who is kicked takes the leader with him. -/
theorem run_structured
    (run : Trace NoParties (fun w e => Promised w e ∧ Keeps w e) partyStep h w) :
    w.Structured ∧ ∀ creatureID memberID behind, Keeps w (.kick creatureID memberID behind) →
      KickKeepsLeader w creatureID memberID behind := by
  obtain ⟨hk, hstr⟩ := run_keyed_structured run
  exact ⟨hstr, fun _ _ _ hkeeps => hstr.kickKeepsLeader hk hkeeps⟩

end Run

/-! Three players, and a party of theirs. -/

def trio : World where
  playerList :=
    [{ creatureID := 101, creatureDefID := 1, displayName := "Anna" },
      { creatureID := 102, creatureDefID := 2, displayName := "Bert" },
      { creatureID := 103, creatureDefID := 3, displayName := "Cleo" }]

theorem noParties_trio : NoParties trio := ⟨rfl, by unfold NodupKeys; decide⟩

/-- The third player becomes the leader. -/
def trioEvents : List PartyEvent :=
  [.acceptInvite 102 1, .acceptInvite 103 1, .setLeader 101 103]

theorem run_structured_trio :
    ((runAll partyStep trio trioEvents).getD {}).Structured ∧ ∀ creatureID memberID behind,
      Keeps ((runAll partyStep trio trioEvents).getD {}) (.kick creatureID memberID behind) →
        KickKeepsLeader ((runAll partyStep trio trioEvents).getD {}) creatureID memberID behind := by
  have hok : OkAll (fun w e => Promised w e ∧ Keeps w e) partyStep trio trioEvents := by
    decide
  have hrun : (runAll partyStep trio trioEvents).isSome = true := by decide
  exact run_structured ((Trace.start noParties_trio).runAll hok (eq_some_getD hrun {}))

/-- The leader stands behind the one who is kicked: the leadership goes to the first member. -/
theorem kick_moves_leader :
    ∃ h w, Trace NoParties Promised partyStep h w ∧ ¬KickKeepsLeader w 103 102 0 := by
  have hok : OkAll Promised partyStep trio trioEvents := by decide
  have hrun : (runAll partyStep trio trioEvents).isSome = true := by decide
  refine ⟨_, _, (Trace.start noParties_trio).runAll hok (eq_some_getD hrun {}), ?_⟩
  unfold KickKeepsLeader
  decide

end Loot

end Iceee
