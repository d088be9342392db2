import Mathlib

/-!
# Deaths in a PVP game

When a player dies in a game, his team and his member record count a death; the teams of the
attackers and the attackers' records count kills. The record of an attacker is looked up in the
team of the dead player, so the kills of an attacker from another team are counted for nobody.

## Main results

* `processDeath_eq`: the scores that a death changes.
* `processDeath_eq_due_iff`: when they are the scores that the death is worth.

## Implementation notes

A party is known by its ID, a player by its creature ID: pointers are compared as these.
-/

namespace Iceee.PVP

structure PartyMember where
  mCreatureDefID : Int
  mCreatureID : Int
  mPVPKills : Int := 0
  mPVPDeaths : Int := 0
  deriving DecidableEq, Repr

structure ActiveParty where
  mPVPKills : Int := 0
  mPVPDeaths : Int := 0
  mMemberList : List PartyMember
  deriving DecidableEq, Repr

/-- `GetMemberByID`: the place of the first record. -/
def ActiveParty.getMemberByID (party : ActiveParty) (memberID : Int) : Option Nat :=
  party.mMemberList.findIdx? fun m => m.mCreatureID == memberID

/-- The parties of `g_PartyManager` by ID. -/
abbrev Parties := Int → Option ActiveParty

/-- A change of one party. -/
def Parties.modify (parties : Parties) (id : Int) (f : ActiveParty → ActiveParty) : Parties :=
  Function.update parties id ((parties id).map f)

/-- A change of the first record of a member, if there is one. -/
def Parties.modifyMember (parties : Parties) (id memberID : Int)
    (f : PartyMember → PartyMember) : Parties :=
  parties.modify id fun party =>
    match party.getMemberByID memberID with
    | some i => { party with mMemberList := party.mMemberList.modify i f }
    | none => party

/-- The place of a member in a party. -/
def Parties.getMemberByID (parties : Parties) (id memberID : Int) : Option Nat :=
  (parties id).bind fun party => party.getMemberByID memberID

structure PVPGame where
  /-- The parties by team, in the order of the teams. -/
  mTeams : List (Int × Int)
  deriving DecidableEq, Repr

/-- `GetTeamForPlayer`. -/
def PVPGame.getTeamForPlayer (game : PVPGame) (parties : Parties) (creatureID : Int) :
    Option Int :=
  (game.mTeams.find? fun e => (parties.getMemberByID e.2 creatureID).isSome).map Prod.snd

structure CreatureInstance where
  creatureID : Int
  creatureDefID : Int
  partyID : Int := 0
  mInstanceID : Int
  /-- `GetMaxHealth(false)`. -/
  maxHealth : Int
  /-- `GetPlaneRange` from the dead player is less than `PARTY_SHARE_DISTANCE`. -/
  inShareDistance : Bool
  deriving DecidableEq, Repr

structure CreatureSearch where
  ptr : Int
  attacked : Int
  deriving DecidableEq, Repr

structure HateCreatureData where
  cdefID : Int
  damage : Int
  deriving DecidableEq, Repr

structure ActiveInstance where
  mInstanceID : Int
  playerList : List CreatureInstance
  pvpGame : Option PVPGame

/-- `AddCreaturePointer`. -/
def addCreaturePointer (output : List CreatureSearch) (ptr attacked : Int) :
    List CreatureSearch :=
  match output.findIdx? fun c => c.ptr == ptr with
  | some i => output.modify i fun c => { c with attacked := max c.attacked attacked }
  | none => output ++ [⟨ptr, attacked⟩]

namespace ActiveInstance

variable (actInst : ActiveInstance) (parties : Parties)

/-- `GetPlayerByCDefID`. -/
def getPlayerByCDefID (cdefID : Int) : Option CreatureInstance :=
  actInst.playerList.find? fun c => c.creatureDefID == cdefID

/-- A member of an attacker's party takes part when he is near. -/
def resolveMember (results : List CreatureSearch) (pm : PartyMember) : List CreatureSearch :=
  match actInst.getPlayerByCDefID pm.mCreatureDefID with
  | none => results
  | some lookup =>
      if lookup.mInstanceID = actInst.mInstanceID ∧ lookup.inShareDistance then
        addCreaturePointer results lookup.creatureID 0
      else results

/-- One entry of the hate list. -/
def resolveAttacker (results : List CreatureSearch) (hate : HateCreatureData) :
    List CreatureSearch :=
  match actInst.getPlayerByCDefID hate.cdefID with
  | none => results
  | some lookup =>
      let attacked := if hate.damage > lookup.maxHealth.tdiv 10 then 1 else 0
      let results := addCreaturePointer results lookup.creatureID attacked
      if lookup.partyID = 0 then results
      else match parties lookup.partyID with
        | none => results
        | some party => party.mMemberList.foldl actInst.resolveMember results

/-- `ResolveAttackers`. -/
def resolveAttackers (hateProfile : Option (List HateCreatureData)) : List CreatureSearch :=
  match hateProfile with
  | none => []
  | some hateList => hateList.foldl (actInst.resolveAttacker parties) []

end ActiveInstance

/-- One attacker of a player who dies in `team`: the parties and `teamsCredited`. -/
def creditAttacker (game : PVPGame) (team : Int) (s : Parties × List Int)
    (attacker : CreatureSearch) : Parties × List Int :=
  match game.getTeamForPlayer s.1 attacker.ptr with
  | none => s
  | some attackerTeam =>
      let s :=
        if attackerTeam ∈ s.2 then s
        else (s.1.modify attackerTeam fun p => { p with mPVPKills := p.mPVPKills + 1 },
          s.2 ++ [attackerTeam])
      (s.1.modifyMember team attacker.ptr fun m => { m with mPVPKills := m.mPVPKills + 1 }, s.2)

/-- `ProcessDeath`, its part for the game. -/
def processDeath (actInst : ActiveInstance) (parties : Parties) (creatureID : Int)
    (hateProfile : Option (List HateCreatureData)) : Parties :=
  let attackerList := actInst.resolveAttackers parties hateProfile
  match actInst.pvpGame with
  | none => parties
  | some game =>
      match game.getTeamForPlayer parties creatureID with
      | none => parties
      | some team =>
          let parties := parties.modify team fun p => { p with mPVPDeaths := p.mPVPDeaths + 1 }
          let parties := parties.modifyMember team creatureID fun m =>
            { m with mPVPDeaths := m.mPVPDeaths + 1 }
          (attackerList.foldl (creditAttacker game team) (parties, [])).1

/-! ## Scores -/

/-- Whose score it is: a team's, or that of a record in a team. -/
inductive Place where
  | team (id : Int)
  | member (id : Int) (i : Nat)
  deriving DecidableEq, Repr

/-- Kills and deaths by place. -/
abbrev Gains := Place → Int × Int

def PartyMember.add (m : PartyMember) (s : Int × Int) : PartyMember :=
  { m with mPVPKills := m.mPVPKills + s.1, mPVPDeaths := m.mPVPDeaths + s.2 }

def ActiveParty.add (party : ActiveParty) (s : Int × Int) (r : Nat → Int × Int) : ActiveParty :=
  { party with
    mPVPKills := party.mPVPKills + s.1
    mPVPDeaths := party.mPVPDeaths + s.2
    mMemberList := party.mMemberList.mapIdx fun i m => m.add (r i) }

/-- The scores after gains; nothing else changes. -/
def Parties.add (parties : Parties) (g : Gains) : Parties := fun id =>
  (parties id).map fun party => party.add (g (.team id)) fun i => g (.member id i)

/-- What the death is worth: a death for the player's team and for his record in it, a kill for
every team with an attacker, and one for every attacker's record in his own team. -/
def due (game : PVPGame) (parties : Parties) (creatureID : Int) (attackers : List Int) : Gains
  | .team id =>
      (if ∃ a ∈ attackers, game.getTeamForPlayer parties a = some id then 1 else 0,
        if game.getTeamForPlayer parties creatureID = some id then 1 else 0)
  | .member id i =>
      (if ∃ a ∈ attackers, game.getTeamForPlayer parties a = some id ∧
          parties.getMemberByID id a = some i then 1 else 0,
        if game.getTeamForPlayer parties creatureID = some id ∧
          parties.getMemberByID id creatureID = some i then 1 else 0)

section Add

@[simp] theorem PartyMember.add_zero (m : PartyMember) : m.add 0 = m := by
  simp [PartyMember.add]

theorem PartyMember.add_add (m : PartyMember) (s s' : Int × Int) :
    (m.add s).add s' = m.add (s + s') := by
  simp [PartyMember.add, add_assoc]

@[simp] theorem ActiveParty.getMemberByID_add (party : ActiveParty) (s : Int × Int)
    (r : Nat → Int × Int) (memberID : Int) :
    (party.add s r).getMemberByID memberID = party.getMemberByID memberID := by
  have hids (l : List PartyMember) : l.findIdx? (fun m => m.mCreatureID == memberID) =
      (l.map PartyMember.mCreatureID).findIdx? (fun c => c == memberID) := by
    rw [List.findIdx?_map]
    rfl
  rw [ActiveParty.getMemberByID, ActiveParty.getMemberByID, hids, hids]
  congr 1
  apply List.ext_getElem?
  intro i
  simp only [ActiveParty.add, PartyMember.add, List.getElem?_map, List.getElem?_mapIdx,
    Option.map_map, Function.comp_def]

theorem ActiveParty.add_add (party : ActiveParty) (s s' : Int × Int) (r r' : Nat → Int × Int) :
    (party.add s r).add s' r' = party.add (s + s') (r + r') := by
  simp [ActiveParty.add, List.mapIdx_mapIdx, Function.comp_def, PartyMember.add_add, add_assoc]

theorem ActiveParty.add_single (party : ActiveParty) (s : Int × Int) (i : Nat) (s' : Int × Int) :
    party.add s (Pi.single i s') =
      { party.add s 0 with mMemberList := party.mMemberList.modify i fun m => m.add s' } := by
  rw [ActiveParty.add, ActiveParty.add]
  congr 1
  apply List.ext_getElem?
  intro j
  rw [List.getElem?_mapIdx, List.getElem?_modify]
  by_cases hij : i = j
  · subst hij
    simp
  · simp [hij]

/-- Gains of the party alone leave its records. -/
theorem ActiveParty.add_team (party : ActiveParty) (s : Int × Int) :
    party.add s 0 = { party with
      mPVPKills := party.mPVPKills + s.1, mPVPDeaths := party.mPVPDeaths + s.2 } := by
  have hself : party.mMemberList.mapIdx (fun _ m => m) = party.mMemberList := by
    apply List.ext_getElem?
    intro i
    simp
  simp [ActiveParty.add, hself]

@[simp] theorem ActiveParty.add_zero (party : ActiveParty) : party.add 0 0 = party := by
  simp [ActiveParty.add_team]

variable (parties : Parties) (g g' : Gains)

theorem Parties.add_add : (parties.add g).add g' = parties.add (g + g') := by
  ext id : 1
  simp only [Parties.add, Option.map_map, Function.comp_def, ActiveParty.add_add]
  rfl

@[simp] theorem Parties.getMemberByID_add (id memberID : Int) :
    (parties.add g).getMemberByID id memberID = parties.getMemberByID id memberID := by
  cases h : parties id <;> simp [Parties.getMemberByID, Parties.add, h]

@[simp] theorem PVPGame.getTeamForPlayer_add (game : PVPGame) (creatureID : Int) :
    game.getTeamForPlayer (parties.add g) creatureID =
      game.getTeamForPlayer parties creatureID := by
  simp only [PVPGame.getTeamForPlayer, Parties.getMemberByID_add]

/-- A change of scores is a gain of the party it changes. -/
theorem Parties.modify_eq_add (id : Int) (f : ActiveParty → ActiveParty)
    (hf : ∀ party, parties id = some party →
      f party = party.add (g (.team id)) fun i => g (.member id i))
    (hteam : ∀ id' ≠ id, g (.team id') = 0) (hmember : ∀ id' ≠ id, ∀ i, g (.member id' i) = 0) :
    parties.modify id f = parties.add g := by
  ext id' : 1
  by_cases hid : id' = id
  · subst hid
    rw [Parties.modify, Function.update_self, Parties.add]
    exact Option.map_congr hf
  · have hzero : (fun i => g (.member id' i)) = 0 := funext (hmember id' hid)
    rw [Parties.modify, Function.update_of_ne hid, Parties.add, hteam id' hid, hzero]
    simp

/-- What a team gains. -/
def teamGain (id : Int) (s : Int × Int) : Gains := Pi.single (.team id) s

@[simp] theorem teamGain_team (id id' : Int) (s : Int × Int) :
    teamGain id s (.team id') = if id' = id then s else 0 := by
  simp [teamGain, Pi.single_apply]

@[simp] theorem teamGain_member (id id' : Int) (i : Nat) (s : Int × Int) :
    teamGain id s (.member id' i) = 0 := by
  simp [teamGain]

theorem Parties.modify_team (id : Int) (s : Int × Int) :
    (parties.modify id fun p => { p with
      mPVPKills := p.mPVPKills + s.1, mPVPDeaths := p.mPVPDeaths + s.2 }) =
      parties.add (teamGain id s) := by
  apply Parties.modify_eq_add
  · intro party _
    rw [← ActiveParty.add_team, teamGain_team, if_pos rfl]
    exact congrArg _ (funext fun i => (teamGain_member id id i s).symm)
  · intro id' hid
    simp [hid]
  · intro id' _ i
    simp

/-- What the record of a member gains. -/
def memberGain (id memberID : Int) (s : Int × Int) : Gains :=
  match parties.getMemberByID id memberID with
  | some i => Pi.single (.member id i) s
  | none => 0

@[simp] theorem memberGain_team (id memberID id' : Int) (s : Int × Int) :
    memberGain parties id memberID s (.team id') = 0 := by
  cases hi : parties.getMemberByID id memberID <;> simp [memberGain, hi]

theorem memberGain_member (id memberID id' : Int) (i : Nat) (s : Int × Int) :
    memberGain parties id memberID s (.member id' i) =
      if id' = id ∧ parties.getMemberByID id memberID = some i then s else 0 := by
  cases hi : parties.getMemberByID id memberID with
  | none => simp [memberGain, hi]
  | some j => simp [memberGain, hi, Pi.single_apply, eq_comm]

@[simp] theorem memberGain_add (id memberID : Int) (s : Int × Int) :
    memberGain (parties.add g) id memberID s = memberGain parties id memberID s := by
  rw [memberGain, memberGain, Parties.getMemberByID_add]

theorem Parties.modifyMember_eq_add (id memberID : Int) (s : Int × Int) :
    (parties.modifyMember id memberID fun m => { m with
      mPVPKills := m.mPVPKills + s.1, mPVPDeaths := m.mPVPDeaths + s.2 }) =
      parties.add (memberGain parties id memberID s) := by
  apply Parties.modify_eq_add
  · intro party hparty
    rw [memberGain_team]
    cases hi : party.getMemberByID memberID with
    | none =>
        have hrecords : (fun i => memberGain parties id memberID s (.member id i)) = 0 := by
          funext i
          simp [memberGain_member, Parties.getMemberByID, hparty, hi]
        rw [hrecords, ActiveParty.add_zero]
    | some j =>
        have hrecords : (fun i => memberGain parties id memberID s (.member id i)) =
            Pi.single j s := by
          funext i
          simp [memberGain_member, Parties.getMemberByID, hparty, hi, Pi.single_apply, eq_comm]
        rw [hrecords, ActiveParty.add_single, ActiveParty.add_zero]
        rfl
  · intro id' _
    exact memberGain_team parties id memberID id' s
  · intro id' hid i
    rw [memberGain_member, if_neg fun h => hid h.1]

end Add

/-! ## The attackers -/

theorem addCreaturePointer_ptr (output : List CreatureSearch) (ptr attacked : Int) :
    (addCreaturePointer output ptr attacked).map CreatureSearch.ptr =
      if ptr ∈ output.map CreatureSearch.ptr then output.map CreatureSearch.ptr
      else output.map CreatureSearch.ptr ++ [ptr] := by
  rw [addCreaturePointer]
  cases hi : output.findIdx? fun c => c.ptr == ptr with
  | none =>
      have hnew : ptr ∉ output.map CreatureSearch.ptr := by
        intro h
        obtain ⟨c, hc, rfl⟩ := List.mem_map.mp h
        simpa using List.findIdx?_eq_none_iff.mp hi c hc
      simp [hnew]
  | some i =>
      have hold : ptr ∈ output.map CreatureSearch.ptr := by
        obtain ⟨hlt, hptr, -⟩ := List.findIdx?_eq_some_iff_getElem.mp hi
        exact List.mem_map.mpr ⟨output[i], List.getElem_mem hlt, by simpa using hptr⟩
      rw [if_pos hold]
      apply List.ext_getElem?
      intro j
      rw [List.getElem?_map, List.getElem?_modify, List.getElem?_map]
      cases output[j]? <;> by_cases hij : i = j <;> simp [hij]

/-- Every attacker is in the list once. -/
def Distinct (output : List CreatureSearch) : Prop := (output.map CreatureSearch.ptr).Nodup

theorem distinct_addCreaturePointer {output : List CreatureSearch} (h : Distinct output)
    (ptr attacked : Int) : Distinct (addCreaturePointer output ptr attacked) := by
  rw [Distinct, addCreaturePointer_ptr]
  by_cases hold : ptr ∈ output.map CreatureSearch.ptr
  · rwa [if_pos hold]
  · rw [if_neg hold]
    rw [← List.concat_eq_append]
    exact h.concat hold

namespace ActiveInstance

variable (actInst : ActiveInstance) (parties : Parties) {results : List CreatureSearch}

theorem distinct_resolveMember (h : Distinct results) (pm : PartyMember) :
    Distinct (actInst.resolveMember results pm) := by
  rw [resolveMember]
  cases actInst.getPlayerByCDefID pm.mCreatureDefID with
  | none => exact h
  | some lookup =>
      dsimp only
      split
      · exact distinct_addCreaturePointer h lookup.creatureID 0
      · exact h

theorem distinct_resolveAttacker (h : Distinct results) (hate : HateCreatureData) :
    Distinct (actInst.resolveAttacker parties results hate) := by
  rw [resolveAttacker]
  cases actInst.getPlayerByCDefID hate.cdefID with
  | none => exact h
  | some lookup =>
      have hfirst := distinct_addCreaturePointer h lookup.creatureID
        (if hate.damage > lookup.maxHealth.tdiv 10 then 1 else 0)
      dsimp only
      split
      · exact hfirst
      · cases parties lookup.partyID with
        | none => exact hfirst
        | some party =>
            exact List.foldlRecOn (motive := Distinct) _ _ hfirst
              fun _ hresults pm _ => actInst.distinct_resolveMember hresults pm

theorem distinct_resolveAttackers (hateProfile : Option (List HateCreatureData)) :
    Distinct (actInst.resolveAttackers parties hateProfile) := by
  cases hateProfile with
  | none => exact List.nodup_nil
  | some hateList =>
      exact List.foldlRecOn (motive := Distinct) _ _ List.nodup_nil
        fun _ hresults hate _ => actInst.distinct_resolveAttacker parties hresults hate

end ActiveInstance

/-! ## What is counted -/

section Counted

variable (game : PVPGame) (parties : Parties) (team : Int)

/-- The kills that the loop over the attackers counts when some teams are credited already. -/
def counted (credited attackers : List Int) : Gains
  | .team id =>
      (if id ∉ credited ∧ ∃ a ∈ attackers, game.getTeamForPlayer parties a = some id then 1 else 0,
        0)
  | .member id i =>
      (if id = team ∧ ∃ a ∈ attackers, (game.getTeamForPlayer parties a).isSome ∧
          parties.getMemberByID id a = some i then 1 else 0, 0)

variable {parties} in
/-- A record is that of one player. -/
theorem getMemberByID_inj {id a b : Int} {i : Nat} (ha : parties.getMemberByID id a = some i)
    (hb : parties.getMemberByID id b = some i) : a = b := by
  have hrecord {c : Int} (hc : parties.getMemberByID id c = some i) :
      ∃ m, (parties id).bind (fun p => p.mMemberList[i]?) = some m ∧ m.mCreatureID = c := by
    obtain ⟨party, hparty, hi⟩ := Option.bind_eq_some_iff.mp hc
    obtain ⟨hlt, hid, -⟩ := List.findIdx?_eq_some_iff_getElem.mp hi
    exact ⟨party.mMemberList[i], by simp [hparty, hlt], by simpa using hid⟩
  obtain ⟨m, hm, rfl⟩ := hrecord ha
  obtain ⟨m', hm', rfl⟩ := hrecord hb
  rw [Option.some_inj.mp (hm.symm.trans hm')]

/-- One attacker adds a kill for his team, if it has none of this death, and one for his record in
the team of the dead player. -/
theorem creditAttacker_add (g : Gains) (credited : List Int) (attacker : CreatureSearch) :
    creditAttacker game team (parties.add g, credited) attacker =
      match game.getTeamForPlayer parties attacker.ptr with
      | none => (parties.add g, credited)
      | some t =>
          (parties.add (g + (if t ∈ credited then 0 else teamGain t (1, 0)) +
              memberGain parties team attacker.ptr (1, 0)),
            if t ∈ credited then credited else credited ++ [t]) := by
  rw [creditAttacker, PVPGame.getTeamForPlayer_add]
  cases game.getTeamForPlayer parties attacker.ptr with
  | none => rfl
  | some t =>
      have hteam := (parties.add g).modify_team t (1, 0)
      have hmember (g : Gains) := (parties.add g).modifyMember_eq_add team attacker.ptr (1, 0)
      simp only [add_zero, Parties.add_add, memberGain_add] at hteam hmember
      by_cases ht : t ∈ credited
      · simp [ht, hmember]
      · simp [ht, hteam, hmember]

/-- A loop adds what its first attacker adds and what the rest adds after him. -/
theorem foldl_creditAttacker (g : Gains) (credited : List Int) {l : List CreatureSearch}
    (hl : Distinct l) :
    (l.foldl (creditAttacker game team) (parties.add g, credited)).1 =
      parties.add (g + counted game parties team credited (l.map CreatureSearch.ptr)) := by
  induction l generalizing g credited with
  | nil =>
      have hnone : counted game parties team credited [] = 0 := by
        funext place
        cases place <;> simp [counted]
      rw [List.map_nil, hnone, add_zero]
      rfl
  | cons attacker l ih =>
      obtain ⟨hnew, hl⟩ := List.nodup_cons.mp hl
      rw [List.foldl_cons, creditAttacker_add]
      cases ht : game.getTeamForPlayer parties attacker.ptr with
      | none =>
          rw [ih g credited hl]
          congr 2
          funext place
          cases place <;> simp [counted, ht]
      | some t =>
          rw [ih _ _ hl, add_assoc, add_assoc]
          congr 2
          funext place
          cases place with
          | team id =>
              simp only [Pi.add_apply, memberGain_team, zero_add]
              by_cases hcredited : t ∈ credited
              · rw [if_pos hcredited, if_pos hcredited]
                by_cases hid : id = t
                · simp [counted, hid, hcredited]
                · simp [counted, ht, Ne.symm hid]
              · rw [if_neg hcredited, if_neg hcredited]
                by_cases hid : id = t
                · simp [counted, ht, hid, hcredited]
                · simp [counted, ht, hid, Ne.symm hid]
          | member id i =>
              simp only [Pi.add_apply, memberGain_member]
              have hteam : (if t ∈ credited then 0 else teamGain t (1, 0))
                  (.member id i) = 0 := by
                split <;> simp
              rw [hteam, zero_add]
              by_cases hrecord : id = team ∧ parties.getMemberByID team attacker.ptr = some i
              · obtain ⟨rfl, hrecord⟩ := hrecord
                have hothers : ¬∃ a ∈ l.map CreatureSearch.ptr,
                    (game.getTeamForPlayer parties a).isSome ∧
                      parties.getMemberByID id a = some i := by
                  rintro ⟨a, ha, -, hi⟩
                  exact hnew (getMemberByID_inj hi hrecord ▸ ha)
                simp only [counted, hothers]
                simp [ht, hrecord]
              · rw [if_neg hrecord, zero_add]
                simp only [counted, List.map_cons, List.exists_mem_cons_iff]
                refine Prod.ext (if_congr (and_congr_right fun hid => ?_) rfl rfl) rfl
                refine (or_iff_right fun h => hrecord ⟨hid, ?_⟩).symm
                exact hid ▸ h.2

/-- The scores that a death changes. -/
theorem processDeath_eq {actInst : ActiveInstance} {creatureID : Int}
    (hgame : actInst.pvpGame = some game)
    (hteam : game.getTeamForPlayer parties creatureID = some team)
    (hateProfile : Option (List HateCreatureData)) :
    processDeath actInst parties creatureID hateProfile =
      parties.add (teamGain team (0, 1) + memberGain parties team creatureID (0, 1) +
        counted game parties team []
          ((actInst.resolveAttackers parties hateProfile).map CreatureSearch.ptr)) := by
  have hdeaths := parties.modify_team team (0, 1)
  have hmember (g : Gains) := (parties.add g).modifyMember_eq_add team creatureID (0, 1)
  simp only [add_zero, Parties.add_add, memberGain_add] at hdeaths hmember
  simp only [processDeath, hgame, hteam]
  rw [hdeaths, hmember]
  exact foldl_creditAttacker game parties team _ [] (actInst.distinct_resolveAttackers parties _)

variable {game parties team} in
/-- A player's team has a record of him. -/
theorem exists_getMemberByID {creatureID : Int}
    (h : game.getTeamForPlayer parties creatureID = some team) :
    ∃ i, parties.getMemberByID team creatureID = some i := by
  obtain ⟨e, he, rfl⟩ := Option.map_eq_some_iff.mp h
  exact Option.isSome_iff_exists.mp (by simpa using List.find?_some he)

variable {parties} in
/-- The gains of a record can be read off. -/
theorem member_eq_of_add_eq {g g' : Gains} (h : parties.add g = parties.add g')
    {id creatureID : Int} {i : Nat} (hi : parties.getMemberByID id creatureID = some i) :
    g (.member id i) = g' (.member id i) := by
  obtain ⟨party, hparty, hi⟩ := Option.bind_eq_some_iff.mp hi
  obtain ⟨hlt, -, -⟩ := List.findIdx?_eq_some_iff_getElem.mp hi
  have hat := congrFun h id
  simp only [Parties.add, hparty, Option.map_some, Option.some_inj] at hat
  have hrecord := congrArg (fun p => p.mMemberList[i]?) hat
  simp only [ActiveParty.add, List.getElem?_mapIdx, List.getElem?_eq_getElem hlt, Option.map_some,
    Option.some_inj, PartyMember.add, PartyMember.mk.injEq] at hrecord
  obtain ⟨-, -, hkills, hdeaths⟩ := hrecord
  exact Prod.ext (add_left_cancel hkills) (add_left_cancel hdeaths)

/-- The scores change as the death is worth exactly when every attacker who is in a team is in the
team of the dead player. -/
theorem processDeath_eq_due_iff {actInst : ActiveInstance} {creatureID : Int}
    (hgame : actInst.pvpGame = some game)
    (hteam : game.getTeamForPlayer parties creatureID = some team)
    (hateProfile : Option (List HateCreatureData)) :
    processDeath actInst parties creatureID hateProfile =
        parties.add (due game parties creatureID
          ((actInst.resolveAttackers parties hateProfile).map CreatureSearch.ptr)) ↔
      ∀ a ∈ (actInst.resolveAttackers parties hateProfile).map CreatureSearch.ptr,
        ∀ t, game.getTeamForPlayer parties a = some t → t = team := by
  rw [processDeath_eq game parties team hgame hteam hateProfile]
  generalize (actInst.resolveAttackers parties hateProfile).map CreatureSearch.ptr = attackers
  constructor
  · intro h a ha t ht
    by_contra hother
    obtain ⟨i, hi⟩ := exists_getMemberByID ht
    have hgain := congrArg Prod.fst (member_eq_of_add_eq h hi)
    have hdue : ∃ b ∈ attackers, game.getTeamForPlayer parties b = some t ∧
        parties.getMemberByID t b = some i := ⟨a, ha, ht, hi⟩
    simp [memberGain_member, counted, due, hother, hdue] at hgain
  · intro hsame
    congr 1
    funext place
    cases place with
    | team id =>
        simp only [Pi.add_apply, teamGain_team, memberGain_team, add_zero, counted, due, hteam,
          Option.some_inj, List.not_mem_nil, not_false_iff, true_and]
        by_cases hid : id = team
        · simp [hid]
        · simp [hid, Ne.symm hid]
    | member id i =>
        have hkills : (id = team ∧ ∃ a ∈ attackers, (game.getTeamForPlayer parties a).isSome ∧
              parties.getMemberByID id a = some i) ↔
            ∃ a ∈ attackers, game.getTeamForPlayer parties a = some id ∧
              parties.getMemberByID id a = some i := by
          constructor
          · rintro ⟨rfl, a, ha, hsome, hi⟩
            obtain ⟨t, ht⟩ := Option.isSome_iff_exists.mp hsome
            exact ⟨a, ha, hsame a ha t ht ▸ ht, hi⟩
          · rintro ⟨a, ha, ht, hi⟩
            exact ⟨hsame a ha id ht, a, ha, by simp [ht], hi⟩
        have hdeaths : (id = team ∧ parties.getMemberByID team creatureID = some i) ↔
            game.getTeamForPlayer parties creatureID = some id ∧
              parties.getMemberByID id creatureID = some i := by
          constructor
          · rintro ⟨rfl, hi⟩
            exact ⟨hteam, hi⟩
          · rintro ⟨ht, hi⟩
            obtain rfl := Option.some_inj.mp (hteam.symm.trans ht)
            exact ⟨rfl, hi⟩
        simp only [Pi.add_apply, teamGain_member, memberGain_member, zero_add, counted, due,
          if_congr hkills rfl rfl, if_congr hdeaths rfl rfl]
        split <;> split <;> rfl

end Counted

/-- Two teams: the players 1 and 3 are in party 1, the player 2 is in party 2. -/
def match21 : Parties := fun id =>
  if id = 1 then some { mMemberList := [⟨11, 1, 0, 0⟩, ⟨13, 3, 0, 0⟩] }
  else if id = 2 then some { mMemberList := [⟨12, 2, 0, 0⟩] }
  else none

/-- The instance of the match. -/
def arena : ActiveInstance where
  mInstanceID := 1
  playerList := [⟨1, 11, 1, 1, 100, true⟩, ⟨2, 12, 2, 1, 100, true⟩, ⟨3, 13, 1, 1, 100, true⟩]
  pvpGame := some ⟨[(1, 1), (2, 2)]⟩

/-- A player who is killed by one of his own team. -/
theorem processDeath_eq_due_iff_own :
    processDeath arena match21 1 (some [⟨13, 100⟩]) =
      match21.add (due ⟨[(1, 1), (2, 2)]⟩ match21 1
        ((arena.resolveAttackers match21 (some [⟨13, 100⟩])).map CreatureSearch.ptr)) :=
  (processDeath_eq_due_iff ⟨[(1, 1), (2, 2)]⟩ match21 1 rfl (by decide) (some [⟨13, 100⟩])).mpr
    fun a ha t ht => by
      have hattackers : a = 3 ∨ a = 1 := by
        have hlist : (arena.resolveAttackers match21 (some [⟨13, 100⟩])).map CreatureSearch.ptr =
          [3, 1] := by decide
        simpa [hlist] using ha
      rcases hattackers with rfl | rfl <;> exact (Option.some_inj.mp ht).symm

/-- Who kills a player of the other team has no kill. -/
theorem kill_not_counted :
    ¬∃ team, PVPGame.getTeamForPlayer ⟨[(1, 1), (2, 2)]⟩ match21 1 = some team ∧
      processDeath arena match21 1 (some [⟨12, 100⟩]) =
        match21.add (due ⟨[(1, 1), (2, 2)]⟩ match21 1
          ((arena.resolveAttackers match21 (some [⟨12, 100⟩])).map CreatureSearch.ptr)) := by
  rintro ⟨team, -, h⟩
  exact absurd (congrFun h 2) (by decide)

end Iceee.PVP
