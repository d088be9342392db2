import Iceee.Clan.Manager

/-!
# Saving and loading a clan

The members are written with a colon between the ID and the rank and are split at commas, so
none is read back. `HasClan` asks for a key that no entity is stored under.
-/

namespace Iceee.Clans

open Lib

variable {st : KeyStore} {clan : Clan}

/-! ### Reading back -/

/-- What `WriteEntity` writes. -/
theorem strings_writeEntity (clan : Clan) :
    clan.writeEntity.mStringValues =
      [⟨"", "Name", clan.mName⟩, ⟨"", "MOTD", clan.mMOTD⟩,
        ⟨"", "Created", printULong clan.mCreated⟩,
        ⟨"", "Member", joinEscaped (clan.mMembers.map Clan.printMember)⟩,
        ⟨"", "PendingMember", joinEscaped (clan.mPendingMembers.map printInt)⟩] := rfl

/-- A key that was written is read back, whatever the store had before. -/
theorem value_saveClan (st : KeyStore) (clan : Clan) (key : String) {value : Text}
    (h : valueOf clan.writeEntity.mStringValues "" key = some value) (defaultValue : Text) :
    ClusterEntityReader.value { key := Clan.entityKey clan.mId } (saveClan st clan).client key
      defaultValue = value := by
  have hsec : ∃ v ∈ clan.writeEntity.mStringValues,
      EntityKey.sectionName v.sec = EntityKey.sectionName "" := ⟨_, List.mem_cons_self, rfl⟩
  have hfield := ClusterEntityWriter.field_finish_of_mem (k := Clan.entityKey clan.mId)
    (st.setKey (nameKey clan.mName) (printInt clan.mId)).client "" hsec key
  rw [h, Option.some_or] at hfield
  rw [ClusterEntityReader.value_eq (ClusterEntityReader.fresh_new _ "" _)]
  exact congrArg (Option.getD · defaultValue) hfield

/-- A member is one piece: there is no comma in it. -/
theorem readMember_printMember (member : ClanMember) :
    Clan.readMember (Clan.printMember member) = none := by
  have hcomma : ',' ∉ Clan.printMember member := by
    intro h
    rw [Clan.printMember, List.mem_append, List.mem_cons] at h
    obtain h | h | h := h
    · exact comma_notMem_printInt _ h
    · cases h
    · exact comma_notMem_printInt _ h
  rw [Clan.readMember, split_of_comma_notMem hcomma]

theorem printMember_ne_nil (member : ClanMember) : Clan.printMember member ≠ [] := by
  intro h
  exact printInt_ne_nil _ (List.append_eq_nil_iff.mp h).1

/-- A list without empty pieces is read back. -/
theorem parseEscaped_map {α : Type*} {print : α → Text} (hne : ∀ a, print a ≠ []) (l : List α) :
    parseEscaped (joinEscaped (l.map print)) = l.map print := by
  apply parseEscaped_joinEscaped
  cases l with
  | nil => simp
  | cons a rest =>
      intro h
      exact hne a (Option.some.inj h)

/-- What is loaded of a clan that was saved: everything but the members. -/
theorem getClan_saveClan (st : KeyStore) (clan : Clan) :
    getClan (saveClan st clan) clan.mId = { clan with mMembers := [] } := by
  have hname (d : Text) := value_saveClan st clan "Name" rfl d
  have hmotd (d : Text) := value_saveClan st clan "MOTD" rfl d
  have hcreated (d : Text) := value_saveClan st clan "Created" rfl d
  have hmember (d : Text) := value_saveClan st clan "Member" rfl d
  have hpending (d : Text) := value_saveClan st clan "PendingMember" rfl d
  have hnone : (clan.mMembers.map Clan.printMember).filterMap Clan.readMember = [] := by
    apply List.filterMap_eq_nil_iff.mpr
    intro piece hpiece
    obtain ⟨member, -, rfl⟩ := List.mem_map.mp hpiece
    exact readMember_printMember member
  have hids : (clan.mPendingMembers.map printInt).map parseInt = clan.mPendingMembers := by
    rw [List.map_map]
    exact List.map_id'' parseInt_printInt _
  rw [getClan, loadClan, Clan.readEntity]
  simp only [ClusterEntityReader.valueULong, ClusterEntityReader.listValue, hname, hmotd,
    hcreated, hmember, hpending, parseEscaped_map printMember_ne_nil,
    parseEscaped_map printInt_ne_nil, hnone, hids, parseULong_printULong, List.append_nil,
    List.nil_append]

/-! ### The keys -/

/-- No section of a clan, no list of sections and no name is stored under the key of the clan. -/
theorem clanKey_ne (id : Int) :
    (∀ sec, (Clan.entityKey id).sectionKey sec ≠ clanKey id) ∧
      (Clan.entityKey id).listKey ≠ clanKey id ∧ ∀ name, clanKey id ≠ nameKey name := by
  have hlonger (s : String) (hs : s.length ≠ 0) : clanKey id ++ s ≠ clanKey id := by
    intro h
    have hlen := congrArg String.length h
    rw [String.length_append] at hlen
    omega
  refine ⟨fun sec h => ?_, fun h => ?_, fun name h => ?_⟩
  · apply hlonger (":" ++ EntityKey.sectionName sec)
    · rw [String.length_append]
      exact Nat.ne_of_gt (Nat.add_pos_left (by decide) _)
    · rw [← String.append_assoc]
      exact h
  · apply hlonger ("^" ++ "_SUBKEYS_") (by decide)
    rw [← String.append_assoc]
    exact h
  · have hchar := congrArg (fun s => s.toList[4]?) h
    simp [clanKey, nameKey] at hchar

theorem hasClan_saveClan (h : hasClan st clan.mId = false) :
    hasClan (saveClan st clan) clan.mId = false := by
  obtain ⟨hsec, hlist, hname⟩ := clanKey_ne clan.mId
  apply KeyStore.hasKey_writeEntity (KeyStore.hasKey_setKey h (hname _) _)
  · intro v _
    exact hsec v.sec
  · exact hlist

theorem findClanID_saveClan (st : KeyStore) (clan : Clan) :
    findClanID (saveClan st clan) clan.mName = clan.mId := by
  have hstored : (saveClan st clan).strings (nameKey clan.mName) = some (printInt clan.mId) :=
    Function.update_self _ _ _
  rw [findClanID, KeyStore.getKey, hstored, Option.getD_some, parseInt_printInt]

theorem hasClan_removeClan (h : hasClan st clan.mId = false) :
    hasClan (removeClan st clan) clan.mId = false :=
  KeyStore.removeEntity_induction (P := fun st => st.hasKey (clanKey clan.mId) = false)
    (KeyStore.hasKey_removeKey h _) (fun _ key h => KeyStore.hasKey_removeKey h key) _

theorem findClanID_removeClan (st : KeyStore) (clan : Clan) :
    findClanID (removeClan st clan) clan.mName = -1 := by
  have hnone : (removeClan st clan).strings (nameKey clan.mName) = none :=
    KeyStore.removeEntity_induction (P := fun st => st.strings (nameKey clan.mName) = none)
      (Function.update_self _ _ _) (fun _ key h => KeyStore.strings_removeKey h key) _
  rw [findClanID, KeyStore.getKey, hnone]
  decide

/-! ### The round trip -/

/-- A saved clan is found and read back, and a clan that was removed then is not found. -/
structure RoundTrip (st : KeyStore) (clan : Clan) : Prop where
  stored : getClan (saveClan st clan) clan.mId = clan
  has : hasClan (saveClan st clan) clan.mId = true
  found : findClanID (saveClan st clan) clan.mName = clan.mId
  gone : hasClan (removeClan (saveClan st clan) clan) clan.mId = false
  unnamed : findClanID (removeClan (saveClan st clan) clan) clan.mName = -1

/-- No clan makes the round trip, as `HasClan` does not find it; its name does lead to its ID,
exactly a clan without members is read back, and a removed clan is not found by its name. -/
theorem not_roundTrip (st : KeyStore) (clan : Clan) (h : st.hasKey (clanKey clan.mId) = false) :
    ¬ RoundTrip st clan ∧ hasClan (saveClan st clan) clan.mId = false ∧
      (getClan (saveClan st clan) clan.mId = clan ↔ clan.mMembers = []) ∧
      findClanID (saveClan st clan) clan.mName = clan.mId ∧
      hasClan (removeClan (saveClan st clan) clan) clan.mId = false ∧
      findClanID (removeClan (saveClan st clan) clan) clan.mName = -1 := by
  have hhas : hasClan (saveClan st clan) clan.mId = false := hasClan_saveClan h
  refine ⟨fun hrt => ?_, hhas, ?_, findClanID_saveClan st clan, hasClan_removeClan hhas,
    findClanID_removeClan _ clan⟩
  · have htrue := hrt.has
    rw [hhas] at htrue
    cases htrue
  · rw [getClan_saveClan]
    constructor
    · intro heq
      rw [← heq]
    · intro hnone
      rw [← hnone]

/-- The theorem at a clan with a leader and an invited character. -/
theorem not_roundTrip_leader :
    ¬ RoundTrip {} { mId := 7, mName := ['a'], mMembers := [⟨5, 4⟩], mPendingMembers := [6] } :=
  (not_roundTrip {}
    { mId := 7, mName := ['a'], mMembers := [⟨5, 4⟩], mPendingMembers := [6] } (by decide)).1

/-- A clan with its leader is saved: it is not found, and its members are gone. -/
theorem saved_clan_lost :
    ¬ RoundTrip {} { mId := 7, mName := ['a'], mMembers := [⟨5, 4⟩] } ∧
      hasClan (saveClan {} { mId := 7, mName := ['a'], mMembers := [⟨5, 4⟩] }) 7 = false ∧
      (getClan (saveClan {} { mId := 7, mName := ['a'], mMembers := [⟨5, 4⟩] }) 7).mMembers =
        [] := by
  have hhas :
      hasClan (saveClan {} { mId := 7, mName := ['a'], mMembers := [⟨5, 4⟩] }) 7 = false := by
    decide
  refine ⟨fun hrt => ?_, hhas, by decide⟩
  have htrue := hrt.has
  rw [hhas] at htrue
  cases htrue

end Iceee.Clans
