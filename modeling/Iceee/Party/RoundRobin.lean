import Iceee.Lib.Cyclic
import Iceee.Loot.Party

/-!
# Taking turns at loot

With round robin looting, each piece of loot is offered to the next member in turn who is online.
-/

namespace Iceee

open Lib.Cyclic

namespace ActiveParty

variable {party : ActiveParty}

/-- The member at a place of the list is online. -/
def Online (party : ActiveParty) (k : Nat) : Prop :=
  ∃ m, party.mMemberList[k]? = some m ∧ m.isOnlineAndValid = true

theorem Online.lt {k : Nat} (h : party.Online k) : k < party.mMemberList.length := by
  obtain ⟨m, hm, -⟩ := h
  exact (List.getElem?_eq_some_iff.mp hm).1

/-- What the loop of `GetNextLooter` finds in a number of turns: the first member online, within
so many places of the cursor, or nobody online so near. -/
theorem nextLooter_cases (turns next : Nat) (hn : 0 < party.mMemberList.length) :
    (∃ m k, party.nextLooter turns next = (some m, k + 1) ∧ party.mMemberList[k]? = some m ∧
      FirstFrom party.Online party.mMemberList.length
        (wrap party.mMemberList.length next) k) ∨
    ((party.nextLooter turns next).1 = none ∧
      ∀ k, party.Online k →
        turns ≤ ahead party.mMemberList.length (wrap party.mMemberList.length next) k) := by
  induction turns generalizing next with
  | zero => exact .inr ⟨rfl, fun _ _ => Nat.zero_le _⟩
  | succ turns ih =>
      have hc := wrap_lt hn next
      obtain ⟨m, hm⟩ : ∃ m, party.mMemberList[wrap party.mMemberList.length next]? = some m :=
        ⟨_, List.getElem?_eq_getElem hc⟩
      have hstep : party.nextLooter (turns + 1) next =
          if m.isOnlineAndValid then (some m, wrap party.mMemberList.length next + 1)
          else party.nextLooter turns (wrap party.mMemberList.length next + 1) := by
        rw [wrap] at hm
        simp only [nextLooter, hm, wrap]
      rw [hstep]
      by_cases honline : m.isOnlineAndValid = true
      · rw [if_pos honline]
        refine .inl ⟨m, _, rfl, hm, hc, ⟨m, hm, honline⟩, fun j _ _ => ?_⟩
        rw [ahead_self]
        exact Nat.zero_le _
      · rw [if_neg honline]
        -- the member at the cursor is not online, everybody else is one place nearer now
        have hnearer : ∀ k, party.Online k →
            ahead party.mMemberList.length
              (wrap party.mMemberList.length (wrap party.mMemberList.length next + 1)) k + 1 =
            ahead party.mMemberList.length (wrap party.mMemberList.length next) k := by
          intro k hk
          refine ahead_wrap_succ hc hk.lt fun h => ?_
          obtain ⟨m', hm', honline'⟩ := hk
          rw [h, hm] at hm'
          cases hm'
          exact honline honline'
        rcases ih (wrap party.mMemberList.length next + 1) with
          ⟨m', k, heq, hk, hfirst⟩ | ⟨heq, hfar⟩
        · refine .inl ⟨m', k, heq, hk, hfirst.lt, hfirst.isMarked, fun j hj honlineJ => ?_⟩
          have hle := hfirst.first j hj honlineJ
          rw [← hnearer k hfirst.isMarked, ← hnearer j honlineJ]
          omega
        · refine .inr ⟨heq, fun k hk => ?_⟩
          have hle := hfar k hk
          rw [← hnearer k hk]
          omega

/-- The place of the member that `GetNextLooter` points to. -/
def looterIndex (party : ActiveParty) : Option Nat :=
  party.getNextLooter.1.map fun _ => party.getNextLooter.2.mNextToGetLoot - 1

/-- `GetNextLooter` goes to the first member online from the cursor on. -/
theorem getNextLooter_cases (party : ActiveParty) :
    (∃ m k, party.getNextLooter = (some m, { party with mNextToGetLoot := k + 1 }) ∧
      party.mMemberList[k]? = some m ∧
      FirstFrom party.Online party.mMemberList.length
        (wrap party.mMemberList.length party.mNextToGetLoot) k) ∨
    (party.getNextLooter.1 = none ∧ ∀ k, ¬party.Online k) := by
  rcases Nat.eq_zero_or_pos party.mMemberList.length with hn | hn
  · refine .inr ⟨?_, fun k hk => ?_⟩
    · unfold getNextLooter
      rw [hn]
      rfl
    · have hlt := hk.lt
      omega
  · rcases @nextLooter_cases party party.mMemberList.length party.mNextToGetLoot hn with
      ⟨m, k, heq, hk, hfirst⟩ | ⟨heq, hfar⟩
    · refine .inl ⟨m, k, ?_, hk, hfirst⟩
      unfold getNextLooter
      rw [heq]
    · refine .inr ⟨heq, fun k hk => ?_⟩
      have hle := hfar k hk
      have hlt := ahead_lt (wrap_lt hn party.mNextToGetLoot) hk.lt
      omega

/-- Calls of `GetNextLooter` one after the other, with the same members online all the time. -/
structure Calls (online : List Bool) (run : Nat → ActiveParty) : Prop where
  members : ∀ k, (run k).mMemberList.map PartyMember.isOnlineAndValid = online
  next : ∀ k, (run (k + 1)).mNextToGetLoot = (run k).getNextLooter.2.mNextToGetLoot

theorem online_iff {online : List Bool}
    (h : party.mMemberList.map PartyMember.isOnlineAndValid = online) (k : Nat) :
    party.Online k ↔ online[k]? = some true := by
  rw [← h, List.getElem?_map, Option.map_eq_some_iff]
  rfl

theorem looterIndex_eq {m : PartyMember} {k : Nat}
    (h : party.getNextLooter = (some m, { party with mNextToGetLoot := k + 1 })) :
    party.looterIndex = some k := by
  unfold looterIndex
  rw [h]
  rfl

/-- Once somebody is online, the looters of a run of calls are the stops of the cursor. -/
theorem Calls.turns {online : List Bool} {run : Nat → ActiveParty} (h : Calls online run)
    {b : Nat} (hb : online[b]? = some true) :
    ∃ s : Nat → Nat, (∀ k, (run k).looterIndex = some (s k)) ∧ (∀ k, s k < online.length) ∧
      Turns (fun k => online[k]? = some true) online.length s := by
  have hlength : ∀ k, (run k).mMemberList.length = online.length := by
    intro k
    rw [← h.members k, List.length_map]
  have hcall : ∀ k, ∃ i, (run k).looterIndex = some i ∧
      (run (k + 1)).mNextToGetLoot = i + 1 ∧
      FirstFrom (fun k => online[k]? = some true) online.length
        (wrap online.length (run k).mNextToGetLoot) i := by
    intro k
    rcases getNextLooter_cases (run k) with ⟨m, i, heq, -, hfirst⟩ | ⟨-, hnone⟩
    · refine ⟨i, looterIndex_eq heq, ?_, ?_⟩
      · rw [h.next k, heq]
      · rw [hlength k] at hfirst
        refine ⟨hfirst.lt, (online_iff (h.members k) i).mp hfirst.isMarked, fun j hj hmark => ?_⟩
        exact hfirst.first j hj ((online_iff (h.members k) j).mpr hmark)
    · exact absurd ((online_iff (h.members k) b).mpr hb) (hnone b)
  choose s hs hnext hfirst using hcall
  refine ⟨s, hs, fun k => (hfirst k).lt, fun k => ?_⟩
  have hk := hfirst (k + 1)
  rwa [hnext k] at hk

/-- `GetNextLooter` finds nobody exactly when nobody is online, and a member who is online
otherwise. While the members and who of them is online stay the same, between two turns of one
member in a row every other member who is online gets one turn. -/
theorem getNextLooter_roundRobin (party : ActiveParty) :
    (party.getNextLooter.1 = none ↔ ∀ m ∈ party.mMemberList, m.isOnlineAndValid = false) ∧
    (∀ m, party.getNextLooter.1 = some m →
      m.isOnlineAndValid = true ∧ ∃ k, party.looterIndex = some k ∧
        party.mMemberList[k]? = some m) ∧
    (∀ (online : List Bool) (run : Nat → ActiveParty), run 0 = party → Calls online run →
      ∀ i j a, i < j → (run i).looterIndex = some a → (run j).looterIndex = some a →
        (∀ k, i < k → k < j → (run k).looterIndex ≠ some a) →
        ∀ b, online[b]? = some true → b ≠ a →
          ∃! k, i < k ∧ k < j ∧ (run k).looterIndex = some b) := by
  refine ⟨?_, ?_, ?_⟩
  · rcases getNextLooter_cases party with ⟨m, k, heq, hk, hfirst⟩ | ⟨heq, hnone⟩
    · obtain ⟨m', hm', honline⟩ := hfirst.isMarked
      refine iff_of_false (by rw [heq]; exact Option.some_ne_none m) fun hall => ?_
      have hoff := hall m' (List.mem_of_getElem? hm')
      rw [honline] at hoff
      exact Bool.noConfusion hoff
    · refine iff_of_true heq fun m hm => ?_
      obtain ⟨k, hk⟩ := List.getElem?_of_mem hm
      exact Bool.eq_false_iff.mpr fun honline => hnone k ⟨m, hk, honline⟩
  · intro m hm
    rcases getNextLooter_cases party with ⟨m', k, heq, hk, hfirst⟩ | ⟨heq, -⟩
    · rw [heq] at hm
      cases hm
      obtain ⟨m', hm', honline⟩ := hfirst.isMarked
      rw [hk] at hm'
      cases hm'
      exact ⟨honline, k, looterIndex_eq heq, hk⟩
    · rw [heq] at hm
      cases hm
  · intro online run _ hcalls i j a hij hi hj hbetween b hb hne
    obtain ⟨s, hs, hlt, hturns⟩ := hcalls.turns hb
    simp only [hs, Option.some.injEq, ne_eq] at hi hj hbetween ⊢
    subst hi
    exact hturns.fair (hlt i) hj (fun k hik hkj => hbetween k hik hkj) hij
      (List.getElem?_eq_some_iff.mp hb).1 hb hne

/-- Two members are online and the one between them is not; the cursor starts past the end. -/
def threeMembers (next : Nat) : ActiveParty where
  mMemberList := [
    { mCreatureDefID := 1, mCreatureID := 11 },
    { mCreatureDefID := 2, mCreatureID := 12, mSocket := false },
    { mCreatureDefID := 3, mCreatureID := 13 }]
  mNextToGetLoot := next

/-- The cursors of the party of three over a run of calls. -/
def threeCursors (k : Nat) : ActiveParty :=
  threeMembers (if k = 0 then 7 else if k % 2 = 1 then 1 else 3)

theorem threeCursors_calls : Calls [true, false, true] threeCursors where
  members k := rfl
  next k := by
    unfold threeCursors
    rcases Nat.even_or_odd' k with ⟨l, rfl | rfl⟩
    · rcases Nat.eq_zero_or_pos l with rfl | hl
      · rfl
      · rw [if_neg (by omega), if_pos (by omega), if_neg (by omega), if_neg (by omega)]
        rfl
    · rw [if_neg (by omega), if_neg (by omega), if_neg (by omega), if_pos (by omega)]
      rfl

/-- Between the first two turns of the first of three members, the third one has one. -/
theorem getNextLooter_roundRobin_three :
    ∃! k, 0 < k ∧ k < 2 ∧ (threeCursors k).looterIndex = some 2 :=
  (getNextLooter_roundRobin (threeMembers 7)).2.2 [true, false, true] threeCursors rfl
    threeCursors_calls 0 2 0 (by decide) rfl rfl
    (fun k h0 h2 => by
      obtain rfl : k = 1 := by omega
      decide) 2 rfl (by decide)

end ActiveParty

end Iceee
