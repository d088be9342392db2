import Iceee.Cluster.Shards

/-!
# The player counts of the shards

Each shard has a counter, and each player of the cluster is recorded with a shard. An event
changes one counter and one record; the two stay in step when the shard whose counter is
changed is the one the player is recorded on.
-/

namespace Iceee.Cluster

open Lib Std

namespace ClusterManager

variable {m m' : ClusterManager}

/-- The number of players recorded on a shard. -/
def playersOn (m : ClusterManager) (shardName : String) : Nat :=
  countValues (·.mShard = shardName) m.mActivePlayers

/-- The counter of every active shard is the number of players recorded on it. -/
def CountsRight (m : ClusterManager) : Prop :=
  ∀ (s : String) (sh : Shard), m.mActiveShards[s]? = some sh → sh.mPlayers = (m.playersOn s : Int)

/-- What the handlers rely on: a player is recorded under his ID, and the shard knows itself. -/
structure Kept (m : ClusterManager) : Prop where
  ids : ∀ (c : Int) (sp : ShardPlayer), m.mActivePlayers[c]? = some sp → sp.mID = c
  own : m.mShardName ∈ m.mActiveShards

/-! ### One counter and one record -/

/-- What replacing a record by another adds to the players of a shard. -/
def moved (old new : Option ShardPlayer) (shardName : String) : Int :=
  tick (·.mShard = shardName) new - tick (·.mShard = shardName) old

theorem playersOn_insert {c : Int} {sp : ShardPlayer}
    (h : m'.mActivePlayers = m.mActivePlayers.insert c sp) (s : String) :
    (m'.playersOn s : Int) = m.playersOn s + moved m.mActivePlayers[c]? (some sp) s := by
  have hins := countValues_insert (·.mShard = s) m.mActivePlayers c sp
  unfold playersOn moved
  rw [h]
  omega

theorem playersOn_erase {c : Int} (h : m'.mActivePlayers = m.mActivePlayers.erase c)
    (s : String) :
    (m'.playersOn s : Int) = m.playersOn s + moved m.mActivePlayers[c]? none s := by
  have her := countValues_erase (·.mShard = s) m.mActivePlayers c
  unfold playersOn moved
  rw [h, tick_none]
  omega

theorem playersOn_pos {c : Int} {sp : ShardPlayer} (h : m.mActivePlayers[c]? = some sp) :
    0 < m.playersOn sp.mShard :=
  countValues_pos _ _ h (decide_eq_true rfl)

/-- When only records change. -/
theorem countsRight_iff_of_moved (hm : m.CountsRight) {d : String → Int}
    (hs : m'.mActiveShards = m.mActiveShards)
    (hp : ∀ s, (m'.playersOn s : Int) = m.playersOn s + d s) :
    m'.CountsRight ↔ ∀ s ∈ m.mActiveShards, d s = 0 := by
  unfold CountsRight
  rw [hs]
  constructor
  · intro h s hmem
    obtain ⟨sh, hsh⟩ := mem_iff_exists_getElem?.mp hmem
    have h1 := h s sh hsh
    have h2 := hm s sh hsh
    have h3 := hp s
    omega
  · intro h s sh hsh
    have h1 := h s (mem_iff_exists_getElem?.mpr ⟨sh, hsh⟩)
    have h2 := hm s sh hsh
    have h3 := hp s
    omega

theorem getElem?_adjustPlayers (s s' : String) (d : Int) :
    (m.adjustPlayers s d).mActiveShards[s']? =
      if s' = s then some { m.mActiveShards.getD s {} with
        mPlayers := (m.mActiveShards.getD s {}).mPlayers + d }
      else m.mActiveShards[s']? :=
  getElem?_insert_ite ..

/-- When a counter and records change. -/
theorem countsRight_iff_of_adjusted (hm : m.CountsRight) {a : String} {n : Int}
    {d : String → Int} (hs : m'.mActiveShards = (m.adjustPlayers a n).mActiveShards)
    (hp : ∀ s, (m'.playersOn s : Int) = m.playersOn s + d s) :
    m'.CountsRight ↔
      (if a ∈ m.mActiveShards then d a = n else m.playersOn a + d a = n) ∧
        ∀ s ∈ m.mActiveShards, s ≠ a → d s = 0 := by
  have hself : (∀ sh, m'.mActiveShards[a]? = some sh → sh.mPlayers = m'.playersOn a) ↔
      if a ∈ m.mActiveShards then d a = n else m.playersOn a + d a = n := by
    have ha := hp a
    rw [hs, getElem?_adjustPlayers, if_pos rfl, TreeMap.getD_eq_getD_getElem?]
    simp only [Option.some.injEq, forall_eq']
    split
    · next hmem =>
        obtain ⟨sh, hsh⟩ := mem_iff_exists_getElem?.mp hmem
        have h := hm a sh hsh
        rw [hsh, Option.getD_some]
        omega
    · next hmem =>
        rw [not_mem_iff_getElem?.mp hmem, Option.getD_none]
        change (0 : Int) + n = _ ↔ _
        omega
  have hother (s : String) (hne : s ≠ a) :
      (∀ sh, m'.mActiveShards[s]? = some sh → sh.mPlayers = m'.playersOn s) ↔
        (s ∈ m.mActiveShards → d s = 0) := by
    have h1 := hp s
    rw [hs, getElem?_adjustPlayers, if_neg hne, mem_iff_exists_getElem?]
    constructor
    · rintro h ⟨sh, hsh⟩
      have h2 := h sh hsh
      have h3 := hm s sh hsh
      omega
    · intro h sh hsh
      have h2 := h ⟨sh, hsh⟩
      have h3 := hm s sh hsh
      omega
  constructor
  · intro h
    exact ⟨hself.mp (h a), fun s hmem hne => (hother s hne).mp (h s) hmem⟩
  · rintro ⟨h1, h2⟩ s
    by_cases hne : s = a
    · exact hne ▸ hself.mpr h1
    · exact (hother s hne).mpr fun hmem => h2 s hmem hne

/-! ### Players -/

theorem moved_none_some (sp : ShardPlayer) (s : String) :
    moved none (some sp) s = if sp.mShard = s then 1 else 0 := by
  simp [moved]

theorem moved_some_none (sp : ShardPlayer) (s : String) :
    moved (some sp) none s = if sp.mShard = s then -1 else 0 := by
  simp [moved]
  split <;> rfl

theorem moved_some_some (old new : ShardPlayer) (s : String) :
    moved (some old) (some new) s =
      (if new.mShard = s then 1 else 0) - (if old.mShard = s then 1 else 0) := by
  simp [moved]

/-- An erased player leaves the shard whose counter goes down. -/
theorem countsRight_leave_iff (hm : m.CountsRight) {c : Int} {old : ShardPlayer}
    (hc : m.mActivePlayers[c]? = some old) {s : String}
    (hs : m'.mActiveShards = (m.adjustPlayers s (-1)).mActiveShards)
    (hp : m'.mActivePlayers = m.mActivePlayers.erase c) :
    m'.CountsRight ↔ old.mShard = s ∧ s ∈ m.mActiveShards := by
  have hpl := playersOn_erase hp
  rw [hc] at hpl
  rw [countsRight_iff_of_adjusted hm hs hpl]
  have hpos := playersOn_pos hc
  simp only [moved_some_none]
  constructor
  · rintro ⟨hself, -⟩
    by_cases hmem : s ∈ m.mActiveShards
    · rw [if_pos hmem] at hself
      by_cases ho : old.mShard = s
      · exact ⟨ho, hmem⟩
      · rw [if_neg ho] at hself
        omega
    · rw [if_neg hmem] at hself
      by_cases ho : old.mShard = s
      · rw [if_pos ho, ← ho] at hself
        omega
      · rw [if_neg ho] at hself
        omega
  · rintro ⟨rfl, hmem⟩
    refine ⟨by simp [hmem], fun x _ hne => if_neg fun h => hne h.symm⟩

/-- A new player, and a counter that goes up. -/
theorem countsRight_arrive_iff (hm : m.CountsRight) {c : Int} (hc : m.mActivePlayers[c]? = none)
    {p : ShardPlayer} (hs : m'.mActiveShards = (m.adjustPlayers p.mShard 1).mActiveShards)
    (hp : m'.mActivePlayers = m.mActivePlayers.insert c p) :
    m'.CountsRight ↔ p.mShard ∈ m.mActiveShards ∨ m.playersOn p.mShard = 0 := by
  have hpl := playersOn_insert hp
  rw [hc] at hpl
  rw [countsRight_iff_of_adjusted hm hs hpl]
  simp only [moved_none_some, if_true]
  constructor
  · rintro ⟨hself, -⟩
    by_cases hmem : p.mShard ∈ m.mActiveShards
    · exact .inl hmem
    · rw [if_neg hmem] at hself
      exact .inr (by omega)
  · intro h
    refine ⟨?_, fun x _ hne => if_neg fun h => hne h.symm⟩
    split
    · trivial
    · next hmem =>
        have h0 := h.resolve_left hmem
        omega

/-- A player recorded anew, and no counter changed. -/
theorem countsRight_stay_iff (hm : m.CountsRight) {c : Int} {old p : ShardPlayer}
    (hc : m.mActivePlayers[c]? = some old) (hs : m'.mActiveShards = m.mActiveShards)
    (hp : m'.mActivePlayers = m.mActivePlayers.insert c p) :
    m'.CountsRight ↔ old.mShard = p.mShard ∨
      p.mShard ∉ m.mActiveShards ∧ old.mShard ∉ m.mActiveShards := by
  have hpl := playersOn_insert hp
  rw [hc] at hpl
  rw [countsRight_iff_of_moved hm hs hpl]
  simp only [moved_some_some]
  constructor
  · intro h
    by_cases ho : old.mShard = p.mShard
    · exact .inl ho
    · refine .inr ⟨fun hmem => ?_, fun hmem => ?_⟩
      · have := h _ hmem
        rw [if_pos rfl, if_neg ho] at this
        omega
      · have := h _ hmem
        rw [if_pos rfl, if_neg fun h => ho h.symm] at this
        omega
  · rintro (ho | ⟨h1, h2⟩) s hmem
    · rw [ho]
      omega
    · have hnew : p.mShard ≠ s := fun h => h1 (h ▸ hmem)
      have hold : old.mShard ≠ s := fun h => h2 (h ▸ hmem)
      rw [if_neg hnew, if_neg hold]
      rfl

/-- A player recorded anew, and the counter of the new shard goes up. -/
theorem countsRight_rejoin_iff (hm : m.CountsRight) {c : Int} {old p : ShardPlayer}
    (hc : m.mActivePlayers[c]? = some old) (hact : p.mShard ∈ m.mActiveShards)
    (hs : m'.mActiveShards = (m.adjustPlayers p.mShard 1).mActiveShards)
    (hp : m'.mActivePlayers = m.mActivePlayers.insert c p) :
    m'.CountsRight ↔ old.mShard ∉ m.mActiveShards := by
  have hpl := playersOn_insert hp
  rw [hc] at hpl
  rw [countsRight_iff_of_adjusted hm hs hpl, if_pos hact]
  simp only [moved_some_some, if_true]
  constructor
  · rintro ⟨hself, hother⟩ hmem
    by_cases ho : old.mShard = p.mShard
    · rw [if_pos ho] at hself
      omega
    · have := hother _ hmem ho
      rw [if_pos rfl, if_neg fun h => ho h.symm] at this
      omega
  · intro hmem
    have hne (s) (hs : s ∈ m.mActiveShards) : old.mShard ≠ s := fun h => hmem (h ▸ hs)
    refine ⟨by rw [if_neg (hne _ hact)]; rfl, fun s hs hsne => ?_⟩
    rw [if_neg (hne s hs), if_neg fun h => hsne h.symm]
    rfl

/-- A player recorded anew, and the counter of the old shard goes down. -/
theorem countsRight_change_iff (hm : m.CountsRight) {c : Int} {old p : ShardPlayer}
    (hc : m.mActivePlayers[c]? = some old) (hne : old.mShard ≠ p.mShard)
    (hs : m'.mActiveShards = (m.adjustPlayers old.mShard (-1)).mActiveShards)
    (hp : m'.mActivePlayers = m.mActivePlayers.insert c p) :
    m'.CountsRight ↔ old.mShard ∈ m.mActiveShards ∧ p.mShard ∉ m.mActiveShards := by
  have hpl := playersOn_insert hp
  have hpos := playersOn_pos hc
  rw [hc] at hpl
  rw [countsRight_iff_of_adjusted hm hs hpl]
  simp only [moved_some_some, if_true, if_neg hne.symm]
  constructor
  · rintro ⟨hself, hother⟩
    constructor
    · by_contra hmem
      rw [if_neg hmem] at hself
      omega
    · intro hmem
      have := hother _ hmem hne.symm
      rw [if_pos rfl, if_neg hne] at this
      omega
  · rintro ⟨hold, hnew⟩
    refine ⟨by rw [if_pos hold]; rfl, fun s hs hsne => ?_⟩
    have hns : p.mShard ≠ s := fun h => hnew (h ▸ hs)
    rw [if_neg hns, if_neg fun h => hsne h.symm]
    rfl

theorem countsRight_joinedShard_iff (hm : m.CountsRight) (hk : m.Kept) (simID : Nat)
    (zoneID c : Int) :
    (m.joinedShard simID zoneID c).CountsRight ↔
      ∀ sp ∈ m.mActivePlayers[c]?,
        if sp.mID = 0 then sp.mShard ∉ m.mActiveShards else sp.mShard = m.mShardName := by
  cases hc : m.mActivePlayers[c]? with
  | none =>
      have hnew : (m.mActivePlayers.getD c {}).mID = 0 := by
        rw [TreeMap.getD_eq_getD_getElem?, hc]
        rfl
      have harr : (m.joinedShard simID zoneID c).CountsRight ↔ _ :=
        countsRight_arrive_iff hm hc
          (p := { mID := c, mShard := m.mShardName, mZoneID := zoneID, mSimID := simID })
          (by rw [joinedShard, hnew, if_pos rfl]) (by rw [joinedShard, hnew, if_pos rfl]; rfl)
      rw [harr]
      simp [hk.own]
  | some old =>
      have hold : m.mActivePlayers.getD c {} = old := by
        rw [TreeMap.getD_eq_getD_getElem?, hc]
        rfl
      simp only [Option.mem_some_iff, forall_eq']
      by_cases h0 : old.mID = 0
      · rw [if_pos h0]
        exact countsRight_rejoin_iff hm hc
          (p := { mID := c, mShard := m.mShardName, mZoneID := zoneID, mSimID := simID }) hk.own
          (by rw [joinedShard, hold, if_pos h0]) (by rw [joinedShard, hold, if_pos h0]; rfl)
      · rw [if_neg h0]
        have hst : (m.joinedShard simID zoneID c).CountsRight ↔ _ :=
          countsRight_stay_iff hm hc
            (p := { mID := c, mShard := m.mShardName, mZoneID := zoneID, mSimID := simID })
            (by rw [joinedShard, hold, if_neg h0]) (by rw [joinedShard, hold, if_neg h0])
        rw [hst]
        simp [hk.own]

theorem countsRight_leftShard_iff (hm : m.CountsRight) (hk : m.Kept) (c : Int) :
    (m.leftShard c).CountsRight ↔ ∀ sp ∈ m.mActivePlayers[c]?, sp.mShard = m.mShardName := by
  cases hc : m.mActivePlayers[c]? with
  | none =>
      rw [leftShard, if_neg (not_mem_iff_getElem?.mpr hc)]
      simp [hm]
  | some old =>
      have hmem : c ∈ m.mActivePlayers := mem_iff_exists_getElem?.mpr ⟨old, hc⟩
      have hleave : (m.leftShard c).CountsRight ↔ _ :=
        countsRight_leave_iff hm hc (by rw [leftShard, if_pos hmem])
          (by rw [leftShard, if_pos hmem]; rfl)
      rw [hleave]
      simp [hk.own]

theorem countsRight_leftOtherShard_iff (hm : m.CountsRight) (s : String) (c : Int) :
    (m.leftOtherShard s c).CountsRight ↔
      ¬ m.isPending c → ∀ sp ∈ m.mActivePlayers[c]?, sp.mShard = s ∧ s ∈ m.mActiveShards := by
  by_cases hpend : m.isPending c
  · rw [leftOtherShard, if_pos hpend]
    simp [hm, hpend]
  · cases hc : m.mActivePlayers[c]? with
    | none =>
        rw [leftOtherShard, if_neg hpend, if_neg (not_mem_iff_getElem?.mpr hc)]
        simp [hm]
    | some old =>
        have hmem : c ∈ m.mActivePlayers := mem_iff_exists_getElem?.mpr ⟨old, hc⟩
        have hleave : (m.leftOtherShard s c).CountsRight ↔ _ :=
          countsRight_leave_iff hm hc (by rw [leftOtherShard, if_neg hpend, if_pos hmem])
            (by rw [leftOtherShard, if_neg hpend, if_pos hmem]; rfl)
        rw [hleave]
        simp [hpend]

theorem countsRight_joinedOtherShard_iff (hm : m.CountsRight) (s : String) (c zoneID : Int)
    (simID : Nat) :
    (m.joinedOtherShard s c zoneID simID).CountsRight ↔
      match m.mActivePlayers[c]? with
      | none => s ∈ m.mActiveShards ∨ m.playersOn s = 0
      | some old => old.mShard = s ∨ old.mShard ∈ m.mActiveShards ∧ s ∉ m.mActiveShards := by
  cases hc : m.mActivePlayers[c]? with
  | none =>
      exact countsRight_arrive_iff hm hc
        (p := { mShard := s, mZoneID := zoneID, mSimID := simID, mID := c })
        (by rw [joinedOtherShard, hc]) (by rw [joinedOtherShard, hc]; rfl)
  | some old =>
      by_cases ho : old.mShard = s
      · have hst : (m.joinedOtherShard s c zoneID simID).CountsRight ↔ _ :=
          countsRight_stay_iff hm hc
            (p := { mShard := s, mZoneID := zoneID, mSimID := simID, mID := c })
            (by rw [joinedOtherShard, hc]; simp only [if_pos ho])
            (by rw [joinedOtherShard, hc]; simp only [if_pos ho])
        rw [hst]
        simp [ho]
      · have hch : (m.joinedOtherShard s c zoneID simID).CountsRight ↔ _ :=
          countsRight_change_iff hm hc
            (p := { mShard := s, mZoneID := zoneID, mSimID := simID, mID := c }) ho
            (by rw [joinedOtherShard, hc]; simp only [if_neg ho])
            (by rw [joinedOtherShard, hc]; simp only [if_neg ho]; rfl)
        rw [hch]
        simp [ho]

theorem countsRight_findToken_iff (hm : m.CountsRight) (token : String) :
    (m.findToken token).CountsRight ↔
      ∀ p ∈ m.mPending.find? (·.mToken = token), ∀ sp ∈ m.mActivePlayers[p.mID]?,
        sp.mShard = p.mShardName ∧ p.mShardName ∈ m.mActiveShards := by
  cases hp : m.mPending.find? (·.mToken = token) with
  | none => simp [findToken, hp, hm]
  | some p =>
      simp only [Option.mem_some_iff, forall_eq']
      cases hc : m.mActivePlayers[p.mID]? with
      | none =>
          have hsame : (m.findToken token).CountsRight ↔ m.CountsRight := by
            simp only [findToken, hp, if_neg (not_mem_iff_getElem?.mpr hc)]
            rfl
          simp [hsame, hm]
      | some old =>
          have hmem : p.mID ∈ m.mActivePlayers := mem_iff_exists_getElem?.mpr ⟨old, hc⟩
          have hleave : (m.findToken token).CountsRight ↔ _ :=
            countsRight_leave_iff hm hc
              (by simp only [findToken, hp, if_pos hmem]; rfl)
              (by simp only [findToken, hp, if_pos hmem]; rfl)
          rw [hleave]
          simp

/-! ### Shards that go and come -/

@[simp] theorem findMasterShard_mActiveShards (now : Nat) :
    (m.findMasterShard now).mActiveShards = m.mActiveShards := by
  rw [findMasterShard]
  split <;> rfl

@[simp] theorem findMasterShard_mActivePlayers (now : Nat) :
    (m.findMasterShard now).mActivePlayers = m.mActivePlayers := by
  rw [findMasterShard]
  split <;> rfl

@[simp] theorem findMasterShard_mShardName (now : Nat) :
    (m.findMasterShard now).mShardName = m.mShardName := by
  rw [findMasterShard]
  split <;> rfl

theorem isShardActive_iff {s : String} : m.isShardActive s = true ↔ s ∈ m.mActiveShards := .rfl

theorem mem_playersOf (hk : m.Kept) {s : String} {c : Int} :
    c ∈ m.playersOf s ↔ ∃ sp, m.mActivePlayers[c]? = some sp ∧ sp.mShard = s := by
  simp only [playersOf, List.mem_map, List.mem_filter, Prod.exists,
    TreeMap.mem_toList_iff_getElem?_eq_some, decide_eq_true_eq]
  constructor
  · rintro ⟨k, sp, ⟨hsp, hs⟩, rfl⟩
    rw [hk.ids k sp hsp]
    exact ⟨sp, hsp, hs⟩
  · rintro ⟨sp, hsp, hs⟩
    exact ⟨c, sp, ⟨hsp, hs⟩, hk.ids c sp hsp⟩

/-- What the loop of `ShardRemoved` changes: the counter of the shard, and the records of
the listed players, except those that are about to come. -/
structure Swept (s : String) (l : List Int) (m m' : ClusterManager) : Prop where
  shards : ∀ s', s' ≠ s → m'.mActiveShards[s']? = m.mActiveShards[s']?
  players : ∀ (c : Int) (sp : ShardPlayer), m'.mActivePlayers[c]? = some sp ↔
    m.mActivePlayers[c]? = some sp ∧ (c ∈ l → m.isPending c)
  pending : m'.mPending = m.mPending
  name : m'.mShardName = m.mShardName
  master : m'.mMasterShard = m.mMasterShard
  flag : m'.mMaster = m.mMaster
  timers : m'.auctionTimers = m.auctionTimers

theorem swept_leftOtherShard (s : String) (c : Int) : Swept s [c] m (m.leftOtherShard s c) := by
  unfold leftOtherShard
  split
  · next hp =>
      refine ⟨fun _ _ => rfl, fun c' sp => ?_, rfl, rfl, rfl, rfl, rfl⟩
      refine (and_iff_left fun hc => ?_).symm
      rwa [List.mem_singleton.mp hc]
  · next hp =>
      split
      · refine ⟨fun s' hs => ?_, fun c' sp => ?_, rfl, rfl, rfl, rfl, rfl⟩
        · exact (getElem?_adjustPlayers ..).trans (if_neg hs)
        · simp only [getElem?_erase_ite, List.mem_singleton]
          by_cases hc : c' = c
          · simp [hc, hp]
          · simp [hc, adjustPlayers]
      · next hmem =>
          refine ⟨fun _ _ => rfl, fun c' sp => ?_, rfl, rfl, rfl, rfl, rfl⟩
          refine (and_iff_left_of_imp fun h hc => ?_).symm
          rw [List.mem_singleton.mp hc, not_mem_iff_getElem?.mp hmem] at h
          cases h

theorem swept_foldl (s : String) (l : List Int) :
    Swept s l m (l.foldl (fun m c => m.leftOtherShard s c) m) := by
  induction l generalizing m with
  | nil => exact ⟨fun _ _ => rfl, fun c sp => by simp, rfl, rfl, rfl, rfl, rfl⟩
  | cons c rest ih =>
      have h1 := swept_leftOtherShard (m := m) s c
      have h2 := ih (m := m.leftOtherShard s c)
      refine ⟨fun s' hs => (h2.shards s' hs).trans (h1.shards s' hs), fun c' sp => ?_,
        h2.pending.trans h1.pending, h2.name.trans h1.name, h2.master.trans h1.master,
        h2.flag.trans h1.flag, h2.timers.trans h1.timers⟩
      have hpend : (m.leftOtherShard s c).isPending c' = m.isPending c' := by
        rw [isPending, h1.pending]
        rfl
      rw [List.foldl_cons, h2.players, h1.players, hpend, List.mem_singleton, List.mem_cons,
        or_imp, and_assoc]

/-- What a removed shard leaves behind. -/
theorem shardRemoved_spec (hk : m.Kept) {s : String} (hs : s ∈ m.mActiveShards) (now : Nat) :
    (∀ s', (m.shardRemoved s now).mActiveShards[s']? =
        if s' = s then none else m.mActiveShards[s']?) ∧
      (∀ (c : Int) sp, (m.shardRemoved s now).mActivePlayers[c]? = some sp ↔
        m.mActivePlayers[c]? = some sp ∧ (sp.mShard = s → m.isPending c)) ∧
      (m.shardRemoved s now).mShardName = m.mShardName := by
  have hsw := swept_foldl (m := m) s (m.playersOf s)
  rw [shardRemoved, if_pos (isShardActive_iff.mpr hs)]
  refine ⟨fun s' => ?_, fun c sp => ?_, ?_⟩
  · rw [findMasterShard_mActiveShards, getElem?_erase_ite]
    split
    · rfl
    · next hne => exact hsw.shards s' hne
  · rw [findMasterShard_mActivePlayers]
    refine (hsw.players c sp).trans (and_congr_right fun h => ?_)
    rw [mem_playersOf hk]
    constructor
    · intro hp hsp
      exact hp ⟨sp, h, hsp⟩
    · rintro hp ⟨sp', h', hsp'⟩
      rw [h] at h'
      exact hp (Option.some.inj h' ▸ hsp')
  · rw [findMasterShard_mShardName]
    exact hsw.name

theorem playersOn_shardRemoved (hk : m.Kept) {s s' : String} (hs : s ∈ m.mActiveShards)
    (hne : s' ≠ s) (now : Nat) : (m.shardRemoved s now).playersOn s' = m.playersOn s' := by
  apply countValues_congr
  intro c sp hsp
  rw [(shardRemoved_spec hk hs now).2.1]
  constructor
  · exact And.left
  · intro h
    exact ⟨h, fun h' => absurd ((of_decide_eq_true hsp).symm.trans h') hne⟩

theorem CountsRight.shardRemoved (hm : m.CountsRight) (hk : m.Kept) (s : String) (now : Nat) :
    (m.shardRemoved s now).CountsRight := by
  by_cases hs : s ∈ m.mActiveShards
  · intro s' sh hsh
    rw [(shardRemoved_spec hk hs now).1] at hsh
    split at hsh
    · cases hsh
    · next hne =>
        rw [playersOn_shardRemoved hk hs hne]
        exact hm s' sh hsh
  · rw [ClusterManager.shardRemoved, if_neg (isShardActive_iff.not.mpr hs)]
    exact hm

/-- A shard that starts has a counter of zero. -/
theorem countsRight_started_iff (hm : m.CountsRight) {s : String}
    {t : Shard} (h0 : t.mPlayers = 0)
    (h : m'.mActiveShards = m.mActiveShards.insert s t)
    (hp : m'.mActivePlayers = m.mActivePlayers) :
    m'.CountsRight ↔ m.playersOn s = 0 := by
  have hpl (x) : m'.playersOn x = m.playersOn x := by rw [playersOn, hp, playersOn]
  constructor
  · intro hr
    have h1 := hr s t (by rw [h, getElem?_insert_ite, if_pos rfl])
    rw [hpl] at h1
    omega
  · intro hz x sx hx
    rw [h, getElem?_insert_ite] at hx
    rw [hpl]
    by_cases hxs : x = s
    · rw [if_pos hxs] at hx
      rw [← Option.some.inj hx, hxs, h0, hz]
      rfl
    · rw [if_neg hxs] at hx
      exact hm x sx hx

theorem countsRight_newShard_iff (hm : m.CountsRight) (hk : m.Kept) (s : String) (now : Nat) :
    (m.newShard s now).CountsRight ↔ ∀ e ∈ m.mActivePlayers.toList, e.2.mShard = s →
      s ∈ m.mActiveShards ∧ m.isPending e.1 = false := by
  have hzero (m' : ClusterManager) : m'.playersOn s = 0 ↔
      ∀ (c : Int) sp, m'.mActivePlayers[c]? = some sp → sp.mShard ≠ s := by
    simp only [playersOn, countValues_eq_zero, decide_eq_false_iff_not, ne_eq]
  by_cases hs : s ∈ m.mActiveShards
  · have hst : (m.newShard s now).CountsRight ↔ _ :=
      countsRight_started_iff (hm.shardRemoved hk s now) (t := { mName := s, mLastSeen := now }) rfl
        (by rw [newShard, if_pos (isShardActive_iff.mpr hs)])
        (by rw [newShard, if_pos (isShardActive_iff.mpr hs)])
    rw [hst, hzero]
    simp only [(shardRemoved_spec hk hs now).2.1, Prod.forall,
      TreeMap.mem_toList_iff_getElem?_eq_some, hs, true_and, Bool.eq_false_iff]
    constructor
    · intro h c sp hsp hsps hp
      exact h c sp ⟨hsp, fun _ => hp⟩ hsps
    · rintro h c sp ⟨hsp, hp⟩ hsps
      exact h c sp hsp hsps (hp hsps)
  · have hst : (m.newShard s now).CountsRight ↔ _ :=
      countsRight_started_iff hm (t := { mName := s, mLastSeen := now }) rfl
        (by rw [newShard, if_neg (isShardActive_iff.not.mpr hs)])
        (by rw [newShard, if_neg (isShardActive_iff.not.mpr hs)])
    rw [hst, hzero]
    simp only [Prod.forall, TreeMap.mem_toList_iff_getElem?_eq_some, hs, false_and, imp_false]

/-! ### Runs -/

/-- When an event keeps the counters in step: the shard whose counter it changes is active
and is the one that the player is recorded on. -/
def Accounted (m : ClusterManager) : Event → Prop
  | .joinedShard _ _ cdefID => ∀ sp ∈ m.mActivePlayers[cdefID]?,
      if sp.mID = 0 then sp.mShard ∉ m.mActiveShards else sp.mShard = m.mShardName
  | .leftShard CDefID => ∀ sp ∈ m.mActivePlayers[CDefID]?, sp.mShard = m.mShardName
  | .joinedOtherShard shardName cdefid _ _ found =>
      found = true → shardName ≠ m.mShardName →
        match m.mActivePlayers[cdefid]? with
        | none => shardName ∈ m.mActiveShards ∨ m.playersOn shardName = 0
        | some sp => sp.mShard = shardName ∨
            sp.mShard ∈ m.mActiveShards ∧ shardName ∉ m.mActiveShards
  | .leftOtherShard shardName cdefid =>
      shardName ≠ m.mShardName → ¬ m.isPending cdefid →
        ∀ sp ∈ m.mActivePlayers[cdefid]?, sp.mShard = shardName ∧ shardName ∈ m.mActiveShards
  | .transferFromOtherShard .. => True
  | .findToken token => ∀ p ∈ m.mPending.find? (·.mToken = token),
      ∀ sp ∈ m.mActivePlayers[p.mID]?, sp.mShard = p.mShardName ∧ p.mShardName ∈ m.mActiveShards
  | .newShard shardName _ =>
      shardName ≠ m.mShardName → ∀ e ∈ m.mActivePlayers.toList, e.2.mShard = shardName →
        shardName ∈ m.mActiveShards ∧ m.isPending e.1 = false
  | .shardRemoved .. => True

/-- One event. -/
theorem countsRight_receive_iff (hm : m.CountsRight) (hk : m.Kept) (ev : Event) :
    (m.receive ev).CountsRight ↔ m.Accounted ev := by
  unfold receive
  cases ev with
  | joinedShard simID zoneID c => exact countsRight_joinedShard_iff hm hk simID zoneID c
  | leftShard c => exact countsRight_leftShard_iff hm hk c
  | findToken token => exact countsRight_findToken_iff hm token
  | transferFromOtherShard c s token now =>
      refine iff_of_true ?_ trivial
      split <;> exact hm
  | shardRemoved s now =>
      refine iff_of_true ?_ trivial
      split
      · exact hm
      · exact hm.shardRemoved hk s now
  | joinedOtherShard s c zoneID simID found =>
      by_cases hs : s = m.mShardName
      · simp [Event.sender, Accounted, hs, hm]
      · rw [Event.sender, if_neg (Option.some_inj.not.mpr hs), perform]
        cases found with
        | false => simp [Accounted, hm]
        | true =>
            rw [if_pos rfl, countsRight_joinedOtherShard_iff hm]
            simp only [Accounted, hs, ne_eq, not_false_iff, true_imp_iff]
  | leftOtherShard s c =>
      by_cases hs : s = m.mShardName
      · simp [Event.sender, Accounted, hs, hm]
      · rw [Event.sender, if_neg (Option.some_inj.not.mpr hs), perform,
          countsRight_leftOtherShard_iff hm]
        simp only [Accounted, hs, ne_eq, not_false_iff, true_imp_iff]
  | newShard s now =>
      by_cases hs : s = m.mShardName
      · simp [Event.sender, Accounted, hs, hm]
      · rw [Event.sender, if_neg (Option.some_inj.not.mpr hs), perform,
          countsRight_newShard_iff hm hk]
        simp only [Accounted, hs, ne_eq, not_false_iff, true_imp_iff]

/-! What the handlers rely on is kept. -/

theorem mem_adjustPlayers {s s' : String} {d : Int} :
    s' ∈ (m.adjustPlayers s d).mActiveShards ↔ s' = s ∨ s' ∈ m.mActiveShards := by
  rw [mem_iff_exists_getElem?, getElem?_adjustPlayers, mem_iff_exists_getElem?]
  by_cases h : s' = s
  · simp [h]
  · simp [h]

theorem Kept.adjustPlayers (hk : m.Kept) (s : String) (d : Int) : (m.adjustPlayers s d).Kept :=
  ⟨hk.ids, mem_adjustPlayers.mpr (.inr hk.own)⟩

theorem Kept.record (hk : m.Kept) {c : Int} {sp : ShardPlayer} (hid : sp.mID = c) :
    { m with mActivePlayers := m.mActivePlayers.insert c sp }.Kept := by
  refine ⟨fun c' sp' h => ?_, hk.own⟩
  rw [getElem?_insert_ite] at h
  by_cases hc : c' = c
  · rw [if_pos hc] at h
    rw [← Option.some.inj h, hid, hc]
  · rw [if_neg hc] at h
    exact hk.ids c' sp' h

theorem Kept.forget (hk : m.Kept) (c : Int) :
    { m with mActivePlayers := m.mActivePlayers.erase c }.Kept := by
  refine ⟨fun c' sp' h => ?_, hk.own⟩
  rw [getElem?_erase_ite] at h
  split at h
  · cases h
  · exact hk.ids c' sp' h

theorem Kept.joinedShard (hk : m.Kept) (simID : Nat) (zoneID c : Int) :
    (m.joinedShard simID zoneID c).Kept := by
  have hadj : (if (m.mActivePlayers.getD c {}).mID = 0 then m.adjustPlayers m.mShardName 1
      else m).Kept := by
    split
    · exact hk.adjustPlayers _ _
    · exact hk
  refine hadj.record ?_
  rfl

theorem Kept.leftShard (hk : m.Kept) (c : Int) : (m.leftShard c).Kept := by
  unfold ClusterManager.leftShard
  split
  · exact (hk.adjustPlayers _ _).forget _
  · exact hk

theorem Kept.joinedOtherShard (hk : m.Kept) (s : String) (c zoneID : Int) (simID : Nat) :
    (m.joinedOtherShard s c zoneID simID).Kept := by
  have hadj : (match m.mActivePlayers[c]? with
      | none => m.adjustPlayers s 1
      | some old => if old.mShard = s then m else m.adjustPlayers old.mShard (-1)).Kept := by
    split
    · exact hk.adjustPlayers _ _
    · split
      · exact hk
      · exact hk.adjustPlayers _ _
  refine hadj.record ?_
  rfl

theorem Kept.leftOtherShard (hk : m.Kept) (s : String) (c : Int) : (m.leftOtherShard s c).Kept := by
  unfold ClusterManager.leftOtherShard
  split
  · exact hk
  · split
    · exact (hk.adjustPlayers _ _).forget _
    · exact hk

theorem Kept.findToken (hk : m.Kept) (token : String) : (m.findToken token).Kept := by
  unfold ClusterManager.findToken
  split
  · exact hk
  · split
    · next p _ _ =>
        have h := (hk.adjustPlayers p.mShardName (-1)).forget p.mID
        exact ⟨h.ids, h.own⟩
    · exact ⟨hk.ids, hk.own⟩

theorem Kept.shardRemoved (hk : m.Kept) {s : String} (hs : s ≠ m.mShardName) (now : Nat) :
    (m.shardRemoved s now).Kept := by
  by_cases hact : s ∈ m.mActiveShards
  · obtain ⟨hsh, hpl, hname⟩ := shardRemoved_spec hk hact now
    refine ⟨fun c sp h => hk.ids c sp ((hpl c sp).mp h).1, ?_⟩
    rw [mem_iff_exists_getElem?, hname, hsh, if_neg hs.symm]
    exact mem_iff_exists_getElem?.mp hk.own
  · rw [ClusterManager.shardRemoved, if_neg (isShardActive_iff.not.mpr hact)]
    exact hk

theorem Kept.newShard (hk : m.Kept) {s : String} (hs : s ≠ m.mShardName) (now : Nat) :
    (m.newShard s now).Kept := by
  have hadd (m' : ClusterManager) (hk' : m'.Kept) (sh : Shard) :
      { m' with mActiveShards := m'.mActiveShards.insert s sh }.Kept :=
    ⟨hk'.ids, TreeMap.mem_insert.mpr (.inr hk'.own)⟩
  unfold ClusterManager.newShard
  split
  · exact hadd _ (hk.shardRemoved hs now) _
  · exact hadd _ hk _

theorem Kept.receive (hk : m.Kept) (ev : Event) : (m.receive ev).Kept := by
  unfold ClusterManager.receive
  split
  · exact hk
  · next hsend =>
      cases ev with
      | joinedShard simID zoneID c => exact hk.joinedShard simID zoneID c
      | leftShard c => exact hk.leftShard c
      | findToken token => exact hk.findToken token
      | transferFromOtherShard c s token now => exact ⟨hk.ids, hk.own⟩
      | shardRemoved s now => exact hk.shardRemoved (Option.some_inj.not.mp hsend) now
      | newShard s now => exact hk.newShard (Option.some_inj.not.mp hsend) now
      | leftOtherShard s c => exact hk.leftOtherShard s c
      | joinedOtherShard s c zoneID simID found =>
          cases found with
          | false => exact hk
          | true => exact hk.joinedOtherShard s c zoneID simID

/-- The shard after `Init`. -/
def started (shardName fullName : String) (address : Address) (localTime ms : Nat) :
    ClusterManager :=
  { mShardName := shardName, mFullName := fullName : ClusterManager }.init address localTime ms

theorem getElem?_started {shardName fullName : String} {address : Address} {localTime ms : Nat}
    {s : String} {sh : Shard}
    (h : (started shardName fullName address localTime ms).mActiveShards[s]? = some sh) :
    s = shardName ∧ sh.mPlayers = 0 ∧ sh.mName = shardName ∧ sh.mStartTime = ms := by
  rw [started, init, findMasterShard_mActiveShards, getElem?_insert_ite] at h
  split at h
  · next hs =>
      rw [← Option.some.inj h]
      exact ⟨hs, rfl, rfl, rfl⟩
  · cases h

theorem mActivePlayers_started (shardName fullName : String) (address : Address)
    (localTime ms : Nat) : (started shardName fullName address localTime ms).mActivePlayers = {} :=
  findMasterShard_mActivePlayers ..

theorem kept_started (shardName fullName : String) (address : Address) (localTime ms : Nat) :
    (started shardName fullName address localTime ms).Kept := by
  refine ⟨fun c sp h => ?_, ?_⟩
  · rw [mActivePlayers_started] at h
    cases h
  · rw [started, init, findMasterShard_mActiveShards, findMasterShard_mShardName]
    exact TreeMap.mem_insert_self

theorem countsRight_of_started (shardName fullName : String) (address : Address)
    (localTime ms : Nat) : (started shardName fullName address localTime ms).CountsRight := by
  intro s sh h
  rw [(getElem?_started h).2.1, playersOn, mActivePlayers_started]
  rfl

/-- The events of a run, each in the state before it. -/
def AccountedAll (m : ClusterManager) : List Event → Prop
  | [] => True
  | ev :: rest => m.Accounted ev ∧ (m.receive ev).AccountedAll rest

theorem countsRight_along_iff (hm : m.CountsRight) (hk : m.Kept) (evs : List Event) :
    (∀ pre, pre <+: evs → (m.receiveAll pre).CountsRight) ↔ m.AccountedAll evs := by
  induction evs generalizing m with
  | nil =>
      simp only [List.prefix_nil, forall_eq, AccountedAll, iff_true]
      exact hm
  | cons ev rest ih =>
      rw [AccountedAll, ← countsRight_receive_iff hm hk]
      constructor
      · intro h
        have h1 : (m.receive ev).CountsRight := h [ev] ⟨rest, rfl⟩
        refine ⟨h1, (ih h1 (hk.receive ev)).mp fun pre hpre => ?_⟩
        exact h (ev :: pre) (List.cons_prefix_cons.mpr ⟨rfl, hpre⟩)
      · rintro ⟨h1, hrest⟩ pre hpre
        cases pre with
        | nil => exact hm
        | cons e pre =>
            obtain ⟨rfl, htail⟩ := List.cons_prefix_cons.mp hpre
            exact (ih h1 (hk.receive e)).mpr hrest pre htail

/-- Along a run from the start, every counter is right at every moment exactly when each
event changes the counter of the shard that its player is recorded on. -/
theorem counts_right_iff (shardName fullName : String) (address : Address) (localTime ms : Nat)
    (evs : List Event) :
    (∀ pre, pre <+: evs →
        ((started shardName fullName address localTime ms).receiveAll pre).CountsRight) ↔
      (started shardName fullName address localTime ms).AccountedAll evs :=
  countsRight_along_iff (countsRight_of_started _ _ _ _ _) (kept_started _ _ _ _ _) evs

/-- A player who comes to one shard and changes to another: the counter of the new shard is
not raised, and is negative once he has left. -/
theorem counts_wrong_after_change :
    ¬ ((started "Anubis" DEFAULT_SHARD_NAME {} 0 0).receiveAll
        [.newShard "Bastet" 1, .newShard "Corin" 2, .joinedOtherShard "Bastet" 7 58 1 true,
          .joinedOtherShard "Corin" 7 58 1 true]).CountsRight ∧
      (((started "Anubis" DEFAULT_SHARD_NAME {} 0 0).receiveAll
        [.newShard "Bastet" 1, .newShard "Corin" 2, .joinedOtherShard "Bastet" 7 58 1 true,
          .joinedOtherShard "Corin" 7 58 1 true,
          .leftOtherShard "Corin" 7]).mActiveShards[("Corin" : String)]?.map Shard.mPlayers)
        = some (-1) := by
  constructor
  · intro h
    have h1 := h "Corin" { mName := "Corin", mLastSeen := 2 } (by decide)
    revert h1
    decide
  · decide

end ClusterManager

end Iceee.Cluster
