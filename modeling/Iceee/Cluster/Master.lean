import Iceee.Cluster.Counts

/-!
# The master shard

Every shard chooses the master itself, among the shards it knows: the one that started first,
and of those that started at the same time the first by name. Its own start is the time of
`Init`, that of the others is the launch time from their configuration.

## Implementation notes

A configuration counts until its shard is removed or started again. The clock of a shard
does not go back. A message may come late and more than once.
-/

namespace Iceee.Cluster

open Lib
open Std (TreeMap)

/-- The order in which shards are preferred as the master. -/
def rank (mStartTime : Nat) (name : String) : ℕ ×ₗ String := toLex (mStartTime, name)

namespace ClusterManager

variable {m : ClusterManager}

/-! ### The choice -/

/-- What the loop of `FindMasterShard` finds in a list ordered by name. -/
theorem earliestOf_spec {l : List (String × Shard)} (hl : l.Pairwise fun a b => a.1 < b.1)
    (s : Shard) (earliest : Nat) :
    (earliestOf l s earliest = s ∧ ∀ e ∈ l, earliest ≤ e.2.mStartTime) ∨
      ∃ e ∈ l, earliestOf l s earliest = e.2 ∧ e.2.mStartTime < earliest ∧
        ∀ e' ∈ l, rank e.2.mStartTime e.1 ≤ rank e'.2.mStartTime e'.1 := by
  induction l generalizing s earliest with
  | nil => exact .inl ⟨rfl, List.forall_mem_nil _⟩
  | cons e rest ih =>
      obtain ⟨hhead, hrest⟩ := List.pairwise_cons.mp hl
      simp only [earliestOf, List.forall_mem_cons]
      split
      · next hlt =>
          right
          rcases ih hrest e.2 e.2.mStartTime with ⟨hr, hle⟩ | ⟨e', he', hr, hlt', hle⟩
          · refine ⟨e, List.mem_cons_self, hr, hlt, le_rfl, fun e' he' => ?_⟩
            apply Prod.Lex.toLex_le_toLex.mpr
            rcases (hle e' he').lt_or_eq with h | h
            · exact .inl h
            · exact .inr ⟨h, (hhead e' he').le⟩
          · refine ⟨e', List.mem_cons_of_mem _ he', hr, hlt'.trans hlt, ?_, hle⟩
            exact Prod.Lex.toLex_le_toLex.mpr (.inl hlt')
      · next hge =>
          rcases ih hrest s earliest with ⟨hr, hle⟩ | ⟨e', he', hr, hlt', hle⟩
          · exact .inl ⟨hr, Nat.le_of_not_lt hge, hle⟩
          · refine .inr ⟨e', List.mem_cons_of_mem _ he', hr, hlt', ?_, hle⟩
            exact Prod.Lex.toLex_le_toLex.mpr (.inl (hlt'.trans_le (Nat.le_of_not_lt hge)))

/-- The shard that the choice falls on. -/
def First (m : ClusterManager) (s : String) : Prop :=
  ∃ sh, m.mActiveShards[s]? = some sh ∧ ∀ s' sh', m.mActiveShards[s']? = some sh' →
    rank sh.mStartTime s ≤ rank sh'.mStartTime s'

/-- `FindMasterShard` names the first shard, once some shard did not start in the future. -/
theorem first_findMasterShard {now : Nat}
    (hname : ∀ (s : String) (sh : Shard), m.mActiveShards[s]? = some sh → sh.mName = s)
    {s : String} {sh : Shard} (hs : m.mActiveShards[s]? = some sh) (hnow : sh.mStartTime ≤ now) :
    m.First (m.findMasterShard now).mMasterShard := by
  have hsort : m.mActiveShards.toList.Pairwise fun a b => a.1 < b.1 := by
    apply TreeMap.ordered_keys_toList.imp
    intro a b hab
    exact compare_lt_iff_lt.mp hab
  have hmaster : (m.findMasterShard now).mMasterShard =
      (earliestOf m.mActiveShards.toList {} (now + 10000)).mName := by
    rw [findMasterShard]
    split
    · rfl
    · next h => exact not_not.mp h
  rcases earliestOf_spec hsort {} (now + 10000) with ⟨-, hle⟩ | ⟨e, he, hr, -, hle⟩
  · have := hle (s, sh) (TreeMap.mem_toList_iff_getElem?_eq_some.mpr hs)
    dsimp only at this
    omega
  · rw [TreeMap.mem_toList_iff_getElem?_eq_some] at he
    rw [hmaster, hr, hname e.1 e.2 he]
    refine ⟨e.2, he, fun s' sh' h' => hle (s', sh') ?_⟩
    exact TreeMap.mem_toList_iff_getElem?_eq_some.mpr h'

/-- The flag of the master, and the timers that go with it. -/
structure FlagRight (m : ClusterManager) : Prop where
  named : m.mMaster = true → m.mMasterShard = m.mShardName
  set : m.mMasterShard = m.mShardName → m.mShardName ≠ "" → m.mMaster = true
  timers : m.auctionTimers = m.mMaster

theorem FlagRight.findMasterShard (hf : m.FlagRight) (now : Nat) :
    (m.findMasterShard now).FlagRight := by
  simp only [ClusterManager.findMasterShard]
  split
  · exact ⟨fun h => eq_of_beq h, fun h _ => beq_iff_eq.mpr h, rfl⟩
  · exact hf

theorem FlagRight.of_eq {m' : ClusterManager} (hf : m.FlagRight)
    (hname : m'.mShardName = m.mShardName) (hmaster : m'.mMasterShard = m.mMasterShard)
    (hflag : m'.mMaster = m.mMaster) (htimers : m'.auctionTimers = m.auctionTimers) :
    m'.FlagRight where
  named := by
    rw [hflag, hmaster, hname]
    exact hf.named
  set := by
    rw [hflag, hmaster, hname]
    exact hf.set
  timers := by
    rw [htimers, hflag]
    exact hf.timers

/-! ### What changes the counters only -/

/-- What a message about a player changes of the shards: at most one counter. -/
structure Adjusts (m m' : ClusterManager) : Prop where
  shards : m'.mActiveShards = m.mActiveShards ∨
    ∃ s d, m'.mActiveShards = (m.adjustPlayers s d).mActiveShards
  name : m'.mShardName = m.mShardName
  master : m'.mMasterShard = m.mMasterShard
  flag : m'.mMaster = m.mMaster
  timers : m'.auctionTimers = m.auctionTimers

theorem adjusts_joinedShard (simID : Nat) (zoneID c : Int) :
    m.Adjusts (m.joinedShard simID zoneID c) := by
  by_cases h : (m.mActivePlayers.getD c {}).mID = 0
  · refine ⟨.inr ⟨m.mShardName, 1, ?_⟩, ?_, ?_, ?_, ?_⟩ <;>
      simp only [joinedShard, if_pos h] <;> rfl
  · refine ⟨.inl ?_, ?_, ?_, ?_, ?_⟩ <;> simp only [joinedShard, if_neg h]

theorem adjusts_leftShard (c : Int) : m.Adjusts (m.leftShard c) := by
  unfold leftShard
  split
  · exact ⟨.inr ⟨_, _, rfl⟩, rfl, rfl, rfl, rfl⟩
  · exact ⟨.inl rfl, rfl, rfl, rfl, rfl⟩

theorem adjusts_leftOtherShard (s : String) (c : Int) : m.Adjusts (m.leftOtherShard s c) := by
  unfold leftOtherShard
  split
  · exact ⟨.inl rfl, rfl, rfl, rfl, rfl⟩
  · split
    · exact ⟨.inr ⟨_, _, rfl⟩, rfl, rfl, rfl, rfl⟩
    · exact ⟨.inl rfl, rfl, rfl, rfl, rfl⟩

theorem adjusts_findToken (token : String) : m.Adjusts (m.findToken token) := by
  unfold findToken
  split
  · exact ⟨.inl rfl, rfl, rfl, rfl, rfl⟩
  · split
    · exact ⟨.inr ⟨_, _, rfl⟩, rfl, rfl, rfl, rfl⟩
    · exact ⟨.inl rfl, rfl, rfl, rfl, rfl⟩

theorem adjusts_joinedOtherShard (s : String) (c zoneID : Int) (simID : Nat) :
    m.Adjusts (m.joinedOtherShard s c zoneID simID) := by
  cases hc : m.mActivePlayers[c]? with
  | none =>
      refine ⟨.inr ⟨s, 1, ?_⟩, ?_, ?_, ?_, ?_⟩ <;> simp only [joinedOtherShard, hc] <;> rfl
  | some old =>
      by_cases ho : old.mShard = s
      · refine ⟨.inl ?_, ?_, ?_, ?_, ?_⟩ <;> simp only [joinedOtherShard, hc, if_pos ho]
      · refine ⟨.inr ⟨old.mShard, -1, ?_⟩, ?_, ?_, ?_, ?_⟩ <;>
          simp only [joinedOtherShard, hc, if_neg ho] <;> rfl

end ClusterManager

/-- The shard that an event starts or stops. -/
def Event.shard : Event → Option String
  | .newShard shardName _ | .shardRemoved shardName _ => some shardName
  | _ => none

namespace ClusterManager

variable {m m' : ClusterManager}

theorem adjusts_receive {ev : Event} (h : ev.shard = none) : m.Adjusts (m.receive ev) := by
  unfold receive
  split
  · exact ⟨.inl rfl, rfl, rfl, rfl, rfl⟩
  · cases ev with
    | joinedShard simID zoneID c => exact adjusts_joinedShard simID zoneID c
    | leftShard c => exact adjusts_leftShard c
    | findToken token => exact adjusts_findToken token
    | transferFromOtherShard c s token now => exact ⟨.inl rfl, rfl, rfl, rfl, rfl⟩
    | leftOtherShard s c => exact adjusts_leftOtherShard s c
    | newShard s now => cases h
    | shardRemoved s now => cases h
    | joinedOtherShard s c zoneID simID found =>
        cases found with
        | false => exact ⟨.inl rfl, rfl, rfl, rfl, rfl⟩
        | true => exact adjusts_joinedOtherShard s c zoneID simID

/-- The names and start times of the shards are as before. -/
def SameStarts (m m' : ClusterManager) : Prop :=
  ∀ s : String, m'.mActiveShards[s]?.map (fun sh => (sh.mName, sh.mStartTime)) =
    m.mActiveShards[s]?.map (fun sh => (sh.mName, sh.mStartTime))

/-- A counter that belongs to a known shard. -/
theorem Adjusts.sameStarts (h : m.Adjusts m')
    (hnew : ∀ s ∈ m'.mActiveShards, s ∈ m.mActiveShards) : m.SameStarts m' := by
  intro s
  rcases h.shards with hs | ⟨t, d, hs⟩
  · rw [hs]
  · have ht : t ∈ m.mActiveShards := by
      apply hnew
      rw [hs]
      exact mem_adjustPlayers.mpr (.inl rfl)
    obtain ⟨sh, hsh⟩ := mem_iff_exists_getElem?.mp ht
    rw [hs, getElem?_adjustPlayers]
    split
    · next hst => rw [hst, hsh, TreeMap.getD_eq_getD_getElem?, hsh]; rfl
    · rfl

end ClusterManager

/-! ### The shards together -/

/-- The shards that take part, each with the time it was launched and the time of its
`Init`. -/
structure Fleet where
  names : Finset String
  launch : String → Nat
  init : String → Nat
  launch_le_init : ∀ n ∈ names, launch n ≤ init n

/-- The running shards, the configurations that were sent, and whose configuration counts at
a shard. -/
structure Network where
  nodes : String → Option ClusterManager := fun _ => none
  sent : List Configuration := []
  heard : String → Finset String := fun _ => ∅

inductive Act
  | init (n fullName : String) (address : Address) (localTime : Nat)
  | sendConfiguration (n : String) (address : Address) (utc localTime : Nat)
  | configuration (n : String) (cfg : Configuration) (now : Nat)
  | handle (n : String) (ev : Event)

/-- The time that an event reads. -/
def Event.clock : Event → Option Nat
  | .newShard _ now | .shardRemoved _ now | .transferFromOtherShard _ _ _ now => some now
  | _ => none

namespace Network

variable (F : Fleet)

/-- What one act does. A shard handles messages from `Init` on. -/
def step (w : Network) : Act → Option Network
  | .init n fullName address localTime =>
      if n ∈ F.names ∧ (w.nodes n).isNone then
        some { w with
          nodes := Function.update w.nodes n
            (some (ClusterManager.started n fullName address localTime (F.init n))) }
      else none
  | .sendConfiguration n address utc localTime =>
      (w.nodes n).map fun m =>
        { w with sent := m.sendConfiguration address (F.launch n) utc localTime :: w.sent }
  | .configuration n cfg now =>
      match w.nodes n with
      | none => none
      | some m =>
          if cfg ∈ w.sent ∧ cfg.shardName ≠ m.mShardName ∧ F.init n ≤ now then
            some { w with
              nodes := Function.update w.nodes n (some (m.serverConfigurationReceived cfg now))
              heard := Function.update w.heard n (insert cfg.shardName (w.heard n)) }
          else none
  | .handle n ev =>
      match w.nodes n with
      | none => none
      | some m =>
          if (∀ s ∈ ev.shard, s ∈ F.names) ∧ ∀ t ∈ ev.clock, F.init n ≤ t then
            let nodes := Function.update w.nodes n (some (m.receive ev))
            match ev.shard with
            | none => some { w with nodes }
            | some s => some { w with
                nodes, heard := Function.update w.heard n ((w.heard n).erase s) }
          else none

/-- No shard runs yet. -/
def Off (w : Network) : Prop := w = {}

/-- A message about a player changes the counter of a known shard. -/
def Orderly (w : Network) : Act → Prop
  | .handle n ev => ev.shard = none → ∀ m ∈ w.nodes n,
      ∀ s ∈ (m.receive ev).mActiveShards.keys, s ∈ m.mActiveShards
  | _ => True

instance (w : Network) : DecidablePred w.Orderly
  | .handle n ev => inferInstanceAs (Decidable (ev.shard = none → ∀ m ∈ w.nodes n,
      ∀ s ∈ (m.receive ev).mActiveShards.keys, s ∈ m.mActiveShards))
  | .init .. | .sendConfiguration .. | .configuration .. => inferInstanceAs (Decidable True)

end Network

namespace ClusterManager

variable {m m' : ClusterManager} {F : Fleet} {n : String} {heard : Finset String}

/-- What a running shard knows about the others. -/
structure Knows (F : Fleet) (n : String) (heard : Finset String) (m : ClusterManager) : Prop where
  name : m.mShardName = n
  flag : m.FlagRight
  known : ∀ (s : String) (sh : Shard),
    m.mActiveShards[s]? = some sh → s ∈ F.names ∧ sh.mName = s
  own : ∃ sh, m.mActiveShards[n]? = some sh ∧ sh.mStartTime = F.init n
  launched : ∀ s ∈ heard, s ≠ n ∧
    ∃ sh, m.mActiveShards[s]? = some sh ∧ sh.mStartTime = F.launch s

/-- Once it has heard of all of them, it has chosen among them. -/
structure Told (F : Fleet) (n : String) (heard : Finset String) (m : ClusterManager) : Prop
    extends Knows F n heard m where
  first : (∀ s ∈ F.names, s ≠ n → s ∈ heard) → m.First m.mMasterShard

theorem Knows.findMasterShard (hk : Knows F n heard m) {now : Nat} (hnow : F.init n ≤ now) :
    Told F n heard (m.findMasterShard now) := by
  obtain ⟨sh, hsh, hstart⟩ := hk.own
  have hfirst : m.First (m.findMasterShard now).mMasterShard :=
    first_findMasterShard (fun s t hs => (hk.known s t hs).2) hsh (hstart ▸ hnow)
  refine ⟨⟨?_, hk.flag.findMasterShard now, ?_, ?_, ?_⟩, fun _ => ?_⟩
  · rw [findMasterShard_mShardName]
    exact hk.name
  · rw [findMasterShard_mActiveShards]
    exact hk.known
  · rw [findMasterShard_mActiveShards]
    exact hk.own
  · rw [findMasterShard_mActiveShards]
    exact hk.launched
  · unfold First
    rw [findMasterShard_mActiveShards]
    exact hfirst

/-- One entry of another shard is replaced; its configuration no longer counts. -/
theorem Knows.update (hk : Knows F n heard m) {s : String} (hs : s ≠ n)
    (hname : m'.mShardName = m.mShardName) (hflag : m'.FlagRight)
    (hother : ∀ s', s' ≠ s → m'.mActiveShards[s']? = m.mActiveShards[s']?)
    (hself : ∀ sh, m'.mActiveShards[s]? = some sh → s ∈ F.names ∧ sh.mName = s) :
    Knows F n (heard.erase s) m' := by
  refine ⟨hname.trans hk.name, hflag, fun s' sh h => ?_, ?_, fun s' h => ?_⟩
  · by_cases hss : s' = s
    · exact hss ▸ hself sh (hss ▸ h)
    · exact hk.known s' sh ((hother s' hss).symm.trans h)
  · rw [hother n hs.symm]
    exact hk.own
  · obtain ⟨hne, hmem⟩ := Finset.mem_erase.mp h
    rw [hother s' hne]
    exact hk.launched s' hmem

theorem Knows.shardRemoved (hk : Knows F n heard m) {s : String} (hs : s ≠ n)
    (hact : s ∈ m.mActiveShards) {now : Nat} (hnow : F.init n ≤ now) :
    Told F n (heard.erase s) (m.shardRemoved s now) := by
  have hsw := swept_foldl (m := m) s (m.playersOf s)
  rw [ClusterManager.shardRemoved, if_pos (isShardActive_iff.mpr hact)]
  apply Knows.findMasterShard _ hnow
  refine hk.update hs hsw.name
    (hk.flag.of_eq hsw.name hsw.master hsw.flag hsw.timers) ?_ ?_
  · intro s' hne
    rw [getElem?_erase_ite, if_neg hne]
    exact hsw.shards s' hne
  · intro sh h
    rw [getElem?_erase_ite, if_pos rfl] at h
    cases h

theorem Told.shardRemoved (ht : Told F n heard m) {s : String} (hs : s ≠ n) {now : Nat}
    (hnow : F.init n ≤ now) : Told F n (heard.erase s) (m.shardRemoved s now) := by
  by_cases hact : s ∈ m.mActiveShards
  · exact ht.toKnows.shardRemoved hs hact hnow
  · rw [ClusterManager.shardRemoved, if_neg (isShardActive_iff.not.mpr hact)]
    have hnot : s ∉ heard := by
      intro h
      obtain ⟨-, sh, hsh, -⟩ := ht.launched s h
      exact hact (mem_iff_exists_getElem?.mpr ⟨sh, hsh⟩)
    rw [Finset.erase_eq_of_notMem hnot]
    exact ht

theorem Knows.withShard (hk : Knows F n heard m) {s : String} (hs : s ≠ n) (hmem : s ∈ F.names)
    {t : Shard} (ht : t.mName = s) :
    Knows F n (heard.erase s) { m with mActiveShards := m.mActiveShards.insert s t } := by
  refine hk.update hs rfl (hk.flag.of_eq rfl rfl rfl rfl) ?_ ?_
  · intro s' hne
    rw [getElem?_insert_ite, if_neg hne]
  · intro sh h
    rw [getElem?_insert_ite, if_pos rfl] at h
    exact Option.some.inj h ▸ ⟨hmem, ht⟩

theorem Knows.newShard (hk : Knows F n heard m) {s : String} (hs : s ≠ n) (hmem : s ∈ F.names)
    {now : Nat} (hnow : F.init n ≤ now) : Knows F n (heard.erase s) (m.newShard s now) := by
  unfold ClusterManager.newShard
  split
  · next hact =>
      have hgone := (hk.shardRemoved hs (isShardActive_iff.mp hact) hnow).toKnows
      rw [← Finset.erase_idem]
      exact hgone.withShard hs hmem rfl
  · exact hk.withShard hs hmem rfl

/-- A shard that was announced anew still has to send its configuration. -/
theorem Told.newShard (ht : Told F n heard m) {s : String} (hs : s ≠ n) (hmem : s ∈ F.names)
    {now : Nat} (hnow : F.init n ≤ now) : Told F n (heard.erase s) (m.newShard s now) :=
  ⟨ht.toKnows.newShard hs hmem hnow,
    fun h => absurd (h s hmem hs) (Finset.notMem_erase s heard)⟩

theorem newShard_active (s : String) (now : Nat) : s ∈ (m.newShard s now).mActiveShards :=
  TreeMap.mem_insert_self

theorem Knows.configuration (hk : Knows F n heard m) {cfg : Configuration}
    (hs : cfg.shardName ≠ n) (hact : cfg.shardName ∈ m.mActiveShards)
    (hlaunch : cfg.launchTime = F.launch cfg.shardName) {now : Nat} (hnow : F.init n ≤ now) :
    Told F n (insert cfg.shardName heard) (m.serverConfigurationReceived cfg now) := by
  obtain ⟨sh, hsh⟩ := mem_iff_exists_getElem?.mp hact
  obtain ⟨hmem, hname⟩ := hk.known _ sh hsh
  have hget : m.mActiveShards.getD cfg.shardName {} = sh := by
    rw [TreeMap.getD_eq_getD_getElem?, hsh]
    rfl
  simp only [serverConfigurationReceived, if_pos (isShardActive_iff.mpr hact), hget,
    Shard.setTimes, hname]
  apply Knows.findMasterShard _ hnow
  have hset := hk.withShard hs hmem (t := { sh with
    mName := cfg.shardName, mFullName := cfg.fullName, mPlayers := cfg.players, mLastSeen := now
    mSimulatorPort := cfg.simulatorPort, mStartTime := cfg.launchTime
    mPing := if m.mPingSentTime = 0 then 0 else now - m.mPingSentTime
    mSimulatorAddress := cfg.simulatorAddress, mHTTPAddress := cfg.http, mServerTime := cfg.utc
    mLocalTime := cfg.time, mTimeSet := now }) rfl
  refine ⟨hset.name, hset.flag, hset.known, hset.own, fun s h => ?_⟩
  by_cases hss : s = cfg.shardName
  · subst hss
    exact ⟨hs, _, by rw [getElem?_insert_ite, if_pos rfl], hlaunch⟩
  · exact hset.launched s (Finset.mem_erase.mpr ⟨hss, (Finset.mem_insert.mp h).resolve_left hss⟩)

theorem serverConfigurationReceived_of_not_active {cfg : Configuration}
    (h : cfg.shardName ∉ m.mActiveShards) (now : Nat) :
    m.serverConfigurationReceived cfg now =
      (m.newShard cfg.shardName now).serverConfigurationReceived cfg now := by
  have hnew := newShard_active (m := m) cfg.shardName now
  rw [serverConfigurationReceived, serverConfigurationReceived,
    if_neg (isShardActive_iff.not.mpr h), if_pos (isShardActive_iff.mpr hnew)]

theorem Told.configuration (ht : Told F n heard m) {cfg : Configuration}
    (hs : cfg.shardName ≠ n) (hmem : cfg.shardName ∈ F.names)
    (hlaunch : cfg.launchTime = F.launch cfg.shardName) {now : Nat} (hnow : F.init n ≤ now) :
    Told F n (insert cfg.shardName heard) (m.serverConfigurationReceived cfg now) := by
  by_cases hact : cfg.shardName ∈ m.mActiveShards
  · exact ht.toKnows.configuration hs hact hlaunch hnow
  · rw [serverConfigurationReceived_of_not_active hact]
    have hk := ht.toKnows.newShard hs hmem hnow
    have hins : insert cfg.shardName (heard.erase cfg.shardName) = insert cfg.shardName heard := by
      ext s
      simp only [Finset.mem_insert, Finset.mem_erase]
      tauto
    rw [← hins]
    exact hk.configuration hs (newShard_active _ _) hlaunch hnow

/-- What a message about a player does not touch. -/
theorem Told.adjusts (ht : Told F n heard m) (h : m.Adjusts m') (hs : m.SameStarts m') :
    Told F n heard m' := by
  have hback (s : String) (sh' : Shard) (h' : m'.mActiveShards[s]? = some sh') :
      ∃ sh, m.mActiveShards[s]? = some sh ∧ sh'.mName = sh.mName ∧
        sh'.mStartTime = sh.mStartTime := by
    have := hs s
    rw [h', Option.map_some, eq_comm, Option.map_eq_some_iff] at this
    obtain ⟨sh, hsh, heq⟩ := this
    exact ⟨sh, hsh, (congrArg Prod.fst heq).symm, (congrArg Prod.snd heq).symm⟩
  have hforth (s : String) (sh : Shard) (h' : m.mActiveShards[s]? = some sh) :
      ∃ sh', m'.mActiveShards[s]? = some sh' ∧ sh'.mStartTime = sh.mStartTime := by
    have := hs s
    rw [h', Option.map_some, Option.map_eq_some_iff] at this
    obtain ⟨sh', hsh', heq⟩ := this
    exact ⟨sh', hsh', congrArg Prod.snd heq⟩
  refine ⟨⟨h.name.trans ht.name, ht.flag.of_eq h.name h.master h.flag h.timers, ?_, ?_, ?_⟩, ?_⟩
  · intro s sh' h'
    obtain ⟨sh, hsh, hname, -⟩ := hback s sh' h'
    exact hname ▸ ht.known s sh hsh
  · obtain ⟨sh, hsh, hstart⟩ := ht.own
    obtain ⟨sh', hsh', heq⟩ := hforth n sh hsh
    exact ⟨sh', hsh', heq.trans hstart⟩
  · intro s hmem
    obtain ⟨hne, sh, hsh, hstart⟩ := ht.launched s hmem
    obtain ⟨sh', hsh', heq⟩ := hforth s sh hsh
    exact ⟨hne, sh', hsh', heq.trans hstart⟩
  · intro hall
    obtain ⟨sh, hsh, hfirst⟩ := ht.first hall
    obtain ⟨sh', hsh', heq⟩ := hforth _ sh hsh
    rw [h.master]
    refine ⟨sh', hsh', fun s t' ht' => ?_⟩
    obtain ⟨t, hst, -, hstart⟩ := hback s t' ht'
    rw [heq, hstart]
    exact hfirst s t hst

/-- A shard starts or stops. The shard itself is not asked. -/
theorem Told.receive (ht : Told F n heard m) {ev : Event} {s : String} (hev : ev.shard = some s)
    (hmem : s ∈ F.names) (hclock : ∀ t ∈ ev.clock, F.init n ≤ t) :
    Told F n (heard.erase s) (m.receive ev) := by
  have hsend : ev.sender = some s := by
    cases ev with
    | newShard s' now => exact hev
    | shardRemoved s' now => exact hev
    | _ => cases hev
  unfold ClusterManager.receive
  rw [hsend, ht.name]
  split
  · next hsn =>
      have hnot : s ∉ heard := fun h => (ht.launched s h).1 (Option.some.inj hsn)
      rw [Finset.erase_eq_of_notMem hnot]
      exact ht
  · next hsn =>
      have hne : s ≠ n := fun h => hsn (congrArg some h)
      cases ev with
      | newShard s' now => exact Option.some.inj hev ▸ ht.newShard hne hmem (hclock now rfl)
      | shardRemoved s' now => exact Option.some.inj hev ▸ ht.shardRemoved hne (hclock now rfl)
      | _ => cases hev

theorem told_started (hn : n ∈ F.names) (fullName : String) (address : Address)
    (localTime : Nat) : Told F n ∅ (started n fullName address localTime (F.init n)) := by
  rw [started, init]
  apply Knows.findMasterShard _ le_rfl
  refine ⟨rfl, ⟨?_, ?_, rfl⟩, ?_, ?_, ?_⟩
  · intro h
    cases h
  · intro h hne
    exact absurd h.symm hne
  · intro s sh h
    rw [getElem?_insert_ite] at h
    split at h
    · next hs => exact Option.some.inj h ▸ ⟨hs ▸ hn, hs.symm⟩
    · cases h
  · exact ⟨_, TreeMap.getElem?_insert_self, rfl⟩
  · intro s h
    cases h

end ClusterManager

namespace Network

variable {F : Fleet} {w w' : Network}

/-- What holds of the network at every moment. -/
structure Sound (F : Fleet) (w : Network) : Prop where
  told : ∀ n m, w.nodes n = some m → m.Told F n (w.heard n)
  fresh : ∀ n, w.nodes n = none → w.heard n = ∅
  names : ∀ n m, w.nodes n = some m → n ∈ F.names
  sent : ∀ cfg ∈ w.sent, cfg.shardName ∈ F.names ∧ cfg.launchTime = F.launch cfg.shardName

/-- One node changes, and what it has heard. -/
theorem Sound.update (hw : Sound F w) {n : String} {m : ClusterManager} {h : Finset String}
    (hn : n ∈ F.names) (ht : m.Told F n h) :
    Sound F { w with
      nodes := Function.update w.nodes n (some m), heard := Function.update w.heard n h } := by
  refine ⟨fun n' m' hm => ?_, fun n' hm => ?_, fun n' m' hm => ?_, hw.sent⟩
  all_goals
    dsimp only at hm ⊢
    by_cases hnn : n' = n
  · subst hnn
    rw [Function.update_self] at hm ⊢
    exact Option.some.inj hm ▸ ht
  · rw [Function.update_of_ne hnn] at hm ⊢
    exact hw.told n' m' hm
  · subst hnn
    rw [Function.update_self] at hm
    cases hm
  · rw [Function.update_of_ne hnn] at hm ⊢
    exact hw.fresh n' hm
  · exact hnn ▸ hn
  · rw [Function.update_of_ne hnn] at hm
    exact hw.names n' m' hm

theorem Sound.step (hw : Sound F w) {a : Act} (hok : Orderly w a) (h : step F w a = some w') :
    Sound F w' := by
  cases a with
  | init n fullName address localTime =>
      simp only [Network.step, Option.isNone_iff_eq_none, Option.ite_none_right_eq_some,
        Option.some.injEq] at h
      obtain ⟨⟨hn, hnone⟩, rfl⟩ := h
      have ht := ClusterManager.told_started hn fullName address localTime
      rw [← hw.fresh n hnone] at ht
      have := hw.update hn ht
      rwa [Function.update_eq_self] at this
  | sendConfiguration n address utc localTime =>
      simp only [Network.step, Option.map_eq_some_iff] at h
      obtain ⟨m, hm, rfl⟩ := h
      refine ⟨hw.told, hw.fresh, hw.names, List.forall_mem_cons.mpr ⟨?_, hw.sent⟩⟩
      have hname : m.mShardName = n := (hw.told n m hm).name
      exact ⟨hname ▸ hw.names n m hm, congrArg F.launch hname.symm⟩
  | configuration n cfg now =>
      cases hm : w.nodes n with
      | none => simp [Network.step, hm] at h
      | some m =>
          simp only [Network.step, hm, Option.ite_none_right_eq_some, Option.some.injEq] at h
          obtain ⟨⟨hmem, hne, hnow⟩, rfl⟩ := h
          have ht := hw.told n m hm
          obtain ⟨hfrom, hlaunch⟩ := hw.sent cfg hmem
          rw [ht.name] at hne
          exact hw.update (hw.names n m hm) (ht.configuration hne hfrom hlaunch hnow)
  | handle n ev =>
      cases hm : w.nodes n with
      | none => simp [Network.step, hm] at h
      | some m =>
          simp only [Network.step, hm, Option.ite_none_right_eq_some] at h
          obtain ⟨⟨hmem, hclock⟩, h⟩ := h
          have ht := hw.told n m hm
          cases hev : ev.shard with
          | none =>
              simp only [hev, Option.some.injEq] at h
              subst h
              have hadj := ClusterManager.adjusts_receive (m := m) hev
              have hsame := hadj.sameStarts fun s hs =>
                hok hev m hm s (TreeMap.mem_keys.mpr hs)
              have := hw.update (hw.names n m hm) (ht.adjusts hadj hsame)
              rwa [Function.update_eq_self] at this
          | some s =>
              simp only [hev, Option.some.injEq] at h
              subst h
              exact hw.update (hw.names n m hm) (ht.receive hev (hmem s hev) hclock)

theorem sound_of_run {h : List (Network × Act)}
    (run : Trace Off Orderly (Network.step F) h w) : Sound F w := by
  refine @Trace.invariant _ _ _ _ _ (fun _ w => Sound F w) ?_ ?_ _ _ run
  · rintro w rfl
    refine ⟨fun n m h => ?_, fun _ _ => rfl, fun n m h => ?_, List.forall_mem_nil _⟩
    · cases h
    · cases h
  · intro _ w a w' hw hok hs
    exact hw.step hok hs

/-! ### Agreement -/

/-- Every shard runs, and has handled the configuration of every other one. -/
def AllConfigured (F : Fleet) (w : Network) : Prop :=
  ∀ n ∈ F.names, (w.nodes n).isSome ∧ ∀ s ∈ F.names, s ≠ n → s ∈ w.heard n

instance (F : Fleet) (w : Network) : Decidable (AllConfigured F w) :=
  inferInstanceAs (Decidable (∀ n ∈ F.names, _ ∧ ∀ s ∈ F.names, s ≠ n → _))

/-- All shards name one master; one of them is the master, and runs the auction timers. -/
structure Agreed (F : Fleet) (w : Network) : Prop where
  named : ∃ s, ∀ n ∈ F.names, ∀ m ∈ w.nodes n, m.mMasterShard = s
  master : ∃! n, n ∈ F.names ∧ ∃ m ∈ w.nodes n, m.mMaster = true
  timers : ∃! n, n ∈ F.names ∧ ∃ m ∈ w.nodes n, m.auctionTimers = true

end Network

/-- The shard was initialised before any other one was launched. -/
def Fleet.Leads (F : Fleet) (n : String) : Prop :=
  n ∈ F.names ∧ ∀ s ∈ F.names, s ≠ n → rank (F.init n) n < rank (F.launch s) s

namespace Network

variable {F : Fleet} {w : Network}

/-- What a shard that knows all others compares. -/
theorem choice_of_configured (hw : Sound F w) (hall : AllConfigured F w) {n : String} (hn : n ∈ F.names)
    {m : ClusterManager} (hm : w.nodes n = some m) :
    m.mMasterShard ∈ F.names ∧ ∀ s ∈ F.names,
      rank (if m.mMasterShard = n then F.init n else F.launch m.mMasterShard) m.mMasterShard ≤
        rank (if s = n then F.init n else F.launch s) s := by
  have ht := hw.told n m hm
  have hheard := (hall n hn).2
  have hstart (s : String) (sh : Shard) (h : m.mActiveShards[s]? = some sh) :
      sh.mStartTime = if s = n then F.init n else F.launch s := by
    split
    · next hs =>
        obtain ⟨sh', h', heq⟩ := ht.own
        rw [hs, h'] at h
        exact Option.some.inj h ▸ heq
    · next hs =>
        obtain ⟨-, sh', h', heq⟩ := ht.launched s (hheard s (ht.known s sh h).1 hs)
        rw [h'] at h
        exact Option.some.inj h ▸ heq
  obtain ⟨sh, hsh, hfirst⟩ := ht.first hheard
  refine ⟨(ht.known _ sh hsh).1, fun s hs => ?_⟩
  have hex : ∃ t, m.mActiveShards[s]? = some t := by
    by_cases hsn : s = n
    · obtain ⟨t, h, -⟩ := ht.own
      exact ⟨t, hsn ▸ h⟩
    · obtain ⟨-, t, h, -⟩ := ht.launched s (hheard s hs hsn)
      exact ⟨t, h⟩
  obtain ⟨t, hst⟩ := hex
  rw [← hstart _ sh hsh, ← hstart s t hst]
  exact hfirst s t hst

theorem rank_mono {t t' : Nat} (h : t ≤ t') (s : String) : rank t s ≤ rank t' s :=
  Prod.Lex.toLex_le_toLex.mpr (h.lt_or_eq.imp_right fun heq => ⟨heq, le_rfl⟩)

/-- A shard sees the start of another no earlier than its launch, and no later than its
`Init`. -/
theorem seen_mem (F : Fleet) {s : String} (hs : s ∈ F.names) (n : String) :
    F.launch s ≤ (if s = n then F.init n else F.launch s) ∧
      (if s = n then F.init n else F.launch s) ≤ F.init s := by
  have hle := F.launch_le_init s hs
  split
  · next h => exact ⟨h ▸ hle, h ▸ le_rfl⟩
  · exact ⟨le_rfl, hle⟩

/-- A shard that leads is named by all. -/
theorem mMasterShard_of_leads (hw : Sound F w) (hall : AllConfigured F w) {e : String}
    (he : F.Leads e) {n : String} (hn : n ∈ F.names) {m : ClusterManager}
    (hm : w.nodes n = some m) : m.mMasterShard = e := by
  obtain ⟨hmem, hle⟩ := choice_of_configured hw hall hn hm
  by_contra hne
  have hlt := calc
    rank (F.launch m.mMasterShard) m.mMasterShard
      ≤ rank (if m.mMasterShard = n then F.init n else F.launch m.mMasterShard)
          m.mMasterShard := rank_mono (seen_mem F hmem n).1 _
    _ ≤ rank (if e = n then F.init n else F.launch e) e := hle e he.1
    _ ≤ rank (F.init e) e := rank_mono (seen_mem F he.1 n).2 _
    _ < rank (F.launch m.mMasterShard) m.mMasterShard := he.2 _ hmem hne
  exact lt_irrefl _ hlt

theorem agreed_of_leads (hw : Sound F w) (hall : AllConfigured F w) {e : String}
    (he : F.Leads e) (hne : e ≠ "") : Agreed F w := by
  have hnamed (n m) (hn : n ∈ F.names) (hm : w.nodes n = some m) : m.mMasterShard = e :=
    mMasterShard_of_leads hw hall he hn hm
  obtain ⟨m, hm⟩ := Option.isSome_iff_exists.mp (hall e he.1).1
  have ht := hw.told e m hm
  have hset : m.mMaster = true := by
    apply ht.flag.set
    · rw [hnamed e m he.1 hm, ht.name]
    · rwa [ht.name]
  have hunique (n m) (hn : n ∈ F.names) (hm : w.nodes n = some m) (h : m.mMaster = true) :
      n = e := by
    have hk := hw.told n m hm
    rw [← hk.name, ← hk.flag.named h, hnamed n m hn hm]
  refine ⟨⟨e, fun n hn m hm => hnamed n m hn hm⟩, ⟨e, ⟨he.1, m, hm, hset⟩, ?_⟩,
    ⟨e, ⟨he.1, m, hm, ht.flag.timers.trans hset⟩, ?_⟩⟩
  · rintro n ⟨hn, m', hm', h⟩
    exact hunique n m' hn hm' h
  · rintro n ⟨hn, m', hm', h⟩
    exact hunique n m' hn hm' ((hw.told n m' hm').flag.timers.symm.trans h)

theorem leads_of_agreed (hw : Sound F w) (hall : AllConfigured F w) (ha : Agreed F w) :
    ∃ e, F.Leads e := by
  obtain ⟨n, ⟨hn, m, hm, hmaster⟩, -⟩ := ha.master
  have ht := hw.told n m hm
  have hself : m.mMasterShard = n := (ht.flag.named hmaster).trans ht.name
  obtain ⟨-, hle⟩ := choice_of_configured hw hall hn hm
  refine ⟨n, hn, fun s hs hsn => ?_⟩
  have h := hle s hs
  rw [hself, if_pos rfl, if_neg hsn] at h
  apply lt_of_le_of_ne h
  intro heq
  exact hsn (congrArg (fun x => (ofLex x).2) heq).symm

/-- Once all have heard of all, the shards agree on a master, and one of them is the master,
if one shard was initialised before any other was launched; and only then. (A master with an
empty name is not told apart from none.) -/
theorem master_agreement {h : List (Network × Act)}
    (run : Trace Off Orderly (Network.step F) h w)
    (hall : AllConfigured F w) :
    (∀ n, F.Leads n → n ≠ "" → Agreed F w) ∧ (Agreed F w → ∃ n, F.Leads n) :=
  ⟨fun _ he hne => agreed_of_leads (sound_of_run run) hall he hne,
    leads_of_agreed (sound_of_run run) hall⟩

/-! ### Two shards -/

/-- Two shards with their times. -/
def pair (launchA initA launchB initB : Nat) (hA : launchA ≤ initA) (hB : launchB ≤ initB) :
    Fleet where
  names := {"Anubis", "Bastet"}
  launch := fun s => if s = "Anubis" then launchA else launchB
  init := fun s => if s = "Anubis" then initA else initB
  launch_le_init := by
    intro n _
    split <;> assumption

/-- Both shards start, and each hears the configuration of the other. -/
def pairActs (launchA launchB now : Nat) : List Act :=
  let cfg (n : String) (launchTime : Nat) : Configuration :=
    { shardName := n, simulatorAddress := "", simulatorPort := 0, fullName := n, players := 0,
      launchTime, utc := now, time := now, http := "" }
  [.init "Anubis" "Anubis" {} 0, .init "Bastet" "Bastet" {} 0,
    .sendConfiguration "Anubis" {} now now, .sendConfiguration "Bastet" {} now now,
    .configuration "Anubis" (cfg "Bastet" launchB) now,
    .configuration "Bastet" (cfg "Anubis" launchA) now]

/-- The network after these acts. -/
def pairEnd (F : Fleet) (launchA launchB now : Nat) : Network :=
  (runAll (step F) {} (pairActs launchA launchB now)).getD {}

theorem master_agreement_pair :
    Agreed (pair 0 100 200 260 (by decide) (by decide))
      (pairEnd (pair 0 100 200 260 (by decide) (by decide)) 0 200 300) := by
  have hok : OkAll Orderly (step (pair 0 100 200 260 (by decide) (by decide))) {}
      (pairActs 0 200 300) := by decide
  have hrun : (runAll (step (pair 0 100 200 260 (by decide) (by decide))) {}
      (pairActs 0 200 300)).isSome = true := by decide
  have hleads : (pair 0 100 200 260 (by decide) (by decide)).Leads "Anubis" := by
    refine ⟨by decide, fun s hs hne => ?_⟩
    have hB : s = "Bastet" := by
      rcases Finset.mem_insert.mp hs with h | h
      · exact absurd h hne
      · exact Finset.mem_singleton.mp h
    subst hB
    exact Prod.Lex.toLex_lt_toLex.mpr (.inl (by decide))
  have hoff : Off {} := rfl
  exact (master_agreement ((Trace.start hoff).runAll hok (eq_some_getD hrun {}))
    (by decide)).1 "Anubis" hleads (by decide)

/-- The shard that was launched first is initialised after the other one was launched. Each of
the two names the other one, and there is no master. -/
theorem no_master_of_late_init :
    ∃ h w, Trace Off Orderly
        (step (pair 0 100 50 60 (by decide) (by decide))) h w ∧
      AllConfigured (pair 0 100 50 60 (by decide) (by decide)) w ∧
      ¬ Agreed (pair 0 100 50 60 (by decide) (by decide)) w := by
  have hok : OkAll Orderly (step (pair 0 100 50 60 (by decide) (by decide))) {}
      (pairActs 0 50 300) := by decide
  have hrun : (runAll (step (pair 0 100 50 60 (by decide) (by decide))) {}
      (pairActs 0 50 300)).isSome = true := by decide
  have hoff : Off {} := rfl
  refine ⟨_, _, (Trace.start hoff).runAll hok (eq_some_getD hrun {}), by decide, ?_⟩
  intro ha
  obtain ⟨n, ⟨hn, m, hm, hmaster⟩, -⟩ := ha.master
  have hnone : ∀ n ∈ (pair 0 100 50 60 (by decide) (by decide)).names,
      ∀ m ∈ ((runAll (step (pair 0 100 50 60 (by decide) (by decide))) {}
        (pairActs 0 50 300)).getD {}).nodes n, m.mMaster = false := by decide
  exact Bool.eq_false_iff.mp (hnone n hn m hm) hmaster

end Network

end Iceee.Cluster
