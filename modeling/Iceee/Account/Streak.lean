import Iceee.Util.Split

/-!
# Days of consecutive logins

With every login of a character the server counts the days in a row on which the account was used,
and decides whether a daily reward is due; the reward is given when the client has loaded.

## Implementation notes

A day is the day number of the second counter. Of the rewards only the table matters here: where it
has none for a day, the count starts over.

## Main results

* `streak_exact_iff`: the count is right exactly if no day is ever left out.
-/

namespace Iceee.Daily

open Lib Util

structure DailyProfile where
  dayNumber : Int
  minLevel : Int
  maxLevel : Int
  deriving DecidableEq

/-- `DailyProfileManager::GetProfiles`. -/
def getProfiles (mProfiles : List DailyProfile) (dayNumber level : Int) : List DailyProfile :=
  mProfiles.filter fun p => p.dayNumber == dayNumber && level ≥ p.minLevel && level ≤ p.maxLevel

/-- What a login reads and writes of an account. -/
structure AccountData where
  LastLogOn : Text := []
  LastLogOnTimeSec : ℕ := 0
  ConsecutiveDaysLoggedIn : ℕ := 0
  DueDailyRewards : Bool := false
  AuthenticatedBySimTransfer : Bool := false
  PendingMinorUpdates : ℕ := 0
  deriving DecidableEq

/-- What a login reads and writes of a character. -/
structure CharacterData where
  LastLogOn : Text := []
  Shard : Text := []
  SessionsLogged : ℕ := 0
  deriving DecidableEq

/-- The date of a time that was printed, in front of the comma. -/
def dateOf (time : Text) : Option Text := (split time [',']).head?

/-- The name of the shard, the printed form of a time, and the rewards. -/
structure Server where
  mShardName : Text
  strftime : ℕ → Text
  mProfiles : List DailyProfile

variable (server : Server)

/-- Whether the account logs in for the first time today, by the dates that were printed. -/
def firstToday (accPtr : AccountData) (charPtr : CharacterData) : Bool :=
  if accPtr.LastLogOn.length = 0 then true
  else decide (dateOf accPtr.LastLogOn ≠ dateOf charPtr.LastLogOn)

/-- The first login of a day: the day of the last login is taken as none if it is day zero. -/
def countDay (accPtr : AccountData) (nowTimeSec : ℕ) : AccountData :=
  let lastLoginDay := if accPtr.LastLogOnTimeSec = 0 then 0 else accPtr.LastLogOnTimeSec / 86400
  let nowTimeDay := nowTimeSec / 86400
  let accPtr :=
    if lastLoginDay = 0 ∨ nowTimeDay = lastLoginDay + 1 then
      { accPtr with ConsecutiveDaysLoggedIn := accPtr.ConsecutiveDaysLoggedIn + 1 }
    else { accPtr with DueDailyRewards := false }
  { accPtr with
    LastLogOnTimeSec := nowTimeSec, PendingMinorUpdates := accPtr.PendingMinorUpdates + 1 }

/-- `SimulatorThread::LoadCharacterSession`, with the results of its two calls of `time`. -/
def loadCharacterSession (accPtr : AccountData) (charPtr : CharacterData)
    (curtime nowTimeSec : ℕ) : AccountData × CharacterData :=
  let charPtr := { charPtr with LastLogOn := server.strftime curtime, Shard := server.mShardName }
  let (accPtr, charPtr) :=
    if accPtr.AuthenticatedBySimTransfer then (accPtr, charPtr)
    else
      let accPtr := { accPtr with DueDailyRewards := firstToday accPtr charPtr }
      if accPtr.DueDailyRewards then
        (countDay accPtr nowTimeSec, { charPtr with LastLogOn := accPtr.LastLogOn })
      else (accPtr, charPtr)
  (accPtr, { charPtr with SessionsLogged := charPtr.SessionsLogged + 1 })

/-- `SimulatorThread::ProcessDailyRewards`, as far as it changes the account. -/
def processDailyRewards (accPtr : AccountData) (days : ℕ) (level : Int) : AccountData :=
  if accPtr.DueDailyRewards then
    let accPtr := { accPtr with
      DueDailyRewards := false, PendingMinorUpdates := accPtr.PendingMinorUpdates + 1 }
    if (getProfiles server.mProfiles days level).length = 0 then
      { accPtr with ConsecutiveDaysLoggedIn := 1 }
    else accPtr
  else accPtr

/-! ### Runs -/

/-- An account and its characters. -/
structure Records where
  accPtr : AccountData
  characters : ℕ → CharacterData

/-- A login: the character, the times that the server reads, whether the client loads, and the
level of the character then. -/
structure Login where
  character : ℕ
  curtime : ℕ
  nowTimeSec : ℕ
  loaded : Bool
  level : Int
  deriving DecidableEq

namespace Login

/-- The day of a login. -/
def day (login : Login) : ℕ := login.nowTimeSec / 86400

/-- The session of the character is loaded. -/
def start (login : Login) (w : Records) : Records :=
  let (accPtr, charPtr) := loadCharacterSession server w.accPtr (w.characters login.character)
    login.curtime login.nowTimeSec
  { accPtr := accPtr, characters := Function.update w.characters login.character charPtr }

/-- The client loads, if it does. -/
def finish (login : Login) (w : Records) : Records :=
  if login.loaded then
    { w with accPtr :=
        processDailyRewards server w.accPtr w.accPtr.ConsecutiveDaysLoggedIn login.level }
  else w

end Login

/-- What the logins, the latest one first, make of a new account. -/
def after (characters : ℕ → CharacterData) : List Login → Records
  | [] => { accPtr := {}, characters := characters }
  | login :: earlier => login.finish server (login.start server (after characters earlier))

/-- The account when a login after others has been counted. -/
def counted (characters : ℕ → CharacterData) (login : Login) (earlier : List Login) : AccountData :=
  (login.start server (after server characters earlier)).accPtr

/-! ### What the count is for -/

/-- `n` is the number of days in a row that end on `day`, among the given days. -/
def Streak (days : List ℕ) (day n : ℕ) : Prop :=
  (∀ i < n, ∃ e ∈ days, e + i = day) ∧ ∀ e ∈ days, e + n ≠ day

/-- After a login, the count is the number of days in a row, and a reward is due if it was the first
one of its day. -/
structure Right (accPtr : AccountData) (login : Login) (earlier : List Login) : Prop where
  count : Streak ((login :: earlier).map Login.day) login.day accPtr.ConsecutiveDaysLoggedIn
  due : accPtr.DueDailyRewards = true ↔ login.day ∉ earlier.map Login.day

/-- The table of rewards starts over after a login: the client loads, the login is the first one of
its day, and there is no reward for that many days in a row. -/
def StartsOver (login : Login) (earlier : List Login) : Prop :=
  login.loaded = true ∧ login.day ∉ earlier.map Login.day ∧
    ∃ n, n ≠ 1 ∧ Streak ((login :: earlier).map Login.day) login.day n ∧
      getProfiles server.mProfiles n login.level = []

/-- A login is on the day of the one before it or on the next day, and the table of rewards has not
started over in between. -/
structure Follows (login before : Login) (earlier : List Login) : Prop where
  day : login.day = before.day + 1 ∨ login.day = before.day ∧ before.day ≠ 0
  goes_on : ¬ StartsOver server before earlier

/-- The latest login first. -/
def InOrder (logins : List Login) : Prop :=
  logins.Pairwise fun later earlier => earlier.nowTimeSec ≤ later.nowTimeSec

/-- Every login is counted right. -/
def AllRight (characters : ℕ → CharacterData) (logins : List Login) : Prop :=
  ∀ login earlier, login :: earlier <:+ logins →
    Right (counted server characters login earlier) login earlier

/-- No login leaves a day out. -/
def Steady (logins : List Login) : Prop :=
  ∀ login before earlier, login :: before :: earlier <:+ logins →
    Follows server login before earlier

/-! ### Days in a row -/

section Streak

variable {days : List ℕ} {day n m : ℕ}

theorem Streak.le (h : Streak days day n) (h' : Streak days day m) : n ≤ m := by
  by_contra hlt
  obtain ⟨e, he, heq⟩ := h.1 m (not_le.mp hlt)
  exact h'.2 e he heq

theorem Streak.unique (h : Streak days day n) (h' : Streak days day m) : n = m :=
  le_antisymm (h.le h') (h'.le h)

theorem Streak.pos (h : Streak (day :: days) day n) : 1 ≤ n := by
  by_contra hzero
  obtain rfl : n = 0 := by omega
  exact h.2 day List.mem_cons_self rfl

/-- Another login on the same day. -/
theorem Streak.same (h : Streak (day :: days) day n) : Streak (day :: day :: days) day n := by
  constructor
  · intro i hi
    obtain ⟨e, he, heq⟩ := h.1 i hi
    exact ⟨e, List.mem_cons_of_mem _ he, heq⟩
  · intro e he
    rcases List.mem_cons.mp he with rfl | he
    · exact h.2 _ List.mem_cons_self
    · exact h.2 e he

/-- A login on the next day. -/
theorem Streak.next (h : Streak (day :: days) day n) :
    Streak ((day + 1) :: day :: days) (day + 1) (n + 1) := by
  constructor
  · intro i hi
    cases i with
    | zero => exact ⟨day + 1, List.mem_cons_self, rfl⟩
    | succ i =>
        obtain ⟨e, he, heq⟩ := h.1 i (Nat.lt_of_succ_lt_succ hi)
        exact ⟨e, List.mem_cons_of_mem _ he, congrArg (· + 1) heq⟩
  · intro e he heq
    rcases List.mem_cons.mp he with rfl | he
    · omega
    · exact h.2 e he (by omega)

/-- A day after one that was left out. -/
theorem streak_one (h : ∀ e ∈ days, e + 1 < day) : Streak (day :: days) day 1 := by
  constructor
  · intro i hi
    exact ⟨day, List.mem_cons_self, by omega⟩
  · intro e he heq
    rcases List.mem_cons.mp he with rfl | he
    · omega
    · exact absurd (h e he) (by omega)

end Streak

/-! ### One login -/

section Step

variable {server} {characters : ℕ → CharacterData} {login before : Login} {earlier : List Login}

/-- The count of a login on an account whose date of the last login is empty. -/
theorem start_of_empty {w : Records} (hlast : w.accPtr.LastLogOn = [])
    (htransfer : w.accPtr.AuthenticatedBySimTransfer = false) :
    (login.start server w).accPtr =
      countDay { w.accPtr with DueDailyRewards := true } login.nowTimeSec := by
  simp [Login.start, loadCharacterSession, firstToday, hlast, htransfer]

/-- `countDay` by its cases. -/
theorem countDay_eq (accPtr : AccountData) (now : ℕ) :
    countDay accPtr now =
      if accPtr.LastLogOnTimeSec / 86400 = 0 ∨ now / 86400 = accPtr.LastLogOnTimeSec / 86400 + 1 then
        { accPtr with
          ConsecutiveDaysLoggedIn := accPtr.ConsecutiveDaysLoggedIn + 1
          LastLogOnTimeSec := now, PendingMinorUpdates := accPtr.PendingMinorUpdates + 1 }
      else
        { accPtr with
          DueDailyRewards := false
          LastLogOnTimeSec := now, PendingMinorUpdates := accPtr.PendingMinorUpdates + 1 } := by
  have hday : (if accPtr.LastLogOnTimeSec = 0 then 0 else accPtr.LastLogOnTimeSec / 86400) =
      accPtr.LastLogOnTimeSec / 86400 := by
    split
    · next hzero => rw [hzero]
    · rfl
  unfold countDay
  simp only [hday]
  split <;> rfl

/-- The client's part of a login changes no date. -/
theorem finish_spec (w : Records) :
    (login.finish server w).accPtr.LastLogOn = w.accPtr.LastLogOn ∧
      (login.finish server w).accPtr.LastLogOnTimeSec = w.accPtr.LastLogOnTimeSec ∧
      (login.finish server w).accPtr.AuthenticatedBySimTransfer =
        w.accPtr.AuthenticatedBySimTransfer ∧
      (login.finish server w).accPtr.ConsecutiveDaysLoggedIn =
        if login.loaded = true ∧ w.accPtr.DueDailyRewards = true ∧
            getProfiles server.mProfiles w.accPtr.ConsecutiveDaysLoggedIn login.level = [] then 1
        else w.accPtr.ConsecutiveDaysLoggedIn := by
  unfold Login.finish processDailyRewards
  by_cases hloaded : login.loaded = true
  · by_cases hdue : w.accPtr.DueDailyRewards = true
    · by_cases hnone :
        getProfiles server.mProfiles w.accPtr.ConsecutiveDaysLoggedIn login.level = []
      · simp [hloaded, hdue, hnone]
      · simp [hloaded, hdue, hnone]
    · simp [hloaded, hdue]
  · simp [hloaded]

/-- The server never notes the date of a login on the account. -/
theorem after_empty (logins : List Login) :
    (after server characters logins).accPtr.LastLogOn = [] ∧
      (after server characters logins).accPtr.AuthenticatedBySimTransfer = false := by
  induction logins with
  | nil => exact ⟨rfl, rfl⟩
  | cons login earlier ih =>
      have hstart := @start_of_empty server login _ ih.1 ih.2
      obtain ⟨hlast, -, htransfer, -⟩ :=
        @finish_spec server login (login.start server (after server characters earlier))
      rw [after, hlast, htransfer, hstart, countDay_eq]
      split
      · exact ih
      · exact ih

theorem counted_eq : counted server characters login earlier =
    countDay { (after server characters earlier).accPtr with DueDailyRewards := true }
      login.nowTimeSec :=
  start_of_empty (after_empty earlier).1 (after_empty earlier).2

theorem counted_time :
    (counted server characters login earlier).LastLogOnTimeSec = login.nowTimeSec := by
  rw [counted_eq, countDay_eq]
  split <;> rfl

/-- The first login of an account. -/
theorem counted_nil :
    (counted server characters login []).ConsecutiveDaysLoggedIn = 1 ∧
      (counted server characters login []).DueDailyRewards = true := by
  rw [counted_eq, countDay_eq, if_pos (.inl (Nat.zero_div 86400))]
  exact ⟨rfl, rfl⟩

/-- Every later login. -/
theorem counted_cons :
    (counted server characters login (before :: earlier)).ConsecutiveDaysLoggedIn =
        (after server characters (before :: earlier)).accPtr.ConsecutiveDaysLoggedIn +
          (if before.day = 0 ∨ login.day = before.day + 1 then 1 else 0) ∧
      ((counted server characters login (before :: earlier)).DueDailyRewards = true ↔
        before.day = 0 ∨ login.day = before.day + 1) := by
  have htime : (after server characters (before :: earlier)).accPtr.LastLogOnTimeSec =
      before.nowTimeSec := by
    rw [after, (finish_spec _).2.1]
    exact counted_time
  rw [counted_eq, countDay_eq]
  simp only [htime]
  unfold Login.day
  split
  · next h => exact ⟨rfl, iff_of_true rfl h⟩
  · next h => exact ⟨rfl, iff_of_false Bool.false_ne_true h⟩

/-- What the client's part leaves of a count that was right. -/
theorem count_after (h : Right (counted server characters before earlier) before earlier) :
    (after server characters (before :: earlier)).accPtr.ConsecutiveDaysLoggedIn =
        (counted server characters before earlier).ConsecutiveDaysLoggedIn ↔
      ¬ StartsOver server before earlier := by
  have hcount := (@finish_spec server before
    (before.start server (after server characters earlier))).2.2.2
  rw [after, hcount]
  unfold counted at h ⊢
  split
  · next hover =>
      constructor
      · rintro hone ⟨-, -, n, hn, hstreak, -⟩
        exact hn ((hstreak.unique h.count).trans hone.symm)
      · intro hno
        by_contra hne
        exact hno ⟨hover.1, h.due.mp hover.2.1, _, Ne.symm hne, h.count, hover.2.2⟩
  · next hgoes =>
      refine iff_of_true rfl ?_
      rintro ⟨hloaded, hfirst, n, -, hstreak, hnone⟩
      exact hgoes ⟨hloaded, h.due.mpr hfirst, hstreak.unique h.count ▸ hnone⟩

theorem one_le_count_after
    (h : Right (counted server characters before earlier) before earlier) :
    1 ≤ (after server characters (before :: earlier)).accPtr.ConsecutiveDaysLoggedIn := by
  have hpos := h.count.pos
  have hcount := (@finish_spec server before
    (before.start server (after server characters earlier))).2.2.2
  rw [after, hcount]
  split
  · exact le_rfl
  · exact hpos

/-- Days do not go back. -/
theorem InOrder.day_le (horder : InOrder (login :: earlier)) {e : ℕ}
    (he : e ∈ earlier.map Login.day) : e ≤ login.day := by
  obtain ⟨old, hold, rfl⟩ := List.mem_map.mp he
  exact Nat.div_le_div_right ((List.pairwise_cons.mp horder).1 old hold)

/-- A login on the next day is counted right if the count has not started over. -/
theorem right_next_iff (horder : InOrder (before :: earlier))
    (h : Right (counted server characters before earlier) before earlier)
    (hnext : login.day = before.day + 1) :
    Right (counted server characters login (before :: earlier)) login (before :: earlier) ↔
      ¬ StartsOver server before earlier := by
  obtain ⟨hcount, hdue⟩ := @counted_cons server characters login before earlier
  rw [if_pos (.inr hnext)] at hcount
  have hstreak := h.count.next
  have hnew : login.day ∉ (before :: earlier).map Login.day := by
    rw [List.map_cons, List.mem_cons, not_or]
    exact ⟨by omega, fun hmem => absurd (horder.day_le hmem) (by omega)⟩
  rw [← count_after h]
  constructor
  · intro hright
    have hlong := hright.count
    rw [List.map_cons, hcount, hnext] at hlong
    exact Nat.succ.inj (hlong.unique hstreak)
  · intro heq
    refine ⟨?_, iff_of_true (hdue.mpr (.inr hnext)) hnew⟩
    rw [List.map_cons, hcount, heq, hnext]
    exact hstreak

/-- So is another login on the same day, unless that is day zero. -/
theorem right_same_iff (h : Right (counted server characters before earlier) before earlier)
    (hsame : login.day = before.day) (hzero : before.day ≠ 0) :
    Right (counted server characters login (before :: earlier)) login (before :: earlier) ↔
      ¬ StartsOver server before earlier := by
  obtain ⟨hcount, hdue⟩ := @counted_cons server characters login before earlier
  have hno : ¬ (before.day = 0 ∨ login.day = before.day + 1) := by omega
  rw [if_neg hno] at hcount
  have hstreak := h.count.same
  have hold : login.day ∈ (before :: earlier).map Login.day := by
    rw [hsame]
    exact List.mem_cons_self
  rw [← count_after h]
  constructor
  · intro hright
    have hlong := hright.count
    rw [List.map_cons, hcount, hsame] at hlong
    exact hlong.unique hstreak
  · intro heq
    refine ⟨?_, iff_of_false (mt hdue.mp hno) (not_not.mpr hold)⟩
    rw [List.map_cons, hcount, heq, hsame]
    exact hstreak

/-- A login after a day that was left out is counted wrong: as one more day in a row after day
zero, and as one for which nothing is due after any other. -/
theorem not_right_of_gap (horder : InOrder (before :: earlier))
    (h : Right (counted server characters before earlier) before earlier)
    (hgap : before.day + 1 < login.day) :
    ¬ Right (counted server characters login (before :: earlier)) login (before :: earlier) := by
  obtain ⟨hcount, hdue⟩ := @counted_cons server characters login before earlier
  have hpos := one_le_count_after h
  have hlt : ∀ e ∈ (before :: earlier).map Login.day, e + 1 < login.day := by
    intro e he
    rcases List.mem_cons.mp he with rfl | he
    · exact hgap
    · exact (Nat.succ_le_succ (horder.day_le he)).trans_lt hgap
  intro hright
  have hfirst := hright.due.mpr fun hmem => absurd (hlt _ hmem) (by omega)
  have hone := hright.count.unique (streak_one hlt)
  rw [hcount, if_pos (hdue.mp hfirst)] at hone
  omega

/-- After a login that was counted right, the next one is counted right exactly if it follows. -/
theorem right_cons_iff (horder : InOrder (login :: before :: earlier))
    (h : Right (counted server characters before earlier) before earlier) :
    Right (counted server characters login (before :: earlier)) login (before :: earlier) ↔
      Follows server login before earlier := by
  have hle : before.day ≤ login.day := horder.day_le List.mem_cons_self
  have horder' : InOrder (before :: earlier) := (List.pairwise_cons.mp horder).2
  by_cases hnext : login.day = before.day + 1
  · rw [right_next_iff horder' h hnext]
    exact ⟨fun hgo => ⟨.inl hnext, hgo⟩, fun hfollows => hfollows.goes_on⟩
  by_cases hsame : login.day = before.day
  · by_cases hzero : before.day = 0
    · -- two logins on day zero are both taken as the first one
      have hdue := (@counted_cons server characters login before earlier).2.mpr (.inl hzero)
      have hold : login.day ∈ (before :: earlier).map Login.day := by
        rw [hsame]
        exact List.mem_cons_self
      refine iff_of_false (fun hright => hright.due.mp hdue hold) fun hfollows => ?_
      have hday := hfollows.day
      omega
    · rw [right_same_iff h hsame hzero]
      exact ⟨fun hgo => ⟨.inr ⟨hsame, hzero⟩, hgo⟩, fun hfollows => hfollows.goes_on⟩
  · refine iff_of_false (not_right_of_gap horder' h (by omega)) fun hfollows => ?_
    have hday := hfollows.day
    omega

theorem right_nil : Right (counted server characters login []) login [] := by
  obtain ⟨hcount, hdue⟩ := @counted_nil server characters login
  refine ⟨?_, iff_of_true hdue List.not_mem_nil⟩
  rw [hcount]
  exact streak_one (by simp)

end Step

/-! ### Runs of logins -/

section Run

variable {server} {characters : ℕ → CharacterData} {logins : List Login}

theorem allRight_cons {login : Login} {earlier : List Login} :
    AllRight server characters (login :: earlier) ↔
      Right (counted server characters login earlier) login earlier ∧
        AllRight server characters earlier := by
  constructor
  · intro h
    exact ⟨h _ _ (List.suffix_refl _), fun l ls hls => h l ls (hls.trans (List.suffix_cons _ _))⟩
  · rintro ⟨hhead, htail⟩ l ls hls
    rcases List.suffix_cons_iff.mp hls with heq | hls
    · obtain ⟨rfl, rfl⟩ := List.cons.inj heq
      exact hhead
    · exact htail l ls hls

theorem steady_cons {login before : Login} {earlier : List Login} :
    Steady server (login :: before :: earlier) ↔
      Follows server login before earlier ∧ Steady server (before :: earlier) := by
  constructor
  · intro h
    exact ⟨h _ _ _ (List.suffix_refl _),
      fun l b ls hls => h l b ls (hls.trans (List.suffix_cons _ _))⟩
  · rintro ⟨hhead, htail⟩ l b ls hls
    rcases List.suffix_cons_iff.mp hls with heq | hls
    · obtain ⟨rfl, hrest⟩ := List.cons.inj heq
      obtain ⟨rfl, rfl⟩ := List.cons.inj hrest
      exact hhead
    · exact htail l b ls hls

theorem steady_singleton (login : Login) : Steady server [login] := by
  intro l b ls hls
  have hlength := hls.length_le
  simp at hlength

theorem steady_nil : Steady server [] := by
  intro l b ls hls
  have hlength := hls.length_le
  simp at hlength

variable (server characters)

/-- From a new account on, every login is counted right exactly if no login leaves a day out, none
is a second one on day zero, and the table of rewards does not start over before the last one. -/
theorem streak_exact_iff (horder : InOrder logins) :
    AllRight server characters logins ↔ Steady server logins := by
  induction logins with
  | nil => exact iff_of_true (fun l ls hls => by simp at hls) steady_nil
  | cons login earlier ih =>
      have horder' : InOrder earlier := (List.pairwise_cons.mp horder).2
      rw [allRight_cons, ih horder']
      cases earlier with
      | nil => exact iff_of_true ⟨right_nil, steady_nil⟩ (steady_singleton login)
      | cons before earlier =>
          rw [steady_cons]
          refine and_congr_left fun hsteady => ?_
          have hbefore := (allRight_cons.mp ((ih horder').mpr hsteady)).1
          exact right_cons_iff horder hbefore

end Run

/-- Three days in a row and two logins on the last of them. -/
theorem streak_exact_iff_days :
    let server : Server := ⟨[], fun _ => [], []⟩
    let login (nowTimeSec : ℕ) : Login := ⟨0, nowTimeSec, nowTimeSec, false, 1⟩
    AllRight server (fun _ => {}) [login 260000, login 259300, login 172800, login 86400] ↔
      Steady server [login 260000, login 259300, login 172800, login 86400] := by
  intro server login
  exact streak_exact_iff server (fun _ => {}) (by simp [InOrder, login])

/-- A login on the second day of the clock and one two days later: the count stays, and nothing is
due. -/
theorem missed_day_not_reset :
    let server : Server := ⟨[], fun _ => [], []⟩
    let login (nowTimeSec : ℕ) : Login := ⟨0, nowTimeSec, nowTimeSec, false, 1⟩
    ¬ AllRight server (fun _ => {}) [login 432000, login 345600, login 172800, login 86400] ∧
      InOrder [login 432000, login 345600, login 172800, login 86400] ∧
      counted server (fun _ => {}) (login 345600) [login 172800, login 86400] =
        { LastLogOnTimeSec := 345600, ConsecutiveDaysLoggedIn := 2, PendingMinorUpdates := 3 } := by
  intro server login
  refine ⟨fun h => ?_, by simp [InOrder, login], by decide⟩
  have hright := h (login 345600) [login 172800, login 86400] (by simp)
  have hdue := hright.due.mpr (by decide)
  exact absurd hdue (by decide)

end Iceee.Daily
