import Iceee.Forum.Structure

/-!
# The order of the threads

A reply and a change of the sticky state sort the category of the thread while the store still has
the thread as it was, and write the thread afterwards. The order is right where the thread stood
before what is written now belongs behind it.

## Main results

* `ordered_after_iff`: when a category that was sorted first is in order for a thread written later.
* `orders_exact_iff`: a run keeps the order exactly if each of its steps was ready for it.
-/

namespace Iceee.Forum

open Lib

/-! ### What is to hold -/

/-- `a` may stand in front of `b`: stickied threads first, then the later updated ones. -/
def Ranks (a b : IGFThread) : Prop :=
  (b.mStickied = true → a.mStickied = true) ∧
    (a.mStickied = b.mStickied → b.mLastUpdateTime ≤ a.mLastUpdateTime)

/-- The stored list of a category is in the order of the stored threads. -/
def Ordered (m : IGFManager) (c : Int) : Prop :=
  (m.getPagedCategoryPtr c).mThreadList.Pairwise fun a b =>
    Ranks (m.getPagedThreadPtr a) (m.getPagedThreadPtr b)

/-- The update time or the sticky state of a thread is another one. -/
def Touched (m m' : IGFManager) (t : Int) : Prop :=
  (m'.getPagedThreadPtr t).mLastUpdateTime ≠ (m.getPagedThreadPtr t).mLastUpdateTime ∨
    (m'.getPagedThreadPtr t).mStickied ≠ (m.getPagedThreadPtr t).mStickied

/-- After a call that touches a thread, its category is in order. -/
def Orders (m : IGFManager) (c : Call) : Prop :=
  ∀ t, Touched m (m.call c).1 t →
    Ordered (m.call c).1 ((m.call c).1.getPagedThreadPtr t).mParentCategory

/-- The manager and the minutes that the clock showed last. -/
abbrev ForumState := IGFManager × ℕ

/-- Replies, edits, moves and sticky changes of threads that are there, by a clock that does not go
back. -/
def Admitted (s : ForumState) : Call → Prop
  | .sendPost _ type placementID _ _ _ _ clock =>
      s.2 ≤ clock.minutes ∧ (type = POST_REPLY ∧ placementID ∈ s.1.liveThreads ∨ type = POST_EDIT)
  | .editObject _ categoryType _ renameID _ =>
      categoryType = TYPE_THREAD ∧ renameID ∈ s.1.liveThreads
  | .runMove _ _ srcID _ _ => srcID ∈ s.1.liveThreads
  | .setStickyStatus _ _ objectID _ => objectID ∈ s.1.liveThreads
  | _ => False

/-- The clock after a call. -/
def clockAfter (now : ℕ) : Call → ℕ
  | .sendPost _ _ _ _ _ _ _ clock => clock.minutes
  | _ => now

/-- A call as a step, with the clock. -/
def timedStep (s : ForumState) (c : Call) : Option ForumState :=
  some ((s.1.call c).1, clockAfter s.2 c)

/-- No thread was updated after the clock. -/
structure UpToNow (s : ForumState) : Prop where
  wellformed : Wellformed s.1
  times : ∀ t ∈ s.1.liveThreads, (s.1.getPagedThreadPtr t).mLastUpdateTime ≤ s.2

/-! ### When a step is ready -/

/-- The checks that a reply passes. -/
structure AcceptsReply (m : IGFManager) (callerAccount : AccountData) (t : Int)
    (postBody displayName : Text) : Prop where
  unlocked : ¬(m.mForumLocked ∧ ¬callerAccount.admin)
  forumPost : callerAccount.forumPost
  body : ¬hasInvalidCharacters postBody true
  name : ¬hasInvalidCharacters displayName false
  thread : t ≠ 0
  threadOpen : ¬(m.getPagedThreadPtr t).mLocked
  length : ¬postBody.length > MAX_POST_LENGTH
  category : (m.getPagedThreadPtr t).mParentCategory ≠ 0

/-- The checks that a sticky change passes. -/
structure AcceptsSticky (m : IGFManager) (callerAccount : AccountData) (categoryType t : Int) :
    Prop where
  type : categoryType = TYPE_THREAD
  thread : t ≠ 0
  permission : m.getEditPermission callerAccount (-1)
  category : (m.getPagedThreadPtr t).mParentCategory ≠ 0

namespace IGFManager

variable (m : IGFManager)

/-- The threads next to a thread in its category. -/
def siblings (t : Int) : List Int :=
  (m.getPagedCategoryPtr (m.getPagedThreadPtr t).mParentCategory).mThreadList

/-- These threads as `sort` leaves them, by what the store has. -/
def sortedSiblings (t : Int) : List Int :=
  (m.sortCategoryThreads
    (m.getPagedCategoryPtr (m.getPagedThreadPtr t).mParentCategory)).mThreadList

/-- `s` comes in front of `t` when their category is sorted by what the store has. -/
def StoodBefore (s t : Int) : Prop := [s, t].Sublist (m.sortedSiblings t)

end IGFManager

/-- Every thread of the same sticky state that stood in front was updated in the same minute. -/
def ReadyReply (m : IGFManager) (t : Int) (now : ℕ) : Prop :=
  ∀ s ∈ m.siblings t, s ≠ t →
    (m.getPagedThreadPtr s).mStickied = (m.getPagedThreadPtr t).mStickied →
      m.StoodBefore s t → now ≤ (m.getPagedThreadPtr s).mLastUpdateTime

/-- A thread that becomes sticky stood in front of the ones that are not, and is not newer than the
ones that are. -/
def ReadyStick (m : IGFManager) (t : Int) : Prop :=
  ∀ s ∈ m.siblings t, s ≠ t →
    if (m.getPagedThreadPtr s).mStickied then
      (m.getPagedThreadPtr t).mLastUpdateTime ≤ (m.getPagedThreadPtr s).mLastUpdateTime
    else ¬ m.StoodBefore s t

/-- A thread that is no longer sticky stood behind the ones that are, and is not older than the ones
that are not. -/
def ReadyUnstick (m : IGFManager) (t : Int) : Prop :=
  ∀ s ∈ m.siblings t, s ≠ t →
    if (m.getPagedThreadPtr s).mStickied then m.StoodBefore s t
    else (m.getPagedThreadPtr s).mLastUpdateTime ≤ (m.getPagedThreadPtr t).mLastUpdateTime

/-- The condition of a call: a reply that is accepted, and a sticky change that is accepted and is
one, find the category ready. -/
def Ready (m : IGFManager) : Call → Prop
  | .sendPost callerAccount type placementID _ _ postBody displayName clock =>
      type = POST_REPLY → AcceptsReply m callerAccount placementID postBody displayName →
        ReadyReply m placementID clock.minutes
  | .setStickyStatus callerAccount categoryType objectID status =>
      AcceptsSticky m callerAccount categoryType objectID →
        (m.getPagedThreadPtr objectID).mStickied ≠ status →
          if status then ReadyStick m objectID else ReadyUnstick m objectID
  | _ => True

/-! ### The order that is sorted by -/

section Order

variable {m : IGFManager}

/-- Sorting puts a category in the order of what the store has. -/
theorem ranks_sortCategoryThreads (category : IGFCategory) :
    (m.sortCategoryThreads category).mThreadList.Pairwise fun a b =>
      Ranks (m.getPagedThreadPtr a) (m.getPagedThreadPtr b) := by
  have hstored {thread : IGFThread} (hmem : thread ∈ m.sort.sort
      ((category.mThreadList.map m.getPagedThreadPtr).filter fun t => t.mID ≠ 0)) :
      m.getPagedThreadPtr thread.mID = thread := by
    have hlisted := List.mem_of_mem_filter ((m.sort.perm _).mem_iff.mp hmem)
    obtain ⟨id, -, rfl⟩ := List.mem_map.mp hlisted
    rfl
  refine List.pairwise_map.mpr ((m.sort.sorted _).imp_of_mem fun ha hb hab => ?_)
  rw [hstored ha, hstored hb]
  exact sortsBefore_eq_false.mp hab

end Order

/-! ### A thread that is written after its category was sorted -/

section Written

variable {m m' : IGFManager} {t : Int}

/-- Every thread is listed once. -/
theorem Wellformed.nodup (h : Wellformed m) (c : Int) :
    (m.getPagedCategoryPtr c).mThreadList.Nodup := by
  refine List.nodup_iff_count_le_one.mpr fun id => ?_
  by_cases hid : id ∈ (m.getPagedCategoryPtr c).mThreadList
  · rw [h.count_eq (h.mem_live hid)]
    split <;> decide
  · rw [List.count_eq_zero.mpr hid]
    exact Nat.zero_le 1

/-- A thread that is there stands among its siblings. -/
theorem Wellformed.mem_siblings (h : Wellformed m) (ht : t ∈ m.liveThreads) : t ∈ m.siblings t :=
  List.count_pos_iff.mp (by rw [IGFManager.siblings, (h.listed t ht).1]; decide)

theorem Wellformed.perm_sortedSiblings (h : Wellformed m) (t : Int) :
    (m.sortedSiblings t).Perm (m.siblings t) :=
  IGFManager.sortCategoryThreads_perm (h.zero_notMem _)

/-- What did not stand in front stood behind. -/
theorem Wellformed.stoodBehind (h : Wellformed m) (ht : t ∈ m.liveThreads) {s : Int}
    (hs : s ∈ m.siblings t) (hne : s ≠ t) (hnot : ¬ m.StoodBefore s t) :
    [t, s].Sublist (m.sortedSiblings t) :=
  (pair_sublist_or ((h.perm_sortedSiblings t).mem_iff.mpr hs)
    ((h.perm_sortedSiblings t).mem_iff.mpr (h.mem_siblings ht)) hne).resolve_left hnot

/-- The category was sorted by what the store had, and one of its threads was written afterwards:
the order is right if every other thread is on the right side of it. -/
theorem ordered_after_iff (h : Wellformed m) (ht : t ∈ m.liveThreads) {thread : IGFThread}
    (hlist : (m'.getPagedCategoryPtr (m.getPagedThreadPtr t).mParentCategory).mThreadList =
      m.sortedSiblings t)
    (hthread : ∀ s, m'.getPagedThreadPtr s = if s = t then thread else m.getPagedThreadPtr s) :
    Ordered m' (m.getPagedThreadPtr t).mParentCategory ↔
      ∀ s ∈ m.siblings t, s ≠ t →
        (m.StoodBefore s t → Ranks (m.getPagedThreadPtr s) thread) ∧
          (¬ m.StoodBefore s t → Ranks thread (m.getPagedThreadPtr s)) := by
  have hperm := h.perm_sortedSiblings t
  have hother (a b : Int) (ha : a ≠ t) (hb : b ≠ t) (hab : [a, b].Sublist (m.sortedSiblings t)) :
      Ranks (m'.getPagedThreadPtr a) (m'.getPagedThreadPtr b) := by
    rw [hthread, hthread, if_neg ha, if_neg hb]
    exact (ranks_sortCategoryThreads _).forall_sublist hab
  unfold Ordered
  rw [hlist, pairwise_iff_of_changed (hperm.nodup_iff.mpr (h.nodup _))
    (hperm.mem_iff.mpr (h.mem_siblings ht)) hother]
  refine forall_congr' fun s => ?_
  rw [hperm.mem_iff]
  refine forall_congr' fun hs => forall_congr' fun hne => ?_
  rw [hthread s, hthread t, if_neg hne, if_pos rfl]
  rfl

/-- What stood in front of a thread ranks in front of it, and what did not behind it. -/
theorem ranks_of_stoodBefore {s : Int} (hs : m.StoodBefore s t) :
    Ranks (m.getPagedThreadPtr s) (m.getPagedThreadPtr t) :=
  (ranks_sortCategoryThreads _).forall_sublist hs

theorem ranks_of_not_stoodBefore (h : Wellformed m) (ht : t ∈ m.liveThreads) {s : Int}
    (hs : s ∈ m.siblings t) (hne : s ≠ t) (hnot : ¬ m.StoodBefore s t) :
    Ranks (m.getPagedThreadPtr t) (m.getPagedThreadPtr s) :=
  (ranks_sortCategoryThreads _).forall_sublist (h.stoodBehind ht hs hne hnot)

end Written

/-! ### The calls -/

section Calls

variable {m : IGFManager} {now t : Int} {callerAccount : AccountData} {c : Call}

theorem not_touched_self (m : IGFManager) (t : Int) : ¬ Touched m m t := by
  rintro (h | h)
  · exact h rfl
  · exact h rfl

/-- A call that leaves the store as it is, or changes only other fields of its threads. -/
theorem orders_of_untouched (h : ∀ t, ¬ Touched m (m.call c).1 t) : Orders m c :=
  fun t ht => absurd ht (h t)

/-- A call that sorts a category and then writes one of its threads. -/
theorem orders_iff (h : Wellformed m) (ht : t ∈ m.liveThreads) {thread : IGFThread}
    (hlist : ((m.call c).1.getPagedCategoryPtr (m.getPagedThreadPtr t).mParentCategory).mThreadList =
      m.sortedSiblings t)
    (hthread : ∀ s, (m.call c).1.getPagedThreadPtr s =
      if s = t then thread else m.getPagedThreadPtr s)
    (hparent : thread.mParentCategory = (m.getPagedThreadPtr t).mParentCategory) :
    Orders m c ↔
      (thread.mLastUpdateTime ≠ (m.getPagedThreadPtr t).mLastUpdateTime ∨
          thread.mStickied ≠ (m.getPagedThreadPtr t).mStickied) →
        ∀ s ∈ m.siblings t, s ≠ t →
          (m.StoodBefore s t → Ranks (m.getPagedThreadPtr s) thread) ∧
            (¬ m.StoodBefore s t → Ranks thread (m.getPagedThreadPtr s)) := by
  have hself : (m.call c).1.getPagedThreadPtr t = thread := by rw [hthread, if_pos rfl]
  have htouched : Touched m (m.call c).1 t ↔
      thread.mLastUpdateTime ≠ (m.getPagedThreadPtr t).mLastUpdateTime ∨
        thread.mStickied ≠ (m.getPagedThreadPtr t).mStickied := by
    unfold Touched
    rw [hself]
  rw [← ordered_after_iff h ht hlist hthread, ← htouched]
  constructor
  · intro horders htouch
    have hordered := horders t htouch
    rwa [hself, hparent] at hordered
  · intro hordered s hs
    by_cases hst : s = t
    · subst hst
      rw [hself, hparent]
      exact hordered hs
    · unfold Touched at hs
      rw [hthread, if_neg hst] at hs
      exact absurd hs (not_touched_self m s)

/-! #### Replies -/

section Reply

variable {postID : Int} {threadTitle postBody displayName : Text} {clock : Clock}

/-- A reply that is accepted sorts, and then writes the thread. -/
theorem sendPost_reply (h : AcceptsReply m callerAccount t postBody displayName) :
    ∃ post posts, (m.sendPost callerAccount POST_REPLY t postID threadTitle postBody displayName
        clock).1 =
      ((m.takePostID.writeCategory (m.sortCategoryThreads
        { m.getPagedCategoryPtr (m.getPagedThreadPtr t).mParentCategory with
          mLastUpdateTime := clock.minutes })).writeThread
        { m.getPagedThreadPtr t with mLastUpdateTime := clock.minutes, mPostList := posts }).writePost
          post := by
  have hthread : ¬ (m.getPagedThreadPtr t).mID = 0 := h.thread
  have hcategory :
      ¬ (m.getPagedCategoryPtr (m.getPagedThreadPtr t).mParentCategory).mID = 0 := h.category
  unfold IGFManager.sendPost
  rw [if_neg h.unlocked, if_neg (not_not.mpr h.forumPost), if_neg h.body, if_neg h.name,
    if_neg (by decide), if_pos rfl]
  dsimp only [IGFManager.appendPost]
  rw [if_neg hthread, if_neg h.threadOpen, if_neg h.length, if_neg hcategory]
  exact ⟨_, _, rfl⟩

theorem sendPost_reply_of_not (h : ¬ AcceptsReply m callerAccount t postBody displayName) :
    (m.sendPost callerAccount POST_REPLY t postID threadTitle postBody displayName clock).1 = m := by
  unfold IGFManager.sendPost
  split
  · rfl
  next hunlocked =>
  split
  · rfl
  next hpost =>
  split
  · rfl
  next hbody =>
  split
  · rfl
  next hname =>
  rw [if_neg (by decide), if_pos rfl]
  dsimp only [IGFManager.appendPost]
  split
  · rfl
  next hthread =>
  split
  · rfl
  next hopen =>
  split
  · rfl
  next hlength =>
  split
  · rfl
  next hcategory =>
  exact absurd ⟨hunlocked, not_not.mp hpost, hbody, hname, hthread, hopen, hlength, hcategory⟩ h

/-- A reply is right about the order if its thread stood in front of the others of its sticky
state. -/
theorem orders_reply_iff {s : ForumState} (h : UpToNow s) (ht : t ∈ s.1.liveThreads)
    (hclock : s.2 ≤ clock.minutes)
    (haccepts : AcceptsReply s.1 callerAccount t postBody displayName) :
    Orders s.1 (.sendPost callerAccount POST_REPLY t postID threadTitle postBody displayName clock) ↔
      ReadyReply s.1 t clock.minutes := by
  obtain ⟨post, posts, heq⟩ := @sendPost_reply s.1 t callerAccount postID threadTitle postBody
    displayName clock haccepts
  set thread : IGFThread := { s.1.getPagedThreadPtr t with
    mLastUpdateTime := clock.minutes, mPostList := posts } with hthread
  have hwrite (u : Int) : (s.1.call (.sendPost callerAccount POST_REPLY t postID threadTitle postBody
      displayName clock)).1.getPagedThreadPtr u =
        if u = t then thread else s.1.getPagedThreadPtr u := by
    change (s.1.sendPost callerAccount POST_REPLY t postID threadTitle postBody displayName
      clock).1.getPagedThreadPtr u = _
    rw [heq]
    exact IGFManager.getPagedThreadPtr_writeThread thread
  have hlist : ((s.1.call (.sendPost callerAccount POST_REPLY t postID threadTitle postBody
      displayName clock)).1.getPagedCategoryPtr
        (s.1.getPagedThreadPtr t).mParentCategory).mThreadList =
      s.1.sortedSiblings t := by
    change ((s.1.sendPost callerAccount POST_REPLY t postID threadTitle postBody displayName
      clock).1.getPagedCategoryPtr _).mThreadList = _
    rw [heq]
    change ((IGFManager.writeCategory _ _).getPagedCategoryPtr _).mThreadList = _
    rw [IGFManager.getPagedCategoryPtr_writeCategory]
    split
    · rfl
    · next hne => exact absurd rfl hne
  rw [orders_iff h.wellformed ht hlist hwrite rfl]
  unfold ReadyReply
  constructor
  · intro hready u hu hne hsame hbefore
    by_cases hnow : clock.minutes = (s.1.getPagedThreadPtr t).mLastUpdateTime
    · exact hnow ▸ (ranks_of_stoodBefore hbefore).2 hsame
    · exact ((hready (.inl hnow) u hu hne).1 hbefore).2 hsame
  · intro hready _ u hu hne
    constructor
    · intro hbefore
      exact ⟨(ranks_of_stoodBefore hbefore).1, fun hsame => hready u hu hne hsame hbefore⟩
    · intro hnot
      have htime := h.times u (h.wellformed.mem_live hu)
      exact ⟨(ranks_of_not_stoodBefore h.wellformed ht hu hne hnot).1,
        fun _ => htime.trans hclock⟩

end Reply

/-! #### Sticky changes -/

section Sticky

variable {categoryType : Int} {status : Bool}

/-- A sticky change that is accepted sorts, and then writes the thread. -/
theorem setStickyStatus_eq (h : AcceptsSticky m callerAccount categoryType t) :
    (m.setStickyStatus callerAccount categoryType t status).1 =
      (m.writeThread { m.getPagedThreadPtr t with mStickied := status }).writeCategory
        (m.sortCategoryThreads
          (m.getPagedCategoryPtr (m.getPagedThreadPtr t).mParentCategory)) := by
  have hthread : ¬ (m.getPagedThreadPtr t).mID = 0 := h.thread
  have hcategory :
      ¬ (m.getPagedCategoryPtr (m.getPagedThreadPtr t).mParentCategory).mID = 0 := h.category
  unfold IGFManager.setStickyStatus
  dsimp only
  rw [if_neg (not_not.mpr h.type), if_neg hthread, if_neg (not_not.mpr h.permission),
    if_neg hcategory]

theorem setStickyStatus_of_not (h : ¬ AcceptsSticky m callerAccount categoryType t) :
    (m.setStickyStatus callerAccount categoryType t status).1 = m := by
  unfold IGFManager.setStickyStatus
  dsimp only
  split
  · rfl
  next htype =>
  split
  · rfl
  next hthread =>
  split
  · rfl
  next hpermission =>
  split
  · rfl
  next hcategory =>
  exact absurd ⟨not_not.mp htype, hthread, not_not.mp hpermission, hcategory⟩ h

/-- A thread that becomes sticky: which threads are on the right side of it. -/
theorem ranks_stick_iff (h : Wellformed m) (ht : t ∈ m.liveThreads)
    (hold : (m.getPagedThreadPtr t).mStickied = false) {thread : IGFThread}
    (hthread : thread = { m.getPagedThreadPtr t with mStickied := true }) {s : Int}
    (hs : s ∈ m.siblings t) (hne : s ≠ t) :
    ((m.StoodBefore s t → Ranks (m.getPagedThreadPtr s) thread) ∧
        (¬ m.StoodBefore s t → Ranks thread (m.getPagedThreadPtr s))) ↔
      if (m.getPagedThreadPtr s).mStickied then
        (m.getPagedThreadPtr t).mLastUpdateTime ≤ (m.getPagedThreadPtr s).mLastUpdateTime
      else ¬ m.StoodBefore s t := by
  subst hthread
  cases hsticky : (m.getPagedThreadPtr s).mStickied with
  | true =>
      -- a stickied thread stood in front of one that is not
      have hbefore : m.StoodBefore s t := by
        by_contra hnot
        have hrank := (ranks_of_not_stoodBefore h ht hs hne hnot).1 hsticky
        rw [hold] at hrank
        cases hrank
      simp [hbefore, Ranks, hsticky]
  | false =>
      by_cases hbefore : m.StoodBefore s t
      · simp [hbefore, Ranks, hsticky]
      · simp [hbefore, Ranks, hsticky]

/-- A thread that is no longer sticky. -/
theorem ranks_unstick_iff (hold : (m.getPagedThreadPtr t).mStickied = true) {thread : IGFThread}
    (hthread : thread = { m.getPagedThreadPtr t with mStickied := false }) {s : Int} :
    ((m.StoodBefore s t → Ranks (m.getPagedThreadPtr s) thread) ∧
        (¬ m.StoodBefore s t → Ranks thread (m.getPagedThreadPtr s))) ↔
      if (m.getPagedThreadPtr s).mStickied then m.StoodBefore s t
      else (m.getPagedThreadPtr s).mLastUpdateTime ≤ (m.getPagedThreadPtr t).mLastUpdateTime := by
  subst hthread
  cases hsticky : (m.getPagedThreadPtr s).mStickied with
  | true =>
      by_cases hbefore : m.StoodBefore s t
      · simp [hbefore, Ranks, hsticky]
      · simp [hbefore, Ranks, hsticky]
  | false =>
      -- one that is not stickied stood behind
      have hbehind : ¬ m.StoodBefore s t := by
        intro hbefore
        have hrank := (ranks_of_stoodBefore hbefore).1 hold
        rw [hsticky] at hrank
        cases hrank
      simp [hbehind, Ranks, hsticky]

/-- A sticky change is right about the order if it found the category ready. -/
theorem orders_sticky_iff (h : Wellformed m) (ht : t ∈ m.liveThreads)
    (haccepts : AcceptsSticky m callerAccount categoryType t) :
    Orders m (.setStickyStatus callerAccount categoryType t status) ↔
      ((m.getPagedThreadPtr t).mStickied ≠ status →
        if status then ReadyStick m t else ReadyUnstick m t) := by
  have heq := @setStickyStatus_eq m t callerAccount categoryType status haccepts
  obtain ⟨thread, hthread⟩ : ∃ thread : IGFThread,
    thread = { m.getPagedThreadPtr t with mStickied := status } := ⟨_, rfl⟩
  rw [← hthread] at heq
  have hid : thread.mID = t := by rw [hthread]; rfl
  have hwrite (u : Int) : (m.call (.setStickyStatus callerAccount categoryType t
      status)).1.getPagedThreadPtr u = if u = t then thread else m.getPagedThreadPtr u := by
    change (m.setStickyStatus callerAccount categoryType t status).1.getPagedThreadPtr u = _
    rw [heq, IGFManager.getPagedThreadPtr_writeCategory, IGFManager.getPagedThreadPtr_writeThread,
      hid]
  have hlist : ((m.call (.setStickyStatus callerAccount categoryType t
      status)).1.getPagedCategoryPtr (m.getPagedThreadPtr t).mParentCategory).mThreadList =
        m.sortedSiblings t := by
    change ((m.setStickyStatus callerAccount categoryType t status).1.getPagedCategoryPtr
      _).mThreadList = _
    rw [heq, IGFManager.getPagedCategoryPtr_writeCategory]
    split
    · rfl
    · next hne => exact absurd rfl hne
  have hparent : thread.mParentCategory = (m.getPagedThreadPtr t).mParentCategory := by
    rw [hthread]
  have htouch : (thread.mLastUpdateTime ≠ (m.getPagedThreadPtr t).mLastUpdateTime ∨
      thread.mStickied ≠ (m.getPagedThreadPtr t).mStickied) ↔
        (m.getPagedThreadPtr t).mStickied ≠ status := by
    rw [hthread]
    exact ⟨fun hor => (hor.resolve_left (not_not.mpr rfl)).symm, fun hne => .inr hne.symm⟩
  rw [orders_iff h ht hlist hwrite hparent, htouch]
  refine forall_congr' fun hchange => ?_
  cases status with
  | true =>
      have hold : (m.getPagedThreadPtr t).mStickied = false := Bool.eq_false_iff.mpr hchange
      rw [if_pos rfl]
      exact forall_congr' fun s => forall_congr' fun hs => forall_congr' fun hne =>
        ranks_stick_iff h ht hold hthread hs hne
  | false =>
      have hold : (m.getPagedThreadPtr t).mStickied = true := Bool.eq_true_of_not_eq_false hchange
      rw [if_neg Bool.false_ne_true]
      exact forall_congr' fun s => forall_congr' fun _ => forall_congr' fun _ =>
        ranks_unstick_iff hold hthread

end Sticky

/-! #### The other calls -/

/-- What a call leaves of the threads that are there: only a reply gives one a new time. -/
structure Spares (m m' : IGFManager) (minutes : ℕ) : Prop where
  live : m'.liveThreads = m.liveThreads
  times : ∀ t, (m'.getPagedThreadPtr t).mLastUpdateTime = (m.getPagedThreadPtr t).mLastUpdateTime ∨
    (m'.getPagedThreadPtr t).mLastUpdateTime = minutes

theorem Spares.refl (m : IGFManager) (minutes : ℕ) : Spares m m minutes := ⟨rfl, fun _ => .inl rfl⟩

/-- An edit of a post finds no thread. -/
theorem sendPost_edit (placementID postID : Int) (threadTitle postBody displayName : Text)
    (clock : Clock) :
    (m.sendPost callerAccount POST_EDIT placementID postID threadTitle postBody displayName
      clock).1 = m := by
  unfold IGFManager.sendPost
  split
  · rfl
  split
  · rfl
  split
  · rfl
  split
  · rfl
  rfl

/-- Another title. -/
theorem editObject_spec (parentID renameID : Int) (name : Text) :
    (m.editObject callerAccount TYPE_THREAD parentID renameID name).1 = m ∨
      (m.editObject callerAccount TYPE_THREAD parentID renameID name).1 =
        m.writeThread { m.getPagedThreadPtr renameID with mTitle := name } := by
  unfold IGFManager.editObject
  split
  · exact .inl rfl
  split
  · exact .inl rfl
  split
  · exact .inl rfl
  rw [if_neg (by decide), if_pos rfl]
  split
  · exact .inl rfl
  split
  · dsimp only
    split
    · exact .inl rfl
    · exact .inr rfl
  · exact .inl rfl

/-- Another category. -/
theorem runMove_spec (srcType srcID dstType dstID : Int) :
    (m.runMove callerAccount srcType srcID dstType dstID).1 = m ∨
      ∃ src dst, (m.runMove callerAccount srcType srcID dstType dstID).1 =
        ((m.writeThread { m.getPagedThreadPtr srcID with mParentCategory := dstID }).writeCategory
          src).writeCategory dst := by
  unfold IGFManager.runMove
  split
  · exact .inl rfl
  split
  · exact .inl rfl
  split
  · exact .inl rfl
  dsimp only
  split
  · exact .inl rfl
  split
  · exact .inl rfl
  split
  · exact .inl rfl
  split
  · exact .inl rfl
  · exact .inr ⟨_, _, rfl⟩

/-- A thread that is written with its time and its sticky state. -/
theorem untouched_writeThread {thread : IGFThread}
    (htime : thread.mLastUpdateTime = (m.getPagedThreadPtr thread.mID).mLastUpdateTime)
    (hsticky : thread.mStickied = (m.getPagedThreadPtr thread.mID).mStickied) (t : Int) :
    ((m.writeThread thread).getPagedThreadPtr t).mLastUpdateTime =
        (m.getPagedThreadPtr t).mLastUpdateTime ∧
      ((m.writeThread thread).getPagedThreadPtr t).mStickied =
        (m.getPagedThreadPtr t).mStickied := by
  rw [IGFManager.getPagedThreadPtr_writeThread]
  split
  · next heq => exact heq ▸ ⟨htime, hsticky⟩
  · exact ⟨rfl, rfl⟩

end Calls

/-! ### Runs -/

section Run

variable {s s' : ForumState} {c : Call}

/-- A call that leaves the store as it is. -/
theorem orders_of_eq (heq : (s.1.call c).1 = s.1) : Orders s.1 c := by
  refine orders_of_untouched fun t => ?_
  rw [heq]
  exact not_touched_self s.1 t

/-- One call is right about the order exactly if it was ready. -/
theorem orders_iff_ready (h : UpToNow s) (hc : Admitted s c) : Orders s.1 c ↔ Ready s.1 c := by
  cases c with
  | sendPost callerAccount type placementID postID threadTitle postBody displayName clock =>
      obtain ⟨hclock, ⟨rfl, ht⟩ | rfl⟩ := hc
      · by_cases haccepts : AcceptsReply s.1 callerAccount placementID postBody displayName
        · rw [orders_reply_iff h ht hclock haccepts]
          exact ⟨fun hready _ _ => hready, fun hready => hready rfl haccepts⟩
        · exact iff_of_true (orders_of_eq (sendPost_reply_of_not haccepts))
            fun _ hno => absurd hno haccepts
      · exact iff_of_true (orders_of_eq (sendPost_edit _ _ _ _ _ _))
          fun htype => absurd htype (by decide)
  | setStickyStatus callerAccount categoryType objectID status =>
      by_cases haccepts : AcceptsSticky s.1 callerAccount categoryType objectID
      · rw [orders_sticky_iff h.wellformed hc haccepts]
        exact ⟨fun hready _ => hready, fun hready => hready haccepts⟩
      · exact iff_of_true (orders_of_eq (setStickyStatus_of_not haccepts))
          fun hno => absurd hno haccepts
  | editObject callerAccount categoryType parentID renameID name =>
      obtain ⟨rfl, -⟩ := hc
      refine iff_of_true (orders_of_untouched fun t => ?_) trivial
      change ¬ Touched s.1 (s.1.editObject callerAccount TYPE_THREAD parentID renameID name).1 t
      rcases @editObject_spec s.1 callerAccount parentID renameID name with heq | heq
      · rw [heq]
        exact not_touched_self s.1 t
      · rw [heq]
        obtain ⟨htime, hsticky⟩ := @untouched_writeThread s.1
          { s.1.getPagedThreadPtr renameID with mTitle := name } rfl rfl t
        exact not_or.mpr ⟨not_not.mpr htime, not_not.mpr hsticky⟩
  | runMove callerAccount srcType srcID dstType dstID =>
      refine iff_of_true (orders_of_untouched fun t => ?_) trivial
      change ¬ Touched s.1 (s.1.runMove callerAccount srcType srcID dstType dstID).1 t
      rcases @runMove_spec s.1 callerAccount srcType srcID dstType dstID with heq | ⟨src, dst, heq⟩
      · rw [heq]
        exact not_touched_self s.1 t
      · rw [heq]
        obtain ⟨htime, hsticky⟩ := @untouched_writeThread s.1
          { s.1.getPagedThreadPtr srcID with mParentCategory := dstID } rfl rfl t
        exact not_or.mpr ⟨not_not.mpr htime, not_not.mpr hsticky⟩
  | createCategory => exact hc.elim
  | deletePost => exact hc.elim
  | deleteObject => exact hc.elim
  | setLockStatus => exact hc.elim

/-- The times that a call leaves. -/
theorem spares_call (hc : Admitted s c) : Spares s.1 (s.1.call c).1 (clockAfter s.2 c) := by
  have hwrite {m' : IGFManager} {thread : IGFThread} {minutes : ℕ}
      (hlive : m'.liveThreads = s.1.liveThreads)
      (hthread : ∀ u, m'.getPagedThreadPtr u = (s.1.writeThread thread).getPagedThreadPtr u)
      (htime : thread.mLastUpdateTime = (s.1.getPagedThreadPtr thread.mID).mLastUpdateTime ∨
        thread.mLastUpdateTime = minutes) : Spares s.1 m' minutes := by
    refine ⟨hlive, fun u => ?_⟩
    rw [hthread, IGFManager.getPagedThreadPtr_writeThread]
    split
    · next heq => exact heq ▸ htime
    · exact .inl rfl
  cases c with
  | sendPost callerAccount type placementID postID threadTitle postBody displayName clock =>
      change Spares s.1 (s.1.sendPost callerAccount type placementID postID threadTitle postBody
        displayName clock).1 clock.minutes
      obtain ⟨-, ⟨rfl, -⟩ | rfl⟩ := hc
      · by_cases haccepts : AcceptsReply s.1 callerAccount placementID postBody displayName
        · obtain ⟨post, posts, heq⟩ := @sendPost_reply s.1 placementID callerAccount postID
            threadTitle postBody displayName clock haccepts
          rw [heq]
          exact hwrite rfl (fun _ => rfl) (.inr rfl)
        · rw [sendPost_reply_of_not haccepts]
          exact .refl _ _
      · rw [sendPost_edit]
        exact .refl _ _
  | setStickyStatus callerAccount categoryType objectID status =>
      change Spares s.1 (s.1.setStickyStatus callerAccount categoryType objectID status).1 s.2
      by_cases haccepts : AcceptsSticky s.1 callerAccount categoryType objectID
      · rw [setStickyStatus_eq haccepts]
        exact hwrite rfl (fun _ => rfl) (.inl rfl)
      · rw [setStickyStatus_of_not haccepts]
        exact .refl _ _
  | editObject callerAccount categoryType parentID renameID name =>
      obtain ⟨rfl, -⟩ := hc
      change Spares s.1 (s.1.editObject callerAccount TYPE_THREAD parentID renameID name).1 s.2
      rcases @editObject_spec s.1 callerAccount parentID renameID name with heq | heq
      · rw [heq]
        exact .refl _ _
      · rw [heq]
        exact hwrite rfl (fun _ => rfl) (.inl rfl)
  | runMove callerAccount srcType srcID dstType dstID =>
      change Spares s.1 (s.1.runMove callerAccount srcType srcID dstType dstID).1 s.2
      rcases @runMove_spec s.1 callerAccount srcType srcID dstType dstID with heq | ⟨src, dst, heq⟩
      · rw [heq]
        exact .refl _ _
      · rw [heq]
        exact hwrite rfl (fun _ => rfl) (.inl rfl)
  | createCategory => exact hc.elim
  | deletePost => exact hc.elim
  | deleteObject => exact hc.elim
  | setLockStatus => exact hc.elim

theorem le_clockAfter (hc : Admitted s c) : s.2 ≤ clockAfter s.2 c := by
  cases c with
  | sendPost => exact hc.1
  | _ => exact le_rfl

/-- No admitted call breaks the structure of the forum. -/
theorem Admitted.inOrder (hc : Admitted s c) : InOrder s.1 c := by
  cases c with
  | sendPost =>
      obtain ⟨-, ⟨rfl, -⟩ | rfl⟩ := hc
      · exact fun htype => absurd htype (by decide)
      · exact fun htype => absurd htype (by decide)
  | editObject =>
      obtain ⟨rfl, -⟩ := hc
      exact fun htype => absurd htype (by decide)
  | createCategory => exact hc.elim
  | deletePost => exact hc.elim
  | deleteObject => exact hc.elim
  | setLockStatus => exact hc.elim
  | _ => trivial

/-- What one call preserves. -/
theorem UpToNow.step (h : UpToNow s) (hc : Admitted s c) (hs : timedStep s c = some s') :
    UpToNow s' := by
  obtain rfl := Option.some.inj hs
  have hspares := spares_call hc
  refine ⟨h.wellformed.call hc.inOrder, fun t ht => ?_⟩
  have hlive : t ∈ s.1.liveThreads := hspares.live ▸ ht
  rcases hspares.times t with htime | htime
  · exact htime.trans_le ((h.times t hlive).trans (le_clockAfter hc))
  · exact htime.le

/-- In a run of replies, edits, moves and sticky changes every call that touches a thread leaves its
category in order exactly if every reply and every sticky change found it ready. -/
theorem orders_exact_iff {h : List (ForumState × Call)}
    (run : Trace UpToNow Admitted timedStep h s) :
    (∀ e ∈ h, Orders e.1.1 e.2) ↔ ∀ e ∈ h, Ready e.1.1 e.2 := by
  have hinv : UpToNow s ∧ ∀ e ∈ h, UpToNow e.1 := by
    induction run with
    | start h0 => exact ⟨h0, List.forall_mem_nil _⟩
    | next _ hok hs ih => exact ⟨ih.1.step hok hs, List.forall_mem_cons.mpr ih⟩
  exact forall_congr' fun e => forall_congr' fun he =>
    orders_iff_ready (hinv.2 e he) (run.ok_of_mem he)

end Run

/-! ### Threads about swords and shields -/

/-- A category with two threads, the later updated one first. -/
def shieldForum : IGFManager where
  categories id :=
    if id = 1 then some { mID := 1 }
    else if id = 2 then some { mID := 2, mParentCategory := 1, mThreadList := [1, 2] }
    else none
  threads id :=
    if id = 1 then some { mID := 1, mParentCategory := 2, mLastUpdateTime := 5 }
    else if id = 2 then some { mID := 2, mParentCategory := 2, mLastUpdateTime := 3 }
    else none
  nextCategoryID := 2
  nextThreadID := 2
  liveThreads := [1, 2]

theorem upToNow_shieldForum : UpToNow (shieldForum, 5) := by
  have hlist (c id : Int) :
      id ∈ (shieldForum.getPagedCategoryPtr c).mThreadList ↔ c = 2 ∧ (id = 1 ∨ id = 2) := by
    simp only [IGFManager.getPagedCategoryPtr, shieldForum]
    split_ifs with h1 h2 <;> simp [*]
  have hposts (t id : Int) : id ∉ (shieldForum.getPagedThreadPtr t).mPostList := by
    simp only [IGFManager.getPagedThreadPtr, shieldForum]
    split_ifs <;> simp
  refine ⟨?_, by decide⟩
  exact {
    listed := fun id hid => by
      have hid' : id = 1 ∨ id = 2 := by simpa [shieldForum] using hid
      have hparent : (shieldForum.getPagedThreadPtr id).mParentCategory = 2 := by
        rcases hid' with rfl | rfl <;> rfl
      rw [hparent]
      refine ⟨?_, fun c hc hmem => hc ((hlist c id).mp hmem).1⟩
      rcases hid' with rfl | rfl <;> decide
    exist := fun c id hid => by
      rcases ((hlist c id).mp hid).2 with rfl | rfl <;> rfl
    posts := fun t id hid => absurd hid (hposts t id)
    enumerated := fun id hid => by cases hid
    live := fun id => by
      simp only [IGFManager.getPagedThreadPtr, shieldForum]
      split_ifs with h1 h2 <;> simp [*]
    parent := fun c id hid => by
      obtain ⟨rfl, rfl | rfl⟩ := (hlist c id).mp hid <;> exact ⟨rfl, by decide⟩
    counter := by decide
    belowThread := by decide
    belowPost := fun id hid => by cases hid
    belowCategory := fun id hid => by cases hid }

def shieldReply (t : Int) : Call :=
  .sendPost swordAdmin POST_REPLY t 0 [] "A round one.".toList "Bob".toList { minutes := 7 }

theorem admitted_shieldReply {t : Int} (ht : t ∈ shieldForum.liveThreads) :
    Admitted (shieldForum, 5) (shieldReply t) := ⟨by decide, .inl ⟨rfl, ht⟩⟩

/-- The thread that stood first gets a reply and becomes sticky. -/
theorem shieldForum_orders :
    ∃ h s, Trace UpToNow Admitted timedStep h s ∧ h.length = 2 ∧
      ((∀ e ∈ h, Orders e.1.1 e.2) ↔ ∀ e ∈ h, Ready e.1.1 e.2) := by
  have start : Trace UpToNow Admitted timedStep [] (shieldForum, 5) := .start upToNow_shieldForum
  have replied := start.next (a := shieldReply 1) (admitted_shieldReply (by decide)) rfl
  have hlive : 1 ∈ (shieldForum.call (shieldReply 1)).1.liveThreads := by decide
  have hsticky : Admitted ((shieldForum.call (shieldReply 1)).1, 7)
    (.setStickyStatus swordAdmin TYPE_THREAD 1 true) := hlive
  have run := replied.next hsticky rfl
  exact ⟨_, _, run, rfl, orders_exact_iff run⟩

/-- The second thread gets a reply and stays behind the first one. -/
theorem reply_not_in_front :
    ¬ ∀ h s, Trace UpToNow Admitted timedStep h s → ∀ e ∈ h, Orders e.1.1 e.2 := by
  intro hall
  have start : Trace UpToNow Admitted timedStep [] (shieldForum, 5) := .start upToNow_shieldForum
  have run := start.next (a := shieldReply 2) (admitted_shieldReply (by decide)) rfl
  have haccepts : AcceptsReply shieldForum swordAdmin 2 "A round one.".toList "Bob".toList :=
    ⟨by decide, by decide, by decide, by decide, by decide, by decide,
      by decide, by decide⟩
  have hready := (orders_reply_iff upToNow_shieldForum (by decide) (by decide) haccepts).mp
    (hall _ _ run _ List.mem_cons_self)
  have hbefore : shieldForum.StoodBefore 1 2 := by
    unfold IGFManager.StoodBefore
    decide
  exact absurd (hready 1 (by decide) (by decide) rfl hbefore) (by decide)

end Iceee.Forum
