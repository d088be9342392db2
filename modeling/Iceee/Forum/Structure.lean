import Iceee.Forum.Manager
import Iceee.Lib.Trace

/-!
# The structure of the forum

A new thread is put in a copy of its category that is not saved, and no category is ever put in the
list that is enumerated. Beside these two, only the deletion of a category in which there are threads
breaks the structure: every other call keeps it.
-/

namespace Iceee.Forum

open Lib

/-! ### What is to hold -/

/-- A category is among those that are enumerated for its parent. -/
def Enumerated (m : IGFManager) (id : Int) : Prop :=
  ∃ row ∈ m.enumCategoryList (m.getPagedCategoryPtr id).mParentCategory,
    row[1]? = some (printInt id)

/-- What holds between categories, threads and posts. -/
structure Structured (m : IGFManager) : Prop where
  listed : ∀ id ∈ m.liveThreads,
    (m.getPagedCategoryPtr (m.getPagedThreadPtr id).mParentCategory).mThreadList.count id = 1 ∧
      ∀ c, c ≠ (m.getPagedThreadPtr id).mParentCategory →
        id ∉ (m.getPagedCategoryPtr c).mThreadList
  exist : ∀ c, ∀ id ∈ (m.getPagedCategoryPtr c).mThreadList, (m.threads id).isSome
  posts : ∀ t, ∀ id ∈ (m.getPagedThreadPtr t).mPostList,
    (∃ p, m.posts id = some p ∧ p.mParentThread = t) ∧
      ∀ t', t' ≠ t → id ∉ (m.getPagedThreadPtr t').mPostList
  enumerated : ∀ id ∈ m.liveCategories, Enumerated m id

/-- Structured, with what a store has that only calls have written: a thread that is not deleted is
one with a parent, what is listed has that parent, and the IDs come from the counters. -/
structure Wellformed (m : IGFManager) : Prop extends Structured m where
  live : ∀ id, id ∈ m.liveThreads ↔ (m.getPagedThreadPtr id).mParentCategory ≠ 0
  parent : ∀ c, ∀ id ∈ (m.getPagedCategoryPtr c).mThreadList,
    (m.getPagedThreadPtr id).mParentCategory = c ∧ c ≠ 0
  counter : 0 ≤ m.nextThreadID
  belowThread : ∀ id ∈ m.liveThreads, 0 < id ∧ id ≤ m.nextThreadID
  belowPost : ∀ id, (m.posts id).isSome → id ≤ m.nextPostID
  belowCategory : ∀ id ∈ m.categoryList, id ≤ m.nextCategoryID

/-! ### Reading what was written -/

namespace IGFManager

variable {m : IGFManager} {id c : Int}

@[simp] theorem getPagedCategoryPtr_mID : (m.getPagedCategoryPtr id).mID = id := rfl

@[simp] theorem getPagedThreadPtr_mID : (m.getPagedThreadPtr id).mID = id := rfl

@[simp] theorem getPagedPostPtr_mID : (m.getPagedPostPtr id).mID = id := rfl

@[simp] theorem getPagedThreadPtr_writeCategory (category : IGFCategory) :
    (m.writeCategory category).getPagedThreadPtr id = m.getPagedThreadPtr id := rfl

@[simp] theorem getPagedCategoryPtr_writeThread (thread : IGFThread) :
    (m.writeThread thread).getPagedCategoryPtr id = m.getPagedCategoryPtr id := rfl

theorem getPagedCategoryPtr_writeCategory (category : IGFCategory) :
    (m.writeCategory category).getPagedCategoryPtr id =
      if id = category.mID then category else m.getPagedCategoryPtr id := by
  rw [getPagedCategoryPtr, writeCategory]
  dsimp only
  split
  · next h => rw [h, Function.update_self]; rfl
  · next h => rw [Function.update_of_ne h]; rfl

theorem getPagedThreadPtr_writeThread (thread : IGFThread) :
    (m.writeThread thread).getPagedThreadPtr id =
      if id = thread.mID then thread else m.getPagedThreadPtr id := by
  rw [getPagedThreadPtr, writeThread]
  dsimp only
  split
  · next h => rw [h, Function.update_self]; rfl
  · next h => rw [Function.update_of_ne h]; rfl

theorem getPagedThreadPtr_removeThread (t : Int) :
    (m.removeThread t).getPagedThreadPtr id =
      if id = t then { mID := t } else m.getPagedThreadPtr id := by
  rw [getPagedThreadPtr, removeThread]
  dsimp only
  split
  · next h => rw [h, Function.update_self]; rfl
  · next h => rw [Function.update_of_ne h]; rfl

/-- Sorting leaves the same threads. -/
theorem sortCategoryThreads_perm {category : IGFCategory} (h : (0 : Int) ∉ category.mThreadList) :
    (m.sortCategoryThreads category).mThreadList.Perm category.mThreadList := by
  have hall : (category.mThreadList.map m.getPagedThreadPtr).filter (fun t => t.mID ≠ 0) =
      category.mThreadList.map m.getPagedThreadPtr := by
    apply List.filter_eq_self.mpr
    intro t ht
    obtain ⟨id, hid, rfl⟩ := List.mem_map.mp ht
    have hne : id ≠ 0 := fun h0 => h (h0 ▸ hid)
    simp [hne]
  have hperm := (m.sort.perm (category.mThreadList.map m.getPagedThreadPtr)).map IGFThread.mID
  rw [List.map_map] at hperm
  have hid : category.mThreadList.map (IGFThread.mID ∘ m.getPagedThreadPtr) =
      category.mThreadList := List.map_id _
  rw [hid] at hperm
  rw [sortCategoryThreads, hall]
  exact hperm

/-- A category is enumerated for its parent when it is in the list. -/
theorem enumerated_iff : Enumerated m id ↔ id ∈ m.categoryList := by
  constructor
  · rintro ⟨row, hrow, hid⟩
    obtain ⟨category, hmem, rfl⟩ := List.mem_map.mp hrow
    obtain ⟨listed, hlisted, rfl⟩ := List.mem_map.mp (List.mem_of_mem_filter hmem)
    have hsame : printInt listed = printInt id := Option.some.inj hid
    have heq := congrArg parseInt hsame
    rw [parseInt_printInt, parseInt_printInt] at heq
    exact heq ▸ hlisted
  · intro h
    refine ⟨_, List.mem_map_of_mem (List.mem_filter.mpr ⟨List.mem_map_of_mem h, ?_⟩), rfl⟩
    exact decide_eq_true rfl

end IGFManager

/-! ### What keeps the structure -/

namespace Wellformed

variable {m m' : IGFManager} {id c t : Int}

/-- A post that has one parent is in no other thread. -/
theorem posts_of_parent
    (h : ∀ t, ∀ id ∈ (m.getPagedThreadPtr t).mPostList,
      ∃ p, m.posts id = some p ∧ p.mParentThread = t) :
    ∀ t, ∀ id ∈ (m.getPagedThreadPtr t).mPostList,
      (∃ p, m.posts id = some p ∧ p.mParentThread = t) ∧
        ∀ t', t' ≠ t → id ∉ (m.getPagedThreadPtr t').mPostList := by
  intro t id hid
  refine ⟨h t id hid, fun t' hne hid' => hne ?_⟩
  obtain ⟨p, hp, rfl⟩ := h t id hid
  obtain ⟨p', hp', rfl⟩ := h t' id hid'
  rw [Option.some.inj (hp.symm.trans hp')]

theorem mem_live (h : Wellformed m) (hid : id ∈ (m.getPagedCategoryPtr c).mThreadList) :
    id ∈ m.liveThreads := by
  obtain ⟨hparent, hc⟩ := h.parent c id hid
  exact (h.live id).mpr (hparent ▸ hc)

theorem zero_notMem (h : Wellformed m) (c : Int) :
    (0 : Int) ∉ (m.getPagedCategoryPtr c).mThreadList := fun hid =>
  absurd (h.belowThread 0 (h.mem_live hid)).1 (lt_irrefl 0)

/-- A thread that is not deleted is listed, and once, exactly in the category that is its parent. -/
theorem count_eq (h : Wellformed m) (hid : id ∈ m.liveThreads) (c : Int) :
    (m.getPagedCategoryPtr c).mThreadList.count id =
      if c = (m.getPagedThreadPtr id).mParentCategory then 1 else 0 := by
  obtain ⟨hone, hnone⟩ := h.listed id hid
  split
  · next hc => rw [hc, hone]
  · next hc => exact List.count_eq_zero.mpr (hnone c hc)

/-- What changes neither the threads of a category nor the category of a thread. -/
theorem of_frame (h : Wellformed m)
    (hlists : ∀ c, (m'.getPagedCategoryPtr c).mThreadList.Perm
      (m.getPagedCategoryPtr c).mThreadList)
    (hparents : ∀ t, (m'.getPagedThreadPtr t).mParentCategory =
      (m.getPagedThreadPtr t).mParentCategory)
    (hexist : ∀ t, (m.threads t).isSome → (m'.threads t).isSome)
    (hposts : ∀ t, ∀ id ∈ (m'.getPagedThreadPtr t).mPostList,
      ∃ p, m'.posts id = some p ∧ p.mParentThread = t)
    (hbelow : ∀ id, (m'.posts id).isSome → id ≤ m'.nextPostID)
    (hlive : m'.liveThreads = m.liveThreads) (hnext : m.nextThreadID ≤ m'.nextThreadID)
    (hcategories : m'.liveCategories = m.liveCategories ∧ m'.categoryList = m.categoryList ∧
      m'.nextCategoryID = m.nextCategoryID) : Wellformed m' where
  listed id hid := by
    obtain ⟨hone, hnone⟩ := h.listed id (hlive ▸ hid)
    rw [hparents]
    refine ⟨((hlists _).count_eq id).trans hone, fun c hc hmem => ?_⟩
    exact hnone c hc ((hlists c).mem_iff.mp hmem)
  exist c id hid := hexist id (h.exist c id ((hlists c).mem_iff.mp hid))
  posts := posts_of_parent hposts
  enumerated id hid := by
    rw [IGFManager.enumerated_iff, hcategories.2.1]
    exact IGFManager.enumerated_iff.mp (h.enumerated id (hcategories.1 ▸ hid))
  live id := by rw [hlive, hparents, h.live]
  parent c id hid := by
    rw [hparents]
    exact h.parent c id ((hlists c).mem_iff.mp hid)
  counter := h.counter.trans hnext
  belowThread id hid := by
    obtain ⟨hpos, hle⟩ := h.belowThread id (hlive ▸ hid)
    exact ⟨hpos, hle.trans hnext⟩
  belowPost := hbelow
  belowCategory id hid := by
    rw [hcategories.2.2]
    exact h.belowCategory id (hcategories.2.1 ▸ hid)

/-- A category is saved with the threads it has. -/
theorem writeCategory (h : Wellformed m) {category : IGFCategory}
    (hlist : category.mThreadList.Perm (m.getPagedCategoryPtr category.mID).mThreadList) :
    Wellformed (m.writeCategory category) := by
  refine h.of_frame (fun c => ?_) (fun t => rfl) (fun t => id)
    (fun t id hid => (h.posts t id hid).1) h.belowPost rfl le_rfl ⟨rfl, rfl, rfl⟩
  rw [IGFManager.getPagedCategoryPtr_writeCategory]
  split
  · next hc => exact hc ▸ hlist
  · exact List.Perm.refl _

/-- A thread is saved with its category, and with no post that it did not have. -/
theorem writeThread (h : Wellformed m) {thread : IGFThread}
    (hparent : thread.mParentCategory = (m.getPagedThreadPtr thread.mID).mParentCategory)
    (hposts : thread.mPostList ⊆ (m.getPagedThreadPtr thread.mID).mPostList) :
    Wellformed (m.writeThread thread) := by
  refine h.of_frame (fun c => List.Perm.refl _) (fun t => ?_) (fun t ht => ?_)
    (fun t id hid => ?_) h.belowPost rfl le_rfl ⟨rfl, rfl, rfl⟩
  · rw [IGFManager.getPagedThreadPtr_writeThread]
    split
    · next hc => exact hc ▸ hparent
    · rfl
  · change (Function.update m.threads thread.mID (some thread) t).isSome
    rw [Function.update_apply]
    split
    · rfl
    · exact ht
  · rw [IGFManager.getPagedThreadPtr_writeThread] at hid
    split at hid
    · next hc => exact (h.posts t id (hc ▸ hposts hid)).1
    · exact (h.posts t id hid).1

/-- The posts that were there have older IDs than a new one. -/
theorem older_post (h : Wellformed m) (newPost : IGFPost)
    (hid : id ∈ (m.getPagedThreadPtr t).mPostList) :
    ∃ p, Function.update m.posts (m.nextPostID + 1) (some newPost) id = some p ∧
      p.mParentThread = t := by
  obtain ⟨p, hp, hparent⟩ := (h.posts t id hid).1
  have hle := h.belowPost id (by rw [hp]; rfl)
  exact ⟨p, (Function.update_of_ne (by omega) _ _).trans hp, hparent⟩

/-- A post goes to the end of a thread that is stored, and the thread's category is sorted. -/
theorem appendPost (h : Wellformed m) {thread : IGFThread}
    (hthread : thread = m.getPagedThreadPtr thread.mID) (callerAccount : AccountData)
    (postBody displayName : Text) (clock : Clock) :
    Wellformed (m.appendPost callerAccount thread postBody displayName clock).1 := by
  have hparent : thread.mParentCategory = (m.getPagedThreadPtr thread.mID).mParentCategory :=
    congrArg IGFThread.mParentCategory hthread
  dsimp only [IGFManager.appendPost]
  split_ifs
  · exact h
  · exact h
  · exact h
  · exact h
  · refine h.of_frame (fun c => ?_) (fun t => ?_) (fun t ht => ?_) (fun t id hid => ?_)
      (fun id hid => ?_) rfl le_rfl ⟨rfl, rfl, rfl⟩
    · change ((IGFManager.writeCategory _ _).getPagedCategoryPtr c).mThreadList.Perm _
      rw [IGFManager.getPagedCategoryPtr_writeCategory]
      split
      · next hc =>
          rw [hc]
          exact IGFManager.sortCategoryThreads_perm (h.zero_notMem _)
      · exact List.Perm.refl _
    · change ((IGFManager.writeThread _ _).getPagedThreadPtr t).mParentCategory = _
      rw [IGFManager.getPagedThreadPtr_writeThread]
      split
      · next hc => exact hc ▸ hparent
      · rfl
    · change (Function.update m.threads thread.mID _ t).isSome
      rw [Function.update_apply]
      split
      · rfl
      · exact ht
    · change id ∈ ((IGFManager.writeThread _ _).getPagedThreadPtr t).mPostList at hid
      rw [IGFManager.getPagedThreadPtr_writeThread] at hid
      split at hid
      · next hc =>
          rcases List.mem_append.mp hid with hid | hid
          · rw [hthread] at hid
            exact h.older_post _ (hc ▸ hid)
          · rw [List.mem_singleton.mp hid]
            exact ⟨_, Function.update_self _ _ _, hc.symm⟩
      · exact h.older_post _ hid
    · change (Function.update m.posts (m.nextPostID + 1) _ id).isSome at hid
      change id ≤ m.nextPostID + 1
      by_cases hnew : id = m.nextPostID + 1
      · exact hnew.le
      · rw [Function.update_of_ne hnew] at hid
        have hle := h.belowPost id hid
        omega

/-- A thread is deleted. -/
theorem deleteThread (h : Wellformed m) (hc : (m.getPagedThreadPtr t).mParentCategory = c)
    (hne : c ≠ 0) :
    Wellformed ((m.writeCategory ((m.getPagedCategoryPtr c).unattachThread t)).removeThread t) := by
  have hcount := h.count_eq ((h.live t).mpr (hc ▸ hne))
  -- the thread goes from the list of its category, and is in no other
  have hlist (c' : Int) : (((m.writeCategory ((m.getPagedCategoryPtr c).unattachThread t)
      ).removeThread t).getPagedCategoryPtr c').mThreadList =
        (m.getPagedCategoryPtr c').mThreadList.erase t := by
    change ((IGFManager.writeCategory _ _).getPagedCategoryPtr c').mThreadList = _
    rw [IGFManager.getPagedCategoryPtr_writeCategory]
    split
    · next heq => exact heq ▸ rfl
    · next hother =>
        have hother : c' ≠ c := hother
        have hzero := hcount c'
        rw [hc, if_neg hother, List.count_eq_zero] at hzero
        exact (List.erase_of_not_mem hzero).symm
  have hgone (c' : Int) : t ∉ (m.getPagedCategoryPtr c').mThreadList.erase t := by
    rw [← List.count_eq_zero, List.count_erase_self, hcount]
    split <;> rfl
  exact {
    listed := fun id hid => by
      obtain ⟨hid, hne⟩ := List.mem_filter.mp hid
      have hne : id ≠ t := by simpa using hne
      obtain ⟨hone, hnone⟩ := h.listed id hid
      rw [IGFManager.getPagedThreadPtr_removeThread, if_neg hne, hlist]
      refine ⟨(List.count_erase_of_ne hne).trans hone, fun c' hc' hmem => ?_⟩
      exact hnone c' hc' (List.mem_of_mem_erase (hlist c' ▸ hmem))
    exist := fun c' id hid => by
      have hid := hlist c' ▸ hid
      have hne : id ≠ t := fun heq => hgone c' (heq ▸ hid)
      change (Function.update m.threads t none id).isSome
      rw [Function.update_of_ne hne]
      exact h.exist c' id (List.mem_of_mem_erase hid)
    posts := posts_of_parent fun t' id hid => by
      rw [IGFManager.getPagedThreadPtr_removeThread] at hid
      split at hid
      · cases hid
      · exact (h.posts t' id hid).1
    enumerated := fun id hid => by
      have hmem := IGFManager.enumerated_iff.mp (h.enumerated id hid)
      exact IGFManager.enumerated_iff.mpr hmem
    live := fun id => by
      rw [IGFManager.getPagedThreadPtr_removeThread, IGFManager.getPagedThreadPtr_writeCategory]
      refine List.mem_filter.trans ?_
      split
      · next heq => simp [heq]
      · next hne =>
          exact ⟨fun hid => (h.live id).mp hid.1, fun hid => ⟨(h.live id).mpr hid, by simpa⟩⟩
    parent := fun c' id hid => by
      have hid := hlist c' ▸ hid
      have hne : id ≠ t := fun heq => hgone c' (heq ▸ hid)
      rw [IGFManager.getPagedThreadPtr_removeThread, if_neg hne]
      exact h.parent c' id (List.mem_of_mem_erase hid)
    counter := h.counter
    belowThread := fun id hid => h.belowThread id (List.mem_of_mem_filter hid)
    belowPost := h.belowPost
    belowCategory := h.belowCategory }

/-- A category without threads is deleted. -/
theorem deleteObjectData (h : Wellformed m)
    (hempty : ∀ t ∈ m.liveThreads, (m.getPagedThreadPtr t).mParentCategory ≠ c) :
    Wellformed (m.deleteObjectData TYPE_CATEGORY c) := by
  rw [IGFManager.deleteObjectData]
  split_ifs with hc
  · have hsub (c' : Int) : IGFManager.getPagedCategoryPtr { m with
        categories := Function.update m.categories c none
        categoryList := m.categoryList.erase c
        liveCategories := m.liveCategories.filter fun live => live ≠ c } c' =
          if c' = c then { mID := c } else m.getPagedCategoryPtr c' := by
      rw [IGFManager.getPagedCategoryPtr]
      dsimp only
      split
      · next h => rw [h, Function.update_self]; rfl
      · next h => rw [Function.update_of_ne h]; rfl
    exact {
      listed := fun id hid => by
        obtain ⟨hone, hnone⟩ := h.listed id hid
        refine ⟨?_, fun c' hc' hmem => ?_⟩
        · have hsame := (hsub _).trans (if_neg (hempty id hid))
          exact (congrArg (fun category => category.mThreadList.count id) hsame).trans hone
        · rw [hsub] at hmem
          split at hmem
          · cases hmem
          · exact hnone c' hc' hmem
      exist := fun c' id hid => by
        rw [hsub] at hid
        split at hid
        · cases hid
        · exact h.exist c' id hid
      posts := h.posts
      enumerated := fun id hid => by
        obtain ⟨hid, hne⟩ := List.mem_filter.mp hid
        have hne : id ≠ c := by simpa using hne
        have hmem := IGFManager.enumerated_iff.mp (h.enumerated id hid)
        exact IGFManager.enumerated_iff.mpr ((List.mem_erase_of_ne hne).mpr hmem)
      live := h.live
      parent := fun c' id hid => by
        rw [hsub] at hid
        split at hid
        · cases hid
        · exact h.parent c' id hid
      counter := h.counter
      belowThread := h.belowThread
      belowPost := h.belowPost
      belowCategory := fun id hid => h.belowCategory id (List.mem_of_mem_erase hid) }
  · exact h

/-- A thread goes from one category to another. -/
theorem moveThread (h : Wellformed m) {dst : Int}
    (hc : (m.getPagedThreadPtr t).mParentCategory = c) (hne : c ≠ 0) (hdst : dst ≠ 0)
    (hother : c ≠ dst) :
    Wellformed (((m.writeThread { m.getPagedThreadPtr t with mParentCategory := dst }
      ).writeCategory ((m.getPagedCategoryPtr c).unattachThread t)).writeCategory
        (m.sortCategoryThreads ((m.getPagedCategoryPtr dst).attachThread t))) := by
  have hlive : t ∈ m.liveThreads := (h.live t).mpr (hc ▸ hne)
  have hcount := h.count_eq hlive
  have hgone : t ∉ ((m.getPagedCategoryPtr c).mThreadList.erase t) := by
    rw [← List.count_eq_zero, List.count_erase_self, hcount, hc, if_pos rfl]
  have habsent : t ∉ (m.getPagedCategoryPtr dst).mThreadList := by
    rw [← List.count_eq_zero, hcount, hc, if_neg hother.symm]
  have hattached : (m.sortCategoryThreads ((m.getPagedCategoryPtr dst).attachThread t)
      ).mThreadList.Perm ((m.getPagedCategoryPtr dst).mThreadList ++ [t]) := by
    rw [IGFCategory.attachThread, if_neg habsent]
    apply IGFManager.sortCategoryThreads_perm
    intro hzero
    rcases List.mem_append.mp hzero with hzero | hzero
    · exact h.zero_notMem dst hzero
    · have hpos := (h.belowThread t hlive).1
      rw [← List.mem_singleton.mp hzero] at hpos
      exact lt_irrefl 0 hpos
  set m' := ((m.writeThread { m.getPagedThreadPtr t with mParentCategory := dst }
      ).writeCategory ((m.getPagedCategoryPtr c).unattachThread t)).writeCategory
        (m.sortCategoryThreads ((m.getPagedCategoryPtr dst).attachThread t)) with hm'
  have hthread (id : Int) : m'.getPagedThreadPtr id =
      if id = t then { m.getPagedThreadPtr t with mParentCategory := dst }
      else m.getPagedThreadPtr id := IGFManager.getPagedThreadPtr_writeThread _
  have hcount' (c' id : Int) : (m'.getPagedCategoryPtr c').mThreadList.count id =
      if id = t then (if c' = dst then 1 else 0)
      else (m.getPagedCategoryPtr c').mThreadList.count id := by
    rw [hm', IGFManager.getPagedCategoryPtr_writeCategory,
      IGFManager.getPagedCategoryPtr_writeCategory, IGFManager.getPagedCategoryPtr_writeThread]
    have hdst : (m.sortCategoryThreads ((m.getPagedCategoryPtr dst).attachThread t)).mID = dst := by
      rw [IGFCategory.attachThread, if_neg habsent]
      rfl
    rw [hdst]
    by_cases hc' : c' = dst
    · rw [if_pos hc', hattached.count_eq, List.count_append, hc']
      split
      · next heq => rw [heq, List.count_eq_zero.mpr habsent, List.count_singleton_self, if_pos rfl]
      · next hid =>
          have hnone : [t].count id = 0 := List.count_eq_zero.mpr (by simpa using hid)
          rw [hnone, add_zero]
    · rw [if_neg hc', if_neg hc']
      split
      · next hsrc =>
          have hsrc : c' = c := hsrc
          split
          · next heq => rw [heq]; exact List.count_eq_zero.mpr hgone
          · next hid => rw [hsrc]; exact List.count_erase_of_ne hid
      · next hsrc =>
          have hsrc : c' ≠ c := hsrc
          split
          · next heq => rw [heq, hcount, hc, if_neg hsrc]
          · rfl
  have hmem (c' id : Int) (hid : id ∈ (m'.getPagedCategoryPtr c').mThreadList) :
      (id = t ∧ c' = dst) ∨ (id ≠ t ∧ id ∈ (m.getPagedCategoryPtr c').mThreadList) := by
    have hpos := List.count_pos_iff.mpr hid
    rw [hcount'] at hpos
    split_ifs at hpos with heq hc'
    · exact .inl ⟨heq, hc'⟩
    · exact absurd hpos (lt_irrefl 0)
    · exact .inr ⟨heq, List.count_pos_iff.mp hpos⟩
  have hexist (id : Int) (hid : (m.threads id).isSome) : (m'.threads id).isSome := by
    change (Function.update m.threads t _ id).isSome
    rw [Function.update_apply]
    split
    · rfl
    · exact hid
  exact {
    listed := fun id hid => by
      rw [hthread, hcount']
      split
      · refine ⟨if_pos rfl, fun c' hc' hmem' => ?_⟩
        rcases hmem c' id hmem' with ⟨-, hdst⟩ | ⟨hne, -⟩
        · exact hc' hdst
        · contradiction
      · obtain ⟨hone, hnone⟩ := h.listed id hid
        refine ⟨hone, fun c' hc' hmem' => ?_⟩
        rcases hmem c' id hmem' with ⟨heq, -⟩ | ⟨-, hold⟩
        · contradiction
        · exact hnone c' hc' hold
    exist := fun c' id hid => by
      rcases hmem c' id hid with ⟨heq, -⟩ | ⟨-, hold⟩
      · rw [heq]
        exact (congrArg Option.isSome (Function.update_self t _ m.threads)).trans rfl
      · exact hexist id (h.exist c' id hold)
    posts := posts_of_parent fun t' id hid => by
      rw [hthread] at hid
      split at hid
      · next heq => exact heq ▸ (h.posts t id hid).1
      · exact (h.posts t' id hid).1
    enumerated := fun id hid => by
      have hmem := IGFManager.enumerated_iff.mp (h.enumerated id hid)
      exact IGFManager.enumerated_iff.mpr hmem
    live := fun id => by
      rw [hthread]
      split
      · next heq => exact ⟨fun _ => hdst, fun _ => heq ▸ hlive⟩
      · exact h.live id
    parent := fun c' id hid => by
      rw [hthread]
      rcases hmem c' id hid with ⟨heq, hc'⟩ | ⟨hne, hold⟩
      · rw [if_pos heq, hc']
        exact ⟨rfl, hdst⟩
      · rw [if_neg hne]
        exact h.parent c' id hold
    counter := h.counter
    belowThread := h.belowThread
    belowPost := h.belowPost
    belowCategory := h.belowCategory }

end Wellformed

/-! ### The calls -/

/-- The checks that a new thread passes. -/
structure AcceptsThread (m : IGFManager) (callerAccount : AccountData) (placementID : Int)
    (threadTitle postBody displayName : Text) : Prop where
  unlocked : ¬(m.mForumLocked ∧ ¬callerAccount.admin)
  forumPost : callerAccount.forumPost
  body : ¬hasInvalidCharacters postBody true
  name : ¬hasInvalidCharacters displayName false
  title : ¬hasInvalidCharacters threadTitle false
  titleLength : ¬threadTitle.length > MAX_TITLE_LENGTH
  placement : placementID ≠ 0
  category : ¬(m.getPagedCategoryPtr placementID).mLocked
  postLength : ¬postBody.length > MAX_POST_LENGTH

/-- The checks that a new category passes. -/
structure AcceptsCategory (m : IGFManager) (callerAccount : AccountData) (parentCategoryID : Int)
    (name : Text) : Prop where
  permission : m.getEditPermission callerAccount (-1)
  name : name.length ≠ 0
  parent : parentCategoryID ≠ 0

/-- No thread and no category is created, and no category is deleted in which there are threads. -/
def InOrder (m : IGFManager) : Call → Prop
  | .sendPost callerAccount type placementID _ threadTitle postBody displayName _ =>
      type = POST_THREAD →
        ¬AcceptsThread m callerAccount placementID threadTitle postBody displayName
  | .createCategory callerAccount parentCategoryID name =>
      ¬AcceptsCategory m callerAccount parentCategoryID name
  | .editObject callerAccount categoryType parentID renameID name =>
      categoryType = TYPE_CATEGORY → renameID = 0 → ¬hasInvalidCharacters name false →
        ¬name.length > MAX_TITLE_LENGTH → ¬AcceptsCategory m callerAccount parentID name
  | .deleteObject callerAccount objectType objectID =>
      objectType = TYPE_CATEGORY → m.getEditPermission callerAccount (-1) →
        ∀ t ∈ m.liveThreads, (m.getPagedThreadPtr t).mParentCategory ≠ objectID
  | _ => True

section

variable {m : IGFManager} {callerAccount : AccountData}

theorem appendPost_of_error {thread : IGFThread} {postBody displayName : Text} {clock : Clock}
    (h : (m.appendPost callerAccount thread postBody displayName clock).2 ≠ .none) :
    (m.appendPost callerAccount thread postBody displayName clock).1 = m := by
  dsimp only [IGFManager.appendPost] at h ⊢
  split_ifs at h ⊢
  · rfl
  · rfl
  · rfl
  · rfl
  · exact absurd rfl h

/-- A category that is created is not enumerated. -/
theorem not_structured_createCategory (h : Wellformed m) {parentCategoryID : Int} {name : Text}
    (haccepts : AcceptsCategory m callerAccount parentCategoryID name) :
    ¬Structured (m.createCategory callerAccount parentCategoryID name).1 := by
  simp only [IGFManager.createCategory, haccepts.permission, not_true_eq_false, haccepts.name,
    IGFManager.getPagedCategoryPtr_mID, haccepts.parent, if_false]
  intro hs
  have hmem := IGFManager.enumerated_iff.mp (hs.enumerated _ List.mem_cons_self)
  have hle : m.nextCategoryID + 1 ≤ m.nextCategoryID := h.belowCategory _ hmem
  omega

theorem createCategory_of_not (parentCategoryID : Int) (name : Text)
    (h : ¬AcceptsCategory m callerAccount parentCategoryID name) :
    (m.createCategory callerAccount parentCategoryID name).1 = m := by
  dsimp only [IGFManager.createCategory]
  split_ifs with hpermission hname hparent
  · rfl
  · rfl
  · exact absurd ⟨hpermission, hname, hparent⟩ h
  · rfl

theorem not_structured_of_unlisted (h : Wellformed m) {m' : IGFManager} {id : Int}
    (placementID : Int) (hparent : (m'.getPagedThreadPtr id).mParentCategory = placementID)
    (hlist : (m'.getPagedCategoryPtr placementID).mThreadList.Perm
      (m.getPagedCategoryPtr placementID).mThreadList)
    (hlive : id ∈ m'.liveThreads) (hnew : m.nextThreadID < id) : ¬Structured m' := by
  intro hs
  obtain ⟨hone, -⟩ := hs.listed id hlive
  rw [hparent, hlist.count_eq] at hone
  have hmem := List.count_pos_iff.mp (hone ▸ Nat.one_pos)
  exact absurd (h.belowThread id (h.mem_live hmem)).2 (not_le.mpr hnew)

/-- A thread that is created is not listed. -/
theorem not_structured_sendPost (h : Wellformed m) {placementID postID : Int}
    {threadTitle postBody displayName : Text} {clock : Clock}
    (haccepts : AcceptsThread m callerAccount placementID threadTitle postBody displayName) :
    ¬Structured (m.sendPost callerAccount POST_THREAD placementID postID threadTitle postBody
      displayName clock).1 := by
  have hid : m.nextThreadID + 1 ≠ 0 := by have := h.counter; omega
  simp only [IGFManager.sendPost, IGFManager.appendPost, haccepts.unlocked, haccepts.forumPost,
    not_true_eq_false, if_false, haccepts.body, haccepts.name, if_true, haccepts.title,
    haccepts.titleLength, IGFManager.getPagedCategoryPtr_mID, haccepts.placement,
    haccepts.category, hid, Bool.false_eq_true, haccepts.postLength]
  refine not_structured_of_unlisted h placementID ?_ ?_ List.mem_cons_self (lt_add_one m.nextThreadID)
  · change ((IGFManager.writeThread _ _).getPagedThreadPtr _).mParentCategory = placementID
    rw [IGFManager.getPagedThreadPtr_writeThread, if_pos rfl]
  · change ((IGFManager.writeCategory _ _).getPagedCategoryPtr placementID).mThreadList.Perm _
    rw [IGFManager.getPagedCategoryPtr_writeCategory]
    split
    · exact IGFManager.sortCategoryThreads_perm (h.zero_notMem placementID)
    · next hne => exact absurd rfl hne

/-- A category that is deleted is the parent of its threads no longer. -/
theorem not_structured_deleteObjectData {t c : Int} (hlive : t ∈ m.liveThreads)
    (hparent : (m.getPagedThreadPtr t).mParentCategory = c) (hc : c ≠ 0) :
    ¬Structured (m.deleteObjectData TYPE_CATEGORY c) := by
  intro hs
  rw [IGFManager.deleteObjectData, if_pos ⟨rfl, hc⟩] at hs
  obtain ⟨hone, -⟩ := hs.listed t hlive
  have hempty : Function.update m.categories c none
      (m.getPagedThreadPtr t).mParentCategory = none := by
    rw [hparent, Function.update_self]
  change List.count t { (Function.update m.categories c none
    (m.getPagedThreadPtr t).mParentCategory).getD {} with mID := _ }.mThreadList = 1 at hone
  rw [hempty] at hone
  cases hone

end

namespace Wellformed

variable {m : IGFManager} {callerAccount : AccountData}

theorem takeThreadID (h : Wellformed m) : Wellformed m.takeThreadID :=
  h.of_frame (fun _ => List.Perm.refl _) (fun _ => rfl) (fun _ => id)
    (fun t id hid => (h.posts t id hid).1) h.belowPost rfl (lt_add_one m.nextThreadID).le
    ⟨rfl, rfl, rfl⟩

theorem sendPost (h : Wellformed m) {type placementID postID : Int}
    {threadTitle postBody displayName : Text} {clock : Clock}
    (hno : type = POST_THREAD →
      ¬AcceptsThread m callerAccount placementID threadTitle postBody displayName) :
    Wellformed (m.sendPost callerAccount type placementID postID threadTitle postBody displayName
      clock).1 := by
  rw [IGFManager.sendPost]
  split_ifs with hlocked hpost hbody hname htype htitle hlength hreply hedit
  · exact h
  · exact h
  · exact h
  · exact h
  · exact h
  · dsimp only
    split_ifs with hcategory hcategoryLocked
    · exact h
    · exact h
    · have hrefused : (m.takeThreadID.appendPost callerAccount
          { mID := m.nextThreadID + 1
            mParentCategory := placementID
            mTitle := threadTitle
            mCreationAccount := callerAccount.ID
            mCreatorName := displayName
            mLastUpdateTime := clock.minutes } postBody displayName clock).2 ≠ .none := by
        -- what passed the other checks is refused for the length of the text
        intro hnone
        refine hno htype ⟨hlocked, hpost, hbody, hname, htitle, hlength, hcategory,
          hcategoryLocked, ?_⟩
        intro hlong
        dsimp only [IGFManager.appendPost] at hnone
        split_ifs at hnone
      split
      · next heq => exact absurd (congrArg Prod.snd heq) hrefused
      · exact (congrArg Wellformed (appendPost_of_error hrefused)).mpr h.takeThreadID
  · exact h.appendPost rfl callerAccount postBody displayName clock
  · exact h
  · exact h
  · exact h

theorem deletePost (h : Wellformed m) (threadID postID : Int) :
    Wellformed (m.deletePost callerAccount threadID postID).1 := by
  have hdeleted : Wellformed (m.writeThread ((m.getPagedThreadPtr threadID).deletePost postID)) :=
    h.writeThread rfl List.erase_subset
  dsimp only [IGFManager.deletePost]
  split_ifs
  · exact h
  · exact h
  · exact h
  · exact hdeleted
  · exact h
  · exact hdeleted
  · exact h

theorem deleteObject (h : Wellformed m) {objectType objectID : Int}
    (hempty : objectType = TYPE_CATEGORY → m.getEditPermission callerAccount (-1) →
      ∀ t ∈ m.liveThreads, (m.getPagedThreadPtr t).mParentCategory ≠ objectID) :
    Wellformed (m.deleteObject callerAccount objectType objectID).1 := by
  rw [IGFManager.deleteObject]
  split_ifs with hpermission htype hcategory hthread
  · exact h
  · exact h.deleteObjectData (hempty htype hpermission)
  · dsimp only
    split_ifs with hzero hparent
    · exact h
    · exact h
    · exact h.deleteThread rfl hparent
  · exact h
  · exact h

theorem setLockStatus (h : Wellformed m) (categoryType objectID : Int) (status : Bool) :
    Wellformed (m.setLockStatus callerAccount categoryType objectID status).1 := by
  dsimp only [IGFManager.setLockStatus]
  split_ifs
  · exact h
  · exact h.writeCategory (List.Perm.refl _)
  · exact h
  · exact h
  · exact h.writeThread rfl (List.Subset.refl _)
  · exact h
  · exact h

theorem setStickyStatus (h : Wellformed m) (categoryType objectID : Int) (status : Bool) :
    Wellformed (m.setStickyStatus callerAccount categoryType objectID status).1 := by
  dsimp only [IGFManager.setStickyStatus]
  have hthread : Wellformed (m.writeThread
      { m.getPagedThreadPtr objectID with mStickied := status }) :=
    h.writeThread rfl (List.Subset.refl _)
  split_ifs
  · exact h
  · exact h
  · exact h
  · exact hthread.writeCategory (IGFManager.sortCategoryThreads_perm (h.zero_notMem _))
  · exact h

theorem editObject (h : Wellformed m) {categoryType parentID renameID : Int} {name : Text}
    (hno : categoryType = TYPE_CATEGORY → renameID = 0 → ¬hasInvalidCharacters name false →
      ¬name.length > MAX_TITLE_LENGTH → ¬AcceptsCategory m callerAccount parentID name) :
    Wellformed (m.editObject callerAccount categoryType parentID renameID name).1 := by
  dsimp only [IGFManager.editObject]
  split_ifs with hpermission hlength hvalid htype htitle hrename hcategory hthread
  · exact h
  · exact h
  · exact h
  · exact (createCategory_of_not parentID name (hno htype hrename hvalid htitle)).symm ▸ h
  · exact h
  · exact h.writeCategory (List.Perm.refl _)
  · exact h
  · exact h
  · exact h.writeThread rfl (List.Subset.refl _)
  · exact h
  · exact h
  · exact h

theorem runMove (h : Wellformed m) (srcType srcID dstType dstID : Int) :
    Wellformed (m.runMove callerAccount srcType srcID dstType dstID).1 := by
  dsimp only [IGFManager.runMove]
  split_ifs with hpermission hsrcType hdstType hthread hsrc hdst hsame
  · exact h
  · exact h
  · exact h
  · exact h
  · exact h
  · exact h
  · exact h.moveThread rfl hsrc hdst hsame
  · exact h

/-- What a call in order keeps. -/
theorem call (h : Wellformed m) {c : Call} (hok : InOrder m c) : Wellformed (m.call c).1 := by
  cases c with
  | sendPost => exact h.sendPost hok
  | createCategory a parentCategoryID name =>
      exact (createCategory_of_not parentCategoryID name hok).symm ▸ h
  | deletePost a threadID postID => exact h.deletePost threadID postID
  | deleteObject => exact h.deleteObject hok
  | setLockStatus a type id status => exact h.setLockStatus type id status
  | setStickyStatus a type id status => exact h.setStickyStatus type id status
  | editObject => exact h.editObject hok
  | runMove a srcType srcID dstType dstID => exact h.runMove srcType srcID dstType dstID

/-- What a call out of order does. -/
theorem not_structured_call (h : Wellformed m) {c : Call} (hbad : ¬InOrder m c) :
    ¬Structured (m.call c).1 := by
  cases c with
  | sendPost a type placementID postID threadTitle postBody displayName clock =>
      obtain ⟨rfl, haccepts⟩ := Classical.not_imp.mp hbad
      exact not_structured_sendPost h (not_not.mp haccepts)
  | createCategory a parentCategoryID name =>
      exact not_structured_createCategory h (not_not.mp hbad)
  | deletePost => exact absurd trivial hbad
  | deleteObject a type id =>
      simp only [InOrder] at hbad
      push Not at hbad
      obtain ⟨rfl, hpermission, t, hlive, hparent⟩ := hbad
      have hne : id ≠ 0 := hparent ▸ (h.live t).mp hlive
      have hcall : (m.call (.deleteObject a TYPE_CATEGORY id)).1 =
          m.deleteObjectData TYPE_CATEGORY id := by
        simp only [IGFManager.call, IGFManager.deleteObject, hpermission, not_true_eq_false,
          if_false, if_true, IGFManager.getPagedCategoryPtr_mID, hne]
      rw [hcall]
      exact not_structured_deleteObjectData hlive hparent hne
  | setLockStatus => exact absurd trivial hbad
  | setStickyStatus => exact absurd trivial hbad
  | editObject a type parentID renameID name =>
      simp only [InOrder] at hbad
      push Not at hbad
      obtain ⟨rfl, rfl, hvalid, htitle, haccepts⟩ := hbad
      have hcall : (m.call (.editObject a TYPE_CATEGORY parentID 0 name)).1 =
          (m.createCategory a parentID name).1 := by
        simp only [IGFManager.call, IGFManager.editObject, haccepts.permission, not_true_eq_false,
          if_false, haccepts.name, hvalid, if_true, not_lt.mpr htitle, Bool.false_eq_true]
      rw [hcall]
      exact not_structured_createCategory h haccepts
  | runMove => exact absurd trivial hbad

end Wellformed

/-- The forum that `Init` makes is well formed. -/
theorem wellformed_init : Wellformed IGFManager.init := by
  have hlist (c : Int) : (IGFManager.init.getPagedCategoryPtr c).mThreadList = [] := by
    refine congrArg IGFCategory.mThreadList
      (IGFManager.getPagedCategoryPtr_writeCategory (m := {}) _) |>.trans ?_
    split <;> rfl
  exact {
    listed := fun id hid => by cases hid
    exist := fun c id hid => by rw [hlist] at hid; cases hid
    posts := fun t id hid => by cases hid
    enumerated := fun id hid => by cases hid
    live := fun id => by
      constructor
      · intro hid
        cases hid
      · intro hne
        exact absurd rfl hne
    parent := fun c id hid => by rw [hlist] at hid; cases hid
    counter := le_rfl
    belowThread := fun id hid => by cases hid
    belowPost := fun id hid => by cases hid
    belowCategory := fun id hid => by cases hid }

/-- A run of calls keeps the forum structured throughout exactly when no call of it creates a thread
or a category, and none deletes a category in which there are threads. -/
theorem forum_structured_iff {h : List (IGFManager × Call)} {m : IGFManager}
    (run : Trace Wellformed (fun _ _ => True) IGFManager.step h m) :
    (Structured m ∧ ∀ e ∈ h, Structured e.1) ↔ ∀ e ∈ h, InOrder e.1 e.2 :=
  run.safe_iff (fun _ h => h) (fun _ h => h.toStructured)
    (fun _ _ _ h hok hs => Option.some.inj hs ▸ h.call hok)
    (fun _ _ _ h hok hs => Option.some.inj hs ▸ h.not_structured_call hok)

/-! ### A thread about swords -/

def swordAdmin : AccountData := { ID := 1, forumPost := true, admin := true }

def newSwordThread : Call :=
  .sendPost swordAdmin POST_THREAD 1 0 "Swords".toList "Which one?".toList "Bob".toList {}

/-- A category below the root that has a thread with one post. -/
def swordForum : IGFManager where
  categories id :=
    if id = 1 then some { mID := 1 }
    else if id = 2 then some { mID := 2, mParentCategory := 1, mThreadList := [1] }
    else none
  threads id :=
    if id = 1 then some { mID := 1, mParentCategory := 2, mPostList := [1] } else none
  posts id := if id = 1 then some { mID := 1, mParentThread := 1 } else none
  categoryList := [2]
  nextCategoryID := 2
  nextThreadID := 1
  nextPostID := 1
  liveThreads := [1]
  liveCategories := [2]

theorem wellformed_swordForum : Wellformed swordForum := by
  have hlist (c id : Int) :
      id ∈ (swordForum.getPagedCategoryPtr c).mThreadList ↔ c = 2 ∧ id = 1 := by
    simp only [IGFManager.getPagedCategoryPtr, swordForum]
    split_ifs with h1 h2 <;> simp [*]
  have hposts (t id : Int) :
      id ∈ (swordForum.getPagedThreadPtr t).mPostList ↔ t = 1 ∧ id = 1 := by
    simp only [IGFManager.getPagedThreadPtr, swordForum]
    split_ifs with h1 <;> simp [*]
  exact {
    listed := fun id hid => by
      rw [List.mem_singleton.mp hid]
      exact ⟨by decide, fun c hc hmem => hc ((hlist c 1).mp hmem).1⟩
    exist := fun c id hid => by
      rw [((hlist c id).mp hid).2]
      rfl
    posts := Wellformed.posts_of_parent fun t id hid => by
      obtain ⟨rfl, rfl⟩ := (hposts t id).mp hid
      exact ⟨_, rfl, rfl⟩
    enumerated := fun id hid => IGFManager.enumerated_iff.mpr hid
    live := fun id => by
      simp only [IGFManager.getPagedThreadPtr, swordForum]
      split_ifs with h1 <;> simp [h1]
    parent := fun c id hid => by
      obtain ⟨rfl, rfl⟩ := (hlist c id).mp hid
      exact ⟨rfl, by decide⟩
    counter := by decide
    belowThread := by decide
    belowPost := fun id hid => by
      by_contra hlt
      have hne : id ≠ 1 := fun heq => hlt (heq ▸ le_rfl)
      simp [swordForum, hne] at hid
    belowCategory := by decide }

/-- A reply, a move of the thread to the root, and the deletion of the category it was in. -/
theorem swordForum_structured :
    ∃ h m, Trace Wellformed (fun _ _ => True) IGFManager.step h m ∧ h.length = 3 ∧
      m.liveThreads = [1] ∧ (Structured m ∧ ∀ e ∈ h, Structured e.1) := by
  have start : Trace Wellformed (fun _ _ => True) IGFManager.step [] swordForum :=
    .start wellformed_swordForum
  have replied := start.next
    (a := .sendPost swordAdmin POST_REPLY 1 0 [] "The long one.".toList "Bob".toList {}) trivial rfl
  have moved := replied.next (a := .runMove swordAdmin TYPE_THREAD 1 TYPE_CATEGORY 1) trivial rfl
  have run := moved.next (a := .deleteObject swordAdmin TYPE_CATEGORY 2) trivial rfl
  refine ⟨_, _, run, rfl, by decide, (forum_structured_iff run).mpr ?_⟩
  simp only [List.forall_mem_cons]
  refine ⟨fun _ _ => by decide, trivial, fun htype => ?_, fun e he => by cases he⟩
  exact absurd htype (by decide)

/-- A new thread is in no category. -/
theorem newSwordThread_unlisted :
    ¬∀ m, Reach (fun m => m = IGFManager.init) (fun _ _ => True) IGFManager.step m →
      Structured m := by
  intro hall
  have start : Reach (fun m => m = IGFManager.init) (fun _ _ => True) IGFManager.step
      IGFManager.init := Reach.start rfl
  have hs := hall _ (start.next (a := newSwordThread) trivial rfl)
  obtain ⟨hone, -⟩ := hs.listed 1 (by decide)
  exact absurd hone (by decide +kernel)

end Iceee.Forum
