import Iceee.Lib.Sort
import Iceee.Lib.Text

/-!
# The forum

Categories hold the IDs of their threads, and threads those of their posts. Every operation of
`IGFManager` loads copies, changes them and saves them one by one.

## Implementation notes

The store returns what was last written, and the fields of an empty entity where nothing is stored:
what is read has the ID that was asked for in either case. `std::sort` leaves open where entries with
equal keys go; the manager is taken with any sort. The lists of the threads and the categories that
were created and not deleted are kept beside the store.
-/

namespace Iceee.Forum

open Lib

inductive ErrCode
  | none | invalidCategory | invalidThread | invalidPost | invalidTitleText | invalidPostText
  | invalidNameText | permissionDenied | categoryLocked | threadLocked | unhandled | notAThread
  | postBlock | forumLocked | titleLength | postLength | targetNotCategory | targetSame
  deriving DecidableEq, Repr

def ROOT_CATEGORY : Int := 0
def TYPE_CATEGORY : Int := 0
def TYPE_THREAD : Int := 1
def POST_THREAD : Int := 0
def POST_REPLY : Int := 1
def POST_EDIT : Int := 2
def MAX_TITLE_LENGTH : Nat := 32
def MAX_POST_LENGTH : Nat := 4000

/-- What is read of an account. -/
structure AccountData where
  ID : Int
  forumPost : Bool := false
  forumAdmin : Bool := false
  admin : Bool := false

structure IGFCategory where
  mID : Int := 0
  mTitle : Text := []
  mParentCategory : Int := 0
  mThreadList : List Int := []
  mLocked : Bool := false
  mLastUpdateTime : Nat := 0
  deriving DecidableEq, Repr

structure IGFThread where
  mID : Int := 0
  mTitle : Text := []
  mCreationAccount : Int := 0
  mCreatorName : Text := []
  mParentCategory : Int := 0
  mPostList : List Int := []
  mLastUpdateTime : Nat := 0
  mLocked : Bool := false
  mStickied : Bool := false
  deriving DecidableEq, Repr

structure IGFPost where
  mID : Int := 0
  mCreationAccount : Int := 0
  mCreationTime : Text := []
  mCreatorName : Text := []
  mParentThread : Int := 0
  mBodyText : Text := []
  mPostedTime : Nat := 0
  mLastUpdateTime : Nat := 0
  mEditCount : Int := 0
  deriving DecidableEq, Repr

/-- The time of a call, in minutes and as it is printed. -/
structure Clock where
  minutes : Nat := 0
  printed : Text := []

/-- `UnattachThread`. -/
def IGFCategory.unattachThread (category : IGFCategory) (threadID : Int) : IGFCategory :=
  { category with mThreadList := category.mThreadList.erase threadID }

/-- `AttachThread`. -/
def IGFCategory.attachThread (category : IGFCategory) (threadID : Int) : IGFCategory :=
  if threadID ∈ category.mThreadList then category
  else { category with mThreadList := category.mThreadList ++ [threadID] }

/-- `DeletePost` of a thread. -/
def IGFThread.deletePost (thread : IGFThread) (id : Int) : IGFThread :=
  { thread with mPostList := thread.mPostList.erase id }

/-- `GetLastPostID`. -/
def IGFThread.getLastPostID (thread : IGFThread) : Int := thread.mPostList.getLast?.getD (-1)

/-- `HasInvalidCharacters`. -/
def hasInvalidCharacters (text : Text) (allowMarkup : Bool) : Bool :=
  text.isEmpty || text.any fun c =>
    if c.toNat < 32 then
      if c = '\t' ∨ c = '\r' ∨ c = '\n' then !allowMarkup else true
    else 127 ≤ c.toNat

/-- `ProcessPostBody`. -/
def processPostBody (postBody : Text) : Text :=
  postBody.flatMap fun c => if c = '\n' then ['^', 'N'] else if c = '\r' then [] else [c]

/-- `operator <` of `IGFThreadSort`. -/
def sortsBefore (a b : IGFThread) : Bool :=
  if a.mStickied.toNat > b.mStickied.toNat then true
  else if a.mStickied.toNat = b.mStickied.toNat then a.mLastUpdateTime > b.mLastUpdateTime
  else false

theorem sortsBefore_eq_false {a b : IGFThread} : sortsBefore a b = false ↔
    (a.mStickied = true → b.mStickied = true) ∧
      (b.mStickied = a.mStickied → a.mLastUpdateTime ≤ b.mLastUpdateTime) := by
  unfold sortsBefore
  cases a.mStickied <;> cases b.mStickied <;> simp

/-- Inserting the threads one after the other. -/
def insertThreads : Lib.SortBy sortsBefore :=
  .inserting sortsBefore
    (fun a b => by
      simp only [sortsBefore_eq_false]
      cases a.mStickied <;> cases b.mStickied <;> simp [le_total])
    fun a b c => by
      simp only [sortsBefore_eq_false]
      cases a.mStickied <;> cases b.mStickied <;> cases c.mStickied <;> simp <;> omega

/-- The manager with the store, what was created and not deleted, and the order in which `sort` puts
threads. -/
structure IGFManager where
  mForumLocked : Bool := false
  categories : Int → Option IGFCategory := fun _ => Option.none
  threads : Int → Option IGFThread := fun _ => Option.none
  posts : Int → Option IGFPost := fun _ => Option.none
  categoryList : List Int := []
  nextCategoryID : Int := 0
  nextThreadID : Int := 0
  nextPostID : Int := 0
  liveThreads : List Int := []
  liveCategories : List Int := []
  sort : Lib.SortBy sortsBefore := insertThreads

namespace IGFManager

variable (m : IGFManager)

/-- `GetPagedCategoryPtr`. -/
def getPagedCategoryPtr (elementID : Int) : IGFCategory :=
  { (m.categories elementID).getD {} with mID := elementID }

/-- `GetPagedThreadPtr`. -/
def getPagedThreadPtr (elementID : Int) : IGFThread :=
  { (m.threads elementID).getD {} with mID := elementID }

/-- `GetPagedPostPtr`. -/
def getPagedPostPtr (elementID : Int) : IGFPost :=
  { (m.posts elementID).getD {} with mID := elementID }

def writeCategory (category : IGFCategory) : IGFManager :=
  { m with categories := Function.update m.categories category.mID (some category) }

def writeThread (thread : IGFThread) : IGFManager :=
  { m with threads := Function.update m.threads thread.mID (some thread) }

def writePost (post : IGFPost) : IGFManager :=
  { m with posts := Function.update m.posts post.mID (some post) }

/-- `RemoveEntity` of a thread. -/
def removeThread (id : Int) : IGFManager :=
  { m with
    threads := Function.update m.threads id Option.none
    liveThreads := m.liveThreads.filter fun live => live ≠ id }

/-- `GetNewThreadID` takes the next number. -/
def takeThreadID : IGFManager := { m with nextThreadID := m.nextThreadID + 1 }

/-- `GetNewPostID` takes the next number. -/
def takePostID : IGFManager := { m with nextPostID := m.nextPostID + 1 }

/-- `GetEditPermission`. -/
def getEditPermission (callerAccount : AccountData) (objectOwnerID : Int) : Bool :=
  if m.mForumLocked ∧ ¬callerAccount.admin then false
  else callerAccount.ID == objectOwnerID || callerAccount.forumAdmin || callerAccount.admin

/-- `SortCategoryThreads`. -/
def sortCategoryThreads (category : IGFCategory) : IGFCategory :=
  let threadList := (category.mThreadList.map m.getPagedThreadPtr).filter fun t => t.mID ≠ 0
  { category with mThreadList := (m.sort.sort threadList).map IGFThread.mID }

/-- `EnumCategoryList`. -/
def enumCategoryList (parentID : Int) : List (List Text) :=
  ((m.categoryList.map m.getPagedCategoryPtr).filter fun c => c.mParentCategory = parentID).map
    fun c => [printInt TYPE_CATEGORY, printInt c.mID, printInt c.mLocked.toNat, printInt 0, c.mTitle,
      printInt c.mThreadList.length, printInt c.mLastUpdateTime]

/-- The part of `SendPost` that a new thread and a reply share: the post goes to the end of the
thread, and the category is loaded, sorted and saved. -/
def appendPost (callerAccount : AccountData) (thread : IGFThread) (postBody displayName : Text)
    (clock : Clock) : IGFManager × ErrCode :=
  if thread.mID = 0 then (m, .invalidThread)
  else if thread.mLocked then (m, .threadLocked)
  else if postBody.length > MAX_POST_LENGTH then (m, .postLength)
  else
    let category := m.getPagedCategoryPtr thread.mParentCategory
    if category.mID = 0 then (m, .invalidCategory)
    else
      let category := { category with mLastUpdateTime := clock.minutes }
      let newPost : IGFPost :=
        { mID := m.nextPostID + 1
          mParentThread := thread.mID
          mBodyText := processPostBody postBody
          mCreationAccount := callerAccount.ID
          mCreatorName := displayName
          mLastUpdateTime := clock.minutes
          mPostedTime := clock.minutes
          mCreationTime := clock.printed }
      let thread :=
        { thread with
          mLastUpdateTime := clock.minutes
          mPostList := thread.mPostList ++ [newPost.mID] }
      (((m.takePostID.writeCategory (m.sortCategoryThreads category)).writeThread thread).writePost
        newPost, .none)

/-- The part of `SendPost` that edits a post of the thread. -/
def editPost (callerAccount : AccountData) (thread : IGFThread) (postID : Int) (postBody : Text)
    (clock : Clock) : IGFManager × ErrCode :=
  if thread.mID = 0 then (m, .invalidThread)
  else if thread.mLocked ∧ ¬m.getEditPermission callerAccount (-1) then (m, .threadLocked)
  else if postBody.length > MAX_POST_LENGTH then (m, .postLength)
  else
    let post := m.getPagedPostPtr postID
    if post.mID = 0 then (m, .invalidPost)
    else
      let category := m.getPagedCategoryPtr thread.mParentCategory
      if category.mID = 0 then (m, .invalidCategory)
      else if ¬m.getEditPermission callerAccount post.mCreationAccount then (m, .permissionDenied)
      else
        let post :=
          { post with
            mBodyText := processPostBody postBody
            mLastUpdateTime := clock.minutes
            mEditCount := post.mEditCount + 1 }
        let thread := { thread with mLastUpdateTime := clock.minutes }
        let category := { category with mLastUpdateTime := clock.minutes }
        (((m.writeCategory (m.sortCategoryThreads category)).writeThread thread).writePost post,
          .none)

/-- `SendPost`. The new thread goes to the end of a copy of the category that is not saved, and an
edit finds an empty thread. -/
def sendPost (callerAccount : AccountData) (type placementID postID : Int)
    (threadTitle postBody displayName : Text) (clock : Clock) : IGFManager × ErrCode :=
  if m.mForumLocked ∧ ¬callerAccount.admin then (m, .forumLocked)
  else if ¬callerAccount.forumPost then (m, .postBlock)
  else if hasInvalidCharacters postBody true then (m, .invalidPostText)
  else if hasInvalidCharacters displayName false then (m, .invalidNameText)
  else if type = POST_THREAD then
    if hasInvalidCharacters threadTitle false then (m, .invalidTitleText)
    else if threadTitle.length > MAX_TITLE_LENGTH then (m, .titleLength)
    else
      let category := m.getPagedCategoryPtr placementID
      if category.mID = 0 then (m, .invalidCategory)
      else if category.mLocked then (m, .categoryLocked)
      else
        let thread : IGFThread :=
          { mID := m.nextThreadID + 1
            mParentCategory := category.mID
            mTitle := threadTitle
            mCreationAccount := callerAccount.ID
            mCreatorName := displayName
            mLastUpdateTime := clock.minutes }
        match m.takeThreadID.appendPost callerAccount thread postBody displayName clock with
        | (m, .none) => ({ m with liveThreads := thread.mID :: m.liveThreads }, .none)
        | r => r
  else if type = POST_REPLY then
    m.appendPost callerAccount (m.getPagedThreadPtr placementID) postBody displayName clock
  else if type = POST_EDIT then m.editPost callerAccount {} postID postBody clock
  else (m, .none)

/-- `CreateCategory`. -/
def createCategory (callerAccount : AccountData) (parentCategoryID : Int) (name : Text) :
    IGFManager × ErrCode :=
  if ¬m.getEditPermission callerAccount (-1) then (m, .permissionDenied)
  else if name.length = 0 then (m, .invalidTitleText)
  else if (m.getPagedCategoryPtr parentCategoryID).mID = 0 then (m, .invalidCategory)
  else
    let entry : IGFCategory :=
      { mID := m.nextCategoryID + 1
        mTitle := name
        mParentCategory := parentCategoryID }
    ({ m.writeCategory entry with
        nextCategoryID := m.nextCategoryID + 1
        liveCategories := entry.mID :: m.liveCategories }, .none)

/-- `DeletePost`. -/
def deletePost (callerAccount : AccountData) (threadID postID : Int) : IGFManager × ErrCode :=
  let thread := m.getPagedThreadPtr threadID
  if thread.mID = 0 then (m, .invalidThread)
  else if thread.mLocked ∧ ¬m.getEditPermission callerAccount (-1) then (m, .threadLocked)
  else
    let post := m.getPagedPostPtr postID
    if post.mID = 0 then (m, .invalidPost)
    else
      let perm :=
        if post.mID = thread.getLastPostID ∧ post.mCreationAccount = callerAccount.ID then true
        else m.getEditPermission callerAccount (-1)
      if ¬perm then (m, .permissionDenied)
      else (m.writeThread (thread.deletePost postID), .none)

/-- `DeleteObjectData`. -/
def deleteObjectData (objectType objectID : Int) : IGFManager :=
  if objectType = TYPE_CATEGORY ∧ (m.getPagedCategoryPtr objectID).mID ≠ 0 then
    { m with
      categories := Function.update m.categories objectID Option.none
      categoryList := m.categoryList.erase objectID
      liveCategories := m.liveCategories.filter fun live => live ≠ objectID }
  else m

/-- `DeleteObject`. -/
def deleteObject (callerAccount : AccountData) (objectType objectID : Int) :
    IGFManager × ErrCode :=
  if ¬m.getEditPermission callerAccount (-1) then (m, .permissionDenied)
  else if objectType = TYPE_CATEGORY then
    if (m.getPagedCategoryPtr objectID).mID = 0 then (m, .invalidCategory)
    else (m.deleteObjectData TYPE_CATEGORY objectID, .none)
  else if objectType = TYPE_THREAD then
    let thread := m.getPagedThreadPtr objectID
    if thread.mID = 0 then (m, .invalidThread)
    else
      let parent := m.getPagedCategoryPtr thread.mParentCategory
      if parent.mID = 0 then (m, .invalidCategory)
      else ((m.writeCategory (parent.unattachThread objectID)).removeThread thread.mID, .none)
  else (m, .unhandled)

/-- `SetLockStatus`. -/
def setLockStatus (callerAccount : AccountData) (categoryType objectID : Int) (status : Bool) :
    IGFManager × ErrCode :=
  if categoryType = TYPE_CATEGORY then
    let category := m.getPagedCategoryPtr objectID
    if category.mID = 0 then (m, .invalidCategory)
    else if ¬m.getEditPermission callerAccount (-1) then (m, .permissionDenied)
    else (m.writeCategory { category with mLocked := status }, .none)
  else if categoryType = TYPE_THREAD then
    let thread := m.getPagedThreadPtr objectID
    if thread.mID = 0 then (m, .invalidThread)
    else if ¬m.getEditPermission callerAccount thread.mCreationAccount then
      (m, .permissionDenied)
    else (m.writeThread { thread with mLocked := status }, .none)
  else (m, .unhandled)

/-- `SetStickyStatus`. -/
def setStickyStatus (callerAccount : AccountData) (categoryType objectID : Int) (status : Bool) :
    IGFManager × ErrCode :=
  if categoryType ≠ TYPE_THREAD then (m, .notAThread)
  else
    let thread := m.getPagedThreadPtr objectID
    if thread.mID = 0 then (m, .invalidThread)
    else if ¬m.getEditPermission callerAccount (-1) then (m, .permissionDenied)
    else
      let category := m.getPagedCategoryPtr thread.mParentCategory
      if category.mID = 0 then (m, .invalidCategory)
      else
        ((m.writeThread { thread with mStickied := status }).writeCategory
          (m.sortCategoryThreads category), .none)

/-- `EditObject`. -/
def editObject (callerAccount : AccountData) (categoryType parentID renameID : Int) (name : Text) :
    IGFManager × ErrCode :=
  if ¬m.getEditPermission callerAccount (-1) then (m, .permissionDenied)
  else if name.length = 0 then (m, .invalidTitleText)
  else if hasInvalidCharacters name false then (m, .invalidTitleText)
  else if categoryType = TYPE_CATEGORY then
    if name.length > MAX_TITLE_LENGTH then (m, .titleLength)
    else if renameID = 0 then m.createCategory callerAccount parentID name
    else
      let category := m.getPagedCategoryPtr renameID
      if category.mID = 0 then (m, .invalidCategory)
      else (m.writeCategory { category with mTitle := name }, .none)
  else if categoryType = TYPE_THREAD then
    if name.length > MAX_TITLE_LENGTH then (m, .titleLength)
    else if renameID ≠ 0 then
      let thread := m.getPagedThreadPtr renameID
      if thread.mID = 0 then (m, .invalidThread)
      else (m.writeThread { thread with mTitle := name }, .none)
    else (m, .none)
  else (m, .unhandled)

/-- `RunMove`. -/
def runMove (callerAccount : AccountData) (srcType srcID dstType dstID : Int) :
    IGFManager × ErrCode :=
  if ¬m.getEditPermission callerAccount (-1) then (m, .permissionDenied)
  else if srcType = TYPE_CATEGORY then (m, .notAThread)
  else if dstType ≠ TYPE_CATEGORY then (m, .targetNotCategory)
  else
    let thread := m.getPagedThreadPtr srcID
    if thread.mID = 0 then (m, .invalidThread)
    else
      let categorySrc := m.getPagedCategoryPtr thread.mParentCategory
      if categorySrc.mID = 0 then (m, .invalidCategory)
      else
        let categoryDst := m.getPagedCategoryPtr dstID
        if categoryDst.mID = 0 then (m, .invalidCategory)
        else if categorySrc.mID = categoryDst.mID then (m, .targetSame)
        else
          let thread := { thread with mParentCategory := categoryDst.mID }
          let categorySrc := categorySrc.unattachThread thread.mID
          let categoryDst := m.sortCategoryThreads (categoryDst.attachThread thread.mID)
          (((m.writeThread thread).writeCategory categorySrc).writeCategory categoryDst, .none)

/-- What `Init` leaves in an empty store: the root category, which takes the first ID. -/
def init : IGFManager :=
  { ({} : IGFManager).writeCategory
      { mID := 1, mTitle := "root".toList, mParentCategory := ROOT_CATEGORY } with
    nextCategoryID := 1 }

end IGFManager

/-- A call of the manager. -/
inductive Call
  | sendPost (callerAccount : AccountData) (type placementID postID : Int)
      (threadTitle postBody displayName : Text) (clock : Clock)
  | createCategory (callerAccount : AccountData) (parentCategoryID : Int) (name : Text)
  | deletePost (callerAccount : AccountData) (threadID postID : Int)
  | deleteObject (callerAccount : AccountData) (objectType objectID : Int)
  | setLockStatus (callerAccount : AccountData) (categoryType objectID : Int) (status : Bool)
  | setStickyStatus (callerAccount : AccountData) (categoryType objectID : Int) (status : Bool)
  | editObject (callerAccount : AccountData) (categoryType parentID renameID : Int) (name : Text)
  | runMove (callerAccount : AccountData) (srcType srcID dstType dstID : Int)

/-- A call with its answer. -/
def IGFManager.call (m : IGFManager) : Call → IGFManager × ErrCode
  | .sendPost callerAccount type placementID postID threadTitle postBody displayName clock =>
      m.sendPost callerAccount type placementID postID threadTitle postBody displayName clock
  | .createCategory callerAccount parentCategoryID name =>
      m.createCategory callerAccount parentCategoryID name
  | .deletePost callerAccount threadID postID => m.deletePost callerAccount threadID postID
  | .deleteObject callerAccount objectType objectID =>
      m.deleteObject callerAccount objectType objectID
  | .setLockStatus callerAccount categoryType objectID status =>
      m.setLockStatus callerAccount categoryType objectID status
  | .setStickyStatus callerAccount categoryType objectID status =>
      m.setStickyStatus callerAccount categoryType objectID status
  | .editObject callerAccount categoryType parentID renameID name =>
      m.editObject callerAccount categoryType parentID renameID name
  | .runMove callerAccount srcType srcID dstType dstID =>
      m.runMove callerAccount srcType srcID dstType dstID

/-- A call as a step. -/
def IGFManager.step (m : IGFManager) (c : Call) : Option IGFManager := some (m.call c).1

end Iceee.Forum
