import Iceee.Lib.Trace
import Iceee.Quest.Exact

/-!
# Quests that an account can do once

`quest.join` records a quest for the account before it tries to join it, and `quest.share` joins
quests without looking at the account.

## Main result

* `run_oncePerAccount`: the runs in which the record of a quest is right and only one character
  completes it.

## Implementation notes

The account and its list are in memory. The queries come with their arguments as numbers. In a run
the lists of those who joined and who completed the quest are kept beside the state; nothing reads
them. What the script of a quest does to the character, where `quest.join` starts it and where the
quest is completed, is an input.
-/

namespace Iceee.Quest

open Lib

/-! ### Joining a quest -/

/-- A quest with what is read of it when it is taken. -/
structure OfferedQuest extends QuestDefinition where
  requires : Int := 0
  questGiverID : Int := 0
  accountQuest : Bool := false
  mScriptAcceptCondition : List ExtendedQuestAction := []
  mScriptAcceptAction : List ExtendedQuestAction := []

structure OfferConfig extends QuestConfig where
  offer : Int → Option OfferedQuest
  offered : ∀ id, questDef.getQuestDefPtrByID id = (offer id).map OfferedQuest.toQuestDefinition

/-- A creature that could give a quest: its definition and how far away it is. -/
structure QuestGiver where
  creatureDefID : Int
  planeRange : Int := 0

/-- What `quest.join` reads besides the account and its arguments, and what the script that it
starts does. -/
structure JoinContext where
  now : Nat := 0
  creature : Int → Option QuestGiver := fun _ => none
  script : Player → Player := id

/-- The replies: nothing, an OK, and an OK with an error message, an information or the event of a
joined quest. -/
inductive JoinResponse where
  | null
  | ok
  | message (text : String)
  | info (text : String)
  | joined
  deriving DecidableEq, Repr

namespace QuestJournal

variable (j : QuestJournal)

/-- Whether `QuestJoin_Helper` returns 0. -/
def canJoin (questID : Int) : Bool :=
  (j.completedQuests.hasQuestID questID).isNone && (j.activeQuests.hasQuestID questID).isNone &&
    (j.availableQuests.hasQuestID questID).isSome

inductive QuestShare where
  | SHARE_SUCCESS_QUALIFIES
  | SHARE_FAILED_COMPLETED
  | SHARE_FAILED_ACTIVE
  | SHARE_FAILED_INVALIDQUEST
  | SHARE_FAILED_REQUIRE
  | SHARE_FAILED_AVAILABLE
  deriving DecidableEq, Repr

/-- `CheckQuestShare`. -/
def checkQuestShare (cfg : OfferConfig) (questID : Int) : QuestShare :=
  if (j.completedQuests.hasQuestID questID).isSome then .SHARE_FAILED_COMPLETED
  else if (j.activeQuests.hasQuestID questID).isSome then .SHARE_FAILED_ACTIVE
  else
    match cfg.offer questID with
    | none => .SHARE_FAILED_INVALIDQUEST
    | some qdef =>
        if 0 < qdef.requires ∧ (j.completedQuests.hasQuestID qdef.requires).isNone then
          .SHARE_FAILED_REQUIRE
        else if (j.availableQuests.hasQuestID questID).isNone then .SHARE_FAILED_AVAILABLE
        else .SHARE_SUCCESS_QUALIFIES

/-- `GetQuestShareErrorString`. -/
def getQuestShareErrorString : QuestShare → String
  | .SHARE_FAILED_COMPLETED => "You have already completed that quest."
  | .SHARE_FAILED_ACTIVE => "You already have that quest."
  | .SHARE_FAILED_INVALIDQUEST => "That quest does not exist."
  | .SHARE_FAILED_REQUIRE => "You have not finished the requirements to unlock that quest."
  | .SHARE_FAILED_AVAILABLE => "That quest is not available."
  | .SHARE_SUCCESS_QUALIFIES => "That quest is available."

end QuestJournal

variable {ι : Type*} [DecidableEq ι]

/-- `AccountData`, with the players of its characters. -/
structure AccountData (ι : Type*) where
  accountQuests : List Int := []
  pendingMinorUpdates : Nat := 0
  players : ι → Player

namespace AccountData

variable (cfg : OfferConfig) (acc : AccountData ι)

/-- `HasAccountCompletedQuest`. -/
def hasAccountCompletedQuest (questID : Int) : Bool := questID ∈ acc.accountQuests

def setPlayer (c : ι) (p : Player) : AccountData ι :=
  { acc with players := Function.update acc.players c p }

/-- The checks of `quest.join`: the quest, or the reply. -/
def checkJoin (ctx : JoinContext) (args : List Int) : Except JoinResponse OfferedQuest :=
  if args.length < 2 then .error .ok
  else
    match ctx.creature (args.getD 1 0) with
    | none => .error (.message "Quest giver does not exist.")
    | some giverNPC =>
        if INTERACT_RANGE < giverNPC.planeRange then
          .error (.message "Quest giver not in range.")
        else
          match cfg.offer (args.getD 0 0) with
          | none => .error (.message "Quest does not exist.")
          | some qdef =>
              if qdef.questGiverID ≠ giverNPC.creatureDefID then
                .error (.message "That object does not give that quest.")
              else if qdef.accountQuest ∧ acc.hasAccountCompletedQuest (args.getD 0 0) then
                .error (.message
                  ("You have already completed this quest on another character, and it is a " ++
                    "once-per-account quest type."))
              else .ok qdef

/-- `QuestJoinHandler::handleQuery`. -/
def questJoin (ctx : JoinContext) (c : ι) (args : List Int) : JoinResponse × AccountData ι :=
  match acc.checkJoin cfg ctx args with
  | .error response => (response, acc)
  | .ok qdef =>
      match (acc.players c).executeAllCommands cfg.toQuestConfig ctx.now
          qdef.mScriptAcceptCondition with
      | (false, p) => (.message "Cannot accept the quest yet.", acc.setPlayer c p)
      | (true, p) =>
          let p := (p.executeAllCommands cfg.toQuestConfig ctx.now qdef.mScriptAcceptAction).2
          let acc :=
            if qdef.accountQuest then
              { acc with
                accountQuests := acc.accountQuests ++ [qdef.questID]
                pendingMinorUpdates := acc.pendingMinorUpdates + 1 }
            else acc
          (if p.journal.canJoin (args.getD 0 0) then .joined else .info "Unable to join quest.",
            acc.setPlayer c (ctx.script
              { p with journal := p.journal.questJoin cfg.questDef (args.getD 0 0) }))

/-- `QuestShareHandler::handleQuery`. -/
def questShare (c : ι) (args : List Int) : JoinResponse × AccountData ι :=
  match args with
  | [] => (.null, acc)
  | questID :: _ =>
      let p := acc.players c
      match p.journal.checkQuestShare cfg questID with
      | .SHARE_SUCCESS_QUALIFIES =>
          (if p.journal.canJoin questID then .joined else .ok,
            acc.setPlayer c { p with journal := p.journal.questJoin cfg.questDef questID })
      | res => (.info (QuestJournal.getQuestShareErrorString res), acc)

/-- `quest.complete` by a character. -/
def questComplete (ctx : RedeemContext) (c : ι) (args : List Int) :
    RedeemResponse × AccountData ι :=
  let (response, p) := (acc.players c).questComplete cfg.toQuestConfig ctx args
  (response, acc.setPlayer c p)

/-- How often a quest stands among the active ones of a character. -/
def activeCount (questID : Int) (c : ι) : Nat :=
  (acc.players c).journal.activeQuests.countP fun qr => qr.questID == questID

end AccountData

/-! ### Runs -/

/-- What the characters of an account do. Besides its queries a character may do anything that
leaves the same quests active. -/
inductive AccountEvent (ι : Type*) where
  | questJoin (ctx : JoinContext) (c : ι) (args : List Int)
  | questShare (c : ι) (args : List Int)
  | questComplete (ctx : RedeemContext) (c : ι) (args : List Int)
  | play (c : ι) (player : Player)

def AccountEvent.character : AccountEvent ι → ι
  | .questJoin _ c _ => c
  | .questShare c _ => c
  | .questComplete _ c _ => c
  | .play c _ => c

/-- The IDs of the active quests of a player. -/
def Player.activeIDs (p : Player) : List Int := p.journal.activeQuests.map QuestReference.questID

def AccountData.step (cfg : OfferConfig) (acc : AccountData ι) :
    AccountEvent ι → Option (AccountData ι)
  | .questJoin ctx c args => some (acc.questJoin cfg ctx c args).2
  | .questShare c args => some (acc.questShare cfg c args).2
  | .questComplete ctx c args => some (acc.questComplete cfg ctx c args).2
  | .play c player =>
      if player.activeIDs = (acc.players c).activeIDs then some (acc.setPlayer c player) else none

/-- An account, with those who joined a quest and those who completed it. -/
structure QuestHistory (ι : Type*) where
  acc : AccountData ι
  joined : List ι := []
  completed : List ι := []

namespace QuestHistory

variable (cfg : OfferConfig) (questID : Int) (s : QuestHistory ι)

/-- One step. Who has the quest among the active ones more often than before has joined it, who has
it less often has completed it. -/
def step (e : AccountEvent ι) : Option (QuestHistory ι) :=
  (s.acc.step cfg e).map fun acc =>
    let before := s.acc.activeCount questID e.character
    let after := acc.activeCount questID e.character
    { acc
      joined := if before < after then e.character :: s.joined else s.joined
      completed := if after < before then e.character :: s.completed else s.completed }

/-- Nobody has anything to do with the quest yet. -/
structure Fresh : Prop where
  joined : s.joined = []
  completed : s.completed = []
  unrecorded : questID ∉ s.acc.accountQuests
  inactive : ∀ c, s.acc.activeCount questID c = 0

/-- The quest is recorded exactly when it was joined, and once; and one character at most has
completed it. -/
structure OncePerAccount : Prop where
  recorded : questID ∈ s.acc.accountQuests ↔ s.joined ≠ []
  once : s.acc.accountQuests.count questID ≤ 1
  oneCompletes : ∀ c ∈ s.completed, ∀ c' ∈ s.completed, c = c'

end QuestHistory

/-- `quest.join` gets past all its checks. -/
def AccountData.Accepts (cfg : OfferConfig) (acc : AccountData ι) (ctx : JoinContext) (c : ι)
    (args : List Int) : Prop :=
  ∃ qdef, acc.checkJoin cfg ctx args = .ok qdef ∧
    ((acc.players c).executeAllCommands cfg.toQuestConfig ctx.now
      qdef.mScriptAcceptCondition).1 = true

/-- How often a quest is active depends on the journal. -/
def QuestJournal.activeCount (j : QuestJournal) (questID : Int) : Nat :=
  j.activeQuests.countP fun qr => qr.questID == questID

/-- A script that neither joins nor abandons a quest. -/
def LeavesActive (questID : Int) (script : Player → Player) : Prop :=
  ∀ p, (script p).journal.activeCount questID = p.journal.activeCount questID

/-- A query `quest.join` about the quest that gets past its checks can join it, and a character whom
`quest.share` lets join it is the one who had joined it already. The scripts that run neither join
nor abandon it. -/
def QuestHistory.Proper (cfg : OfferConfig) (questID : Int) (s : QuestHistory ι) :
    AccountEvent ι → Prop
  | .questJoin ctx c args =>
      LeavesActive questID ctx.script ∧
        (args.getD 0 0 = questID → s.acc.Accepts cfg ctx c args →
          (s.acc.players c).journal.canJoin questID = true)
  | .questShare c args =>
      args.head? = some questID →
        (s.acc.players c).journal.checkQuestShare cfg questID = .SHARE_SUCCESS_QUALIFIES →
          questID ∈ s.acc.accountQuests ∧ ∀ c' ∈ s.joined, c' = c
  | .questComplete ctx _ _ => ∀ script ∈ ctx.script, LeavesActive questID script.onComplete
  | .play _ _ => True

section Steps

variable {cfg : OfferConfig} {acc : AccountData ι}

theorem OfferConfig.questID_eq {id : Int} {qdef : OfferedQuest} (h : cfg.offer id = some qdef) :
    qdef.questID = id :=
  cfg.questDef.keyed id qdef.toQuestDefinition (by rw [cfg.offered, h]; rfl)

@[simp]
theorem AccountData.players_setPlayer (c : ι) (p : Player) :
    (acc.setPlayer c p).players = Function.update acc.players c p := rfl

@[simp]
theorem AccountData.accountQuests_setPlayer (c : ι) (p : Player) :
    (acc.setPlayer c p).accountQuests = acc.accountQuests := rfl

omit [DecidableEq ι] in
theorem AccountData.activeCount_of_journal {acc' : AccountData ι} {c : ι} {j : QuestJournal}
    (h : (acc'.players c).journal = j) (questID : Int) :
    acc'.activeCount questID c = j.activeCount questID := by
  rw [AccountData.activeCount, h]
  rfl

theorem AccountData.activeCount_setPlayer_of_ne {c c' : ι} (h : c' ≠ c) (p : Player)
    (questID : Int) : (acc.setPlayer c p).activeCount questID c' = acc.activeCount questID c' := by
  rw [AccountData.activeCount, AccountData.players_setPlayer, Function.update_of_ne h]
  rfl

theorem AccountData.activeCount_setPlayer_self (c : ι) (p : Player) (questID : Int) :
    (acc.setPlayer c p).activeCount questID c = p.journal.activeCount questID :=
  AccountData.activeCount_of_journal (by rw [AccountData.players_setPlayer, Function.update_self]) _

theorem QuestJournal.activeCount_map (j : QuestJournal) (questID : Int) :
    j.activeCount questID = (j.activeQuests.map QuestReference.questID).count questID := by
  rw [QuestJournal.activeCount, List.count, List.countP_map]
  rfl

/-- A join adds the quest to the active ones where `QuestJoin_Helper` does not refuse. -/
theorem QuestJournal.activeCount_questJoin (defs : QuestDefinitionContainer) (j : QuestJournal)
    (id questID : Int) :
    (j.questJoin defs id).activeCount questID =
      j.activeCount questID + if j.canJoin id = true ∧ id = questID then 1 else 0 := by
  cases hcompleted : j.completedQuests.hasQuestID id with
  | some item => simp [QuestJournal.questJoin, QuestJournal.canJoin, hcompleted]
  | none =>
      cases hactive : j.activeQuests.hasQuestID id with
      | some item => simp [QuestJournal.questJoin, QuestJournal.canJoin, hcompleted, hactive]
      | none =>
          cases havailable : j.availableQuests.hasQuestID id with
          | none =>
              simp [QuestJournal.questJoin, QuestJournal.canJoin, hcompleted, hactive, havailable]
          | some item =>
              have hitem : item.questID = id := by simpa using List.find?_some havailable
              simp [QuestJournal.questJoin, QuestJournal.canJoin, QuestJournal.activeCount,
                hcompleted, hactive, havailable, List.countP_singleton, hitem]

/-- What one step does to the record of a quest and to the active quests of its character. -/
inductive Change (cfg : OfferConfig) (questID : Int) (acc acc' : AccountData ι) :
    AccountEvent ι → Prop
  | quiet {e} (hrecord : acc'.accountQuests.count questID = acc.accountQuests.count questID)
      (hactive : acc'.activeCount questID e.character = acc.activeCount questID e.character) :
      Change cfg questID acc acc' e
  | join {ctx c args} (hid : args.getD 0 0 = questID) (haccepts : acc.Accepts cfg ctx c args)
      (hnew : questID ∉ acc.accountQuests)
      (hrecord : acc'.accountQuests = acc.accountQuests ++ [questID])
      (hactive : acc'.activeCount questID c = acc.activeCount questID c +
        if (acc.players c).journal.canJoin questID = true then 1 else 0) :
      Change cfg questID acc acc' (.questJoin ctx c args)
  | share {c args} (hid : args.head? = some questID)
      (hshare : (acc.players c).journal.checkQuestShare cfg questID = .SHARE_SUCCESS_QUALIFIES)
      (hrecord : acc'.accountQuests = acc.accountQuests)
      (hactive : acc.activeCount questID c ≤ acc'.activeCount questID c) :
      Change cfg questID acc acc' (.questShare c args)
  | complete {ctx c args} (hrecord : acc'.accountQuests = acc.accountQuests)
      (hactive : acc'.activeCount questID c < acc.activeCount questID c) :
      Change cfg questID acc acc' (.questComplete ctx c args)

variable {questID : Int}

theorem setPlayer_self (acc : AccountData ι) (c : ι) : acc.setPlayer c (acc.players c) = acc := by
  rw [AccountData.setPlayer, Function.update_eq_self]

omit [DecidableEq ι] in
/-- A quest that passes the checks is offered, and, if accounts do it once, not recorded. -/
theorem checkJoin_ok {ctx : JoinContext} {args : List Int} {qdef : OfferedQuest}
    (h : acc.checkJoin cfg ctx args = .ok qdef) :
    cfg.offer (args.getD 0 0) = some qdef ∧
      (qdef.accountQuest = true → args.getD 0 0 ∉ acc.accountQuests) := by
  simp only [AccountData.checkJoin] at h
  split at h
  · cases h
  split at h
  · cases h
  split at h
  · cases h
  split at h
  · cases h
  next hoffer =>
    split at h
    · cases h
    split at h
    · cases h
    next hrecorded =>
      cases h
      refine ⟨hoffer, fun haccount hmem => hrecorded ⟨haccount, ?_⟩⟩
      simpa [AccountData.hasAccountCompletedQuest] using hmem

/-- `quest.join` leaves the journal and the record alone, or gets past its checks, records the quest
if accounts do it once, calls `QuestJoin_Helper` and starts the script. -/
theorem questJoin_cases (acc : AccountData ι) (ctx : JoinContext) (c : ι) (args : List Int) :
    (∃ p : Player, p.journal = (acc.players c).journal ∧
        (acc.questJoin cfg ctx c args).2 = acc.setPlayer c p) ∨
      ∃ (qdef : OfferedQuest) (p : Player) (acc' : AccountData ι),
        acc.checkJoin cfg ctx args = .ok qdef ∧ acc.Accepts cfg ctx c args ∧
        p.journal = (acc.players c).journal.questJoin cfg.questDef (args.getD 0 0) ∧
        acc'.players = acc.players ∧
        acc'.accountQuests =
          (if qdef.accountQuest then acc.accountQuests ++ [qdef.questID] else acc.accountQuests) ∧
        (acc.questJoin cfg ctx c args).2 = acc'.setPlayer c (ctx.script p) := by
  cases hcheck : acc.checkJoin cfg ctx args with
  | error response =>
      refine .inl ⟨acc.players c, rfl, ?_⟩
      simp only [AccountData.questJoin, hcheck]
      exact (setPlayer_self acc c).symm
  | ok qdef =>
      have hcondition := Player.journal_executeAllCommands cfg.toQuestConfig ctx.now
        qdef.mScriptAcceptCondition (acc.players c)
      cases hexec : (acc.players c).executeAllCommands cfg.toQuestConfig ctx.now
        qdef.mScriptAcceptCondition with
      | mk ran p =>
          rw [hexec] at hcondition
          cases ran with
          | false =>
              refine .inl ⟨p, hcondition, ?_⟩
              simp only [AccountData.questJoin, hcheck, hexec]
          | true =>
              have haction := Player.journal_executeAllCommands cfg.toQuestConfig ctx.now
                qdef.mScriptAcceptAction p
              let q := (p.executeAllCommands cfg.toQuestConfig ctx.now qdef.mScriptAcceptAction).2
              refine .inr ⟨qdef,
                { q with journal := q.journal.questJoin cfg.questDef (args.getD 0 0) },
                if qdef.accountQuest then
                  { acc with
                    accountQuests := acc.accountQuests ++ [qdef.questID]
                    pendingMinorUpdates := acc.pendingMinorUpdates + 1 }
                else acc, rfl, ⟨qdef, hcheck, by rw [hexec]⟩, ?_, ?_, ?_, ?_⟩
              · exact congrArg (QuestJournal.questJoin cfg.questDef · (args.getD 0 0))
                  (haction.trans hcondition)
              · split <;> rfl
              · split <;> rfl
              · simp only [AccountData.questJoin, hcheck, hexec]
                rfl

theorem change_questJoin {qdef : OfferedQuest} (hoffer : cfg.offer questID = some qdef)
    (haccount : qdef.accountQuest = true) {ctx : JoinContext}
    (hscript : LeavesActive questID ctx.script) (c : ι) (args : List Int) :
    Change cfg questID acc (acc.questJoin cfg ctx c args).2 (.questJoin ctx c args) := by
  rcases @questJoin_cases ι _ cfg acc ctx c args with
    ⟨p, hjournal, hresult⟩ | ⟨qdef', p, acc', hcheck, haccepts, hjournal, hplayers, hrecord, hresult⟩
  · rw [hresult]
    refine .quiet rfl ?_
    rw [AccountEvent.character, AccountData.activeCount_setPlayer_self, hjournal]
    rfl
  · obtain ⟨hoffer', hnew⟩ := checkJoin_ok hcheck
    have hid := cfg.questID_eq hoffer'
    have hcount : (acc'.setPlayer c (ctx.script p)).activeCount questID c =
      acc.activeCount questID c +
        if (acc.players c).journal.canJoin (args.getD 0 0) = true ∧ args.getD 0 0 = questID
        then 1 else 0 := by
      rw [AccountData.activeCount_setPlayer_self, hscript, hjournal,
        QuestJournal.activeCount_questJoin]
      rfl
    rw [hresult]
    by_cases hsame : args.getD 0 0 = questID
    · rw [hsame] at hoffer' hid hnew
      obtain rfl : qdef = qdef' := Option.some.inj (hoffer.symm.trans hoffer')
      refine .join hsame haccepts (hnew haccount) ?_ ?_
      · rw [AccountData.accountQuests_setPlayer, hrecord, if_pos haccount, hid]
      · simp only [hcount, hsame, and_true]
    · refine .quiet ?_ ?_
      · rw [AccountData.accountQuests_setPlayer, hrecord]
        split
        · rw [hid, List.count_append, List.count_singleton, if_neg (by simpa using hsame),
            Nat.add_zero]
        · rfl
      · rw [AccountEvent.character, hcount, if_neg fun h => hsame h.2, Nat.add_zero]

theorem change_questShare (c : ι) (args : List Int) :
    Change cfg questID acc (acc.questShare cfg c args).2 (.questShare c args) := by
  cases args with
  | nil => exact .quiet rfl rfl
  | cons id rest =>
      rw [AccountData.questShare]
      cases hshare : (acc.players c).journal.checkQuestShare cfg id with
      | SHARE_SUCCESS_QUALIFIES =>
          have hcount : (acc.setPlayer c { acc.players c with
              journal := (acc.players c).journal.questJoin cfg.questDef id }).activeCount questID c =
              acc.activeCount questID c +
                if (acc.players c).journal.canJoin id = true ∧ id = questID then 1 else 0 := by
            rw [AccountData.activeCount_setPlayer_self, QuestJournal.activeCount_questJoin]
            rfl
          by_cases hid : id = questID
          · subst hid
            exact .share rfl hshare rfl (by rw [hcount]; exact Nat.le_add_right _ _)
          · refine .quiet rfl ?_
            rw [AccountEvent.character, hcount, if_neg fun h => hid h.2, Nat.add_zero]
      | _ => exact .quiet rfl rfl

/-- A quest that leaves the active ones is there once less, and the others as often as before. -/
theorem activeCount_removeQuestID {j j' : QuestJournal} {id : Int} {qr : QuestReference}
    (hid : j.activeQuests.hasQuestID id = some qr)
    (hremoved : j'.activeQuests = j.activeQuests.removeQuestID id) (questID : Int) :
    j'.activeCount questID + (if id = questID then 1 else 0) = j.activeCount questID := by
  have hqr : (qr.questID == id) = true :=
    List.find?_some (p := fun qr : QuestReference => qr.questID == id) hid
  obtain ⟨a, l₁, l₂, -, ha, hactive, herase⟩ :=
    List.exists_of_eraseP (p := fun qr : QuestReference => qr.questID == id)
      (List.mem_of_find?_eq_some hid) hqr
  have hid' : a.questID = id := by simpa using ha
  rw [QuestReferenceContainer.removeQuestID, herase] at hremoved
  rw [QuestJournal.activeCount, QuestJournal.activeCount, hremoved, hactive, List.countP_append,
    List.countP_append, List.countP_cons, hid', Nat.add_assoc]
  simp only [beq_iff_eq]

/-- A request to redeem a quest removes that quest from the active ones, or the number of active
quests with an ID stays as it was. -/
theorem activeCount_questComplete {ctx : RedeemContext}
    (hscript : ∀ script ∈ ctx.script, LeavesActive questID script.onComplete) (cfg : QuestConfig)
    (p : Player) (args : List Int) :
    let after := (p.questComplete cfg ctx args).2.journal
    after.activeCount questID = p.journal.activeCount questID ∨
      after.activeCount questID < p.journal.activeCount questID := by
  simp only [Player.questComplete]
  cases hcheck : p.checkRedeem cfg ctx (args.getD 0 0) (args.getD 1 0) (args.drop 2) with
  | error text => exact .inl rfl
  | ok r =>
      obtain ⟨hqd, -, -⟩ := checkRedeem_ok hcheck
      have hcondition :=
        Player.journal_executeAllCommands cfg ctx.now r.qd.mScriptCompleteCondition p
      simp only
      cases hexec : p.executeAllCommands cfg ctx.now r.qd.mScriptCompleteCondition with
      | mk ran q =>
          rw [hexec] at hcondition
          cases ran with
          | false => exact .inl (congrArg (·.activeCount questID) hcondition)
          | true =>
              have haction :=
                Player.journal_executeAllCommands cfg ctx.now r.qd.mScriptCompleteAction q
              have hscripts : (q.runScripts cfg ctx r.qd).journal.activeCount questID =
                  p.journal.activeCount questID := by
                rw [← hcondition, ← haction, Player.runScripts, Player.runOnComplete]
                cases hctx : ctx.script with
                | none => rfl
                | some script => exact hscript script hctx _
              rw [← hscripts]
              dsimp only
              generalize q.runScripts cfg ctx r.qd = q
              cases hqr : q.journal.activeQuests.hasQuestID (args.getD 0 0) with
              | none => exact .inl (by rw [finishQuest_of_dropped _ _ hqr])
              | some qr =>
                  have hremoved : (q.finishQuest cfg ctx (args.getD 0 0)
                      (p.activeIndex (args.getD 0 0)) r.rewardedItems).2.journal.activeQuests =
                      q.journal.activeQuests.removeQuestID (args.getD 0 0) := by
                    rcases @finishQuest_cases cfg ctx _ _ (p.activeIndex (args.getD 0 0))
                      r.rewardedItems _ _ hqd hqr with
                      ⟨_, p', -, -, -, -, hactive, -, -, hfinish⟩ | ⟨-, _, p', hactive, hfinish⟩
                    · rw [hfinish]
                      exact hactive
                    · rw [hfinish]
                      exact hactive
                  have hremove := activeCount_removeQuestID hqr hremoved questID
                  omega

theorem change_questComplete {ctx : RedeemContext}
    (hscript : ∀ script ∈ ctx.script, LeavesActive questID script.onComplete) (c : ι)
    (args : List Int) :
    Change cfg questID acc (acc.questComplete cfg ctx c args).2 (.questComplete ctx c args) := by
  have hcount : (acc.questComplete cfg ctx c args).2.activeCount questID c =
      ((acc.players c).questComplete cfg.toQuestConfig ctx args).2.journal.activeCount questID :=
    AccountData.activeCount_setPlayer_self c _ questID
  rcases activeCount_questComplete hscript cfg.toQuestConfig (acc.players c) args with
    hsame | hless
  · exact .quiet rfl (hcount.trans hsame)
  · exact .complete rfl (hcount.trans_lt hless)

/-- What a step does. -/
theorem change_step {qdef : OfferedQuest} (hoffer : cfg.offer questID = some qdef)
    (haccount : qdef.accountQuest = true) {s : QuestHistory ι} {acc' : AccountData ι}
    {e : AccountEvent ι} (hok : s.Proper cfg questID e) (hs : s.acc.step cfg e = some acc') :
    Change cfg questID s.acc acc' e := by
  cases e with
  | questJoin ctx c args =>
      cases hs
      exact change_questJoin hoffer haccount hok.1 c args
  | questShare c args =>
      cases hs
      exact change_questShare c args
  | questComplete ctx c args =>
      cases hs
      exact change_questComplete hok c args
  | play c player =>
      rw [AccountData.step, Option.ite_none_right_eq_some] at hs
      obtain ⟨hids, hacc'⟩ := hs
      cases hacc'
      refine .quiet rfl ?_
      rw [AccountEvent.character, AccountData.activeCount_setPlayer_self,
        QuestJournal.activeCount_map]
      exact (congrArg (List.count questID) hids).trans (QuestJournal.activeCount_map _ _).symm

/-- A step is about one character. -/
theorem activeCount_step_of_ne {acc' : AccountData ι} {e : AccountEvent ι}
    (hs : acc.step cfg e = some acc') {c : ι} (hc : c ≠ e.character) :
    acc'.activeCount questID c = acc.activeCount questID c := by
  cases e with
  | questJoin ctx c' args =>
      cases hs
      have hne : c ≠ c' := hc
      rcases @questJoin_cases ι _ cfg acc ctx c' args with
        ⟨p, -, hresult⟩ | ⟨_, p, acc'', -, -, -, hplayers, -, hresult⟩
      · rw [hresult, AccountData.activeCount_setPlayer_of_ne hne]
      · rw [hresult, AccountData.activeCount_setPlayer_of_ne hne, AccountData.activeCount, hplayers]
        rfl
  | questShare c' args =>
      cases hs
      cases args with
      | nil => rfl
      | cons id rest =>
          rw [AccountData.questShare]
          split
          · exact AccountData.activeCount_setPlayer_of_ne hc _ questID
          · rfl
  | questComplete ctx c' args =>
      cases hs
      exact AccountData.activeCount_setPlayer_of_ne hc _ questID
  | play c' player =>
      rw [AccountData.step, Option.ite_none_right_eq_some] at hs
      obtain ⟨-, hacc'⟩ := hs
      cases hacc'
      exact AccountData.activeCount_setPlayer_of_ne hc _ questID

end Steps

namespace QuestHistory

/-- The quest is recorded once when it was joined, by one character; who has it or completed it is
that one. -/
structure Inv (questID : Int) (s : QuestHistory ι) : Prop where
  recorded : s.acc.accountQuests.count questID = if s.joined = [] then 0 else 1
  oneJoined : ∀ c ∈ s.joined, ∀ c' ∈ s.joined, c' = c
  active : ∀ c, 0 < s.acc.activeCount questID c → c ∈ s.joined
  completed : ∀ c ∈ s.completed, c ∈ s.joined

variable {cfg : OfferConfig} {questID : Int} {s s' : QuestHistory ι}

omit [DecidableEq ι] in
theorem Fresh.inv (h : s.Fresh questID) : s.Inv questID where
  recorded := by rw [h.joined, if_pos rfl, List.count_eq_zero]; exact h.unrecorded
  oneJoined := by rw [h.joined]; exact fun _ hc => nomatch hc
  active := fun c hc => absurd (h.inactive c) hc.ne'
  completed := by rw [h.completed]; exact fun _ hc => nomatch hc

omit [DecidableEq ι] in
theorem Inv.mem_accountQuests (h : s.Inv questID) :
    questID ∈ s.acc.accountQuests ↔ s.joined ≠ [] := by
  rw [← List.count_pos_iff, h.recorded]
  split
  · next hnil => exact iff_of_false (lt_irrefl 0) fun hne => hne hnil
  · next hne => exact iff_of_true Nat.one_pos hne

omit [DecidableEq ι] in
theorem Inv.oncePerAccount (h : s.Inv questID) : s.OncePerAccount questID where
  recorded := h.mem_accountQuests
  once := by rw [h.recorded]; split <;> omega
  oneCompletes := fun c hc c' hc' => (h.oneJoined c (h.completed c hc) c' (h.completed c' hc')).symm

/-- What a step writes down. -/
theorem step_some {e : AccountEvent ι} (hs : s.step cfg questID e = some s') :
    s.acc.step cfg e = some s'.acc ∧
      s'.joined = (if s.acc.activeCount questID e.character < s'.acc.activeCount questID e.character
        then e.character :: s.joined else s.joined) ∧
      s'.completed =
        (if s'.acc.activeCount questID e.character < s.acc.activeCount questID e.character
        then e.character :: s.completed else s.completed) := by
  obtain ⟨acc, hacc, rfl⟩ := Option.map_eq_some_iff.mp hs
  exact ⟨hacc, rfl, rfl⟩

omit [DecidableEq ι] in
/-- A step that joins nothing, or lets one character join that is the only one who ever did, keeps
the invariant when the record follows. -/
theorem Inv.keep {c : ι} (h : s.Inv questID)
    (hothers : ∀ c', c' ≠ c → s'.acc.activeCount questID c' = s.acc.activeCount questID c')
    (hjoined : s'.joined = s.joined ∨ s'.joined = c :: s.joined ∧ ∀ c' ∈ s.joined, c' = c)
    (hrecord : s'.acc.accountQuests.count questID = if s'.joined = [] then 0 else 1)
    (hactive : 0 < s'.acc.activeCount questID c → c ∈ s'.joined)
    (hcompleted : s'.completed = s.completed ∨ s'.completed = c :: s.completed ∧ c ∈ s.joined) :
    s'.Inv questID := by
  have hsub : ∀ c' ∈ s.joined, c' ∈ s'.joined := by
    rcases hjoined with hjoined | ⟨hjoined, -⟩
    · exact fun _ hc => hjoined ▸ hc
    · exact fun _ hc => hjoined ▸ List.mem_cons_of_mem c hc
  refine ⟨hrecord, ?_, fun c' hc' => ?_, ?_⟩
  · rcases hjoined with hjoined | ⟨hjoined, hone⟩
    · rw [hjoined]
      exact h.oneJoined
    · have hall : ∀ c' ∈ s'.joined, c' = c := by
        rw [hjoined]
        exact List.forall_mem_cons.mpr ⟨rfl, hone⟩
      exact fun c₁ h₁ c₂ h₂ => (hall c₂ h₂).trans (hall c₁ h₁).symm
  · by_cases hcc : c' = c
    · subst hcc
      exact hactive hc'
    · exact hsub c' (h.active c' (by rw [← hothers c' hcc]; exact hc'))
  · rcases hcompleted with hcompleted | ⟨hcompleted, hc⟩
    · rw [hcompleted]
      exact fun c' hc' => hsub c' (h.completed c' hc')
    · rw [hcompleted]
      exact List.forall_mem_cons.mpr ⟨hsub c hc, fun c' hc' => hsub c' (h.completed c' hc')⟩

theorem Inv.step {qdef : OfferedQuest} (hoffer : cfg.offer questID = some qdef)
    (haccount : qdef.accountQuest = true) (h : s.Inv questID) {e : AccountEvent ι}
    (hok : s.Proper cfg questID e) (hs : s.step cfg questID e = some s') : s'.Inv questID := by
  obtain ⟨hacc, hjoined, hcompleted⟩ := step_some hs
  have hothers : ∀ c', c' ≠ e.character →
      s'.acc.activeCount questID c' = s.acc.activeCount questID c' :=
    fun c' hc' => activeCount_step_of_ne hacc hc'
  cases change_step hoffer haccount hok hacc with
  | quiet hrecord hactive =>
      rw [hactive, if_neg (lt_irrefl _)] at hjoined hcompleted
      refine h.keep hothers (.inl hjoined) ?_ (fun hc => ?_) (.inl hcompleted)
      · rw [hrecord, hjoined, h.recorded]
      · rw [hjoined]
        exact h.active _ (by rw [← hactive]; exact hc)
  | @join ctx c args hid haccepts hnew hrecord hactive =>
      have hnone : s.joined = [] := by
        by_contra hne
        exact hnew (h.mem_accountQuests.mpr hne)
      rw [if_pos (hok.2 hid haccepts)] at hactive
      have hlt : s.acc.activeCount questID c < s'.acc.activeCount questID c := by omega
      rw [AccountEvent.character, if_pos hlt] at hjoined
      rw [AccountEvent.character, if_neg hlt.not_gt] at hcompleted
      refine h.keep hothers (.inr ⟨hjoined, ?_⟩) ?_ (fun _ => ?_) (.inl hcompleted)
      · rw [hnone]
        exact fun _ hc => nomatch hc
      · rw [hrecord, List.count_append, List.count_singleton_self, List.count_eq_zero.mpr hnew,
          hjoined, if_neg (List.cons_ne_nil _ _)]
      · rw [hjoined]
        exact List.mem_cons_self
  | @share c args hid hshare hrecord hactive =>
      obtain ⟨hrecorded, hone⟩ := hok hid hshare
      have hne := h.mem_accountQuests.mp hrecorded
      obtain ⟨c', hc'⟩ := List.exists_mem_of_ne_nil _ hne
      have hc : c ∈ s.joined := hone c' hc' ▸ hc'
      have hcount : s'.acc.accountQuests.count questID = 1 := by
        rw [hrecord, h.recorded, if_neg hne]
      rw [AccountEvent.character, if_neg hactive.not_gt] at hcompleted
      rw [AccountEvent.character] at hjoined
      split at hjoined
      · refine h.keep hothers (.inr ⟨hjoined, hone⟩) ?_ (fun _ => ?_) (.inl hcompleted)
        · rw [hcount, hjoined, if_neg (List.cons_ne_nil _ _)]
        · rw [hjoined]
          exact List.mem_cons_self
      · refine h.keep hothers (.inl hjoined) ?_ (fun _ => ?_) (.inl hcompleted)
        · rw [hcount, hjoined, if_neg hne]
        · rw [hjoined]
          exact hc
  | @complete ctx c args hrecord hactive =>
      have hc : c ∈ s.joined := h.active c (Nat.zero_lt_of_lt hactive)
      rw [AccountEvent.character, if_neg hactive.not_gt] at hjoined
      rw [AccountEvent.character, if_pos hactive] at hcompleted
      refine h.keep hothers (.inl hjoined) ?_ (fun _ => ?_) (.inr ⟨hcompleted, hc⟩)
      · rw [hrecord, h.recorded, hjoined]
      · rw [hjoined]
        exact hc

end QuestHistory

/-- In every run whose steps are proper, the quest is recorded exactly when a character joined it,
once, and one character at most completes it. -/
theorem run_oncePerAccount {cfg : OfferConfig} {questID : Int} {qdef : OfferedQuest}
    (hoffer : cfg.offer questID = some qdef) (haccount : qdef.accountQuest = true)
    {h : List (QuestHistory ι × AccountEvent ι)} {s : QuestHistory ι}
    (run : Trace (QuestHistory.Fresh questID) (QuestHistory.Proper cfg questID)
      (QuestHistory.step cfg questID) h s) : s.OncePerAccount questID := by
  have hinv : s.Inv questID := by
    induction run with
    | start hfresh => exact hfresh.inv
    | next _ hok hs ih => exact ih.step hoffer haccount hok hs
  exact hinv.oncePerAccount

/-- The errand as a quest that an account can do once, given by creatures of definition 5. -/
def deed : OfferedQuest := { errand with questGiverID := 5, accountQuest := true }

def deedConfig : OfferConfig where
  questDef :=
    { getQuestDefPtrByID := fun id => if id = 1 then some deed.toQuestDefinition else none
      keyed := by
        intro id qd h
        rw [Option.ite_none_right_eq_some] at h
        obtain ⟨rfl, h⟩ := h
        cases h
        rfl }
  items := .ofList []
  offer := fun id => if id = 1 then some deed else none
  offered := fun id => by
    change (if id = 1 then some deed.toQuestDefinition else none) = _
    split <;> rfl

/-- Two characters that were offered some quests. -/
def deedStart (availableQuests : QuestReferenceContainer) : QuestHistory Bool where
  acc := { players := fun _ => { journal := { availableQuests } } }

theorem deedStart_fresh (availableQuests : QuestReferenceContainer) :
    (deedStart availableQuests).Fresh 1 :=
  ⟨rfl, rfl, List.not_mem_nil, fun _ => rfl⟩

/-- A giver of the quest next to the character. -/
def deedGiver : JoinContext where
  creature := fun cid => if cid = 9 then some { creatureDefID := 5 } else none

theorem run_oncePerAccount_deed :
    ∃ s, runAll (QuestHistory.step deedConfig 1) (deedStart [{ questID := 1 }])
        [.questJoin deedGiver true [1, 9], .questComplete {} true [1, 0]] = some s ∧
      s.OncePerAccount 1 := by
  have hproper : OkAll (QuestHistory.Proper deedConfig 1) (QuestHistory.step deedConfig 1)
      (deedStart [{ questID := 1 }])
      [.questJoin deedGiver true [1, 9], .questComplete {} true [1, 0]] :=
    ⟨⟨fun _ => rfl, fun _ _ => by decide⟩, fun _ _ =>
      ⟨fun _ h => (nomatch h), fun _ _ => trivial⟩⟩
  obtain ⟨s, hs⟩ : ∃ s, runAll (QuestHistory.step deedConfig 1) (deedStart [{ questID := 1 }])
      [.questJoin deedGiver true [1, 9], .questComplete {} true [1, 0]] = some s := ⟨_, rfl⟩
  exact ⟨s, hs, run_oncePerAccount (show deedConfig.offer 1 = some deed from rfl) rfl
    ((Trace.start (deedStart_fresh _)).runAll hproper hs)⟩

/-- Where the quest is not available, `quest.join` records a quest that nobody has; and where two
characters share and join it, both complete it. -/
theorem recorded_not_joined :
    (∃ s : QuestHistory Bool,
        Reach (QuestHistory.Fresh 1) (fun _ _ => True) (QuestHistory.step deedConfig 1) s ∧
        s.acc.accountQuests = [1] ∧ s.joined = [] ∧ ¬s.OncePerAccount 1) ∧
      ∃ s : QuestHistory Bool,
        Reach (QuestHistory.Fresh 1) (fun _ _ => True) (QuestHistory.step deedConfig 1) s ∧
        s.completed = [false, true] ∧ ¬s.OncePerAccount 1 := by
  constructor
  · obtain ⟨s, hrun, hs⟩ : ∃ s, runAll (QuestHistory.step deedConfig 1) (deedStart [])
        [.questJoin deedGiver true [1, 9]] = some s ∧ s.acc.accountQuests = [1] ∧ s.joined = [] :=
      ⟨_, rfl, by decide, by decide⟩
    refine ⟨s, reach_of_runAll (deedStart_fresh _) hrun, hs.1, hs.2, fun h => ?_⟩
    exact h.recorded.mp (by rw [hs.1]; decide) hs.2
  · obtain ⟨s, hrun, hs⟩ : ∃ s, runAll (QuestHistory.step deedConfig 1)
        (deedStart [{ questID := 1 }]) [.questShare true [1], .questJoin deedGiver false [1, 9],
          .questComplete {} true [1, 0], .questComplete {} false [1, 0]] = some s ∧
        s.completed = [false, true] :=
      ⟨_, rfl, by decide⟩
    refine ⟨s, reach_of_runAll (deedStart_fresh _) hrun, hs, fun h => ?_⟩
    exact absurd (h.oneCompletes false (by rw [hs]; decide) true (by rw [hs]; decide)) (by decide)

end Iceee.Quest
