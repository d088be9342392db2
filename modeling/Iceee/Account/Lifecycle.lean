import Iceee.Lib.Text
import Iceee.Lib.Keyed
import Iceee.Lib.Trace

/-!
# Accounts in memory

`AccountManager` keeps the accounts that are in use, writes the changed ones to the cluster in an
update cycle and unloads those whose expiry time has come. The sessions of an account are fields
of a hash in the cluster, keyed by the server time of the login.

## Implementation notes

What an account holds beyond its name is left open, but for the values that are not written at all
when they are empty or the default: the lists of the containers, and `MaxCharacters`. An account in
the list is known by its address `ptr`, since sessions keep a pointer to it. `since` and
`openSessions` are not in the source: the time an account was loaded, created or last logged out,
and the logins of an account less its logouts.
-/

namespace Iceee

open Lib

/-- `PlatformTime::MAX_TIME`. -/
def maxTime : Nat := 2 ^ 64 - 1

/-- What the cluster keeps of an account: its name, the values that `WriteEntity` may leave out, by
their keys, and all else. -/
structure AccountRecord (α : Type*) where
  name : Text
  optional : List (String × Text) := []
  rest : α
  deriving DecidableEq, Repr

namespace AccountRecord

variable {α : Type*} (r old : AccountRecord α)

/-- The values of an older record that writing a new one leaves in the cluster. -/
def stale : List (String × Text) := old.optional.filter fun e => e.1 ∉ r.optional.map Prod.fst

/-- The record that the cluster has once one is written: `HMSET` sets the fields it is given, and
the others stay. -/
def writeOver : Option (AccountRecord α) → AccountRecord α
  | none => r
  | some old => { r with optional := r.optional ++ r.stale old }

end AccountRecord

/-- An account in memory. -/
structure AccountData (α : Type*) extends AccountRecord α where
  ptr : Nat
  id : Int
  pendingMinorUpdates : Nat := 0
  expireTime : Nat := 0
  since : Nat := 0
  deriving DecidableEq, Repr

namespace AccountData

variable {α : Type*}

/-- `EXPIRE_TIME`, in milliseconds. -/
def expireSpan : Nat := 5000

/-- `ExpireOn`: later, or anything in place of never. -/
def expireOn (a : AccountData α) (time : Nat) : AccountData α :=
  if a.expireTime = maxTime ∨ time > a.expireTime then { a with expireTime := time } else a

/-- `UpdateExpiry`, given the sessions that the cluster counts. -/
def updateExpiry (a : AccountData α) (now sessions : Nat) : AccountData α :=
  if sessions > 0 then a.expireOn maxTime else a.expireOn (now + expireSpan)

/-- `QualifyGarbage`. -/
def qualifyGarbage (a : AccountData α) (now : Nat) (force : Bool) : Bool :=
  decide (a.pendingMinorUpdates = 0) && (decide (a.expireTime ≤ now) || force)

end AccountData

/-- The codes that account creation returns. -/
inductive AccountResult
  | success | key | sizeName | invName | hasName | sizePass | invPass | sizeGrove | invGrove
  | hasGrove
  deriving DecidableEq, Repr

/-- `ValidString`. -/
def validString (t : Text) : Bool :=
  t.all fun c => decide (32 < c.toNat) && decide (c.toNat < 127) && !([',', ';', '|', '&'].elem c)

/-- `ValidGroveString`: letters only, which become small. -/
def validGroveString (t : Text) : Option Text :=
  if t.all Char.isAlpha then some (t.map Char.toLower) else none

/-- The arguments of `CreateAccount`, each of which can be NULL. -/
structure CreateRequest where
  username : Option Text
  password : Option Text
  regKey : Option Text
  grovename : Option Text
  deriving DecidableEq, Repr

structure AccountManager (α : Type*) where
  accList : List (AccountData α) := []
  timerNextFire : Nat := 0
  nextPtr : Nat := 0
  /-- The accounts in the cluster. -/
  entities : Int → Option (AccountRecord α) := fun _ => none
  /-- The account IDs in the quick data, by login name. -/
  quickData : Text → Option Int := fun _ => none
  /-- For each account the fields of its hash: the server time of a login and the shard. -/
  sessions : Int → List (Nat × Text) := fun _ => []
  nextAccountID : Int := 0
  groveNames : List Text := []
  shardName : Text := []
  now : Nat := 0
  openSessions : Int → Nat := fun _ => 0

namespace AccountManager

variable {α : Type*}

/-! ### Sessions -/

/-- `CountAccountSessions`, of this shard and of the others. -/
def countAccountSessions (m : AccountManager α) (id : Int) : Nat := (m.sessions id).length

/-- `ClusterManager::Login`: `HSET` of the server time to the shard. -/
def login (m : AccountManager α) (id : Int) : AccountManager α :=
  { m with
    sessions := Function.update m.sessions id
      ((m.sessions id).filter (fun e => e.1 ≠ m.now) ++ [(m.now, m.shardName)]) }

/-- `ClusterManager::Logout`: `HDEL` of the first field that names this shard. -/
def logout (m : AccountManager α) (id : Int) : AccountManager α :=
  { m with
    sessions := Function.update m.sessions id
      ((m.sessions id).eraseP fun e => e.2 = m.shardName) }

/-! ### Loading -/

/-- `GetActiveAccountByID`. -/
def getActiveAccountByID (m : AccountManager α) (id : Int) : Option (AccountData α) :=
  m.accList.find? fun a => a.id = id

/-- `AccList.push_back` of a copy. -/
def pushAccount (m : AccountManager α) (a : AccountData α) : AccountManager α :=
  { m with
    accList := m.accList ++ [{ a with ptr := m.nextPtr, since := m.now }]
    nextPtr := m.nextPtr + 1 }

/-- `LoadAccountID`. An account that cannot be read is added as it was made; the expiry is set in
the local variable after the copy was added. -/
def loadAccountID [Inhabited α] (m : AccountManager α) (id : Int) (reads : Bool) :
    AccountManager α :=
  m.pushAccount
    { toAccountRecord := (if reads then m.entities id else none).getD ⟨[], [], default⟩
      ptr := 0
      id := id }

/-- `FetchIndividualAccount`. -/
def fetchIndividualAccount [Inhabited α] (m : AccountManager α) (id : Int) (reads : Bool) :
    AccountManager α :=
  match m.getActiveAccountByID id with
  | some _ => m
  | none => m.loadAccountID id reads

/-- The account ID that a user name is taken to, unless an account with the name is loaded. -/
def quickID (m : AccountManager α) (username : Text) : Option Int :=
  (m.quickData username).filter (· ≠ 0)

/-- `FetchAccountByUsername`: whether there is such an account, and the accounts afterwards. -/
def fetchAccountByUsername [Inhabited α] (m : AccountManager α) (username : Text)
    (reads : Bool) : Bool × AccountManager α :=
  if m.accList.any fun a => a.name = username then (true, m)
  else match m.quickID username with
    | some id => (true, m.fetchIndividualAccount id reads)
    | none => (false, m)

/-! ### Creating -/

/-- The account as it is when it is added to the list. -/
def newAccount (id : Int) (username : Text) (rest : α) : AccountData α where
  name := username
  rest := rest
  ptr := 0
  id := id
  pendingMinorUpdates := 1

/-- What both ways to create an account do at the end, with the ID from the cluster's counter. -/
def addNewAccount (m : AccountManager α) (username : Text) (rest : α) : AccountManager α :=
  let id := m.nextAccountID + 1
  let m := { m with nextAccountID := id }
  let m := m.pushAccount (newAccount id username rest)
  { m with quickData := Function.update m.quickData username (some id) }

/-- `CreateAccount`; `rest` is what becomes of the other fields of the new account. -/
def createAccount [Inhabited α] (m : AccountManager α) (r : CreateRequest) (rest : α)
    (reads : Bool) : AccountResult × AccountManager α :=
  match r.username, r.password, r.regKey, r.grovename with
  | none, _, _, _ => (.sizeName, m)
  | some _, none, _, _ => (.sizePass, m)
  | some _, some _, none, _ => (.key, m)
  | some _, some _, some _, none => (.sizeGrove, m)
  | some username, some password, some _, some grovename =>
      if username.length < 3 ∨ username.length > 48 then (.sizeName, m)
      else if validString username = false then (.invName, m)
      else
        let (found, m) := m.fetchAccountByUsername username reads
        if found then (.hasName, m)
        else if password.length < 3 ∨ password.length > 32 then (.sizePass, m)
        else if validString password = false then (.invPass, m)
        else if grovename.length < 3 ∨ grovename.length > 32 then (.sizeGrove, m)
        else match validGroveString grovename with
          | none => (.invGrove, m)
          | some adjustedGroveName =>
              if m.groveNames.contains adjustedGroveName then (.hasGrove, m)
              else
                let m := { m with groveNames := adjustedGroveName :: m.groveNames }
                (.success, m.addNewAccount username rest)

/-- `CreateAccountFromService`. -/
def createAccountFromService [Inhabited α] (m : AccountManager α) (username : Option Text)
    (rest : α) (reads : Bool) : AccountResult × AccountManager α :=
  match username with
  | none => (.sizeName, m)
  | some username =>
      if username.length < 3 ∨ username.length > 48 then (.sizeName, m)
      else if validString username = false then (.invName, m)
      else
        let (found, m) := m.fetchAccountByUsername username reads
        if found then (.hasName, m) else (.success, m.addNewAccount username rest)

/-! ### Sessions of an account -/

/-- Change the account at an address. -/
def modifyAccount (m : AccountManager α) (ptr : Nat) (f : AccountData α → AccountData α) :
    AccountManager α :=
  { m with accList := m.accList.map fun a => if a.ptr = ptr then f a else a }

/-- `AdjustSessionLoginCount` of the account at an address. -/
def adjustSessionLoginCount (m : AccountManager α) (a : AccountData α) (count : Int) :
    AccountManager α :=
  let m := if count = 1 then
      { m.login a.id with
        openSessions := Function.update m.openSessions a.id (m.openSessions a.id + 1) }
    else if count = -1 then
      { m.logout a.id with
        openSessions := Function.update m.openSessions a.id (m.openSessions a.id - 1) }
    else m
  m.modifyAccount a.ptr fun b =>
    { b with since := if count = -1 then m.now else b.since }.updateExpiry m.now
      (m.countAccountSessions a.id)

/-! ### The update cycle -/

/-- `SaveIndividualAccount`; a write that fails is only logged. -/
def saveIndividualAccount (entities : Int → Option (AccountRecord α)) (a : AccountData α)
    (writes : Bool) : Int → Option (AccountRecord α) :=
  if writes then Function.update entities a.id (some (a.writeOver (entities a.id))) else entities

/-- The loop of `RunUpdateCycle`: the accounts it keeps, and what is stored then. -/
def updateCycle (now : Nat) (force : Bool) (writes : Nat → Bool) :
    List (AccountData α) → (Int → Option (AccountRecord α)) →
      List (AccountData α) × (Int → Option (AccountRecord α))
  | [], entities => ([], entities)
  | a :: accList, entities =>
      let entities := if a.pendingMinorUpdates > 0 then
          saveIndividualAccount entities a (writes a.ptr)
        else entities
      let a := { a with pendingMinorUpdates := 0 }
      let rest := updateCycle now force writes accList entities
      if a.qualifyGarbage now force then rest else (a :: rest.1, rest.2)

/-- `GENERAL_UPDATE_FREQUENCY`. -/
def generalUpdateFrequency : Nat := 5000

/-- `RunUpdateCycle` at a time of the timer's clock. -/
def runUpdateCycle (m : AccountManager α) (curTime : Nat) (force : Bool) (writes : Nat → Bool) :
    AccountManager α :=
  if curTime < m.timerNextFire ∧ force = false then m
  else
    let r := updateCycle m.now force writes m.accList m.entities
    { m with
      accList := r.1
      entities := r.2
      timerNextFire :=
        if curTime < m.timerNextFire then m.timerNextFire else curTime + generalUpdateFrequency }

/-! ### Runs -/

end AccountManager

/-- What happens to the accounts. `reads` and `writes` say which reads and writes of the cluster
succeed. -/
inductive AccountEvent (α : Type*)
  | tick (ms : Nat)
  | loadAccountID (id : Int) (reads : Bool)
  | fetchIndividualAccount (id : Int) (reads : Bool)
  | createAccount (r : CreateRequest) (rest : α) (reads : Bool)
  | createAccountFromService (username : Option Text) (rest : α) (reads : Bool)
  | adjustSessionLoginCount (ptr : Nat) (count : Int)
  | change (ptr : Nat) (optional : List (String × Text)) (rest : α)
  | runUpdateCycle (curTime : Nat) (writes : Nat → Bool)

namespace AccountManager

/-- One step. A call through the address of an account that is gone has no next state. -/
def step [Inhabited α] (m : AccountManager α) : AccountEvent α → Option (AccountManager α)
  | .tick ms =>
      if m.now + ms + AccountData.expireSpan < maxTime then some { m with now := m.now + ms }
      else none
  | .loadAccountID id reads => some (m.loadAccountID id reads)
  | .fetchIndividualAccount id reads => some (m.fetchIndividualAccount id reads)
  | .createAccount r rest reads => some (m.createAccount r rest reads).2
  | .createAccountFromService username rest reads =>
      some (m.createAccountFromService username rest reads).2
  | .adjustSessionLoginCount ptr count =>
      (m.accList.find? fun a => a.ptr = ptr).map fun a => m.adjustSessionLoginCount a count
  | .change ptr optional rest =>
      if m.accList.any fun a => a.ptr = ptr then
        some (m.modifyAccount ptr fun a =>
          { a with
            optional := optional
            rest := rest
            pendingMinorUpdates := a.pendingMinorUpdates + 1 })
      else none
  | .runUpdateCycle curTime writes => some (m.runUpdateCycle curTime false writes)

/-- An account is unloaded by a step. -/
def Unloads (m m' : AccountManager α) (a : AccountData α) : Prop :=
  a ∈ m.accList ∧ ∀ b ∈ m'.accList, b.ptr ≠ a.ptr

/-- How an account is to be when it is unloaded. -/
structure UnloadedSafely (m m' : AccountManager α) (a : AccountData α) : Prop where
  no_session : m.openSessions a.id = 0
  expired : a.since + AccountData.expireSpan ≤ m.now
  stored : m'.entities a.id = some a.toAccountRecord

/-! ### When a step is permitted -/

/-- Nothing is loaded twice, and what is loaded is there to be read. -/
def Loadable (m : AccountManager α) (id : Int) (reads : Bool) : Prop :=
  (∀ a ∈ m.accList, a.id ≠ id) ∧ reads = true ∧ (m.entities id).isSome

/-- An account is loaded already, or it can be. -/
def Fetchable (m : AccountManager α) (id : Int) (reads : Bool) : Prop :=
  (∃ a ∈ m.accList, a.id = id) ∨ m.Loadable id reads

/-- The condition on a step. -/
def Permitted (m : AccountManager α) : AccountEvent α → Prop
  | .tick _ | .change _ _ _ => True
  | .loadAccountID id reads => m.Loadable id reads
  | .fetchIndividualAccount id reads => m.Fetchable id reads
  | .createAccount r _ reads =>
      ∀ username ∈ r.username, ∀ id ∈ m.quickID username, m.Fetchable id reads
  | .createAccountFromService name _ reads =>
      ∀ username ∈ name, ∀ id ∈ m.quickID username, m.Fetchable id reads
  | .adjustSessionLoginCount ptr count => count = 1 →
      ∀ a ∈ m.accList, a.ptr = ptr → (m.now, m.shardName) ∉ m.sessions a.id
  | .runUpdateCycle curTime writes => m.timerNextFire ≤ curTime → ∀ a ∈ m.accList,
      (a.pendingMinorUpdates > 0 →
        writes a.ptr = true ∧ ∀ old ∈ m.entities a.id, a.stale old = []) ∧
        (a.expireTime = 0 → a.since + AccountData.expireSpan ≤ m.now)

end AccountManager

end Iceee
