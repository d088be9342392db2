import Iceee.Auction.Bidding
import Iceee.CreditShop.Item
import Iceee.Lib.Machine

/-!
# Purchases in the credit shop

A purchase reads the item from the cluster, checks it and delivers, and writes its copy back with
one more sold. Nothing keeps two purchases apart, and the quantities that are subtracted are
unsigned. A run sells no more than is left exactly when every purchase writes over the count that it
read, and that count is not above the limit.

## Implementation notes

A player has one query at a time. Whatever else happens to a player is a step of its own. Messages,
pending updates and the log are left out.
-/

namespace Iceee.CreditShop

open Lib

open Auction (addItemError)

inductive CreditShopError
  | soldOut | notEnoughCopper | notEnoughCredits | notYetAvailable | noLongerAvailable
  | notEnoughFreeSlots | serverError
  deriving DecidableEq, Repr

/-- `GetDescription`. -/
def CreditShopError.getDescription : CreditShopError → String
  | .soldOut => "Sold out!"
  | .notEnoughCopper => "You do not have enough copper!"
  | .notEnoughCredits => "You do not have enough credits!"
  | .notYetAvailable => "This item is not yet available!"
  | .noLongerAvailable => "This item is no longer available!"
  | .notEnoughFreeSlots => "You do not have enough slots in your inventory!"
  | .serverError => "Internal error."

/-- What a purchase reads and changes of the player and the account. -/
structure Player where
  copper : Int := 0
  credits : Int := 0
  accountCredits : Int := 0
  inventory : InventoryManager := {}

namespace CreditShopItem

/-- The price has copper in it. -/
def costsCopper (csItem : CreditShopItem) : Bool :=
  csItem.mPriceCurrency == .copper || csItem.mPriceCurrency == .copperCredits

/-- The price has credits in it. -/
def costsCredits (csItem : CreditShopItem) : Bool :=
  csItem.mPriceCurrency == .credits || csItem.mPriceCurrency == .copperCredits

/-- The test for the quantity; the difference is unsigned. -/
def isSoldOut (csItem : CreditShopItem) : Bool :=
  csItem.mQuantityLimit != 0 && csItem.mQuantityLimit - csItem.mQuantitySold < 1

end CreditShopItem

section Handler

variable (clock : Clock) (im : ItemManager) (useAccountCredits : Bool)

/-- `ValidateItem`: the error, and the player, whose credits may come from the account. -/
def validateItem (csItem : CreditShopItem) (p : Player) (nowTimeSec : Int) :
    Option CreditShopError × Player :=
  if csItem.isSoldOut then (some .soldOut, p)
  else if csItem.costsCopper ∧ UInt64.ofInt p.copper < csItem.mPriceCopper then
    (some .notEnoughCopper, p)
  else
    let p := if csItem.costsCredits ∧ useAccountCredits then
      { p with credits := p.accountCredits } else p
    if csItem.costsCredits ∧ UInt64.ofInt p.credits < csItem.mPriceCredits then
      (some .notEnoughCredits, p)
    else if csItem.mStartDate ≠ 0 ∧ nowTimeSec < csItem.mStartDate then (some .notYetAvailable, p)
    else if csItem.mEndDate ≠ 0 ∧ nowTimeSec ≥ csItem.mEndDate then (some .noLongerAvailable, p)
    else if (p.inventory.getFreeSlot invContainer).isNone then (some .notEnoughFreeSlots, p)
    else (none, p)

/-- The checks of the handler on the copy it read, and the delivery. -/
def deliver (csItem : CreditShopItem) (p : Player) (nowTimeSec : Int) (now : Nat) :
    Except String Unit × Player :=
  match validateItem useAccountCredits csItem p nowTimeSec with
  | (some error, p) => (.error error.getDescription, p)
  | (none, p) =>
      match p.inventory.addItemEx im now invContainer
          (im.getSafePointerByID csItem.mItemId).mID (csItem.mIv1 + 1) with
      | (none, inventory) =>
          (.error (addItemError inventory.lastError), { p with inventory := inventory })
      | (some _, inventory) => (.ok (), { p with inventory := inventory })

/-- What the player pays. -/
def charge (csItem : CreditShopItem) (p : Player) : Player :=
  let p := if csItem.costsCopper then
    { p with copper := wrap32 (p.copper - csItem.mPriceCopper.toNat) } else p
  if csItem.costsCredits then
    let credits := wrap32 (p.credits - csItem.mPriceCredits.toNat)
    { p with
      credits := credits
      accountCredits := if useAccountCredits then credits else p.accountCredits }
  else p

/-- `GetItem`. -/
def getItem (ptime : String → Tm) (client : Client) (id : Int) : CreditShopItem :=
  CreditShopItem.readEntity clock ptime { key := CreditShopItem.entityKey id } client { mId := id }

/-- `UpdateItem`. -/
def updateItem (client : Client) (csItem : CreditShopItem) : Client :=
  (csItem.writeEntity clock).finish client

/-- Where a query stands: the item is read, or checked and delivered. -/
inductive Query
  | loaded (csItem : CreditShopItem)
  | delivered (csItem : CreditShopItem)

/-- The copy that the query has of the item. -/
def Query.csItem : Query → CreditShopItem
  | .loaded csItem => csItem
  | .delivered csItem => csItem

structure ShopState where
  client : Client := {}
  players : Nat → Player := fun _ => {}
  queries : Nat → Option Query := fun _ => none
  responses : List (Nat × Except String Unit) := []

namespace ShopState

/-- The query of a player goes on. -/
def setQuery (s : ShopState) (player : Nat) (query : Query) : ShopState :=
  { s with queries := Function.update s.queries player (some query) }

/-- The query of a player is answered. -/
def respond (s : ShopState) (player : Nat) (response : Except String Unit) : ShopState :=
  { s with
    queries := Function.update s.queries player none
    responses := (player, response) :: s.responses }

def setPlayer (s : ShopState) (player : Nat) (p : Player) : ShopState :=
  { s with players := Function.update s.players player p }

/-- How many purchases were answered with OK. -/
def successes (s : ShopState) : Nat := s.responses.countP (·.2.isOk)

end ShopState

/-- The steps of `CreditShopBuyHandler::handleQuery`, and what else happens to a player. -/
inductive Event
  | read (player : Nat) (ptime : String → Tm)
  | validate (player : Nat) (nowTimeSec : Int) (now : Nat)
  | write (player : Nat)
  | change (player : Nat) (p : Player)

/-- A step of the purchases of the item `id`. -/
def step (id : Int) (s : ShopState) : Event → Option ShopState
  | .read player ptime =>
      if (s.queries player).isSome then none
      else
        let csItem := getItem clock ptime s.client id
        if csItem.mId = 0 then some (s.respond player (.error "No such item."))
        else some (s.setQuery player (.loaded csItem))
  | .validate player nowTimeSec now =>
      match s.queries player with
      | some (.loaded csItem) =>
          match deliver im useAccountCredits csItem (s.players player) nowTimeSec now with
          | (.error message, p) => some ((s.setPlayer player p).respond player (.error message))
          | (.ok (), p) => some ((s.setPlayer player p).setQuery player (.delivered csItem))
      | _ => none
  | .write player =>
      match s.queries player with
      | some (.delivered csItem) =>
          let s := s.setPlayer player (charge useAccountCredits csItem (s.players player))
          let csItem := { csItem with mQuantitySold := csItem.mQuantitySold + 1 }
          some ({ s with client := updateItem clock s.client csItem }.respond player (.ok ()))
      | _ => none
  | .change player p => some (s.setPlayer player p)

end Handler

/-! ### The quantities in the store -/

/-- A quantity of an item as it is read from the store. -/
def quantity (client : Client) (id : Int) (key : String) : UInt32 :=
  UInt32.ofInt (ClusterEntityReader.valueInt { key := CreditShopItem.entityKey id } client key)

theorem getItem_quantities (clock : Clock) (ptime : String → Tm) (client : Client) (id : Int) :
    (getItem clock ptime client id).mQuantityLimit = quantity client id "QuantityLimit" ∧
      (getItem clock ptime client id).mQuantitySold = quantity client id "QuantitySold" ∧
      (getItem clock ptime client id).mId = id := by
  unfold getItem CreditShopItem.readEntity
  dsimp only
  split
  · split <;> exact ⟨rfl, rfl, rfl⟩
  · exact ⟨rfl, rfl, rfl⟩

/-- A quantity that is written, where it is not zero; else what was there stays. -/
theorem quantity_updateItem (clock : Clock) (client : Client) (csItem : CreditShopItem)
    {key : String} {n : UInt32}
    (hkey : valueOf (csItem.strings clock) "" key =
      if (n.toNat : Int) > 0 then some (printInt n.toNat) else none) :
    quantity (updateItem clock client csItem) csItem.mId key =
      if n = 0 then quantity client csItem.mId key else n := by
  have hsec : ∃ v ∈ csItem.strings clock,
      EntityKey.sectionName v.sec = EntityKey.sectionName "" := ⟨_, List.mem_cons_self, rfl⟩
  unfold quantity updateItem ClusterEntityReader.valueInt
  rw [ClusterEntityReader.value_eq (ClusterEntityReader.fresh_new _ "" _),
    ClusterEntityReader.value_eq (ClusterEntityReader.fresh_new _ "" _),
    CreditShopItem.writeEntity_eq, ClusterEntityWriter.field_finish_of_mem client "" hsec, hkey]
  split
  · rename_i hpos
    have hne : n ≠ 0 := by
      rintro rfl
      exact absurd hpos (by decide)
    have hmax : max (n.toNat : Int) 0 = n.toNat := max_eq_left (Int.natCast_nonneg _)
    rw [if_neg hne, Option.some_or, Option.getD_some, parseInt_printInt, ← hmax,
      CreditShopItem.ofInt_toNat]
  · rename_i hzero
    have heq : n = 0 := UInt32.toNat_inj.mp (by simpa using hzero)
    rw [if_pos heq, Option.none_or]

theorem quantityLimit_updateItem (clock : Clock) (client : Client) (csItem : CreditShopItem) :
    quantity (updateItem clock client csItem) csItem.mId "QuantityLimit" =
      if csItem.mQuantityLimit = 0 then quantity client csItem.mId "QuantityLimit"
      else csItem.mQuantityLimit :=
  quantity_updateItem clock client csItem (CreditShopItem.holds_strings clock csItem).quantityLimit

theorem quantitySold_updateItem (clock : Clock) (client : Client) (csItem : CreditShopItem) :
    quantity (updateItem clock client csItem) csItem.mId "QuantitySold" =
      if csItem.mQuantitySold = 0 then quantity client csItem.mId "QuantitySold"
      else csItem.mQuantitySold :=
  quantity_updateItem clock client csItem (CreditShopItem.holds_strings clock csItem).quantitySold

/-! ### What a step does -/

/-- The test for the quantity only fails where as many are sold as may be. -/
theorem isSoldOut_eq_false_iff {csItem : CreditShopItem} :
    csItem.isSoldOut = false ↔
      (csItem.mQuantityLimit ≠ 0 → csItem.mQuantitySold ≠ csItem.mQuantityLimit) := by
  have hlt (n : UInt32) : n < 1 ↔ n = 0 := by
    rw [UInt32.lt_iff_toNat_lt, ← UInt32.toNat_inj]
    exact Nat.lt_one_iff
  have hsub : csItem.mQuantityLimit - csItem.mQuantitySold = 0 ↔
      csItem.mQuantitySold = csItem.mQuantityLimit := by
    rw [sub_eq_zero, eq_comm]
  simp only [CreditShopItem.isSoldOut, Bool.and_eq_false_imp, bne_iff_ne, decide_eq_false_iff_not,
    hlt, hsub, ne_eq]

section Steps

variable {clock : Clock} {im : ItemManager} {useAccountCredits : Bool} {id : Int}
  {s s' : ShopState} {e : Event}

/-- What is sold out is not delivered. -/
theorem not_isSoldOut_of_deliver {csItem : CreditShopItem} {p p' : Player} {nowTimeSec : Int}
    {now : Nat} (h : deliver im useAccountCredits csItem p nowTimeSec now = (.ok (), p')) :
    csItem.isSoldOut = false := by
  by_contra hsold
  rw [Bool.not_eq_false] at hsold
  have hvalid : validateItem useAccountCredits csItem p nowTimeSec = (some .soldOut, p) := by
    unfold validateItem
    rw [if_pos hsold]
  unfold deliver at h
  rw [hvalid] at h
  cases (Prod.mk.inj h).1

theorem query_of_update_none {queries : Nat → Option Query} {player p : Nat} {query : Query}
    (h : Function.update queries player none p = some query) : queries p = some query := by
  by_cases hp : p = player
  · subst hp
    simp at h
  · rwa [Function.update_of_ne hp] at h

theorem query_of_update_some {queries : Nat → Option Query} {player p : Nat}
    {query query' : Query} (h : Function.update queries player (some query') p = some query) :
    queries p = some query ∨ p = player ∧ query = query' := by
  by_cases hp : p = player
  · subst hp
    rw [Function.update_self] at h
    exact .inr ⟨rfl, (Option.some.inj h).symm⟩
  · rw [Function.update_of_ne hp] at h
    exact .inl h

/-- A write stores the copy with one more sold. -/
theorem step_write {player : Nat}
    (hs : step clock im useAccountCredits id s (.write player) = some s') :
    ∃ csItem, s.queries player = some (.delivered csItem) ∧
      s'.client = updateItem clock s.client
        { csItem with mQuantitySold := csItem.mQuantitySold + 1 } ∧
      s'.successes = s.successes + 1 ∧
      ∀ p query, s'.queries p = some query → s.queries p = some query := by
  unfold step at hs
  dsimp only at hs
  split at hs
  · rename_i csItem hquery
    obtain rfl := Option.some.inj hs
    exact ⟨csItem, hquery, rfl, List.countP_cons_of_pos rfl, fun _ _ => query_of_update_none⟩
  · cases hs

/-- Any other step leaves the store and the count of successes alone, and at most takes one query a
step on. -/
theorem step_other (hne : ∀ player, e ≠ .write player)
    (hs : step clock im useAccountCredits id s e = some s') :
    s'.client = s.client ∧ s'.successes = s.successes ∧
      ∀ player query, s'.queries player = some query →
        s.queries player = some query ∨
        (∃ ptime, query = .loaded (getItem clock ptime s.client id)) ∨
        ∃ csItem, s.queries player = some (.loaded csItem) ∧ query = .delivered csItem ∧
          csItem.isSoldOut = false := by
  cases e with
  | read player ptime =>
      unfold step at hs
      dsimp only at hs
      split_ifs at hs
      · obtain rfl := Option.some.inj hs
        exact ⟨rfl, List.countP_cons_of_neg (by simp [Except.isOk, Except.toBool]),
          fun _ _ h => .inl (query_of_update_none h)⟩
      · obtain rfl := Option.some.inj hs
        refine ⟨rfl, rfl, fun p query h => ?_⟩
        rcases query_of_update_some h with hold | ⟨-, rfl⟩
        · exact .inl hold
        · exact .inr (.inl ⟨ptime, rfl⟩)
  | validate player nowTimeSec now =>
      unfold step at hs
      dsimp only at hs
      split at hs
      · rename_i csItem hquery
        split at hs
        · obtain rfl := Option.some.inj hs
          exact ⟨rfl, List.countP_cons_of_neg (by simp [Except.isOk, Except.toBool]),
            fun _ _ h => .inl (query_of_update_none h)⟩
        · rename_i p' hdeliver
          obtain rfl := Option.some.inj hs
          refine ⟨rfl, rfl, fun p query h => ?_⟩
          rcases query_of_update_some h with hold | ⟨rfl, rfl⟩
          · exact .inl hold
          · exact .inr (.inr ⟨csItem, hquery, rfl, not_isSoldOut_of_deliver hdeliver⟩)
      · cases hs
  | write player => exact absurd rfl (hne player)
  | change player p =>
      obtain rfl := Option.some.inj hs
      exact ⟨rfl, rfl, fun p query h => .inl h⟩

end Steps

/-! ### Runs -/

/-- The sold count in the store. -/
def ShopState.sold (id : Int) (s : ShopState) : UInt32 := quantity s.client id "QuantitySold"

/-- The limit of an item has been set, and no purchase is under way. -/
structure Starts (id : Int) (limit sold : UInt32) (s : ShopState) : Prop where
  storedLimit : quantity s.client id "QuantityLimit" = limit
  storedSold : s.sold id = sold
  queries : ∀ player, s.queries player = none
  responses : s.responses = []

/-- Every success counts as one sold, and no more are sold than were left. -/
structure WithinLimit (id : Int) (limit sold : UInt32) (s : ShopState) : Prop where
  counted : (s.sold id).toNat = sold.toNat + s.successes
  bounded : s.successes ≤ limit.toNat - sold.toNat

/-- A purchase succeeds only where the stored count is below the limit, which rises by one. -/
def ProperPurchase (id : Int) (limit : UInt32) (s s' : ShopState) : Prop :=
  s.successes < s'.successes →
    s.sold id < limit ∧ (s'.sold id).toNat = (s.sold id).toNat + 1

/-- A purchase that is written has read the count that is stored, and that is not above the
limit. -/
def Current (id : Int) (limit : UInt32) (s : ShopState) : Event → Prop
  | .write player => ∀ csItem, s.queries player = some (.delivered csItem) →
      csItem.mQuantitySold = s.sold id ∧ s.sold id ≤ limit
  | _ => True

instance (id : Int) (limit : UInt32) (s : ShopState) : DecidablePred (Current id limit s)
  | .write player =>
      match hquery : s.queries player with
      | some (.delivered csItem) =>
          decidable_of_iff (csItem.mQuantitySold = s.sold id ∧ s.sold id ≤ limit) <| by
            simp [Current, hquery]
      | some (.loaded _) => isTrue fun _ h => by simp [hquery] at h
      | none => isTrue fun _ h => by simp [hquery] at h
  | .read .. => isTrue trivial
  | .validate .. => isTrue trivial
  | .change .. => isTrue trivial

/-- What a query holds has the limit, and is not sold out once it is delivered. -/
def Query.Fits (id : Int) (limit : UInt32) : Query → Prop
  | .loaded csItem => csItem.mId = id ∧ csItem.mQuantityLimit = limit
  | .delivered csItem =>
      csItem.mId = id ∧ csItem.mQuantityLimit = limit ∧ csItem.mQuantitySold ≠ limit

structure Consistent (id : Int) (limit sold : UInt32) (s : ShopState) : Prop
    extends WithinLimit id limit sold s where
  storedLimit : quantity s.client id "QuantityLimit" = limit
  fits : ∀ player query, s.queries player = some query → query.Fits id limit

section Runs

variable {clock : Clock} {im : ItemManager} {useAccountCredits : Bool} {id : Int}
  {limit sold : UInt32} {s s' : ShopState} {e : Event}

theorem consistent_of_starts (h : Starts id limit sold s) : Consistent id limit sold s where
  counted := by
    rw [h.storedSold, ShopState.successes, h.responses]
    rfl
  bounded := by
    rw [ShopState.successes, h.responses]
    exact Nat.zero_le _
  storedLimit := h.storedLimit
  fits player query hquery := by
    rw [h.queries player] at hquery
    cases hquery

/-- What a write does to the quantities. -/
theorem sold_of_step_write (hlimit : limit ≠ 0) (h : Consistent id limit sold s) {player : Nat}
    (hs : step clock im useAccountCredits id s (.write player) = some s') :
    ∃ csItem, s.queries player = some (.delivered csItem) ∧ csItem.mQuantitySold ≠ limit ∧
      s'.sold id = (if csItem.mQuantitySold + 1 = 0 then s.sold id
        else csItem.mQuantitySold + 1) ∧
      quantity s'.client id "QuantityLimit" = limit ∧ s'.successes = s.successes + 1 := by
  obtain ⟨csItem, hquery, hclient, hsuccesses, -⟩ := step_write hs
  obtain ⟨hid, hcopy, hsold⟩ : Query.Fits id limit (.delivered csItem) := h.fits player _ hquery
  refine ⟨csItem, hquery, hsold, ?_, ?_, hsuccesses⟩
  · rw [ShopState.sold, hclient, ← hid]
    exact quantitySold_updateItem clock s.client
      { csItem with mQuantitySold := csItem.mQuantitySold + 1 }
  · calc quantity s'.client id "QuantityLimit"
        = if csItem.mQuantityLimit = 0 then quantity s.client id "QuantityLimit"
            else csItem.mQuantityLimit := by
          rw [hclient, ← hid]
          exact quantityLimit_updateItem clock s.client
            { csItem with mQuantitySold := csItem.mQuantitySold + 1 }
      _ = limit := by rw [hcopy, if_neg hlimit]

theorem toNat_add_one {n : UInt32} (h : n + 1 ≠ 0) : (n + 1).toNat = n.toNat + 1 := by
  have hlt := n.toNat_lt
  have hne : (n + 1).toNat ≠ 0 := fun hzero => h (UInt32.toNat_inj.mp hzero)
  rw [UInt32.toNat_add] at hne ⊢
  have hone : (1 : UInt32).toNat = 1 := rfl
  omega

/-- A step that is not a write leaves the quantities alone. -/
theorem Consistent.step_other (hlimit : limit ≠ 0) (hne : ∀ player, e ≠ .write player)
    (h : Consistent id limit sold s)
    (hs : step clock im useAccountCredits id s e = some s') : Consistent id limit sold s' := by
  obtain ⟨hclient, hsuccesses, hqueries⟩ := CreditShop.step_other hne hs
  constructor
  · constructor
    · rw [ShopState.sold, hclient, hsuccesses]
      exact h.counted
    · rw [hsuccesses]
      exact h.bounded
  · rw [hclient]
    exact h.storedLimit
  · intro player query hquery
    rcases hqueries player query hquery with hold | ⟨ptime, rfl⟩ | ⟨csItem, hloaded, rfl, havail⟩
    · exact h.fits player query hold
    · obtain ⟨hcopy, -, hid⟩ := getItem_quantities clock ptime s.client id
      exact ⟨hid, hcopy.trans h.storedLimit⟩
    · obtain ⟨hid, rfl⟩ : Query.Fits id limit (.loaded csItem) := h.fits player _ hloaded
      exact ⟨hid, rfl, isSoldOut_eq_false_iff.mp havail hlimit⟩

/-- A purchase that is current takes one of those that are left. -/
theorem Consistent.step_write (hlimit : limit ≠ 0) (h : Consistent id limit sold s) {player : Nat}
    (hcurrent : Current id limit s (.write player))
    (hs : step clock im useAccountCredits id s (.write player) = some s') :
    Consistent id limit sold s' ∧ s.sold id < limit ∧
      (s'.sold id).toNat = (s.sold id).toNat + 1 := by
  obtain ⟨csItem, hquery, hleft, hsold, hstored, hsuccesses⟩ := sold_of_step_write hlimit h hs
  obtain ⟨hcopy, hle⟩ := hcurrent csItem hquery
  rw [hcopy] at hleft hsold
  have hlt : s.sold id < limit := UInt32.lt_of_le_of_ne hle hleft
  have hltNat := UInt32.lt_iff_toNat_lt.mp hlt
  have hne : s.sold id + 1 ≠ 0 := by
    intro hzero
    have hcarry := UInt32.toNat_add (s.sold id) 1
    have hmax := limit.toNat_lt
    have hone : (1 : UInt32).toNat = 1 := rfl
    rw [hzero, hone, UInt32.toNat_zero] at hcarry
    omega
  rw [if_neg hne] at hsold
  have hrise : (s'.sold id).toNat = (s.sold id).toNat + 1 := by rw [hsold, toNat_add_one hne]
  have hcounted := h.counted
  have hbounded := h.bounded
  obtain ⟨-, -, -, -, hqueries⟩ := CreditShop.step_write hs
  exact ⟨⟨⟨by omega, by omega⟩, hstored, fun p query hq => h.fits p query (hqueries p query hq)⟩,
    hlt, hrise⟩

/-- A purchase that is not current breaks the count, or sells what is not left. -/
theorem not_withinLimit_of_write (hlimit : limit ≠ 0) (h : Consistent id limit sold s)
    {player : Nat} (hstale : ¬Current id limit s (.write player))
    (hs : step clock im useAccountCredits id s (.write player) = some s') :
    ¬WithinLimit id limit sold s' := by
  obtain ⟨csItem, hquery, -, hsold, -, hsuccesses⟩ := sold_of_step_write hlimit h hs
  intro hwithin
  apply hstale
  intro copy hcopy
  obtain rfl : csItem = copy := Query.delivered.inj (Option.some.inj (hquery.symm.trans hcopy))
  have hcounted := h.counted
  have hcounted' := hwithin.counted
  have hbounded' := hwithin.bounded
  have hne : csItem.mQuantitySold + 1 ≠ 0 := by
    intro hzero
    rw [if_pos hzero] at hsold
    rw [hsold] at hcounted'
    omega
  rw [if_neg hne] at hsold
  rw [hsold, toNat_add_one hne] at hcounted'
  refine ⟨UInt32.toNat_inj.mp (by omega), UInt32.le_iff_toNat_le.mpr (by omega)⟩

/-- Purchases sell no more than was left when the limit was set, and each counts as one, exactly
when each writes over the count that it has read, and that is not above the limit. -/
theorem purchases_withinLimit_iff (hlimit : limit ≠ 0) {h : List (ShopState × Event)}
    (run : Trace (Starts id limit sold) (fun _ _ => True) (step clock im useAccountCredits id)
      h s) :
    (WithinLimit id limit sold s ∧
        ∀ e ∈ h, WithinLimit id limit sold e.1 ∧
          ∀ s', step clock im useAccountCredits id e.1 e.2 = some s' →
            ProperPurchase id limit e.1 s') ↔
      ∀ e ∈ h, Current id limit e.1 e.2 := by
  refine @Trace.sound_iff _ _ _ (Current id limit) _ _ (Consistent id limit sold)
    (WithinLimit id limit sold) (fun s _ s' => ProperPurchase id limit s s')
    (fun _ => consistent_of_starts) (fun _ h => h.toWithinLimit) ?_ ?_ h s run
  · intro s e s' hinv hcurrent hs
    by_cases hwrite : ∃ player, e = .write player
    · obtain ⟨player, rfl⟩ := hwrite
      obtain ⟨hinv', hproper⟩ := hinv.step_write hlimit hcurrent hs
      exact ⟨hinv', fun _ => hproper⟩
    · rw [not_exists] at hwrite
      refine ⟨hinv.step_other hlimit hwrite hs, fun hmore => ?_⟩
      obtain ⟨-, hsame, -⟩ := CreditShop.step_other hwrite hs
      omega
  · intro s e s' hinv hs hwithin _
    by_contra hstale
    by_cases hwrite : ∃ player, e = .write player
    · obtain ⟨player, rfl⟩ := hwrite
      exact not_withinLimit_of_write hlimit hinv hstale hs hwithin
    · cases e with
      | write player => exact absurd ⟨player, rfl⟩ hwrite
      | read player ptime => exact hstale trivial
      | validate player nowTimeSec now => exact hstale trivial
      | change player p => exact hstale trivial

end Runs

/-! ### A charm that is given away -/

/-- Players with room for one item each, and a charm in the shop. -/
def charmShop (limit sold : UInt32) : ShopState where
  client := updateItem Util.utc {}
    { mId := 1, mItemId := 5, mQuantityLimit := limit, mQuantitySold := sold }
  players := fun _ => { inventory := { maxContainerSlot := fun _ => 1 } }

/-- A step of the purchases of the charm. -/
def charmStep : ShopState → Event → Option ShopState :=
  step Util.utc (.ofList [{ mID := 5 }]) false 1

theorem charmShop_starts (limit sold : UInt32)
    (hlimit : quantity (charmShop limit sold).client 1 "QuantityLimit" = limit)
    (hsold : (charmShop limit sold).sold 1 = sold) :
    Starts 1 limit sold (charmShop limit sold) where
  storedLimit := hlimit
  storedSold := hsold
  queries _ := rfl
  responses := rfl

/-- The events of one purchase that nothing comes between. -/
def purchase (player : Nat) : List Event :=
  [.read player midnight, .validate player 0 0, .write player]

/-- The only charm is sold. -/
theorem charm_withinLimit :
    ∃ h s, Trace (Starts 1 1 0) (fun _ _ => True) charmStep h s ∧ WithinLimit 1 1 0 s ∧
      s.successes = 1 := by
  have hstarts : Starts 1 1 0 (charmShop 1 0) :=
    charmShop_starts 1 0 (by decide) (by decide)
  have hrun : runAll charmStep (charmShop 1 0) (purchase 0) = some _ :=
    eq_some_getD (by decide) {}
  have run := (Trace.start hstarts).runAll (okAll_true _ _) hrun
  have hcurrent := (purchases_withinLimit_iff (by decide) run).mpr (by decide)
  exact ⟨_, _, run, hcurrent.1, by decide⟩

/-- Two players read the shop before either writes, and both get the only charm; and one is sold
where the limit was lowered below what had been sold. -/
theorem charm_overLimit :
    (∃ h s, Trace (Starts 1 1 0) (fun _ _ => True) charmStep h s ∧ ¬WithinLimit 1 1 0 s) ∧
      ∃ h s, Trace (Starts 1 1 2) (fun _ _ => True) charmStep h s ∧ ¬WithinLimit 1 1 2 s := by
  constructor
  · have hstarts : Starts 1 1 0 (charmShop 1 0) :=
      charmShop_starts 1 0 (by decide) (by decide)
    have hrun : runAll charmStep (charmShop 1 0)
        [.read 0 midnight, .read 1 midnight, .validate 0 0 0, .validate 1 0 0, .write 0,
          .write 1] = some _ := eq_some_getD (by decide) {}
    refine ⟨_, _, (Trace.start hstarts).runAll (okAll_true _ _) hrun, fun hwithin => ?_⟩
    exact absurd hwithin.bounded (by decide)
  · have hstarts : Starts 1 1 2 (charmShop 1 2) :=
      charmShop_starts 1 2 (by decide) (by decide)
    have hrun : runAll charmStep (charmShop 1 2) (purchase 0) = some _ :=
      eq_some_getD (by decide) {}
    refine ⟨_, _, (Trace.start hstarts).runAll (okAll_true _ _) hrun, fun hwithin => ?_⟩
    exact absurd hwithin.bounded (by decide)

end Iceee.CreditShop
