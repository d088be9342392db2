import Iceee.Inventory.ItemMove

/-!
# The queries that change a character's items

`item.move`, `item.split`, `item.delete` and the sell and buyback halves of `trade.shop`,
with the two removal operations and `AddItem_Ex` that the rest of the server uses. `step`
runs one of them.

## Implementation notes

Two handlers keep a pointer into a container while they append to that container. What
such a read returns after the storage moved is an input of the event, called `stale`.
The factor a grinder pays is a floating-point product and stands in as `recoup`.
-/

namespace Iceee

open Lib

/-- What a query sends back. -/
inductive Response
  | ok
  | error (msg : String)
  | null
  deriving DecidableEq, Repr

namespace InventorySlot

/-- `IsExpired`. -/
def isExpired (s : InventorySlot) : Bool := s.secondsRemaining == 0

end InventorySlot

namespace InventoryManager

variable (im : ItemManager) (now : Nat)

/-- `AddBuyBack`: a full list loses its oldest entry, then the copy goes to the end. The
item is read after the eviction. -/
def addBuyBack (inv : InventoryManager) (buybackLimit : Nat) (ccsid : Nat)
    (item stale : InventorySlot) : InventoryManager :=
  let l := inv.containerList buybackContainer
  let full := decide (l.length ≥ buybackLimit)
  let kept := if full then l.eraseIdx 0 else l
  let read := if full && containerOf ccsid == some buybackContainer then stale else item
  { inv.setContainer buybackContainer
      (kept ++ [{ read with ccsid := getCCSID buybackContainer inv.buybackSlot }]) with
    buybackSlot := inv.buybackSlot + 1 }

/-- The buyback list after the eviction of `AddBuyBack`. -/
def keptBuyback (inv : InventoryManager) (buybackLimit : Nat) : List InventorySlot :=
  let l := inv.containerList buybackContainer
  if l.length ≥ buybackLimit then l.eraseIdx 0 else l

/-- The entry `AddBuyBack` copies: an eviction from its own container moves it. -/
def buybackRead (inv : InventoryManager) (buybackLimit ccsid : Nat)
    (item stale : InventorySlot) : InventorySlot :=
  if decide ((inv.containerList buybackContainer).length ≥ buybackLimit) &&
    containerOf ccsid == some buybackContainer then stale else item

/-- `AddBuyBack` appends one entry to what the eviction kept. -/
theorem containerList_addBuyBack (inv : InventoryManager) (buybackLimit ccsid : Nat)
    (item stale : InventorySlot) :
    (inv.addBuyBack buybackLimit ccsid item stale).containerList =
      (inv.setContainer buybackContainer (inv.keptBuyback buybackLimit ++
        [{ inv.buybackRead buybackLimit ccsid item stale with
            ccsid := getCCSID buybackContainer inv.buybackSlot }])).containerList := by
  unfold addBuyBack keptBuyback buybackRead
  simp

theorem containerList_remItem_congr {inv inv' : InventoryManager} {ccsid : Nat}
    (h : inv.containerList = inv'.containerList) :
    (inv.remItem ccsid).containerList = (inv'.remItem ccsid).containerList := by
  unfold remItem
  cases containerOf ccsid with
  | none => exact h
  | some c => simp [setContainer, h]

/-- Change the first slot with a CCSID in place. -/
def modifyCCSID (inv : InventoryManager) (ccsid : Nat) (f : InventorySlot → InventorySlot) :
    InventoryManager :=
  match containerOf ccsid with
  | none => inv
  | some c =>
      match indexOfCCSID (inv.containerList c) ccsid with
      | none => inv
      | some i => inv.modifySlot c i f

/-- The scan of `GetBestSpecialItem`: the smallest stack maximum below the one so far. -/
def bestSpecialItem (specialItemType : SpecialItemType) :
    List InventorySlot → Int × Nat → Int × Nat
  | [], best => best
  | sl :: rest, best =>
      let next :=
        match im.getPointerByID sl.iid with
        | some d =>
            if sl.isExpired = false ∧ d.mSpecialItemType = specialItemType ∧
                d.getDynamicMax .stacking < best.1 then
              (d.getDynamicMax .stacking, sl.ccsid)
            else best
        | none => best
      bestSpecialItem specialItemType rest next

/-- `GetBestSpecialItem`. -/
def getBestSpecialItem (inv : InventoryManager) (c : ContainerID)
    (specialItemType : SpecialItemType) : Option InventorySlot :=
  let best := bestSpecialItem im specialItemType (inv.containerList c) (99999, 0)
  if best.2 = 0 then none else inv.getItemPtrByCCSID best.2

/-- The scan keeps the best so far, or finds an item of the kind in the list. -/
theorem bestSpecialItem_cases (t : SpecialItemType) (l : List InventorySlot) (best : Int × Nat) :
    bestSpecialItem im t l best = best ∨
      ∃ sl ∈ l, ∃ d, im.getPointerByID sl.iid = some d ∧ d.mSpecialItemType = t := by
  induction l generalizing best with
  | nil => exact .inl rfl
  | cons sl rest ih =>
      have hlater (next : Int × Nat) (h : next = best ∨
          ∃ d, im.getPointerByID sl.iid = some d ∧ d.mSpecialItemType = t) :
          bestSpecialItem im t rest next = best ∨
            ∃ sl' ∈ sl :: rest, ∃ d, im.getPointerByID sl'.iid = some d ∧
              d.mSpecialItemType = t := by
        rcases ih next with hkeep | ⟨sl', hmem, hd⟩
        · rcases h with rfl | hd
          · exact .inl hkeep
          · exact .inr ⟨sl, List.mem_cons_self, hd⟩
        · exact .inr ⟨sl', List.mem_cons_of_mem sl hmem, hd⟩
      apply hlater
      cases hd : im.getPointerByID sl.iid with
      | none => exact .inl rfl
      | some d =>
          simp only
          split
          · rename_i hcond
            exact .inr ⟨d, rfl, hcond.2.1⟩
          · exact .inl rfl

/-- A special item that is found has an item of its kind in the container. -/
theorem exists_of_getBestSpecialItem {inv : InventoryManager} {c : ContainerID}
    {t : SpecialItemType} (h : (inv.getBestSpecialItem im c t).isSome) :
    ∃ sl ∈ inv.containerList c, ∃ d, im.getPointerByID sl.iid = some d ∧
      d.mSpecialItemType = t := by
  rcases bestSpecialItem_cases im t (inv.containerList c) (99999, 0) with hbest | hfound
  · simp [getBestSpecialItem, hbest] at h
  · exact hfound

/-- `FindNextExpunge`. -/
def findNextExpunge (inv : InventoryManager) : InventoryManager :=
  let items := (List.finRange maxContainer).flatMap inv.containerList
  { inv with
    nextExpunge := items.foldl (fun next item =>
      if item.secondsRemaining > -1 then
        let due := ((now : Int) + item.getTimeRemaining now).toNat
        if next = 0 ∨ due ≤ next then due else next
      else next) 0 }

/-- An entry of the list `ScanRemoveItems` fills. -/
structure InventoryQuery where
  index : Nat
  ccsid : Nat
  remove : Bool
  count : Int
  deriving DecidableEq, Repr

/-- `ScanRemoveItems` on the part of a container from `index` on. -/
def scanRemoveItems (itemID : Int) : List InventorySlot → Nat → Int → List InventoryQuery
  | [], _, _ => []
  | slot :: rest, index, remain =>
      if remain ≤ 0 then []
      else if slot.iid = itemID then
        let stackCount := slot.getStackCount im
        let iq : InventoryQuery :=
          if remain ≥ stackCount then ⟨index, slot.ccsid, true, stackCount⟩
          else ⟨index, slot.ccsid, false, remain⟩
        iq :: scanRemoveItems itemID rest (index + 1) (remain - stackCount)
      else scanRemoveItems itemID rest (index + 1) remain

/-- `ProcessIqResults`: partial stacks shrink first, whole ones are removed after. -/
def processIqResults (inv : InventoryManager) (c : ContainerID) (iq : List InventoryQuery) :
    InventoryManager :=
  let shrunk := (iq.filter fun q => !q.remove).foldl
    (fun inv q => inv.modifySlot c q.index fun s => { s with count := s.count - q.count }) inv
  (iq.filter fun q => q.remove).foldl (fun inv q => inv.remItem q.ccsid) shrunk

/-- `RemoveItemsAndUpdate`. -/
def removeItemsAndUpdate (inv : InventoryManager) (c : ContainerID) (itemID itemCost : Int) :
    InventoryManager :=
  (inv.processIqResults c (scanRemoveItems im itemID (inv.containerList c) 0 itemCost))
    |>.findNextExpunge now

end InventoryManager

/-- What `item.move` reads besides its arguments. -/
structure MoveContext where
  busy : Bool := false
  trading : Bool := false
  sessions : Nat := 1
  stats : MoveStats
  deriving DecidableEq, Repr

/-- The inventory a container of a query is taken from. -/
def ownerOf (c : ContainerID) : Owner :=
  if c = deliveryContainer then .account else .character

namespace CharacterState

variable (im : ItemManager)

/-- The part of `item.move` that reads the arguments: CCSID, container name and slot, or
`none` when arguments are missing. -/
def parseMove (ctx : MoveContext) : Option (Nat × String × Int) → Except Response MoveRequest
  | none => .error (.error "Invalid query->")
  | some (arg, name, slot) =>
      let ccsid := arg % 2 ^ 32
      let orig := InventoryManager.containerOf ccsid
      match getContainerIDFromName name with
      | none => .error (.error "Unknown destination container.")
      | some dest =>
          if ctx.busy then .error (.error "You may not move items while busy.")
          else if ctx.trading then .error (.error "You may not move items while trading.")
          else if (dest = bankContainer ∨ orig = some bankContainer) ∧ ctx.sessions > 1 then
            .error (.error
              "You cannot use vaults while logged into multiple account characters at once.")
          else if (dest = deliveryContainer ∨ orig = some deliveryContainer) ∧
              ctx.sessions > 1 then
            .error (.error
              "You cannot use delivery boxes while logged into multiple account characters at once.")
          else if (dest = stampsContainer ∨ orig = some stampsContainer) ∧ ctx.sessions > 1 then
            .error (.error
              "You cannot use stamp boxes while logged into multiple account characters at once.")
          else
            match orig with
            | none => .error (.error "Failed to move item.")
            | some orig =>
                .ok ⟨(ownerOf orig, orig), (ccsid % 65536 : Nat), (ownerOf dest, dest),
                  wrap32 slot⟩

/-- The checks `item.move` makes on the two slots. -/
def moveRefusal (s : CharacterState) (stats : MoveStats) (m : MoveRequest) : Option Response :=
  if (s.inv m.orig.1).verifyContainerSlotBoundary m.orig.2 m.origSlot = false ∨
      (s.inv m.dest.1).verifyContainerSlotBoundary m.dest.2 m.destSlot = false then
    some (.error "Failed to move item.")
  else if m.dest.2 = stampsContainer then
    match s.findAt m.orig m.origSlot with
    | none => some (.error "Invalid item.")
    | some (_, source) =>
        match im.getPointerByID source.iid with
        | some d =>
            if d.mID = postageStampItemId then none
            else some (.error "You may only add stamps to a stamp container.")
        | none => some (.error "You may only add stamps to a stamp container.")
  else if m.dest.2 = eqContainer then
    match s.findAt m.orig m.origSlot with
    | none => some (.error "Invalid item.")
    | some (_, source) =>
        (InventoryManager.verifyEquipItem (im.getPointerByID source.iid) m.destSlot stats.level
          stats.profession).map fun e => .error (InventoryManager.getEqErrorString e)
  else none

/-- The response to a value of `ItemMove` that is not a success. -/
def moveErrorResponse (dest : ContainerID) (mpos : Int) : Response :=
  if mpos = -1 then
    .error "You cannot equip a two-handed weapon while using an off-hand item."
  else if mpos = -2 then
    .error "You cannot equip an offhand item while using a two-handed weapon."
  else if mpos = -3 then .ok
  else if mpos = -4 then
    if dest = deliveryContainer then
      .error "Items bound to you cannot be placed into your delivery box."
    else if dest = auctionContainer then .error "Items bound to you cannot be auctioned."
    else .error "Items bound to you cannot be placed into your vault."
  else
    match [InventoryManager.EqError.item, .level, .profession, .slot].find? fun e =>
        mpos + 100 == e.code with
    | some e => .error (InventoryManager.getEqErrorString e)
    | none => .error "Failed to move item."

/-- After equipment changed, the backpack of each inventory involved is recounted. -/
def recount (s : CharacterState) (m : MoveRequest) : CharacterState :=
  if m.orig.2 = eqContainer ∨ m.dest.2 = eqContainer then
    let s := s.setInv m.orig.1 ((s.inv m.orig.1).countInventorySlots im)
    if m.orig.1 ≠ m.dest.1 then s.setInv m.dest.1 ((s.inv m.dest.1).countInventorySlots im)
    else s
  else s

/-- `item.move`. -/
def itemMoveQuery (s : CharacterState) (ctx : MoveContext) (args : Option (Nat × String × Int)) :
    Response × CharacterState :=
  match parseMove ctx args with
  | .error r => (r, s)
  | .ok m =>
      match s.moveRefusal im ctx.stats m with
      | some r => (r, s)
      | none =>
          match s.itemMove im ctx.stats m with
          | .error mpos => (moveErrorResponse m.dest.2 mpos, s)
          | .ok s' => (.ok, s'.recount im m)

/-- The move an `item.move` query carries out, if its checks let it through. -/
def moveOf (s : CharacterState) (ctx : MoveContext) (args : Option (Nat × String × Int)) :
    Option (MoveRequest × MoveEffect) :=
  match parseMove ctx args with
  | .error _ => none
  | .ok m =>
      match s.moveRefusal im ctx.stats m, s.itemMoveEffect im ctx.stats m with
      | none, .ok eff => some (m, eff)
      | _, _ => none

/-- A query changes the state exactly when it carries out a move. -/
theorem itemMoveQuery_snd (s : CharacterState) (ctx : MoveContext)
    (args : Option (Nat × String × Int)) :
    (s.itemMoveQuery im ctx args).2 =
      match s.moveOf im ctx args with
      | some (m, eff) => (s.applyEffect m eff).recount im m
      | none => s := by
  unfold itemMoveQuery moveOf itemMove
  cases parseMove ctx args with
  | error r => rfl
  | ok m =>
      cases hr : s.moveRefusal im ctx.stats m with
      | some r => simp [hr]
      | none => cases he : s.itemMoveEffect im ctx.stats m <;> simp [hr, he, Except.map]

/-- What the arguments of a query that reaches its checks say about the move. -/
theorem parseMove_ok {ctx : MoveContext} {args : Option (Nat × String × Int)} {m : MoveRequest}
    (h : parseMove ctx args = .ok m) :
    m.orig.1 = ownerOf m.orig.2 ∧ m.dest.1 = ownerOf m.dest.2 ∧
      0 ≤ m.origSlot ∧ m.origSlot < 65536 := by
  unfold parseMove at h
  cases args with
  | none => cases h
  | some args =>
      obtain ⟨arg, name, slot⟩ := args
      simp only at h
      cases hd : getContainerIDFromName name with
      | none => simp [hd] at h
      | some dest =>
          simp only [hd] at h
          split_ifs at h
          cases ho : InventoryManager.containerOf (arg % 2 ^ 32) with
          | none =>
              rw [ho] at h
              cases h
          | some orig =>
              simp only [ho, Except.ok.injEq] at h
              subst h
              exact ⟨rfl, rfl, by simp; omega, by simp; omega⟩

/-- What the query's own checks leave. -/
theorem moveRefusal_none {s : CharacterState} {stats : MoveStats} {m : MoveRequest}
    (h : s.moveRefusal im stats m = none) :
    0 ≤ m.destSlot ∧
    (m.dest.2 = stampsContainer → ∀ e ∈ s.findAt m.orig m.origSlot,
      ∃ d, im.getPointerByID e.2.iid = some d ∧ d.mID = postageStampItemId) ∧
    (m.dest.2 = eqContainer → ∀ e ∈ s.findAt m.orig m.origSlot,
      InventoryManager.verifyEquipItem (im.getPointerByID e.2.iid) m.destSlot stats.level
        stats.profession = none) := by
  unfold moveRefusal at h
  split_ifs at h with hb hstamps heq
  all_goals
    simp only [not_or, Bool.not_eq_false] at hb
    have hpos : 0 ≤ m.destSlot := by
      have hb := hb.2
      unfold InventoryManager.verifyContainerSlotBoundary at hb
      split_ifs at hb
      omega
    refine ⟨hpos, ?_, ?_⟩
  · rintro - e he
    have he := Option.mem_def.mp he
    simp only [he] at h
    cases hd : im.getPointerByID e.2.iid with
    | none => simp [hd] at h
    | some d =>
        simp only [hd, ite_eq_left_iff, reduceCtorEq, imp_false, not_not] at h
        exact ⟨d, rfl, h⟩
  · intro heq
    rw [hstamps] at heq
    exact absurd heq (by decide)
  · exact fun hc => absurd hc hstamps
  · rintro - e he
    have he := Option.mem_def.mp he
    simpa [he] using h
  · exact fun hc => absurd hc hstamps
  · exact fun hc => absurd hc heq

/-- A move that is carried out passed the parsing, the checks of the query and those of
`ItemMove`. -/
theorem moveOf_some {s : CharacterState} {ctx : MoveContext} {args : Option (Nat × String × Int)}
    {m : MoveRequest} {eff : MoveEffect} (h : s.moveOf im ctx args = some (m, eff)) :
    parseMove ctx args = .ok m ∧ s.moveRefusal im ctx.stats m = none ∧
      s.itemMoveEffect im ctx.stats m = .ok eff := by
  unfold moveOf at h
  cases hp : parseMove ctx args with
  | error r => simp [hp] at h
  | ok m' =>
      simp only [hp] at h
      split at h
      · rename_i hr he
        simp only [Option.some.injEq, Prod.mk.injEq] at h
        obtain ⟨rfl, rfl⟩ := h
        exact ⟨rfl, hr, he⟩
      · cases h

/-- `AdjustCopper`. -/
def adjustCopper (s : CharacterState) (coinChange : Int) : CharacterState :=
  { s with copper := max 0 (wrap32 (s.copper + coinChange)) }

/-- `helper_trade_shop_sell`. -/
def shopSell (buybackLimit : Nat) (s : CharacterState) (ccsid : Nat) (stale : InventorySlot) :
    Response × CharacterState :=
  let inv := s.inv .character
  match inv.getItemPtrByCCSID ccsid with
  | none => (.error "Item not found in inventory.", s)
  | some item =>
      match im.getPointerByID item.iid with
      | none => (.error "Item does not exist in server database.", s)
      | some d =>
          let cost := wrap32 (d.mValue * item.getStackCount im)
          let inv := (inv.addBuyBack buybackLimit ccsid item stale).remItem ccsid
          (.ok, (s.setInv .character inv).adjustCopper cost)

/-- A sale changes nothing, or moves the item to the buyback list and pays for it. -/
theorem shopSell_cases (buybackLimit : Nat) (s : CharacterState) (ccsid : Nat)
    (stale : InventorySlot) :
    (s.shopSell im buybackLimit ccsid stale).2 = s ∨
    ∃ item d, (s.inv .character).getItemPtrByCCSID ccsid = some item ∧
      im.getPointerByID item.iid = some d ∧
      (s.shopSell im buybackLimit ccsid stale).2 =
        (s.setInv .character
          (((s.inv .character).addBuyBack buybackLimit ccsid item stale).remItem ccsid)).adjustCopper
            (wrap32 (d.mValue * item.getStackCount im)) := by
  unfold shopSell
  cases hitem : (s.inv .character).getItemPtrByCCSID ccsid with
  | none => exact .inl (by simp [hitem])
  | some item =>
      cases hd : im.getPointerByID item.iid with
      | none => exact .inl (by simp [hitem, hd])
      | some d => exact .inr ⟨item, d, rfl, hd, by simp [hitem, hd]⟩

/-- `helper_trade_shop_buyback`. -/
def shopBuyback (now : Nat) (s : CharacterState) (ccsid stale : Nat) :
    Response × CharacterState :=
  let inv := s.inv .character
  match inv.getItemPtrByCCSID ccsid with
  | none => (.error "Item not found in buyback list.", s)
  | some item =>
      match inv.getFreeSlot invContainer with
      | none => (.error "No free inventory space.", s)
      | some freeslot =>
          match im.getPointerByID item.iid with
          | none => (.error "Item does not exist in database.", s)
          | some d =>
              let cost := wrap32 (d.mValue * item.getStackCount im)
              if s.copper < cost then (.error "Not enough coin.", s)
              else
                let newItem :=
                  { item with ccsid := InventoryManager.getCCSID invContainer freeslot }
                let read :=
                  if InventoryManager.containerOf ccsid = some invContainer then stale else ccsid
                let inv := (inv.addItem now invContainer newItem).remItem read
                (.ok, (s.setInv .character inv).adjustCopper (wrap32 (-cost)))

/-- The CCSID a buyback removes: it is read again after the backpack has grown. -/
def buybackRemoves (ccsid stale : Nat) : Nat :=
  if InventoryManager.containerOf ccsid = some invContainer then stale else ccsid

/-- A buyback changes nothing, or copies an item to the backpack for its price. -/
theorem shopBuyback_cases (now : Nat) (s : CharacterState) (ccsid stale : Nat) :
    (s.shopBuyback im now ccsid stale).2 = s ∨
    ∃ item n d, (s.inv .character).getItemPtrByCCSID ccsid = some item ∧
      (s.inv .character).getFreeSlot invContainer = some n ∧
      im.getPointerByID item.iid = some d ∧
      ¬s.copper < wrap32 (d.mValue * item.getStackCount im) ∧
      (s.shopBuyback im now ccsid stale).2 =
        (s.setInv .character (((s.inv .character).addItem now invContainer
          { item with ccsid := InventoryManager.getCCSID invContainer n }).remItem
            (buybackRemoves ccsid stale))).adjustCopper
              (wrap32 (-wrap32 (d.mValue * item.getStackCount im))) := by
  unfold shopBuyback
  cases hitem : (s.inv .character).getItemPtrByCCSID ccsid with
  | none => exact .inl (by simp [hitem])
  | some item =>
      cases hn : (s.inv .character).getFreeSlot invContainer with
      | none => exact .inl (by simp [hitem, hn])
      | some n =>
          cases hd : im.getPointerByID item.iid with
          | none => exact .inl (by simp [hitem, hn, hd])
          | some d =>
              by_cases hcoin : s.copper < wrap32 (d.mValue * item.getStackCount im)
              · exact .inl (by simp [hitem, hn, hd, hcoin])
              · exact .inr ⟨item, n, d, rfl, rfl, hd, hcoin,
                  by simp [hitem, hn, hd, hcoin, buybackRemoves]⟩

/-- `item.split`. -/
def itemSplit (now : Nat) (s : CharacterState) (ccsid : Nat) (amount : Int) :
    Response × CharacterState :=
  let inv := s.inv .character
  match inv.getItemPtrByCCSID ccsid with
  | none => (.error "Item not found in inventory.", s)
  | some item =>
      match inv.getFreeSlot invContainer with
      | none => (.error "No free inventory space.", s)
      | some slot =>
          if amount < 1 ∨ amount ≥ item.getStackCount im then
            (.error "Cannot split that amount.", s)
          else
            let newItem :=
              { item with
                ccsid := InventoryManager.getCCSID invContainer slot
                count := amount - 1 }
            let inv := (inv.addItem now invContainer newItem).modifyCCSID ccsid
              fun s => { s with count := s.count - amount }
            (.ok, s.setInv .character inv)

/-- A split changes nothing, or moves part of a stack to a free backpack slot. -/
theorem itemSplit_cases (now : Nat) (s : CharacterState) (ccsid : Nat) (amount : Int) :
    (s.itemSplit im now ccsid amount).2 = s ∨
    ∃ item n, (s.inv .character).getItemPtrByCCSID ccsid = some item ∧
      (s.inv .character).getFreeSlot invContainer = some n ∧
      1 ≤ amount ∧ amount < item.getStackCount im ∧
      (s.itemSplit im now ccsid amount).2 =
        s.setInv .character (((s.inv .character).addItem now invContainer
          { item with
            ccsid := InventoryManager.getCCSID invContainer n
            count := amount - 1 }).modifyCCSID ccsid
              fun s => { s with count := s.count - amount }) := by
  unfold itemSplit
  cases hitem : (s.inv .character).getItemPtrByCCSID ccsid with
  | none => exact .inl (by simp [hitem])
  | some item =>
      cases hn : (s.inv .character).getFreeSlot invContainer with
      | none => exact .inl (by simp [hitem, hn])
      | some n =>
          by_cases hamount : amount < 1 ∨ amount ≥ item.getStackCount im
          · exact .inl (by simp only [hitem, hn, if_pos hamount])
          · have hrange : 1 ≤ amount ∧ amount < item.getStackCount im := by omega
            exact .inr ⟨item, n, rfl, rfl, hrange.1, hrange.2,
              by simp only [hitem, hn, if_neg hamount]⟩

/-- `item.delete`; `none` when a grinder is to pay for an item the tables do not know. -/
def itemDelete (recoup : Int → Int → Int) (s : CharacterState) (arg : Nat) :
    Option (Response × CharacterState) :=
  let inv := s.inv .character
  let ccsid := arg % 2 ^ 32
  match (InventoryManager.containerOf ccsid).bind
      fun c => inv.findBySlot c (ccsid % 65536 : Nat) with
  | none => some (.error "Item not found.", s)
  | some (_, item) =>
      let removed := s.setInv .character ((inv.remItem ccsid).countInventorySlots im)
      match inv.getBestSpecialItem im invContainer .itemGrinder with
      | none => some (.null, removed)
      | some grinder =>
          match im.getPointerByID grinder.iid, im.getPointerByID item.iid with
          | some g, some d =>
              let stack := max 1 (g.getDynamicMax .stacking)
              some (.null, removed.adjustCopper (wrap32 (recoup d.mValue stack)))
          | _, _ => none

/-- A deletion changes nothing, or removes the item; a grinder then pays for it. -/
theorem itemDelete_cases {recoup : Int → Int → Int} {s : CharacterState} {arg : Nat}
    {r : Response × CharacterState} (h : s.itemDelete im recoup arg = some r) :
    r.2 = s ∨
    (r.2 = s.setInv .character
        (((s.inv .character).remItem (arg % 2 ^ 32)).countInventorySlots im) ∨
      (((s.inv .character).getBestSpecialItem im invContainer .itemGrinder).isSome ∧
        ∃ coin, r.2 = (s.setInv .character
          (((s.inv .character).remItem (arg % 2 ^ 32)).countInventorySlots im)).adjustCopper
            coin)) := by
  unfold itemDelete at h
  simp only at h
  split at h
  · cases h
    exact .inl rfl
  · split at h
    · cases h
      exact .inr (.inl rfl)
    · rename_i hgrinder
      split at h
      · cases h
        exact .inr (.inr ⟨by simp [hgrinder], _, rfl⟩)
      · cases h

end CharacterState

/-- What happens to a character's items. -/
inductive CharacterEvent
  | addItem (now : Nat) (c : ContainerID) (itemID count : Int)
  | move (ctx : MoveContext) (args : Option (Nat × String × Int))
  | split (now : Nat) (ccsid : Nat) (amount : Int)
  | sell (ccsid : Nat) (stale : InventorySlot)
  | buyback (now : Nat) (ccsid stale : Nat)
  | delete (arg : Nat)
  | remItem (ccsid : Nat)
  | removeItems (now : Nat) (c : ContainerID) (itemID itemCost : Int)

/-- What the handlers take from the server's configuration. -/
structure ServerConfig where
  items : ItemManager
  buybackLimit : Nat := 32
  recoup : Int → Int → Int := fun _ _ => 0

namespace CharacterState

/-- One event of a character. -/
def step (cfg : ServerConfig) (s : CharacterState) : CharacterEvent → Option CharacterState
  | .addItem now c itemID count =>
      some (s.setInv .character ((s.inv .character).addItemEx cfg.items now c itemID count).2)
  | .move ctx args => some (s.itemMoveQuery cfg.items ctx args).2
  | .split now ccsid amount => some (s.itemSplit cfg.items now ccsid amount).2
  | .sell ccsid stale => some (s.shopSell cfg.items cfg.buybackLimit ccsid stale).2
  | .buyback now ccsid stale => some (s.shopBuyback cfg.items now ccsid stale).2
  | .delete arg => (s.itemDelete cfg.items cfg.recoup arg).map Prod.snd
  | .remItem ccsid => some (s.setInv .character ((s.inv .character).remItem ccsid))
  | .removeItems now c itemID itemCost =>
      some (s.setInv .character
        ((s.inv .character).removeItemsAndUpdate cfg.items now c itemID itemCost))

/-- Two empty inventories, with the backpack counted as after loading. -/
def fresh (cfg : ServerConfig) (localCharacterVault : Bool) : CharacterState where
  inv := fun _ => InventoryManager.countInventorySlots cfg.items {}
  localCharacterVault := localCharacterVault

end CharacterState

end Iceee
