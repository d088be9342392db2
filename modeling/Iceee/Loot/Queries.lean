import Iceee.Inventory.Manager
import Iceee.Loot.Container
import Iceee.Loot.Party

/-!
# Loot queries of a party

`loot.item` takes an item from a corpse, or offers it to the party of the looter;
`loot.need`, `loot.greed` and `loot.pass` decide about an offer, and the last decision
awards the item. The state holds the parties, the players, and the loot containers of all
instances; a function returns `none` where the source would read through a null pointer.

## Implementation notes

A container is found by the instance of the looter and the creature ID of the corpse. How
far a creature stands from the corpse is an input of the query, and so is the number each
creature rolls. `stale` is what the kick handler reads from the entry it has erased.
-/

namespace Iceee

namespace Loot

/-- The error codes a loot query returns. -/
inductive QueryErrorMsg
  | none | generic | invalidItem | invalidObj | outOfRange | loot | lootDenied | lootMissing
  | invSpace | invCreate
  deriving DecidableEq, Repr

structure CreatureInstance where
  creatureID : Int
  creatureDefID : Int
  partyID : Int := 0
  actInst : Int := 0
  displayName : String := ""
  inventory : InventoryManager := {}

structure World where
  mPartyList : List ActiveParty := []
  nextPartyID : Int := 1
  lootSeq : Int := 0
  playerList : List CreatureInstance := []
  creatureList : Int × Int → Option ActiveLootContainer := fun _ => none

/-- `INTERACT_RANGE`. -/
def interactRange : Int := 50

/-- `PARTY_LOOT_RANGE`. -/
def partyLootRange : Int := 1920

/-- `protected_CheckDistanceBetweenCreaturesFor`, from the distance to the corpse when there
is one. -/
def checkDistance (boxRange : Option Int) (range : Int) : QueryErrorMsg :=
  match boxRange with
  | none => .invalidObj
  | some dist => if dist > range then .outOfRange else .none

namespace World

variable (im : ItemManager) (now : Nat) (w : World)

/-- `GetPartyByID`. -/
def getPartyByID (partyID : Int) : Option ActiveParty :=
  w.mPartyList.find? fun party => party.mPartyID == partyID

/-- Write back the party a pointer leads to. -/
def setParty (party : ActiveParty) : World :=
  { w with
    mPartyList :=
      w.mPartyList.modify (w.mPartyList.findIdx fun p => p.mPartyID == party.mPartyID)
        fun _ => party }

/-- The creature of a player. -/
def getCreature (creatureID : Int) : Option CreatureInstance :=
  w.playerList.find? fun c => c.creatureID == creatureID

/-- Change the creature of a player. -/
def modifyCreature (creatureID : Int) (f : CreatureInstance → CreatureInstance) : World :=
  { w with
    playerList := w.playerList.modify (w.playerList.findIdx fun c => c.creatureID == creatureID) f }

/-- Give a player another inventory. -/
def setInventory (creatureID : Int) (inv : InventoryManager) : World :=
  w.modifyCreature creatureID fun c => { c with inventory := inv }

/-- Give a player another party. -/
def setPartyID (creatureID partyID : Int) : World :=
  w.modifyCreature creatureID fun c => { c with partyID := partyID }

/-- Write back a loot container. -/
def setContainer (key : Int × Int) (loot : ActiveLootContainer) : World :=
  { w with creatureList := Function.update w.creatureList key (some loot) }

/-- `WorldLootContainer::GetCreature`, where -1 says that there is none. -/
def getContainer (key : Int × Int) : Option ActiveLootContainer :=
  if key.2 = -1 then none else w.creatureList key

/-- `WorldLootContainer::RemoveCreature`. -/
def removeCreature (key : Int × Int) : World :=
  if key.2 ≥ 0 then { w with creatureList := Function.update w.creatureList key none } else w

end World

/-- What a query about one container holds pointers to. -/
structure Looting where
  party : ActiveParty
  loot : ActiveLootContainer
  lootSeq : Int

namespace Looting

variable (s : Looting)

/-- `TagItem`. -/
def tagItem (itemId creatureId lootCreatureId : Int) : Looting :=
  let lootTag := s.lootSeq + 1
  let tag : LootTag :=
    { lootTag, mItemId := itemId, mCreatureId := creatureId, mLootCreatureId := lootCreatureId }
  { s with
    lootSeq := lootTag
    party := { s.party with lootTags := s.party.lootTags.insert lootTag tag } }

/-- `ResetLoot`. -/
def resetLoot (itemId : Int) : Looting :=
  { s with
    party := s.party.removeTagsForLootCreatureId s.loot.creatureID itemId 0
    loot := s.loot.removeCreatureRolls itemId 0 }

/-- `ClearLoot`. -/
def clearLoot : Looting :=
  { s with
    party := s.party.removeTagsForLootCreatureId s.loot.creatureID 0 0
    loot := s.loot.removeAllRolls }

/-- The members the last part of `OfferLoot` makes an offer to. -/
def receivers (receivingID : Int) (boxRange : Int → Option Int) : List PartyMember :=
  s.party.mMemberList.filter fun m =>
    m.isOnlineAndValid && m.mCreatureID != receivingID &&
      checkDistance (boxRange m.mCreatureID) partyLootRange == .none

/-- `OfferLoot`. -/
def offerLoot (mode receivingID itemID CID : Int) (boxRange : Int → Option Int) :
    Option (QueryErrorMsg × Looting) :=
  if mode = LootMode.roundRobin then
    let (robin, party) := s.party.getNextLooter
    robin.map fun robin =>
      (.none,
        tagItem { s with party, loot := { s.loot with robinID := robin.mCreatureID } }
          itemID robin.mCreatureID CID)
  else if mode = LootMode.lootMaster then
    match s.party.lootMaster with
    | some m => some (.none, s.tagItem itemID m.mCreatureID CID)
    | none => some (.generic, s)
  else
    let receivers := s.receivers receivingID boxRange
    let s := receivers.foldl (fun s m => s.tagItem itemID m.mCreatureID CID) s
    if mode > -1 then some (.none, s.tagItem itemID receivingID CID)
    else some (if receivers.isEmpty then .generic else .none, s)

end Looting

namespace World

variable (im : ItemManager) (now : Nat) (w : World)

/-- Let go of the pointers of a query. -/
def putLooting (key : Int × Int) (s : Looting) : World :=
  ({ w with lootSeq := s.lootSeq }.setParty s.party).setContainer key s.loot

/-! ### Taking an item -/

/-- Whether the loot rules of a party apply. The item's definition is read for a party only. -/
def partyLootable (party : Option ActiveParty) (itemID : Int) : Option Bool :=
  match party with
  | none => some false
  | some party =>
      (im.getPointerByID itemID).map fun itemDef =>
        decide (itemDef.mQualityLevel ≥ 2) || party.mundane

/-- The part of `loot.item` for an item that just goes to the looter. -/
def lootDirectly (c : CreatureInstance) (key : Int × Int) (loot : ActiveLootContainer)
    (itemID : Int) (conIndex : Nat) : QueryErrorMsg × World :=
  match c.inventory.getFreeSlot invContainer with
  | none => (.invSpace, w)
  | some _ =>
      match c.inventory.addItemEx im now invContainer itemID 1 with
      | (none, inv) => (.invCreate, w.setInventory c.creatureID inv)
      | (some _, inv) =>
          let loot := loot.removeItem conIndex
          let w := (w.setInventory c.creatureID inv).setContainer key loot
          (.none, if loot.itemList.isEmpty then w.removeCreature key else w)

/-- The part of `loot.item` for an item on offer to the party. -/
def lootOffered (c : CreatureInstance) (key : Int × Int) (loot : ActiveLootContainer)
    (party : ActiveParty) (itemID : Int) (boxRange : Int → Option Int) :
    Option (QueryErrorMsg × World) :=
  (Looting.offerLoot { party, loot, lootSeq := w.lootSeq } party.mLootMode c.creatureID itemID
    key.2 boxRange).map fun r => (r.1, w.putLooting key r.2)

/-- `loot.item`. -/
def lootItem (creatureID CID itemID : Int) (boxRange : Int → Option Int) :
    Option (QueryErrorMsg × World) :=
  (w.getCreature creatureID).bind fun c =>
    let party := w.getPartyByID c.partyID
    (partyLootable im party itemID).bind fun lootable =>
      let key := (c.actInst, CID)
      let distCheck := checkDistance (boxRange creatureID) interactRange
      if distCheck ≠ .none then some (distCheck, w)
      else
        match w.getContainer key with
        | none => some (.loot, w)
        | some loot =>
            if !loot.hasLootableID c.creatureDefID then some (.lootDenied, w)
            else
              match loot.hasItem itemID with
              | none => some (.lootMissing, w)
              | some conIndex =>
                  match party.filter fun _ => lootable with
                  | none => some (w.lootDirectly im now c key loot itemID conIndex)
                  | some party =>
                      if party.hasTags c.creatureDefID itemID then some (.lootDenied, w)
                      else if party.mLootMode = LootMode.freeForAll ∧ !party.needB4Greed then
                        some (w.lootDirectly im now c key loot itemID conIndex)
                      else w.lootOffered c key loot party itemID boxRange

/-! ### Deciding about an offer -/

/-- The number of decisions a roll waits for; it is unsigned. -/
def requiredDecisions (party : ActiveParty) (stage2 : Bool) : Nat :=
  if party.mLootMode = LootMode.roundRobin ∨ party.mLootMode = LootMode.lootMaster then
    if stage2 then (party.getOnlineMemberCount + (2 ^ 32 - 1)) % 2 ^ 32 else 1
  else party.getOnlineMemberCount

/-- The loop of `RollForPartyLoot`: a later creature wins with a higher roll only. -/
def rollLoop (party : ActiveParty) (rolled : Int → Int) :
    List Int → Option PartyMember → Int → Option PartyMember
  | [], maxRoller, _ => maxRoller
  | id :: rest, maxRoller, maxRoll =>
      ((party.getMemberByID id).filter fun m => m.mCreaturePtr).bind fun m =>
        if rolled id > maxRoll then rollLoop party rolled rest (some m) (rolled id)
        else rollLoop party rolled rest maxRoller maxRoll

/-- `RollForPartyLoot`. -/
def rollForPartyLoot (party : ActiveParty) (creatureIds : List Int) (rolled : Int → Int)
    (itemId : Int) : Option PartyMember :=
  match creatureIds with
  | [id] => party.getMemberByID id
  | _ => (im.getPointerByID itemId).bind fun _ => rollLoop party rolled creatureIds none 0

/-- What `CheckIfLootReadyToDistribute` decides. -/
inductive Distribution
  | notReady
  | offerRest
  | nobody
  | award (winnerID : Int)
  deriving DecidableEq, Repr

/-- The winner of a roll; a winner who is away counts as nobody. -/
def rollWinner (party : ActiveParty) (creatureIds : List Int) (rolled : Int → Int)
    (itemId : Int) : Option Distribution :=
  (rollForPartyLoot im party creatureIds rolled itemId).map fun m =>
    match m.creature with
    | some winnerID => .award winnerID
    | none => .nobody

/-- The decision of `CheckIfLootReadyToDistribute`, after the choice of one creature. -/
def distribution (party : ActiveParty) (loot : ActiveLootContainer) (creatureID itemId : Int)
    (rolled : Int → Int) : Option Distribution :=
  let stage2 := loot.isStage2 itemId
  if loot.countDecisions itemId < requiredDecisions party stage2 then some .notReady
  else if !stage2 ∧
      (party.mLootMode = LootMode.lootMaster ∧ party.mLeaderID = creatureID ∨
        party.mLootMode = LootMode.roundRobin ∧ loot.robinID = creatureID) then
    if loot.isNeeded itemId creatureID || loot.isGreeded itemId creatureID then
      some (.award creatureID)
    else some .offerRest
  else if loot.needed itemId ≠ [] then rollWinner im party (loot.needed itemId) rolled itemId
  else if loot.greeded itemId ≠ [] then rollWinner im party (loot.greeded itemId) rolled itemId
  else some .nobody

/-- The first offer was declined: offer the item to the others. -/
def offerRest (key : Int × Int) (s : Looting) (creatureID : Int) (lootTag : LootTag)
    (boxRange : Int → Option Int) : Option World :=
  let s : Looting :=
    { s with
      loot := (s.loot.setStage2 lootTag.mItemId).removeCreatureRolls lootTag.mItemId
        lootTag.mCreatureId
      party := s.party.removeCreatureTags lootTag.mItemId lootTag.mCreatureId }
  (s.offerLoot (-1) creatureID lootTag.mItemId lootTag.mLootCreatureId boxRange).map fun r =>
    w.putLooting key (if r.1 = .generic then r.2.resetLoot lootTag.mItemId else r.2)

/-- The winner's copy is out: take it from the container and close the roll. -/
def closeAward (key : Int × Int) (s : Looting) (lootTag : LootTag) : World :=
  match s.loot.hasItem lootTag.mItemId with
  | none => w.putLooting key s
  | some conIndex =>
      let s := Looting.resetLoot { s with loot := s.loot.removeItem conIndex } lootTag.mItemId
      if s.loot.itemList.isEmpty then (w.putLooting key s.clearLoot).removeCreature key
      else w.putLooting key s

/-- Give the item to the winner of a roll. -/
def award (key : Int × Int) (s : Looting) (lootTag : LootTag) (c : CreatureInstance) : World :=
  let winnerTag := s.party.getTag lootTag.mItemId c.creatureID
  match c.inventory.getFreeSlot invContainer with
  | none => w.putLooting key (s.resetLoot lootTag.mItemId)
  | some _ =>
      match c.inventory.addItemEx im now invContainer winnerTag.mItemId 1 with
      | (none, inv) =>
          (w.setInventory c.creatureID inv).putLooting key (s.resetLoot lootTag.mItemId)
      | (some _, inv) => (w.setInventory c.creatureID inv).closeAward key s lootTag

/-- `CheckIfLootReadyToDistribute`. -/
def checkIfLootReadyToDistribute (key : Int × Int) (s : Looting) (creatureID : Int)
    (lootTag : LootTag) (rolled : Int → Int) (boxRange : Int → Option Int) : Option World :=
  (distribution im s.party s.loot creatureID lootTag.mItemId rolled).bind fun
    | .notReady => some (w.putLooting key s)
    | .offerRest => w.offerRest key s creatureID lootTag boxRange
    | .nobody => some (w.putLooting key (s.resetLoot lootTag.mItemId))
    | .award winnerID => (w.getCreature winnerID).map (w.award im now key s lootTag)

/-- `lootTags[lootTag]`: the lookup creates a missing entry. -/
def touchTag (party : ActiveParty) (lootTag : Int) : LootTag × ActiveParty :=
  match party.lootTags.lookup lootTag with
  | some tag => (tag, party)
  | none => ({}, { party with lootTags := party.lootTags.insert lootTag {} })

/-- A choice that was recorded: its container, the tag it was made under, and the state the
roll is looked at in. -/
structure Chosen where
  key : Int × Int
  looting : Looting
  lootTag : LootTag
  world : World

/-- The part of `loot.need`, `loot.greed` and `loot.pass` before the roll: the choice is
recorded, or else the query is answered. Any other command records no choice. -/
def recordChoice (creatureID lootTag : Int) (choice : Option LootChoice) :
    Option (Except (QueryErrorMsg × World) Chosen) :=
  (w.getCreature creatureID).map fun c =>
    match w.getPartyByID c.partyID with
    | none => .error (.generic, w)
    | some party =>
        let (tag, party) := touchTag party lootTag
        let w := w.setParty party
        if !tag.valid then .error (.invalidItem, w)
        else
          let key := (c.actInst, tag.mLootCreatureId)
          let loot := (w.creatureList key).getD {}
          let w := w.setContainer key loot
          if loot.hasAnyDecided tag.mItemId creatureID || tag.mCreatureId != creatureID then
            .error (.lootDenied, w)
          else
            let loot :=
              match choice with
              | some choice => loot.choose choice tag.mItemId tag.mCreatureId
              | none => loot
            .ok { key, looting := { party, loot, lootSeq := w.lootSeq }, lootTag := tag, world := w }

/-- `loot.need`, `loot.greed` and `loot.pass`. -/
def lootNeedGreedPass (creatureID lootTag : Int) (choice : Option LootChoice)
    (rolled : Int → Int) (boxRange : Int → Option Int) : Option (QueryErrorMsg × World) :=
  (w.recordChoice creatureID lootTag choice).bind fun
    | .error r => some r
    | .ok ch =>
        (ch.world.checkIfLootReadyToDistribute im now ch.key ch.looting creatureID ch.lootTag
          rolled boxRange).map fun w => (.none, w)

/-! ### Membership and loot rules -/

/-- `AddMember`. -/
def addMember (party : ActiveParty) (c : CreatureInstance) : World :=
  if party.hasMember c.creatureDefID then w
  else
    let m : PartyMember :=
      { mCreatureDefID := c.creatureDefID
        mCreatureID := c.creatureID
        mDisplayName := c.displayName }
    (w.setParty (party.addMember m)).setPartyID c.creatureID party.mPartyID

/-- `AddMember` to the party with an ID. -/
def addMemberTo (partyID : Int) (c : CreatureInstance) : World :=
  match w.getPartyByID partyID with
  | some party => w.addMember party c
  | none => w

/-- `AcceptInvite`: the leader is looked up by definition ID. -/
def acceptInvite (memberID leaderDefID : Int) : World :=
  match w.getCreature memberID, w.playerList.find? fun c => c.creatureDefID == leaderDefID with
  | some member, some leader =>
      match w.mPartyList.find? fun party => party.mLeaderDefID == leaderDefID with
      | some party => w.addMember party member
      | none =>
          let party : ActiveParty :=
            { mPartyID := w.nextPartyID
              mLeaderDefID := leader.creatureDefID
              mLeaderID := leader.creatureID
              mLeaderName := leader.displayName }
          let w : World :=
            { w with mPartyList := w.mPartyList ++ [party], nextPartyID := w.nextPartyID + 1 }
          (w.addMemberTo party.mPartyID leader).addMemberTo party.mPartyID member
  | _, _ => w

/-- `RemoveMember`: the creature leaves the party with its entry. -/
def removeMember (party : ActiveParty) (memberDefID : Int) : World :=
  let w := w.setParty (party.removeMember memberDefID)
  match (party.mMemberList.find? fun m => m.mCreatureDefID == memberDefID).bind
      PartyMember.creature with
  | some id => w.setPartyID id 0
  | none => w

/-- `Disband` and `DeletePartyByID`. -/
def disband (party : ActiveParty) : World :=
  let w := (party.mMemberList.filterMap PartyMember.creature).foldl (fun w id => w.setPartyID id 0) w
  { w with mPartyList := w.mPartyList.eraseP fun p => p.mPartyID == party.mPartyID }

/-- What `DoQuit` and `DoKick` do alike: a party of one is dissolved, and a lost leader is
replaced. The two differ in the ID they compare with the leader's. -/
def dropMember (partyID memberDefID droppedID : Int) : World :=
  match w.getPartyByID partyID with
  | none => w
  | some party =>
      let w := w.removeMember party memberDefID
      let party := party.removeMember memberDefID
      if party.mMemberList.length ≤ 1 then w.disband party
      else w.setParty (party.updateLeaderDropped droppedID)

/-- `DoQuit`. -/
def doQuit (creatureID : Int) : World :=
  match w.getCreature creatureID with
  | none => w
  | some c => (w.setPartyID creatureID 0).dropMember c.partyID c.creatureDefID creatureID

/-- `DoKick`; the leader is compared with an entry that is no longer there. -/
def doKick (creatureID memberID stale : Int) : World :=
  match w.getCreature creatureID with
  | none => w
  | some c =>
      match (w.getPartyByID c.partyID).filter (fun party => party.mLeaderID == creatureID) with
      | none => w
      | some party =>
          match party.getMemberByID memberID with
          | none => w
          | some m => w.dropMember c.partyID m.mCreatureDefID stale

/-- Change the party of a player. -/
def modifyParty (creatureID : Int) (f : ActiveParty → ActiveParty) : World :=
  match (w.getCreature creatureID).bind fun c => w.getPartyByID c.partyID with
  | none => w
  | some party => w.setParty (f party)

/-- `DoSetLeader`. -/
def doSetLeader (creatureID newLeaderID : Int) : World :=
  w.modifyParty creatureID fun party =>
    if party.mLeaderID ≠ creatureID then party
    else
      match party.getMemberByID newLeaderID with
      | some m => party.setLeader m.mCreatureDefID
      | none => party

/-- The command `loot.mode`. -/
def lootMode (creatureID mode : Int) : World :=
  w.modifyParty creatureID fun party => { party with mLootMode := mode }

/-- The command `loot.flags`, with the two flags that are read. -/
def lootFlags (creatureID : Int) (needB4Greed mundane on : Bool) : World :=
  w.modifyParty creatureID fun party =>
    { party with
      needB4Greed := if needB4Greed then on else party.needB4Greed
      mundane := if mundane then on else party.mundane }

/-- Walk over the parties up to the first one with a member. -/
def visitParties (memberDefID : Int) (f : ActiveParty → ActiveParty) :
    List ActiveParty → List ActiveParty
  | [] => []
  | party :: rest =>
      f party :: if party.hasMember memberDefID then rest else visitParties memberDefID f rest

/-- `PartyManager::RemovePlayerReferences`. -/
def removePlayerReferences (memberDefID : Int) (disconnect : Bool) : World :=
  { w with
    mPartyList :=
      visitParties memberDefID (fun party => party.removePlayerReferences memberDefID disconnect)
        w.mPartyList }

/-- `PartyManager::UpdatePlayerReferences`, for a creature that came into an instance. -/
def updatePlayerReferences (creatureID newID actInst : Int) : World :=
  match w.getCreature creatureID with
  | none => w
  | some c =>
      let partyID :=
        ((w.mPartyList.find? fun party => party.hasMember c.creatureDefID).map
          ActiveParty.mPartyID).getD c.partyID
      let w := w.modifyCreature creatureID fun c => { c with creatureID := newID, actInst, partyID }
      { w with
        mPartyList :=
          visitParties c.creatureDefID
            (fun party => party.updatePlayerReferences newID c.creatureDefID) w.mPartyList }

end World

/-! ### One step -/

/-- What the players of a server do to loot and to their parties. -/
inductive LootEvent
  | item (now : Nat) (creatureID CID itemID : Int) (boxRange : Int → Option Int)
  | choice (now : Nat) (creatureID lootTag : Int) (choice : Option LootChoice)
      (rolled : Int → Int) (boxRange : Int → Option Int)
  | acceptInvite (memberID leaderDefID : Int)
  | quit (creatureID : Int)
  | kick (creatureID memberID stale : Int)
  | setLeader (creatureID newLeaderID : Int)
  | lootMode (creatureID mode : Int)
  | lootFlags (creatureID : Int) (needB4Greed mundane on : Bool)
  | removeReferences (memberDefID : Int) (disconnect : Bool)
  | updateReferences (creatureID newID actInst : Int)

/-- Serve one query. -/
def step (im : ItemManager) (w : World) : LootEvent → Option World
  | .item now creatureID CID itemID boxRange =>
      (w.lootItem im now creatureID CID itemID boxRange).map Prod.snd
  | .choice now creatureID lootTag choice rolled boxRange =>
      (w.lootNeedGreedPass im now creatureID lootTag choice rolled boxRange).map Prod.snd
  | .acceptInvite memberID leaderDefID => some (w.acceptInvite memberID leaderDefID)
  | .quit creatureID => some (w.doQuit creatureID)
  | .kick creatureID memberID stale => some (w.doKick creatureID memberID stale)
  | .setLeader creatureID newLeaderID => some (w.doSetLeader creatureID newLeaderID)
  | .lootMode creatureID mode => some (w.lootMode creatureID mode)
  | .lootFlags creatureID needB4Greed mundane on =>
      some (w.lootFlags creatureID needB4Greed mundane on)
  | .removeReferences memberDefID disconnect =>
      some (w.removePlayerReferences memberDefID disconnect)
  | .updateReferences creatureID newID actInst =>
      some (w.updatePlayerReferences creatureID newID actInst)

end Loot

end Iceee
