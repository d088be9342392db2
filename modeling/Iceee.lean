import Iceee.Lib.Trace
import Iceee.Lib.Holding
import Iceee.Lib.Machine
import Iceee.Item
import Iceee.Inventory.Manager
import Iceee.Inventory.Quantity
import Iceee.Inventory.ItemMove
import Iceee.Inventory.Handlers
import Iceee.Lib.Keyed
import Iceee.Inventory.Wellformed
import Iceee.Inventory.Admission
import Iceee.Inventory.Equipment
import Iceee.Inventory.Stacks
import Iceee.Inventory.Shop
import Iceee.Trade.Instance
import Iceee.Trade.Exchange
import Iceee.Trade.Consent
import Iceee.Loot.Container
import Iceee.Loot.Party
import Iceee.Loot.Queries
import Iceee.Loot.Membership
import Iceee.Party.Manager
import Iceee.Party.Structure
import Iceee.Loot.Conservation
import Iceee.Loot.Rolls
import Iceee.Loot.Winner
import Iceee.Lib.Redis
import Iceee.Lib.Text
import Iceee.Cluster.Entity
import Iceee.Cluster.Faithful
import Iceee.Cluster.ListValue
import Iceee.Auction.Item
import Iceee.Auction.Persistence
import Iceee.Scheduler.Tasks
import Iceee.Scheduler.Safety
import Iceee.Quest.Definition
import Iceee.Quest.Journal
import Iceee.Quest.Partition
import Iceee.Quest.Progress
import Iceee.Quest.Acts
import Iceee.Squirrel.Player
import Iceee.Squirrel.Ledger
import Iceee.Squirrel.Calls
import Iceee.Squirrel.Queue
import Iceee.Lib.Tally
import Iceee.Cluster.Shards
import Iceee.Cluster.Counts
import Iceee.Cluster.Master
import Iceee.Lib.Framing
import Iceee.Simulator.Receive
import Iceee.Simulator.Reassembly
import Iceee.Packet.Manager
import Iceee.Packet.Order
import Iceee.Cluster.Keys
import Iceee.Clan.Manager
import Iceee.Clan.Persistence
import Iceee.Clan.Handlers
import Iceee.Clan.Structure
import Iceee.Inventory.Removal
import Iceee.Vault.Send
import Iceee.Vault.Delivery
import Iceee.Crafting.Plan
import Iceee.Crafting.Goods
import Iceee.Crafting.Recipe
import Iceee.Crafting.Outputs
import Iceee.Auction.Bidding
import Iceee.Auction.Concurrency
import Iceee.Forum.Manager
import Iceee.Forum.Structure
import Iceee.Buffs.Accounting
import Iceee.Status.Tracking
import Iceee.Health.Death
import Iceee.Persona.Names
import Iceee.Quest.Exact
import Iceee.Instance.Dangling
import Iceee.Inventory.Accounting
import Iceee.Inventory.Expiry
import Iceee.Inventory.FreeSlots
import Iceee.Account.Unloading
import Iceee.Spawner.Runs
import Iceee.Party.RoundRobin
import Iceee.Ability.Lingering
import Iceee.Loot.Drops
import Iceee.Lib.Memory
import Iceee.Lib.Neighbours
import Iceee.Crafting.Order
import Iceee.Inventory.Filing
import Iceee.Inventory.Lookups
import Iceee.Auction.BidOrder
import Iceee.Auction.BuyNow
import Iceee.Auction.Listing
import Iceee.CreditShop.Date
import Iceee.CreditShop.Item
import Iceee.CreditShop.Purchase
import Iceee.Util.Split
import Iceee.Util.ConfigString
import Iceee.Packet.ByteBuffer
import Iceee.Quest.Cleanup
import Iceee.Trade.Gamble
import Iceee.Tsl.Script
import Iceee.Tsl.IntArrays
import Iceee.Tsl.Player
import Iceee.Tsl.EventQueue
import Iceee.Tsl.Structured
import Iceee.Tsl.Bounds
import Iceee.Crafting.Totality
import Iceee.Lib.Frames
import Iceee.Quest.Messages
import Iceee.Quest.Framing
import Iceee.Quest.StatusMessages
import Iceee.Lib.Position
import Iceee.Inventory.Refashion
import Iceee.Inventory.RefashionExact
import Iceee.Simulator.Query
import Iceee.Account.PasswordHash
import Iceee.Account.Streak
import Iceee.Clan.Creation
import Iceee.Lib.Sort
import Iceee.Forum.Order
import Iceee.Targets.Creature
import Iceee.Targets.Search
import Iceee.Targets.Enumerate
import Iceee.Mounts.Creature
import Iceee.Mounts.Linked
import Iceee.Mounts.Runs
import Iceee.Reader.Line
import Iceee.Reader.Exact
import Iceee.Lib.Nesting
import Iceee.Ability.EventList
import Iceee.Ability.EventText
import Iceee.Ability.EventChance
import Iceee.Lib.Double
import Iceee.Lib.DoubleText
import Iceee.Account.Tokens
import Iceee.Account.BuildPermission
import Iceee.PVP.Deaths
import Iceee.Level.Experience
import Iceee.Lib.Locks
import Iceee.Locks.Handlers
import Iceee.Lib.Worklist
import Iceee.Spawner.Loyalty
import Iceee.Lib.Single
import Iceee.Spawner.Tiles
import Iceee.Simulator.Response
import Iceee.Scenery.PageRequest
import Iceee.PVP.Loot
import Iceee.Lib.Attempts
import Iceee.Util.Search
import Iceee.Util.UrlCode
import Iceee.Lib.Infix
import Iceee.Formula.Expression
import Iceee.Quest.AccountQuests
import Iceee.Scenery.Effects
import Iceee.VirtualItem.RollStats
import Iceee.Lib.Shares
import Iceee.Lib.SingleBits
import Iceee.Stats.Accessors
import Iceee.Stats.Agreement
import Iceee.VirtualItem.Instantiate
import Iceee.VirtualItem.Reload
