import PhalaWorld.Framework.Runs
import PhalaWorld.Framework.Replay
import PhalaWorld.Framework.Audit
import PhalaWorld.Framework.Transaction
import PhalaWorld.Framework.Lockstep
import PhalaWorld.Framework.Failures
import PhalaWorld.Framework.Balances
import PhalaWorld.Framework.Payments
import PhalaWorld.Framework.Nfts
import PhalaWorld.Framework.BoundedMap
import PhalaWorld.Framework.Exchange
import PhalaWorld.Framework.Pursuit
import PhalaWorld.Framework.Interleaving
import PhalaWorld.Framework.Automaton
import PhalaWorld.Framework.Ranking
import PhalaWorld.Framework.Schedules
import PhalaWorld.Framework.Shelves
import PhalaWorld.Model.Types
import PhalaWorld.Model.Config
import PhalaWorld.Model.Storage
import PhalaWorld.Model.NftSale
import PhalaWorld.Model.Incubation
import PhalaWorld.Model.System
import PhalaWorld.Model.Scripts
import PhalaWorld.Specs.NftSale
import PhalaWorld.Specs.Incubation
import PhalaWorld.Specs.SoldOut
import PhalaWorld.Specs.System
import PhalaWorld.Specs.Checked
import PhalaWorld.Specs.Blind
import PhalaWorld.Specs.Expectations
import PhalaWorld.Specs.History
import PhalaWorld.Specs.Settings
import PhalaWorld.Specs.Laws
import PhalaWorld.Specs.Progress
import PhalaWorld.Specs.Tended
import PhalaWorld.Specs.Items
import PhalaWorld.Reference.Mock
import PhalaWorld.Sale.Preorders
import PhalaWorld.Sale.Money
import PhalaWorld.Sale.OneShell
import PhalaWorld.Sale.Inventory
import PhalaWorld.Sale.Batches
import PhalaWorld.Sale.Escrow
import PhalaWorld.Sale.Phases
import PhalaWorld.Sale.Whitelist
import PhalaWorld.Shells.Biography
import PhalaWorld.Shells.Soulbound
import PhalaWorld.Shells.Hatching
import PhalaWorld.Shells.HatchTimes
import PhalaWorld.Shells.AfterHatch
import PhalaWorld.Shells.LifeCycle
import PhalaWorld.Shells.Season
import PhalaWorld.Shells.Feeding
import PhalaWorld.Shells.TimeBatches
import PhalaWorld.Shells.FeedOrder
import PhalaWorld.Shells.Leaderboard
import PhalaWorld.Sale.Spirits
import PhalaWorld.Sale.Supply
import PhalaWorld.Sale.Tickets
import PhalaWorld.Sale.Refunds
import PhalaWorld.Sale.Chosen
import PhalaWorld.Sale.Drawing
import PhalaWorld.Sale.Equivalence
import PhalaWorld.Sale.Fulfilment
import PhalaWorld.Sale.Reigns
import PhalaWorld.Sale.Issuer
import PhalaWorld.Sale.WindDown
import PhalaWorld.System.Isolation
import PhalaWorld.System.EventLog
import PhalaWorld.System.Audit
import PhalaWorld.System.Precedence
import PhalaWorld.System.WorldClock
import PhalaWorld.System.PhaseEvents
import PhalaWorld.System.Arithmetic
import PhalaWorld.System.Panics
import PhalaWorld.System.Purge
import PhalaWorld.System.AnyOrder
import PhalaWorld.System.Queries
import PhalaWorld.Sale.LastDay
