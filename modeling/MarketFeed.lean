import MarketFeed.Book.Checksum
import MarketFeed.Book.Crc32
import MarketFeed.Book.Delta
import MarketFeed.Book.Level
import MarketFeed.Book.OrderBook
import MarketFeed.Book.Store
import MarketFeed.Cache.Bucket
import MarketFeed.Cache.Keyed
import MarketFeed.Cache.Orders
import MarketFeed.Cache.Query
import MarketFeed.Cache.Recent
import MarketFeed.Client.Basic
import MarketFeed.Connection.Action
import MarketFeed.Connection.Adapter
import MarketFeed.Connection.Basic
import MarketFeed.Connection.Call
import MarketFeed.Connection.Dispatch
import MarketFeed.Connection.Event
import MarketFeed.Connection.Lifecycle
import MarketFeed.Connection.Request
import MarketFeed.Connection.Subscriptions
import MarketFeed.Decimal.Arithmetic
import MarketFeed.Decimal.Attempt
import MarketFeed.Decimal.Basic
import MarketFeed.Decimal.Text
import MarketFeed.Document
import MarketFeed.Fault.Basic
import MarketFeed.Fault.Excerpt
import MarketFeed.Fault.Socket
import MarketFeed.Feed.Store
import MarketFeed.Feed.Update
import MarketFeed.Floating.Shortest
import MarketFeed.Floating.Text
import MarketFeed.Json.Basic
import MarketFeed.Json.Number
import MarketFeed.Json.Parser
import MarketFeed.Json.Printer
import MarketFeed.Json.Quoted
import MarketFeed.Json.Reader
import MarketFeed.Json.Shape
import MarketFeed.Json.Typed
import MarketFeed.Proofs.Book.AtMostOnce
import MarketFeed.Proofs.Book.Buffering
import MarketFeed.Proofs.Book.CatchingUp
import MarketFeed.Proofs.Book.Checksums
import MarketFeed.Proofs.Book.FreshStart
import MarketFeed.Proofs.Book.Ladder
import MarketFeed.Proofs.Book.Lone
import MarketFeed.Proofs.Book.Midpoint
import MarketFeed.Proofs.Book.OutOfSync
import MarketFeed.Proofs.Book.Reconstruction
import MarketFeed.Proofs.Book.Run
import MarketFeed.Proofs.Book.Sequencing
import MarketFeed.Proofs.Book.Shelf
import MarketFeed.Proofs.Cache.Buckets
import MarketFeed.Proofs.Cache.ClientIds
import MarketFeed.Proofs.Cache.Coherence
import MarketFeed.Proofs.Cache.Identity
import MarketFeed.Proofs.Cache.KeyIndex
import MarketFeed.Proofs.Cache.Lookup
import MarketFeed.Proofs.Cache.Merging
import MarketFeed.Proofs.Cache.Packing
import MarketFeed.Proofs.Cache.Queries
import MarketFeed.Proofs.Cache.Refinement
import MarketFeed.Proofs.Cache.Run
import MarketFeed.Proofs.Cache.Slots
import MarketFeed.Proofs.Client.Backoff
import MarketFeed.Proofs.Client.Generations
import MarketFeed.Proofs.Client.Pool
import MarketFeed.Proofs.Client.Tenancy
import MarketFeed.Proofs.Connection.Desk
import MarketFeed.Proofs.Connection.Exchange
import MarketFeed.Proofs.Connection.Feeding
import MarketFeed.Proofs.Connection.Findings
import MarketFeed.Proofs.Connection.Frames
import MarketFeed.Proofs.Connection.Granted
import MarketFeed.Proofs.Connection.Handlers
import MarketFeed.Proofs.Connection.Ledger
import MarketFeed.Proofs.Connection.Lifespan
import MarketFeed.Proofs.Connection.Opening
import MarketFeed.Proofs.Connection.Orphans
import MarketFeed.Proofs.Connection.Outcomes
import MarketFeed.Proofs.Connection.PrivateErrors
import MarketFeed.Proofs.Connection.Replay
import MarketFeed.Proofs.Connection.Requests
import MarketFeed.Proofs.Connection.Serving
import MarketFeed.Proofs.Connection.Station
import MarketFeed.Proofs.Decimal.Attempt
import MarketFeed.Proofs.Decimal.Halving
import MarketFeed.Proofs.Decimal.Normal
import MarketFeed.Proofs.Decimal.Rounding
import MarketFeed.Proofs.Decimal.Text
import MarketFeed.Proofs.Decimal.Value
import MarketFeed.Proofs.Fault.Contexts
import MarketFeed.Proofs.Fault.Truncation
import MarketFeed.Proofs.Feed.Streams
import MarketFeed.Proofs.Json.Numbers
import MarketFeed.Proofs.Json.Reading
import MarketFeed.Proofs.Json.Records
import MarketFeed.Proofs.Json.Values
import MarketFeed.Proofs.Json.Yields
import MarketFeed.Proofs.Order.Accounting
import MarketFeed.Proofs.Order.Closing
import MarketFeed.Proofs.Order.Effect
import MarketFeed.Proofs.Order.Executions
import MarketFeed.Proofs.Order.Filling
import MarketFeed.Proofs.Order.Interleaving
import MarketFeed.Proofs.Order.Interruption
import MarketFeed.Proofs.Order.Parking
import MarketFeed.Proofs.Order.Reporting
import MarketFeed.Proofs.Order.Run
import MarketFeed.Proofs.Order.Step
import MarketFeed.Proofs.Order.Waiting
import MarketFeed.Proofs.Record.RoundTrip
import MarketFeed.Proofs.Record.Texts
import MarketFeed.Proofs.Registry.Channels
import MarketFeed.Proofs.Registry.Ending
import MarketFeed.Proofs.Registry.Entries
import MarketFeed.Proofs.Registry.Listening
import MarketFeed.Proofs.Registry.OneShot
import MarketFeed.Proofs.Registry.Rejection
import MarketFeed.Proofs.Registry.Rounds
import MarketFeed.Proofs.Registry.Settling
import MarketFeed.Proofs.Registry.Traffic
import MarketFeed.Proofs.Subscriptions.Handover
import MarketFeed.Proofs.Subscriptions.Membership
import MarketFeed.Proofs.Subscriptions.Records
import MarketFeed.Record.Candle
import MarketFeed.Record.Fee
import MarketFeed.Record.Order
import MarketFeed.Record.Trade
import MarketFeed.Registry.Basic
import MarketFeed.Registry.Handle
import MarketFeed.Script.Book
import MarketFeed.Script.Cache
import MarketFeed.Script.Reading
import MarketFeed.Script.Record
import MarketFeed.Script.Step
import MarketFeed.Script.View
import MarketFeed.Session.Basic
import MarketFeed.Session.Network
import MarketFeed.Settings.Backoff
import MarketFeed.Settings.CacheLimits
import MarketFeed.Settings.Connection
import MarketFeed.Settings.Heartbeat
import MarketFeed.Settings.Logging
import MarketFeed.Settings.Release
import MarketFeed.Table
import MarketFeed.Url
import MarketFeed.Proofs.Order.Accumulation
