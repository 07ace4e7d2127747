import TickerWatch.Alert
import TickerWatch.Alert.Json
import TickerWatch.AlertError
import TickerWatch.Condition
import TickerWatch.Decimal.Binary
import TickerWatch.Decimal.Nearest
import TickerWatch.Decimal.Places
import TickerWatch.Decimal.Scaled
import TickerWatch.Decimal.Shortest
import TickerWatch.Decimal.Text
import TickerWatch.Definition
import TickerWatch.Desk
import TickerWatch.Desk.Definitions
import TickerWatch.Desk.Firing
import TickerWatch.Event
import TickerWatch.Extended.Base64
import TickerWatch.Extended.Date
import TickerWatch.Extended.Decoder
import TickerWatch.Extended.LongDecimal
import TickerWatch.Extended.Uuid
import TickerWatch.Feed
import TickerWatch.Feed.Frame
import TickerWatch.History
import TickerWatch.Http.MediaType
import TickerWatch.Http.Message
import TickerWatch.Http.Percent
import TickerWatch.Http.Query
import TickerWatch.Http.Route
import TickerWatch.Http.Server
import TickerWatch.Json.AnyValue
import TickerWatch.Json.Bytes
import TickerWatch.Json.Compound
import TickerWatch.Json.Decoder
import TickerWatch.Json.Fault
import TickerWatch.Json.Numeral
import TickerWatch.Json.Quoted
import TickerWatch.Json.Skip
import TickerWatch.Json.Token
import TickerWatch.Json.Value
import TickerWatch.Market.Board
import TickerWatch.Market.Provider
import TickerWatch.Market.Quote
import TickerWatch.Market.Snapshot
import TickerWatch.Monitor.Pass
import TickerWatch.Monitor.Polling
import TickerWatch.Monitor.Report
import TickerWatch.Monitor.Watch
import TickerWatch.PostTrigger
import TickerWatch.RecordId
import TickerWatch.RecordId.Json
import TickerWatch.Rule.Json
import TickerWatch.Settings
import TickerWatch.Store
import TickerWatch.Store.Call
import TickerWatch.Template
import TickerWatch.Text.Blank
import TickerWatch.Text.Case
import TickerWatch.Text.CaseTable
import TickerWatch.Text.Citation
import TickerWatch.Text.Digits
import TickerWatch.Text.Hex
import TickerWatch.Text.Integer
import TickerWatch.Timeline
import TickerWatch.Vendor.Client
import TickerWatch.Vendor.Payload
import TickerWatch.Verdict
import TickerWatch.Wait
import TickerWatch.Proofs.Desk.Requests
import TickerWatch.Proofs.Desk.Checks
import TickerWatch.Proofs.Monitor.Scene
import TickerWatch.Proofs.Monitor.Spacing
import TickerWatch.Proofs.Monitor.Retirement
import TickerWatch.Proofs.Monitor.StaleCopies
import TickerWatch.Proofs.Monitor.Lifecycle
import TickerWatch.Proofs.Monitor.Lookups
import TickerWatch.Proofs.Monitor.Accounts
import TickerWatch.Proofs.Json.Yields
import TickerWatch.Proofs.Rule.Canonical
import TickerWatch.Proofs.Desk.Acceptance
import TickerWatch.Proofs.Monitor.WellFormed
import TickerWatch.Proofs.Decimal.Text
import TickerWatch.Proofs.Json.Numerals
import TickerWatch.Proofs.Json.Quoted
import TickerWatch.Proofs.Json.Written
import TickerWatch.Proofs.Rule.RoundTrip
import TickerWatch.Proofs.Desk.Fires
import TickerWatch.Proofs.Monitor.Telling
import TickerWatch.Proofs.Monitor.Outcomes
import TickerWatch.Proofs.Rule.Benchmarks
import TickerWatch.Proofs.Monitor.MissingHistory
import TickerWatch.Proofs.Monitor.Shares
import TickerWatch.Proofs.Store.Listings
import TickerWatch.Proofs.Monitor.SingleStock
import TickerWatch.Proofs.Monitor.Window
import TickerWatch.Proofs.Monitor.LookupOrder
import TickerWatch.Proofs.Monitor.Runs
import TickerWatch.Proofs.Monitor.Settling
import TickerWatch.Proofs.Monitor.Patience
import TickerWatch.Proofs.Monitor.LookupsOnce
import TickerWatch.Proofs.Monitor.Rhythm
import TickerWatch.Proofs.Monitor.Endings
import TickerWatch.Proofs.Desk.Ownership
import TickerWatch.Proofs.Monitor.Ownership
import TickerWatch.Proofs.Monitor.Lapses
import TickerWatch.Proofs.Http.Refusals
import TickerWatch.Proofs.Monitor.Overlaps
import TickerWatch.Proofs.Monitor.LostWrites
import TickerWatch.Proofs.Feed.Listening
import TickerWatch.Proofs.Desk.Writes
import TickerWatch.Proofs.Rule.Groups
import TickerWatch.Proofs.Rule.UnknownNames
import TickerWatch.Proofs.Decimal.Order
import TickerWatch.Proofs.Decimal.Parts
import TickerWatch.Proofs.Decimal.Packing
import TickerWatch.Proofs.Decimal.Rounding
import TickerWatch.Proofs.Decimal.Products
import TickerWatch.Proofs.Decimal.Shortest
import TickerWatch.Proofs.Decimal.Brief
import TickerWatch.Proofs.Rule.Values
import TickerWatch.Proofs.Desk.Requirements
import TickerWatch.Proofs.Desk.Instantiation
import TickerWatch.Proofs.Desk.Thresholds
import TickerWatch.Proofs.Json.Skipped
import TickerWatch.Proofs.Feed.Frames
import TickerWatch.Proofs.Decimal.Ranking
import TickerWatch.Proofs.Market.Summary
import TickerWatch.Proofs.Monitor.Chronicle
import TickerWatch.Proofs.Monitor.Listings
import TickerWatch.Proofs.Vendor.Columns
