import TradeDesk.Api.Path
import TradeDesk.Api.Request
import TradeDesk.Api.Routes
import TradeDesk.Binary64.Basic
import TradeDesk.Binary64.Read
import TradeDesk.Binary64.Shortest
import TradeDesk.Binary64.Text
import TradeDesk.Broker.Paper
import TradeDesk.Broker.Report
import TradeDesk.Clock
import TradeDesk.Config.Duration
import TradeDesk.Config.Load
import TradeDesk.Decimal.Basic
import TradeDesk.Decimal.Library
import TradeDesk.Desk.Action
import TradeDesk.Desk.Basic
import TradeDesk.Desk.Fills
import TradeDesk.Desk.Intents
import TradeDesk.Desk.Orders
import TradeDesk.Desk.Recovery
import TradeDesk.Desk.Report
import TradeDesk.Desk.Session
import TradeDesk.Dispatch.Basic
import TradeDesk.Dispatch.Once
import TradeDesk.Dispatch.Recovery
import TradeDesk.Fault
import TradeDesk.Gateway.Claim
import TradeDesk.Gateway.IdMap
import TradeDesk.Gateway.Route
import TradeDesk.Integrity.Arm
import TradeDesk.Intent
import TradeDesk.Json.Basic
import TradeDesk.Json.Bind
import TradeDesk.Json.Number
import TradeDesk.Json.Read
import TradeDesk.Json.Write
import TradeDesk.Ledger.Basic
import TradeDesk.Ledger.Canonical
import TradeDesk.Ledger.Fifo
import TradeDesk.Ledger.Journal
import TradeDesk.Ledger.Report
import TradeDesk.Ledger.Valuation
import TradeDesk.Order.Basic
import TradeDesk.Price
import TradeDesk.Proofs.Broker.Book
import TradeDesk.Proofs.Broker.Orders
import TradeDesk.Proofs.Broker.Runs
import TradeDesk.Proofs.Decimal.Rounding
import TradeDesk.Proofs.Decimal.Exact
import TradeDesk.Proofs.Decimal.Text
import TradeDesk.Proofs.Desk.Agrees
import TradeDesk.Proofs.Desk.Arming
import TradeDesk.Proofs.Desk.Controls
import TradeDesk.Proofs.Desk.BrokerIds
import TradeDesk.Proofs.Desk.Drift
import TradeDesk.Proofs.Desk.Fills
import TradeDesk.Proofs.Desk.FillsOnce
import TradeDesk.Proofs.Desk.Gates
import TradeDesk.Proofs.Desk.Ingest
import TradeDesk.Proofs.Desk.NoDoubleSubmit
import TradeDesk.Proofs.Desk.OrderBook
import TradeDesk.Proofs.Desk.Refusal
import TradeDesk.Proofs.Desk.Replacing
import TradeDesk.Proofs.Desk.Restore
import TradeDesk.Proofs.Desk.Steady
import TradeDesk.Proofs.Desk.Tracked
import TradeDesk.Proofs.Dispatch.Agrees
import TradeDesk.Proofs.Dispatch.Frame
import TradeDesk.Proofs.Dispatch.Outcome
import TradeDesk.Proofs.Dispatch.Recovery
import TradeDesk.Proofs.Dispatch.SubmitsOnce
import TradeDesk.Proofs.Dispatch.Sweep
import TradeDesk.Proofs.Gateway.IdMap
import TradeDesk.Proofs.Intent.Targets
import TradeDesk.Proofs.Json.RoundTrip
import TradeDesk.Proofs.Ledger.Accounting
import TradeDesk.Proofs.Ledger.AllOrNothing
import TradeDesk.Proofs.Ledger.Canonical
import TradeDesk.Proofs.Ledger.Conservation
import TradeDesk.Proofs.Ledger.Lots
import TradeDesk.Proofs.Ledger.Matching
import TradeDesk.Proofs.Ledger.Positions
import TradeDesk.Proofs.Ledger.Replay
import TradeDesk.Proofs.Ledger.Sequenced
import TradeDesk.Proofs.Order.Lifecycle
import TradeDesk.Proofs.Order.Replay
import TradeDesk.Proofs.Price.Micros
import TradeDesk.Proofs.Reconcile.Compare
import TradeDesk.Proofs.Risk.PreTrade
import TradeDesk.Proofs.Store.Claims
import TradeDesk.Proofs.Store.Inbox
import TradeDesk.Proofs.Store.Lifecycle
import TradeDesk.Proofs.Store.Outbox
import TradeDesk.Reconcile.Drift
import TradeDesk.Reconcile.Freshness
import TradeDesk.Risk.Limiter
import TradeDesk.Saturating
import TradeDesk.Side
import TradeDesk.Store.Basic
import TradeDesk.Store.Inbox
import TradeDesk.Store.Outbox
import TradeDesk.Text.Blank
import TradeDesk.Text.Case
import TradeDesk.Text.Graphic
import TradeDesk.Text.Integer
import TradeDesk.Text.Numeral
import TradeDesk.Text.Quoted
import TradeDesk.Text.SimpleCase
import TradeDesk.Text.Utf8
import TradeDesk.Uuid
import TradeDesk.Venue
