import Countersign.Binary64.Basic
import Countersign.Binary64.Shortest
import Countersign.Call.Error
import Countersign.Call.Options
import Countersign.Call.Typed
import Countersign.Cli.Arguments
import Countersign.Cli.Job
import Countersign.Cli.Rehearsal
import Countersign.Duration
import Countersign.Endpoint
import Countersign.Http.Exchange
import Countersign.Http.Message
import Countersign.Http.Status
import Countersign.Json.Numeral
import Countersign.Json.Printer
import Countersign.Json.Reading
import Countersign.Json.Record
import Countersign.Json.Text
import Countersign.Json.Tree
import Countersign.Json.Value
import Countersign.LocalTx.Basic
import Countersign.LocalTx.View
import Countersign.Main
import Countersign.Proofs.Collections
import Countersign.Quantity
import Countersign.Queue.Basic
import Countersign.Queue.Desk
import Countersign.Queue.Operation
import Countersign.Queue.Scenario
import Countersign.Request.Basic
import Countersign.Request.Failure
import Countersign.Request.Id
import Countersign.Request.Outcome
import Countersign.Request.Payload
import Countersign.Request.Status
import Countersign.Rpc.Encoder
import Countersign.Rpc.Error
import Countersign.Rpc.Request
import Countersign.Rpc.Response
import Countersign.Script
import Countersign.Settings
import Countersign.Socket.Calls
import Countersign.Socket.Connection
import Countersign.Text.Blank
import Countersign.Text.Digits
import Countersign.Text.Hex
import Countersign.Text.Utf8
import Countersign.Tracker
import Countersign.Proofs.Queue.Effects
import Countersign.Proofs.Queue.Moves
import Countersign.Proofs.Queue.Invariant
import Countersign.Proofs.Queue.Settlement
import Countersign.Proofs.Queue.Protection
import Countersign.Proofs.Queue.History
import Countersign.Proofs.Queue.Commutation
import Countersign.Proofs.Socket.Moves
import Countersign.Proofs.Socket.Correlation
import Countersign.Proofs.Socket.Accounting
import Countersign.Proofs.Socket.Deeds
import Countersign.Proofs.Socket.Shutdown
import Countersign.Proofs.Queue.Failures
import Countersign.Proofs.LocalTx.Reconciliation
import Countersign.Proofs.Json.Literals
import Countersign.Proofs.Json.Printed
import Countersign.Proofs.Json.Reread
import Countersign.Proofs.Rpc.Envelope
import Countersign.Proofs.Text.Utf8
import Countersign.Proofs.Transports
import Countersign.Proofs.Queue.Independence
import Countersign.Proofs.Queue.Listing
import Countersign.Proofs.Socket.Arrival
import Countersign.Proofs.LocalTx.Recency
import Countersign.Proofs.LocalTx.Stability
import Countersign.Proofs.Polling
import Countersign.Proofs.Rpc.Ids
import Countersign.Proofs.Text.Hex
import Countersign.Proofs.Outcomes
import Countersign.Proofs.Rpc.Debugging
import Countersign.Proofs.Cli.Runs
import Countersign.Proofs.Cli.Decisions
import Countersign.Proofs.Cli.Tracking
import Countersign.Proofs.Quantities
import Countersign.Proofs.RequestIds
import Countersign.Proofs.Json.Grammar
import Countersign.Proofs.Json.Embedding
import Countersign.Proofs.Json.Objects
import Countersign.Proofs.Rpc.ErrorObjects
import Countersign.Proofs.Json.Fields
import Countersign.Proofs.Rpc.Readings
import Countersign.Proofs.Text.ByteOrder
import Countersign.Proofs.LocalTx.Fetching
import Countersign.Proofs.Logging
import Countersign.Proofs.LocalTx.Passes
