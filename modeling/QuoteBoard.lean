import QuoteBoard.Backend.Line
import QuoteBoard.Feed.Peer
import QuoteBoard.Main
import QuoteBoard.Proofs.Board.Confluence
import QuoteBoard.Proofs.Dashboard.Isolation
import QuoteBoard.Proofs.Engine.Readiness
import QuoteBoard.Proofs.Engine.Requests
import QuoteBoard.Proofs.Engine.Schedule
import QuoteBoard.Proofs.Engine.Sessions
import QuoteBoard.Rehearsal.Script
import QuoteBoard.Settings.File
import QuoteBoard.Proofs.Fallback.Batch
import QuoteBoard.Proofs.Fallback.Fetch
import QuoteBoard.Proofs.Board.Tracked
import QuoteBoard.Proofs.Engine.Sweep
import QuoteBoard.Proofs.Board.Writes
import QuoteBoard.Proofs.Engine.Telemetry
import QuoteBoard.Proofs.Dashboard.RowNames
import QuoteBoard.Proofs.Feed.Ticks
import QuoteBoard.Proofs.Engine.Payloads
import QuoteBoard.Proofs.Backend.Quotes
import QuoteBoard.Price.Decimal
import QuoteBoard.Proofs.Binary64.Value
import QuoteBoard.Proofs.Price.Decimal
import QuoteBoard.Proofs.Price.Text
import QuoteBoard.Proofs.Binary64.Shortest
import QuoteBoard.Proofs.Json.Numeral
import QuoteBoard.Proofs.Feed.Scalar
import QuoteBoard.Proofs.Engine.Codes
import QuoteBoard.Proofs.Feed.Session
import QuoteBoard.Proofs.Backend.Lookup
import QuoteBoard.Proofs.Dashboard.Stages
import QuoteBoard.Proofs.Dashboard.Containment
import QuoteBoard.Proofs.Price.History
import QuoteBoard.Proofs.Text.Padding
import QuoteBoard.Proofs.Instrument.Candidates
import QuoteBoard.Proofs.Board.Attachments
import QuoteBoard.Proofs.Board.Replacement
import QuoteBoard.Proofs.Feed.Messages
import QuoteBoard.Proofs.Engine.Messages
import QuoteBoard.Proofs.Dashboard.Repetitions
import QuoteBoard.Proofs.Settings.Accepted
import QuoteBoard.Proofs.Backend.Pauses
import QuoteBoard.Proofs.Rehearsal.Run
