import Colloquy.Text.Case
import Colloquy.Text.LowerCase
import Colloquy.Text.Quoted
import Colloquy.Decimal.Layout
import Colloquy.Instant
import Colloquy.Json.Reader
import Colloquy.Json.Printer
import Colloquy.Completion
import Colloquy.Conversation
import Colloquy.Expression.Evaluation
import Colloquy.Tool.Preparation
import Colloquy.Toolbox
import Colloquy.Completion.Script
import Colloquy.PromptText
import Colloquy.Toml.Reader
import Colloquy.Configuration.Place
import Colloquy.Configuration.Starter
import Colloquy.Agent.Directory
import Colloquy.Store.Memory
import Colloquy.Store.Interference
import Colloquy.Turn.Rehearsal
import Colloquy.Shell.Disk
import Colloquy.Text.Percent
import Colloquy.Store.Opening
import Colloquy.Command.Invocation
import Colloquy.Command
import Colloquy.Json.Ascii
import Colloquy.Main
import Colloquy.Proofs.Attempts
import Colloquy.Proofs.Decimal.Comparison
import Colloquy.Proofs.Turn.Persistence
import Colloquy.Proofs.Turn.Protocol
import Colloquy.Proofs.Turn.Faults
import Colloquy.Proofs.Turn.Depth
import Colloquy.Proofs.Completion.Gathering
import Colloquy.Proofs.Completion.Rechunking
import Colloquy.Proofs.Store.Statements
import Colloquy.Proofs.Store.Impartial
import Colloquy.Proofs.Turn.Surroundings
import Colloquy.Proofs.Turn.Tandem
import Colloquy.Proofs.Turn.Chunking
import Colloquy.Proofs.Instant.StoredOrder
import Colloquy.Proofs.Store.Ledger
import Colloquy.Proofs.Store.MemoryLedger
import Colloquy.Proofs.Store.DatabaseLedger
import Colloquy.Proofs.Store.Agreement
import Colloquy.Proofs.Text.Steadiness
import Colloquy.Proofs.Json.Scalars
import Colloquy.Proofs.Json.Printed
import Colloquy.Proofs.Instant.Calendar
import Colloquy.Proofs.Instant.Reading
import Colloquy.Proofs.Store.StoredRecords
import Colloquy.Proofs.Turn.Underway
import Colloquy.Proofs.Turn.Additions
import Colloquy.Proofs.Turn.Audit
import Colloquy.Proofs.Turn.Taking
import Colloquy.Proofs.Turn.Conversations
import Colloquy.Proofs.Turn.Ensemble
import Colloquy.Proofs.Expression.Phrase
import Colloquy.Proofs.Expression.Readings
import Colloquy.Proofs.Expression.Evaluation
import Colloquy.Proofs.Completion.Parameters
import Colloquy.Proofs.Configuration.Valid
import Colloquy.Proofs.Turn.Requests
import Colloquy.Proofs.Configuration.Addresses
import Colloquy.Proofs.Configuration.Offers
import Colloquy.Proofs.Completion.Scripts
import Colloquy.Proofs.Store.LoggedRecords
import Colloquy.Proofs.Store.Pages
import Colloquy.Proofs.Store.Isolation
import Colloquy.Proofs.Store.Growth
import Colloquy.Proofs.Turn.EarlySession
import Colloquy.Proofs.Completion.Calls
import Colloquy.Proofs.Completion.Pulls
import Colloquy.Proofs.Turn.Batches
import Colloquy.Proofs.Turn.Consultations
import Colloquy.Proofs.Turn.Prompts
import Colloquy.Proofs.Turn.PromptSize
import Colloquy.Proofs.Turn.Limits
import Colloquy.Proofs.Turn.Replies
import Colloquy.Proofs.Turn.Rejections
import Colloquy.Proofs.Store.Roster
import Colloquy.Proofs.Store.Listings
import Colloquy.Proofs.Configuration.Rules
import Colloquy.Proofs.Configuration.Loaded
import Colloquy.Proofs.Configuration.DerivedIds
import Colloquy.Proofs.Turn.Resolutions
import Colloquy.Proofs.Store.Windows
import Colloquy.Proofs.Completion.Playback
import Colloquy.Proofs.Configuration.Schemas
import Colloquy.Proofs.Expression.Lexemes
import Colloquy.Proofs.Expression.Counters
import Colloquy.Proofs.Configuration.Directories
import Colloquy.Proofs.Configuration.Precedence
import Colloquy.Proofs.Tool.Dispatch
