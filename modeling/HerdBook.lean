import HerdBook.Book
import HerdBook.Concept.Accounts
import HerdBook.Concept.Animals
import HerdBook.Concept.Basic
import HerdBook.Concept.ByName
import HerdBook.Concept.Call
import HerdBook.Concept.Herds
import HerdBook.Concept.Requests
import HerdBook.Digest.KeyDerivation
import HerdBook.Digest.Sha256
import HerdBook.Effect
import HerdBook.Engine.Answer
import HerdBook.Engine.Basic
import HerdBook.Engine.Flow
import HerdBook.Engine.Program
import HerdBook.Engine.Round
import HerdBook.Fault
import HerdBook.Frame.Basic
import HerdBook.Frame.Check
import HerdBook.Frame.Fill
import HerdBook.Frame.Unify
import HerdBook.Json.Encoding
import HerdBook.Json.Reader
import HerdBook.Json.Writer
import HerdBook.Limit
import HerdBook.Log.Record
import HerdBook.Log.Setup
import HerdBook.Log.Timestamp
import HerdBook.Lookup
import HerdBook.Note
import HerdBook.Number.Binary64
import HerdBook.Number.Decimal
import HerdBook.Number.Numeral
import HerdBook.Outcome
import HerdBook.Patience
import HerdBook.Proofs.Abstentions
import HerdBook.Proofs.AccountRoutes
import HerdBook.Proofs.ActionRoutes
import HerdBook.Proofs.Anonymous
import HerdBook.Proofs.Answers
import HerdBook.Proofs.Assignments
import HerdBook.Proofs.Atomicity
import HerdBook.Proofs.Bases
import HerdBook.Proofs.Bindings
import HerdBook.Proofs.Books
import HerdBook.Proofs.Calls
import HerdBook.Proofs.Causes
import HerdBook.Proofs.Ceilings
import HerdBook.Proofs.Conclusions
import HerdBook.Proofs.Consultations
import HerdBook.Proofs.Containment
import HerdBook.Proofs.Correspondence
import HerdBook.Proofs.Departures
import HerdBook.Proofs.DirectCalls
import HerdBook.Proofs.Discretion
import HerdBook.Proofs.Equivalence
import HerdBook.Proofs.Evaluations
import HerdBook.Proofs.Exchanges
import HerdBook.Proofs.Explanations
import HerdBook.Proofs.Failures
import HerdBook.Proofs.Fillings
import HerdBook.Proofs.Fulfilments
import HerdBook.Proofs.Growth
import HerdBook.Proofs.Handling
import HerdBook.Proofs.Herding
import HerdBook.Proofs.Histories
import HerdBook.Proofs.Husbandry
import HerdBook.Proofs.Invocations
import HerdBook.Proofs.Isolation
import HerdBook.Proofs.Joins
import HerdBook.Proofs.Json
import HerdBook.Proofs.Lineages
import HerdBook.Proofs.Matches
import HerdBook.Proofs.Mirrors
import HerdBook.Proofs.Motions
import HerdBook.Proofs.Numbering
import HerdBook.Proofs.Outcomes
import HerdBook.Proofs.Owners
import HerdBook.Proofs.Parallels
import HerdBook.Proofs.Partitions
import HerdBook.Proofs.Passes
import HerdBook.Proofs.Pipelines
import HerdBook.Proofs.Privacy
import HerdBook.Proofs.Programs
import HerdBook.Proofs.Queries
import HerdBook.Proofs.QueryRoutes
import HerdBook.Proofs.Reading
import HerdBook.Proofs.Records
import HerdBook.Proofs.Refusals
import HerdBook.Proofs.Registers
import HerdBook.Proofs.Regrouping
import HerdBook.Proofs.Relays
import HerdBook.Proofs.Remembering
import HerdBook.Proofs.Reorderings
import HerdBook.Proofs.RequestKeeping
import HerdBook.Proofs.Responses
import HerdBook.Proofs.Retention
import HerdBook.Proofs.Rollbacks
import HerdBook.Proofs.Rolls
import HerdBook.Proofs.Rounds
import HerdBook.Proofs.Routes
import HerdBook.Proofs.Sameness
import HerdBook.Proofs.Scenes
import HerdBook.Proofs.Seclusion
import HerdBook.Proofs.Separation
import HerdBook.Proofs.Sessions
import HerdBook.Proofs.Settled
import HerdBook.Proofs.StatusRoutes
import HerdBook.Proofs.Steps
import HerdBook.Proofs.Strangers
import HerdBook.Proofs.Strata
import HerdBook.Proofs.Tables
import HerdBook.Proofs.Templates
import HerdBook.Proofs.Tokens
import HerdBook.Proofs.Turns
import HerdBook.Proofs.Unifications
import HerdBook.Proofs.Upkeep
import HerdBook.Proofs.Waiting
import HerdBook.Proofs.Watching
import HerdBook.Rule.Basic
import HerdBook.Rule.Event
import HerdBook.Rule.Pattern
import HerdBook.Rule.Stage
import HerdBook.Rules.Accounts
import HerdBook.Rules.Authenticated
import HerdBook.Rules.Book
import HerdBook.Rules.Shape
import HerdBook.Rules.Status
import HerdBook.Script.Basic
import HerdBook.Script.Expression
import HerdBook.Script.Host
import HerdBook.Script.Run
import HerdBook.Script.Template
import HerdBook.Script.World
import HerdBook.Script.Written
import HerdBook.Settings.Basic
import HerdBook.Settings.Read
import HerdBook.Settings.Source
import HerdBook.Store.Basic
import HerdBook.Store.Program
import HerdBook.Symbol
import HerdBook.Table
import HerdBook.Text.Blank
import HerdBook.Text.Capital
import HerdBook.Text.Digit
import HerdBook.Text.Half
import HerdBook.Text.Printable
import HerdBook.Text.Quoted
import HerdBook.Text.Ranges
import HerdBook.Text.Word
import HerdBook.Transport.Access
import HerdBook.Transport.Handle
import HerdBook.Transport.KindArg
import HerdBook.Transport.OpenKind
import HerdBook.Transport.Path
import HerdBook.Transport.Route
import HerdBook.Transport.Target
import HerdBook.Value.Basic
import HerdBook.Value.Contents
import HerdBook.Value.Directives
import HerdBook.Value.Equality
import HerdBook.Value.Text
import HerdBook.Value.Whole
