import TaskRevision.CommandLine.Arguments
import TaskRevision.CommandLine.Run
import TaskRevision.Container.Basic
import TaskRevision.Container.Index
import TaskRevision.Container.Operation
import TaskRevision.Decimal.Shortest
import TaskRevision.Description
import TaskRevision.Editor
import TaskRevision.Failure
import TaskRevision.Field
import TaskRevision.ImageReference
import TaskRevision.Journal
import TaskRevision.Json.Choice
import TaskRevision.Json.Expect
import TaskRevision.Json.Fault
import TaskRevision.Json.Lexeme
import TaskRevision.Json.Number
import TaskRevision.Json.Numeral
import TaskRevision.Json.Reader
import TaskRevision.Json.Skim
import TaskRevision.Json.Value
import TaskRevision.Json.Writer
import TaskRevision.Keyed
import TaskRevision.Main
import TaskRevision.Proofs.Causes
import TaskRevision.Proofs.CommandLine.Channels
import TaskRevision.Proofs.CommandLine.Options
import TaskRevision.Proofs.Container.Growth
import TaskRevision.Proofs.Description.Accepted
import TaskRevision.Proofs.Description.Agreement
import TaskRevision.Proofs.Description.Carried
import TaskRevision.Proofs.Description.RoundTrip
import TaskRevision.Proofs.Editor.Again
import TaskRevision.Proofs.Editor.Exact
import TaskRevision.Proofs.Editor.Fields
import TaskRevision.Proofs.Editor.Frame
import TaskRevision.Proofs.Editor.History
import TaskRevision.Proofs.Editor.Image
import TaskRevision.Proofs.Editor.Independence
import TaskRevision.Proofs.Editor.Items
import TaskRevision.Proofs.Editor.Merge
import TaskRevision.Proofs.Editor.Outcome
import TaskRevision.Proofs.Editor.Plain
import TaskRevision.Proofs.Editor.Rows
import TaskRevision.Proofs.Extraction
import TaskRevision.Proofs.ImageReference
import TaskRevision.Proofs.Index.Build
import TaskRevision.Proofs.Index.Complete
import TaskRevision.Proofs.Index.Places
import TaskRevision.Proofs.Json.Accepted
import TaskRevision.Proofs.Json.Follows
import TaskRevision.Proofs.Json.Integers
import TaskRevision.Proofs.Json.Plain
import TaskRevision.Proofs.Json.RoundTrip
import TaskRevision.Proofs.Json.Strings
import TaskRevision.Proofs.Overlaid
import TaskRevision.Proofs.Settled
import TaskRevision.Proofs.Staging
import TaskRevision.Proofs.Text.Cuts
import TaskRevision.Proofs.Text.Trimmed
import TaskRevision.Proofs.Untouched
import TaskRevision.Proofs.Update.Joining
import TaskRevision.Proofs.Update.Language
import TaskRevision.Proofs.Update.Mention
import TaskRevision.Proofs.Update.Padding
import TaskRevision.Proofs.Update.Spelling
import TaskRevision.Proofs.Update.Tokens
import TaskRevision.Revision
import TaskRevision.Text.Blank
import TaskRevision.Text.Cut
import TaskRevision.Text.Location
import TaskRevision.Text.Parser
import TaskRevision.Text.Quoted
import TaskRevision.Text.Unprintable
import TaskRevision.Update.Grammar
import TaskRevision.Update.Kind
import TaskRevision.Update.Lexer
import TaskRevision.Update.Record
import TaskRevision.Update.RecordForm
import TaskRevision.Update.Strings
import TaskRevision.Update.Token
