import Dialogue.Text.Alphanumeric
import Dialogue.Text.Lowercase
import Dialogue.Text.Quoted
import Dialogue.Text.Scan
import Dialogue.Entries
import Dialogue.Number.Notation
import Dialogue.Json.Reader
import Dialogue.Json.Printer
import Dialogue.Node.OfJson
import Dialogue.Path.Parse
import Dialogue.Store.Tree
import Dialogue.Command.Run
import Dialogue.Dictionary.Rows
import Dialogue.Match.Payload
import Dialogue.Gazetteer
import Dialogue.Bot.Answer
import Dialogue.Bot.Script
import Dialogue.Config.ToJson
import Dialogue.Folder
import Dialogue.Server
import Dialogue.Main
import Dialogue.Proofs.Store.Recursion
import Dialogue.Proofs.Number.Index
import Dialogue.Proofs.Store.ReadBack
import Dialogue.Proofs.Store.Branches
import Dialogue.Proofs.Text.Words
import Dialogue.Proofs.Text.Spoken
import Dialogue.Proofs.Marker
import Dialogue.Proofs.Match.Cut
import Dialogue.Proofs.Edits
import Dialogue.Proofs.Store.Open
import Dialogue.Proofs.History
import Dialogue.Proofs.Shape
import Dialogue.Proofs.Bot.Resolve
import Dialogue.Proofs.Bot.Run
import Dialogue.Proofs.Bot.Carry
import Dialogue.Proofs.Path.Objects
import Dialogue.Proofs.Path.Written
import Dialogue.Proofs.Path.Grammar
import Dialogue.Proofs.Bot.Confirmation
import Dialogue.Proofs.Bot.WellFormed
import Dialogue.Proofs.Dictionary
import Dialogue.Proofs.Span
import Dialogue.Proofs.Match.Captured
import Dialogue.Proofs.Match.Filled
import Dialogue.Proofs.Match.Complete
import Dialogue.Proofs.Match.Denoted
import Dialogue.Proofs.Command.Stored
import Dialogue.Proofs.Command.Written
import Dialogue.Proofs.Match.Clauses
import Dialogue.Proofs.Bot.Release
import Dialogue.Proofs.Gazetteer
import Dialogue.Proofs.Gazetteer.Lines
import Dialogue.Proofs.Readings
import Dialogue.Proofs.Bot.Handover
import Dialogue.Proofs.Bot.Seen
import Dialogue.Proofs.Bot.Nesting
import Dialogue.Proofs.Store.Beside
import Dialogue.Proofs.Bot.Asked
import Dialogue.Proofs.Store.Guarded
import Dialogue.Proofs.Dictionary.Rows
import Dialogue.Proofs.Store.Ordered
import Dialogue.Proofs.Bot.Steady
import Dialogue.Proofs.Bot.Unanswered
import Dialogue.Proofs.Server.Calls
import Dialogue.Proofs.Server.Apart
import Dialogue.Proofs.Store.Deleted
import Dialogue.Proofs.Bot.Built
import Dialogue.Proofs.Match.Greedy
import Dialogue.Proofs.Terms
import Dialogue.Proofs.Store.Commute
import Dialogue.Proofs.Goal
import Dialogue.Proofs.Bot.Prompted
import Dialogue.Proofs.Bot.Gate
import Dialogue.Proofs.Bot.Best
import Dialogue.Proofs.Chosen
import Dialogue.Proofs.Switch
import Dialogue.Proofs.Server.Failed
import Dialogue.Proofs.Store.Found
import Dialogue.Proofs.Completion
import Dialogue.Proofs.Demo.Change
import Dialogue.Proofs.Search
import Dialogue.Proofs.Span.Masks
import Dialogue.Proofs.Span.Runs
import Dialogue.Proofs.Recognised
import Dialogue.Proofs.Text.WordRuns
import Dialogue.Proofs.Store.Rebuilt
