import RouteWatch.Action.Basic
import RouteWatch.Action.Event
import RouteWatch.Action.Failure
import RouteWatch.Annotation.Basic
import RouteWatch.Annotation.Plan
import RouteWatch.CommandLine.Arguments
import RouteWatch.CommandLine.Command
import RouteWatch.CommandLine.Run
import RouteWatch.Config.Comment
import RouteWatch.Config.Settings
import RouteWatch.Config.Sources
import RouteWatch.Config.Store
import RouteWatch.Diff.Alignment
import RouteWatch.Diff.Edit
import RouteWatch.Diff.Hunk
import RouteWatch.Diff.LineSet
import RouteWatch.Diff.Unified
import RouteWatch.Files.Path
import RouteWatch.Files.Reading
import RouteWatch.Files.Tree
import RouteWatch.Forge.Client
import RouteWatch.Forge.Comment
import RouteWatch.Forge.Link
import RouteWatch.Forge.Request
import RouteWatch.Forge.Retry
import RouteWatch.Json.Basic
import RouteWatch.Json.Reader
import RouteWatch.Json.Writer
import RouteWatch.Main
import RouteWatch.Number.Binary64
import RouteWatch.Number.Reading
import RouteWatch.Number.Shortest
import RouteWatch.Pattern.Basic
import RouteWatch.Pattern.Match
import RouteWatch.Pattern.Reader
import RouteWatch.Record.Reading
import RouteWatch.Record.Writing
import RouteWatch.Review.Backend
import RouteWatch.Review.Memory
import RouteWatch.Review.Preview
import RouteWatch.Review.Report
import RouteWatch.Review.Run
import RouteWatch.Route.Block
import RouteWatch.Route.File
import RouteWatch.Route.Scan
import RouteWatch.Route.Select
import RouteWatch.Server.Body
import RouteWatch.Server.Message
import RouteWatch.Server.Review
import RouteWatch.Server.Routing
import RouteWatch.Server.Settings
import RouteWatch.Text.Case
import RouteWatch.Text.Digit
import RouteWatch.Text.Lines
import RouteWatch.Text.Percent
import RouteWatch.Text.Printable
import RouteWatch.Text.Quoted
import RouteWatch.Text.Ranges
import RouteWatch.Text.Space
import RouteWatch.Text.Utf8
import RouteWatch.Text.Word
import RouteWatch.Validation.Check
import RouteWatch.Validation.Problem
import RouteWatch.Proofs.Diff.CommonRuns
import RouteWatch.Proofs.Diff.ZeroContext
import RouteWatch.Proofs.Text.Lines
import RouteWatch.Proofs.Diff.Header
import RouteWatch.Proofs.Diff.ReadBack
import RouteWatch.Proofs.Diff.HunkTable
import RouteWatch.Proofs.Route.ScannedBlocks
import RouteWatch.Proofs.Annotation.Plan
import RouteWatch.Proofs.Annotation.FirstOfKeys
import RouteWatch.Proofs.Diff.Anchor
import RouteWatch.Proofs.Review.AnnotatedBlocks
import RouteWatch.Proofs.Action.Ends
import RouteWatch.Proofs.Review.Memory
import RouteWatch.Proofs.Review.Replan
import RouteWatch.Proofs.Review.RunSteps
import RouteWatch.Proofs.Review.Convergence
import RouteWatch.Proofs.Route.RemovedBlocks
import RouteWatch.Proofs.Review.PlannedLines
import RouteWatch.Proofs.Review.Escalation
import RouteWatch.Proofs.Diff.KeptLines
import RouteWatch.Proofs.Review.DeletedRoutes
import RouteWatch.Proofs.Action.TwoRuns
import RouteWatch.Proofs.Review.Steady
import RouteWatch.Proofs.Review.FailingFiles
import RouteWatch.Proofs.Diff.Origin
import RouteWatch.Proofs.Review.UnaffectedBlocks
import RouteWatch.Proofs.Route.JoinedScans
import RouteWatch.Proofs.Diff.UniqueLines
import RouteWatch.Proofs.Review.AddedRoutes
import RouteWatch.Proofs.Review.Dialogue
import RouteWatch.Proofs.Review.Log
import RouteWatch.Proofs.Review.CompletedRuns
import RouteWatch.Proofs.Review.MemoryReplies
import RouteWatch.Proofs.Review.Stops
import RouteWatch.Proofs.Review.StoppedRuns
import RouteWatch.Proofs.Action.Rehearsal
import RouteWatch.Proofs.Review.DryRuns
import RouteWatch.Proofs.Diff.Context
import RouteWatch.Proofs.Diff.Patch
import RouteWatch.Proofs.Diff.Unified
import RouteWatch.Proofs.Diff.EqualTexts
import RouteWatch.Proofs.Review.UnchangedFiles
import RouteWatch.Proofs.Forge.Exchange
import RouteWatch.Proofs.Forge.Memo
import RouteWatch.Proofs.Forge.Pinned
import RouteWatch.Proofs.Files.Tree
import RouteWatch.Proofs.Files.Reading
import RouteWatch.Proofs.Json.Numeral
import RouteWatch.Proofs.Text.Utf8
import RouteWatch.Proofs.Json.Strings
import RouteWatch.Proofs.Json.Fields
import RouteWatch.Proofs.Json.Legible
import RouteWatch.Proofs.Json.RoundTrip
import RouteWatch.Proofs.Json.Stored
import RouteWatch.Proofs.Validation.BadParts
import RouteWatch.Proofs.Config.Forms
import RouteWatch.Proofs.Config.StoredSettings
import RouteWatch.Proofs.Config.Fallback
import RouteWatch.Proofs.Pattern.Groups
import RouteWatch.Proofs.Review.PreviewEnds
import RouteWatch.Proofs.Diff.HeaderForm
import RouteWatch.Proofs.Forge.Attempts
import RouteWatch.Proofs.Forge.Listings
import RouteWatch.Proofs.Text.Percent
import RouteWatch.Proofs.Forge.Addresses
import RouteWatch.Proofs.Config.Precedence
