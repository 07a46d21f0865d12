import Conformance.Audit.Project
import Conformance.Backup.Manifest
import Conformance.Command.Run
import Conformance.Document.Directory
import Conformance.Fix.Fixers
import Conformance.Fix.Session
import Conformance.Main
import Conformance.Matching.Lines
import Conformance.Report.Markdown
import Conformance.Report.Plain
import Conformance.Report.Stored
import Conformance.Proofs.Disk.Entries
import Conformance.Proofs.Disk.Following
import Conformance.Proofs.Disk.Resolving
import Conformance.Proofs.Disk.Written
import Conformance.Proofs.Disk.Places
import Conformance.Proofs.Disk.Making
import Conformance.Proofs.Hash.Digits
import Conformance.Proofs.Text.Encoding
import Conformance.Proofs.Json.ReadingBack
import Conformance.Proofs.Backup.Recording
import Conformance.Proofs.Backup.Keeping
import Conformance.Proofs.Backup.Guarding
import Conformance.Proofs.Audit.Ordering
import Conformance.Proofs.Fix.Revising
import Conformance.Proofs.Fix.Transaction
import Conformance.Proofs.Fix.Restoring
import Conformance.Proofs.Fix.Outcomes
import Conformance.Proofs.Fix.Unverified
import Conformance.Proofs.Fix.DryRun
import Conformance.Proofs.Fix.Accounting
import Conformance.Proofs.Fix.Repeating
import Conformance.Proofs.Backup.Tampering
import Conformance.Proofs.Backup.Course
import Conformance.Proofs.Disk.Storing
import Conformance.Proofs.Audit.Selection
import Conformance.Proofs.Audit.Reordering
import Conformance.Proofs.Audit.Aggregation
import Conformance.Proofs.Syntax.Layout
import Conformance.Proofs.Syntax.Rules
import Conformance.Proofs.Syntax.Signature
import Conformance.Proofs.Syntax.TypeExpression
import Conformance.Proofs.Syntax.Expression
import Conformance.Proofs.Syntax.Statement
import Conformance.Proofs.Syntax.Positions
import Conformance.Proofs.Matching.Positions
import Conformance.Proofs.Audit.Registering
import Conformance.Proofs.Audit.Confinement
import Conformance.Proofs.Report.Reloading
import Conformance.Proofs.Document.Joining
import Conformance.Proofs.Number.Digits
import Conformance.Proofs.Pattern.Running
import Conformance.Proofs.Compiler.Messages
import Conformance.Proofs.Compiler.Recovering
import Conformance.Proofs.Fix.ConsoleCalls
import Conformance.Proofs.Fix.CallPieces
import Conformance.Proofs.Fix.Recommenting
import Conformance.Proofs.Fix.InsertedMarks
import Conformance.Proofs.Fix.BlockComments
import Conformance.Proofs.Fix.CoveredCalls
import Conformance.Proofs.Syntax.Gaps
import Conformance.Proofs.Syntax.FirstNode
import Conformance.Proofs.Syntax.FirstStatement
import Conformance.Proofs.Fix.LeadingDirective
import Conformance.Proofs.Config.Loading
import Conformance.Proofs.Audit.Failures
import Conformance.Proofs.Command.Ending
import Conformance.Proofs.Matching.Reporting
import Conformance.Proofs.Fix.ClaimedRules
import Conformance.Proofs.Pattern.Capturing
import Conformance.Proofs.Pattern.Words
import Conformance.Proofs.Fix.ExportPatterns
import Conformance.Proofs.Fix.SettledExports
import Conformance.Proofs.Fix.LineEnds
import Conformance.Proofs.Pattern.Sweeping
import Conformance.Proofs.Fix.FunctionHeads
import Conformance.Proofs.Fix.MergedHeads
import Conformance.Proofs.Fix.ReturnTypePatterns
import Conformance.Proofs.Fix.AnnotatedHeads
import Conformance.Proofs.Fix.OwnReturns
import Conformance.Proofs.Fix.ReturnMarks
import Conformance.Proofs.Fix.SettledReturnTypes
import Conformance.Proofs.Syntax.Names
import Conformance.Proofs.Syntax.Readings
import Conformance.Proofs.Syntax.DeclaredNames
import Conformance.Proofs.Syntax.NamedExports
import Conformance.Proofs.Fix.NamedDefaults
import Conformance.Proofs.Syntax.Walking
import Conformance.Proofs.Matching.Channels
import Conformance.Proofs.Matching.NodeReports
import Conformance.Proofs.Matching.Suppressions
import Conformance.Proofs.Document.Pairing
import Conformance.Proofs.Fix.HandingOver
import Conformance.Proofs.Number.Nearest
import Conformance.Proofs.Audit.Scoring
import Conformance.Proofs.Text.Pieces
import Conformance.Proofs.Pattern.Matching
import Conformance.Proofs.Pattern.Forms
import Conformance.Proofs.Document.Detecting
import Conformance.Proofs.Config.Settings
import Conformance.Proofs.Backup.Loading
import Conformance.Proofs.Report.Loading
import Conformance.Proofs.Compiler.Outputs
import Conformance.Proofs.Text.Replacing
import Conformance.Proofs.Syntax.Columns
import Conformance.Proofs.Fix.CallBodies
import Conformance.Proofs.Audit.Ranking
import Conformance.Proofs.Report.Tables
