import StackUsage.Main
import StackUsage.Watch.Custody
import StackUsage.Watch.Roster
import StackUsage.Proofs.Snapshot
import StackUsage.Proofs.Watch.Contract
import StackUsage.Proofs.Watch.Holding
import StackUsage.Proofs.Annotation
import StackUsage.Proofs.Controller.Frame
import StackUsage.Proofs.Controller.Run
import StackUsage.Proofs.Controller.Display
import StackUsage.Proofs.Controller.Upkeep
import StackUsage.Proofs.Controller.Still
import StackUsage.Proofs.Controller.Resync
import StackUsage.Proofs.Controller.Moments
import StackUsage.Proofs.Controller.Outcome
import StackUsage.Proofs.Controller.Generations
import StackUsage.Proofs.Controller.Writing
import StackUsage.Proofs.Controller.Announcements
import StackUsage.Proofs.Tree
import StackUsage.Proofs.Controller.InStep
import StackUsage.Proofs.Controller.Outline
import StackUsage.Proofs.Controller.Order
import StackUsage.Proofs.Controller.Failures
import StackUsage.Proofs.Path
import StackUsage.Proofs.Path.Normal
import StackUsage.Proofs.Resolution
import StackUsage.Proofs.Watch.Rearm
import StackUsage.Proofs.Snapshot.Absence
import StackUsage.Proofs.Watch.Firing
import StackUsage.Proofs.Annotation.RealPaths
import StackUsage.Proofs.Manifest.OutputName
import StackUsage.Proofs.Index.History
import StackUsage.Proofs.Annotation.Updates
import StackUsage.Proofs.Annotation.Occurrences
import StackUsage.Proofs.Watch.Moving
import StackUsage.Proofs.Text
import StackUsage.Proofs.Report.Identifier
import StackUsage.Proofs.Report.Qualifiers
import StackUsage.Proofs.Report.Grammar
import StackUsage.Proofs.Report.Lines
import StackUsage.Proofs.Pattern
import StackUsage.Proofs.Manifest.Pattern
import StackUsage.Proofs.Annotation.Mentions
import StackUsage.Proofs.Path.Canonical
import StackUsage.Proofs.Workspace
import StackUsage.Proofs.Controller.Rounds
import StackUsage.Proofs.Json.Tokens
import StackUsage.Proofs.Json.Values
import StackUsage.Proofs.Json.Records
import StackUsage.Proofs.CommandLine.Options
import StackUsage.Proofs.Config
import StackUsage.Proofs.Watch.Custody
