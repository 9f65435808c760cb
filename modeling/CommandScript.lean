import CommandScript.Files.Tree
import CommandScript.Main
import CommandScript.Session
import CommandScript.Studio
import CommandScript.Workbench
import CommandScript.Proofs.States
import CommandScript.Proofs.ParsedTree
import CommandScript.Proofs.Invocations
import CommandScript.Proofs.Lines
import CommandScript.Proofs.Documents
import CommandScript.Proofs.Histories
import CommandScript.Proofs.Cancellation
import CommandScript.Proofs.Layout
import CommandScript.Proofs.Concatenation
import CommandScript.Proofs.Ungrouping
import CommandScript.Proofs.Reports
import CommandScript.Proofs.AfterCancellation
import CommandScript.Proofs.ValidMarkers
import CommandScript.Proofs.LostCarries
import CommandScript.Proofs.Traces
import CommandScript.Proofs.Faults
import CommandScript.Proofs.LeastKeys
import CommandScript.Proofs.Reordering
import CommandScript.Proofs.DelayDecisions
import CommandScript.Proofs.Lifetimes
import CommandScript.Proofs.Views
import CommandScript.Proofs.Vocabularies
import CommandScript.Proofs.SingleLines
import CommandScript.Proofs.Diagnostics
import CommandScript.Proofs.Shelves
import CommandScript.Proofs.Nesting
import CommandScript.Proofs.Outlines
import CommandScript.Proofs.LastValues
import CommandScript.Proofs.CommentStarts
import CommandScript.Proofs.WrittenDialects
import CommandScript.Proofs.Raisers
import CommandScript.Proofs.SharedRecorders
