import AlignPlan.Automaton
import AlignPlan.Automaton.Id
import AlignPlan.Batch
import AlignPlan.CommandLine
import AlignPlan.CommandLine.Arguments
import AlignPlan.Constraint
import AlignPlan.Disk
import AlignPlan.Distinct
import AlignPlan.Encoding
import AlignPlan.Encoding.Inputs
import AlignPlan.Encoding.Options
import AlignPlan.Encoding.Replicated
import AlignPlan.Encoding.Shared
import AlignPlan.Encoding.Steps
import AlignPlan.Fault
import AlignPlan.FileTree
import AlignPlan.Format.Cursor
import AlignPlan.Format.Document
import AlignPlan.Format.Expectation
import AlignPlan.Format.Grammar
import AlignPlan.Format.Phrase
import AlignPlan.Log
import AlignPlan.Name
import AlignPlan.Objects
import AlignPlan.Planning.Brackets
import AlignPlan.Planning.Formula
import AlignPlan.Planning.Layout
import AlignPlan.Planning.Task
import AlignPlan.Report
import AlignPlan.Report.Paint
import AlignPlan.Report.Snippet
import AlignPlan.Report.Source
import AlignPlan.Text.Blank
import AlignPlan.Text.ControlSequence
import AlignPlan.Text.Decimal
import AlignPlan.Text.Quoted
import AlignPlan.Text.Unprintable
import AlignPlan.Text.Width
import AlignPlan.Validation
import AlignPlan.Main
import AlignPlan.Proofs.Planning.Semantics
import AlignPlan.Proofs.Alignment.Moves
import AlignPlan.Proofs.Encoding.Accepted
import AlignPlan.Proofs.Encoding.EarlyJoin
import AlignPlan.Proofs.Encoding.Lift
import AlignPlan.Proofs.Encoding.SharedAlignments
import AlignPlan.Proofs.Encoding.Consumption
import AlignPlan.Proofs.Encoding.CurrentStates
import AlignPlan.Proofs.Encoding.FreePlans
import AlignPlan.Proofs.Encoding.SplitConstraints
import AlignPlan.Proofs.Planning.Expression
import AlignPlan.Proofs.Planning.WrittenForm
import AlignPlan.Proofs.Planning.Typing
import AlignPlan.Proofs.Encoding.ObjectNames
import AlignPlan.Proofs.Encoding.Lookups
import AlignPlan.Proofs.Encoding.Closed
import AlignPlan.Proofs.Encoding.Legible
import AlignPlan.Proofs.Encoding.Recovery
import AlignPlan.Proofs.Constraint.CanonicalOrder
import AlignPlan.Proofs.Encoding.InputOrder
import AlignPlan.Proofs.Validation.Names
import AlignPlan.Proofs.Validation.FirstViolation
import AlignPlan.Proofs.Format.Language
import AlignPlan.Proofs.Automaton.Sound
import AlignPlan.Proofs.Format.Soundness
import AlignPlan.Proofs.Format.Layout
import AlignPlan.Proofs.Format.Reading
import AlignPlan.Proofs.Format.Clauses
import AlignPlan.Proofs.Format.RoundTrip
import AlignPlan.Proofs.Disk.Places
import AlignPlan.Proofs.Batch.Plan
import AlignPlan.Proofs.Batch.Delivery
import AlignPlan.Proofs.Encoding.LetterCase
import AlignPlan.Proofs.Encoding.ObjectClashes
import AlignPlan.Proofs.Encoding.Blame
import AlignPlan.Proofs.Format.Declarations
import AlignPlan.Proofs.Encoding.FaultLocation
import AlignPlan.Proofs.Planning.Congruence
import AlignPlan.Proofs.Encoding.OptionEffects
import AlignPlan.Proofs.Encoding.ObjectLists
import AlignPlan.Proofs.Format.Moving
import AlignPlan.Proofs.Format.Locality
import AlignPlan.Proofs.Format.OwnText
import AlignPlan.Proofs.Format.Joining
import AlignPlan.Proofs.Format.Meaning
import AlignPlan.Proofs.Format.ItemOrder
import AlignPlan.Proofs.Constraint.IdOrder
import AlignPlan.Proofs.Format.FileOrder
import AlignPlan.Proofs.Format.Places
import AlignPlan.Proofs.Format.Excerpts
import AlignPlan.Proofs.Format.Describing
import AlignPlan.Proofs.Format.SyntaxTree
import AlignPlan.Proofs.Format.TreeWalk
import AlignPlan.Proofs.Format.Complaints
import AlignPlan.Proofs.Encoding.StateNames
import AlignPlan.Proofs.Planning.Indentation
import AlignPlan.Proofs.Automaton.Building
import AlignPlan.Proofs.Objects.Ledger
import AlignPlan.Proofs.Planning.BracketLanguage
import AlignPlan.Proofs.Planning.TypedLists
import AlignPlan.Proofs.Encoding.ParameterLists
