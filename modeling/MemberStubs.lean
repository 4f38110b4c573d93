import MemberStubs.Application.Execution
import MemberStubs.Application.Outcome
import MemberStubs.ApplyRecord
import MemberStubs.CommandLine.Arguments
import MemberStubs.CommandLine.Commands
import MemberStubs.Diagnostic
import MemberStubs.Diff.Compaction
import MemberStubs.Diff.Hunk
import MemberStubs.Diff.Patch
import MemberStubs.Diff.Script
import MemberStubs.Diff.Snake
import MemberStubs.Digest.Hex
import MemberStubs.Digest.Message
import MemberStubs.Digest.NameId
import MemberStubs.Digest.Sha1
import MemberStubs.Digest.Sha256
import MemberStubs.Document.ApplyRecord
import MemberStubs.Document.Diagnostic
import MemberStubs.Document.Edit
import MemberStubs.Document.Member
import MemberStubs.Document.Plan
import MemberStubs.Document.Snapshot
import MemberStubs.Edit
import MemberStubs.Explain.Page
import MemberStubs.Explain.Topic
import MemberStubs.Glob.Pattern
import MemberStubs.Glob.Search
import MemberStubs.Json.Basic
import MemberStubs.Json.Lexeme
import MemberStubs.Json.Number
import MemberStubs.Json.Printer
import MemberStubs.Json.Reader
import MemberStubs.Json.Record
import MemberStubs.Json.Token
import MemberStubs.Main
import MemberStubs.Member
import MemberStubs.MemberTable
import MemberStubs.Path
import MemberStubs.PathMap
import MemberStubs.Pipeline.Applying
import MemberStubs.Pipeline.Planning
import MemberStubs.Plan
import MemberStubs.Proofs.Absorption.Again
import MemberStubs.Proofs.Absorption.Effect
import MemberStubs.Proofs.Absorption.Heirs
import MemberStubs.Proofs.Absorption.Owed
import MemberStubs.Proofs.Application.Execution
import MemberStubs.Proofs.Application.FileByFile
import MemberStubs.Proofs.Application.Outcomes
import MemberStubs.Proofs.Application.Repeated
import MemberStubs.Proofs.Application.Truth
import MemberStubs.Proofs.Diff.Compaction
import MemberStubs.Proofs.Diff.Hunk
import MemberStubs.Proofs.Diff.Patch
import MemberStubs.Proofs.Diff.Printing
import MemberStubs.Proofs.Diff.Reading
import MemberStubs.Proofs.Diff.Script
import MemberStubs.Proofs.Document.ApplyRecord
import MemberStubs.Proofs.Document.Edit
import MemberStubs.Proofs.Document.Member
import MemberStubs.Proofs.Document.Plan
import MemberStubs.Proofs.Document.ReadBack
import MemberStubs.Proofs.Document.Snapshot
import MemberStubs.Proofs.Document.Tolerance
import MemberStubs.Proofs.Heritage.Chain
import MemberStubs.Proofs.Heritage.Climb
import MemberStubs.Proofs.Heritage.Declared
import MemberStubs.Proofs.Heritage.Instantiation
import MemberStubs.Proofs.Json.Lexeme
import MemberStubs.Proofs.Json.Number
import MemberStubs.Proofs.Json.Printer
import MemberStubs.Proofs.Json.Reader
import MemberStubs.Proofs.Json.Record
import MemberStubs.Proofs.Json.Tolerance
import MemberStubs.Proofs.Json.View
import MemberStubs.Proofs.MemberTable.Abstract
import MemberStubs.Proofs.MemberTable.Arrival
import MemberStubs.Proofs.MemberTable.Index
import MemberStubs.Proofs.MemberTable.Levels
import MemberStubs.Proofs.Path.Joining
import MemberStubs.Proofs.Path.NormalForm
import MemberStubs.Proofs.Path.Order
import MemberStubs.Proofs.PathMap
import MemberStubs.Proofs.Pipeline.Applying
import MemberStubs.Proofs.Pipeline.Blocked
import MemberStubs.Proofs.Pipeline.Planning
import MemberStubs.Proofs.Pipeline.Preview
import MemberStubs.Proofs.Repair.Batch
import MemberStubs.Proofs.Repair.Cancellation
import MemberStubs.Proofs.Repair.ClassRepair
import MemberStubs.Proofs.Repair.EditIds
import MemberStubs.Proofs.Repair.Exactness
import MemberStubs.Proofs.Repair.FileRepair
import MemberStubs.Proofs.Repair.Idempotence
import MemberStubs.Proofs.Repair.OrderIndependence
import MemberStubs.Proofs.Repair.Sights
import MemberStubs.Proofs.Repair.Tally
import MemberStubs.Proofs.Source.Brackets
import MemberStubs.Proofs.Source.FileEdit
import MemberStubs.Proofs.Source.InTurn
import MemberStubs.Proofs.Source.LinesApart
import MemberStubs.Proofs.Source.Moving
import MemberStubs.Proofs.Source.Newlines
import MemberStubs.Proofs.Source.Requests
import MemberStubs.Proofs.Source.Splice
import MemberStubs.Proofs.Source.Trace
import MemberStubs.Proofs.Store.Artifacts
import MemberStubs.Proofs.Store.Disk
import MemberStubs.Proofs.Store.Fails
import MemberStubs.Proofs.Store.Location
import MemberStubs.Proofs.Store.Yields
import MemberStubs.Proofs.Stub.Brackets
import MemberStubs.Proofs.Stub.DefaultValue
import MemberStubs.Proofs.Substitution.Capture
import MemberStubs.Proofs.Substitution.Exchange
import MemberStubs.Proofs.Substitution.Operands
import MemberStubs.Proofs.Substitution.Positions
import MemberStubs.Proofs.Substitution.Simultaneous
import MemberStubs.Proofs.Substitution.Spelling
import MemberStubs.Proofs.Text.Brackets
import MemberStubs.Proofs.Text.Bytes
import MemberStubs.Proofs.Text.Lines
import MemberStubs.Proofs.Text.Numerals
import MemberStubs.Proofs.TypeGrammar.Chain
import MemberStubs.Proofs.TypeGrammar.Leaves
import MemberStubs.Proofs.TypeGrammar.Lexer
import MemberStubs.Proofs.TypeGrammar.Parentheses
import MemberStubs.Proofs.TypeGrammar.Reader
import MemberStubs.Proofs.TypeGrammar.Weakness
import MemberStubs.Proofs.TypeSyntax.Reading
import MemberStubs.Proofs.TypeSyntax.References
import MemberStubs.Proofs.TypeSyntax.Term
import MemberStubs.Proofs.TypeText.Holes
import MemberStubs.Proofs.TypeText.Levels
import MemberStubs.Proofs.TypeText.Names
import MemberStubs.Proofs.TypeText.Positions
import MemberStubs.Proofs.TypeText.Renaming
import MemberStubs.Proofs.TypeText.Rescan
import MemberStubs.Proofs.TypeText.Scan
import MemberStubs.Proofs.TypeText.Scope
import MemberStubs.Proofs.TypeText.UnionMembers
import MemberStubs.Proofs.TypeText.Words
import MemberStubs.Proofs.TypeValue.Default
import MemberStubs.Proofs.TypeValue.Layout
import MemberStubs.Proofs.TypeValue.Numeral
import MemberStubs.Proofs.TypeValue.Tree
import MemberStubs.Repair.Batch
import MemberStubs.Repair.ClassRepair
import MemberStubs.Repair.Error
import MemberStubs.Repair.Program
import MemberStubs.Repair.Target
import MemberStubs.Reports.Loading
import MemberStubs.Review.ApplyPage
import MemberStubs.Review.PlanPage
import MemberStubs.Settings.Configuration
import MemberStubs.Settings.Indent
import MemberStubs.Snapshot
import MemberStubs.Source.Buffer
import MemberStubs.Source.PolicyBlock
import MemberStubs.Store.Disk
import MemberStubs.Store.Failure
import MemberStubs.Store.FileStore
import MemberStubs.Stub.DefaultValue
import MemberStubs.Stub.Synthesis
import MemberStubs.Substitution
import MemberStubs.Text.Alphabetic
import MemberStubs.Text.Blank
import MemberStubs.Text.Digits
import MemberStubs.Text.Extender
import MemberStubs.Text.Lines
import MemberStubs.Text.Numeric
import MemberStubs.Text.Offset
import MemberStubs.Text.Printable
import MemberStubs.Text.Quoted
import MemberStubs.Text.Ranges
import MemberStubs.Text.Utf8
import MemberStubs.Timestamp
import MemberStubs.Toml.Document
import MemberStubs.Toml.Quoted
import MemberStubs.Toml.Token
import MemberStubs.TypeText.Operators
import MemberStubs.TypeText.Pieces
import MemberStubs.TypeText.Quotes
