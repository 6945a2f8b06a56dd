import Deduction.Check.Context
import Deduction.Check.Discharge
import Deduction.Check.Finding
import Deduction.Check.Propositional
import Deduction.Check.Quantifier
import Deduction.Check.Table
import Deduction.CommandLine.Command
import Deduction.CommandLine.Grammar
import Deduction.CommandLine.Run
import Deduction.CommandLine.Usage
import Deduction.Files.Directory
import Deduction.Files.Entry
import Deduction.Files.Path
import Deduction.Formula.Basic
import Deduction.Formula.Canonical
import Deduction.Formula.Compact
import Deduction.Formula.Cursor
import Deduction.Formula.Memo
import Deduction.Formula.Parser
import Deduction.Formula.Quantified
import Deduction.Formula.Spelling
import Deduction.Formula.Token
import Deduction.Formula.Tree
import Deduction.Json.Printer
import Deduction.Json.Reader
import Deduction.Main
import Deduction.Number.Binary64
import Deduction.Number.Decimal
import Deduction.Number.Limit
import Deduction.Policy
import Deduction.Policy.Decoding
import Deduction.Policy.Loading
import Deduction.Proof.Decoding
import Deduction.Proof.Document
import Deduction.Proof.Frame
import Deduction.Proofs.Check.Discharge
import Deduction.Proofs.Check.Propositional
import Deduction.Proofs.Formula.Grammar
import Deduction.Proofs.Formula.Key
import Deduction.Proofs.Formula.Naming
import Deduction.Proofs.Formula.Rearrangement
import Deduction.Proofs.Frame.DepthColumn
import Deduction.Proofs.Frame.LevelSet
import Deduction.Proofs.Frame.Scope
import Deduction.Proofs.Text.Parens
import Deduction.Proofs.Validation.Acceptance
import Deduction.Proofs.Validation.Soundness
import Deduction.Rule.Basic
import Deduction.Rule.Naming
import Deduction.Rule.Ruleset
import Deduction.Service.Body
import Deduction.Service.Codec
import Deduction.Service.Complaint
import Deduction.Service.Respond
import Deduction.Service.Standard
import Deduction.Text.Blank
import Deduction.Text.Digit
import Deduction.Text.Letter
import Deduction.Text.Parens
import Deduction.Text.Quoted
import Deduction.Text.Replace
import Deduction.Text.Split
import Deduction.Text.Unprintable
import Deduction.Text.Word
import Deduction.Validation.Basic
import Deduction.Validation.Issue
import Deduction.Validation.Report
import Deduction.Validation.Submission
import Deduction.Validation.Verdict
import Deduction.Validation.Wire
import Deduction.Value.Basic
import Deduction.Value.Moment
import Deduction.Value.Reading
import Deduction.Worker.Basic
import Deduction.Yaml.Cursor
import Deduction.Yaml.Fault
import Deduction.Yaml.Lexeme
import Deduction.Yaml.Node
import Deduction.Yaml.Outcome
import Deduction.Yaml.Reader
import Deduction.Yaml.Scalar
import Deduction.Yaml.Stream
import Deduction.Yaml.Token
import Deduction.Proofs.Formula.RoundTrip
import Deduction.Proofs.Check.Totality
import Deduction.Proofs.Validation.Totality
import Deduction.Proofs.Frame.Extension
import Deduction.Proofs.Check.Extension
import Deduction.Proofs.Check.Approximation
import Deduction.Proofs.Validation.Approximation
import Deduction.Proofs.Validation.Extension
import Deduction.Proofs.Validation.Citation
import Deduction.Proofs.Validation.Conclusion
import Deduction.Proofs.Validation.Relaxation
import Deduction.Proofs.Formula.Leniency
import Deduction.Proofs.Check.Bare
import Deduction.Proofs.Validation.Respelling
import Deduction.Proofs.Check.Reordering
import Deduction.Proofs.Validation.Reordering
import Deduction.Proofs.Worker.History
import Deduction.Proofs.Service.Agreement
import Deduction.Proofs.Formula.Provability
import Deduction.Proofs.Frame.Subproof
import Deduction.Proofs.Check.Passing
import Deduction.Proofs.Validation.Script
import Deduction.Proofs.Validation.Continuation
import Deduction.Proofs.Validation.Completeness
import Deduction.Proofs.Formula.Shape
import Deduction.Proofs.Formula.Recovery
import Deduction.Proofs.Formula.Remainder
import Deduction.Proofs.Text.Split
import Deduction.Proofs.Formula.MainConnective
import Deduction.Proofs.Except
import Deduction.Proofs.Formula.CompactText
import Deduction.Proofs.Formula.Conjunction
import Deduction.Proofs.Formula.QuantifiedText
import Deduction.Proofs.Formula.TextualNegation
import Deduction.Proofs.Formula.Conversion
import Deduction.Proofs.Formula.Substitution
import Deduction.Proofs.Formula.Memo
import Deduction.Proofs.Number.Range
import Deduction.Proofs.Option
import Deduction.Proofs.Value.Reading
import Deduction.Proofs.Policy.Decoding
import Deduction.Proofs.Policy.Loading
import Deduction.Proofs.Rule.Naming
import Deduction.Proofs.Formula.Position
import Deduction.Proofs.Json.Reading
import Deduction.Proofs.CommandLine.Ending
import Deduction.Proofs.Formula.PlainForm
import Deduction.Proofs.Text.Enclosure
import Deduction.Proofs.Formula.Cover
import Deduction.Proofs.Formula.Cursor
import Deduction.Proofs.Formula.Tokenization
import Deduction.Proofs.Text.Rewriting
import Deduction.Proofs.Text.Place
