import WafRules.Action
import WafRules.Action.Reader
import WafRules.ByteRange
import WafRules.Command
import WafRules.Ctl
import WafRules.Ctl.Reader
import WafRules.Directive
import WafRules.Directive.Reader
import WafRules.Document
import WafRules.Document.Dump
import WafRules.Document.Reader
import WafRules.Error
import WafRules.Expandable
import WafRules.Expandable.Reader
import WafRules.Json
import WafRules.LineIndex
import WafRules.Log
import WafRules.Main
import WafRules.Network
import WafRules.Network.Address
import WafRules.Operator
import WafRules.Operator.Reader
import WafRules.Position
import WafRules.Proofs.Account
import WafRules.Proofs.ActionLists
import WafRules.Proofs.ActionTexts
import WafRules.Proofs.ArgumentStyles
import WafRules.Proofs.Assignments
import WafRules.Proofs.Closings
import WafRules.Proofs.Closings.Arguments
import WafRules.Proofs.Closings.Ends
import WafRules.Proofs.Composition
import WafRules.Proofs.Continuations
import WafRules.Proofs.Defences
import WafRules.Proofs.Directory
import WafRules.Proofs.Dump
import WafRules.Proofs.Entry
import WafRules.Proofs.Entry.Groups
import WafRules.Proofs.EscapedQuotes
import WafRules.Proofs.Faults
import WafRules.Proofs.Faults.Actions
import WafRules.Proofs.Faults.Documents
import WafRules.Proofs.Faults.Operands
import WafRules.Proofs.Faults.Wording
import WafRules.Proofs.Grammar
import WafRules.Proofs.Grammar.Faithful
import WafRules.Proofs.Grammar.Reading
import WafRules.Proofs.Grammar.Shape
import WafRules.Proofs.Grammar.Tokens
import WafRules.Proofs.Items
import WafRules.Proofs.Json
import WafRules.Proofs.Labels
import WafRules.Proofs.LineEndings
import WafRules.Proofs.Lookups
import WafRules.Proofs.Lookups.Places
import WafRules.Proofs.Network
import WafRules.Proofs.Network.Texts
import WafRules.Proofs.Numerals
import WafRules.Proofs.NumericActions
import WafRules.Proofs.OperatorTexts
import WafRules.Proofs.Ownership
import WafRules.Proofs.Partial
import WafRules.Proofs.Partial.Salvage
import WafRules.Proofs.Patterns
import WafRules.Proofs.Phrases
import WafRules.Proofs.Pieces
import WafRules.Proofs.QuotedArguments
import WafRules.Proofs.QuotedSelectors
import WafRules.Proofs.QuotedStrings
import WafRules.Proofs.References
import WafRules.Proofs.Relocation
import WafRules.Proofs.Relocation.Actions
import WafRules.Proofs.Relocation.Dump
import WafRules.Proofs.Relocation.Entries
import WafRules.Proofs.Relocation.Lexing
import WafRules.Proofs.Relocation.Operands
import WafRules.Proofs.RuleIds
import WafRules.Proofs.Scan
import WafRules.Proofs.SelectorForms
import WafRules.Proofs.SelectorTexts
import WafRules.Proofs.SourceOrder
import WafRules.Proofs.Streams
import WafRules.Proofs.Streams.Moves
import WafRules.Proofs.Stretches
import WafRules.Proofs.Tree
import WafRules.Proofs.Validation
import WafRules.Proofs.WellFormed
import WafRules.Proofs.WellFormed.Actions
import WafRules.Proofs.WellFormed.Documents
import WafRules.Proofs.WellFormed.Operands
import WafRules.Selector
import WafRules.Selector.Reader
import WafRules.Setting
import WafRules.Setting.Reader
import WafRules.Severity
import WafRules.Storage
import WafRules.Storage.Folder
import WafRules.Storage.Load
import WafRules.Text.Blank
import WafRules.Text.CodePoint
import WafRules.Text.Decimal
import WafRules.Text.Fields
import WafRules.Text.Hexadecimal
import WafRules.Text.Keyword
import WafRules.Text.Letter
import WafRules.Text.Printable
import WafRules.Text.Quoted
import WafRules.Token
import WafRules.Token.Lexer
import WafRules.Token.Stream
import WafRules.Token.Window
import WafRules.Transform
import WafRules.Tree
import WafRules.Variable
