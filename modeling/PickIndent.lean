import PickIndent.Command.Run
import PickIndent.Main
import PickIndent.Proofs.Label.Grammar
import PickIndent.Proofs.Text.Trim
import PickIndent.Proofs.Layout.Content
import PickIndent.Proofs.Document.Absorption
import PickIndent.Proofs.Classification.Lines
import PickIndent.Proofs.Nesting.Conservation
import PickIndent.Proofs.Nesting.Groups
import PickIndent.Proofs.Pass.Blocks
import PickIndent.Proofs.Pass.Outcome
import PickIndent.Proofs.Pass.Faults
import PickIndent.Proofs.Document.Lexing
import PickIndent.Proofs.Document.Edits
import PickIndent.Proofs.Lexeme.Bare
import PickIndent.Proofs.Classification.Bare
import PickIndent.Proofs.Label.Line
import PickIndent.Proofs.Classification.Rewording
import PickIndent.Proofs.Command.Saving
import PickIndent.Proofs.Pass.Returns
import PickIndent.Proofs.Encoding.Utf8
import PickIndent.Proofs.Encoding.Utf16
import PickIndent.Proofs.Encoding.RoundTrip
import PickIndent.Proofs.Diff.Same
import PickIndent.Proofs.Command.Switching
import PickIndent.Proofs.FileTree.Paths
import PickIndent.Proofs.Command.Modes
import PickIndent.Proofs.Text.Capitals
import PickIndent.Proofs.Lexeme.Capitals
import PickIndent.Proofs.Classification.Capitals
import PickIndent.Proofs.Document.Capitals
import PickIndent.Proofs.Pass.Front
import PickIndent.Proofs.Pass.Insertion
import PickIndent.Proofs.Command.Showing
import PickIndent.Proofs.Layout.Ink
import PickIndent.Proofs.Lexeme.Leading
import PickIndent.Proofs.Lexeme.Emptied
import PickIndent.Proofs.Layout.Column
import PickIndent.Proofs.Classification.Clauses
import PickIndent.Proofs.Classification.Semicolon
import PickIndent.Proofs.Keyword.Longest
import PickIndent.Proofs.Document.Terminators
import PickIndent.Proofs.Label.FirstWord
import PickIndent.Proofs.Document.LastLine
import PickIndent.Proofs.Text.EndedLines
