import BlockSketch.Block.Field
import BlockSketch.Block.Reader
import BlockSketch.Decimal.Layout
import BlockSketch.Declarations
import BlockSketch.Declarations.Indexed
import BlockSketch.Files.Tree
import BlockSketch.GenerationError
import BlockSketch.Identifier.Registry
import BlockSketch.Json.Printer
import BlockSketch.Json.Reader
import BlockSketch.Main
import BlockSketch.Precedence
import BlockSketch.Proofs.Command.Agreement
import BlockSketch.Proofs.Decimal.Denoted
import BlockSketch.Proofs.Decimal.Layout
import BlockSketch.Proofs.Decimal.Nearest
import BlockSketch.Proofs.Decimal.Rounding
import BlockSketch.Proofs.Decimal.Whole
import BlockSketch.Proofs.Decimal.Written
import BlockSketch.Proofs.Grammar.Literals
import BlockSketch.Proofs.Grammar.Printed
import BlockSketch.Proofs.Grammar.Spelled
import BlockSketch.Proofs.Grammar.Token
import BlockSketch.Proofs.Grammar.Tree
import BlockSketch.Proofs.Identifier.Registry
import BlockSketch.Proofs.Identifier.Search
import BlockSketch.Proofs.Json.Doubles
import BlockSketch.Proofs.Json.Gathering
import BlockSketch.Proofs.Json.Loops
import BlockSketch.Proofs.Json.Numbers
import BlockSketch.Proofs.Json.Reads
import BlockSketch.Proofs.Json.Strings
import BlockSketch.Proofs.Meaning.Calculations
import BlockSketch.Proofs.Meaning.Faithful
import BlockSketch.Proofs.Meaning.Intended
import BlockSketch.Proofs.Meaning.Means
import BlockSketch.Proofs.Meaning.Numbers
import BlockSketch.Proofs.Meaning.Positions
import BlockSketch.Proofs.Meaning.Predicates
import BlockSketch.Proofs.Meaning.Scalar
import BlockSketch.Proofs.Meaning.Spellings
import BlockSketch.Proofs.Meaning.Value
import BlockSketch.Proofs.Meaning.Valued
import BlockSketch.Proofs.Routine.Primality
import BlockSketch.Proofs.Routine.Run
import BlockSketch.Proofs.Routine.Syntax
import BlockSketch.Proofs.Session.Accounts
import BlockSketch.Proofs.Session.Codes
import BlockSketch.Proofs.Session.Coupled
import BlockSketch.Proofs.Session.Ensures
import BlockSketch.Proofs.Session.Filled
import BlockSketch.Proofs.Session.Growth
import BlockSketch.Proofs.Session.History
import BlockSketch.Proofs.Session.Inspection
import BlockSketch.Proofs.Session.Reachable
import BlockSketch.Proofs.Session.Reads
import BlockSketch.Proofs.Session.References
import BlockSketch.Proofs.Session.Replay
import BlockSketch.Proofs.Session.Selectors
import BlockSketch.Proofs.Session.Values
import BlockSketch.Proofs.Session.Variables
import BlockSketch.Proofs.Sketch.Clashes
import BlockSketch.Proofs.Sketch.Declared
import BlockSketch.Proofs.Sketch.Lines
import BlockSketch.Proofs.Sketch.Reordered
import BlockSketch.Proofs.Sketch.Requirements
import BlockSketch.Proofs.Sketch.Retyped
import BlockSketch.Proofs.Sketch.Texts
import BlockSketch.Proofs.Sketch.Unread
import BlockSketch.Proofs.Sketch.Vocabulary
import BlockSketch.Proofs.Text.Lines
import BlockSketch.Proofs.Text.Literals
import BlockSketch.Proofs.Workspace.Decoded
import BlockSketch.Proofs.Workspace.Records
import BlockSketch.Proofs.Workspace.Saved
import BlockSketch.Proofs.Workspace.Stacks
import BlockSketch.Rule
import BlockSketch.Selector
import BlockSketch.Sketch
import BlockSketch.Statement
import BlockSketch.Text.Blank
import BlockSketch.Text.Lines
import BlockSketch.Text.Lowercase
import BlockSketch.Text.Quoted
import BlockSketch.Workspace.Reader
