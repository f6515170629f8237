import Chunker.Category
import Chunker.Chart
import Chunker.Chart.Closure
import Chunker.Chart.Completion
import Chunker.Chart.Coord
import Chunker.Chart.Cover
import Chunker.Chart.Derivation
import Chunker.Chart.Edge
import Chunker.Chart.Parse
import Chunker.Chart.Preference
import Chunker.Chart.Reuse
import Chunker.Chunking
import Chunker.CommandLine
import Chunker.Files.FileTree
import Chunker.Files.Path
import Chunker.Files.Source
import Chunker.Grammar
import Chunker.Grammar.Draft
import Chunker.Grammar.Error
import Chunker.Grammar.Statement
import Chunker.Grammar.Token
import Chunker.Index
import Chunker.Main
import Chunker.Proofs.Chart.AddedRoot
import Chunker.Proofs.Chart.Addressing
import Chunker.Proofs.Chart.Choice
import Chunker.Proofs.Chart.Closure
import Chunker.Proofs.Chart.Cover
import Chunker.Proofs.Chart.Derivability
import Chunker.Proofs.Chart.Derivation
import Chunker.Proofs.Chart.EdgePosition
import Chunker.Proofs.Chart.Expansion
import Chunker.Proofs.Chart.Extraction
import Chunker.Proofs.Chart.Filling
import Chunker.Proofs.Chart.Flatness
import Chunker.Proofs.Chart.ForcedRoot
import Chunker.Proofs.Chart.Gaps
import Chunker.Proofs.Chart.Grounding
import Chunker.Proofs.Chart.Heads
import Chunker.Proofs.Chart.Hiding
import Chunker.Proofs.Chart.Locality
import Chunker.Proofs.Chart.Origin
import Chunker.Proofs.Chart.Place
import Chunker.Proofs.Chart.Preference
import Chunker.Proofs.Chart.Representation
import Chunker.Proofs.Chart.Reuse
import Chunker.Proofs.Chart.RootChoice
import Chunker.Proofs.Chart.Search
import Chunker.Proofs.Chart.Table
import Chunker.Proofs.Chart.Tiling
import Chunker.Proofs.Chunking.Binding
import Chunker.Proofs.Chunking.Coverage
import Chunker.Proofs.Chunking.Ending
import Chunker.Proofs.Chunking.Sequences
import Chunker.Proofs.Chunking.Slots
import Chunker.Proofs.CommandLine
import Chunker.Proofs.Grammar.Acceptance
import Chunker.Proofs.Grammar.Contents
import Chunker.Proofs.Grammar.Exactness
import Chunker.Proofs.Grammar.Indices
import Chunker.Proofs.Grammar.Invariants
import Chunker.Proofs.Grammar.Layout
import Chunker.Proofs.Grammar.Loading
import Chunker.Proofs.Grammar.Matching
import Chunker.Proofs.Grammar.Printing
import Chunker.Proofs.Grammar.Priorities
import Chunker.Proofs.Grammar.Syntax
import Chunker.Proofs.Grammar.Validity
import Chunker.Proofs.Grammar.WellFormed
import Chunker.Proofs.HeadWord
import Chunker.Proofs.Position
import Chunker.Proofs.Sentence
import Chunker.Proofs.Text.Lines
import Chunker.Proofs.Tree
import Chunker.Proofs.Tree.Address
import Chunker.Proofs.Tree.Printing
import Chunker.Proofs.Tree.Traversal
import Chunker.Rule
import Chunker.RuleSet
import Chunker.Sentence
import Chunker.Text.Alphabetic
import Chunker.Text.Blank
import Chunker.Text.Cased
import Chunker.Text.Casing
import Chunker.Text.Lines
import Chunker.Text.Lowercase
import Chunker.Text.Printable
import Chunker.Text.Quoted
import Chunker.Text.Run
import Chunker.Text.SmallLetter
import Chunker.Tree
import Chunker.Warning
import Chunker.Word
