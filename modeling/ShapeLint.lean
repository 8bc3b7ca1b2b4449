import ShapeLint.Analysis
import ShapeLint.Cli.Sources
import ShapeLint.Config.Basic
import ShapeLint.Files.Selection
import ShapeLint.Java.Parse
import ShapeLint.Main
import ShapeLint.Pattern.Compile
import ShapeLint.Pattern.Display
import ShapeLint.Pattern.Match
import ShapeLint.Proofs.Account
import ShapeLint.Proofs.Conformance
import ShapeLint.Proofs.Contexts
import ShapeLint.Proofs.Declarations
import ShapeLint.Proofs.Decoding
import ShapeLint.Proofs.Disabling
import ShapeLint.Proofs.Enumeration
import ShapeLint.Proofs.ErrorSearch
import ShapeLint.Proofs.Escapes
import ShapeLint.Proofs.Extent
import ShapeLint.Proofs.Failing
import ShapeLint.Proofs.Indentation
import ShapeLint.Proofs.Layout
import ShapeLint.Proofs.Leaves
import ShapeLint.Proofs.Loading
import ShapeLint.Proofs.Lookahead
import ShapeLint.Proofs.Machine
import ShapeLint.Proofs.Numerals
import ShapeLint.Proofs.Order
import ShapeLint.Proofs.Overflow
import ShapeLint.Proofs.Overlap
import ShapeLint.Proofs.Pointing
import ShapeLint.Proofs.Positions
import ShapeLint.Proofs.Radix
import ShapeLint.Proofs.Refusals
import ShapeLint.Proofs.Reported
import ShapeLint.Proofs.Restriction
import ShapeLint.Proofs.Shape
import ShapeLint.Proofs.SourceLines
import ShapeLint.Proofs.Sources
import ShapeLint.Proofs.TextBlocks
import ShapeLint.Proofs.Transparency
import ShapeLint.Proofs.TypeNames
import ShapeLint.Proofs.Unclosed
import ShapeLint.Proofs.Walk
import ShapeLint.Proofs.Widening
import ShapeLint.Proofs.Workers
import ShapeLint.Report.Basic
import ShapeLint.Rule.Entries
import ShapeLint.Rule.Example
import ShapeLint.Yaml.Load
