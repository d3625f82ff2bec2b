import RegexDialect.Baseline.Automaton
import RegexDialect.Baseline.CharSet
import RegexDialect.Baseline.Engine
import RegexDialect.Baseline.Expr
import RegexDialect.Baseline.Interface
import RegexDialect.Baseline.Machine
import RegexDialect.Baseline.Reader
import RegexDialect.Cache
import RegexDialect.Chain
import RegexDialect.CommandLine
import RegexDialect.CommandLine.Arguments
import RegexDialect.Context
import RegexDialect.Error
import RegexDialect.Escape
import RegexDialect.Flags
import RegexDialect.Main
import RegexDialect.Match
import RegexDialect.Pattern
import RegexDialect.Replace
import RegexDialect.Rule.Action
import RegexDialect.Rule.Builtin
import RegexDialect.Rule.Registry
import RegexDialect.Rule.Script
import RegexDialect.Scan
import RegexDialect.Scan.BaselineToken
import RegexDialect.Split
import RegexDialect.Template
import RegexDialect.Text
import RegexDialect.Token
import RegexDialect.Unicode.Binary
import RegexDialect.Unicode.Letters
import RegexDialect.Unicode.CaseFold
import RegexDialect.Unicode.Category
import RegexDialect.Unicode.Property
import RegexDialect.Unicode.Script
import RegexDialect.Proofs.Places
import RegexDialect.Proofs.FlagSets
import RegexDialect.Proofs.Rounds
import RegexDialect.Proofs.EscapedText
import RegexDialect.Proofs.Iteration
import RegexDialect.Proofs.Blanks
import RegexDialect.Proofs.Elision
import RegexDialect.Proofs.GroupNumbering
import RegexDialect.Proofs.Marks
import RegexDialect.Proofs.RoundMarks
import RegexDialect.Proofs.ClassScope
import RegexDialect.Proofs.GroupNames
import RegexDialect.Proofs.Modes
import RegexDialect.Proofs.TemplateNames
import RegexDialect.Proofs.Occurrences
import RegexDialect.Proofs.Rows
import RegexDialect.Proofs.RowSearch
import RegexDialect.Proofs.LiteralReading
import RegexDialect.Proofs.LiteralReplacement
import RegexDialect.Proofs.Tiling
import RegexDialect.Proofs.Found
import RegexDialect.Proofs.Splitting
import RegexDialect.Proofs.Replacing
import RegexDialect.Proofs.Escapes
import RegexDialect.Proofs.Cuts
import RegexDialect.Proofs.Fusion
import RegexDialect.Proofs.CacheRuns
import RegexDialect.Proofs.LeadingModes
import RegexDialect.Proofs.Precedence
import RegexDialect.Proofs.Reentrancy
import RegexDialect.Proofs.FlagIndependence
import RegexDialect.Proofs.Rebuilding
import RegexDialect.Proofs.Chaining
import RegexDialect.Proofs.TemplateRoundTrip
import RegexDialect.Proofs.References
import RegexDialect.Proofs.NativePatterns
import RegexDialect.Proofs.IdentityEscapes
import RegexDialect.Proofs.ContextGrowth
import RegexDialect.Proofs.StickyMatches
import RegexDialect.Proofs.Substitution
import RegexDialect.Proofs.NumberedNames
import RegexDialect.Proofs.FlagChanges
import RegexDialect.Proofs.Relocation
import RegexDialect.Proofs.ReaderSteps
import RegexDialect.Proofs.Enclosed
import RegexDialect.Proofs.AnchoredReading
import RegexDialect.Proofs.AnchoredAutomaton
import RegexDialect.Proofs.AnchoredMachine
import RegexDialect.Proofs.GroupNumbers
import RegexDialect.Proofs.MatchStart
import RegexDialect.Proofs.TokenMatches
