import ThreeAddress.Code.Instruction
import ThreeAddress.Code.Lower
import ThreeAddress.Code.Session
import ThreeAddress.Command.Arguments
import ThreeAddress.Command.Help
import ThreeAddress.Command.Run
import ThreeAddress.Compile
import ThreeAddress.Digest
import ThreeAddress.Insights
import ThreeAddress.Main
import ThreeAddress.Proofs.Accepted
import ThreeAddress.Proofs.Characters
import ThreeAddress.Proofs.EarliestError
import ThreeAddress.Proofs.Emission
import ThreeAddress.Proofs.Grammar
import ThreeAddress.Proofs.Lexemes
import ThreeAddress.Proofs.Meaning
import ThreeAddress.Proofs.Parsing
import ThreeAddress.Proofs.Pieces
import ThreeAddress.Proofs.Places
import ThreeAddress.Proofs.Reading
import ThreeAddress.Proofs.Scanning
import ThreeAddress.Proofs.ScopeEvents
import ThreeAddress.Proofs.ScopeOrder
import ThreeAddress.Proofs.SourceForm
import ThreeAddress.Proofs.Temporaries
import ThreeAddress.Scope.Check
import ThreeAddress.Scope.Scan
import ThreeAddress.Scope.Table
import ThreeAddress.Settings
import ThreeAddress.Settings.EnvFile
import ThreeAddress.Source.Position
import ThreeAddress.Source.Reader
import ThreeAddress.Source.Segment
import ThreeAddress.Syntax.Dump
import ThreeAddress.Syntax.Parse
import ThreeAddress.Syntax.Print
import ThreeAddress.Syntax.Tree
import ThreeAddress.Syntax.Visit
import ThreeAddress.Text
import ThreeAddress.Text.Blank
import ThreeAddress.Text.Glyph
import ThreeAddress.Text.Printable
import ThreeAddress.Text.Quoted
import ThreeAddress.Token
import ThreeAddress.Proofs.Closed
import ThreeAddress.Proofs.Accounting
import ThreeAddress.Proofs.Alike
import ThreeAddress.Proofs.Sessions
import ThreeAddress.Proofs.Positions
import ThreeAddress.Proofs.TableSessions
import ThreeAddress.Proofs.ReaderSessions
import ThreeAddress.Proofs.TruePositions
import ThreeAddress.Proofs.CommandAgreement
import ThreeAddress.Proofs.PolicyAgreement
import ThreeAddress.Proofs.LinearUse
import ThreeAddress.Proofs.Visiting
import ThreeAddress.Proofs.TreeTokens
import ThreeAddress.Proofs.Boundaries
import ThreeAddress.Proofs.ParserSessions
import ThreeAddress.Proofs.ScanRule
import ThreeAddress.Proofs.Blanks
import ThreeAddress.Proofs.Figures
import ThreeAddress.Proofs.PrintedForms
import ThreeAddress.Proofs.Precedence
import ThreeAddress.Proofs.WrittenFlags
import ThreeAddress.Proofs.FlagDecisions
import ThreeAddress.Proofs.WholeReadings
