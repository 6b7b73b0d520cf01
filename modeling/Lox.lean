import Lox.Number.Bits
import Lox.Token.Cursor
import Lox.Expr.Parser
import Lox.Run
import Lox.Settings
import Lox.Release
import Lox.Cli.Command
import Lox.Main
import Lox.Proofs.Grammar
import Lox.Proofs.ParserTrace
import Lox.Proofs.ParserGrammar
import Lox.Proofs.ParserFaults
import Lox.Proofs.Lexical
import Lox.Proofs.MaximalMunch
import Lox.Proofs.Scanning
import Lox.Proofs.Decimals
import Lox.Proofs.NumberText
import Lox.Proofs.InfixText
import Lox.Proofs.Typing
import Lox.Proofs.NearestEven
import Lox.Proofs.DoubleRounding
import Lox.Proofs.ExactRounding
import Lox.Proofs.SingleArithmetic
import Lox.Proofs.Placement
import Lox.Proofs.Running
import Lox.Proofs.ReadBack
import Lox.Proofs.Composition
import Lox.Proofs.Reporting
import Lox.Proofs.Endings
import Lox.Proofs.PrefixText
import Lox.Proofs.DoubleText
import Lox.Proofs.Respelling
import Lox.Proofs.Commands
import Lox.Proofs.Sessions
import Lox.Proofs.EvaluationOrder
import Lox.Proofs.Folding
import Lox.Proofs.SinglePrecision
import Lox.Proofs.Reading
import Lox.Proofs.ShortestText
import Lox.Proofs.CursorParsing
import Lox.Proofs.StrayCharacters
import Lox.Proofs.ParserCalls
import Lox.Proofs.SettingLayers
import Lox.Proofs.CorrectRounding
import Lox.Proofs.Numerals
import Lox.Proofs.CursorMoves
