import Lox.Token.Lexeme
import Lox.Diagnostic

/-! Scanning a whole source text. A faulty stretch is passed over, so that one pass finds
every fault. -/

namespace Lox

namespace ScanFault

/-- A fault stands on the line where its stretch begins. -/
def problem (fault : ScanFault) (line : Int) : Problem :=
  ⟨.scan, fault.message, some line, ""⟩

end ScanFault

/-- A stretch of the source and what it is. -/
structure Segment where
  piece : Piece
  text : List Char
  deriving DecidableEq, Repr

/-- Cuts a text into its stretches, from left to right. -/
def segments (text : List Char) : List Segment :=
  match text with
  | [] => []
  | c :: rest =>
    let stretch := Lexeme.munch (c :: rest) c rest
    ⟨stretch.piece, stretch.taken⟩ :: segments stretch.rest
termination_by text.length
decreasing_by exact Lexeme.munch_rest_length_lt c rest

/-- How many line ends a text has. -/
def newlines (text : List Char) : Nat := text.count '\n'

/-- What scanning found, and the line it ended on. -/
structure Scan where
  tokens : List Token
  problems : List Problem
  lastLine : Int
  deriving DecidableEq, Repr

namespace Scan

/-- Puts segments on their lines, the first of them beginning on the given one. -/
def locate (line : Int) : List Segment → Scan
  | [] => ⟨[.eof line], [], line⟩
  | segment :: later =>
    let after := line + newlines segment.text
    let scan := locate after later
    match segment.piece with
    | .token kind => { scan with tokens := .ofLexeme kind segment.text after :: scan.tokens }
    | .blank => scan
    | .fault cause => { scan with problems := cause.problem line :: scan.problems }

end Scan

/-- Scans a source text from line 1. -/
def scan (source : String) : Scan := .locate 1 (segments source.toList)

end Lox
