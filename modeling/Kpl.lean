import Kpl.Main
import Kpl.Session
import Kpl.Proofs.Analysis.Steps
import Kpl.Proofs.Analysis.Tabular
import Kpl.Proofs.Contents.Extend
import Kpl.Proofs.Grammar.Environment
import Kpl.Proofs.Analysis.Phrases
import Kpl.Proofs.Grammar.Rules
import Kpl.Proofs.Grammar.Visible
import Kpl.Proofs.Grammar.Expressions
import Kpl.Proofs.Grammar.Statements
import Kpl.Proofs.Grammar.Denoters
import Kpl.Proofs.Grammar.Sections
import Kpl.Proofs.Grammar.Headers
import Kpl.Proofs.Grammar.Routines
import Kpl.Proofs.Grammar.Blocks
import Kpl.Proofs.Grammar.Compile
import Kpl.Proofs.Grammar.Nesting
import Kpl.Proofs.Contents.Linked
import Kpl.Proofs.Contents.Outline
import Kpl.Proofs.Contents.Roots
import Kpl.Proofs.Contents.Consistent
import Kpl.Proofs.Contents.Initial
import Kpl.Proofs.Session.Tables
import Kpl.Proofs.Mirror.Basic
import Kpl.Proofs.Mirror.Reading
import Kpl.Proofs.Mirror.Declaring
import Kpl.Proofs.Mirror.Same
import Kpl.Proofs.Session.Strict
import Kpl.Proofs.Mirror.Pairing
import Kpl.Proofs.Mirror.Paired
import Kpl.Proofs.Session.Independent
import Kpl.Proofs.Lexer.Cover
import Kpl.Proofs.Lexer.Eager
import Kpl.Proofs.Lexer.Lines
import Kpl.Proofs.Lexer.Printed
import Kpl.Proofs.Arena.Steps
import Kpl.Proofs.Arena.Sound
import Kpl.Proofs.Arena.Calls
import Kpl.Proofs.Listing.Texts
import Kpl.Proofs.Listing.Lines
import Kpl.Proofs.Listing.Unplaced
import Kpl.Proofs.Listing.Lossless
import Kpl.Proofs.Streams.Places
import Kpl.Proofs.Streams.Names
import Kpl.Proofs.Streams.Limits
import Kpl.Proofs.Expected.Tracks
import Kpl.Proofs.Expected.Offer
import Kpl.Proofs.Expected.Rules
import Kpl.Proofs.Expected.Loops
import Kpl.Proofs.Expected.Reading
import Kpl.Proofs.Expected.Declaring
import Kpl.Proofs.Expected.Fits
import Kpl.Proofs.Termination.Rules
import Kpl.Proofs.Termination.Reading
import Kpl.Proofs.Termination.Declaring
import Kpl.Proofs.Termination.Cycles
import Kpl.Proofs.Streams.Prefixes
import Kpl.Proofs.Checks.Series
import Kpl.Proofs.Checks.Assignments
import Kpl.Proofs.Checks.Calls
import Kpl.Proofs.Checks.Brackets
import Kpl.Proofs.Checks.Steady
import Kpl.Proofs.Checks.References
import Kpl.Proofs.Frame.Closed
import Kpl.Proofs.Frame.Procedures
import Kpl.Proofs.Frame.Additions
import Kpl.Proofs.Frame.Routines
import Kpl.Proofs.Arena.Scoping
import Kpl.Proofs.Lexer.Items
import Kpl.Proofs.Lexer.LineIndex
import Kpl.Proofs.Lexer.Positions
import Kpl.Proofs.Lexer.Forms
import Kpl.Proofs.Lexer.Classes
import Kpl.Proofs.Checks.Clean
import Kpl.Proofs.Checks.Parts
import Kpl.Proofs.Checks.Redeclaration
import Kpl.Proofs.Ranges.Values
import Kpl.Proofs.Ranges.Programs
import Kpl.Proofs.Ranges.Stored
import Kpl.Proofs.Checks.Types
