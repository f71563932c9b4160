import ArrayCalc.Main
import ArrayCalc.CommandLine.Options
import ArrayCalc.CommandLine.Transcript
import ArrayCalc.Conversion
import ArrayCalc.Display
import ArrayCalc.Environment
import ArrayCalc.Primitive
import ArrayCalc.Sentence
import ArrayCalc.Stock
import ArrayCalc.Proofs.Error.Outcomes
import ArrayCalc.Proofs.Lexer.Tables
import ArrayCalc.Proofs.Lexer.Spelling
import ArrayCalc.Proofs.Lexer.Reading
import ArrayCalc.Proofs.Lexer.Layout
import ArrayCalc.Proofs.Lexer.Tiling
import ArrayCalc.Proofs.Lexer.MaximalMunch
import ArrayCalc.Proofs.Lexer.OpenQuotes
import ArrayCalc.Proofs.Lexer.Quotations
import ArrayCalc.Proofs.Lexer.Seams
import ArrayCalc.Proofs.Sentence.Evaluation
import ArrayCalc.Proofs.Sentence.Grammar
import ArrayCalc.Proofs.Sentence.Atomicity
import ArrayCalc.Proofs.Sentence.Confinement
import ArrayCalc.Proofs.Sentence.Temporaries
import ArrayCalc.Proofs.Array.Agreement
import ArrayCalc.Proofs.Array.Enumeration
import ArrayCalc.Proofs.Array.Carries
import ArrayCalc.Proofs.Array.Nesting
import ArrayCalc.Proofs.Array.Storage
import ArrayCalc.Proofs.Verb.SinglePath
import ArrayCalc.Proofs.Verb.Counting
import ArrayCalc.Proofs.Verb.Primitives
import ArrayCalc.Proofs.Sentence.Failures
import ArrayCalc.Proofs.Decimal.Doubles
import ArrayCalc.Proofs.Decimal.Nearest
import ArrayCalc.Proofs.Decimal.Shortest
import ArrayCalc.Proofs.Decimal.Closest
import ArrayCalc.Proofs.Decimal.Narrow
import ArrayCalc.Proofs.Numeral.Spelling
import ArrayCalc.Proofs.Numeral.Layout
import ArrayCalc.Proofs.Display.Elements
import ArrayCalc.Proofs.Lexer.Numerals
import ArrayCalc.Proofs.Lexer.Lines
import ArrayCalc.Proofs.Display.Rows
import ArrayCalc.Proofs.Display.ReadBack
import ArrayCalc.Proofs.Display.Grid
import ArrayCalc.Proofs.Display.Unambiguous
import ArrayCalc.Proofs.Sentence.Lines
import ArrayCalc.Proofs.Sentence.Reordering
import ArrayCalc.Proofs.Verb.Catalog
import ArrayCalc.Proofs.Numeral.Words
import ArrayCalc.Proofs.Numeral.Grammar
import ArrayCalc.Proofs.Numeral.Vectors
import ArrayCalc.Proofs.Sentence.Literals
import ArrayCalc.Proofs.Lexer.Lexemes
import ArrayCalc.Proofs.Lexer.Spacing
import ArrayCalc.Proofs.Sentence.Retelling
import ArrayCalc.Proofs.Sentence.Spacing
import ArrayCalc.Proofs.Verb.Bounds
import ArrayCalc.Proofs.Verb.Elementwise
import ArrayCalc.Proofs.Verb.IntegerLaws
import ArrayCalc.Proofs.Verb.Exchange
import ArrayCalc.Proofs.Verb.Magnitudes
import ArrayCalc.Proofs.Verb.BooleanView
import ArrayCalc.Proofs.Verb.Stock
import ArrayCalc.Proofs.Sentence.Sessions
import ArrayCalc.Proofs.CommandLine.Lines
import ArrayCalc.Proofs.CommandLine.Complaints
import ArrayCalc.Proofs.Sentence.Bounds
import ArrayCalc.Proofs.CommandLine.Runs
