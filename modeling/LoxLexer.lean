import LoxLexer.Main
import LoxLexer.Proofs.Front
import LoxLexer.Session
import LoxLexer.Proofs.Numeral
import LoxLexer.Proofs.Run
import LoxLexer.Proofs.MaximalMunch
import LoxLexer.Proofs.Placement
import LoxLexer.Proofs.Standalone
import LoxLexer.Proofs.Separators
import LoxLexer.Proofs.Failure
import LoxLexer.Proofs.Newline
import LoxLexer.Proofs.Lines
import LoxLexer.Proofs.SingleLine
import LoxLexer.Proofs.Script
import LoxLexer.Proofs.Arguments
import LoxLexer.Proofs.Quoted
import LoxLexer.Proofs.Printed
import LoxLexer.Proofs.Suffix
import LoxLexer.Proofs.Moves
import LoxLexer.Proofs.History
import LoxLexer.Proofs.Effects
import LoxLexer.Proofs.Inquiry
import LoxLexer.Proofs.Interleaving
import LoxLexer.Proofs.Delivery
import LoxLexer.Proofs.Status
import LoxLexer.Proofs.NumberTokens
import LoxLexer.Proofs.Respacing
import LoxLexer.Proofs.Process
import LoxLexer.Proofs.DebugLog
import LoxLexer.Proofs.Nearest
import LoxLexer.Proofs.Rounding
import LoxLexer.Proofs.Values
import LoxLexer.Proofs.Decimals
import LoxLexer.Proofs.NumberValues
import LoxLexer.Proofs.ReadBack
import LoxLexer.Proofs.Unambiguous
import LoxLexer.Proofs.SingleMoves
import LoxLexer.Proofs.Recognisers
import LoxLexer.Proofs.Progress
