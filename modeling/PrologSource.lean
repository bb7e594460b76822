import PrologSource.Main
import PrologSource.Message.Passage
import PrologSource.Proofs.Lossless
import PrologSource.Proofs.Parenthesis
import PrologSource.Proofs.Places
import PrologSource.Proofs.Resolve
import PrologSource.Proofs.Respelling
import PrologSource.Proofs.Restart
import PrologSource.Proofs.Respacing
import PrologSource.Proofs.Blocks
import PrologSource.Proofs.MarkedPlace
import PrologSource.Proofs.Decimals
import PrologSource.Proofs.Messages
import PrologSource.Proofs.Passages
import PrologSource.Proofs.Listing
import PrologSource.Proofs.TabWidth
import PrologSource.Proofs.Vocabulary
import PrologSource.Proofs.MarkLine
import PrologSource.Proofs.LongestNumber
import PrologSource.Proofs.QuotedUnits
import PrologSource.Proofs.Severity
import PrologSource.Proofs.SyntaxMessages
import PrologSource.Proofs.Pattern
import PrologSource.Proofs.MarkPattern
import PrologSource.Proofs.MarkChoice
import PrologSource.Proofs.MarkedRange
import PrologSource.Proofs.Occurrences
import PrologSource.Proofs.BlockPattern
import PrologSource.Proofs.BlockScan
import PrologSource.Proofs.BlockComment
import PrologSource.Proofs.MaximalMunch
import PrologSource.Proofs.Trace
import PrologSource.Proofs.CharacterCode
import PrologSource.Proofs.NumericEscape
