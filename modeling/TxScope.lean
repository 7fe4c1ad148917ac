import TxScope.Main
import TxScope.Service.Router
import TxScope.Transaction.Listing
import TxScope.Proofs.Bytes
import TxScope.Proofs.Reads
import TxScope.Proofs.CompactSize
import TxScope.Proofs.Layout
import TxScope.Proofs.Verdict
import TxScope.Proofs.Stripping
import TxScope.Proofs.Tokens
import TxScope.Proofs.Disassembly
import TxScope.Proofs.Forms
import TxScope.Proofs.OutputType
import TxScope.Proofs.CodecInfluence
import TxScope.Proofs.StandardCodec
import TxScope.Proofs.TokenForms
import TxScope.Proofs.AddressText
import TxScope.Proofs.HexText
import TxScope.Proofs.Framing
import TxScope.Proofs.Sizes
import TxScope.Proofs.Serialization
import TxScope.Proofs.Tally
import TxScope.Proofs.Traffic
import TxScope.Proofs.RequestBody
import TxScope.Proofs.Arguments
import TxScope.Proofs.FrontEnds
import TxScope.Proofs.Concatenation
import TxScope.Proofs.OpenForms
import TxScope.Proofs.Shortage
import TxScope.Proofs.Truncation
import TxScope.Proofs.HexReading
import TxScope.Proofs.Identifiers
import TxScope.Proofs.Legible
import TxScope.Proofs.Assembly
import TxScope.Proofs.Amounts
import TxScope.Proofs.ReportText
import TxScope.Proofs.Operations
import TxScope.Proofs.WordCursor
import TxScope.Proofs.CursorRuns
import TxScope.Proofs.KeyPaths
import TxScope.Proofs.Environment
import TxScope.Proofs.SettingLayers
import TxScope.Proofs.Numerals
import TxScope.Proofs.Recorder
import TxScope.Proofs.DeclaredCounts
import TxScope.Proofs.Checksum
