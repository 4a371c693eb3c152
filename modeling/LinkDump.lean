import LinkDump.Main
import LinkDump.Session
import LinkDump.Proofs.Ascii
import LinkDump.Proofs.Chunks
import LinkDump.Proofs.Position
import LinkDump.Proofs.HeaderLines
import LinkDump.Proofs.HeaderFeeds
import LinkDump.Proofs.HeaderScan
import LinkDump.Proofs.ReadingOn
import LinkDump.Proofs.LinkLines
import LinkDump.Proofs.RecordLines
import LinkDump.Proofs.RecordRun
import LinkDump.Proofs.StreamAgreement
import LinkDump.Proofs.Readings
import LinkDump.Proofs.Alike
import LinkDump.Proofs.AlikeDecoding
import LinkDump.Proofs.ShortReads
import LinkDump.Proofs.Causes
import LinkDump.Proofs.FailingSource
import LinkDump.Proofs.SlotUse
import LinkDump.Proofs.DumpMeaning
import LinkDump.Proofs.TextLines
import LinkDump.Proofs.RenderedDumps
import LinkDump.Proofs.FixedRoundTrip
import LinkDump.Proofs.BarsRoundTrip
import LinkDump.Proofs.LineContents
import LinkDump.Proofs.NothingLost
import LinkDump.Proofs.CursorLedger
import LinkDump.Proofs.FieldCalls
import LinkDump.Proofs.Fused
import LinkDump.Proofs.LineEndings
import LinkDump.Proofs.DialectAgreement
import LinkDump.Proofs.SessionLines
import LinkDump.Proofs.Lookahead
import LinkDump.Proofs.Linewise
import LinkDump.Proofs.RunsEnd
import LinkDump.Proofs.Shapes
import LinkDump.Proofs.SourceOrder
import LinkDump.Proofs.StatsCounts
import LinkDump.Proofs.CommandAgreement
import LinkDump.Proofs.InspectedRecords
import LinkDump.Proofs.DecodedPieces
import LinkDump.Proofs.FieldGrammar
import LinkDump.Proofs.BarsNormalForm
import LinkDump.Proofs.OfferedLines
import LinkDump.Proofs.InspectedAgain
import LinkDump.Proofs.Messages
import LinkDump.Proofs.MarkSearch
