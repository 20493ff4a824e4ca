import Pcapstat.BorrowedPorts
import Pcapstat.CommandLine
import Pcapstat.CsvReport
import Pcapstat.Declared
import Pcapstat.DecodeFull
import Pcapstat.FlowLookup
import Pcapstat.FragFlow
import Pcapstat.FrameRoundTrip
import Pcapstat.FuzzerPasses
import Pcapstat.PcapGrammar
import Pcapstat.SplitCaptures
import Pcapstat.Teids
import Pcapstat.UserPacket
import Pcapstat.Utc
