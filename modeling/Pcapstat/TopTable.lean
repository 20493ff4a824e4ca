import Pcapstat.Columns
import Pcapstat.Report

/-! # The top tables (`report.c`, `main.c`)

What `print_top` prints of a table: a title and the first entries of the ranking in columns. -/

namespace Pcapstat

/-! ### `printf` -/

/-- `%3zu`, `%12s`: blanks in front of `s`. -/
def rightAligned (n : ℕ) (s : Text) : Text := s.leftpad n ' '

/-- `%-6s`, `%-*s`: blanks behind `s`. -/
def leftAligned (n : ℕ) (s : Text) : Text := s.rightpad n ' '

/-- The line of a row. -/
def tableRow (cells : List Text) : Text := Columns.row cells ++ ['\n']

/-! ### Endpoints -/

/-- `[`, `]:` and five digits beside the address, and a byte behind. -/
def endpointStrLen : ℕ := addrStrLen + 8

def hasPorts (proto : UInt8) : Bool := proto = ipprotoTcp || proto = ipprotoUdp

def formatEndpoint (k : FlowKey) (addr : Addr) (port : UInt16) (len : ℕ) : Text :=
  let a := addrFormat k.ipVersion.toNat addr addrStrLen
  if !hasPorts k.proto then cut len a
  else if k.ipVersion = 6 then cut len ('[' :: a ++ "]:".toList ++ decimal port.toNat)
  else cut len (a ++ ':' :: decimal port.toNat)

def flowEndpoints (f : Flow) (len : ℕ) : Text × Text :=
  if !f.firstFromB then
    (formatEndpoint f.key f.key.addrA f.key.portA len, formatEndpoint f.key f.key.addrB f.key.portB len)
  else (formatEndpoint f.key f.key.addrB f.key.portB len, formatEndpoint f.key f.key.addrA f.key.portA len)

/-! ### Tables -/

/-- The loop that sizes the columns of the endpoints: `src_w` and `dst_w`. -/
def columnWidths (ends : Flow → Text × Text) : ℕ × ℕ → List Flow → ℕ × ℕ
  | widths, [] => widths
  | (srcW, dstW), f :: top =>
      let (src, dst) := ends f
      columnWidths ends (if src.length > srcW then src.length else srcW,
        if dst.length > dstW then dst.length else dstW) top

/-- `dur`: seconds and milliseconds. -/
def duration (f : Flow) : Text :=
  let d := f.lastTsNs - f.firstTsNs
  cut 32 (decimal (d / nsPerSec).toNat ++ '.' :: zeroPadded 3 (decimal (d % nsPerSec / 1000000).toNat) ++ " s".toList)

/-- The line of the `i`-th entry. -/
def topFlowRow (widths : ℕ × ℕ) (i : ℕ) (f : Flow) : Text :=
  let (src, dst) := flowEndpoints f endpointStrLen
  let flags := if f.key.proto = ipprotoTcp then formatTcpFlags f.tcpFlags else cut 9 "-".toList
  tableRow [rightAligned 3 (decimal (i + 1)), leftAligned 6 (protoName f.key.proto 8), leftAligned widths.1 src,
    leftAligned widths.2 dst, rightAligned 8 (decimal f.packets.toNat), rightAligned 10 (decimal f.bytes.toNat),
    rightAligned 12 (duration f), flags]

def topFlowHeader (widths : ℕ × ℕ) : Text :=
  tableRow [rightAligned 3 "#".toList, leftAligned 6 "proto".toList, leftAligned widths.1 "src".toList,
    leftAligned widths.2 "dst".toList, rightAligned 8 "packets".toList, rightAligned 10 "bytes".toList,
    rightAligned 12 "duration".toList, "tcp flags".toList]

def topFlowTitle (n flowCount : ℕ) : Text :=
  "Top ".toList ++ decimal n ++ " of ".toList ++ decimal flowCount ++
    " flows by bytes (src = sender of the first packet seen):\n".toList

def topTunnelRow (widths : ℕ × ℕ) (i : ℕ) (f : Flow) : Text :=
  let (src, dst) := tunnelEndpoints f addrStrLen
  tableRow [rightAligned 3 (decimal (i + 1)), "0x".toList ++ zeroPadded 8 (hexadecimal f.key.teid.toNat),
    leftAligned widths.1 src, leftAligned widths.2 dst, rightAligned 8 (decimal f.packets.toNat),
    rightAligned 10 (decimal f.bytes.toNat), rightAligned 12 (duration f)]

def topTunnelHeader (widths : ℕ × ℕ) : Text :=
  tableRow [rightAligned 3 "#".toList, leftAligned 10 "teid".toList, leftAligned widths.1 "src".toList,
    leftAligned widths.2 "dst".toList, rightAligned 8 "packets".toList, rightAligned 10 "bytes".toList,
    rightAligned 12 "duration".toList]

def topTunnelTitle (n tunnelCount : ℕ) : Text :=
  "Top ".toList ++ decimal n ++ " of ".toList ++ decimal tunnelCount ++
    " GTP-U tunnels by bytes (one direction each; the receiver chose the TEID):\n".toList

/-- A blank line, a title, a header and the line of every entry. -/
def topReport (ends : Flow → Text × Text) (title : ℕ → ℕ → Text) (header : ℕ × ℕ → Text)
    (row : ℕ × ℕ → ℕ → Flow → Text) (top : List Flow) (count : ℕ) : Text :=
  if top.length = 0 then []
  else
    let widths := columnWidths ends (3, 3) top
    '\n' :: title top.length count ++ header widths ++ (top.mapIdx (row widths)).flatten

def reportTopFlows (top : List Flow) (flowCount : ℕ) : Text :=
  topReport (fun f => flowEndpoints f endpointStrLen) topFlowTitle topFlowHeader topFlowRow top flowCount

def reportTopTunnels (top : List Flow) (tunnelCount : ℕ) : Text :=
  topReport (fun f => tunnelEndpoints f addrStrLen) topTunnelTitle topTunnelHeader topTunnelRow top tunnelCount

/-- `print_top`: what it prints, or `none` when it returns -1; `ok` is the answer of `malloc`. -/
def printTop (qsort : Qsort) (t : FlowTable) (topN : ℕ) (tunnels ok : Bool) : Option Text :=
  let n := if topN < t.count then topN else t.count
  if n = 0 then some []
  else if !ok then none
  else
    let top := (flowTableTopN t qsort n).map t.slot
    some (if tunnels then reportTopTunnels top t.count else reportTopFlows top t.count)

end Pcapstat
