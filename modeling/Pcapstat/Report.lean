import Pcapstat.TopN

/-! # The CSV exports (`addr.c`, `report.c`)

Text is a list of characters, and what is printed to a file is the text of the whole file.

* A text in a buffer of `len` bytes is cut behind `len - 1` characters (`cut`), as `snprintf` does.
* Writing to the file does not fail; the answer of `malloc` is an argument (`ok`). -/

namespace Pcapstat

abbrev Text := List Char

/-! ### `printf` -/

/-- `%u`, `%PRIu64` -/
def decimal (n : ℕ) : Text := Nat.toDigits 10 n

/-- `%x` -/
def hexadecimal (n : ℕ) : Text := Nat.toDigits 16 n

/-- `%09u`, `%08x`: zeros in front of `s` up to a width of `n`. -/
def zeroPadded (n : ℕ) (s : Text) : Text := s.leftpad n '0'

/-- `snprintf(buf, len, "%s", s)` -/
def cut (len : ℕ) (s : Text) : Text := s.take (len - 1)

/-! ### Addresses -/

def addrStrLen : ℕ := 46

/-- `%u.%u.%u.%u` of the bytes from `a + i` on -/
def dottedQuad (a : Addr) (i : ℕ) : Text :=
  ['.'].intercalate ((List.range 4).map fun k => decimal (a.bytes.getD (i + k) 0).toNat)

def isV4Mapped (a : Addr) : Bool :=
  (a.bytes.take 10).all (· = 0) && a.bytes.getD 10 0 = 0xff && a.bytes.getD 11 0 = 0xff

/-- `groups[i]` -/
def group (a : Addr) (i : ℕ) : UInt16 := loadBe16 (a.bytes.getD (2 * i) 0) (a.bytes.getD (2 * i + 1) 0)

/-- `while (j < 8 && groups[j] == 0) j++;` -/
def zeroRunEnd (groups : ℕ → UInt16) : (left j : ℕ) → ℕ
  | 0, j => j
  | left + 1, j => if groups j = 0 then zeroRunEnd groups left (j + 1) else j

/-- The search for the longest run of zero groups: `best_start` and `best_len`. -/
def longestRun (groups : ℕ → UInt16) : (fuel i : ℕ) → Option ℕ → ℕ → Option ℕ × ℕ
  | 0, _, start, len => (start, len)
  | fuel + 1, i, start, len =>
      if i ≥ 8 then (start, len)
      else if groups i ≠ 0 then longestRun groups fuel (i + 1) start len
      else
        let j := zeroRunEnd groups (8 - i) i
        if j - i > len then longestRun groups fuel j (some i) (j - i)
        else longestRun groups fuel j start len

/-- `pos += snprintf(tmp + pos, sizeof tmp - pos, "%s", s);` -/
def put (tmp s : Text) : Text := tmp ++ s.take (addrStrLen - 1 - tmp.length)

/-- The loop that writes the groups into `tmp`. -/
def putGroups (groups : ℕ → UInt16) (start : Option ℕ) (len : ℕ) : (fuel i : ℕ) → Text → Text
  | 0, _, tmp => tmp
  | fuel + 1, i, tmp =>
      if i ≥ 8 then tmp
      else if start = some i then putGroups groups start len fuel (i + len) (put tmp "::".toList)
      else
        let tmp := if i > 0 ∧ start.map (· + len) ≠ some i then put tmp ":".toList else tmp
        putGroups groups start len fuel (i + 1) (put tmp (hexadecimal (groups i).toNat))

def formatIpv6 (a : Addr) (len : ℕ) : Text :=
  if isV4Mapped a then cut len ("::ffff:".toList ++ dottedQuad a 12)
  else
    let (start, bestLen) := longestRun (group a) 8 0 none 0
    let start := if bestLen < 2 then none else start
    cut len (putGroups (group a) start bestLen 8 0 [])

/-- `addr_format`: the text in a buffer of `len > 0` bytes. -/
def addrFormat (ipVersion : ℕ) (addr : Addr) (len : ℕ) : Text :=
  if ipVersion = 4 then cut len (dottedQuad addr 0)
  else if ipVersion = 6 then formatIpv6 addr len
  else cut len "?".toList

/-! ### Fields -/

/-- `proto_name` with a buffer of `len` bytes -/
def protoName (proto : UInt8) (len : ℕ) : Text :=
  if proto = ipprotoTcp then "TCP".toList
  else if proto = ipprotoUdp then "UDP".toList
  else if proto = ipprotoIcmp then "ICMP".toList
  else if proto = ipprotoIcmpv6 then "ICMPv6".toList
  else cut len (decimal proto.toNat)

def formatTcpFlags (flags : UInt8) : Text :=
  "FSRPAUEC".toList.zipIdx.filterMap fun (letter, bit) => if flags.toNat.testBit bit then some letter else none

def nsPerSec : UInt64 := 1000000000

/-- `%PRIu64.%09u` of a time in nanoseconds -/
def seconds (ns : UInt64) : Text :=
  decimal (ns / nsPerSec).toNat ++ '.' :: zeroPadded 9 (decimal (ns % nsPerSec).toNat)

/-- The arguments of one `fprintf`, separated by commas. -/
def csvRow (fields : List Text) : Text := [','].intercalate fields ++ ['\n']

/-! ### Flows -/

/-- `csv_endpoint`: the address in a buffer of `len` bytes, and `*port`. -/
def csvEndpoint (f : Flow) (wantSrc : Bool) (len : ℕ) : Text × UInt16 :=
  let useA := if wantSrc then !f.firstFromB else f.firstFromB
  (addrFormat f.key.ipVersion.toNat (if useA then f.key.addrA else f.key.addrB) len,
    if useA then f.key.portA else f.key.portB)

def csvHeader : Text :=
  ("src_addr,src_port,dst_addr,dst_port,protocol,ip_version," ++
    "packets,bytes,first_ts,last_ts,duration_s,tcp_flags\n").toList

/-- The line of a flow. -/
def csvFlow (f : Flow) : Text :=
  let (src, sport) := csvEndpoint f true addrStrLen
  let (dst, dport) := csvEndpoint f false addrStrLen
  let flags := if f.key.proto = ipprotoTcp then formatTcpFlags f.tcpFlags else []
  csvRow [src, decimal sport.toNat, dst, decimal dport.toNat, protoName f.key.proto 8,
    decimal f.key.ipVersion.toNat, decimal f.packets.toNat, decimal f.bytes.toNat, seconds f.firstTsNs,
    seconds f.lastTsNs, seconds (f.lastTsNs - f.firstTsNs), flags]

/-- A header and the line of every entry; `none` when it returns -1. -/
def csvReport (header : Text) (line : Flow → Text) (qsort : Qsort) (t : FlowTable) (ok : Bool) : Option Text :=
  if t.count > 0 then
    if ok then some (header ++ (flowTableTopN t qsort t.count).flatMap fun i => line (t.slot i)) else none
  else some header

def reportCsv (qsort : Qsort) (t : FlowTable) (ok : Bool) : Option Text := csvReport csvHeader csvFlow qsort t ok

/-! ### Tunnels -/

def tunnelEndpoints (f : Flow) (len : ℕ) : Text × Text :=
  (addrFormat f.key.ipVersion.toNat f.key.addrA len, addrFormat f.key.ipVersion.toNat f.key.addrB len)

def csvTunnelHeader : Text :=
  "teid,src_addr,dst_addr,ip_version,packets,bytes,first_ts,last_ts,duration_s\n".toList

/-- The line of a tunnel. -/
def csvTunnel (f : Flow) : Text :=
  let (src, dst) := tunnelEndpoints f addrStrLen
  csvRow ["0x".toList ++ zeroPadded 8 (hexadecimal f.key.teid.toNat), src, dst, decimal f.key.ipVersion.toNat,
    decimal f.packets.toNat, decimal f.bytes.toNat, seconds f.firstTsNs, seconds f.lastTsNs,
    seconds (f.lastTsNs - f.firstTsNs)]

def reportTunnelsCsv (qsort : Qsort) (t : FlowTable) (ok : Bool) : Option Text :=
  csvReport csvTunnelHeader csvTunnel qsort t ok

/-! ### Equal tables -/

theorem csvReport_congr {w w' : ℕ} {t t' : FlowTable} (h : t.Inv w) (h' : t'.Inv w')
    (hsame : ∀ f, f ∈ t.entries ↔ f ∈ t'.entries) (header : Text)
    (line : Flow → Text) (qsort : Qsort) (ok : Bool) :
    csvReport header line qsort t ok = csvReport header line qsort t' ok := by
  have hcount : t.count = t'.count := by
    rw [h.count, h'.count]
    exact (h.entries_perm h' hsame).length_eq
  have hlines : ∀ u : FlowTable, ((flowTableTopN u qsort u.count).flatMap fun i => line (u.slot i)) =
      ((flowTableTopN u qsort u.count).map u.slot).flatMap line := fun u =>
    (List.flatMap_map u.slot line _).symm
  unfold csvReport
  rw [hlines, hlines, hcount, topN_congr h h' hsame qsort qsort]

end Pcapstat
