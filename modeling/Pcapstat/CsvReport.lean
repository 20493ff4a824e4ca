import Pcapstat.AddrText
import Pcapstat.CsvText
import Pcapstat.Recorded
import Pcapstat.TwoRuns

/-! # The CSV exports can be read back (`report.c`)

`readFlowLine` and `readTunnelLine` read a line of an export.  What they find is what the line was written
from (`readFlowLine_csvFlow`, `readTunnelLine_csvTunnel`), for every entry that an analysis records. -/

namespace Pcapstat

open Ipv6Text

/-! ### Reading a field -/

def Addr.ofBytes (bs : List UInt8) : Option Addr := if h : bs.length = 16 then some ⟨bs, h⟩ else none

/-- The address of an IP version that a text denotes. -/
def readAddr (ipVersion : ℕ) (s : Text) : Option Addr :=
  if ipVersion = 4 then
    (readOctets s).bind fun octets => Addr.ofBytes (octets.map UInt8.ofNat ++ List.replicate 12 0)
  else (Ipv6Text.read s).bind Addr.ofBytes

/-- The number of a protocol name, or of a number. -/
def readProto (s : Text) : Option UInt8 :=
  if s = "TCP".toList then some ipprotoTcp
  else if s = "UDP".toList then some ipprotoUdp
  else if s = "ICMP".toList then some ipprotoIcmp
  else if s = "ICMPv6".toList then some ipprotoIcmpv6
  else (Numeral.read 10 s).map UInt8.ofNat

/-- The flags whose letters occur. -/
def readTcpFlags (s : Text) : UInt8 :=
  "FSRPAUEC".toList.zipIdx.foldl
    (fun flags p => if p.1 ∈ s then flags ||| UInt8.ofNat (2 ^ p.2) else flags) 0

/-- Seconds and nanoseconds, in nanoseconds. -/
def readSeconds (s : Text) : Option ℕ :=
  match s.splitOn '.' with
  | [whole, frac] =>
      (Numeral.read 10 whole).bind fun whole => (Numeral.read 10 frac).map fun frac => whole * 1000000000 + frac
  | _ => none

/-- A hexadecimal number behind `0x`. -/
def readHex (s : Text) : Option ℕ := if s.take 2 = "0x".toList then Numeral.read 16 (s.drop 2) else none

section fields

theorem read_decimal (n : ℕ) : Numeral.read 10 (decimal n) = some n :=
  Numeral.read_toDigits (by decide) (by decide)

theorem clean_toDigits {b n : ℕ} (h1 : 1 < b) (hb : b ≤ 16) : Csv.Clean (Nat.toDigits b n) :=
  ⟨Numeral.not_mem_toDigits h1 hb (by decide), Numeral.not_mem_toDigits h1 hb (by decide)⟩

theorem clean_decimal (n : ℕ) : Csv.Clean (decimal n) := clean_toDigits (by decide) (by decide)

theorem clean_zeroPadded {s : Text} (w : ℕ) (h : Csv.Clean s) : Csv.Clean (zeroPadded w s) := by
  unfold zeroPadded List.leftpad
  apply Csv.Clean.append _ h
  constructor
  · exact fun hmem => absurd (List.eq_of_mem_replicate hmem) (by decide)
  · exact fun hmem => absurd (List.eq_of_mem_replicate hmem) (by decide)

/-! #### Addresses -/

theorem Addr.ofBytes_bytes (a : Addr) : Addr.ofBytes a.bytes = some a := by
  unfold Addr.ofBytes
  rw [dif_pos a.length_eq]

theorem addrFormat_four (a : Addr) : addrFormat 4 a addrStrLen = dots ((a.bytes.take 4).map UInt8.toNat) := by
  have htake : a.bytes.take 4 = (List.range 4).map fun k => a.bytes.getD (0 + k) 0 := by
    rw [bytes_eq_getD a]
    rfl
  have hlen : (dots ((a.bytes.take 4).map UInt8.toNat)).length ≤ 45 := by
    have hfour : ((a.bytes.take 4).map UInt8.toNat).length = 4 := by
      rw [List.length_map, List.length_take, a.length_eq]
      rfl
    have hle := length_dots (octets_lt (a.bytes.take 4)) hfour
    omega
  unfold addrFormat
  rw [if_pos rfl, dottedQuad_eq, ← htake]
  exact List.take_of_length_le hlen

theorem readAddr_addrFormat {v : UInt8} {a : Addr} (hv : v = 4 ∨ v = 6) (hpad : a.Padded v) :
    readAddr v.toNat (addrFormat v.toNat a addrStrLen) = some a := by
  rcases hv with rfl | rfl
  · have hfour : ((a.bytes.take 4).map UInt8.toNat).length = 4 := by
      rw [List.length_map, List.length_take, a.length_eq]
      rfl
    have hback : ((a.bytes.take 4).map UInt8.toNat).map UInt8.ofNat = a.bytes.take 4 := by
      rw [List.map_map]
      exact List.map_id'' (fun b => UInt8.ofNat_toNat) _
    have hbytes : a.bytes.take 4 ++ List.replicate 12 0 = a.bytes := by
      rw [← hpad rfl, List.take_append_drop]
    show readAddr 4 (addrFormat 4 a addrStrLen) = some a
    unfold readAddr
    rw [if_pos rfl, addrFormat_four, readOctets_dots (octets_lt _) hfour, Option.bind_some, hback, hbytes,
      Addr.ofBytes_bytes]
  · obtain ⟨text, hfull, hfits⟩ := addrFormat_fits a
    show readAddr 6 (addrFormat 6 a addrStrLen) = some a
    unfold readAddr
    rw [if_neg (by decide), hfits addrStrLen (by decide), hfull.read, Option.bind_some, Addr.ofBytes_bytes]

theorem clean_addrFormat {v : UInt8} {a : Addr} (hv : v = 4 ∨ v = 6) :
    Csv.Clean (addrFormat v.toNat a addrStrLen) := by
  rcases hv with rfl | rfl
  · show Csv.Clean (addrFormat 4 a addrStrLen)
    rw [addrFormat_four]
    exact ⟨not_mem_dots (by decide) (by decide), not_mem_dots (by decide) (by decide)⟩
  · obtain ⟨text, hfull, hfits⟩ := addrFormat_fits a
    show Csv.Clean (addrFormat 6 a addrStrLen)
    rw [hfits addrStrLen (by decide)]
    constructor
    · exact hfull.rfc.not_mem (by decide) (by decide) (by decide)
    · exact hfull.rfc.not_mem (by decide) (by decide) (by decide)

/-! #### Protocols and flags -/

theorem cut_proto (p : UInt8) : cut 8 (decimal p.toNat) = decimal p.toNat := by
  apply List.take_of_length_le
  exact (length_octet_le p.toNat_lt).trans (by decide)

theorem readProto_protoName (p : UInt8) : readProto (protoName p 8) = some p := by
  unfold protoName
  split_ifs with htcp hudp hicmp hicmpv6
  · rw [htcp]
    decide
  · rw [hudp]
    decide
  · rw [hicmp]
    decide
  · rw [hicmpv6]
    decide
  · -- a number is no name
    have hne : ∀ {name : Text}, 'P' ∈ name → decimal p.toNat ≠ name := by
      rintro name hmem rfl
      exact Numeral.not_mem_toDigits_of_ne (by decide) (by decide) hmem
    unfold readProto
    rw [cut_proto, if_neg (hne (by decide)), if_neg (hne (by decide)), if_neg (hne (by decide)),
      if_neg (hne (by decide)), read_decimal, Option.map_some, UInt8.ofNat_toNat]

theorem clean_protoName (p : UInt8) : Csv.Clean (protoName p 8) := by
  unfold protoName
  split_ifs
  · exact ⟨by decide, by decide⟩
  · exact ⟨by decide, by decide⟩
  · exact ⟨by decide, by decide⟩
  · exact ⟨by decide, by decide⟩
  · rw [cut_proto]
    exact clean_decimal _

theorem readTcpFlags_formatTcpFlags (flags : UInt8) : readTcpFlags (formatTcpFlags flags) = flags := by
  have hall : ∀ n < 256, readTcpFlags (formatTcpFlags (UInt8.ofNat n)) = UInt8.ofNat n := by decide +kernel
  have h := hall flags.toNat flags.toNat_lt
  rwa [UInt8.ofNat_toNat] at h

theorem clean_formatTcpFlags (flags : UInt8) : Csv.Clean (formatTcpFlags flags) := by
  have hletter : ∀ c ∈ formatTcpFlags flags, c ∈ "FSRPAUEC".toList := by
    intro c hc
    unfold formatTcpFlags at hc
    obtain ⟨⟨letter, bit⟩, hmem, hbit⟩ := List.mem_filterMap.mp hc
    have hin : letter ∈ "FSRPAUEC".toList := List.fst_mem_of_mem_zipIdx hmem
    dsimp only at hbit
    split at hbit
    · rwa [← Option.some.inj hbit]
    · cases hbit
  exact Csv.Clean.of_forall hletter (by decide) (by decide)

/-! #### Times -/

theorem read_zeroPadded (w n : ℕ) : Numeral.read 10 (zeroPadded w (decimal n)) = some n :=
  Numeral.read_leftpad (by decide) (by decide) w

/-- The seconds are those of the time, to the nanosecond. -/
theorem readSeconds_seconds (ns : UInt64) : readSeconds (seconds ns) = some ns.toNat := by
  have hdot : ∀ n, '.' ∉ decimal n := fun n => Numeral.not_mem_toDigits (by decide) (by decide) (by decide)
  have hpadded : '.' ∉ zeroPadded 9 (decimal (ns % nsPerSec).toNat) := by
    unfold zeroPadded List.leftpad
    intro h
    rcases List.mem_append.mp h with h | h
    · exact absurd (List.eq_of_mem_replicate h) (by decide)
    · exact hdot _ h
  have hsplit : (seconds ns).splitOn '.' =
      [decimal (ns / nsPerSec).toNat, zeroPadded 9 (decimal (ns % nsPerSec).toNat)] := by
    unfold seconds
    rw [List.splitOn_append_cons_self_of_not_mem (hdot _), List.splitOn_eq_singleton hpadded]
  have hvalue : (ns / nsPerSec).toNat * 1000000000 + (ns % nsPerSec).toNat = ns.toNat := by
    rw [UInt64.toNat_div, UInt64.toNat_mod]
    exact Nat.div_add_mod' ns.toNat 1000000000
  unfold readSeconds
  rw [hsplit]
  dsimp only
  rw [read_decimal, Option.bind_some, read_zeroPadded, Option.map_some, hvalue]

theorem clean_seconds (ns : UInt64) : Csv.Clean (seconds ns) := by
  unfold seconds
  apply Csv.Clean.append (clean_decimal _)
  exact Csv.Clean.cons (by decide) (by decide) (clean_zeroPadded 9 (clean_decimal _))

/-! #### TEIDs -/

theorem readHex_zeroPadded (w n : ℕ) : readHex ("0x".toList ++ zeroPadded w (hexadecimal n)) = some n := by
  have htake : ("0x".toList ++ zeroPadded w (hexadecimal n)).take 2 = "0x".toList := rfl
  have hdrop : ("0x".toList ++ zeroPadded w (hexadecimal n)).drop 2 = zeroPadded w (hexadecimal n) := rfl
  unfold readHex
  rw [if_pos htake, hdrop]
  exact Numeral.read_leftpad (by decide) (by decide) w

theorem clean_teid (w n : ℕ) : Csv.Clean ("0x".toList ++ zeroPadded w (hexadecimal n)) := by
  have hfront : Csv.Clean "0x".toList := ⟨by decide, by decide⟩
  exact hfront.append (clean_zeroPadded w (clean_toDigits (by decide) (by decide)))

end fields

/-! ### Reading a line -/

/-- Counters and times. -/
structure Counts where
  packets : UInt64
  bytes : UInt64
  firstTsNs : UInt64
  lastTsNs : UInt64
  durationNs : ℤ
deriving DecidableEq, Repr

/-- What the line of a flow says; there are flags for TCP only. -/
structure FlowLine where
  key : FlowKey
  firstFromB : Bool
  counts : Counts
  tcpFlags : Option UInt8
deriving DecidableEq, Repr

/-- What the line of a tunnel says. -/
structure TunnelLine where
  key : FlowKey
  counts : Counts
deriving DecidableEq, Repr

/-- The duration does not wrap. -/
def Flow.counts (f : Flow) : Counts :=
  ⟨f.packets, f.bytes, f.firstTsNs, f.lastTsNs, f.lastTsNs.toNat - f.firstTsNs.toNat⟩

def Flow.flowLine (f : Flow) : FlowLine :=
  ⟨f.key, f.firstFromB, f.counts, if f.key.proto = ipprotoTcp then some f.tcpFlags else none⟩

def Flow.tunnelLine (f : Flow) : TunnelLine := ⟨f.key, f.counts⟩

def readCounts (packets bytes first last duration : Text) : Option Counts := do
  let packets ← Numeral.read 10 packets
  let bytes ← Numeral.read 10 bytes
  let first ← readSeconds first
  let last ← readSeconds last
  let duration ← readSeconds duration
  some ⟨.ofNat packets, .ofNat bytes, .ofNat first, .ofNat last, duration⟩

/-- The key and the direction are those of a packet from the source to the destination. -/
def readFlowLine (line : Text) : Option FlowLine :=
  match Csv.fields line with
  | [src, sport, dst, dport, proto, version, packets, bytes, first, last, duration, flags] => do
      let version ← Numeral.read 10 version
      let src ← readAddr version src
      let sport ← Numeral.read 10 sport
      let dst ← readAddr version dst
      let dport ← Numeral.read 10 dport
      let proto ← readProto proto
      let (key, reversed) ← flowKeyFromPacket
        { hasL3 := true, ipVersion := .ofNat version, ipProto := proto, srcAddr := src, dstAddr := dst
          srcPort := .ofNat sport, dstPort := .ofNat dport }
      let counts ← readCounts packets bytes first last duration
      some ⟨key, reversed, counts, if proto = ipprotoTcp then some (readTcpFlags flags) else none⟩
  | _ => none

def readTunnelLine (line : Text) : Option TunnelLine :=
  match Csv.fields line with
  | [teid, src, dst, version, packets, bytes, first, last, duration] => do
      let teid ← readHex teid
      let version ← Numeral.read 10 version
      let src ← readAddr version src
      let dst ← readAddr version dst
      let counts ← readCounts packets bytes first last duration
      some ⟨{ teid := .ofNat teid, ipVersion := .ofNat version, proto := ipprotoUdp, addrA := src, addrB := dst },
        counts⟩
  | _ => none

section lines

variable {f : Flow}

theorem readCounts_counts (h : f.firstTsNs ≤ f.lastTsNs) :
    readCounts (decimal f.packets.toNat) (decimal f.bytes.toNat) (seconds f.firstTsNs) (seconds f.lastTsNs)
      (seconds (f.lastTsNs - f.firstTsNs)) = some f.counts := by
  have hle : f.firstTsNs.toNat ≤ f.lastTsNs.toNat := UInt64.le_iff_toNat_le.mp h
  have hduration : ((f.lastTsNs - f.firstTsNs).toNat : ℤ) = f.lastTsNs.toNat - f.firstTsNs.toNat := by
    rw [UInt64.toNat_sub_of_le _ _ h]
    omega
  unfold readCounts Flow.counts
  simp only [read_decimal, readSeconds_seconds, Option.bind_eq_bind, Option.bind_some, UInt64.ofNat_toNat,
    hduration]

/-! #### Flows -/

/-- Where the first packet of the flow comes from. -/
def Flow.source (f : Flow) : Endpoint := if f.firstFromB then f.key.endB else f.key.endA

/-- Where the first packet of the flow goes. -/
def Flow.dest (f : Flow) : Endpoint := if f.firstFromB then f.key.endA else f.key.endB

theorem flowKey_of_ends (h : f.key.OfFlow f.firstFromB) :
    flowKeyFromPacket
      { hasL3 := true, ipVersion := f.key.ipVersion, ipProto := f.key.proto, srcAddr := f.source.1
        dstAddr := f.dest.1, srcPort := f.source.2, dstPort := f.dest.2 } = some (f.key, f.firstFromB) := by
  generalize hpi : ({ hasL3 := true, ipVersion := f.key.ipVersion, ipProto := f.key.proto
                      srcAddr := f.source.1, dstAddr := f.dest.1, srcPort := f.source.2
                      dstPort := f.dest.2 } : PacketInfo) = pi
  have hsrc : pi.src = f.source := by subst hpi; rfl
  have hdst : pi.dst = f.dest := by subst hpi; rfl
  have hrev : fromB pi = f.firstFromB := by
    rw [Bool.eq_iff_iff, fromB_iff, hsrc, hdst]
    unfold Flow.source Flow.dest
    cases hfrom : f.firstFromB with
    | false =>
        rw [if_neg Bool.false_ne_true, if_neg Bool.false_ne_true]
        exact iff_of_false h.ordered Bool.false_ne_true
    | true =>
        rw [if_pos rfl, if_pos rfl]
        refine iff_of_true ?_ rfl
        -- the endpoints differ, for there is a direction
        rw [endpointCmp_swap]
        cases hcmp : endpointCmp f.key.endA f.key.endB with
        | lt => rfl
        | eq =>
            have hno := h.reversed (endpointCmp_eq_iff.mp hcmp)
            exact absurd (hno.symm.trans hfrom) Bool.false_ne_true
        | gt => exact absurd hcmp h.ordered
  have hkey : FlowKey.between f.key.ipVersion f.key.proto f.key.endA f.key.endB = f.key := by
    have hteid := h.teid
    generalize f.key = key at hteid ⊢
    cases key
    cases hteid
    rfl
  have hl3 : pi.hasL3 = true := by subst hpi; rfl
  have hversion : pi.ipVersion = f.key.ipVersion := by subst hpi; rfl
  have hproto : pi.ipProto = f.key.proto := by subst hpi; rfl
  rw [flowKeyFromPacket_eq hl3, PacketInfo.flowKey, hrev, hsrc, hdst, hversion, hproto]
  unfold Flow.source Flow.dest
  cases f.firstFromB with
  | false => exact congrArg (fun k => some (k, false)) hkey
  | true => exact congrArg (fun k => some (k, true)) hkey

/-- The fields of the line of a flow. -/
def flowFields (f : Flow) : List Text :=
  [addrFormat f.key.ipVersion.toNat f.source.1 addrStrLen, decimal f.source.2.toNat,
    addrFormat f.key.ipVersion.toNat f.dest.1 addrStrLen, decimal f.dest.2.toNat, protoName f.key.proto 8,
    decimal f.key.ipVersion.toNat, decimal f.packets.toNat, decimal f.bytes.toNat, seconds f.firstTsNs,
    seconds f.lastTsNs, seconds (f.lastTsNs - f.firstTsNs),
    if f.key.proto = ipprotoTcp then formatTcpFlags f.tcpFlags else []]

theorem csvFlow_eq (f : Flow) : csvFlow f = Csv.row (flowFields f) := by
  unfold csvFlow csvEndpoint flowFields Flow.source Flow.dest
  cases f.firstFromB <;> rfl

theorem clean_flowFields (h : f.key.Addressed) : ∀ s ∈ flowFields f, Csv.Clean s := by
  have hflags : Csv.Clean (if f.key.proto = ipprotoTcp then formatTcpFlags f.tcpFlags else []) := by
    split
    · exact clean_formatTcpFlags _
    · exact Csv.Clean.nil
  unfold flowFields
  simp only [List.forall_mem_cons, List.not_mem_nil, false_imp_iff, implies_true, and_true]
  exact ⟨clean_addrFormat h.version, clean_decimal _, clean_addrFormat h.version, clean_decimal _,
    clean_protoName _, clean_decimal _, clean_decimal _, clean_decimal _, clean_seconds _, clean_seconds _,
    clean_seconds _, hflags⟩

theorem source_padded (h : f.key.Addressed) : f.source.1.Padded f.key.ipVersion := by
  unfold Flow.source
  split
  · exact h.addrB
  · exact h.addrA

theorem dest_padded (h : f.key.Addressed) : f.dest.1.Padded f.key.ipVersion := by
  unfold Flow.dest
  split
  · exact h.addrA
  · exact h.addrB

/-- **The line of a flow says what the flow is.** -/
theorem readFlowLine_csvFlow (h : f.Recorded FlowKey.OfFlow) : readFlowLine (csvFlow f) = some f.flowLine := by
  have haddr : f.key.Addressed := h.key.addressed
  have hsrc := readAddr_addrFormat haddr.version (source_padded haddr)
  have hdst := readAddr_addrFormat haddr.version (dest_padded haddr)
  have hflags : (if f.key.proto = ipprotoTcp then
      some (readTcpFlags (if f.key.proto = ipprotoTcp then formatTcpFlags f.tcpFlags else [])) else none) =
        if f.key.proto = ipprotoTcp then some f.tcpFlags else none := by
    split
    · rw [readTcpFlags_formatTcpFlags]
    · rfl
  unfold readFlowLine
  rw [csvFlow_eq, Csv.fields_row (clean_flowFields haddr) (List.cons_ne_nil _ _)]
  unfold flowFields
  simp only [read_decimal, hsrc, hdst, readProto_protoName, readCounts_counts h.times, Option.bind_eq_bind,
    Option.bind_some, UInt8.ofNat_toNat, UInt16.ofNat_toNat, flowKey_of_ends h.key, hflags]
  rfl

/-! #### Tunnels -/

/-- The fields of the line of a tunnel. -/
def tunnelFields (f : Flow) : List Text :=
  ["0x".toList ++ zeroPadded 8 (hexadecimal f.key.teid.toNat),
    addrFormat f.key.ipVersion.toNat f.key.addrA addrStrLen, addrFormat f.key.ipVersion.toNat f.key.addrB addrStrLen,
    decimal f.key.ipVersion.toNat, decimal f.packets.toNat, decimal f.bytes.toNat, seconds f.firstTsNs,
    seconds f.lastTsNs, seconds (f.lastTsNs - f.firstTsNs)]

theorem csvTunnel_eq (f : Flow) : csvTunnel f = Csv.row (tunnelFields f) := rfl

theorem clean_tunnelFields (h : f.key.Addressed) : ∀ s ∈ tunnelFields f, Csv.Clean s := by
  unfold tunnelFields
  simp only [List.forall_mem_cons, List.not_mem_nil, false_imp_iff, implies_true, and_true]
  exact ⟨clean_teid _ _, clean_addrFormat h.version, clean_addrFormat h.version, clean_decimal _, clean_decimal _,
    clean_decimal _, clean_seconds _, clean_seconds _, clean_seconds _⟩

/-- **The line of a tunnel says what the tunnel is.** -/
theorem readTunnelLine_csvTunnel (h : f.Recorded FlowKey.OfTunnel) :
    readTunnelLine (csvTunnel f) = some f.tunnelLine := by
  have haddr : f.key.Addressed := h.key.addressed
  have hsrc := readAddr_addrFormat haddr.version haddr.addrA
  have hdst := readAddr_addrFormat haddr.version haddr.addrB
  have hkey : ({ teid := f.key.teid, ipVersion := f.key.ipVersion, proto := ipprotoUdp, addrA := f.key.addrA
                 addrB := f.key.addrB } : FlowKey) = f.key := by
    have hproto := h.key.proto
    have hportA := h.key.portA
    have hportB := h.key.portB
    generalize f.key = key at hproto hportA hportB ⊢
    cases key
    cases hproto
    cases hportA
    cases hportB
    rfl
  unfold readTunnelLine
  rw [csvTunnel_eq, Csv.fields_row (clean_tunnelFields haddr) (List.cons_ne_nil _ _)]
  unfold tunnelFields
  simp only [readHex_zeroPadded, read_decimal, hsrc, hdst, readCounts_counts h.times, Option.bind_eq_bind,
    Option.bind_some, UInt8.ofNat_toNat, UInt32.ofNat_toNat, hkey]
  rfl

end lines

/-! ### The exports -/

/-- The text is a header and a line for each of the entries `flows`, which are all entries of the table in
the order of the ranking; every line has `n` fields and says what its entry is. -/
structure Lossless {α : Type} (t : FlowTable) (header : Text) (line : Flow → Text) (n : ℕ)
    (read : Text → Option α) (content : Flow → α) (text : Text) (flows : List Flow) : Prop where
  ranking : Ranking t flows
  count : flows.length = t.count
  whole : text = (header :: flows.map line).flatten
  lines : Csv.lines text = header :: flows.map line
  width : (Csv.fields header).length = n ∧ ∀ f ∈ flows, (Csv.fields (line f)).length = n
  read : ∀ f ∈ flows, read (line f) = some (content f)
  distinct : (flows.map line).Nodup

section exports

variable {w : ℕ} {t : FlowTable}

theorem FlowTable.Inv.reported (h : t.Inv w) (qsort : Qsort) :
    Ranking t ((flowTableTopN t qsort t.count).map t.slot) := by
  have hranking := h.ranking qsort
  have hlen : ((qsort.run (rankAt t) (t.iterate (t.capacity + 1) 0)).map t.slot).length = t.count := by
    rw [List.length_map, (qsort.perm _ _).length_eq, h.length_iterate]
  rw [(h.topN qsort t.count).first _ hranking, List.take_of_length_le hlen.le]
  exact hranking

theorem csvReport_eq (header : Text) (line : Flow → Text) (qsort : Qsort) (t : FlowTable) :
    csvReport header line qsort t true =
      some (header :: ((flowTableTopN t qsort t.count).map t.slot).map line).flatten := by
  have hbody : ((flowTableTopN t qsort t.count).flatMap fun i => line (t.slot i)) =
      (((flowTableTopN t qsort t.count).map t.slot).map line).flatten := by
    rw [List.map_map, List.flatMap_def]
    rfl
  unfold csvReport
  by_cases hcount : t.count > 0
  · rw [if_pos hcount, if_pos rfl, hbody, List.flatten_cons]
  · have hzero : t.count = 0 := by omega
    rw [if_neg hcount, hzero]
    exact congrArg some (List.append_nil header).symm

/-- A report that is made is the one that is made when memory is granted. -/
theorem csvReport_of_isSome {header : Text} {line : Flow → Text} {qsort : Qsort} {ok : Bool}
    (h : (csvReport header line qsort t ok).isSome) :
    csvReport header line qsort t ok = csvReport header line qsort t true := by
  cases ok with
  | true => rfl
  | false =>
      unfold csvReport at h ⊢
      by_cases hcount : t.count > 0
      · rw [if_pos hcount, if_neg Bool.false_ne_true] at h
        exact absurd h Bool.false_ne_true
      · rw [if_neg hcount, if_neg hcount]

/-- An export is lossless if every line is a row that says what its entry is. -/
theorem csvReport_lossless {α : Type} {header : Text} {line : Flow → Text} {fields : Flow → List Text} {n : ℕ}
    {read : Text → Option α} {content : Flow → α} (key : α → FlowKey) (h : t.Inv w) (qsort : Qsort)
    (hheader : Csv.IsLine header ∧ (Csv.fields header).length = n) (hrow : ∀ f, line f = Csv.row (fields f))
    (hclean : ∀ f ∈ t.entries, ∀ s ∈ fields f, Csv.Clean s) (hlen : ∀ f, (fields f).length = n) (hn : 0 < n)
    (hread : ∀ f ∈ t.entries, read (line f) = some (content f)) (hkey : ∀ f, key (content f) = f.key) :
    ∃ text flows, csvReport header line qsort t true = some text ∧
      Lossless t header line n read content text flows := by
  have hranking := h.reported qsort
  refine ⟨_, (flowTableTopN t qsort t.count).map t.slot, csvReport_eq header line qsort t, ?_⟩
  generalize (flowTableTopN t qsort t.count).map t.slot = flows at hranking
  have hmem : ∀ f ∈ flows, f ∈ t.entries := fun f hf => hranking.perm.mem_iff.mp hf
  have hcontent : ∀ f ∈ flows, read (line f) = some (content f) := fun f hf => hread f (hmem f hf)
  refine ⟨hranking, ?_, rfl, ?_, ⟨hheader.2, ?_⟩, hcontent, ?_⟩
  · rw [hranking.perm.length_eq, h.count]
  · apply Csv.lines_flatten
    intro l hl
    rcases List.mem_cons.mp hl with rfl | hl
    · exact hheader.1
    · obtain ⟨f, hf, rfl⟩ := List.mem_map.mp hl
      rw [hrow f]
      exact Csv.isLine_row (hclean f (hmem f hf))
  · intro f hf
    have hne : fields f ≠ [] := by
      intro hnil
      have hlen' := hlen f
      rw [hnil, List.length_nil] at hlen'
      omega
    rw [hrow f, Csv.fields_row (hclean f (hmem f hf)) hne, hlen f]
  · -- the key of an entry can be told from its line
    have hkeys : (flows.map line).map (fun l => (read l).map key) = (flows.map Flow.key).map some := by
      rw [List.map_map, List.map_map]
      apply List.map_congr_left
      intro f hf
      show (read (line f)).map key = some f.key
      rw [hcontent f hf, Option.map_some, hkey f]
    have hnodup : (flows.map Flow.key).Nodup := (hranking.perm.map Flow.key).nodup_iff.mpr h.nodup
    apply List.Nodup.of_map (fun l => (read l).map key)
    rw [hkeys]
    exact hnodup.map (Option.some_injective _)

/-! ### The theorem -/

theorem header_lines : (Csv.IsLine csvHeader ∧ (Csv.fields csvHeader).length = 12) ∧
    Csv.IsLine csvTunnelHeader ∧ (Csv.fields csvTunnelHeader).length = 9 := by
  refine ⟨⟨⟨csvHeader.dropLast, by decide +kernel, by decide +kernel⟩, by decide +kernel⟩,
    ⟨csvTunnelHeader.dropLast, by decide +kernel, by decide +kernel⟩, by decide +kernel⟩

/-- **The exports of an analysis are lossless.** -/
theorem reports_lossless {ok : ℕ → Grants} {okFlows okTunnels okFrags : Bool} {a a' : Analysis} {r r' : PcapReader}
    {st : PcapStatus} (hinit : analysisInit w okFlows okTunnels okFrags = some (some a))
    (hrun : analysisRun w ok a r = some (a', r', st)) (qsort : Qsort) :
    (∃ text flows, reportCsv qsort a'.flows true = some text ∧
      Lossless a'.flows csvHeader csvFlow 12 readFlowLine Flow.flowLine text flows) ∧
    ∃ text tunnels, reportTunnelsCsv qsort a'.tunnels true = some text ∧
      Lossless a'.tunnels csvTunnelHeader csvTunnel 9 readTunnelLine Flow.tunnelLine text tunnels := by
  have h := analysisRun_recorded hinit hrun
  constructor
  · apply csvReport_lossless FlowLine.key h.inv.flows qsort header_lines.1 csvFlow_eq
    · exact fun f hf => clean_flowFields (h.flows f hf).key.addressed
    · exact fun f => rfl
    · decide
    · exact fun f hf => readFlowLine_csvFlow (h.flows f hf)
    · exact fun f => rfl
  · apply csvReport_lossless TunnelLine.key h.inv.tunnels qsort header_lines.2 csvTunnel_eq
    · exact fun f hf => clean_tunnelFields (h.tunnels f hf).key.addressed
    · exact fun f => rfl
    · decide
    · exact fun f hf => readTunnelLine_csvTunnel (h.tunnels f hf)
    · exact fun f => rfl

theorem reports_lossless_talk : ∃ a a' r', analysisInit 64 true true true = some (some a) ∧
    analysisRun 64 (fun _ => ⟨true, true⟩) a talk = some (a', r', .eof) ∧
    (∃ text flows, reportCsv default a'.flows true = some text ∧
      Lossless a'.flows csvHeader csvFlow 12 readFlowLine Flow.flowLine text flows ∧
      flows.map Flow.bytes = [210, 60]) ∧
    ∃ text tunnels, reportTunnelsCsv default a'.tunnels true = some text ∧
      Lossless a'.tunnels csvTunnelHeader csvTunnel 9 readTunnelLine Flow.tunnelLine text tunnels ∧
      tunnels.map Flow.bytes = [140, 70] := by
  obtain ⟨a, a', r', hinit, hrun, hbytes⟩ := exists_talk
  obtain ⟨hflows, htunnels⟩ := Prod.mk.inj hbytes
  obtain ⟨⟨text, flows, htext, hlossless⟩, text', tunnels, htext', hlossless'⟩ :=
    reports_lossless hinit hrun default
  refine ⟨a, a', r', hinit, hrun, ⟨text, flows, htext, hlossless, ?_⟩, text', tunnels, htext', hlossless', ?_⟩
  · exact hlossless.ranking.bytes_eq (hflows ▸ .refl _) (by decide)
  · exact hlossless'.ranking.bytes_eq (htunnels ▸ .swap _ _ _) (by decide)

end exports

end Pcapstat
