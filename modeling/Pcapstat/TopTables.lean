import Pcapstat.CsvReport
import Pcapstat.PortKeys

/-! # The top tables can be read (`report.c`)

`readTopFlow` and `readTopTunnel` read a row of a table by its words.  They find the rank of the entry, its
key, its counters, and its duration in milliseconds (`readTopFlow_topFlowRow`, `readTopTunnel_topTunnelRow`):
no endpoint is cut off, and an endpoint of IP version 6 is not mistaken for one of version 4.

The columns line up as far as the ranks fit, and they are no wider than they have to be (`topReport_table`). -/

namespace Pcapstat

open Ipv6Text

/-! ### Endpoints -/

/-- The IP version and the endpoint that a text denotes, with or without a port. -/
def readEndpoint (ports : Bool) (s : Text) : Option (UInt8 × Endpoint) :=
  if ports then
    if s.head? = some '[' then
      match s.tail.splitOn ']' with
      | [a, p] => (readAddr 6 a).bind fun a => (Numeral.read 10 (p.drop 1)).map fun p => (6, a, .ofNat p)
      | _ => none
    else
      match s.splitOn ':' with
      | [a, p] => (readAddr 4 a).bind fun a => (Numeral.read 10 p).map fun p => (4, a, .ofNat p)
      | _ => none
  else if ':' ∈ s then (readAddr 6 s).map fun a => (6, a, 0)
  else (readAddr 4 s).map fun a => (4, a, 0)

section endpoints

variable {v : UInt8} {a : Addr} {k : FlowKey} {port : UInt16}

theorem length_addrFormat (hv : v = 4 ∨ v = 6) : (addrFormat v.toNat a addrStrLen).length ≤ 39 := by
  rcases hv with rfl | rfl
  · have hfour : ((a.bytes.take 4).map UInt8.toNat).length = 4 := by
      rw [List.length_map, List.length_take, a.length_eq]
      rfl
    show (addrFormat 4 a addrStrLen).length ≤ 39
    rw [addrFormat_four]
    exact (length_dots (octets_lt _) hfour).trans (by decide)
  · obtain ⟨text, hfull, hfits⟩ := addrFormat_fits a
    show (addrFormat 6 a addrStrLen).length ≤ 39
    rw [hfits addrStrLen (by decide)]
    exact hfull.length

theorem not_mem_addrFormat (hv : v = 4 ∨ v = 6) {c : Char} (hdigit : Numeral.digitValue c = none) (hcolon : c ≠ ':')
    (hdot : c ≠ '.') : c ∉ addrFormat v.toNat a addrStrLen := by
  rcases hv with rfl | rfl
  · show c ∉ addrFormat 4 a addrStrLen
    rw [addrFormat_four]
    exact not_mem_dots hdigit hdot
  · obtain ⟨text, hfull, hfits⟩ := addrFormat_fits a
    show c ∉ addrFormat 6 a addrStrLen
    rw [hfits addrStrLen (by decide)]
    exact hfull.rfc.not_mem hdigit hcolon hdot

theorem Rfc5952.colon_mem {text : Text} (h : Rfc5952 a text) : ':' ∈ text := by
  cases h with
  | mapped _ => exact List.mem_append_left _ (by decide)
  | gap _ _ _ => exact List.mem_append_right _ List.mem_cons_self
  | plain _ _ =>
      rw [show groupsFrom (group a) 0 8 = (group a 0).toNat :: groupsFrom (group a) 1 7 from rfl,
        colons_cons (by rw [← List.length_pos_iff, length_groupsFrom]; decide)]
      simp

theorem colon_mem_addrFormat (hv : v = 4 ∨ v = 6) : ':' ∈ addrFormat v.toNat a addrStrLen ↔ v = 6 := by
  rcases hv with rfl | rfl
  · show ':' ∈ addrFormat 4 a addrStrLen ↔ _
    rw [addrFormat_four]
    exact iff_of_false (not_mem_dots (by decide) (by decide)) (by decide)
  · obtain ⟨text, hfull, hfits⟩ := addrFormat_fits a
    show ':' ∈ addrFormat 6 a addrStrLen ↔ _
    rw [hfits addrStrLen (by decide)]
    exact iff_of_true (hfull.rfc.colon_mem) rfl

theorem length_port (port : UInt16) : (decimal port.toNat).length ≤ 5 :=
  (Nat.length_toDigits_le_iff (by decide) (by decide)).mpr (port.toNat_lt.trans (by decide))

/-- What an endpoint is written as. -/
def endpointText (k : FlowKey) (addr : Addr) (port : UInt16) : Text :=
  let a := addrFormat k.ipVersion.toNat addr addrStrLen
  if !hasPorts k.proto then a
  else if k.ipVersion = 6 then '[' :: a ++ "]:".toList ++ decimal port.toNat
  else a ++ ':' :: decimal port.toNat

theorem formatEndpoint_eq (hv : k.ipVersion = 4 ∨ k.ipVersion = 6) :
    formatEndpoint k a port endpointStrLen = endpointText k a port := by
  have haddr := length_addrFormat (a := a) hv
  have hport := length_port port
  unfold formatEndpoint endpointText
  dsimp only
  split_ifs
  · exact List.take_of_length_le (haddr.trans (by decide))
  · apply List.take_of_length_le
    simp only [List.length_append, List.length_cons]
    show _ + 2 + _ ≤ 53
    omega
  · apply List.take_of_length_le
    simp only [List.length_append, List.length_cons]
    show _ ≤ 53
    omega

theorem not_mem_endpointText (hv : k.ipVersion = 4 ∨ k.ipVersion = 6) {c : Char}
    (hdigit : Numeral.digitValue c = none) (hcolon : c ≠ ':') (hdot : c ≠ '.')
    (hopen : c ≠ '[') (hclose : c ≠ ']') :
    c ∉ endpointText k a port := by
  have haddr : c ∉ addrFormat k.ipVersion.toNat a addrStrLen := not_mem_addrFormat hv hdigit hcolon hdot
  have hport : c ∉ decimal port.toNat := Numeral.not_mem_toDigits (by decide) (by decide) hdigit
  unfold endpointText
  dsimp only
  split_ifs
  · exact haddr
  · simp [haddr, hport, hcolon, hopen, hclose]
  · simp [haddr, hport, hcolon]

theorem readEndpoint_addrFormat (hv : v = 4 ∨ v = 6) (hpad : a.Padded v) :
    readEndpoint false (addrFormat v.toNat a addrStrLen) = some (v, a, 0) := by
  have hread := readAddr_addrFormat hv hpad
  have hcolon := colon_mem_addrFormat (a := a) hv
  unfold readEndpoint
  rw [if_neg Bool.false_ne_true]
  rcases hv with rfl | rfl
  · rw [if_neg fun h => absurd (hcolon.mp h) (by decide), show readAddr 4 _ = some a from hread, Option.map_some]
  · rw [if_pos (hcolon.mpr rfl), show readAddr 6 _ = some a from hread, Option.map_some]

theorem readEndpoint_endpointText (hv : k.ipVersion = 4 ∨ k.ipVersion = 6) (hpad : a.Padded k.ipVersion)
    (hport : hasPorts k.proto = false → port = 0) :
    readEndpoint (hasPorts k.proto) (endpointText k a port) = some (k.ipVersion, a, port) := by
  have hread := readAddr_addrFormat hv hpad
  have hclose : ']' ∉ addrFormat k.ipVersion.toNat a addrStrLen :=
    not_mem_addrFormat hv (by decide) (by decide) (by decide)
  have hopen : '[' ∉ addrFormat k.ipVersion.toNat a addrStrLen :=
    not_mem_addrFormat hv (by decide) (by decide) (by decide)
  have hcolon := colon_mem_addrFormat (a := a) hv
  have hplain := readEndpoint_addrFormat hv hpad
  have hdigits : ∀ c, Numeral.digitValue c = none → c ∉ decimal port.toNat := fun c hc =>
    Numeral.not_mem_toDigits (by decide) (by decide) hc
  unfold endpointText
  dsimp only
  generalize addrFormat k.ipVersion.toNat a addrStrLen = s at hread hclose hopen hcolon hplain ⊢
  cases hports : hasPorts k.proto with
  | false =>
      obtain rfl := hport hports
      exact hplain
  | true =>
      unfold readEndpoint
      simp only [Bool.not_true, Bool.false_eq_true, if_false, if_true]
      rcases hv with hv | hv
      · have hno : ':' ∉ s := fun h => absurd (hv.symm.trans (hcolon.mp h)) (by decide)
        have hhead : (s ++ ':' :: decimal port.toNat).head? ≠ some '[' := by
          intro hs
          cases s with
          | nil => cases hs
          | cons c s => exact hopen (Option.some.inj hs ▸ List.mem_cons_self)
        have hsplit : (s ++ ':' :: decimal port.toNat).splitOn ':' = [s, decimal port.toNat] := by
          rw [List.splitOn_append_cons_self_of_not_mem hno, List.splitOn_eq_singleton (hdigits ':' (by decide))]
        rw [hv] at hread ⊢
        rw [if_neg (show (4 : UInt8) ≠ 6 by decide), if_neg hhead, hsplit]
        dsimp only
        rw [show readAddr 4 s = some a from hread, read_decimal]
        simp
      · have hsplit : (s ++ "]:".toList ++ decimal port.toNat).splitOn ']' = [s, ':' :: decimal port.toNat] := by
          rw [List.append_assoc]
          show (s ++ ']' :: (':' :: decimal port.toNat)).splitOn ']' = _
          rw [List.splitOn_append_cons_self_of_not_mem hclose, List.splitOn_eq_singleton]
          simp [hdigits ']' (by decide)]
        rw [hv] at hread ⊢
        rw [if_pos rfl, if_pos (by rfl)]
        simp only [List.cons_append, List.tail_cons, hsplit, List.drop_one]
        rw [show readAddr 6 s = some a from hread, read_decimal]
        simp

end endpoints

/-! ### Durations -/

/-- Seconds and milliseconds, in milliseconds. -/
def readMillis (s : Text) : Option ℕ :=
  match s.splitOn '.' with
  | [whole, frac] =>
      (Numeral.read 10 whole).bind fun whole => (Numeral.read 10 frac).map fun frac => whole * 1000 + frac
  | _ => none

/-- The duration in milliseconds. -/
def Flow.millis (f : Flow) : ℕ := (f.lastTsNs.toNat - f.firstTsNs.toNat) / 1000000

/-- The number of a duration, without its unit. -/
def millisText (d : UInt64) : Text :=
  decimal (d / nsPerSec).toNat ++ '.' :: zeroPadded 3 (decimal (d % nsPerSec / 1000000).toNat)

section durations

variable {d : UInt64} {f : Flow}

theorem toNat_millis : (d % nsPerSec / 1000000).toNat = d.toNat % 1000000000 / 1000000 := by
  rw [UInt64.toNat_div, UInt64.toNat_mod]
  rfl

theorem duration_eq (f : Flow) : duration f = millisText (f.lastTsNs - f.firstTsNs) ++ " s".toList := by
  have hsec : (decimal ((f.lastTsNs - f.firstTsNs) / nsPerSec).toNat).length ≤ 20 :=
    (Nat.length_toDigits_le_iff (by decide) (by decide)).mpr ((UInt64.toNat_lt _).trans (by decide))
  have hmillis : (zeroPadded 3 (decimal ((f.lastTsNs - f.firstTsNs) % nsPerSec / 1000000).toNat)).length = 3 := by
    apply Numeral.length_leftpad (by decide) (by decide)
    rw [toNat_millis]
    omega
  unfold duration millisText
  dsimp only
  rw [List.append_assoc, List.cons_append]
  apply List.take_of_length_le
  have hunit : " s".toList.length = 2 := rfl
  simp only [List.length_append, List.length_cons, hmillis, hunit]
  show _ ≤ 31
  omega

theorem not_mem_millisText {c : Char} (hdigit : Numeral.digitValue c = none) (hdot : c ≠ '.') :
    c ∉ millisText d := by
  have hzero : c ≠ '0' := by
    rintro rfl
    exact absurd hdigit (by decide)
  unfold millisText zeroPadded List.leftpad
  simp only [List.mem_append, List.mem_cons, List.mem_replicate, hdot, hzero, and_false, false_or, not_or]
  exact ⟨Numeral.not_mem_toDigits (by decide) (by decide) hdigit,
    Numeral.not_mem_toDigits (by decide) (by decide) hdigit⟩

theorem readMillis_millisText (h : f.firstTsNs ≤ f.lastTsNs) :
    readMillis (millisText (f.lastTsNs - f.firstTsNs)) = some f.millis := by
  have hdot : ∀ n, '.' ∉ decimal n := fun n => Numeral.not_mem_toDigits (by decide) (by decide) (by decide)
  have hpadded : ∀ n, '.' ∉ zeroPadded 3 (decimal n) := by
    intro n
    unfold zeroPadded List.leftpad
    simp [hdot n]
  have hvalue : ((f.lastTsNs - f.firstTsNs) / nsPerSec).toNat * 1000 +
      ((f.lastTsNs - f.firstTsNs) % nsPerSec / 1000000).toNat = f.millis := by
    rw [toNat_millis, UInt64.toNat_div, UInt64.toNat_sub_of_le _ _ h]
    show _ / 1000000000 * 1000 + _ = _
    unfold Flow.millis
    omega
  unfold readMillis millisText
  rw [List.splitOn_append_cons_self_of_not_mem (hdot _), List.splitOn_eq_singleton (hpadded _)]
  dsimp only
  rw [read_decimal, Option.bind_some, read_zeroPadded, Option.map_some, hvalue]

end durations

/-! ### Rows -/

/-- What the row of a flow says; there are flags for TCP only. -/
structure TopFlow where
  rank : ℕ
  key : FlowKey
  firstFromB : Bool
  packets : UInt64
  bytes : UInt64
  millis : ℕ
  tcpFlags : Option UInt8
deriving DecidableEq, Repr

/-- What the row of a tunnel says. -/
structure TopTunnel where
  rank : ℕ
  key : FlowKey
  packets : UInt64
  bytes : UInt64
  millis : ℕ
deriving DecidableEq, Repr

def Flow.topFlow (f : Flow) (rank : ℕ) : TopFlow :=
  ⟨rank, f.key, f.firstFromB, f.packets, f.bytes, f.millis,
    if f.key.proto = ipprotoTcp then some f.tcpFlags else none⟩

def Flow.topTunnel (f : Flow) (rank : ℕ) : TopTunnel := ⟨rank, f.key, f.packets, f.bytes, f.millis⟩

/-- The key and the direction are those of a packet from the source to the destination. -/
def readTopFlow (line : Text) : Option TopFlow :=
  match Columns.words line.dropLast with
  | rank :: proto :: src :: dst :: packets :: bytes :: time :: _unit :: flags => do
      let rank ← Numeral.read 10 rank
      let proto ← readProto proto
      let (version, src) ← readEndpoint (hasPorts proto) src
      let (_, dst) ← readEndpoint (hasPorts proto) dst
      let (key, reversed) ← flowKeyFromPacket
        { hasL3 := true, ipVersion := version, ipProto := proto, srcAddr := src.1, dstAddr := dst.1
          srcPort := src.2, dstPort := dst.2 }
      let packets ← Numeral.read 10 packets
      let bytes ← Numeral.read 10 bytes
      let millis ← readMillis time
      some ⟨rank, key, reversed, .ofNat packets, .ofNat bytes, millis,
        if proto = ipprotoTcp then some (readTcpFlags flags.flatten) else none⟩
  | _ => none

def readTopTunnel (line : Text) : Option TopTunnel :=
  match Columns.words line.dropLast with
  | [rank, teid, src, dst, packets, bytes, time, _unit] => do
      let rank ← Numeral.read 10 rank
      let teid ← readHex teid
      let (version, src) ← readEndpoint false src
      let (_, dst) ← readEndpoint false dst
      let packets ← Numeral.read 10 packets
      let bytes ← Numeral.read 10 bytes
      let millis ← readMillis time
      some ⟨rank, { teid := .ofNat teid, ipVersion := version, proto := ipprotoUdp, addrA := src.1, addrB := dst.1 },
        .ofNat packets, .ofNat bytes, millis⟩
  | _ => none

section rows

variable {f : Flow} {cells : List Text}

theorem words_tableRow (cells : List Text) :
    Columns.words (tableRow cells).dropLast = (cells.map Columns.words).flatten := by
  unfold tableRow
  rw [List.dropLast_concat, Columns.words_row]

theorem words_rightAligned (n : ℕ) (s : Text) : Columns.words (rightAligned n s) = Columns.words s :=
  Columns.words_leftpad n s

theorem words_leftAligned (n : ℕ) (s : Text) : Columns.words (leftAligned n s) = Columns.words s :=
  Columns.words_rightpad n s

theorem words_decimal (n : ℕ) : Columns.words (decimal n) = [decimal n] :=
  Columns.words_word Nat.toDigits_ne_nil (Numeral.not_mem_toDigits (by decide) (by decide) (by decide))

theorem words_protoName (p : UInt8) : Columns.words (protoName p 8) = [protoName p 8] := by
  unfold protoName
  split_ifs
  · rfl
  · rfl
  · rfl
  · rfl
  · rw [cut_proto]
    exact words_decimal _

theorem mem_formatTcpFlags {flags : UInt8} {c : Char} (h : c ∈ formatTcpFlags flags) : c ∈ "FSRPAUEC".toList := by
  unfold formatTcpFlags at h
  obtain ⟨⟨letter, bit⟩, hmem, hbit⟩ := List.mem_filterMap.mp h
  have hin : letter ∈ "FSRPAUEC".toList := List.fst_mem_of_mem_zipIdx hmem
  dsimp only at hbit
  split at hbit
  · rwa [← Option.some.inj hbit]
  · cases hbit

theorem words_teid (n : ℕ) : Columns.words ("0x".toList ++ zeroPadded 8 (hexadecimal n)) =
    ["0x".toList ++ zeroPadded 8 (hexadecimal n)] := by
  apply Columns.words_word (by simp)
  have hdigits : ' ' ∉ hexadecimal n := Numeral.not_mem_toDigits (by decide) (by decide) (by decide)
  unfold zeroPadded List.leftpad
  simp [hdigits]

theorem words_duration (f : Flow) :
    Columns.words (duration f) = [millisText (f.lastTsNs - f.firstTsNs), ['s']] := by
  have hnumber : Columns.words (millisText (f.lastTsNs - f.firstTsNs)) = [millisText (f.lastTsNs - f.firstTsNs)] :=
    Columns.words_word (by simp [millisText]) (not_mem_millisText (by decide) (by decide))
  rw [duration_eq]
  show Columns.words (_ ++ ' ' :: ['s']) = _
  rw [Columns.words_append_blank, hnumber]
  rfl

theorem words_endpoint {ports : Bool} {s : Text} {e : UInt8 × Endpoint} (hread : readEndpoint ports s = some e)
    (hblank : ' ' ∉ s) : Columns.words s = [s] := by
  apply Columns.words_word _ hblank
  rintro rfl
  revert hread
  cases ports <;> exact nofun

theorem flowEndpoints_eq (f : Flow) (len : ℕ) : flowEndpoints f len =
    (formatEndpoint f.key f.source.1 f.source.2 len, formatEndpoint f.key f.dest.1 f.dest.2 len) := by
  unfold flowEndpoints Flow.source Flow.dest
  cases f.firstFromB <;> rfl

/-- **The row of a flow says what the flow is.** -/
theorem readTopFlow_topFlowRow (h : f.Recorded FlowKey.OfFlow) (hports : f.key.Ported f.firstFromB)
    (widths : ℕ × ℕ) (i : ℕ) : readTopFlow (topFlowRow widths i f) = some (f.topFlow (i + 1)) := by
  have haddr : f.key.Addressed := h.key.addressed
  have hsport : hasPorts f.key.proto = false → f.source.2 = 0 := by
    intro hno
    unfold Flow.source
    split
    · exact (hports hno).2
    · exact (hports hno).1
  have hdport : hasPorts f.key.proto = false → f.dest.2 = 0 := by
    intro hno
    unfold Flow.dest
    split
    · exact (hports hno).1
    · exact (hports hno).2
  have hsrc := readEndpoint_endpointText haddr.version (source_padded haddr) hsport
  have hdst := readEndpoint_endpointText haddr.version (dest_padded haddr) hdport
  have hword : ∀ {a : Addr} {port : UInt16} {e : UInt8 × Endpoint},
      readEndpoint (hasPorts f.key.proto) (endpointText f.key a port) = some e →
        Columns.words (endpointText f.key a port) = [endpointText f.key a port] := fun hread =>
    words_endpoint hread (not_mem_endpointText haddr.version (by decide) (by decide) (by decide) (by decide)
      (by decide))
  have hflags : (if f.key.proto = ipprotoTcp then some (readTcpFlags (Columns.words
      (if f.key.proto = ipprotoTcp then formatTcpFlags f.tcpFlags else cut 9 "-".toList)).flatten) else none) =
        if f.key.proto = ipprotoTcp then some f.tcpFlags else none := by
    split
    · rw [Columns.flatten_words fun h => absurd (mem_formatTcpFlags h) (by decide), readTcpFlags_formatTcpFlags]
    · rfl
  unfold readTopFlow topFlowRow
  rw [flowEndpoints_eq, formatEndpoint_eq haddr.version, formatEndpoint_eq haddr.version]
  dsimp only
  rw [words_tableRow]
  simp only [List.map_cons, List.map_nil, words_rightAligned, words_leftAligned, words_decimal, words_protoName,
    words_duration, hword hsrc, hword hdst, List.flatten_cons, List.flatten_nil, List.cons_append,
    List.nil_append, List.append_nil]
  simp only [read_decimal, readProto_protoName, hsrc, hdst, flowKey_of_ends h.key, readMillis_millisText h.times,
    Option.bind_eq_bind, Option.bind_some, UInt64.ofNat_toNat, hflags]
  rfl

theorem FlowKey.OfTunnel.eq {key : FlowKey} {reversed : Bool} (h : key.OfTunnel reversed) :
    ({ teid := key.teid, ipVersion := key.ipVersion, proto := ipprotoUdp, addrA := key.addrA
       addrB := key.addrB } : FlowKey) = key := by
  obtain ⟨-, hproto, hportA, hportB⟩ := h
  cases key
  cases hproto
  cases hportA
  cases hportB
  rfl

theorem readTopTunnel_topTunnelRow (h : f.Recorded FlowKey.OfTunnel) (widths : ℕ × ℕ) (i : ℕ) :
    readTopTunnel (topTunnelRow widths i f) = some (f.topTunnel (i + 1)) := by
  have haddr : f.key.Addressed := h.key.addressed
  have hsrc := readEndpoint_addrFormat haddr.version haddr.addrA
  have hdst := readEndpoint_addrFormat haddr.version haddr.addrB
  have hblank : ∀ a, ' ' ∉ addrFormat f.key.ipVersion.toNat a addrStrLen := fun a =>
    not_mem_addrFormat haddr.version (by decide) (by decide) (by decide)
  unfold readTopTunnel topTunnelRow tunnelEndpoints
  dsimp only
  rw [words_tableRow]
  simp only [List.map_cons, List.map_nil, words_rightAligned, words_leftAligned, words_decimal, words_teid,
    words_duration, words_endpoint hsrc (hblank _), words_endpoint hdst (hblank _), List.flatten_cons,
    List.flatten_nil, List.cons_append, List.nil_append, List.append_nil]
  simp only [read_decimal, readHex_zeroPadded, hsrc, hdst, readMillis_millisText h.times, Option.bind_eq_bind,
    Option.bind_some, UInt64.ofNat_toNat, UInt32.ofNat_toNat, h.key.eq]
  rfl

end rows

/-! ### Tables -/

/-- `w` is the greatest of `start` and the lengths. -/
structure Widest (start : ℕ) (lengths : List ℕ) (w : ℕ) : Prop where
  ge : start ≤ w
  le : ∀ l ∈ lengths, l ≤ w
  reached : w = start ∨ w ∈ lengths

/-- A line with the endpoints in two columns, behind columns of the widths `front`. -/
inductive TwoColumns (front : List ℕ) (widths : ℕ × ℕ) (src dst : Text) : Text → Prop
  | mk (cells behind : List Text) (hlen : cells.map List.length = front) : TwoColumns front widths src dst
      (tableRow (cells ++ leftAligned widths.1 src :: leftAligned widths.2 dst :: behind))

/-- The text is a blank line, a title, a header and a row for each of the entries `top`.  The rows say what the
entries are; the endpoints stand in columns that are as wide as the widest of them, unless there are ranks of
more than three digits. -/
structure TopTable {α : Type} (ends : Flow → Text × Text) (place : ℕ) (title : Text) (read : Text → Option α)
    (content : Flow → ℕ → α) (top : List Flow) (text header : Text) (rows : List Text) (srcW dstW : ℕ) :
    Prop where
  whole : text = (['\n'] :: title :: header :: rows).flatten
  lines : Csv.lines text = ['\n'] :: title :: header :: rows
  read : rows.map read = top.mapIdx fun i f => some (content f (i + 1))
  titles : Columns.Placed header "src".toList place ∧ Columns.Placed header "dst".toList (place + (srcW + 2))
  columns : ∀ i row f, i < 999 → rows[i]? = some row → top[i]? = some f →
    Columns.Placed row (ends f).1 place ∧ Columns.Placed row (ends f).2 (place + (srcW + 2))
  srcWidth : Widest 3 (top.map fun f => (ends f).1.length) srcW
  dstWidth : Widest 3 (top.map fun f => (ends f).2.length) dstW

/-- The text shows the first `n` entries of the ranking of `t`; if there are none, it is empty. -/
def ShowsTop {α : Type} (t : FlowTable) (n : ℕ) (ends : Flow → Text × Text) (place : ℕ)
    (title : ℕ → ℕ → Text)
    (read : Text → Option α) (content : Flow → ℕ → α) (text : Text) : Prop :=
  ∃ ranking, Ranking t ranking ∧ (ranking.take n = [] → text = []) ∧ (ranking.take n ≠ [] →
    ∃ header rows srcW dstW, TopTable ends place (title (ranking.take n).length t.count) read content
      (ranking.take n) text header rows srcW dstW)

/-- The text shows flows. -/
def ShowsTopFlows (t : FlowTable) (n : ℕ) (text : Text) : Prop :=
  ShowsTop t n (fun f => flowEndpoints f endpointStrLen) 13 topFlowTitle readTopFlow Flow.topFlow text

/-- The text shows tunnels. -/
def ShowsTopTunnels (t : FlowTable) (n : ℕ) (text : Text) : Prop :=
  ShowsTop t n (fun f => tunnelEndpoints f addrStrLen) 17 topTunnelTitle readTopTunnel Flow.topTunnel text

section tables

variable {start l w srcW dstW : ℕ} {lengths front : List ℕ} {widths : ℕ × ℕ} {src dst line : Text}
  {cells : List Text} {ends : Flow → Text × Text} {top : List Flow}

theorem Widest.cons (h : Widest (if l > start then l else start) lengths w) : Widest start (l :: lengths) w := by
  obtain ⟨hstart, hle, hreached⟩ := h
  refine ⟨?_, ?_, ?_⟩
  · split at hstart <;> omega
  · rw [List.forall_mem_cons]
    refine ⟨?_, hle⟩
    split at hstart <;> omega
  · rcases hreached with rfl | hmem
    · split
      · exact .inr List.mem_cons_self
      · exact .inl rfl
    · exact .inr (List.mem_cons_of_mem _ hmem)

theorem columnWidths_widest (ends : Flow → Text × Text) (top : List Flow) (widths : ℕ × ℕ) :
    Widest widths.1 (top.map fun f => (ends f).1.length) (columnWidths ends widths top).1 ∧
      Widest widths.2 (top.map fun f => (ends f).2.length) (columnWidths ends widths top).2 := by
  induction top generalizing widths with
  | nil => exact ⟨⟨le_refl _, nofun, .inl rfl⟩, ⟨le_refl _, nofun, .inl rfl⟩⟩
  | cons f top ih =>
      obtain ⟨hsrc, hdst⟩ := ih (if (ends f).1.length > widths.1 then (ends f).1.length else widths.1,
        if (ends f).2.length > widths.2 then (ends f).2.length else widths.2)
      exact ⟨hsrc.cons, hdst.cons⟩

theorem TwoColumns.placed (h : TwoColumns front widths src dst line) (hsrc : src.length ≤ widths.1) :
    Columns.Placed line src (Columns.place front) ∧
      Columns.Placed line dst (Columns.place front + (widths.1 + 2)) := by
  obtain ⟨cells, behind, hlen⟩ := h
  refine ⟨Columns.placed_row hlen _ _ _ _, ?_⟩
  have hlen' : (cells ++ [leftAligned widths.1 src]).map List.length = front ++ [widths.1] := by
    rw [List.map_append, hlen, List.map_singleton]
    exact congrArg (front ++ [·]) (Columns.length_rightpad hsrc)
  have hplace : Columns.place front + (widths.1 + 2) = Columns.place (front ++ [widths.1]) := by
    simp [Columns.place]
  have hsplit : cells ++ leftAligned widths.1 src :: leftAligned widths.2 dst :: behind =
      (cells ++ [leftAligned widths.1 src]) ++ leftAligned widths.2 dst :: behind := by simp
  rw [hplace, hsplit]
  exact Columns.placed_row hlen' _ _ _ _

theorem isLine_tableRow (h : ∀ c ∈ cells, '\n' ∉ c) : Csv.IsLine (tableRow cells) :=
  ⟨Columns.row cells, rfl, Columns.not_mem_row (by decide) h⟩

/-- **What is printed is a table.** -/
theorem topReport_table {α : Type} {title : ℕ → ℕ → Text} {header : ℕ × ℕ → Text}
    {row : ℕ × ℕ → ℕ → Flow → Text}
    {read : Text → Option α} {content : Flow → ℕ → α} (htop : top ≠ []) (count : ℕ)
    (htitle : ∀ n m, Csv.IsLine (title n m))
    (hheader : ∀ widths, Csv.IsLine (header widths) ∧
      TwoColumns front widths "src".toList "dst".toList (header widths))
    (hrow : ∀ widths i, ∀ f ∈ top, Csv.IsLine (row widths i f) ∧
      (i < 999 → TwoColumns front widths (ends f).1 (ends f).2 (row widths i f)))
    (hread : ∀ widths i, ∀ f ∈ top, read (row widths i f) = some (content f (i + 1))) :
    ∃ header' rows srcW dstW, TopTable ends (Columns.place front) (title top.length count) read content top
      (topReport ends title header row top count) header' rows srcW dstW := by
  obtain ⟨hsrc, hdst⟩ := columnWidths_widest ends top (3, 3)
  have htext : topReport ends title header row top count =
      (['\n'] :: title top.length count :: header (columnWidths ends (3, 3) top) ::
        top.mapIdx (row (columnWidths ends (3, 3) top))).flatten := by
    unfold topReport
    rw [if_neg fun h => htop (List.eq_nil_of_length_eq_zero h)]
    simp
  generalize columnWidths ends (3, 3) top = widths at hsrc hdst htext
  refine ⟨header widths, top.mapIdx (row widths), widths.1, widths.2, htext, ?_, ?_, ?_, ?_, hsrc, hdst⟩
  · rw [htext]
    apply Csv.lines_flatten
    intro l hl
    rcases List.mem_cons.mp hl with rfl | hl
    · exact ⟨[], rfl, List.not_mem_nil⟩
    rcases List.mem_cons.mp hl with rfl | hl
    · exact htitle _ _
    rcases List.mem_cons.mp hl with rfl | hl
    · exact (hheader widths).1
    · obtain ⟨i, hi, rfl⟩ := List.mem_mapIdx.mp hl
      exact (hrow widths i _ (List.getElem_mem hi)).1
  · apply List.ext_getElem (by simp)
    intro i hi hi'
    simp only [List.getElem_map, List.getElem_mapIdx]
    exact hread widths i _ (List.getElem_mem _)
  · exact (hheader widths).2.placed hsrc.ge
  · intro i line f hi hline hf
    rw [List.getElem?_mapIdx, hf, Option.map_some, Option.some.injEq] at hline
    obtain rfl := hline
    have hmem : f ∈ top := List.mem_of_getElem? hf
    exact ((hrow widths i f hmem).2 hi).placed (hsrc.le _ (List.mem_map_of_mem hmem))

end tables

section lines

variable {f : Flow} {i n : ℕ} {s : Text} {widths : ℕ × ℕ}

theorem not_mem_aligned (h : '\n' ∉ s) : '\n' ∉ rightAligned n s ∧ '\n' ∉ leftAligned n s := by
  unfold rightAligned leftAligned List.leftpad List.rightpad
  simp [h]

theorem isLine_title (behind : Text) (n m : ℕ) (hbehind : '\n' ∉ behind) :
    Csv.IsLine ("Top ".toList ++ decimal n ++ " of ".toList ++ decimal m ++ (behind ++ ['\n'])) := by
  refine ⟨"Top ".toList ++ decimal n ++ " of ".toList ++ decimal m ++ behind, by simp, ?_⟩
  simp [hbehind, (clean_decimal n).2, (clean_decimal m).2]

theorem topFlowTitle_line (n m : ℕ) : Csv.IsLine (topFlowTitle n m) :=
  isLine_title " flows by bytes (src = sender of the first packet seen):".toList n m (by decide)

theorem topTunnelTitle_line (n m : ℕ) : Csv.IsLine (topTunnelTitle n m) :=
  isLine_title " GTP-U tunnels by bytes (one direction each; the receiver chose the TEID):".toList n m (by decide)

theorem length_rank (hi : i < 999) : (rightAligned 3 (decimal (i + 1))).length = 3 :=
  Columns.length_leftpad ((Nat.length_toDigits_le_iff (by decide) (by decide)).mpr (by omega))

theorem length_protoName (p : UInt8) : (leftAligned 6 (protoName p 8)).length = 6 := by
  apply Columns.length_rightpad
  unfold protoName
  split_ifs
  · decide
  · decide
  · decide
  · decide
  · rw [cut_proto]
    exact (length_octet_le p.toNat_lt).trans (by decide)

theorem length_teid (teid : UInt32) : (zeroPadded 8 (hexadecimal teid.toNat)).length = 8 := by
  have hlt : teid.toNat < 16 ^ 8 := teid.toNat_lt
  exact Numeral.length_leftpad (by decide) (by decide) hlt

theorem newline_not_mem_duration (f : Flow) : '\n' ∉ duration f := by
  rw [duration_eq, List.mem_append]
  exact not_or.mpr ⟨not_mem_millisText (by decide) (by decide), by decide⟩

/-- The row of a flow is one line, and its endpoints stand behind the rank and the protocol. -/
theorem topFlowRow_line (h : f.key.Addressed) (widths : ℕ × ℕ) (i : ℕ) : Csv.IsLine (topFlowRow widths i f) ∧
    (i < 999 → TwoColumns [3, 6] widths (flowEndpoints f endpointStrLen).1 (flowEndpoints f endpointStrLen).2
      (topFlowRow widths i f)) := by
  have hend : ∀ a port, '\n' ∉ formatEndpoint f.key a port endpointStrLen := by
    intro a port
    rw [formatEndpoint_eq h.version]
    exact not_mem_endpointText h.version (by decide) (by decide) (by decide) (by decide) (by decide)
  have hflags : '\n' ∉ if f.key.proto = ipprotoTcp then formatTcpFlags f.tcpFlags else cut 9 "-".toList := by
    split
    · exact (clean_formatTcpFlags _).2
    · decide
  constructor
  · unfold topFlowRow
    rw [flowEndpoints_eq]
    apply isLine_tableRow
    simp only [List.forall_mem_cons, List.not_mem_nil, false_imp_iff, implies_true, and_true]
    exact ⟨(not_mem_aligned (clean_decimal _).2).1, (not_mem_aligned (clean_protoName _).2).2,
      (not_mem_aligned (hend _ _)).2, (not_mem_aligned (hend _ _)).2, (not_mem_aligned (clean_decimal _).2).1,
      (not_mem_aligned (clean_decimal _).2).1, (not_mem_aligned (newline_not_mem_duration f)).1, hflags⟩
  · intro hi
    apply TwoColumns.mk [_, _] [_, _, _, _]
    simp [length_rank hi, length_protoName]

/-- The row of a tunnel is one line, and its endpoints stand behind the rank and the TEID. -/
theorem topTunnelRow_line (h : f.key.Addressed) (widths : ℕ × ℕ) (i : ℕ) :
    Csv.IsLine (topTunnelRow widths i f) ∧
    (i < 999 → TwoColumns [3, 10] widths (tunnelEndpoints f addrStrLen).1 (tunnelEndpoints f addrStrLen).2
      (topTunnelRow widths i f)) := by
  constructor
  · apply isLine_tableRow
    simp only [List.forall_mem_cons, List.not_mem_nil, false_imp_iff, implies_true, and_true]
    exact ⟨(not_mem_aligned (clean_decimal _).2).1, (clean_teid _ _).2,
      (not_mem_aligned (clean_addrFormat h.version).2).2, (not_mem_aligned (clean_addrFormat h.version).2).2,
      (not_mem_aligned (clean_decimal _).2).1, (not_mem_aligned (clean_decimal _).2).1,
      (not_mem_aligned (newline_not_mem_duration f)).1⟩
  · intro hi
    apply TwoColumns.mk [_, _] [_, _, _]
    simp [length_rank hi, length_teid]

theorem topFlowHeader_line (widths : ℕ × ℕ) : Csv.IsLine (topFlowHeader widths) ∧
    TwoColumns [3, 6] widths "src".toList "dst".toList (topFlowHeader widths) := by
  constructor
  · apply isLine_tableRow
    simp only [List.forall_mem_cons, List.not_mem_nil, false_imp_iff, implies_true, and_true]
    exact ⟨by decide, by decide, (not_mem_aligned (by decide)).2, (not_mem_aligned (by decide)).2, by decide,
      by decide, by decide, by decide⟩
  · exact TwoColumns.mk [_, _] [_, _, _, _] rfl

theorem topTunnelHeader_line (widths : ℕ × ℕ) : Csv.IsLine (topTunnelHeader widths) ∧
    TwoColumns [3, 10] widths "src".toList "dst".toList (topTunnelHeader widths) := by
  constructor
  · apply isLine_tableRow
    simp only [List.forall_mem_cons, List.not_mem_nil, false_imp_iff, implies_true, and_true]
    exact ⟨by decide, by decide, (not_mem_aligned (by decide)).2, (not_mem_aligned (by decide)).2, by decide,
      by decide, by decide⟩
  · exact TwoColumns.mk [_, _] [_, _, _] rfl

end lines

/-! ### The theorem -/

section print

variable {w : ℕ} {t : FlowTable}

theorem printTop_eq (h : t.Inv w) (qsort : Qsort) (n : ℕ) (tunnels : Bool) {ranking : List Flow}
    (hranking : Ranking t ranking) : printTop qsort t n tunnels true =
      some (if tunnels then reportTopTunnels (ranking.take n) t.count
        else reportTopFlows (ranking.take n) t.count) := by
  have hlen : ranking.length = t.count := by rw [hranking.perm.length_eq, h.count]
  have hmin : ranking.take (if n < t.count then n else t.count) = ranking.take n := by
    split
    · rfl
    · rw [List.take_of_length_le (by omega), List.take_of_length_le (by omega)]
  unfold printTop
  dsimp only
  by_cases hzero : (if n < t.count then n else t.count) = 0
  · rw [if_pos hzero]
    rw [hzero, List.take_zero] at hmin
    rw [← hmin]
    cases tunnels <;> rfl
  · rw [if_neg hzero, (h.topN qsort _).first _ hranking, hmin]
    rfl

/-- **The tables that are printed after an analysis are lossless**, up to milliseconds, and they line up. -/
theorem topTables_lossless {ok : ℕ → Grants} {okFlows okTunnels okFrags : Bool} {a a' : Analysis}
    {r r' : PcapReader} {st : PcapStatus} (hinit : analysisInit w okFlows okTunnels okFrags = some (some a))
    (hrun : analysisRun w ok a r = some (a', r', st)) (qsort : Qsort) (n : ℕ) :
    (∃ text, printTop qsort a'.flows n false true = some text ∧ ShowsTopFlows a'.flows n text) ∧
      ∃ text, printTop qsort a'.tunnels n true true = some text ∧ ShowsTopTunnels a'.tunnels n text := by
  have h := analysisRun_recorded hinit hrun
  have hported := analysisRun_ported hinit hrun
  constructor
  · have hranking := h.inv.flows.reported qsort
    refine ⟨_, printTop_eq h.inv.flows qsort n false hranking, _, hranking, ?_, fun hne => ?_⟩
    · intro hnil
      rw [hnil]
      rfl
    have hmem : ∀ f ∈ ((flowTableTopN a'.flows qsort a'.flows.count).map a'.flows.slot).take n,
        f ∈ a'.flows.entries := fun f hf => hranking.perm.mem_iff.mp (List.mem_of_mem_take hf)
    apply topReport_table hne _ topFlowTitle_line topFlowHeader_line
    · exact fun widths i f hf => topFlowRow_line (h.flows f (hmem f hf)).key.addressed widths i
    · exact fun widths i f hf => readTopFlow_topFlowRow (h.flows f (hmem f hf)) (hported f (hmem f hf)) widths i
  · have hranking := h.inv.tunnels.reported qsort
    refine ⟨_, printTop_eq h.inv.tunnels qsort n true hranking, _, hranking, ?_, fun hne => ?_⟩
    · intro hnil
      rw [hnil]
      rfl
    have hmem : ∀ f ∈ ((flowTableTopN a'.tunnels qsort a'.tunnels.count).map a'.tunnels.slot).take n,
        f ∈ a'.tunnels.entries := fun f hf => hranking.perm.mem_iff.mp (List.mem_of_mem_take hf)
    apply topReport_table hne _ topTunnelTitle_line topTunnelHeader_line
    · exact fun widths i f hf => topTunnelRow_line (h.tunnels f (hmem f hf)).key.addressed widths i
    · exact fun widths i f hf => readTopTunnel_topTunnelRow (h.tunnels f (hmem f hf)) widths i

theorem topTables_lossless_talk : ∃ a a' r', analysisInit 64 true true true = some (some a) ∧
    analysisRun 64 (fun _ => ⟨true, true⟩) a talk = some (a', r', .eof) ∧
    ((∃ text, printTop default a'.flows 1 false true = some text ∧ ShowsTopFlows a'.flows 1 text) ∧
      ∀ ranking, Ranking a'.flows ranking → ranking.map Flow.bytes = [210, 60]) ∧
    (∃ text, printTop default a'.tunnels 10 true true = some text ∧ ShowsTopTunnels a'.tunnels 10 text) ∧
      ∀ ranking, Ranking a'.tunnels ranking → ranking.map Flow.bytes = [140, 70] := by
  obtain ⟨a, a', r', hinit, hrun, hbytes⟩ := exists_talk
  obtain ⟨hflows, htunnels⟩ := Prod.mk.inj hbytes
  refine ⟨a, a', r', hinit, hrun, ⟨(topTables_lossless hinit hrun default 1).1, fun ranking h => ?_⟩,
    (topTables_lossless hinit hrun default 10).2, fun ranking h => ?_⟩
  · exact h.bytes_eq (hflows ▸ .refl _) (by decide)
  · exact h.bytes_eq (htunnels ▸ .swap _ _ _) (by decide)

end print

end Pcapstat
