import Pcapstat.Frag
import Pcapstat.PcapReader
import Pcapstat.Stats

/-! # The pipeline (`analyze.h`, `analyze.c`)

Read, decode, count.  As in `Flow.lean`, `w` is the width of `size_t`, the answers of the
allocator are arguments, and the outer `Option` of a result is `none` for a call that does not
return. -/

namespace Pcapstat

/-- `struct analysis` -/
structure Analysis where
  stats : Stats
  flows : FlowTable
  tunnels : FlowTable
  frags : FragCache

def initialFlowSlots : ℕ := 1024
def initialTunnelSlots : ℕ := 64

/-- `analysis_init`: `none` inside when it returns -1. -/
def analysisInit (w : ℕ) (okFlows okTunnels okFrags : Bool) : Option (Option Analysis) := do
  let (flows, ok) ← flowTableInit w initialFlowSlots okFlows
  if !ok then some none
  else do
    let (tunnels, ok) ← flowTableInit w initialTunnelSlots okTunnels
    if !ok then some none
    else
      let (frags, ok) := fragCacheInit okFrags
      if !ok then some none else some (some ⟨statsInit, flows, tunnels, frags⟩)

/-- The answers of the allocator during one call of `analysis_account`. -/
structure Grants where
  flows : Bool
  tunnels : Bool
deriving DecidableEq, Repr

/-- Is the packet added to the table of tunnels? -/
def joinsTunnel (pi : PacketInfo) : Bool :=
  pi.isGtpu && pi.gtpV1u && pi.gtpMsgOk && pi.gtpMsgType = gtpuMsgGpdu

/-- `analysis_account`; the second component is false when it returns -1. -/
def analysisAccount (w : ℕ) (a : Analysis) (pi : PacketInfo) (caplen wirelen : UInt32) (tsNs : UInt64)
    (ok : Grants) : Option (Analysis × Bool) := do
  let (frags, pi, matched) := fragCacheApply w a.frags pi
  let stats := if matched then { a.stats with fragMatched := a.stats.fragMatched + 1 } else a.stats
  let a := { a with frags := frags, stats := statsAdd stats pi caplen wirelen tsNs }
  if pi.status ≠ .ok then some (a, true)
  else do
    let (flows, added) ← flowTableAddPacket w a.flows pi wirelen tsNs ok.flows
    let a := { a with flows := flows }
    if !added then some (a, false)
    else if joinsTunnel pi then do
      let (tunnels, added) ← flowTableAddTunnel w a.tunnels pi wirelen tsNs ok.tunnels
      some ({ a with tunnels := tunnels }, added)
    else some (a, true)

/-- `decode_frame(rec.data, rec.caplen, rec.wirelen, &pi)` -/
def PcapRecord.decode (rec : PcapRecord) : PacketInfo :=
  decodeFrame (rec.data.getD {}).mem rec.caplen.toNat rec.wirelen.toNat

/-- The loop of `analysis_run`, for at most `fuel` records; `ok i` answers the `i`-th call of
`analysis_account`. -/
def analysisLoop (w : ℕ) (ok : ℕ → Grants) : (fuel i : ℕ) → Analysis → PcapReader →
    Option (Analysis × PcapReader × PcapStatus)
  | 0, _, _, _ => none
  | fuel + 1, i, a, r => do
      let (r, st, rec) := pcapNext r
      if st ≠ .ok then some (a, r, st)
      else do
        let (a, added) ← analysisAccount w a rec.decode rec.caplen rec.wirelen rec.tsNs (ok i)
        if !added then some (a, r, .errNomem) else analysisLoop w ok fuel (i + 1) a r

/-- `analysis_run`: every record takes at least one byte of the input. -/
def analysisRun (w : ℕ) (ok : ℕ → Grants) (a : Analysis) (r : PcapReader) :
    Option (Analysis × PcapReader × PcapStatus) :=
  analysisLoop w ok (r.left + 1) 0 a r

end Pcapstat
