import Pcapstat.Analyze
import Pcapstat.Checked
import Pcapstat.Summary

/-! # The fuzzer (`fuzz_decode.c`)

The test program of the repository, with all the checks it makes.  Its random numbers are its input here: the
bytes of a frame or of a file after the mutations (`FuzzInput`, `FuzzFile`), and the bytes behind a frame that the
decoder must not look at.  A check that fails ends the run (`fail`), as in the source.

Left out are the mutations themselves and the counters that are only printed.  `inet_ntop`, which an address is
compared with, is a parameter.  The memory of the fuzzer itself is granted, and a temporary file is read back as it
was written. -/

namespace Pcapstat

open SpanWalk Checked

def maxFrame : ℕ := 2048

/-- The size of its buffer for a frame. -/
def workSize : ℕ := maxFrame + 64

/-! ### Invariants -/

/-- The analysis, and of `struct totals` what a check reads. -/
structure Fuzz where
  an : Analysis
  tunnelGpdus : UInt64

def tableOutOfMemory : Text := "flow table out of memory".toList

/-- `account` of `fuzz_decode.c` -/
def Fuzz.account (w : ℕ) (s : Fuzz) (pi : PacketInfo) (caplen wirelen : UInt32) (tsNs : UInt64) (ok : Grants) :
    Checked Text Fuzz := do
  let tunnelGpdus := if pi.isGtpu && pi.gtpMsgOk && pi.gtpMsgType = gtpuMsgGpdu then s.tunnelGpdus + 1
    else s.tunnelGpdus
  let (an, added) ← call (analysisAccount w s.an pi caplen wirelen tsNs ok)
  check (!added) tableOutOfMemory
  pure ⟨an, tunnelGpdus⟩

/-- A file after its mutations; `past i` and `ok i` belong to its `i`-th record. -/
structure FuzzFile where
  bytes : List UInt8
  past : ℕ → List UInt8
  ok : ℕ → Grants

/-- What an iteration draws: a frame after its mutations, by how much it claims to have been longer on the wire,
the bytes behind it, a file, and an address. -/
structure FuzzInput where
  frame : List UInt8
  extra : ℕ
  past : List UInt8
  ok : Grants
  file : FuzzFile
  addr : Addr
  length_frame : frame.length ≤ workSize
  extra_lt : extra < 3000

def noCsvFile : Text := "cannot create temporary file for CSV".toList
def csvFailed : Text := "CSV write failed".toList

def noReportFile : Text := "cannot create temporary file for reports".toList
def gtpuReportFailed : Text := "GTP-U report failed".toList
def reportFailed : Text := "report write failed".toList

end Pcapstat
