import Pcapstat.Bytes

/-! # The pcap reader (`pcap_reader.h`, `pcap_reader.c`)

A reader delivers the records of a capture file one by one, from memory or from a stream.

* A pointer to bytes (`Ptr`) is the block it points into and an offset.
* A `Stream` holds the bytes the operating system has not delivered yet, and whether the end
  of these is the end of the file or a read error.  The sizes asked of it are kept in `asks`.
* `errno` and its copy `sys_errno` are left out.
* The parts of `*rec` that a call does not write are zero in its result. -/

namespace Pcapstat

open SpanWalk

/-! ### Input -/

/-- `const uint8_t *` -/
structure Ptr where
  base : List UInt8 := []
  off : ℕ := 0
deriving DecidableEq, Repr

namespace Ptr

/-- `p[i]` -/
def byte (p : Ptr) (i : ℕ) : UInt8 := p.base.getD (p.off + i) 0

/-- The memory behind the pointer. -/
def mem (p : Ptr) : Mem := fun i => p.byte i

/-- The first `n` bytes behind the pointer. -/
def bytes (p : Ptr) (n : ℕ) : List UInt8 := (p.base.drop p.off).take n

theorem byte_eq (p : Ptr) {n j : ℕ} (hj : j < n) : p.byte j = (p.bytes n).getD j 0 := by
  unfold byte bytes
  rw [List.getD_eq_getElem?_getD, List.getD_eq_getElem?_getD, List.getElem?_take_of_lt hj, List.getElem?_drop]

end Ptr

/-- `FILE *` opened for reading. -/
structure Stream where
  rest : List UInt8
  broken : Bool := false
  error : Bool := false
  asks : List ℕ := []
deriving DecidableEq, Repr

/-- `fread(buf, 1, n, fp)`: the bytes read. -/
def fread (fp : Stream) (n : ℕ) : Stream × List UInt8 :=
  ({ fp with
    rest := fp.rest.drop n
    error := fp.error || fp.rest.length < n && fp.broken
    asks := n :: fp.asks }, fp.rest.take n)

/-! ### Data -/

def pcapGlobalHdrLen : ℕ := 24
def pcapRecordHdrLen : ℕ := 16
def pcapMaxCaplen : ℕ := 262144
def pcapLinktypeEthernet : UInt32 := 1

def magicUsec : UInt32 := 0xA1B2C3D4
def magicNsec : UInt32 := 0xA1B23C4D
def magicUsecSwapped : UInt32 := 0xD4C3B2A1
def magicNsecSwapped : UInt32 := 0x4D3CB2A1
def magicPcapng : UInt32 := 0x0A0D0D0A
def linktypeMask : UInt32 := 0x03FFFFFF

/-- `enum pcap_status` -/
inductive PcapStatus where
  | ok | eof | errOpen | errIo | errNomem | errShortHeader | errBadMagic | errPcapng | errBadVersion
  | errBadLinktype | errTruncRecordHdr | errTruncRecord | errBadCaplen
deriving DecidableEq, Repr

/-- `struct pcap_file_info` -/
structure PcapFileInfo where
  bigEndian : Bool := false
  nsec : Bool := false
  versionMajor : UInt16 := 0
  versionMinor : UInt16 := 0
  snaplen : UInt32 := 0
  linktype : UInt32 := 0
deriving DecidableEq, Repr

/-- `struct pcap_record` -/
structure PcapRecord where
  tsNs : UInt64 := 0
  caplen : UInt32 := 0
  wirelen : UInt32 := 0
  data : Option Ptr := none
deriving DecidableEq, Repr

/-- `struct pcap_reader` -/
structure PcapReader where
  fp : Option Stream := none
  mem : List UInt8 := []
  memLen : ℕ := 0
  memPos : ℕ := 0
  buf : List UInt8 := []
  info : PcapFileInfo := {}
  records : UInt64 := 0
  error : PcapStatus := .ok
deriving DecidableEq, Repr

/-! ### Headers -/

/-- `rd32(p + i, big_endian)` -/
def rd32 (p : Ptr) (i : ℕ) (bigEndian : Bool) : UInt32 :=
  if bigEndian then loadBe32 (p.byte i) (p.byte (i + 1)) (p.byte (i + 2)) (p.byte (i + 3))
  else loadLe32 (p.byte i) (p.byte (i + 1)) (p.byte (i + 2)) (p.byte (i + 3))

/-- `rd16(p + i, big_endian)` -/
def rd16 (p : Ptr) (i : ℕ) (bigEndian : Bool) : UInt16 :=
  if bigEndian then loadBe16 (p.byte i) (p.byte (i + 1)) else loadLe16 (p.byte i) (p.byte (i + 1))

/-- The `switch` on the magic number: byte order and resolution. -/
def parseMagic (magic : UInt32) : Except PcapStatus (Bool × Bool) :=
  if magic = magicUsec then .ok (false, false)
  else if magic = magicNsec then .ok (false, true)
  else if magic = magicUsecSwapped then .ok (true, false)
  else if magic = magicNsecSwapped then .ok (true, true)
  else if magic = magicPcapng then .error .errPcapng
  else .error .errBadMagic

def pcapParseGlobalHeader (hdr : Ptr) (len : ℕ) : PcapFileInfo × PcapStatus :=
  if len < 4 then ({}, .errShortHeader)
  else
    match parseMagic (rd32 hdr 0 false) with
    | .error st => ({}, st)
    | .ok (be, nsec) =>
        if len < pcapGlobalHdrLen then ({ bigEndian := be, nsec := nsec }, .errShortHeader)
        else
          let info : PcapFileInfo :=
            { bigEndian := be
              nsec := nsec
              versionMajor := rd16 hdr 4 be
              versionMinor := rd16 hdr 6 be
              snaplen := rd32 hdr 16 be
              linktype := rd32 hdr 20 be &&& linktypeMask }
          if info.versionMajor ≠ 2 ∨ info.versionMinor ≠ 4 then (info, .errBadVersion)
          else if info.linktype ≠ pcapLinktypeEthernet then (info, .errBadLinktype)
          else (info, .ok)

def pcapParseRecordHeader (info : PcapFileInfo) (hdr : Ptr) : PcapRecord × PcapStatus :=
  let be := info.bigEndian
  let sec := rd32 hdr 0 be
  let frac := rd32 hdr 4 be
  let caplen := rd32 hdr 8 be
  let wirelen := rd32 hdr 12 be
  if caplen.toNat > pcapMaxCaplen then ({ caplen := caplen, wirelen := wirelen }, .errBadCaplen)
  else
    let wirelen := if wirelen < caplen then caplen else wirelen
    let fracNs := if info.nsec then frac.toUInt64 else frac.toUInt64 * 1000
    ({ caplen := caplen, wirelen := wirelen, tsNs := sec.toUInt64 * 1000000000 + fracNs }, .ok)

/-! ### Reading -/

/-- `take`: a pointer to the next `n` bytes, or null, and `*got`. -/
def take (r : PcapReader) (n : ℕ) : PcapReader × Option Ptr × ℕ :=
  match r.fp with
  | some fp =>
      let (fp, bs) := fread fp n
      let buf := bs ++ r.buf.drop bs.length
      ({ r with fp := some fp, buf := buf }, if bs.length = n then some ⟨buf, 0⟩ else none, bs.length)
  | none =>
      let left := r.memLen - r.memPos
      if n > left then ({ r with memPos := r.memLen }, none, left)
      else ({ r with memPos := r.memPos + n }, some ⟨r.mem, r.memPos⟩, n)

/-- How many bytes of input have not been taken. -/
def PcapReader.left (r : PcapReader) : ℕ :=
  match r.fp with
  | some fp => fp.rest.length
  | none => r.memLen - r.memPos

/-- `short_read_status` -/
def shortReadStatus (r : PcapReader) (atEof : PcapStatus) : PcapStatus :=
  match r.fp with
  | some fp => if fp.error then .errIo else atEof
  | none => atEof

def readGlobalHeader (r : PcapReader) : PcapReader × PcapStatus :=
  match take r pcapGlobalHdrLen with
  | (r, none, got) =>
      let st := shortReadStatus r .errShortHeader
      if st = .errShortHeader ∧ got ≥ 4 then
        let partialHdr : Ptr := ⟨if r.fp.isSome then r.buf else r.mem, 0⟩
        (r, (pcapParseGlobalHeader partialHdr got).2)
      else (r, st)
  | (r, some hdr, _) =>
      let (info, st) := pcapParseGlobalHeader hdr pcapGlobalHdrLen
      ({ r with info := info }, st)

/-- `pcap_open_stream`; `ok` is the answer of `malloc`. -/
def pcapOpenStream (fp : Option Stream) (ok : Bool) : PcapReader × PcapStatus :=
  match fp with
  | none => ({ error := .errOpen }, .errOpen)
  | some fp =>
      let r : PcapReader := { fp := some fp }
      let (r, st) := if ok then readGlobalHeader r else (r, .errNomem)
      if st ≠ .ok then ({ error := st }, st) else (r, st)

/-- `pcap_open_mem`; the length is that of `data`. -/
def pcapOpenMem (data : List UInt8) : PcapReader × PcapStatus :=
  let r : PcapReader := { mem := data, memLen := data.length }
  let (r, st) := readGlobalHeader r
  if st ≠ .ok then ({ r with error := st }, st) else (r, st)

def pcapNext (r : PcapReader) : PcapReader × PcapStatus × PcapRecord :=
  if r.error ≠ .ok then (r, r.error, {})
  else
    match take r pcapRecordHdrLen with
    | (r, none, got) =>
        let st := shortReadStatus r (if got = 0 then .eof else .errTruncRecordHdr)
        ({ r with error := st }, st, {})
    | (r, some p, _) =>
        let (rec, st) := pcapParseRecordHeader r.info p
        if st ≠ .ok then ({ r with error := st }, st, rec)
        else
          match take r rec.caplen.toNat with
          | (r, none, _) =>
              let st := shortReadStatus r .errTruncRecord
              ({ r with error := st }, st, rec)
          | (r, some p, _) => ({ r with records := r.records + 1 }, .ok, { rec with data := some p })

end Pcapstat
