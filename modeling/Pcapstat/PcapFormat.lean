import Pcapstat.PcapWriter
import Pcapstat.Run

/-! # Reading a capture file that was written

What a reader returns depends on the bytes it has not taken yet (`PcapReader.rest`), whether
these are in memory or come from a stream.  `pcap_next` on a complete record returns the record
and stands behind it; on anything shorter it stops with the status that names the place. -/

namespace Pcapstat

/-! ### Readers -/

/-- The bytes that have not been taken. -/
def PcapReader.rest (r : PcapReader) : List UInt8 :=
  match r.fp with
  | some fp => fp.rest
  | none => (r.mem.take r.memLen).drop r.memPos

/-- No read error has happened or will. -/
def PcapReader.Sound (r : PcapReader) : Prop :=
  match r.fp with
  | some fp => fp.broken = false ∧ fp.error = false
  | none => r.memLen = r.mem.length ∧ r.memPos ≤ r.memLen

/-- The reader has read the global header of a file. -/
structure Ready (be nsec : Bool) (r : PcapReader) : Prop where
  sound : r.Sound
  error : r.error = .ok
  bigEndian : r.info.bigEndian = be
  nsec : r.info.nsec = nsec

/-- `take` on a sound reader. -/
structure Taken (r : PcapReader) (n : ℕ) (r' : PcapReader) : Prop where
  sound : r'.Sound
  error : r'.error = r.error
  info : r'.info = r.info
  rest : r'.rest = r.rest.drop n

section take

variable {r : PcapReader} {n : ℕ}

theorem take_full (h : r.Sound) (hn : n ≤ r.rest.length) : ∃ r' p, take r n = (r', some p, n) ∧
    Taken r n r' ∧ p.bytes n = r.rest.take n := by
  cases hfp : r.fp with
  | some fp =>
      simp only [PcapReader.Sound, PcapReader.rest, hfp] at h hn
      have hlen : (fp.rest.take n).length = n := List.length_take_of_le hn
      rw [take, hfp]
      simp only [fread, hlen, if_true]
      refine ⟨_, _, rfl, ⟨⟨h.1, ?_⟩, rfl, rfl, ?_⟩, ?_⟩
      · rw [h.1, h.2]
        simp
      · simp only [PcapReader.rest, hfp]
      · rw [PcapReader.rest, hfp]
        exact List.take_left' hlen
  | none =>
      simp only [PcapReader.Sound, PcapReader.rest, hfp, List.length_drop, List.length_take] at h hn
      have hnot : ¬ n > r.memLen - r.memPos := by omega
      rw [take, hfp]
      simp only [if_neg hnot]
      refine ⟨_, _, rfl, ⟨⟨h.1, ?_⟩, rfl, rfl, ?_⟩, ?_⟩
      · simp only
        omega
      · simp only [PcapReader.rest, hfp, List.drop_drop]
      · simp only [PcapReader.rest, hfp, Ptr.bytes, h.1, List.take_length]

theorem take_short (h : r.Sound) (hn : r.rest.length < n) : ∃ r', take r n = (r', none, r.rest.length) ∧
    ∀ st, shortReadStatus r' st = st := by
  cases hfp : r.fp with
  | some fp =>
      simp only [PcapReader.Sound, PcapReader.rest, hfp] at h hn
      have hlen : (fp.rest.take n).length = fp.rest.length := by
        rw [List.length_take, Nat.min_eq_right (Nat.le_of_lt hn)]
      rw [take, hfp]
      simp only [fread, hlen, if_neg (Nat.ne_of_lt hn), PcapReader.rest, hfp]
      refine ⟨_, rfl, fun st => ?_⟩
      simp [shortReadStatus, h.1, h.2]
  | none =>
      simp only [PcapReader.Sound, PcapReader.rest, hfp, List.length_drop, List.length_take] at h hn
      have hgt : n > r.memLen - r.memPos := by omega
      have hlen : r.rest.length = r.memLen - r.memPos := by
        simp only [PcapReader.rest, hfp, List.length_drop, List.length_take]
        omega
      rw [take, hfp]
      simp only [if_pos hgt, hlen]
      refine ⟨_, rfl, fun st => ?_⟩
      simp [shortReadStatus]

end take

/-! ### Records -/

/-- Nanoseconds in a unit of the fraction. -/
def fracUnit (nsec : Bool) : ℕ := if nsec then 1 else 1000

/-- The reader returned `rec` for the written record `raw`. -/
structure Reads (nsec : Bool) (rec : PcapRecord) (raw : RawRecord) : Prop where
  caplen : rec.caplen.toNat = raw.data.length
  wirelen : rec.wirelen.toNat = max raw.origlen.toNat raw.data.length
  tsNs : rec.tsNs.toNat = raw.sec.toNat * 1000000000 + raw.frac.toNat * fracUnit nsec
  data : ∃ p, rec.data = some p ∧ p.bytes raw.data.length = raw.data

theorem RawRecord.caplen_toNat (raw : RawRecord) :
    (UInt32.ofNat raw.data.length).toNat = raw.data.length := by
  have hfits := raw.fits
  rw [pcapMaxCaplen] at hfits
  exact UInt32.toNat_ofNat_of_lt' (by rw [UInt32.size]; omega)

theorem tsNs_toNat (nsec : Bool) (sec frac : UInt32) :
    (sec.toUInt64 * 1000000000 + if nsec then frac.toUInt64 else frac.toUInt64 * 1000).toNat =
      sec.toNat * 1000000000 + frac.toNat * fracUnit nsec := by
  have hsec := sec.toNat_lt
  have hfrac := frac.toNat_lt
  cases nsec with
  | true =>
      simp only [if_true, UInt64.toNat_add, UInt64.toNat_mul, UInt32.toNat_toUInt64, fracUnit]
      have hc : (1000000000 : UInt64).toNat = 1000000000 := rfl
      rw [hc]
      omega
  | false =>
      simp only [Bool.false_eq_true, if_false, UInt64.toNat_add, UInt64.toNat_mul,
        UInt32.toNat_toUInt64, fracUnit]
      have hc : (1000000000 : UInt64).toNat = 1000000000 := rfl
      have hc' : (1000 : UInt64).toNat = 1000 := rfl
      rw [hc, hc']
      omega

theorem pcapParseRecordHeader_header {info : PcapFileInfo} {hdr : Ptr} {be : Bool} {raw : RawRecord}
    (hbe : info.bigEndian = be) (h : hdr.bytes pcapRecordHdrLen = raw.header be) :
    ∃ hd, pcapParseRecordHeader info hdr = (hd, .ok) ∧ hd.caplen.toNat = raw.data.length ∧
      hd.wirelen.toNat = max raw.origlen.toNat raw.data.length ∧
      hd.tsNs.toNat = raw.sec.toNat * 1000000000 + raw.frac.toNat * fracUnit info.nsec := by
  have hfield : ∀ {i v more}, (raw.header be).drop i = bbU32 v be ++ more → rd32 hdr i be = v := fun hd =>
    rd32_of_bytes (h ▸ hd)
  have hsec : rd32 hdr 0 be = raw.sec := hfield rfl
  have hfrac : rd32 hdr 4 be = raw.frac := by cases be <;> exact hfield rfl
  have hcap : rd32 hdr 8 be = UInt32.ofNat raw.data.length := by cases be <;> exact hfield rfl
  have hwire : rd32 hdr 12 be = raw.origlen := by
    apply @hfield 12 raw.origlen []
    cases be <;> rfl
  have hlen := raw.caplen_toNat
  have hle : ¬ (UInt32.ofNat raw.data.length).toNat > pcapMaxCaplen := by
    rw [hlen]
    exact Nat.not_lt_of_le raw.fits
  simp only [pcapParseRecordHeader, hbe, hsec, hfrac, hcap, hwire, if_neg hle]
  refine ⟨_, rfl, hlen, ?_, tsNs_toNat info.nsec raw.sec raw.frac⟩
  by_cases hlt : raw.origlen < UInt32.ofNat raw.data.length
  · have hlt' := UInt32.lt_iff_toNat_lt.mp hlt
    rw [hlen] at hlt'
    simp only [if_pos hlt, hlen]
    omega
  · have hlt' := mt UInt32.lt_iff_toNat_lt.mpr hlt
    rw [hlen] at hlt'
    simp only [if_neg hlt]
    omega

section next

variable {be nsec : Bool} {r : PcapReader}

theorem pcapNext_record (h : Ready be nsec r) {raw : RawRecord} {more : List UInt8}
    (hrest : r.rest = pcapPutRecord be raw ++ more) :
    ∃ r' rec, pcapNext r = (r', .ok, rec) ∧ Reads nsec rec raw ∧ Ready be nsec r' ∧ r'.rest = more := by
  have hhdr := raw.length_header be
  rw [pcapPutRecord, List.append_assoc] at hrest
  obtain ⟨r₁, hdr, htake, ht, hbytes⟩ := take_full h.sound (n := pcapRecordHdrLen) (by
    rw [hrest, List.length_append, hhdr]
    exact Nat.le_add_right _ _)
  rw [hrest, List.take_left' hhdr] at hbytes
  have hrest₁ := ht.rest
  rw [hrest, List.drop_left' hhdr] at hrest₁
  obtain ⟨hd, hparse, hcap, hwire, hts⟩ :=
    pcapParseRecordHeader_header ((congrArg PcapFileInfo.bigEndian ht.info).trans h.bigEndian) hbytes
  obtain ⟨r₂, p, htake', ht', hbytes'⟩ := take_full ht.sound (n := hd.caplen.toNat) (by
    rw [hrest₁, List.length_append, hcap]
    exact Nat.le_add_right _ _)
  rw [hrest₁, hcap, List.take_left] at hbytes'
  have hrest₂ := ht'.rest
  rw [hrest₁, hcap, List.drop_left] at hrest₂
  have hns : r₁.info.nsec = nsec := (congrArg PcapFileInfo.nsec ht.info).trans h.nsec
  refine ⟨{ r₂ with records := r₂.records + 1 }, { hd with data := some p }, ?_, ?_, ?_, hrest₂⟩
  · simp only [pcapNext, h.error, htake, hparse, htake', ne_eq, not_true, if_false]
  · exact ⟨hcap, hwire, hns ▸ hts, p, rfl, hbytes'⟩
  · exact ⟨ht'.sound, ht'.error.trans (ht.error.trans h.error),
      (congrArg PcapFileInfo.bigEndian (ht'.info.trans ht.info)).trans h.bigEndian,
      (congrArg PcapFileInfo.nsec (ht'.info.trans ht.info)).trans h.nsec⟩

theorem pcapNext_short (h : Ready be nsec r) (hn : r.rest.length < pcapRecordHdrLen) :
    ∃ r' rec, pcapNext r = (r', if r.rest.length = 0 then .eof else .errTruncRecordHdr, rec) := by
  obtain ⟨r₁, htake, hst⟩ := take_short h.sound hn
  refine ⟨{ r₁ with error := if r.rest.length = 0 then .eof else .errTruncRecordHdr }, {}, ?_⟩
  simp only [pcapNext, h.error, htake, hst, ne_eq, not_true, if_false]

theorem pcapNext_cut (h : Ready be nsec r) {raw : RawRecord} {n : ℕ} (hn : n < raw.data.length)
    (hrest : r.rest = raw.header be ++ raw.data.take n) :
    ∃ r' rec, pcapNext r = (r', .errTruncRecord, rec) := by
  have hhdr := raw.length_header be
  obtain ⟨r₁, hdr, htake, ht, hbytes⟩ := take_full h.sound (n := pcapRecordHdrLen) (by
    rw [hrest, List.length_append, hhdr]
    exact Nat.le_add_right _ _)
  rw [hrest, List.take_left' hhdr] at hbytes
  have hrest₁ := ht.rest
  rw [hrest, List.drop_left' hhdr] at hrest₁
  obtain ⟨hd, hparse, hcap, -, -⟩ :=
    pcapParseRecordHeader_header ((congrArg PcapFileInfo.bigEndian ht.info).trans h.bigEndian) hbytes
  obtain ⟨r₂, htake', hst⟩ := take_short ht.sound (n := hd.caplen.toNat) (by
    rw [hrest₁, hcap, List.length_take]
    omega)
  refine ⟨{ r₂ with error := .errTruncRecord }, hd, ?_⟩
  simp only [pcapNext, h.error, htake, hparse, htake', hst, ne_eq, not_true, if_false]

end next

/-! ### Opening -/

/-- The magic number as a little-endian machine sees it. -/
def seenMagic (be nsec : Bool) : UInt32 :=
  if be then (if nsec then magicNsecSwapped else magicUsecSwapped) else fileMagic nsec

theorem bbU32_fileMagic (be nsec : Bool) : bbU32 (fileMagic nsec) be = bbU32 (seenMagic be nsec) false := by
  cases be <;> cases nsec <;> decide

theorem parseMagic_seenMagic (be nsec : Bool) : parseMagic (seenMagic be nsec) = .ok (be, nsec) := by
  cases be <;> cases nsec <;> rfl

theorem pcapParseGlobalHeader_global {hdr : Ptr} {be nsec : Bool} {snaplen : UInt32}
    (h : hdr.bytes pcapGlobalHdrLen = pcapPutGlobal be nsec snaplen pcapLinktypeEthernet) :
    ∃ info, pcapParseGlobalHeader hdr pcapGlobalHdrLen = (info, .ok) ∧ info.bigEndian = be ∧
      info.nsec = nsec := by
  have h32 : ∀ {i v be' more}, (pcapPutGlobal be nsec snaplen pcapLinktypeEthernet).drop i =
      bbU32 v be' ++ more → rd32 hdr i be' = v := fun hd => rd32_of_bytes (h ▸ hd)
  have h16 : ∀ {i v more}, (pcapPutGlobal be nsec snaplen pcapLinktypeEthernet).drop i =
      bbU16 v be ++ more → rd16 hdr i be = v := fun hd => rd16_of_bytes (h ▸ hd)
  have hmagic : rd32 hdr 0 false = seenMagic be nsec := by
    apply @h32 0 _ false ((pcapPutGlobal be nsec snaplen pcapLinktypeEthernet).drop 4)
    rw [← bbU32_fileMagic]
    cases be <;> rfl
  have hmajor : rd16 hdr 4 be = 2 := by cases be <;> exact h16 rfl
  have hminor : rd16 hdr 6 be = 4 := by cases be <;> exact h16 rfl
  have hlink : rd32 hdr 20 be = pcapLinktypeEthernet := by
    apply @h32 20 pcapLinktypeEthernet be []
    cases be <;> rfl
  have hmask : pcapLinktypeEthernet &&& linktypeMask = pcapLinktypeEthernet := by decide
  have hlong : ¬ pcapGlobalHdrLen < 4 := by decide
  simp only [pcapParseGlobalHeader, if_neg hlong, hmagic, parseMagic_seenMagic, lt_irrefl, if_false,
    hmajor, hminor, hlink, hmask, ne_eq, not_true, or_self]
  exact ⟨_, rfl, rfl, rfl⟩

/-- A file with these contents, opened in memory or as a stream without read errors. -/
inductive Opens (data : List UInt8) : PcapReader → PcapStatus → Prop where
  | mem : Opens data (pcapOpenMem data).1 (pcapOpenMem data).2
  | stream : Opens data (pcapOpenStream (some { rest := data }) true).1
      (pcapOpenStream (some { rest := data }) true).2

theorem readGlobalHeader_global {r : PcapReader} (hsound : r.Sound) (herr : r.error = .ok)
    {be nsec : Bool} {snaplen : UInt32} {body : List UInt8}
    (hrest : r.rest = pcapPutGlobal be nsec snaplen pcapLinktypeEthernet ++ body) :
    ∃ r', readGlobalHeader r = (r', .ok) ∧ Ready be nsec r' ∧ r'.rest = body := by
  have hlen := length_pcapPutGlobal be nsec snaplen pcapLinktypeEthernet
  obtain ⟨r₁, hdr, htake, ht, hbytes⟩ := take_full hsound (n := pcapGlobalHdrLen) (by
    rw [hrest, List.length_append, hlen]
    exact Nat.le_add_right _ _)
  rw [hrest, List.take_left' hlen] at hbytes
  have hrest₁ := ht.rest
  rw [hrest, List.drop_left' hlen] at hrest₁
  obtain ⟨info, hparse, hbe, hns⟩ := pcapParseGlobalHeader_global hbytes
  refine ⟨{ r₁ with info := info }, ?_, ⟨ht.sound, ht.error.trans herr, hbe, hns⟩, hrest₁⟩
  simp only [readGlobalHeader, htake, hparse]

theorem Opens.ready {be nsec : Bool} {snaplen : UInt32} {body : List UInt8} {r : PcapReader}
    {st : PcapStatus}
    (h : Opens (pcapPutGlobal be nsec snaplen pcapLinktypeEthernet ++ body) r st) :
    st = .ok ∧ Ready be nsec r ∧ r.rest = body := by
  generalize hdata : pcapPutGlobal be nsec snaplen pcapLinktypeEthernet ++ body = data at h
  cases h with
  | mem =>
      have hrest : PcapReader.rest { mem := data, memLen := data.length } = data := by
        simp [PcapReader.rest]
      obtain ⟨r', hread, hready, hr'⟩ := readGlobalHeader_global
        (r := { mem := data, memLen := data.length }) ⟨rfl, Nat.zero_le _⟩ rfl (hrest.trans hdata.symm)
      simp only [pcapOpenMem, hread, ne_eq, not_true, if_false]
      exact ⟨trivial, hready, hr'⟩
  | stream =>
      obtain ⟨r', hread, hready, hr'⟩ := readGlobalHeader_global
        (r := { fp := some { rest := data } }) ⟨rfl, rfl⟩ rfl hdata.symm
      simp only [pcapOpenStream, hread, if_true, ne_eq, not_true, if_false]
      exact ⟨trivial, hready, hr'⟩

/-! ### Sequences of records -/

section sequences

variable {be nsec : Bool}

/-- **Complete records are returned in order, whatever follows them.** -/
theorem delivers_records : ∀ (raws : List RawRecord) {r : PcapReader} {more : List UInt8},
    Ready be nsec r → r.rest = pcapPutRecords be raws ++ more →
      ∃ recs r₁, List.Forall₂ (Reads nsec) recs raws ∧ Ready be nsec r₁ ∧ r₁.rest = more ∧
        ∀ {recs' st r'}, Delivers r₁ recs' st r' → Delivers r (recs ++ recs') st r'
  | [], r, more, h, hrest => ⟨[], r, .nil, h, hrest, fun hd => hd⟩
  | raw :: raws, r, more, h, hrest => by
      rw [pcapPutRecords, List.flatMap_cons, List.append_assoc] at hrest
      obtain ⟨r₁, rec, hnext, hread, hready, hrest₁⟩ := pcapNext_record h hrest
      obtain ⟨recs, r₂, hreads, hready₂, hrest₂, hdel⟩ := delivers_records raws hready hrest₁
      exact ⟨rec :: recs, r₂, .cons hread hreads, hready₂, hrest₂, fun hd => .next hnext (hdel hd)⟩

theorem delivers_eof {r : PcapReader} (h : Ready be nsec r) (hrest : r.rest = []) :
    ∃ r', Delivers r [] .eof r' := by
  obtain ⟨r', rec, hnext⟩ := pcapNext_short h (by rw [hrest]; decide)
  rw [hrest] at hnext
  exact ⟨r', .stop hnext (by decide)⟩

/-- A file cut behind `k` bytes holds `j` complete records, and reading it ends with `st`. -/
inductive Stop (raws : List RawRecord) (k j : ℕ) : PcapStatus → Prop where
  | boundary : k = startOf raws j → Stop raws k j .eof
  | header : j < raws.length → startOf raws j < k → k < startOf raws j + pcapRecordHdrLen →
      Stop raws k j .errTruncRecordHdr
  | data : j < raws.length → startOf raws j + pcapRecordHdrLen ≤ k → k < startOf raws (j + 1) →
      Stop raws k j .errTruncRecord

theorem startOf_cons (raw : RawRecord) (raws : List RawRecord) (j : ℕ) :
    startOf (raw :: raws) (j + 1) = raw.size + startOf raws j := by
  rw [startOf, startOf, List.take_succ_cons, sizes_cons]
  omega

theorem Stop.cons {raws : List RawRecord} {k j : ℕ} {st : PcapStatus} (h : Stop raws k j st)
    (raw : RawRecord) : Stop (raw :: raws) (raw.size + k) (j + 1) st := by
  cases h with
  | boundary h =>
      refine .boundary ?_
      rw [startOf_cons, h]
  | header hj hlt hk =>
      refine .header (Nat.succ_lt_succ hj) ?_ ?_ <;> rw [startOf_cons] <;> omega
  | data hj hle hk =>
      refine .data (Nat.succ_lt_succ hj) ?_ ?_ <;> rw [startOf_cons] <;> omega

/-- **A cut file yields the records before the cut, and then the status that names the place.** -/
theorem delivers_take : ∀ (raws : List RawRecord) {r : PcapReader} {n : ℕ}, Ready be nsec r →
    r.rest = (pcapPutRecords be raws).take n → n ≤ sizes raws →
      ∃ recs st r' j, Delivers r recs st r' ∧ j ≤ raws.length ∧
        List.Forall₂ (Reads nsec) recs (raws.take j) ∧
        Stop raws (pcapGlobalHdrLen + n) j st
  | [], r, n, h, hrest, hn => by
      obtain ⟨r', hdel⟩ := delivers_eof h (hrest.trans (List.take_nil))
      exact ⟨[], .eof, r', 0, hdel, Nat.le_refl _, .nil,
        .boundary (congrArg _ (Nat.le_zero.mp hn))⟩
  | raw :: raws, r, n, h, hrest, hn => by
      have hsize := length_pcapPutRecord be raw
      rw [pcapPutRecords, List.flatMap_cons] at hrest
      rw [sizes_cons] at hn
      by_cases hwhole : raw.size ≤ n
      · obtain ⟨m, rfl⟩ := Nat.exists_eq_add_of_le hwhole
        rw [← hsize, List.take_length_add_append] at hrest
        obtain ⟨r₁, rec, hnext, hread, hready, hrest₁⟩ := pcapNext_record h hrest
        obtain ⟨recs, st, r', j, hdel, hj, hreads, hstop⟩ :=
          delivers_take raws hready hrest₁ (Nat.le_of_add_le_add_left hn)
        refine ⟨rec :: recs, st, r', j + 1, .next hnext hdel, Nat.succ_le_succ hj, .cons hread hreads, ?_⟩
        rw [Nat.add_left_comm]
        exact hstop.cons raw
      · have hlt := Nat.lt_of_not_le hwhole
        rw [List.take_append_of_le_length (by omega)] at hrest
        have hlen : r.rest.length = n := by
          rw [hrest, List.length_take, hsize]
          omega
        by_cases hhdr : n < pcapRecordHdrLen
        · obtain ⟨r', rec, hnext⟩ := pcapNext_short h (hlen ▸ hhdr)
          rw [hlen] at hnext
          by_cases hzero : n = 0
          · rw [if_pos hzero] at hnext
            exact ⟨[], .eof, r', 0, .stop hnext (by decide), Nat.zero_le _, .nil,
              .boundary (congrArg _ hzero)⟩
          · rw [if_neg hzero] at hnext
            refine ⟨[], .errTruncRecordHdr, r', 0, .stop hnext (by decide), Nat.zero_le _, .nil, ?_⟩
            refine .header (Nat.succ_pos _) ?_ ?_ <;> rw [startOf_zero] <;> omega
        · obtain ⟨m, rfl⟩ := Nat.exists_eq_add_of_le (Nat.le_of_not_lt hhdr)
          rw [RawRecord.size] at hlt
          rw [pcapPutRecord, ← raw.length_header be, List.take_length_add_append] at hrest
          obtain ⟨r', rec, hnext⟩ := pcapNext_cut h (Nat.lt_of_add_lt_add_left hlt) hrest
          refine ⟨[], .errTruncRecord, r', 0, .stop hnext (by decide), Nat.zero_le _, .nil, ?_⟩
          refine .data (Nat.succ_pos _) ?_ ?_
          · rw [startOf_zero]
            omega
          · rw [startOf_succ (Nat.succ_pos _), startOf_zero, List.getElem_cons_zero, RawRecord.size]
            omega

end sequences

/-! ### The theorem -/

section cut

variable {raws : List RawRecord} {k j : ℕ} {st : PcapStatus}

theorem Stop.start_le (h : Stop raws k j st) : startOf raws j ≤ k := by
  cases h <;> omega

theorem Stop.lt_start (h : Stop raws k j st) (hj : j < raws.length) : k < startOf raws (j + 1) := by
  have hlt := startOf_lt hj
  cases h with
  | boundary hk =>
      rw [pcapRecordHdrLen] at hlt
      omega
  | header _ _ hk => omega
  | data _ _ hk => exact hk

/-- The records before the cut are those that end at or before it. -/
theorem Stop.whole_iff (h : Stop raws k j st) {i : ℕ} (hi : i < raws.length) :
    i < j ↔ startOf raws (i + 1) ≤ k := by
  constructor
  · intro hij
    exact (startOf_mono raws (Nat.succ_le_of_lt hij)).trans h.start_le
  · intro hle
    by_contra hij
    have hji : j ≤ i := Nat.le_of_not_lt hij
    have hmono : startOf raws (j + 1) ≤ startOf raws (i + 1) := startOf_mono raws (Nat.succ_le_succ hji)
    have hend := h.lt_start (Nat.lt_of_le_of_lt hji hi)
    omega

/-- Only one record starts at or before the cut and ends behind it. -/
theorem Stop.unique (h : Stop raws k j st) {i : ℕ} (hi : i < raws.length) (hle : startOf raws i ≤ k)
    (hlt : k < startOf raws (i + 1)) : i = j := by
  have hij : ¬ i < j := fun hij => Nat.not_lt_of_le ((h.whole_iff hi).mp hij) hlt
  by_contra hne
  have hji : j < i := Nat.lt_of_le_of_ne (Nat.le_of_not_lt hij) (Ne.symm hne)
  have hmono : startOf raws (j + 1) ≤ startOf raws i := startOf_mono raws hji
  have hend := h.lt_start (Nat.lt_trans hji hi)
  omega

theorem Stop.eof_iff (h : Stop raws k j st) (hj : j ≤ raws.length) :
    st = .eof ↔ ∃ i ≤ raws.length, k = startOf raws i := by
  constructor
  · rintro rfl
    cases h with
    | boundary hk => exact ⟨j, hj, hk⟩
  · rintro ⟨i, -, hk⟩
    have hinside : ∀ {a b : ℕ}, j < raws.length → startOf raws j < a → b < startOf raws (j + 1) → a ≤ k →
        k ≤ b → False := by
      intro a b hj hlt hlt' ha hb
      obtain hij | hij := Nat.lt_or_ge j i
      · have hmono : startOf raws (j + 1) ≤ startOf raws i := startOf_mono raws hij
        omega
      · have hmono := startOf_mono raws hij
        omega
    cases h with
    | boundary _ => rfl
    | header hj hlt hk' =>
        have hnext := startOf_lt hj
        exact (hinside hj hlt (Nat.lt_of_lt_of_le hk' hnext) (Nat.le_refl _) (Nat.le_refl _)).elim
    | data hj hle hk' =>
        rw [pcapRecordHdrLen] at hle
        exact (hinside hj (Nat.lt_of_lt_of_le (by omega) hle) hk' (Nat.le_refl _) (Nat.le_refl _)).elim

theorem Stop.header_iff (h : Stop raws k j st) : st = .errTruncRecordHdr ↔
    ∃ i < raws.length, startOf raws i < k ∧ k < startOf raws i + pcapRecordHdrLen := by
  constructor
  · rintro rfl
    cases h with
    | header hj hlt hk => exact ⟨j, hj, hlt, hk⟩
  · rintro ⟨i, hi, hlt, hk⟩
    obtain rfl := h.unique hi (Nat.le_of_lt hlt) (Nat.lt_of_lt_of_le hk (startOf_lt hi))
    cases h with
    | boundary hk' => omega
    | header _ _ _ => rfl
    | data _ hle _ => omega

theorem Stop.data_iff (h : Stop raws k j st) : st = .errTruncRecord ↔
    ∃ i < raws.length, startOf raws i + pcapRecordHdrLen ≤ k ∧ k < startOf raws (i + 1) := by
  constructor
  · rintro rfl
    cases h with
    | data hj hle hk => exact ⟨j, hj, hle, hk⟩
  · rintro ⟨i, hi, hle, hk⟩
    obtain rfl := h.unique hi (Nat.le_of_add_right_le hle) hk
    cases h with
    | boundary hk' =>
        rw [pcapRecordHdrLen] at hle
        omega
    | header _ _ hk' => omega
    | data _ _ _ => rfl

end cut

theorem length_pcapFile (be nsec : Bool) (snaplen : UInt32) (raws : List RawRecord) :
    (pcapFile be nsec snaplen raws).length = pcapGlobalHdrLen + sizes raws := by
  rw [pcapFile, List.length_append, length_pcapPutGlobal, length_pcapPutRecords]

theorem Opens.delivers {be nsec : Bool} {snaplen : UInt32} {raws : List RawRecord} {r : PcapReader} {st : PcapStatus}
    (h : Opens (pcapFile be nsec snaplen raws) r st) : st = .ok ∧
      ∃ recs r', Delivers r recs .eof r' ∧ List.Forall₂ (Reads nsec) recs raws := by
  obtain ⟨rfl, hready, hrest⟩ := h.ready
  obtain ⟨recs, r₁, hreads, hready₁, hrest₁, hdel⟩ :=
    delivers_records raws hready (hrest.trans (List.append_nil _).symm)
  obtain ⟨r', heof⟩ := delivers_eof hready₁ hrest₁
  exact ⟨rfl, recs, r', List.append_nil recs ▸ hdel heof, hreads⟩

/-- **Reading undoes writing, and damage never reaches backwards.**  A whole file yields its
records; a cut file the records before the cut, and then the status that names the place; a file
with anything in place of its later records yields the earlier ones as they were. -/
theorem pcapNext_pcapFile (be nsec : Bool) (snaplen : UInt32) (raws : List RawRecord) :
    (∀ r st, Opens (pcapFile be nsec snaplen raws) r st → st = .ok ∧
      ∃ recs r', Delivers r recs .eof r' ∧ List.Forall₂ (Reads nsec) recs raws) ∧
    (∀ k, pcapGlobalHdrLen ≤ k → k ≤ (pcapFile be nsec snaplen raws).length →
      ∀ r st, Opens ((pcapFile be nsec snaplen raws).take k) r st → st = .ok ∧
        ∃ recs st' r' j, Delivers r recs st' r' ∧ List.Forall₂ (Reads nsec) recs (raws.take j) ∧
          (∀ i < raws.length, i < j ↔ startOf raws (i + 1) ≤ k) ∧
          (st' = .eof ↔ ∃ i ≤ raws.length, k = startOf raws i) ∧
          (st' = .errTruncRecordHdr ↔
            ∃ i < raws.length, startOf raws i < k ∧ k < startOf raws i + pcapRecordHdrLen) ∧
          (st' = .errTruncRecord ↔
            ∃ i < raws.length, startOf raws i + pcapRecordHdrLen ≤ k ∧ k < startOf raws (i + 1))) ∧
    ∀ j ≤ raws.length, ∀ tail r st, Opens (pcapFile be nsec snaplen (raws.take j) ++ tail) r st →
      st = .ok ∧ ∃ recs st' r', Delivers r recs st' r' ∧
        List.Forall₂ (Reads nsec) (recs.take j) (raws.take j) := by
  refine ⟨fun r st h => h.delivers, fun k hk hk' r st h => ?_, fun j hj tail r st h => ?_⟩
  · obtain ⟨n, rfl⟩ := Nat.exists_eq_add_of_le hk
    rw [length_pcapFile] at hk'
    rw [pcapFile, ← length_pcapPutGlobal be nsec snaplen pcapLinktypeEthernet,
      List.take_length_add_append] at h
    obtain ⟨rfl, hready, hrest⟩ := h.ready
    obtain ⟨recs, st', r', j, hdel, hj, hreads, hstop⟩ :=
      delivers_take raws hready hrest (Nat.le_of_add_le_add_left hk')
    exact ⟨rfl, recs, st', r', j, hdel, hreads, fun i hi => hstop.whole_iff hi, hstop.eof_iff hj,
      hstop.header_iff, hstop.data_iff⟩
  · rw [pcapFile, List.append_assoc] at h
    obtain ⟨rfl, hready, hrest⟩ := h.ready
    obtain ⟨recs, r₁, hreads, -, -, hdel⟩ := delivers_records (raws.take j) hready hrest
    obtain ⟨recs', st', r', hlater⟩ := exists_delivers r₁
    refine ⟨rfl, recs ++ recs', st', r', hdel hlater, ?_⟩
    have hlen : recs.length = j := by rw [hreads.length_eq, List.length_take_of_le hj]
    rwa [List.take_left' hlen]

end Pcapstat
