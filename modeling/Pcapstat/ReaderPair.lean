import Pcapstat.PcapFormat

/-! # Reading from memory and from a stream

The same bytes read in place (`pcap_open_mem`) and through `fread` (`pcap_open_stream`).  The two
readers are kept in step by `Synced`: the stream holds what lies behind the position in memory.
`take` keeps them in step, whether it finds enough bytes or not, and so does every call on top of it.

`pcap_next` is called again and again, also after it has failed: `nthReader r k` is the reader after
`k` calls. -/

namespace Pcapstat

/-! ### Pointers to the same bytes -/

/-- `p` and `q` point to the same `n` bytes. -/
def Ptr.Agree (n : ℕ) (p q : Ptr) : Prop := ∀ j < n, p.byte j = q.byte j

section agree

variable {p q : Ptr} {n : ℕ}

theorem Ptr.Agree.of_bytes (h : p.bytes n = q.bytes n) : p.Agree n q := by
  intro j hj
  rw [p.byte_eq hj, q.byte_eq hj, h]

theorem rd32_congr {i : ℕ} (h : p.Agree n q) (hi : i + 4 ≤ n) (be : Bool) : rd32 p i be = rd32 q i be := by
  unfold rd32
  rw [h i (by omega), h (i + 1) (by omega), h (i + 2) (by omega), h (i + 3) (by omega)]

theorem rd16_congr {i : ℕ} (h : p.Agree n q) (hi : i + 2 ≤ n) (be : Bool) : rd16 p i be = rd16 q i be := by
  unfold rd16
  rw [h i (by omega), h (i + 1) (by omega)]

theorem pcapParseGlobalHeader_congr (h : p.Agree n q) :
    pcapParseGlobalHeader p n = pcapParseGlobalHeader q n := by
  unfold pcapParseGlobalHeader
  by_cases h4 : n < 4
  · rw [if_pos h4, if_pos h4]
  rw [if_neg h4, if_neg h4, rd32_congr h (by omega)]
  cases parseMagic (rd32 q 0 false) with
  | error st => rfl
  | ok bn =>
      dsimp only
      by_cases h24 : n < pcapGlobalHdrLen
      · rw [if_pos h24, if_pos h24]
      · have hall : 24 ≤ n := not_lt.mp h24
        have hmajor : rd16 p 4 bn.1 = rd16 q 4 bn.1 := rd16_congr h (by omega) bn.1
        have hminor : rd16 p 6 bn.1 = rd16 q 6 bn.1 := rd16_congr h (by omega) bn.1
        have hsnaplen : rd32 p 16 bn.1 = rd32 q 16 bn.1 := rd32_congr h (by omega) bn.1
        have hlinktype : rd32 p 20 bn.1 = rd32 q 20 bn.1 := rd32_congr h (by omega) bn.1
        rw [hmajor, hminor, hsnaplen, hlinktype]

theorem parseMagic_error {magic : UInt32} {st : PcapStatus} (h : parseMagic magic = .error st) :
    st ≠ .ok := by
  unfold parseMagic at h
  split_ifs at h <;> cases h <;> decide

theorem pcapParseGlobalHeader_short (hn : n < pcapGlobalHdrLen) : (pcapParseGlobalHeader p n).2 ≠ .ok := by
  unfold pcapParseGlobalHeader
  by_cases h4 : n < 4
  · rw [if_pos h4]
    decide
  rw [if_neg h4]
  cases hmagic : parseMagic (rd32 p 0 false) with
  | error st => exact parseMagic_error hmagic
  | ok bn =>
      dsimp only
      rw [if_pos hn]
      exact PcapStatus.noConfusion

theorem pcapParseRecordHeader_congr (h : p.Agree pcapRecordHdrLen q) (info : PcapFileInfo) :
    pcapParseRecordHeader info p = pcapParseRecordHeader info q := by
  have hsec : rd32 p 0 info.bigEndian = rd32 q 0 info.bigEndian := rd32_congr h (by decide) _
  have hfrac : rd32 p 4 info.bigEndian = rd32 q 4 info.bigEndian := rd32_congr h (by decide) _
  have hcaplen : rd32 p 8 info.bigEndian = rd32 q 8 info.bigEndian := rd32_congr h (by decide) _
  have hwirelen : rd32 p 12 info.bigEndian = rd32 q 12 info.bigEndian := rd32_congr h (by decide) _
  simp only [pcapParseRecordHeader, hsec, hfrac, hcaplen, hwirelen]

theorem pcapParseRecordHeader_caplen {info : PcapFileInfo} {rec : PcapRecord}
    (h : pcapParseRecordHeader info p = (rec, .ok)) : rec.caplen.toNat ≤ pcapMaxCaplen := by
  unfold pcapParseRecordHeader at h
  dsimp only at h
  by_cases hcap : (rd32 p 8 info.bigEndian).toNat > pcapMaxCaplen
  · rw [if_pos hcap, Prod.mk.injEq] at h
    exact absurd h.2 (by decide)
  · rw [if_neg hcap, Prod.mk.injEq] at h
    rw [← h.1]
    exact not_lt.mp hcap

end agree

/-! ### Two readers in step -/

/-- `r` reads `data` in memory and `s` reads it from a stream; they stand at the same place. -/
structure Synced (data : List UInt8) (r s : PcapReader) : Prop where
  fp : r.fp = none
  mem : r.mem = data
  memLen : r.memLen = data.length
  memPos : r.memPos ≤ data.length
  stream : ∃ fp, s.fp = some fp ∧ fp.broken = false ∧ fp.error = false ∧ fp.rest = data.drop r.memPos ∧
    ∀ n ∈ fp.asks, n ≤ pcapMaxCaplen
  info : s.info = r.info
  records : s.records = r.records
  error : s.error = r.error

/-- What `take` leaves alone. -/
structure SameState (r r' : PcapReader) : Prop where
  info : r'.info = r.info
  records : r'.records = r.records
  error : r'.error = r.error

theorem take_stream {s : PcapReader} {fp : Stream} (hfp : s.fp = some fp) (n : ℕ) :
    take s n = ({ s with fp := some (fread fp n).1,
                         buf := fp.rest.take n ++ s.buf.drop (fp.rest.take n).length },
      if (fp.rest.take n).length = n then
        some ⟨fp.rest.take n ++ s.buf.drop (fp.rest.take n).length, 0⟩ else none,
      (fp.rest.take n).length) := by
  unfold take
  rw [hfp]
  rfl

section synced

variable {data : List UInt8} {r s : PcapReader} {n : ℕ}

theorem Synced.status (h : Synced data r s) (st : PcapStatus) :
    shortReadStatus r st = st ∧ shortReadStatus s st = st := by
  obtain ⟨fp, hfp, -, herr, -⟩ := h.stream
  constructor
  · rw [shortReadStatus, h.fp]
  · rw [shortReadStatus, hfp]
    simp [herr]

theorem Synced.advance (h : Synced data r s) (hn : n ≤ pcapMaxCaplen) {fp : Stream} (hfp : s.fp = some fp)
    {pos : ℕ} (hle : pos ≤ data.length) (hpos : data.drop pos = data.drop (r.memPos + n)) (buf : List UInt8) :
    Synced data { r with memPos := pos } { s with fp := some (fread fp n).1, buf := buf } := by
  obtain ⟨fp', hfp', hbroken, herr, hrest, hasks⟩ := h.stream
  obtain rfl : fp = fp' := Option.some.inj (hfp.symm.trans hfp')
  refine ⟨h.fp, h.mem, h.memLen, hle, ⟨_, rfl, hbroken, ?_, ?_, ?_⟩, h.info, h.records, h.error⟩
  · simp only [fread, herr, hbroken, Bool.and_false, Bool.or_false]
  · simp only [fread, hrest, List.drop_drop, hpos]
  · exact List.forall_mem_cons.mpr ⟨hn, hasks⟩

theorem Synced.take (h : Synced data r s) (hn : n ≤ pcapMaxCaplen) :
    ∃ r' s', Synced data r' s' ∧ SameState r r' ∧
      ((∃ q, Pcapstat.take r n = (r', some ⟨data, r.memPos⟩, n) ∧ Pcapstat.take s n = (s', some q, n) ∧
          q.bytes n = Ptr.bytes ⟨data, r.memPos⟩ n ∧ r'.memPos = r.memPos + n) ∨
        ∃ got < n, got = data.length - r.memPos ∧ Pcapstat.take r n = (r', none, got) ∧
          Pcapstat.take s n = (s', none, got) ∧
          Ptr.bytes ⟨s'.buf, 0⟩ got = Ptr.bytes ⟨data, r.memPos⟩ got) := by
  obtain ⟨fp, hfp, -, -, hrest, -⟩ := h.stream
  obtain ⟨bs, hbs⟩ : ∃ bs, bs = (data.drop r.memPos).take n := ⟨_, rfl⟩
  have hstream := take_stream hfp n
  rw [hrest, ← hbs] at hstream
  have hbuf : Ptr.bytes ⟨bs ++ s.buf.drop bs.length, 0⟩ bs.length = bs := List.take_left
  have hpos := h.memPos
  have hmemLen := h.memLen
  have hgot : bs.length = min n (data.length - r.memPos) := by
    rw [hbs, List.length_take, List.length_drop]
  by_cases hlong : n > r.memLen - r.memPos
  · -- too little is left, and both readers take it
    have hend : data.drop r.memLen = data.drop (r.memPos + n) := by
      rw [List.drop_eq_nil_of_le hmemLen.ge, List.drop_eq_nil_of_le (by omega)]
    rw [Nat.min_eq_right (by omega)] at hgot
    refine ⟨_, _, h.advance hn hfp hmemLen.le hend (bs ++ s.buf.drop bs.length), ⟨rfl, rfl, rfl⟩,
      .inr ⟨bs.length, by omega, hgot, ?_, ?_, ?_⟩⟩
    · rw [Pcapstat.take, h.fp, hgot, ← hmemLen]
      exact if_pos hlong
    · rw [hstream, if_neg (by omega)]
    · rw [hbuf, Ptr.bytes, hgot, ← List.length_drop, List.take_length, hbs,
        List.take_of_length_le (by rw [List.length_drop]; omega)]
  · have hle : r.memPos + n ≤ data.length := by omega
    rw [Nat.min_eq_left (by omega)] at hgot
    refine ⟨_, _, h.advance hn hfp hle rfl (bs ++ s.buf.drop bs.length), ⟨rfl, rfl, rfl⟩,
      .inl ⟨⟨bs ++ s.buf.drop bs.length, 0⟩, ?_, ?_, ?_, rfl⟩⟩
    · rw [Pcapstat.take, h.fp, ← h.mem]
      exact if_neg hlong
    · rw [hstream, if_pos hgot, hgot]
    · exact (congrArg (Ptr.bytes _) hgot.symm).trans (hbuf.trans hbs)

/-- The global header is read from the start, and by both readers alike. -/
theorem Synced.readGlobalHeader (h : Synced data r s) (h0 : r.memPos = 0) :
    ∃ r' s' st, Pcapstat.readGlobalHeader r = (r', st) ∧ Pcapstat.readGlobalHeader s = (s', st) ∧
      Synced data r' s' ∧ r'.error = r.error ∧ r'.records = r.records ∧
      (st = .ok → r'.memPos = pcapGlobalHdrLen) := by
  obtain ⟨r', s', hsync, hsame, ⟨q, hr, hs, hbytes, hpos⟩ | ⟨got, hlt, hgot, hr, hs, hbytes⟩⟩ :=
    h.take (n := pcapGlobalHdrLen) (by decide)
  · have hparse := pcapParseGlobalHeader_congr (Ptr.Agree.of_bytes hbytes)
    refine ⟨{ r' with info := (pcapParseGlobalHeader q pcapGlobalHdrLen).1 },
      { s' with info := (pcapParseGlobalHeader q pcapGlobalHdrLen).1 },
      (pcapParseGlobalHeader q pcapGlobalHdrLen).2, ?_, ?_,
      ⟨hsync.fp, hsync.mem, hsync.memLen, hsync.memPos, hsync.stream, rfl, hsync.records, hsync.error⟩,
      hsame.error, hsame.records, ?_⟩
    · simp only [Pcapstat.readGlobalHeader, hr, hparse]
    · simp only [Pcapstat.readGlobalHeader, hs]
    · intro _
      rw [hpos, h0, Nat.zero_add]
  · have hfp : s'.fp.isSome = true := by
      obtain ⟨fp, hfp, -⟩ := hsync.stream
      rw [hfp]
      rfl
    have hparse := pcapParseGlobalHeader_congr (Ptr.Agree.of_bytes hbytes)
    rw [h0, ← hsync.mem] at hparse
    obtain ⟨hstr, hsts⟩ := hsync.status .errShortHeader
    have hread : Pcapstat.readGlobalHeader r = (r', if got ≥ 4 then
        (pcapParseGlobalHeader ⟨s'.buf, 0⟩ got).2 else .errShortHeader) := by
      simp only [Pcapstat.readGlobalHeader, hr, hstr, true_and, hsync.fp, Option.isSome_none,
        Bool.false_eq_true, if_false, hparse]
      split <;> rfl
    have hread' : Pcapstat.readGlobalHeader s = (s', if got ≥ 4 then
        (pcapParseGlobalHeader ⟨s'.buf, 0⟩ got).2 else .errShortHeader) := by
      simp only [Pcapstat.readGlobalHeader, hs, hsts, true_and, hfp, if_true]
      split <;> rfl
    refine ⟨r', s', _, hread, hread', hsync, hsame.error, hsame.records, ?_⟩
    -- what has been read of the header is never enough
    intro hok
    by_cases h4 : got ≥ 4
    · rw [if_pos h4] at hok
      exact absurd hok (pcapParseGlobalHeader_short hlt)
    · rw [if_neg h4] at hok
      exact absurd hok (by decide)

end synced

/-! ### Calling `pcap_next` -/

/-- The record `x` lies at `off` in `data`, and `y` is a copy of it. -/
structure SameRecord (data : List UInt8) (off : ℕ) (x y : PcapRecord) : Prop where
  tsNs : y.tsNs = x.tsNs
  caplen : y.caplen = x.caplen
  wirelen : y.wirelen = x.wirelen
  place : x.data = some ⟨data, off⟩
  fits : off + x.caplen.toNat ≤ data.length
  bytes : ∃ q, y.data = some q ∧ q.bytes x.caplen.toNat = Ptr.bytes ⟨data, off⟩ x.caplen.toNat

/-- The readers of a pair, also after a failure, when they need not stand at the same place. -/
structure Paired (data : List UInt8) (r s : PcapReader) : Prop where
  memLen : r.memLen = data.length
  memPos : r.memPos ≤ data.length
  asks : ∀ fp, s.fp = some fp → ∀ n ∈ fp.asks, n ≤ pcapMaxCaplen
  error : s.error = r.error
  records : s.records = r.records
  synced : r.error = .ok → Synced data r s

/-- One call of `pcap_next` on both readers. -/
structure NextAlike (data : List UInt8) (r s : PcapReader) : Prop where
  paired : Paired data (pcapNext r).1 (pcapNext s).1
  status : (pcapNext s).2.1 = (pcapNext r).2.1
  sticky : (pcapNext r).1.error = (pcapNext r).2.1
  before : (pcapNext r).2.1 = .ok → r.error = .ok
  record : (pcapNext r).2.1 = .ok →
    SameRecord data (r.memPos + pcapRecordHdrLen) (pcapNext r).2.2 (pcapNext s).2.2
  pos : (pcapNext r).2.1 = .ok →
    (pcapNext r).1.memPos = r.memPos + (pcapRecordHdrLen + (pcapNext r).2.2.caplen.toNat)

section paired

variable {data : List UInt8} {r s : PcapReader}

theorem Synced.paired (h : Synced data r s) : Paired data r s := by
  obtain ⟨fp, hfp, -, -, -, hasks⟩ := h.stream
  refine ⟨h.memLen, h.memPos, ?_, h.error, h.records, fun _ => h⟩
  intro fp' hfp'
  obtain rfl : fp = fp' := Option.some.inj (hfp.symm.trans hfp')
  exact hasks

theorem Synced.failed (h : Synced data r s) (st : PcapStatus) :
    Paired data { r with error := st } { s with error := st } := by
  refine ⟨h.memLen, h.memPos, h.paired.asks, rfl, h.records, ?_⟩
  intro _
  exact ⟨h.fp, h.mem, h.memLen, h.memPos, h.stream, h.info, h.records, rfl⟩

theorem NextAlike.of_failed {r' s' : PcapReader} (h : Synced data r' s') {st : PcapStatus} (hst : st ≠ .ok)
    {x y : PcapRecord} (hr : pcapNext r = ({ r' with error := st }, st, x))
    (hs : pcapNext s = ({ s' with error := st }, st, y)) : NextAlike data r s := by
  have hne : (pcapNext r).2.1 ≠ .ok := by rwa [hr]
  refine ⟨?_, by rw [hr, hs], by rw [hr], fun hok => absurd hok hne, fun hok => absurd hok hne,
    fun hok => absurd hok hne⟩
  rw [hr, hs]
  exact h.failed st

/-- Behind a header that both readers accept, both read the data of the record. -/
theorem Synced.nextData {r₁ s₁ : PcapReader} (h : Synced data r₁ s₁) (hok : r.error = .ok)
    (hsok : s.error = .ok) (hok₁ : r₁.error = .ok) (hpos : r₁.memPos = r.memPos + pcapRecordHdrLen)
    {p q : Ptr} (hr : Pcapstat.take r pcapRecordHdrLen = (r₁, some p, pcapRecordHdrLen))
    (hs : Pcapstat.take s pcapRecordHdrLen = (s₁, some q, pcapRecordHdrLen)) {rec : PcapRecord}
    (hrec : pcapParseRecordHeader r₁.info p = (rec, .ok))
    (hrec' : pcapParseRecordHeader s₁.info q = (rec, .ok)) : NextAlike data r s := by
  have hcap := pcapParseRecordHeader_caplen hrec
  obtain ⟨r₂, s₂, hsync, hsame, ⟨q', hr', hs', hbytes, hpos'⟩ | ⟨got, -, -, hr', hs', -⟩⟩ := h.take hcap
  · have hnext : pcapNext r = ({ r₂ with records := r₂.records + 1 }, .ok,
        { rec with data := some ⟨data, r₁.memPos⟩ }) := by
      simp only [pcapNext, hok, hr, hrec, hr', ne_eq, not_true, if_false]
    have hnext' : pcapNext s = ({ s₂ with records := s₂.records + 1 }, .ok,
        { rec with data := some q' }) := by
      simp only [pcapNext, hsok, hs, hrec', hs', ne_eq, not_true, if_false]
    have hle := hsync.memPos
    rw [hpos'] at hle
    have hfinal : Synced data { r₂ with records := r₂.records + 1 } { s₂ with records := s₂.records + 1 } :=
      ⟨hsync.fp, hsync.mem, hsync.memLen, hsync.memPos, hsync.stream, hsync.info,
        congrArg (· + 1) hsync.records, hsync.error⟩
    refine ⟨?_, by rw [hnext, hnext'], ?_, fun _ => hok, ?_, ?_⟩
    · rw [hnext, hnext']
      exact hfinal.paired
    · rw [hnext]
      exact hsame.error.trans hok₁
    · intro _
      rw [hnext, hnext', ← hpos]
      exact ⟨rfl, rfl, rfl, rfl, hle, q', rfl, hbytes⟩
    · intro _
      rw [hnext, ← Nat.add_assoc, ← hpos]
      exact hpos'
  · obtain ⟨hstr, hsts⟩ := hsync.status .errTruncRecord
    have hst : PcapStatus.errTruncRecord ≠ .ok := PcapStatus.noConfusion
    apply NextAlike.of_failed hsync hst (x := rec) (y := rec)
    · simp only [pcapNext, hok, hr, hrec, hr', hstr, ne_eq, not_true, if_false]
    · simp only [pcapNext, hsok, hs, hrec', hs', hsts, ne_eq, not_true, if_false]

/-- **`pcap_next` treats both readers alike.** -/
theorem Synced.next (h : Synced data r s) (hok : r.error = .ok) : NextAlike data r s := by
  have hsok : s.error = .ok := h.error.trans hok
  obtain ⟨r₁, s₁, hsync, hsame, ⟨q, hr, hs, hbytes, hpos⟩ | ⟨got, -, -, hr, hs, -⟩⟩ :=
    h.take (n := pcapRecordHdrLen) (by decide)
  · have hparse : pcapParseRecordHeader s₁.info q = pcapParseRecordHeader r₁.info ⟨data, r.memPos⟩ := by
      rw [hsync.info, pcapParseRecordHeader_congr (Ptr.Agree.of_bytes hbytes)]
    rcases hrec : pcapParseRecordHeader r₁.info ⟨data, r.memPos⟩ with ⟨rec, st⟩
    rw [hrec] at hparse
    by_cases hst : st = .ok
    · subst hst
      exact hsync.nextData hok hsok (hsame.error.trans hok) hpos hr hs hrec hparse
    · apply NextAlike.of_failed hsync hst (x := rec) (y := rec)
      · simp only [pcapNext, hok, hr, hrec, ne_eq, not_true, if_false, if_pos hst]
      · simp only [pcapNext, hsok, hs, hparse, ne_eq, not_true, if_false, if_pos hst]
  · obtain ⟨hstr, hsts⟩ := hsync.status (if got = 0 then .eof else .errTruncRecordHdr)
    have hst : (if got = 0 then .eof else .errTruncRecordHdr : PcapStatus) ≠ .ok := by
      split_ifs <;> exact PcapStatus.noConfusion
    apply NextAlike.of_failed hsync hst (x := {}) (y := {})
    · simp only [pcapNext, hok, hr, hstr, ne_eq, not_true, if_false]
    · simp only [pcapNext, hsok, hs, hsts, ne_eq, not_true, if_false]

theorem Paired.next (h : Paired data r s) : NextAlike data r s := by
  by_cases hok : r.error = .ok
  · exact (h.synced hok).next hok
  · have hnext : pcapNext r = (r, r.error, {}) := by rw [pcapNext, if_pos hok]
    have hnext' : pcapNext s = (s, r.error, {}) := by
      rw [← h.error] at hok ⊢
      rw [pcapNext, if_pos hok]
    have hne : (pcapNext r).2.1 ≠ .ok := by rwa [hnext]
    refine ⟨?_, by rw [hnext, hnext'], by rw [hnext], fun hst => absurd hst hne, fun hst => absurd hst hne,
      fun hst => absurd hst hne⟩
    rw [hnext, hnext']
    exact h

end paired

/-! ### The theorem -/

/-- The reader after `k` calls of `pcap_next`. -/
def nthReader (r : PcapReader) (k : ℕ) : PcapReader := (fun r => (pcapNext r).1)^[k] r

/-- Where the header of the next record starts, behind `k` records. -/
def nthStart (r : PcapReader) (k : ℕ) : ℕ :=
  pcapGlobalHdrLen + ∑ i ∈ Finset.range k, (pcapRecordHdrLen + (pcapNext (nthReader r i)).2.2.caplen.toNat)

theorem nthReader_succ (r : PcapReader) (k : ℕ) : nthReader r (k + 1) = (pcapNext (nthReader r k)).1 :=
  Function.iterate_succ_apply' _ k r

theorem le_nthStart (r : PcapReader) (k : ℕ) : pcapGlobalHdrLen + pcapRecordHdrLen * k ≤ nthStart r k := by
  have hsum : ∑ _i ∈ Finset.range k, pcapRecordHdrLen ≤ ∑ i ∈ Finset.range k,
      (pcapRecordHdrLen + (pcapNext (nthReader r i)).2.2.caplen.toNat) := by
    apply Finset.sum_le_sum
    intro i _
    exact Nat.le_add_right _ _
  rw [Finset.sum_const, Finset.card_range, smul_eq_mul, Nat.mul_comm] at hsum
  exact Nat.add_le_add_left hsum _

section opened

variable (data : List UInt8)

theorem synced_initial :
    Synced data { mem := data, memLen := data.length } { fp := some { rest := data } } := by
  refine ⟨rfl, rfl, rfl, Nat.zero_le _, ⟨_, rfl, rfl, rfl, rfl, ?_⟩, rfl, rfl, rfl⟩
  intro n hn
  exact absurd hn List.not_mem_nil

theorem open_paired : (pcapOpenStream (some { rest := data }) true).2 = (pcapOpenMem data).2 ∧
    Paired data (pcapOpenMem data).1 (pcapOpenStream (some { rest := data }) true).1 ∧
    ((pcapOpenMem data).1.error = .ok → (pcapOpenMem data).1.memPos = pcapGlobalHdrLen) := by
  obtain ⟨r, s, st, hr, hs, hsync, herr, hrec, hpos⟩ := (synced_initial data).readGlobalHeader rfl
  by_cases hst : st = .ok
  · have hmem : pcapOpenMem data = (r, st) := by
      simp only [pcapOpenMem, hr, ne_eq, hst, not_true, if_false]
    have hstream : pcapOpenStream (some { rest := data }) true = (s, st) := by
      simp only [pcapOpenStream, hs, ne_eq, hst, not_true, if_true, if_false]
    rw [hmem, hstream]
    exact ⟨rfl, hsync.paired, fun _ => hpos hst⟩
  · have hmem : pcapOpenMem data = ({ r with error := st }, st) := by
      simp only [pcapOpenMem, hr, ne_eq, if_pos hst]
    have hstream : pcapOpenStream (some { rest := data }) true = ({ error := st }, st) := by
      simp only [pcapOpenStream, hs, ne_eq, if_pos hst, if_true]
    rw [hmem, hstream]
    refine ⟨rfl, ⟨hsync.memLen, hsync.memPos, ?_, rfl, hrec.symm, fun hok => absurd hok hst⟩,
      fun hok => absurd hok hst⟩
    intro fp hfp
    cases hfp

/-- The readers after `k` calls. -/
structure AfterCalls (k : ℕ) : Prop where
  paired : Paired data (nthReader (pcapOpenMem data).1 k)
    (nthReader (pcapOpenStream (some { rest := data }) true).1 k)
  pos : (nthReader (pcapOpenMem data).1 k).error = .ok →
    (nthReader (pcapOpenMem data).1 k).memPos = nthStart (pcapOpenMem data).1 k

theorem afterCalls (k : ℕ) : AfterCalls data k := by
  induction k with
  | zero =>
      obtain ⟨-, hpaired, hpos⟩ := open_paired data
      exact ⟨hpaired, hpos⟩
  | succ k ih =>
      have hnext := ih.paired.next
      constructor
      · rw [nthReader_succ, nthReader_succ]
        exact hnext.paired
      · intro hok
        rw [nthReader_succ] at hok ⊢
        rw [hnext.sticky] at hok
        rw [hnext.pos hok, ih.pos (hnext.before hok)]
        unfold nthStart
        rw [Finset.sum_range_succ, Nat.add_assoc]

/-- **A file read in memory and as a stream.** -/
theorem readers_alike :
    (pcapOpenStream (some { rest := data }) true).2 = (pcapOpenMem data).2 ∧
      (∀ fp, (readGlobalHeader { fp := some { rest := data } }).1.fp = some fp →
        ∀ n ∈ fp.asks, n ≤ pcapMaxCaplen) ∧
      ∀ k,
        let r := nthReader (pcapOpenMem data).1 k
        let s := nthReader (pcapOpenStream (some { rest := data }) true).1 k
        (pcapNext s).2.1 = (pcapNext r).2.1 ∧ s.records = r.records ∧ r.memPos ≤ r.memLen ∧
          (∀ fp, s.fp = some fp → ∀ n ∈ fp.asks, n ≤ pcapMaxCaplen) ∧
          ((pcapNext r).2.1 = .ok →
            SameRecord data (nthStart (pcapOpenMem data).1 k + pcapRecordHdrLen) (pcapNext r).2.2
                (pcapNext s).2.2 ∧
              k + 1 ≤ (data.length - pcapGlobalHdrLen) / pcapRecordHdrLen) := by
  obtain ⟨hst, -, -⟩ := open_paired data
  refine ⟨hst, ?_, ?_⟩
  · obtain ⟨r, s, st, -, hs, hsync, -⟩ := (synced_initial data).readGlobalHeader rfl
    rw [hs]
    exact hsync.paired.asks
  · intro k
    have h := afterCalls data k
    have hnext := h.paired.next
    refine ⟨hnext.status, h.paired.records, h.paired.memPos.trans h.paired.memLen.ge, h.paired.asks, ?_⟩
    intro hok
    have hrecord := hnext.record hok
    rw [h.pos (hnext.before hok)] at hrecord
    refine ⟨hrecord, ?_⟩
    have hstart := le_nthStart (pcapOpenMem data).1 k
    have hfits := hrecord.fits
    rw [Nat.le_div_iff_mul_le (by decide)]
    simp only [pcapGlobalHdrLen, pcapRecordHdrLen] at hstart hfits ⊢
    omega

end opened

end Pcapstat
