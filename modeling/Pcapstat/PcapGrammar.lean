import Pcapstat.FrameWriter
import Pcapstat.ReaderPair

/-! # The grammar of capture files

A file that is opened is a global header, a row of complete records and a tail (`exists_records`), and there is
only one way to read it so (`records_unique`).  The reader returns these records, and the tail decides how it
ends (`Tail.delivers`): at the end of the file if there is none.

The header may say more than the writer of the tests does: a time zone, a precision, and bits above the link
type. -/

namespace Pcapstat

/-! ### Integers -/

section integers

theorem exists_bbU16 (be : Bool) {bs : List UInt8} (h : bs.length = 2) : ∃ v, bs = bbU16 v be := by
  obtain ⟨b, b', rfl⟩ := List.length_eq_two.mp h
  cases be with
  | true => exact exists_bbBe16 b b'
  | false =>
      obtain ⟨v, hv⟩ := exists_bbBe16 b' b
      exact ⟨v, congrArg List.reverse hv⟩

theorem exists_bbU32 (be : Bool) {bs : List UInt8} (h : bs.length = 4) : ∃ v, bs = bbU32 v be := by
  match bs, h with
  | [b₃, b₂, b₁, b₀], _ =>
      cases be with
      | true => exact exists_bbBe32 b₃ b₂ b₁ b₀
      | false =>
          obtain ⟨v, hv⟩ := exists_bbBe32 b₀ b₁ b₂ b₃
          exact ⟨v, congrArg List.reverse hv⟩

theorem bbU32_inj {be : Bool} {v v' : UInt32} (h : bbU32 v be = bbU32 v' be) : v = v' := by
  have hread : ∀ u, bbU32 u be = bbU32 v be → rd32 ⟨bbU32 v be, 0⟩ 0 be = u := fun u hu =>
    @rd32_of_bytes _ 4 0 _ _ [] (by simp [Ptr.bytes, hu])
  rw [← hread v rfl, hread v' h.symm]

theorem bbU32_append_inj {be : Bool} {v v' : UInt32} {more more' : List UInt8}
    (h : bbU32 v be ++ more = bbU32 v' be ++ more') : v = v' ∧ more = more' := by
  obtain ⟨hv, hmore⟩ := List.append_inj h (by simp)
  exact ⟨bbU32_inj hv, hmore⟩

end integers

/-! ### Records -/

/-- The header of a record. -/
def recordHeader (be : Bool) (sec frac caplen origlen : UInt32) : List UInt8 :=
  bbU32 sec be ++ (bbU32 frac be ++ (bbU32 caplen be ++ bbU32 origlen be))

/-- What stands behind the complete records, and how reading it ends. -/
inductive Tail (be : Bool) : List UInt8 → PcapStatus → Prop where
  | eof : Tail be [] .eof
  /-- no whole header -/
  | header {bs : List UInt8} (hne : bs ≠ []) (hlen : bs.length < pcapRecordHdrLen) : Tail be bs .errTruncRecordHdr
  /-- a header that asks for too much -/
  | caplen {sec frac caplen origlen : UInt32} {bs : List UInt8} (hcap : pcapMaxCaplen < caplen.toNat) :
      Tail be (recordHeader be sec frac caplen origlen ++ bs) .errBadCaplen
  /-- a header, and not all of the data -/
  | data {sec frac caplen origlen : UInt32} {bs : List UInt8} (hcap : caplen.toNat ≤ pcapMaxCaplen)
      (hlen : bs.length < caplen.toNat) : Tail be (recordHeader be sec frac caplen origlen ++ bs) .errTruncRecord

section records

variable {be nsec : Bool} {bs rest rest' : List UInt8} {raws raws' : List RawRecord} {st st' : PcapStatus}
  {r : PcapReader}

theorem length_recordHeader (sec frac caplen origlen : UInt32) :
    (recordHeader be sec frac caplen origlen).length = pcapRecordHdrLen := by
  simp [recordHeader, pcapRecordHdrLen]

theorem pcapPutRecords_cons (raw : RawRecord) (raws : List RawRecord) :
    pcapPutRecords be (raw :: raws) = pcapPutRecord be raw ++ pcapPutRecords be raws := rfl

theorem recordHeader_inj {sec frac caplen origlen sec' frac' caplen' origlen' : UInt32}
    (h : recordHeader be sec frac caplen origlen ++ bs = recordHeader be sec' frac' caplen' origlen' ++ rest) :
    (sec = sec' ∧ frac = frac' ∧ caplen = caplen' ∧ origlen = origlen') ∧ bs = rest := by
  unfold recordHeader at h
  simp only [List.append_assoc] at h
  obtain ⟨hsec, h⟩ := bbU32_append_inj h
  obtain ⟨hfrac, h⟩ := bbU32_append_inj h
  obtain ⟨hcap, h⟩ := bbU32_append_inj h
  obtain ⟨horig, h⟩ := bbU32_append_inj h
  exact ⟨⟨hsec, hfrac, hcap, horig⟩, h⟩

theorem exists_recordHeader (be : Bool) (h : pcapRecordHdrLen ≤ bs.length) : ∃ sec frac caplen origlen,
    bs = recordHeader be sec frac caplen origlen ++ bs.drop pcapRecordHdrLen := by
  have hfour : ∀ i, i + 4 ≤ pcapRecordHdrLen → ((bs.drop i).take 4).length = 4 := by
    intro i hi
    rw [List.length_take, List.length_drop]
    omega
  obtain ⟨sec, hsec⟩ := exists_bbU32 be (hfour 0 (by decide))
  obtain ⟨frac, hfrac⟩ := exists_bbU32 be (hfour 4 (by decide))
  obtain ⟨caplen, hcap⟩ := exists_bbU32 be (hfour 8 (by decide))
  obtain ⟨origlen, horig⟩ := exists_bbU32 be (hfour 12 (by decide))
  refine ⟨sec, frac, caplen, origlen, ?_⟩
  unfold recordHeader
  rw [← hsec, ← hfrac, ← hcap, ← horig]
  have hstep : ∀ i, (bs.drop i).take 4 ++ bs.drop (i + 4) = bs.drop i := by
    intro i
    rw [← List.drop_drop, List.take_append_drop]
  show bs = _ ++ bs.drop (12 + 4)
  rw [List.append_assoc, List.append_assoc, List.append_assoc, hstep 12, hstep 8, hstep 4, hstep 0, List.drop_zero]

theorem exists_raw {sec frac caplen origlen : UInt32} (hcap : caplen.toNat ≤ pcapMaxCaplen)
    (hlen : caplen.toNat ≤ bs.length) : ∃ raw : RawRecord,
      recordHeader be sec frac caplen origlen ++ bs = pcapPutRecord be raw ++ bs.drop caplen.toNat := by
  have htake : (bs.take caplen.toNat).length = caplen.toNat := List.length_take_of_le hlen
  refine ⟨⟨sec, frac, origlen, bs.take caplen.toNat, htake.trans_le hcap⟩, ?_⟩
  unfold pcapPutRecord RawRecord.header recordHeader
  dsimp only
  rw [htake, UInt32.ofNat_toNat, List.append_assoc _ (bs.take _), List.take_append_drop]

/-- **Every row of bytes is a row of complete records and a tail.** -/
theorem exists_records (be : Bool) (bs : List UInt8) :
    ∃ raws rest st, bs = pcapPutRecords be raws ++ rest ∧ Tail be rest st := by
  induction hn : bs.length using Nat.strong_induction_on generalizing bs with
  | _ n ih =>
      by_cases hnil : bs = []
      · exact ⟨[], [], .eof, hnil, .eof⟩
      by_cases hhdr : bs.length < pcapRecordHdrLen
      · exact ⟨[], bs, .errTruncRecordHdr, rfl, .header hnil hhdr⟩
      obtain ⟨sec, frac, caplen, origlen, hbs⟩ := exists_recordHeader be (not_lt.mp hhdr)
      by_cases hcap : pcapMaxCaplen < caplen.toNat
      · refine ⟨[], bs, .errBadCaplen, rfl, ?_⟩
        rw [hbs]
        exact .caplen hcap
      by_cases hlen : (bs.drop pcapRecordHdrLen).length < caplen.toNat
      · refine ⟨[], bs, .errTruncRecord, rfl, ?_⟩
        rw [hbs]
        exact .data (not_lt.mp hcap) hlen
      obtain ⟨raw, hraw⟩ := exists_raw (not_lt.mp hcap)
        (not_lt.mp hlen)
      rw [← hbs] at hraw
      have hless : ((bs.drop pcapRecordHdrLen).drop caplen.toNat).length < n := by
        rw [List.length_drop, List.length_drop]
        rw [pcapRecordHdrLen] at hhdr ⊢
        omega
      obtain ⟨raws, rest, st, hsplit, htail⟩ := ih _ hless _ rfl
      refine ⟨raw :: raws, rest, st, ?_, htail⟩
      rw [hsplit] at hraw
      rw [hraw, pcapPutRecords_cons, List.append_assoc]

theorem pcapPutRecord_append (raw : RawRecord) (more : List UInt8) : pcapPutRecord be raw ++ more =
    recordHeader be raw.sec raw.frac (UInt32.ofNat raw.data.length) raw.origlen ++ (raw.data ++ more) := by
  rw [pcapPutRecord, List.append_assoc]
  rfl

theorem pcapPutRecord_inj {raw raw' : RawRecord} (h : pcapPutRecord be raw ++ rest = pcapPutRecord be raw' ++ rest') :
    raw = raw' ∧ rest = rest' := by
  rw [pcapPutRecord_append, pcapPutRecord_append] at h
  obtain ⟨⟨hsec, hfrac, hcap, horig⟩, h⟩ := recordHeader_inj h
  have hlen : raw.data.length = raw'.data.length := by
    rw [← raw.caplen_toNat, hcap, raw'.caplen_toNat]
  obtain ⟨hdata, hrest⟩ := List.append_inj h hlen
  refine ⟨?_, hrest⟩
  cases raw
  cases raw'
  simp_all

theorem Tail.not_record (h : Tail be rest st) (raw : RawRecord) (more : List UInt8) :
    rest ≠ pcapPutRecord be raw ++ more := by
  have hfits := raw.fits
  have hraw := raw.caplen_toNat
  have hlong : pcapRecordHdrLen ≤ (pcapPutRecord be raw ++ more).length := by
    rw [List.length_append, length_pcapPutRecord, RawRecord.size]
    omega
  intro heq
  cases h with
  | eof =>
      rw [← heq] at hlong
      exact absurd hlong (by decide)
  | header _ hlen =>
      rw [← heq] at hlong
      exact absurd hlen (not_lt.mpr hlong)
  | caplen hcap =>
      rw [pcapPutRecord_append] at heq
      obtain ⟨⟨-, -, rfl, -⟩, -⟩ := recordHeader_inj heq
      rw [hraw] at hcap
      exact absurd hfits (not_le.mpr hcap)
  | data _ hlen =>
      rw [pcapPutRecord_append] at heq
      obtain ⟨⟨-, -, rfl, -⟩, rfl⟩ := recordHeader_inj heq
      rw [hraw, List.length_append] at hlen
      omega

/-- **There is only one way to read a file as records and a tail.** -/
theorem records_unique (h : pcapPutRecords be raws ++ rest = pcapPutRecords be raws' ++ rest') (ht : Tail be rest st)
    (ht' : Tail be rest' st') : raws = raws' ∧ rest = rest' := by
  induction raws generalizing raws' with
  | nil =>
      cases raws' with
      | nil => exact ⟨rfl, h⟩
      | cons raw' raws' =>
          rw [pcapPutRecords_cons, List.append_assoc] at h
          exact absurd h (ht.not_record raw' _)
  | cons raw raws ih =>
      rw [pcapPutRecords_cons, List.append_assoc] at h
      cases raws' with
      | nil => exact absurd h.symm (ht'.not_record raw _)
      | cons raw' raws' =>
          rw [pcapPutRecords_cons, List.append_assoc] at h
          obtain ⟨rfl, htail⟩ := pcapPutRecord_inj h
          obtain ⟨rfl, hrest⟩ := ih htail
          exact ⟨rfl, hrest⟩

theorem pcapParseRecordHeader_recordHeader {info : PcapFileInfo} {hdr : Ptr} {sec frac caplen origlen : UInt32}
    (hbe : info.bigEndian = be) (h : hdr.bytes pcapRecordHdrLen = recordHeader be sec frac caplen origlen) :
    (pcapParseRecordHeader info hdr).1.caplen = caplen ∧ (pcapParseRecordHeader info hdr).2 =
      if caplen.toNat > pcapMaxCaplen then .errBadCaplen else .ok := by
  have hcap : rd32 hdr 8 be = caplen := by
    apply @rd32_of_bytes hdr pcapRecordHdrLen 8 _ _ (bbU32 origlen be)
    rw [h]
    cases be <;> rfl
  unfold pcapParseRecordHeader
  simp only [hbe, hcap]
  split <;> exact ⟨rfl, rfl⟩

theorem pcapNext_recordHeader {sec frac caplen origlen : UInt32} (hr : Ready be nsec r)
    (hrest : r.rest = recordHeader be sec frac caplen origlen ++ bs)
    (hstop : pcapMaxCaplen < caplen.toNat ∨ bs.length < caplen.toNat) : ∃ r' rec,
      pcapNext r = (r', if caplen.toNat > pcapMaxCaplen then .errBadCaplen else .errTruncRecord, rec) := by
  have hlen := @length_recordHeader be sec frac caplen origlen
  obtain ⟨r₁, hdr, htake, ht, hbytes⟩ := take_full hr.sound (n := pcapRecordHdrLen) (by
    rw [hrest, List.length_append, hlen]
    exact Nat.le_add_right _ _)
  rw [hrest, List.take_left' hlen] at hbytes
  have hrest₁ := ht.rest
  rw [hrest, List.drop_left' hlen] at hrest₁
  obtain ⟨hcap, hst⟩ := pcapParseRecordHeader_recordHeader
    ((congrArg PcapFileInfo.bigEndian ht.info).trans hr.bigEndian) hbytes
  rcases hparse : pcapParseRecordHeader r₁.info hdr with ⟨hd, st₁⟩
  rw [hparse] at hcap hst
  dsimp only at hcap hst
  by_cases hbad : caplen.toNat > pcapMaxCaplen
  · rw [if_pos hbad] at hst ⊢
    refine ⟨{ r₁ with error := .errBadCaplen }, hd, ?_⟩
    simp only [pcapNext, hr.error, htake, hparse, hst, ne_eq, not_true, if_false, reduceCtorEq, not_false_eq_true,
      if_true]
  · rw [if_neg hbad] at hst ⊢
    obtain ⟨r₂, htake', hst'⟩ := take_short ht.sound (n := hd.caplen.toNat) (by
      rw [hrest₁, hcap]
      omega)
    refine ⟨{ r₂ with error := .errTruncRecord }, hd, ?_⟩
    simp only [pcapNext, hr.error, htake, hparse, hst, htake', hst', ne_eq, not_true, if_false]

theorem Tail.delivers (h : Tail be rest st) (hr : Ready be nsec r) (hrest : r.rest = rest) :
    ∃ r', Delivers r [] st r' := by
  cases h with
  | eof => exact delivers_eof hr hrest
  | header hne hlen =>
      obtain ⟨r', rec, hnext⟩ := pcapNext_short hr (hrest ▸ hlen)
      rw [hrest, if_neg (fun hnil => hne (List.eq_nil_of_length_eq_zero hnil))] at hnext
      exact ⟨r', .stop hnext (by decide)⟩
  | caplen hcap =>
      obtain ⟨r', rec, hnext⟩ := pcapNext_recordHeader hr hrest (.inl hcap)
      rw [if_pos hcap] at hnext
      exact ⟨r', .stop hnext (by decide)⟩
  | data hcap hlen =>
      obtain ⟨r', rec, hnext⟩ := pcapNext_recordHeader hr hrest (.inr hlen)
      rw [if_neg (not_lt.mpr hcap)] at hnext
      exact ⟨r', .stop hnext (by decide)⟩

theorem Tail.unique (ht : Tail be rest st) (ht' : Tail be rest st') : st = st' := by
  have hready : Ready be false { mem := rest, memLen := rest.length, info := { bigEndian := be } } :=
    ⟨⟨rfl, Nat.zero_le _⟩, rfl, rfl, rfl⟩
  have hrest : PcapReader.rest { mem := rest, memLen := rest.length, info := { bigEndian := be } } = rest := by
    simp [PcapReader.rest]
  obtain ⟨_, hdel⟩ := ht.delivers hready hrest
  obtain ⟨_, hdel'⟩ := ht'.delivers hready hrest
  cases hdel with
  | stop hnext _ =>
      cases hdel' with
      | stop hnext' _ =>
          rw [hnext, Prod.mk.injEq, Prod.mk.injEq] at hnext'
          exact hnext'.2.1

end records

/-! ### The global header -/

/-- A header that the reader accepts. -/
structure GlobalHeader (be nsec : Bool) (hdr : List UInt8) : Prop where
  length : hdr.length = pcapGlobalHdrLen
  magic : hdr.take 4 = bbU32 (fileMagic nsec) be
  version : (hdr.drop 4).take 4 = bbU16 2 be ++ bbU16 4 be
  /-- the bits above the link type are free -/
  linktype : ∃ v, hdr.drop 20 = bbU32 v be ∧ v &&& linktypeMask = pcapLinktypeEthernet

section header

variable {be nsec : Bool} {hdr : Ptr} {bs data : List UInt8} {r : PcapReader} {st : PcapStatus}

theorem parseMagic_eq {magic : UInt32} (h : parseMagic magic = .ok (be, nsec)) : magic = seenMagic be nsec := by
  unfold parseMagic at h
  split_ifs at h with h₁ h₂ h₃ h₄ h₅
  · cases h; exact h₁
  · cases h; exact h₂
  · cases h; exact h₃
  · cases h; exact h₄

theorem rd32_of_field {i : ℕ} {v : UInt32} (h : hdr.bytes pcapGlobalHdrLen = bs)
    (hv : (bs.drop i).take 4 = bbU32 v be) :
    rd32 hdr i be = v := by
  apply @rd32_of_bytes hdr pcapGlobalHdrLen i v be ((bs.drop i).drop 4)
  rw [h, ← hv, List.take_append_drop]

theorem rd16_of_field {i : ℕ} {v : UInt16} (h : hdr.bytes pcapGlobalHdrLen = bs)
    (hv : (bs.drop i).take 2 = bbU16 v be) :
    rd16 hdr i be = v := by
  apply @rd16_of_bytes hdr pcapGlobalHdrLen i v be ((bs.drop i).drop 2)
  rw [h, ← hv, List.take_append_drop]

/-- What an accepted header says. -/
def fileInfo (be nsec : Bool) (snaplen : UInt32) : PcapFileInfo :=
  { bigEndian := be
    nsec := nsec
    versionMajor := 2
    versionMinor := 4
    snaplen := snaplen
    linktype := pcapLinktypeEthernet }

theorem length_field {n i : ℕ} (hlen : bs.length = pcapGlobalHdrLen) (hi : i + n ≤ pcapGlobalHdrLen) :
    ((bs.drop i).take n).length = n := by
  rw [List.length_take, List.length_drop]
  omega

theorem linktype_field (hlen : bs.length = pcapGlobalHdrLen) : bs.drop 20 = (bs.drop 20).take 4 := by
  rw [List.take_of_length_le]
  rw [List.length_drop, hlen]
  decide

theorem GlobalHeader.accepted {snaplen : UInt32} (hg : GlobalHeader be nsec bs) (h : hdr.bytes pcapGlobalHdrLen = bs)
    (hsnaplen : (bs.drop 16).take 4 = bbU32 snaplen be) :
    pcapParseGlobalHeader hdr pcapGlobalHdrLen = (fileInfo be nsec snaplen, .ok) := by
  obtain ⟨hlen, hmagic, hversion, v, hl, hmask⟩ := hg
  rw [show 4 = 2 + 2 from rfl, List.take_add, List.drop_drop] at hversion
  obtain ⟨hmajor, hminor⟩ := List.append_inj hversion (by rw [length_field hlen (by decide)]; simp)
  rw [linktype_field hlen] at hl
  have hread : rd32 hdr 0 false = seenMagic be nsec := by
    apply rd32_of_field h
    rw [List.drop_zero, hmagic, bbU32_fileMagic]
  unfold pcapParseGlobalHeader fileInfo
  rw [if_neg (by decide), hread, parseMagic_seenMagic]
  simp only [lt_irrefl, if_false, rd16_of_field h hmajor, rd16_of_field h hminor, rd32_of_field h hsnaplen,
    rd32_of_field h hl, hmask, ne_eq, not_true, or_self]

/-- A header is accepted if and only if it is one of the grammar. -/
theorem pcapParseGlobalHeader_iff (h : hdr.bytes pcapGlobalHdrLen = bs) (hlen : bs.length = pcapGlobalHdrLen) :
    (∃ info, pcapParseGlobalHeader hdr pcapGlobalHdrLen = (info, .ok) ∧ info.bigEndian = be ∧
    info.nsec = nsec) ↔
      GlobalHeader be nsec bs := by
  constructor
  swap
  · intro hg
    obtain ⟨snaplen, hsnaplen⟩ := exists_bbU32 be (@length_field bs 4 16 hlen (by decide))
    exact ⟨_, hg.accepted h hsnaplen, rfl, rfl⟩
  obtain ⟨magic, hmagic⟩ := exists_bbU32 false (@length_field bs 4 0 hlen (by decide))
  obtain ⟨major, hmajor⟩ := exists_bbU16 be (@length_field bs 2 4 hlen (by decide))
  obtain ⟨minor, hminor⟩ := exists_bbU16 be (@length_field bs 2 6 hlen (by decide))
  obtain ⟨link, hlink⟩ := exists_bbU32 be (@length_field bs 4 20 hlen (by decide))
  have hread := rd32_of_field h hmagic
  rw [List.drop_zero] at hmagic
  rintro ⟨info, hparse, rfl, rfl⟩
  unfold pcapParseGlobalHeader at hparse
  rw [if_neg (by decide), hread] at hparse
  cases hm : parseMagic magic with
  | error st =>
      rw [hm] at hparse
      exact absurd (Prod.mk.inj hparse).2 (parseMagic_error hm)
  | ok bn =>
      obtain ⟨be', nsec'⟩ := bn
      rw [hm] at hparse
      simp only [lt_irrefl, if_false] at hparse
      split_ifs at hparse with hver hlk
      · exact absurd (Prod.mk.inj hparse).2 (by decide)
      · exact absurd (Prod.mk.inj hparse).2 (by decide)
      obtain rfl := (Prod.mk.inj hparse).1
      dsimp only at *
      rw [rd16_of_field h hmajor, rd16_of_field h hminor, not_or, not_not, not_not] at hver
      rw [rd32_of_field h hlink, not_not] at hlk
      refine ⟨hlen, ?_, ?_, link, (linktype_field hlen).trans hlink, hlk⟩
      · rw [hmagic, parseMagic_eq hm, ← bbU32_fileMagic]
      · rw [show 4 = 2 + 2 from rfl, List.take_add, List.drop_drop, hmajor, hminor, hver.1, hver.2]

theorem readGlobalHeader_accepts {hdr body : List UInt8} (hsound : r.Sound) (herr : r.error = .ok)
    (hrest : r.rest = hdr ++ body) (hhdr : GlobalHeader be nsec hdr) :
    ∃ r', readGlobalHeader r = (r', .ok) ∧ Ready be nsec r' ∧ r'.rest = body := by
  obtain ⟨r₁, p, htake, ht, hbytes⟩ := take_full hsound (n := pcapGlobalHdrLen) (by
    rw [hrest, List.length_append, hhdr.length]
    exact Nat.le_add_right _ _)
  rw [hrest, List.take_left' hhdr.length] at hbytes
  have hrest₁ := ht.rest
  rw [hrest, List.drop_left' hhdr.length] at hrest₁
  obtain ⟨info, hparse, hbe, hns⟩ := (pcapParseGlobalHeader_iff hbytes hhdr.length).mpr hhdr
  refine ⟨{ r₁ with info := info }, ?_, ⟨ht.sound, ht.error.trans herr, hbe, hns⟩, hrest₁⟩
  simp only [readGlobalHeader, htake, hparse]

theorem readGlobalHeader_ok (hsound : r.Sound) (hok : (readGlobalHeader r).2 = .ok) :
    ∃ be nsec hdr body, r.rest = hdr ++ body ∧ GlobalHeader be nsec hdr := by
  by_cases hlen : r.rest.length < pcapGlobalHdrLen
  · exfalso
    obtain ⟨r₁, htake, hst⟩ := take_short hsound hlen
    simp only [readGlobalHeader, htake, hst] at hok
    split at hok
    · exact pcapParseGlobalHeader_short hlen hok
    · cases hok
  · obtain ⟨r₁, p, htake, ht, hbytes⟩ := take_full hsound (not_lt.mp hlen)
    have hfull : (r.rest.take pcapGlobalHdrLen).length = pcapGlobalHdrLen := List.length_take_of_le (not_lt.mp hlen)
    rcases hparse : pcapParseGlobalHeader p pcapGlobalHdrLen with ⟨info, st⟩
    simp only [readGlobalHeader, htake, hparse] at hok
    rw [hok] at hparse
    exact ⟨info.bigEndian, info.nsec, _, _, (List.take_append_drop _ _).symm,
      (pcapParseGlobalHeader_iff hbytes hfull).mp ⟨info, hparse, rfl, rfl⟩⟩

theorem Opens.from (h : Opens data r st) : ∃ r₀ : PcapReader, r₀.Sound ∧ r₀.error = .ok ∧
    r₀.rest = data ∧
    st = (readGlobalHeader r₀).2 ∧ (st = .ok → r = (readGlobalHeader r₀).1) := by
  cases h with
  | mem =>
      refine ⟨{ mem := data, memLen := data.length }, ⟨rfl, Nat.zero_le _⟩, rfl, by simp [PcapReader.rest], ?_⟩
      rcases hread : readGlobalHeader { mem := data, memLen := data.length } with ⟨r₁, st₁⟩
      simp only [pcapOpenMem, hread]
      split_ifs with hst
      · exact ⟨rfl, fun hok => absurd hok hst⟩
      · exact ⟨rfl, fun _ => rfl⟩
  | stream =>
      refine ⟨{ fp := some { rest := data } }, ⟨rfl, rfl⟩, rfl, rfl, ?_⟩
      rcases hread : readGlobalHeader { fp := some { rest := data } } with ⟨r₁, st₁⟩
      simp only [pcapOpenStream, hread, if_true]
      split_ifs with hst
      · exact ⟨rfl, fun hok => absurd hok hst⟩
      · exact ⟨rfl, fun _ => rfl⟩

/-- **A file is opened if and only if it starts with an accepted header.** -/
theorem Opens.ok_iff (h : Opens data r st) :
    st = .ok ↔ ∃ be nsec hdr body, data = hdr ++ body ∧ GlobalHeader be nsec hdr := by
  obtain ⟨r₀, hsound, herr, rfl, hst, -⟩ := h.from
  constructor
  · exact fun hok => readGlobalHeader_ok hsound (hst.symm.trans hok)
  · rintro ⟨be, nsec, hdr, body, hrest, hhdr⟩
    obtain ⟨r', hread, -⟩ := readGlobalHeader_accepts hsound herr hrest hhdr
    rw [hst, hread]

theorem Opens.accepted {hdr body : List UInt8} (h : Opens (hdr ++ body) r st) (hhdr : GlobalHeader be nsec hdr) :
    Ready be nsec r ∧ r.rest = body := by
  obtain ⟨r₀, hsound, herr, hrest, hst, hr⟩ := h.from
  obtain ⟨r', hread, hready, hrest'⟩ := readGlobalHeader_accepts hsound herr hrest hhdr
  rw [hread] at hst hr
  rw [hr hst]
  exact ⟨hready, hrest'⟩

end header

/-! ### The theorem -/

/-- **What the reader makes of any bytes.**  It opens them if and only if they start with an accepted header.
Then there is exactly one way to read what follows as complete records and a tail; the reader returns these
records in order, and it ends as the tail says. -/
theorem pcap_grammar {data : List UInt8} {r : PcapReader} {st : PcapStatus} (h : Opens data r st) :
    (st = .ok ↔ ∃ be nsec hdr body, data = hdr ++ body ∧ GlobalHeader be nsec hdr) ∧
    ∀ be nsec hdr body, data = hdr ++ body → GlobalHeader be nsec hdr →
      ∃ raws rest stop, body = pcapPutRecords be raws ++ rest ∧ Tail be rest stop ∧
        (∀ raws' rest' stop', body = pcapPutRecords be raws' ++ rest' → Tail be rest' stop' →
          raws' = raws ∧ rest' = rest ∧ stop' = stop) ∧
        ∃ recs r', Delivers r recs stop r' ∧ List.Forall₂ (Reads nsec) recs raws := by
  refine ⟨h.ok_iff, ?_⟩
  rintro be nsec hdr body rfl hhdr
  obtain ⟨hready, hrest⟩ := h.accepted hhdr
  obtain ⟨raws, rest, stop, rfl, htail⟩ := exists_records be body
  refine ⟨raws, rest, stop, rfl, htail, ?_, ?_⟩
  · intro raws' rest' stop' hsplit htail'
    obtain ⟨rfl, rfl⟩ := records_unique hsplit.symm htail' htail
    exact ⟨rfl, rfl, htail'.unique htail⟩
  · obtain ⟨recs, r₁, hreads, hready₁, hrest₁, hdel⟩ := delivers_records raws hready hrest
    obtain ⟨r', hstop⟩ := htail.delivers hready₁ hrest₁
    refine ⟨recs, r', ?_, hreads⟩
    have hall := hdel hstop
    rwa [List.append_nil] at hall

/-- A header with a time zone and bits above the link type. -/
def zonedHeader : List UInt8 :=
  [0xD4, 0xC3, 0xB2, 0xA1, 2, 0, 4, 0, 1, 0, 0, 0, 0, 0, 0, 0, 0, 0, 4, 0, 1, 0, 0, 0x30]

/-- A record of one byte, and a header that asks for too much. -/
def greedyBody : List UInt8 :=
  [5, 0, 0, 0, 0, 0, 0, 0, 1, 0, 0, 0, 1, 0, 0, 0, 9, 5, 0, 0, 0, 0, 0, 0, 0, 0, 0, 5, 0, 1, 0, 0, 0]

/-- The file is opened, and one record is read of it. -/
theorem pcap_grammar_zoned : (pcapOpenMem (zonedHeader ++ greedyBody)).2 = .ok ∧
    ∃ raws rest stop recs r', greedyBody = pcapPutRecords false raws ++ rest ∧ Tail false rest stop ∧
      Delivers (pcapOpenMem (zonedHeader ++ greedyBody)).1 recs stop r' ∧ List.Forall₂ (Reads false) recs raws := by
  have hhdr : GlobalHeader false false zonedHeader := by
    refine ⟨rfl, rfl, rfl, 0x30000001, rfl, ?_⟩
    decide
  obtain ⟨hok, hall⟩ := pcap_grammar (@Opens.mem (zonedHeader ++ greedyBody))
  obtain ⟨raws, rest, stop, hsplit, htail, -, recs, r', hdel, hreads⟩ := hall _ _ _ _ rfl hhdr
  exact ⟨hok.mpr ⟨_, _, _, _, rfl, hhdr⟩, raws, rest, stop, recs, r', hsplit, htail, hdel, hreads⟩

end Pcapstat
