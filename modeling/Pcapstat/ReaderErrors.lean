import Pcapstat.PcapWriter
import Pcapstat.ReaderPair

/-! # Read errors

A stream may break: the operating system reports an error where the file would go on.  Up to that place a
broken stream is read like a file that ends there (`pcapNext_breaks`), but the end of the file is not mistaken
for the error, nor the error for a file that was cut short (`brokenStatus`).

* A reader remembers its first error (`pcapNext_error`).
* Only allocations run out of memory, `pcap_next` never does (`Delivers.stops`). -/

namespace Pcapstat

/-! ### Errors -/

section errors

variable {r r' : PcapReader} {st : PcapStatus} {rec : PcapRecord} {n : ℕ}

theorem take_error (r : PcapReader) (n : ℕ) : (take r n).1.error = r.error := by
  unfold take
  cases r.fp with
  | some fp => rfl
  | none =>
      dsimp only
      split_ifs <;> rfl

theorem shortReadStatus_eq (r : PcapReader) (st : PcapStatus) :
    shortReadStatus r st = .errIo ∨ shortReadStatus r st = st := by
  unfold shortReadStatus
  cases r.fp with
  | none => exact .inr rfl
  | some fp =>
      dsimp only
      split_ifs
      · exact .inl rfl
      · exact .inr rfl

theorem pcapParseRecordHeader_status (info : PcapFileInfo) (hdr : Ptr) :
    (pcapParseRecordHeader info hdr).2 = .ok ∨ (pcapParseRecordHeader info hdr).2 = .errBadCaplen := by
  unfold pcapParseRecordHeader
  dsimp only
  by_cases hcap : (rd32 hdr 8 info.bigEndian).toNat > pcapMaxCaplen
  · rw [if_pos hcap]
    exact .inr rfl
  · rw [if_neg hcap]
    exact .inl rfl

/-- The ways in which `pcap_next` stops. -/
def readerStops : List PcapStatus := [.eof, .errIo, .errTruncRecordHdr, .errTruncRecord, .errBadCaplen]

theorem pcapNext_cases (herr : r.error = .ok) (h : pcapNext r = (r', st, rec)) :
    (st = .ok ∧ r'.error = .ok) ∨ st ∈ readerStops ∧ r'.error = st := by
  rw [pcapNext, if_neg (not_not.mpr herr)] at h
  have herr₁ := take_error r pcapRecordHdrLen
  rcases htake : take r pcapRecordHdrLen with ⟨r₁, p, got⟩
  rw [htake] at h herr₁
  cases p with
  | none =>
      simp only [Prod.mk.injEq] at h
      obtain ⟨rfl, rfl, -⟩ := h
      refine .inr ⟨?_, rfl⟩
      rcases shortReadStatus_eq r₁ (if got = 0 then .eof else .errTruncRecordHdr) with hio | hend
      · rw [hio]
        decide
      · rw [hend]
        split_ifs <;> decide
  | some hdr =>
      have hstatus := pcapParseRecordHeader_status r₁.info hdr
      rcases hparse : pcapParseRecordHeader r₁.info hdr with ⟨hd, st₁⟩
      rw [hparse] at hstatus
      simp only [hparse] at h
      by_cases hst₁ : st₁ = .ok
      swap
      · rw [if_pos hst₁, Prod.mk.injEq, Prod.mk.injEq] at h
        obtain ⟨rfl, rfl, -⟩ := h
        have hbad : st₁ = .errBadCaplen := hstatus.resolve_left hst₁
        refine .inr ⟨?_, rfl⟩
        rw [hbad]
        decide
      rw [if_neg (not_not.mpr hst₁)] at h
      have herr₂ := take_error r₁ hd.caplen.toNat
      rcases htake' : take r₁ hd.caplen.toNat with ⟨r₂, p, got₂⟩
      rw [htake'] at h herr₂
      cases p with
      | none =>
          simp only [Prod.mk.injEq] at h
          obtain ⟨rfl, rfl, -⟩ := h
          refine .inr ⟨?_, rfl⟩
          rcases shortReadStatus_eq r₂ .errTruncRecord with hio | hend
          · rw [hio]
            decide
          · rw [hend]
            decide
      | some p =>
          simp only [Prod.mk.injEq] at h
          obtain ⟨rfl, rfl, -⟩ := h
          exact .inl ⟨rfl, herr₂.trans (herr₁.trans herr)⟩

/-- **Errors are sticky**: a reader remembers the status of the last call. -/
theorem pcapNext_error (r : PcapReader) : (pcapNext r).1.error = (pcapNext r).2.1 := by
  by_cases herr : r.error = .ok
  · rcases hnext : pcapNext r with ⟨r', st, rec⟩
    rcases pcapNext_cases herr hnext with ⟨hst, herr'⟩ | ⟨-, herr'⟩
    · exact herr'.trans hst.symm
    · exact herr'
  · rw [pcapNext, if_pos herr]

/-- How `analysis_run` ends.  Only allocations run out of memory, `pcap_next` never does. -/
theorem Delivers.stops {recs : List PcapRecord} (h : Delivers r recs st r') (herr : r.error = .ok) :
    st ∈ readerStops := by
  induction h with
  | stop hnext hst =>
      rcases pcapNext_cases herr hnext with ⟨hok, -⟩ | ⟨hstop, -⟩
      · exact absurd hok hst
      · exact hstop
  | next hnext _ ih =>
      rcases pcapNext_cases herr hnext with ⟨-, herr'⟩ | ⟨hstop, -⟩
      · exact ih herr'
      · exact absurd hstop (by decide)

theorem analysisLoop_stops {w : ℕ} {ok : ℕ → Grants} {fuel i : ℕ} {a a' : Analysis} (herr : r.error = .ok)
    (hrun : analysisLoop w ok fuel i a r = some (a', r', st)) : st ∈ PcapStatus.errNomem :: readerStops := by
  induction fuel generalizing i a r with
  | zero => cases hrun
  | succ fuel ih =>
      rcases hnext : pcapNext r with ⟨r₁, st₁, rec⟩
      rw [analysisLoop, hnext] at hrun
      rcases pcapNext_cases herr hnext with ⟨rfl, herr₁⟩ | ⟨hstop, -⟩
      · simp only [ne_eq, not_true, if_false, Option.bind_eq_bind] at hrun
        obtain ⟨⟨a₁, added⟩, -, hrun⟩ := Option.bind_eq_some_iff.mp hrun
        cases added with
        | false =>
            simp only [Bool.not_false, if_true, Option.some.injEq, Prod.mk.injEq] at hrun
            rw [← hrun.2.2]
            exact List.mem_cons_self
        | true =>
            simp only [Bool.not_true, Bool.false_eq_true, if_false] at hrun
            exact ih herr₁ hrun
      · have hbad : st₁ ≠ .ok := by
          rintro rfl
          exact absurd hstop (by decide)
        simp only [ne_eq, hbad, not_false_eq_true, if_true, Option.some.injEq, Prod.mk.injEq] at hrun
        rw [← hrun.2.2]
        exact List.mem_cons_of_mem _ hstop

end errors

/-! ### Broken streams -/

/-- The stream of the reader ends with an error. -/
def PcapReader.breaks (r : PcapReader) : PcapReader :=
  { r with fp := r.fp.map fun fp => { fp with broken := true } }

/-- The reader has a stream without an error. -/
structure Intact (r : PcapReader) : Prop where
  stream : ∃ fp, r.fp = some fp ∧ fp.broken = false ∧ fp.error = false

/-- What becomes of the status of a file that ends where the stream breaks. -/
def brokenStatus : PcapStatus → PcapStatus
  | .eof => .errIo
  | .errTruncRecordHdr => .errIo
  | .errTruncRecord => .errIo
  | st => st

section broken

variable {r r' : PcapReader} {st : PcapStatus} {rec : PcapRecord} {n got : ℕ} {p : Option Ptr}

theorem Intact.shortReadStatus (h : Intact r) (st : PcapStatus) : Pcapstat.shortReadStatus r st = st := by
  obtain ⟨fp, hfp, -, herr⟩ := h.stream
  rw [Pcapstat.shortReadStatus, hfp]
  dsimp only
  rw [herr]
  exact if_neg Bool.false_ne_true

theorem take_breaks (h : Intact r) (htake : take r n = (r', p, got)) : Intact r' ∧ r'.error = r.error ∧
    ((p.isSome ∧ take r.breaks n = (r'.breaks, p, got)) ∨
      p = none ∧ got < n ∧ ∃ s', take r.breaks n = (s', none, got) ∧ s'.records = r'.records ∧
        ∀ st, shortReadStatus s' st = .errIo) := by
  obtain ⟨fp, hfp, hbroken, herr⟩ := h.stream
  have hfp' : r.breaks.fp = some { fp with broken := true } := by
    unfold PcapReader.breaks
    rw [hfp]
    rfl
  unfold take at htake ⊢
  rw [hfp] at htake
  rw [hfp']
  dsimp only [fread] at htake ⊢
  rw [Prod.mk.injEq, Prod.mk.injEq] at htake
  obtain ⟨rfl, rfl, rfl⟩ := htake
  refine ⟨⟨_, rfl, hbroken, by rw [herr, hbroken, Bool.and_false, Bool.or_false]⟩, rfl, ?_⟩
  rw [List.length_take]
  by_cases hn : n ≤ fp.rest.length
  · left
    rw [if_pos (Nat.min_eq_left hn)]
    refine ⟨rfl, ?_⟩
    have henough : decide (fp.rest.length < n) = false := decide_eq_false (not_lt.mpr hn)
    unfold PcapReader.breaks
    rw [henough, Bool.false_and, Bool.false_and, if_pos (Nat.min_eq_left hn)]
    rfl
  · right
    have hlt : fp.rest.length < n := not_le.mp hn
    have hshort : ¬ min n fp.rest.length = n := by omega
    simp only [if_neg hshort]
    refine ⟨trivial, by omega, _, rfl, rfl, ?_⟩
    intro st
    unfold shortReadStatus
    dsimp only
    rw [decide_eq_true hlt, Bool.and_self, Bool.or_true]
    exact if_pos rfl

/-- **A broken stream is read like a file that ends where it breaks.** -/
theorem pcapNext_breaks (h : Intact r) (herr : r.error = .ok) (hnext : pcapNext r = (r', st, rec)) :
    (st = .ok ∧ Intact r' ∧ r'.error = .ok ∧ pcapNext r.breaks = (r'.breaks, .ok, rec)) ∨
      st ≠ .ok ∧ ∃ s', pcapNext r.breaks = (s', brokenStatus st, rec) ∧ s'.records = r'.records := by
  have herr' : r.breaks.error = .ok := herr
  rw [pcapNext, if_neg (not_not.mpr herr)] at hnext
  rw [pcapNext, if_neg (not_not.mpr herr')]
  rcases htake : take r pcapRecordHdrLen with ⟨r₁, p, got⟩
  rw [htake] at hnext
  obtain ⟨h₁, herr₁, ⟨hsome, hbreak⟩ | ⟨rfl, -, s₁, hbreak, hrecords, hshort⟩⟩ := take_breaks h htake
  swap
  · right
    simp only [h₁.shortReadStatus, Prod.mk.injEq] at hnext
    obtain ⟨rfl, rfl, rfl⟩ := hnext
    rw [hbreak]
    simp only [hshort]
    by_cases hgot : got = 0
    · rw [if_pos hgot]
      exact ⟨by decide, _, rfl, hrecords⟩
    · rw [if_neg hgot]
      exact ⟨by decide, _, rfl, hrecords⟩
  obtain ⟨hdr, rfl⟩ := Option.isSome_iff_exists.mp hsome
  rw [hbreak]
  have hinfo : r₁.breaks.info = r₁.info := rfl
  rcases hparse : pcapParseRecordHeader r₁.info hdr with ⟨hd, st₁⟩
  simp only [hparse] at hnext
  simp only [hinfo, hparse]
  by_cases hst₁ : st₁ = .ok
  swap
  · right
    have hbad : st₁ = .errBadCaplen := by
      have hstatus := pcapParseRecordHeader_status r₁.info hdr
      rw [hparse] at hstatus
      exact hstatus.resolve_left hst₁
    rw [if_pos hst₁, Prod.mk.injEq, Prod.mk.injEq] at hnext
    obtain ⟨rfl, rfl, rfl⟩ := hnext
    rw [if_pos hst₁, hbad]
    exact ⟨by decide, _, rfl, rfl⟩
  rw [if_neg (not_not.mpr hst₁)] at hnext ⊢
  rcases htake' : take r₁ hd.caplen.toNat with ⟨r₂, p, got₂⟩
  rw [htake'] at hnext
  obtain ⟨h₂, herr₂, ⟨hsome', hbreak'⟩ | ⟨rfl, -, s₂, hbreak', hrecords, hshort⟩⟩ :=
    take_breaks h₁ htake'
  · left
    obtain ⟨p, rfl⟩ := Option.isSome_iff_exists.mp hsome'
    simp only [Prod.mk.injEq] at hnext
    obtain ⟨rfl, rfl, rfl⟩ := hnext
    rw [hbreak']
    exact ⟨rfl, ⟨h₂.stream⟩, herr₂.trans (herr₁.trans herr), rfl⟩
  · right
    simp only [h₂.shortReadStatus, Prod.mk.injEq] at hnext
    obtain ⟨rfl, rfl, rfl⟩ := hnext
    rw [hbreak']
    simp only [hshort]
    exact ⟨by decide, _, rfl, hrecords⟩

theorem analysisLoop_breaks {w : ℕ} {ok : ℕ → Grants} {fuel i : ℕ} {a a' : Analysis} (h : Intact r)
    (herr : r.error = .ok) (hrun : analysisLoop w ok fuel i a r = some (a', r', st)) :
    ∃ s', analysisLoop w ok fuel i a r.breaks = some (a', s', brokenStatus st) ∧ s'.records = r'.records := by
  induction fuel generalizing i a r with
  | zero => cases hrun
  | succ fuel ih =>
      rcases hnext : pcapNext r with ⟨r₁, st₁, rec⟩
      rw [analysisLoop, hnext] at hrun
      rw [analysisLoop]
      rcases pcapNext_breaks h herr hnext with ⟨rfl, h₁, herr₁, hbreak⟩ | ⟨hst, s', hbreak, hrecords⟩
      · rw [hbreak]
        simp only [ne_eq, not_true, if_false, Option.bind_eq_bind] at hrun ⊢
        obtain ⟨⟨a₁, added⟩, hcall, hrun⟩ := Option.bind_eq_some_iff.mp hrun
        rw [hcall, Option.bind_some]
        cases added with
        | false =>
            simp only [Bool.not_false, if_true, Option.some.injEq, Prod.mk.injEq] at hrun ⊢
            obtain ⟨rfl, rfl, rfl⟩ := hrun
            exact ⟨_, ⟨rfl, rfl, rfl⟩, rfl⟩
        | true =>
            simp only [Bool.not_true, Bool.false_eq_true, if_false] at hrun ⊢
            exact ih h₁ herr₁ hrun
      · rw [hbreak]
        have hbad : brokenStatus st₁ ≠ .ok := by
          revert hst
          cases st₁ <;> decide
        simp only [ne_eq, hst, not_false_eq_true, if_true, Option.some.injEq, Prod.mk.injEq] at hrun
        simp only [ne_eq, hbad, not_false_eq_true, if_true, Option.some.injEq, Prod.mk.injEq]
        obtain ⟨rfl, rfl, rfl⟩ := hrun
        exact ⟨s', ⟨rfl, rfl, rfl⟩, hrecords⟩

end broken

/-! ### Opening -/

/-- A stream that delivers `bytes`, and then ends or breaks. -/
def streamOf (bytes : List UInt8) (broken : Bool) : Stream := { rest := bytes, broken := broken }

section opening

variable {bytes : List UInt8} {r : PcapReader}

theorem intact_streamOf (bytes : List UInt8) : Intact { fp := some (streamOf bytes false) } :=
  ⟨_, rfl, rfl, rfl⟩

/-- A stream that breaks inside its global header. -/
theorem pcapOpenStream_broken (h : bytes.length < pcapGlobalHdrLen) :
    pcapOpenStream (some (streamOf bytes true)) true = ({ error := .errIo }, .errIo) := by
  have hlen : ¬ (bytes.take pcapGlobalHdrLen).length = pcapGlobalHdrLen := by
    rw [List.length_take]
    omega
  have hs := take_stream (s := { fp := some (streamOf bytes true) }) rfl pcapGlobalHdrLen
  rw [if_neg (show ¬ ((streamOf bytes true).rest.take pcapGlobalHdrLen).length = pcapGlobalHdrLen from hlen)] at hs
  unfold pcapOpenStream readGlobalHeader
  dsimp only
  rw [hs]
  have hshort : (fread (streamOf bytes true) pcapGlobalHdrLen).1.error = true := by
    unfold fread streamOf
    dsimp only
    rw [decide_eq_true h]
    rfl
  simp only [shortReadStatus, hshort, if_true, reduceCtorEq, false_and, if_false, ne_eq, not_false_eq_true]

/-- A stream that breaks behind its global header is opened like a file that ends there. -/
theorem pcapOpenStream_breaks (h : pcapOpenStream (some (streamOf bytes false)) true = (r, .ok)) :
    Intact r ∧ r.error = .ok ∧ pcapOpenStream (some (streamOf bytes true)) true = (r.breaks, .ok) := by
  unfold pcapOpenStream readGlobalHeader at h ⊢
  rcases htake : take { fp := some (streamOf bytes false) } pcapGlobalHdrLen with ⟨r₁, p, got⟩
  obtain ⟨h₁, herr₁, ⟨hsome, hbreak⟩ | ⟨rfl, hlt, -⟩⟩ := take_breaks (intact_streamOf bytes) htake
  · obtain ⟨hdr, rfl⟩ := Option.isSome_iff_exists.mp hsome
    have hbreak' : take { fp := some (streamOf bytes true) } pcapGlobalHdrLen = (r₁.breaks, some hdr, got) := hbreak
    dsimp only at h ⊢
    rw [htake] at h
    rw [hbreak']
    simp only [if_true] at h ⊢
    by_cases hst : (pcapParseGlobalHeader hdr pcapGlobalHdrLen).2 = .ok
    · rw [if_neg (not_not.mpr hst), Prod.mk.injEq] at h
      rw [if_neg (not_not.mpr hst)]
      obtain ⟨rfl, -⟩ := h
      exact ⟨⟨h₁.stream⟩, herr₁, Prod.ext rfl hst⟩
    · rw [if_pos hst, Prod.mk.injEq] at h
      exact absurd h.2 hst
  · -- what has been read of the header is never enough
    exfalso
    dsimp only at h
    rw [htake] at h
    simp only [h₁.shortReadStatus, if_true, true_and] at h
    by_cases h4 : got ≥ 4
    · have hbad := pcapParseGlobalHeader_short (p := ⟨if r₁.fp.isSome then r₁.buf else r₁.mem, 0⟩) hlt
      simp only [if_pos h4, if_pos hbad, Prod.mk.injEq] at h
      exact hbad h.2
    · simp only [if_neg h4] at h
      rw [if_pos (by decide), Prod.mk.injEq] at h
      exact absurd h.2 (by decide)

end opening

/-! ### The theorem -/

/-- **A read error is told from the end of the file and from a file that was cut short.**  A capture whose
stream breaks behind `bytes` is analysed like the file that ends there, with the same counters and tables. -/
theorem brokenStream_told {bytes : List UInt8} {r r' : PcapReader} {w : ℕ} {ok : ℕ → Grants} {a a' : Analysis}
    {st : PcapStatus} (hopen : pcapOpenStream (some (streamOf bytes false)) true = (r, .ok))
    (hrun : analysisRun w ok a r = some (a', r', st)) :
    ∃ s s', pcapOpenStream (some (streamOf bytes true)) true = (s, .ok) ∧ s.info = r.info ∧
      analysisRun w ok a s = some (a', s', brokenStatus st) ∧ s'.records = r'.records ∧
      (brokenStatus st = .errIo ∨ brokenStatus st = .errBadCaplen ∨ brokenStatus st = .errNomem) := by
  obtain ⟨hintact, herr, hbreak⟩ := pcapOpenStream_breaks hopen
  have hleft : r.breaks.left = r.left := by
    obtain ⟨fp, hfp, -⟩ := hintact.stream
    unfold PcapReader.left PcapReader.breaks
    rw [hfp]
    rfl
  obtain ⟨s', hrun', hrecords⟩ := analysisLoop_breaks hintact herr hrun
  refine ⟨r.breaks, s', hbreak, rfl, ?_, hrecords, ?_⟩
  · unfold analysisRun
    rw [hleft]
    exact hrun'
  · have hstop := analysisLoop_stops herr hrun
    revert hstop
    cases st <;> decide

/-- A capture of one record, and an error where its end should be. -/
theorem brokenStream_told_record : ∃ r a a' r' st s s',
    pcapOpenStream (some (streamOf (pcapFile false false 65535 [⟨5, 0, 1, [0], by decide⟩]) false)) true =
      (r, .ok) ∧
    analysisRun 64 (fun _ => ⟨true, true⟩) a r = some (a', r', st) ∧ st = .eof ∧
    pcapOpenStream (some (streamOf (pcapFile false false 65535 [⟨5, 0, 1, [0], by decide⟩]) true)) true =
      (s, .ok) ∧
    s.info = r.info ∧ analysisRun 64 (fun _ => ⟨true, true⟩) a s = some (a', s', brokenStatus st) ∧
    s'.records = r'.records ∧
    (brokenStatus st = .errIo ∨ brokenStatus st = .errBadCaplen ∨ brokenStatus st = .errNomem) := by
  obtain ⟨a, a', r', -, hrun, -⟩ := exists_analysisRun (fun _ => ⟨true, true⟩) (pcapOpenStream (some (streamOf
    (pcapFile false false 65535 [⟨5, 0, 1, [0], by decide⟩]) false)) true).1 (fun a => a.stats.packets) .eof 1
    (by decide +kernel)
  have hok : (pcapOpenStream (some (streamOf (pcapFile false false 65535 [⟨5, 0, 1, [0], by decide⟩]) false))
    true).2 = .ok := by decide +kernel
  obtain ⟨s, s', htold⟩ := brokenStream_told (Prod.ext rfl hok) hrun
  exact ⟨_, a, a', r', .eof, s, s', Prod.ext rfl hok, hrun, rfl, htold⟩

end Pcapstat
