import Pcapstat.Balance
import Pcapstat.PcapGrammar
import Pcapstat.Program

/-! # Damaged captures

A capture may be cut short, go on with bytes that are no record, or break while it is read.  The program then
reports its complete records as if nothing stood behind them (`damaged_capture`): the two runs agree in what
they print and write, and differ by the message that tells the damage.

The proof runs a reader and the same reader with more behind it (`PcapReader.extend`) side by side, until the
first of them is at its end. -/

namespace Pcapstat

/-! ### Readers with more behind them -/

/-- The reader with more bytes in its stream, and maybe an error behind them. -/
def PcapReader.extend (r : PcapReader) (more : List UInt8) (broken : Bool) : PcapReader :=
  { r with fp := r.fp.map fun fp => { fp with rest := fp.rest ++ more, broken := broken } }

section extend

variable {r r' : PcapReader} {st stop : PcapStatus} {rec : PcapRecord} {n got : ℕ} {p : Ptr} {more : List UInt8}
  {broken be nsec : Bool}

theorem PcapReader.extend_breaks (r : PcapReader) (more : List UInt8) :
    (r.extend more false).breaks = r.extend more true := by
  unfold PcapReader.breaks PcapReader.extend
  cases r.fp <;> rfl

theorem Intact.extend (h : Intact r) (more : List UInt8) : Intact (r.extend more false) := by
  obtain ⟨fp, hfp, -, herr⟩ := h.stream
  refine ⟨{ fp with rest := fp.rest ++ more, broken := false }, ?_, rfl, herr⟩
  unfold PcapReader.extend
  rw [hfp]
  rfl

theorem Intact.rest_extend (h : Intact r) (more : List UInt8) (broken : Bool) :
    (r.extend more broken).rest = r.rest ++ more := by
  obtain ⟨fp, hfp, -⟩ := h.stream
  simp [PcapReader.rest, PcapReader.extend, hfp]

theorem Intact.left_extend (h : Intact r) (more : List UInt8) (broken : Bool) :
    r.left ≤ (r.extend more broken).left := by
  obtain ⟨fp, hfp, -⟩ := h.stream
  simp [PcapReader.left, PcapReader.extend, hfp]

theorem Ready.extend (h : Ready be nsec r) (hr : Intact r) (more : List UInt8) :
    Ready be nsec (r.extend more false) := by
  obtain ⟨fp, hfp, -, herr⟩ := hr.stream
  refine ⟨?_, h.error, h.bigEndian, h.nsec⟩
  simp [PcapReader.Sound, PcapReader.extend, hfp, herr]

theorem take_extend (h : Intact r) (htake : take r n = (r', some p, got)) (more : List UInt8) (broken : Bool) :
    Intact r' ∧ take (r.extend more broken) n = (r'.extend more broken, some p, got) := by
  obtain ⟨fp, hfp, hbroken, herr⟩ := h.stream
  have hfp' : (r.extend more broken).fp = some { fp with rest := fp.rest ++ more, broken := broken } := by
    unfold PcapReader.extend
    rw [hfp]
    rfl
  unfold take at htake ⊢
  rw [hfp] at htake
  rw [hfp']
  dsimp only [fread] at htake ⊢
  rw [Prod.mk.injEq, Prod.mk.injEq, Option.ite_none_right_eq_some] at htake
  obtain ⟨rfl, ⟨hlen, hp⟩, rfl⟩ := htake
  have hn : n ≤ fp.rest.length := by
    rw [List.length_take] at hlen
    omega
  refine ⟨⟨_, rfl, hbroken, by rw [herr, hbroken, Bool.and_false, Bool.or_false]⟩, ?_⟩
  have hfull : decide (fp.rest.length < n) = false := decide_eq_false (not_lt.mpr hn)
  have hfull' : decide ((fp.rest ++ more).length < n) = false := by
    rw [List.length_append]
    exact decide_eq_false (by omega)
  obtain rfl := Option.some.inj hp
  rw [List.take_append_of_le_length hn, List.drop_append_of_le_length hn, if_pos hlen, hfull, hfull',
    Bool.false_and, Bool.false_and]
  rfl

theorem pcapNext_extend (h : Intact r) (hnext : pcapNext r = (r', .ok, rec)) (more : List UInt8) (broken : Bool) :
    Intact r' ∧ pcapNext (r.extend more broken) = (r'.extend more broken, .ok, rec) := by
  obtain ⟨herr, r₁, hdr, got₁, hd, r₂, p, got₂, htake, hparse, htake', rfl, rfl⟩ := pcapNext_ok hnext
  obtain ⟨h₁, hmore⟩ := take_extend h htake more broken
  obtain ⟨h₂, hmore'⟩ := take_extend h₁ htake' more broken
  have herr' : (r.extend more broken).error = .ok := herr
  have hparse' : pcapParseRecordHeader (r₁.extend more broken).info hdr = (hd, .ok) := hparse
  refine ⟨⟨h₂.stream⟩, ?_⟩
  simp only [pcapNext, herr', hmore, hparse', hmore', ne_eq, not_true, if_false]
  rfl

theorem take_info (r : PcapReader) (n : ℕ) : (take r n).1.info = r.info := by
  unfold take
  cases r.fp with
  | some fp => rfl
  | none =>
      dsimp only
      split_ifs <;> rfl

theorem pcapNext_info (r : PcapReader) : (pcapNext r).1.info = r.info := by
  unfold pcapNext
  by_cases herr : r.error = .ok
  swap
  · rw [if_pos herr]
  rw [if_neg (not_not.mpr herr)]
  have h₁ := take_info r pcapRecordHdrLen
  rcases htake : take r pcapRecordHdrLen with ⟨r₁, p, got⟩
  rw [htake] at h₁
  cases p with
  | none => exact h₁
  | some hdr =>
      rcases hparse : pcapParseRecordHeader r₁.info hdr with ⟨hd, st₁⟩
      simp only [hparse]
      by_cases hst₁ : st₁ = .ok
      swap
      · rw [if_pos hst₁]
        exact h₁
      rw [if_neg (not_not.mpr hst₁)]
      have h₂ := take_info r₁ hd.caplen.toNat
      rcases htake' : take r₁ hd.caplen.toNat with ⟨r₂, p, got₂⟩
      rw [htake'] at h₂
      cases p <;> exact h₂.trans h₁

/-- How a capture ends: `stop` is what its bytes say. -/
def stopStatus (broken : Bool) (stop : PcapStatus) : PcapStatus := if broken then brokenStatus stop else stop

/-- The tail decides how the reader stops, and where the stream breaks. -/
theorem Tail.stops {rest : List UInt8} (htail : Tail be rest stop) (h : Ready be nsec r) (hr : Intact r)
    (hrest : r.rest = []) (broken : Bool) : ∃ r' rec,
      pcapNext (r.extend rest broken) = (r', stopStatus broken stop, rec) ∧ stopStatus broken stop ≠ .ok ∧
        r'.records = r.records ∧ r'.info = r.info := by
  obtain ⟨r₁, hdel⟩ := htail.delivers (h.extend hr rest) (by rw [hr.rest_extend, hrest, List.nil_append])
  obtain ⟨rec, hnext, hst⟩ : ∃ rec, pcapNext (r.extend rest false) = (r₁, stop, rec) ∧ stop ≠ .ok := by
    cases hdel with
    | stop hnext hst => exact ⟨_, hnext, hst⟩
  have hrecords := pcapNext_records_bad hnext hst
  cases broken with
  | false =>
      have hinfo := pcapNext_info (r.extend rest false)
      rw [hnext] at hinfo
      exact ⟨r₁, rec, hnext, hst, hrecords, hinfo⟩
  | true =>
      have herr : (r.extend rest false).error = .ok := h.error
      rcases pcapNext_breaks (hr.extend rest) herr hnext with ⟨hok, -⟩ | ⟨-, s', hbreak, hrecords'⟩
      · exact absurd hok hst
      · rw [PcapReader.extend_breaks] at hbreak
        have hinfo := pcapNext_info (r.extend rest true)
        rw [hbreak] at hinfo
        refine ⟨s', rec, hbreak, ?_, hrecords'.trans hrecords, hinfo⟩
        unfold stopStatus
        revert hst
        cases stop <;> decide

end extend

/-! ### Runs -/

section runs

variable {r r' : PcapReader} {st stop : PcapStatus} {more rest : List UInt8} {broken be nsec : Bool}

theorem readGlobalHeader_extend (h : Intact r) (hsound : r.Sound) (hlen : pcapGlobalHdrLen ≤ r.rest.length)
    (hread : readGlobalHeader r = (r', .ok)) (more : List UInt8) (broken : Bool) :
    Intact r' ∧ r'.records = r.records ∧
      readGlobalHeader (r.extend more broken) = (r'.extend more broken, .ok) := by
  obtain ⟨r₁, p, htake, -⟩ := take_full hsound hlen
  obtain ⟨h₁, hmore⟩ := take_extend h htake more broken
  have hrecords := take_records r pcapGlobalHdrLen
  unfold readGlobalHeader at hread ⊢
  rw [htake] at hread hrecords
  rw [hmore]
  simp only [Prod.mk.injEq] at hread ⊢
  obtain ⟨rfl, hst⟩ := hread
  exact ⟨⟨h₁.stream⟩, hrecords, rfl, hst⟩

theorem pcapOpenStream_extend {hdr body : List UInt8} (hhdr : GlobalHeader be nsec hdr) (more : List UInt8)
    (broken : Bool) : ∃ r, pcapOpenStream (some (streamOf (hdr ++ body) false)) true = (r, .ok) ∧ Intact r ∧
      Ready be nsec r ∧ r.rest = body ∧ r.records = 0 ∧
      pcapOpenStream (some (streamOf (hdr ++ (body ++ more)) broken)) true = (r.extend more broken, .ok) := by
  have hintact := intact_streamOf (hdr ++ body)
  have hsound : PcapReader.Sound { fp := some (streamOf (hdr ++ body) false) } := ⟨rfl, rfl⟩
  obtain ⟨r, hread, hready, hrest⟩ := readGlobalHeader_accepts hsound rfl rfl hhdr
  have hlen : pcapGlobalHdrLen ≤ (hdr ++ body).length := by
    rw [List.length_append, hhdr.length]
    exact Nat.le_add_right _ _
  obtain ⟨hr, hrecords, hread'⟩ := readGlobalHeader_extend hintact hsound hlen hread more broken
  have hstream : PcapReader.extend { fp := some (streamOf (hdr ++ body) false) } more broken =
      { fp := some (streamOf (hdr ++ (body ++ more)) broken) } := by
    rw [← List.append_assoc]
    rfl
  rw [hstream] at hread'
  refine ⟨r, ?_, hr, hready, hrest, hrecords, ?_⟩
  · simp only [pcapOpenStream, if_true, hread, ne_eq, not_true, if_false]
  · simp only [pcapOpenStream, if_true, hread', ne_eq, not_true, if_false]

/-- **The loop of `analysis_run` over the records of a damaged capture**, beside the loop over these records alone. -/
theorem analysisLoop_extend {w : ℕ} {ok : ℕ → Grants} {raws : List RawRecord} {a a' : Analysis} {i fuel k : ℕ}
    (h : Ready be nsec r) (hr : Intact r) (hrest : r.rest = pcapPutRecords be raws) (htail : Tail be rest stop)
    (hk : fuel ≤ k) (broken : Bool) (hrun : analysisLoop w ok fuel i a r = some (a', r', st)) :
    ∃ s' st', analysisLoop w ok k i a (r.extend rest broken) = some (a', s', st') ∧ s'.info = r'.info ∧
      s'.records = r'.records ∧ (st = .errNomem ∧ st' = .errNomem ∨
        st = .eof ∧ st' = stopStatus broken stop ∧ r'.records = r.records + UInt64.ofNat raws.length) := by
  induction raws generalizing r a i fuel k with
  | nil =>
      cases fuel with
      | zero => cases hrun
      | succ fuel =>
          obtain ⟨k, rfl⟩ := Nat.exists_eq_add_of_le' hk
          obtain ⟨s', rec', hnext', hbad, hrecords', hinfo'⟩ := htail.stops h hr hrest broken
          have hnil : r.rest = [] := hrest
          obtain ⟨r₁, rec, hnext⟩ := pcapNext_short h (by rw [hnil]; decide)
          rw [hnil, if_pos List.length_nil] at hnext
          have hrecords := pcapNext_records_bad hnext (by decide)
          have hinfo := pcapNext_info r
          rw [hnext] at hinfo
          rw [analysisLoop, hnext] at hrun
          rw [← Nat.add_assoc, analysisLoop, hnext']
          simp only [ne_eq, reduceCtorEq, not_false_eq_true, if_true, Option.some.injEq, Prod.mk.injEq] at hrun
          obtain ⟨rfl, rfl, rfl⟩ := hrun
          refine ⟨s', _, if_pos hbad, hinfo'.trans hinfo.symm, hrecords'.trans hrecords.symm,
            .inr ⟨rfl, rfl, ?_⟩⟩
          rw [hrecords]
          exact (UInt64.add_zero _).symm
  | cons raw raws ih =>
      cases fuel with
      | zero => cases hrun
      | succ fuel =>
          obtain ⟨k, rfl⟩ := Nat.exists_eq_add_of_le' hk
          rw [pcapPutRecords_cons] at hrest
          obtain ⟨r₁, rec, hnext, -, h₁, hrest₁⟩ := pcapNext_record h hrest
          obtain ⟨hr₁, hnext'⟩ := pcapNext_extend hr hnext rest broken
          rw [analysisLoop, hnext] at hrun
          rw [← Nat.add_assoc, analysisLoop, hnext']
          simp only [ne_eq, not_true, if_false, Option.bind_eq_bind] at hrun ⊢
          obtain ⟨⟨a₁, added⟩, hcall, hrun⟩ := Option.bind_eq_some_iff.mp hrun
          rw [hcall, Option.bind_some]
          cases added with
          | false =>
              simp only [Bool.not_false, if_true, Option.some.injEq, Prod.mk.injEq] at hrun ⊢
              obtain ⟨rfl, rfl, rfl⟩ := hrun
              exact ⟨_, _, ⟨rfl, rfl, rfl⟩, rfl, rfl, .inl ⟨rfl, rfl⟩⟩
          | true =>
              simp only [Bool.not_true, Bool.false_eq_true, if_false] at hrun ⊢
              obtain ⟨s', st', hloop, hinfo, hrecords, hend⟩ := ih h₁ hr₁ hrest₁ (Nat.le_add_left fuel k) hrun
              refine ⟨s', st', hloop, hinfo, hrecords, hend.imp_right ?_⟩
              rintro ⟨hst, hst', hcount⟩
              refine ⟨hst, hst', ?_⟩
              rw [hcount, pcapNext_records hnext, List.length_cons, UInt64.ofNat_add, UInt64.ofNat_one,
                UInt64.add_assoc, UInt64.add_comm 1]

end runs

/-! ### Reports -/

/-- A damage changes the status and what is printed to `stderr`, and nothing else. -/
theorem report_damaged (sys : System) (c : Command) (info : PcapFileInfo) (a : Analysis) (records : UInt64)
    {st : PcapStatus} (hst : st ≠ .eof) :
    (report sys c info a records st).status = exitInput ∧
    (report sys c info a records st).stdout = (report sys c info a records .eof).stdout ∧
    (report sys c info a records st).files = (report sys c info a records .eof).files ∧
    (report sys c info a records st).stderr =
      damage c.pcapPath st records ++ (report sys c info a records .eof).stderr := by
  unfold report
  dsimp only
  rw [if_pos hst, if_neg (not_not.mpr rfl)]
  refine ⟨rfl, rfl, rfl, ?_⟩
  simp only [List.append_assoc, List.nil_append]

/-! ### The theorem -/

/-- The system with another file at `path`. -/
def System.withFile (sys : System) (path : Text) (bytes : List UInt8) : System :=
  { sys with file := Function.update sys.file path (some (bytes, false)) }

/-- **A damaged capture is reported like its complete records.**  Whether it was cut short, goes on with bytes that
are no record, or breaks while it is read: the output and the files are those of the capture that ends behind its
last complete record, and the damage is told on `stderr` before all else.  Only if memory ran out before all records
were read, there is no damage to tell. -/
theorem damaged_capture {sys : System} {args : List Text} {c : Command} {be nsec broken : Bool}
    {hdr rest : List UInt8} {raws : List RawRecord} {stop : PcapStatus} (hask : commandLine sys.w args = .run c)
    (hhdr : GlobalHeader be nsec hdr) (htail : Tail be rest stop)
    (hfile : sys.file c.pcapPath = some (hdr ++ (pcapPutRecords be raws ++ rest), broken))
    (hdamaged : broken = true ∨ stop ≠ .eof) :
    ∃ out out', main sys args = some out ∧
      main (sys.withFile c.pcapPath (hdr ++ pcapPutRecords be raws)) args = some out' ∧
      out.status = exitInput ∧ out.stdout = out'.stdout ∧ out.files = out'.files ∧
      (out.stderr = damage c.pcapPath (stopStatus broken stop) (UInt64.ofNat raws.length) ++ out'.stderr ∨
        out = out' ∧ (out.stderr = openError sys c.pcapPath .errNomem ∨ out.stderr = outOfMemory ∨
          ∃ records more, out.stderr = damage c.pcapPath .errNomem records ++ more)) := by
  have hfopen : sys.fopen c.pcapPath = some (streamOf (hdr ++ (pcapPutRecords be raws ++ rest)) broken) := by
    rw [System.fopen, hfile]
    rfl
  have hfopen' : (sys.withFile c.pcapPath (hdr ++ pcapPutRecords be raws)).fopen c.pcapPath =
      some (streamOf (hdr ++ pcapPutRecords be raws) false) := by
    rw [System.fopen, System.withFile]
    dsimp only
    rw [Function.update_self]
    rfl
  have hask' : commandLine (sys.withFile c.pcapPath (hdr ++ pcapPutRecords be raws)).w args = .run c := hask
  have hbad : stopStatus broken stop ≠ .eof := by
    unfold stopStatus
    rcases hdamaged with rfl | hstop
    · cases htail <;> decide
    · cases broken with
      | false => exact hstop
      | true =>
          revert hstop
          cases htail <;> decide
  obtain ⟨r, hopen, hr, hready, hrest, hrecords, hopen'⟩ :=
    @pcapOpenStream_extend be nsec hdr (pcapPutRecords be raws) hhdr rest broken
  rw [main, main, hask, hask']
  dsimp only
  rw [execute, execute, hfopen, hfopen']
  cases hbuffer : sys.buffer with
  | false =>
      have hbuffer' : (sys.withFile c.pcapPath (hdr ++ pcapPutRecords be raws)).buffer = false := hbuffer
      rw [hbuffer']
      exact ⟨_, _, rfl, rfl, rfl, rfl, rfl, .inr ⟨rfl, .inl rfl⟩⟩
  | true =>
      have hbuffer' : (sys.withFile c.pcapPath (hdr ++ pcapPutRecords be raws)).buffer = true := hbuffer
      rw [hbuffer', hopen, hopen']
      simp only [ne_eq, not_true, if_false]
      obtain ⟨a, hinit, hfresh⟩ := analysisInit_spec sys.w sys.flowsInit sys.tunnelsInit sys.fragsInit
      have hinit' : analysisInit (sys.withFile c.pcapPath (hdr ++ pcapPutRecords be raws)).w
          (sys.withFile c.pcapPath (hdr ++ pcapPutRecords be raws)).flowsInit
          (sys.withFile c.pcapPath (hdr ++ pcapPutRecords be raws)).tunnelsInit
          (sys.withFile c.pcapPath (hdr ++ pcapPutRecords be raws)).fragsInit = some a := hinit
      rw [hinit, hinit']
      simp only [Option.bind_eq_bind, Option.bind_some]
      cases a with
      | none => exact ⟨_, _, rfl, rfl, rfl, rfl, rfl, .inr ⟨rfl, .inr (.inl rfl)⟩⟩
      | some a =>
          obtain ⟨a', r', st, hrun, -⟩ := analysisRun_spec (hfresh a rfl).inv sys.grants r
          obtain ⟨s', st', hrun', hinfo, hcount, hend⟩ := analysisLoop_extend hready hr hrest htail
            (Nat.succ_le_succ (hr.left_extend rest broken)) broken hrun
          have hextended : analysisRun sys.w sys.grants a (r.extend rest broken) = some (a', s', st') := hrun'
          have hsame : analysisRun (sys.withFile c.pcapPath (hdr ++ pcapPutRecords be raws)).w
              (sys.withFile c.pcapPath (hdr ++ pcapPutRecords be raws)).grants a r = some (a', r', st) := hrun
          simp only [hextended, hsame, Option.bind_some]
          refine ⟨_, _, rfl, rfl, ?_⟩
          rw [hinfo, hcount]
          rcases hend with ⟨rfl, rfl⟩ | ⟨rfl, rfl, htotal⟩
          · obtain ⟨hstatus, -, -, hstderr⟩ := report_damaged sys c r'.info a' r'.records
              (show PcapStatus.errNomem ≠ .eof by decide)
            exact ⟨hstatus, rfl, rfl, .inr ⟨rfl, .inr (.inr ⟨_, _, hstderr⟩)⟩⟩
          · rw [htotal, hrecords, UInt64.zero_add]
            obtain ⟨hstatus, hstdout, hfiles, hstderr⟩ :=
              report_damaged sys c r'.info a' (UInt64.ofNat raws.length) hbad
            exact ⟨hstatus, hstdout, hfiles, .inl hstderr⟩

/-- Percentages, rounded as for a few packets; there are no rates where all have one time. -/
def fewPackets : FloatTexts where
  pct part whole :=
    let tenths := if whole = 0 then 0 else (part.toNat * 2000 + whole.toNat) / (2 * whole.toNat)
    decimal (tenths / 10) ++ '.' :: decimal (tenths % 10)
  packetRate _ _ := []
  bitRate _ _ := []

/-- A system that grants everything, with one file. -/
def generous (path : Text) (bytes : List UInt8) : System where
  w := 64
  qsort := default
  floats := fewPackets
  file p := if p = path then some (bytes, false) else none
  strerror _ := "No such file or directory".toList
  buffer := true
  flowsInit := true
  tunnelsInit := true
  fragsInit := true
  grants _ := ⟨true, true⟩
  top _ := true
  teids := true
  csv _ := true
  create _ := true
  store _ := true
  flush := true

theorem generous_file (path : Text) (bytes : List UInt8) : (generous path bytes).file path = some (bytes, false) := by
  unfold generous
  exact if_pos rfl

/-- A record of one byte. -/
def oneByte : RawRecord := ⟨5, 0, 1, [9], by decide⟩

/-- One record, and a header that asks for too much. -/
def greedyCapture : List UInt8 :=
  zonedHeader ++ (pcapPutRecords false [oneByte] ++ (recordHeader false 5 0 0x50000 1 ++ []))

/-- The record is reported, and the header behind it is told. -/
theorem damaged_capture_greedy : ∃ out out',
    main (generous "a.pcap".toList greedyCapture) ["a.pcap".toList] = some out ∧
    main ((generous "a.pcap".toList greedyCapture).withFile "a.pcap".toList
      (zonedHeader ++ pcapPutRecords false [oneByte])) ["a.pcap".toList] = some out' ∧
    out.status = exitInput ∧ out'.status = exitOk ∧ out.stdout = out'.stdout ∧ out.files = out'.files ∧
    out.stderr = damage "a.pcap".toList .errBadCaplen 1 ++ out'.stderr := by
  have hhdr : GlobalHeader false false zonedHeader := by
    refine ⟨rfl, rfl, rfl, 0x30000001, rfl, ?_⟩
    decide
  have htail : Tail false (recordHeader false 5 0 0x50000 1 ++ []) .errBadCaplen := .caplen (by decide)
  have hask : commandLine (generous "a.pcap".toList greedyCapture).w ["a.pcap".toList] =
      .run ⟨10, none, none, "a.pcap".toList⟩ := by
    simp [commandLine, parseArgs, defaultTopN]
  obtain ⟨out, out', hmain, hmain', hst, hstdout, hfiles, hstderr⟩ :=
    damaged_capture hask hhdr htail (generous_file _ _) (.inr (by decide))
  have hend : (main ((generous "a.pcap".toList greedyCapture).withFile "a.pcap".toList
      (zonedHeader ++ pcapPutRecords false [oneByte])) ["a.pcap".toList]).map Outcome.status = some exitOk := by
    decide +kernel
  have hst' : out'.status = exitOk := by
    rw [hmain', Option.map_some, Option.some.injEq] at hend
    exact hend
  refine ⟨out, out', hmain, hmain', hst, hst', hstdout, hfiles, ?_⟩
  obtain htold | ⟨rfl, -⟩ := hstderr
  · exact htold
  · exact absurd (hst.symm.trans hst') (by decide)

end Pcapstat
