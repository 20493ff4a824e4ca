import Pcapstat.DamagedCaptures
import Pcapstat.Ledger
import Pcapstat.TableGrowth
import Pcapstat.TopTables

/-! # What the program says of a capture

All that the program prints and writes is told from the bytes of its input (`meaning`): a capture is a global
header and complete records, a record is decoded from its own bytes, and the ledger of the records is ranked and
listed.  There are no readers, buffers, tables or allocations in that.

* If the status is 0, the input is a whole capture, and the program said what there is to say (`main_sound`).
* It does so for every whole capture, if the system grants what it asks for (`main_complete`). -/

namespace Pcapstat

/-! ### Records -/

/-- What `analysis_account` is told about a record. -/
def RawRecord.frame (nsec : Bool) (raw : RawRecord) : Frame :=
  let caplen := UInt32.ofNat raw.data.length
  { mem := SpanWalk.Mem.ofList raw.data
    caplen := caplen
    wirelen := if raw.origlen < caplen then caplen else raw.origlen
    tsNs := raw.sec.toUInt64 * 1000000000 + if nsec then raw.frac.toUInt64 else raw.frac.toUInt64 * 1000 }

/-- Frames that are accounted for alike. -/
structure SameFrame (f g : Frame) : Prop where
  pi : f.pi = g.pi
  caplen : f.caplen = g.caplen
  wirelen : f.wirelen = g.wirelen
  tsNs : f.tsNs = g.tsNs

section records

variable {w : ℕ} {nsec : Bool} {fs gs : List Frame} {recs recs' : List PcapRecord} {r r' s' : PcapReader}
  {st st' : PcapStatus}

/-- A record that was read is accounted for as it stands in the file. -/
theorem Reads.sameFrame {rec : PcapRecord} {raw : RawRecord} (h : Reads nsec rec raw) :
    SameFrame rec.frame (raw.frame nsec) := by
  have hcap : rec.caplen = UInt32.ofNat raw.data.length := by
    rw [← UInt32.toNat_inj, h.caplen, raw.caplen_toNat]
  have hwire : rec.wirelen = (raw.frame nsec).wirelen := by
    rw [← UInt32.toNat_inj, h.wirelen]
    have hlen := raw.caplen_toNat
    unfold RawRecord.frame
    dsimp only
    split_ifs with hlt
    · rw [UInt32.lt_iff_toNat_lt, hlen] at hlt
      rw [hlen]
      exact max_eq_right hlt.le
    · rw [UInt32.lt_iff_toNat_lt, hlen] at hlt
      exact max_eq_left (not_lt.mp hlt)
  have hts : rec.tsNs = (raw.frame nsec).tsNs := by
    rw [← UInt64.toNat_inj, h.tsNs]
    exact (tsNs_toNat nsec raw.sec raw.frac).symm
  refine ⟨?_, hcap, hwire, hts⟩
  obtain ⟨p, hp, hbytes⟩ := h.data
  have hmem : ∀ i < rec.caplen.toNat, (rec.data.getD {}).mem i = SpanWalk.Mem.ofList raw.data i := by
    intro i hi
    rw [hp, Option.getD_some]
    rw [h.caplen] at hi
    show p.byte i = _
    rw [p.byte_eq hi, hbytes]
    rfl
  have hdecode := decodeFrame_congr hmem rec.wirelen.toNat
  unfold Frame.pi PcapRecord.frame
  dsimp only
  rw [hdecode, hcap, hwire]
  rfl

theorem resolveAll_congr (h : List.Forall₂ SameFrame fs gs) (ps : List PacketInfo) :
    resolveAll w ps fs = resolveAll w ps gs := by
  induction h generalizing ps with
  | nil => rfl
  | @cons f g fs gs hfg _ ih =>
      have hresolve : resolve w ps f = resolve w ps g := by
        unfold resolve
        rw [hfg.pi, hfg.caplen, hfg.wirelen, hfg.tsNs]
      rw [resolveAll, resolveAll, hresolve, hfg.pi, ih]

theorem Delivers.info (h : Delivers r recs st r') : r'.info = r.info := by
  induction h with
  | @stop r r' st rec hnext _ =>
      have hinfo := pcapNext_info r
      rw [hnext] at hinfo
      exact hinfo
  | @next r r₁ r' st rec recs hnext _ ih =>
      have hinfo := pcapNext_info r
      rw [hnext] at hinfo
      exact ih.trans hinfo

end records

/-! ### The meaning of a capture -/

/-- The records as they are seen, in order. -/
def seenRecords (w : ℕ) (nsec : Bool) (raws : List RawRecord) : List Seen :=
  resolveAll w [] (raws.map (RawRecord.frame nsec))

/-- The file that an export leaves behind. -/
def exported (path : Option Text) (text : Text) : List OutFile := (path.map fun path => ⟨path, text, true⟩).toList

/-- What the program says of the records `ss`. -/
def meaning (floats : FloatTexts) (c : Command) (info : PcapFileInfo) (ss : List Seen) : Outcome :=
  let s := ss.foldl (fun st s => s.count st) statsInit
  let flows := flowLedger ss
  let tunnels := tunnelLedger ss
  { status := exitOk
    stdout := reportSummary floats c.pcapPath info s flows.length ++
      reportTopFlows ((ranked flows).take c.topN) flows.length ++
      (if s.gtpu.packets = 0 ∧ s.gtpu.fragmented = 0 then []
        else gtpuLines s.gtpu tunnels.length (tunnels.map fun f => f.key.teid).toFinset.card) ++
      reportTopTunnels ((ranked tunnels).take c.topN) tunnels.length
    files := exported c.csvPath (csvHeader ++ (ranked flows).flatMap csvFlow) ++
      exported c.tunnelsPath (csvTunnelHeader ++ (ranked tunnels).flatMap csvTunnel) }

section meaning

variable {w : ℕ} {sys : System} {c : Command} {info : PcapFileInfo} {a : Analysis} {records : UInt64}
  {st : PcapStatus}
  {t : FlowTable} {fs : List Frame}

/-- A table that was printed is the one that memory was granted for. -/
theorem printTop_of_isSome {qsort : Qsort} {n : ℕ} {tunnels ok : Bool} (h : (printTop qsort t n tunnels ok).isSome) :
    printTop qsort t n tunnels ok = printTop qsort t n tunnels true := by
  cases ok with
  | true => rfl
  | false =>
      unfold printTop at h ⊢
      dsimp only at h ⊢
      generalize (if n < t.count then n else t.count) = shown at h ⊢
      by_cases hzero : shown = 0
      · rw [if_pos hzero, if_pos hzero]
      · rw [if_neg hzero, if_pos (by rfl)] at h
        exact absurd h Bool.false_ne_true

theorem reportGtpu_of_isSome {qsort : Qsort} {s : Stats} {ok : Bool} (h : (reportGtpu qsort s t ok).isSome) :
    reportGtpu qsort s t ok = reportGtpu qsort s t true := by
  cases ok with
  | true => rfl
  | false =>
      unfold reportGtpu flowTableDistinctTeids at h ⊢
      by_cases hnone : s.gtpu.packets = 0 ∧ s.gtpu.fragmented = 0
      · rw [if_pos hnone, if_pos hnone]
      rw [if_neg hnone] at h ⊢
      by_cases hcount : t.count = 0
      · rw [if_pos hcount, if_neg hnone, if_pos hcount]
      · rw [if_neg hcount, if_pos (by rfl)] at h
        exact absurd h Bool.false_ne_true

theorem reportGtpu_told {qsort : Qsort} {s : Stats} {ok : Bool} {l : List Flow} (h : Told sys.w t l)
    (hsome : (reportGtpu qsort s t ok).isSome) : reportGtpu qsort s t ok =
      some (if s.gtpu.packets = 0 ∧ s.gtpu.fragmented = 0 then []
        else gtpuLines s.gtpu l.length (l.map fun f => f.key.teid).toFinset.card) := by
  rw [reportGtpu_of_isSome hsome]
  unfold reportGtpu
  by_cases hnone : s.gtpu.packets = 0 ∧ s.gtpu.fragmented = 0
  · rw [if_pos hnone, if_pos hnone]
  · rw [if_neg hnone, if_neg hnone, h.teids, h.count]
    rfl

theorem exportCsv_exported {path : Option Text} {header : Text} {line : Flow → Text} {qsort : Qsort} {ok : Bool}
    {l : List Flow} (h : Told sys.w t l) (hok : (exportCsv sys path (csvReport header line qsort t ok)).2.2 = true) :
    (exportCsv sys path (csvReport header line qsort t ok)).1 = exported path (header ++ (ranked l).flatMap line) := by
  cases path with
  | none => rfl
  | some path =>
      obtain ⟨text, htext, hfile⟩ := exportCsv_stored hok rfl
      have htold := csvReport_of_isSome (Option.isSome_iff_exists.mpr ⟨text, htext⟩)
      rw [h.csv, htext, Option.some.injEq] at htold
      rw [hfile, htold]
      rfl

/-- **A report that succeeds says what there is to say.** -/
theorem report_of_ok (h : Entered sys.w fs a) (hok : (report sys c info a records st).status = exitOk) :
    report sys c info a records st = meaning sys.floats c info (resolveAll sys.w [] fs) := by
  obtain ⟨-, hflows, hgtpu, htunnels, hcsv, htunnelsCsv, -⟩ := report_ok hok
  have hstderr := ((report_status sys c info a records st).mp hok).1
  have hflowsTold := h.inv.flows.told h.flows
  have htunnelsTold := h.inv.tunnels.told h.tunnels
  have htopFlows := printTop_eq h.inv.flows sys.qsort c.topN false (h.inv.flows.ranking_ranked h.flows)
  have htopTunnels := printTop_eq h.inv.tunnels sys.qsort c.topN true (h.inv.tunnels.ranking_ranked h.tunnels)
  rw [← printTop_of_isSome hflows] at htopFlows
  rw [← printTop_of_isSome htunnels] at htopTunnels
  apply Outcome.ext
  · exact hok
  · rw [report_stdout_eq, htopFlows, htopTunnels, reportGtpu_told htunnelsTold hgtpu, hflowsTold.count,
      htunnelsTold.count, h.stats]
    rfl
  · exact hstderr
  · rw [report_files_eq]
    unfold reportCsv at hcsv ⊢
    unfold reportTunnelsCsv at htunnelsCsv ⊢
    rw [exportCsv_exported hflowsTold hcsv, exportCsv_exported htunnelsTold htunnelsCsv]
    rfl

end meaning

/-! ### Whole captures -/

section whole

variable {w : ℕ} {ok : ℕ → Grants} {be nsec broken : Bool} {bytes hdr body : List UInt8} {raws : List RawRecord}
  {snaplen : UInt32} {a a' : Analysis} {r r' : PcapReader} {st : PcapStatus}

/-- What the reader knows of a file that it has opened. -/
theorem pcapOpenStream_info (h : pcapOpenStream (some (streamOf (hdr ++ body) false)) true = (r, .ok))
    (hhdr : GlobalHeader be nsec hdr) (hsnaplen : (hdr.drop 16).take 4 = bbU32 snaplen be) :
    r.info = fileInfo be nsec snaplen := by
  have hsound : PcapReader.Sound { fp := some (streamOf (hdr ++ body) false) } := ⟨rfl, rfl⟩
  have hrest : PcapReader.rest { fp := some (streamOf (hdr ++ body) false) } = hdr ++ body := rfl
  obtain ⟨r₁, p, htake, -, hbytes⟩ := take_full hsound (n := pcapGlobalHdrLen) (by
    rw [hrest, List.length_append, hhdr.length]
    exact Nat.le_add_right _ _)
  rw [hrest, List.take_left' hhdr.length] at hbytes
  unfold pcapOpenStream readGlobalHeader at h
  dsimp only at h
  rw [htake] at h
  simp only [if_true, hhdr.accepted hbytes hsnaplen, ne_eq, not_true, if_false, Prod.mk.injEq] at h
  rw [← h.1]

/-- A stream that is opened although it breaks would be opened if it did not. -/
theorem pcapOpenStream_unbroken (h : pcapOpenStream (some (streamOf bytes broken)) true = (r, .ok)) :
    (pcapOpenStream (some (streamOf bytes false)) true).2 = .ok := by
  cases broken with
  | false => rw [h]
  | true =>
      unfold pcapOpenStream readGlobalHeader at h ⊢
      rcases htake : take { fp := some (streamOf bytes false) } pcapGlobalHdrLen with ⟨r₁, p, got⟩
      dsimp only at h ⊢
      rw [htake]
      obtain ⟨-, -, ⟨hsome, hbreak⟩ | ⟨rfl, -, s', hbreak, -, hshort⟩⟩ :=
        take_breaks (intact_streamOf bytes) htake
      · obtain ⟨p, rfl⟩ := Option.isSome_iff_exists.mp hsome
        have hbreak' : take { fp := some (streamOf bytes true) } pcapGlobalHdrLen = (r₁.breaks, some p, got) := hbreak
        rw [hbreak'] at h
        simp only [if_true] at h ⊢
        by_cases hst : (pcapParseGlobalHeader p pcapGlobalHdrLen).2 = .ok
        · rw [if_neg (not_not.mpr hst)]
          exact hst
        · rw [if_pos hst, Prod.mk.injEq] at h
          exact absurd h.2 hst
      · have hbreak' : take { fp := some (streamOf bytes true) } pcapGlobalHdrLen = (s', none, got) := hbreak
        rw [hbreak'] at h
        simp only [if_true, hshort, reduceCtorEq, false_and, if_false, ne_eq, not_false_eq_true, Prod.mk.injEq,
          and_false] at h

theorem analysisRun_whole (h : Ready be nsec r) (hrest : r.rest = pcapPutRecords be raws) (ha : Fresh w a)
    (hrun : analysisRun w ok a r = some (a', r', st)) (hst : st ≠ .errNomem) :
    st = .eof ∧ r'.info = r.info ∧ ∃ fs, Entered w fs a' ∧ resolveAll w [] fs = seenRecords w nsec raws := by
  obtain ⟨recs, r₁, hreads, hready, hrest₁, hdel⟩ :=
    @delivers_records be nsec raws r [] h (by rw [hrest, List.append_nil])
  obtain ⟨rEnd, hend⟩ := delivers_eof hready hrest₁
  have hall := hdel hend
  rw [List.append_nil] at hall
  obtain ⟨a₁, r₂, st₁, hrun₁, hspec⟩ := analysisRun_spec ha.inv ok r
  rw [hrun, Option.some.injEq, Prod.mk.injEq, Prod.mk.injEq] at hrun₁
  obtain ⟨rfl, rfl, rfl⟩ := hrun₁
  obtain ⟨recs', hdel', haccounted⟩ := hspec hst
  obtain ⟨rfl, rfl, rfl⟩ := hdel'.unique hall
  refine ⟨rfl, hall.info, _, haccounted.entered ha, ?_⟩
  apply resolveAll_congr
  rw [List.forall₂_map_left_iff, List.forall₂_map_right_iff]
  exact hreads.imp fun _ _ hread => hread.sameFrame

end whole

/-! ### The theorem -/

/-- The file at `path` is a capture of the records `raws`. -/
structure System.Holds (sys : System) (path : Text) (be nsec : Bool) (snaplen : UInt32) (raws : List RawRecord) :
    Prop where
  file : ∃ hdr, sys.file path = some (hdr ++ pcapPutRecords be raws, false) ∧ GlobalHeader be nsec hdr ∧
    (hdr.drop 16).take 4 = bbU32 snaplen be

/-- The system grants what it is asked for, for a capture of `n` records. -/
structure System.Granting (sys : System) (c : Command) (n : ℕ) : Prop where
  size : 32 ≤ sys.w
  fits : n * 252 < 2 ^ sys.w
  buffer : sys.buffer = true
  init : sys.flowsInit = true ∧ sys.tunnelsInit = true ∧ sys.fragsInit = true
  grants : ∀ i < n, sys.grants i = ⟨true, true⟩
  top : ∀ tunnels, sys.top tunnels = true
  teids : sys.teids = true
  csv : ∀ tunnels, sys.csv tunnels = true
  files : ∀ path, c.csvPath = some path ∨ c.tunnelsPath = some path →
    sys.create path = true ∧ sys.store path = true
  flush : sys.flush = true

/-- Records of two flows and two tunnels, behind a header with a time zone. -/
def talkCapture : List UInt8 := zonedHeader ++ pcapPutRecords false talkRecords

/-- The export of its flows is asked for. -/
def csvArgs : List Text := ["--csv".toList, "flows.csv".toList, "a.pcap".toList]

theorem commandLine_csvArgs (w : ℕ) :
    commandLine w csvArgs = .run ⟨10, some "flows.csv".toList, none, "a.pcap".toList⟩ := by
  simp [commandLine, csvArgs, parseArgs, defaultTopN]

theorem talkCapture_holds :
    (generous "a.pcap".toList talkCapture).Holds "a.pcap".toList false false 0x40000 talkRecords := by
  refine ⟨zonedHeader, generous_file _ _, ⟨rfl, rfl, rfl, 0x30000001, rfl, ?_⟩, ?_⟩ <;> decide

section programs

variable {sys : System} {args : List Text} {c : Command} {be nsec : Bool} {snaplen : UInt32} {raws : List RawRecord}
  {out : Outcome}

/-- **Success means that all was said of a whole capture.** -/
theorem main_sound (hask : commandLine sys.w args = .run c) (hmain : main sys args = some out)
    (hok : out.status = exitOk) : ∃ be nsec snaplen raws, sys.Holds c.pcapPath be nsec snaplen raws ∧
      out = meaning sys.floats c (fileInfo be nsec snaplen) (seenRecords sys.w nsec raws) := by
  cases ending_of_main hmain with
  | help hask' => cases hask.symm.trans hask'
  | refused hask' => cases hask.symm.trans hask'
  | closed => exact absurd hok (show exitInput ≠ exitOk by decide)
  | noMemory => exact absurd hok (show exitInput ≠ exitOk by decide)
  | @reported c' r r' a a' st hask' hopen hinit hrun =>
      obtain rfl : c = c' := Request.run.inj (hask.symm.trans hask')
      have heof := (report_ok hok).1
      subst heof
      have hfresh := Fresh.of_init hinit
      rw [System.fopen] at hopen
      cases hfile : sys.file c.pcapPath with
      | none =>
          rw [hfile] at hopen
          cases hopen
      | some p =>
          obtain ⟨bytes, broken⟩ := p
          rw [hfile, Option.map_some] at hopen
          dsimp only at hopen
          cases hbuffer : sys.buffer with
          | false =>
              rw [hbuffer] at hopen
              cases hopen
          | true =>
              rw [hbuffer] at hopen
              -- the file is a header, complete records and a tail
              obtain ⟨be, nsec, hdr, body, rfl, hhdr⟩ :=
                (@Opens.stream bytes).ok_iff.mp (pcapOpenStream_unbroken hopen)
              obtain ⟨raws, rest, stop, rfl, htail⟩ := exists_records be body
              obtain ⟨r₀, hopen₀, hr, hready, hrest, -, hopen'⟩ :=
                @pcapOpenStream_extend be nsec hdr (pcapPutRecords be raws) hhdr rest broken
              rw [hopen', Prod.mk.injEq] at hopen
              obtain ⟨rfl, -⟩ := hopen
              -- reading the records alone ends where the tail says
              obtain ⟨a₁, r₁, st₁, hrun₀, -⟩ := analysisRun_spec hfresh.inv sys.grants r₀
              obtain ⟨s', st', hrun', hinfo, -, hend⟩ := analysisLoop_extend hready hr hrest htail
                (Nat.succ_le_succ (hr.left_extend rest broken)) broken hrun₀
              have hextended : analysisRun sys.w sys.grants a (r₀.extend rest broken) = some (a₁, s', st') := hrun'
              rw [hrun, Option.some.injEq, Prod.mk.injEq, Prod.mk.injEq] at hextended
              obtain ⟨rfl, rfl, rfl⟩ := hextended
              rcases hend with ⟨-, hno⟩ | ⟨rfl, hstop, -⟩
              · exact absurd hno (by decide)
              obtain ⟨rfl, rfl⟩ : broken = false ∧ stop = .eof := by
                revert hstop
                cases broken with
                | false => exact fun hstop => ⟨rfl, hstop.symm⟩
                | true => cases stop <;> decide
              cases htail
              rw [List.append_nil] at hfile
              obtain ⟨snaplen, hsnaplen⟩ := exists_bbU32 be (@length_field hdr 4 16 hhdr.length (by decide))
              obtain ⟨-, hinfo', fs, hentered, hseen⟩ := analysisRun_whole hready hrest hfresh hrun₀ (by decide)
              refine ⟨be, nsec, snaplen, raws, ⟨hdr, hfile, hhdr, hsnaplen⟩, ?_⟩
              rw [report_of_ok hentered hok, hseen, hinfo, hinfo', pcapOpenStream_info hopen₀ hhdr hsnaplen]

/-- The file holds a whole capture. -/
theorem main_sound_talk : ∃ out, main (generous "a.pcap".toList talkCapture) csvArgs = some out ∧
    out.status = exitOk ∧ out.files.map OutFile.path = ["flows.csv".toList] ∧ ∃ be nsec snaplen raws,
      (generous "a.pcap".toList talkCapture).Holds "a.pcap".toList be nsec snaplen raws ∧
      out = meaning fewPackets ⟨10, some "flows.csv".toList, none, "a.pcap".toList⟩ (fileInfo be nsec snaplen)
        (seenRecords 64 nsec raws) := by
  have hend : ((main (generous "a.pcap".toList talkCapture) csvArgs).map fun out =>
      (out.status, out.files.map OutFile.path)) = some (exitOk, ["flows.csv".toList]) := by
    decide +kernel
  obtain ⟨out, hmain, hview⟩ := Option.map_eq_some_iff.mp hend
  obtain ⟨hok, hfiles⟩ := Prod.mk.inj hview
  exact ⟨out, hmain, hok, hfiles, main_sound (commandLine_csvArgs 64) hmain hok⟩

theorem report_granted {n : ℕ} {fs : List Frame} {a : Analysis} {info : PcapFileInfo} {records : UInt64}
    (h : Entered sys.w fs a) (hg : sys.Granting c n) : (report sys c info a records .eof).status = exitOk := by
  have hflows := h.inv.flows.told h.flows
  have htunnels := h.inv.tunnels.told h.tunnels
  have htop : ∀ (tunnels : Bool) {t : FlowTable} {l : List Flow}, t.Inv sys.w → t.entries.Perm l →
      (printed (printTop sys.qsort t c.topN tunnels (sys.top tunnels))).2 = ([], true) := by
    intro tunnels t l ht hperm
    rw [hg.top, printTop_eq ht sys.qsort c.topN tunnels (ht.ranking_ranked hperm)]
    rfl
  have hgtpu : (printed (reportGtpu sys.qsort a.stats a.tunnels sys.teids)).2 = ([], true) := by
    rw [hg.teids]
    unfold reportGtpu
    rw [htunnels.teids]
    split_ifs <;> rfl
  have hcsv : ∀ {t : FlowTable} {l : List Flow} {path : Option Text} {header : Text} {line : Flow → Text},
      Told sys.w t l → (∀ p, path = some p → sys.create p = true ∧ sys.store p = true) →
      (exportCsv sys path (csvReport header line sys.qsort t true)).2 = ([], true) := by
    intro t l path header line ht hpath
    cases path with
    | none => rfl
    | some p =>
        obtain ⟨hcreate, hstore⟩ := hpath p rfl
        rw [ht.csv, exportCsv, writeCsv, hcreate, hstore]
        rfl
  have hflowsCsv := @hcsv _ _ c.csvPath csvHeader csvFlow hflows fun p hp => hg.files p (.inl hp)
  have htunnelsCsv := @hcsv _ _ c.tunnelsPath csvTunnelHeader csvTunnel htunnels fun p hp => hg.files p (.inr hp)
  rw [report_status]
  refine ⟨?_, hg.flush⟩
  unfold report reportCsv reportTunnelsCsv
  dsimp only
  simp only [htop false h.inv.flows h.flows, htop true h.inv.tunnels h.tunnels, hgtpu, hg.csv, hflowsCsv,
    htunnelsCsv, ne_eq, not_true, if_false, List.append_nil]

/-- **All is said of every whole capture**, if that is granted. -/
theorem main_complete (hask : commandLine sys.w args = .run c) (hfile : sys.Holds c.pcapPath be nsec snaplen raws)
    (hg : sys.Granting c raws.length) : main sys args =
      some (meaning sys.floats c (fileInfo be nsec snaplen) (seenRecords sys.w nsec raws)) := by
  obtain ⟨hdr, hfile, hhdr, hsnaplen⟩ := hfile.file
  obtain ⟨r, hopen, -, hready, hrest, -⟩ :=
    @pcapOpenStream_extend be nsec hdr (pcapPutRecords be raws) hhdr [] false
  obtain ⟨x, hinit, -, hsome⟩ := analysisInit_thrifty hg.size sys.flowsInit sys.tunnelsInit sys.fragsInit
  obtain ⟨a, rfl⟩ := Option.isSome_iff_exists.mp (hsome.mpr hg.init)
  have hfresh := Fresh.of_init hinit
  obtain ⟨a', r', st, hrun, -⟩ := analysisRun_spec hfresh.inv sys.grants r
  obtain ⟨recs, r₁, hreads, hready₁, hrest₁, hdel⟩ :=
    @delivers_records be nsec raws r [] hready (by rw [hrest, List.append_nil])
  obtain ⟨rEnd, hend⟩ := delivers_eof hready₁ hrest₁
  have hall := hdel hend
  rw [List.append_nil] at hall
  have hlen : recs.length = raws.length := hreads.length_eq
  obtain ⟨-, hgranted⟩ := analysisRun_thrifty hg.size hinit hall hrun
  obtain ⟨rfl, rfl⟩ := hgranted (hlen ▸ hg.grants) (hlen ▸ hg.fits)
  obtain ⟨-, hinfo, fs, hentered, hseen⟩ := analysisRun_whole hready hrest hfresh hrun (by decide)
  have hreport := report_of_ok hentered (@report_granted sys c _ fs a' r'.info r'.records hentered hg)
  rw [main, hask]
  dsimp only
  rw [execute, System.fopen, hfile, Option.map_some, hg.buffer]
  dsimp only
  rw [hopen]
  simp only [ne_eq, not_true, if_false, hinit, Option.bind_eq_bind, Option.bind_some, hrun]
  rw [hreport, hseen, hinfo, pcapOpenStream_info hopen hhdr hsnaplen]

/-- The flows of the capture are exported. -/
theorem main_complete_talk : main (generous "a.pcap".toList talkCapture) csvArgs =
      some (meaning fewPackets ⟨10, some "flows.csv".toList, none, "a.pcap".toList⟩ (fileInfo false false 0x40000)
        (seenRecords 64 false talkRecords)) ∧
    (flowLedger (seenRecords 64 false talkRecords)).map Flow.packets = [3, 1] ∧
    (tunnelLedger (seenRecords 64 false talkRecords)).map Flow.packets = [2, 1] := by
  have hg : (generous "a.pcap".toList talkCapture).Granting
      ⟨10, some "flows.csv".toList, none, "a.pcap".toList⟩ 4 :=
    { size := by decide
      fits := by decide
      buffer := rfl
      init := ⟨rfl, rfl, rfl⟩
      grants := fun _ _ => rfl
      top := fun _ => rfl
      teids := rfl
      csv := fun _ => rfl
      files := fun _ _ => ⟨rfl, rfl⟩
      flush := rfl }
  exact ⟨main_complete (commandLine_csvArgs 64) talkCapture_holds hg, by decide +kernel, by decide +kernel⟩

end programs

end Pcapstat
