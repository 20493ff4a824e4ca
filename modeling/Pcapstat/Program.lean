import Pcapstat.CommandLine
import Pcapstat.ReaderErrors
import Pcapstat.Recorded
import Pcapstat.Summary
import Pcapstat.TopTable

/-! # The program (`main.c`)

What `main` does to its surroundings, for every command line and for everything that the system may answer
(`System`): which files can be read and written, and which allocations and writes succeed.

* A stream to a file holds the bytes up to its end, or up to the place where reading it fails.
* Files are told apart by their names as given, as `main` does it: another spelling is another file.
* `stdout` is what is handed to the stream; write errors before the final `fflush` are not modelled.
* `strerror` depends on the file only; closing and freeing are left out. -/

namespace Pcapstat

/-! ### Surroundings -/

/-- What the system answers; a file is known by its name as given. -/
structure System where
  /-- bits of `size_t` and of `unsigned long` -/
  w : ℕ
  qsort : Qsort
  floats : FloatTexts
  /-- the bytes of a file that can be read, and whether reading fails behind them -/
  file : Text → Option (List UInt8 × Bool)
  /-- `strerror` for a file that cannot be opened, read or created -/
  strerror : Text → Text
  /-- `malloc` of the buffer of the reader -/
  buffer : Bool
  flowsInit : Bool
  tunnelsInit : Bool
  fragsInit : Bool
  grants : ℕ → Grants
  /-- `malloc` in `print_top` and in the reports, of flows or of tunnels -/
  top : (tunnels : Bool) → Bool
  teids : Bool
  csv : (tunnels : Bool) → Bool
  /-- `fopen(path, "w")` -/
  create : Text → Bool
  /-- all that is printed to a file is stored, and `fclose` succeeds -/
  store : Text → Bool
  /-- `fflush(stdout)` succeeds -/
  flush : Bool

/-- A file opened for writing: what was printed to it, and whether it was stored. -/
structure OutFile where
  path : Text
  text : Text
  stored : Bool
deriving DecidableEq, Repr

/-- What a run of the program leaves behind: its status, what it has handed to `stdout` and `stderr`, and the files
that it has written, by their names as given. -/
@[ext]
structure Outcome where
  status : ℕ
  stdout : Text := []
  stderr : Text := []
  files : List OutFile := []
deriving DecidableEq, Repr

def exitOk : ℕ := 0
def exitUsage : ℕ := 1
def exitInput : ℕ := 2

def outOfMemory : Text := "pcapstat: out of memory\n".toList

/-! ### Writing -/

/-- `write_csv`: the file if it could be created, what is printed to `stderr`, and whether it returns 0. -/
def writeCsv (sys : System) (path : Text) (report : Option Text) : List OutFile × Text × Bool :=
  if !sys.create path then ([], "pcapstat: ".toList ++ path ++ ": ".toList ++ sys.strerror path ++ ['\n'], false)
  else
    let ok := report.isSome && sys.store path
    ([⟨path, report.getD [], sys.store path⟩],
      if ok then [] else "pcapstat: ".toList ++ path ++ ": failed to write CSV\n".toList, ok)

/-- The export, if one is asked for. -/
def exportCsv (sys : System) (path : Option Text) (report : Option Text) : List OutFile × Text × Bool :=
  match path with
  | none => ([], [], true)
  | some path => writeCsv sys path report

/-- A part of the report that memory may run out for: what is printed to `stdout` and to `stderr`. -/
def printed (part : Option Text) : Text × Text × Bool :=
  match part with
  | none => ([], outOfMemory, false)
  | some text => (text, [], true)

/-! ### Running -/

/-- The message about a file that is not a capture. -/
def openError (sys : System) (path : Text) (st : PcapStatus) : Text :=
  if st = .errOpen ∨ st = .errIo then
    "pcapstat: ".toList ++ path ++ ": ".toList ++ pcapStatusStr st ++ ": ".toList ++ sys.strerror path ++ ['\n']
  else "pcapstat: ".toList ++ path ++ ": ".toList ++ pcapStatusStr st ++ ['\n']

/-- The message about a capture that could not be read to its end. -/
def damage (path : Text) (st : PcapStatus) (records : UInt64) : Text :=
  "pcapstat: ".toList ++ path ++ ": ".toList ++ pcapStatusStr st ++ " after ".toList ++ decimal records.toNat ++
    " records; statistics below cover those records only\n".toList

/-- The part of `main` behind `analysis_run`. -/
def report (sys : System) (c : Command) (info : PcapFileInfo) (a : Analysis) (records : UInt64) (st : PcapStatus) :
    Outcome :=
  let (damaged, ok₀) := if st ≠ .eof then (damage c.pcapPath st records, false) else ([], true)
  let summary := reportSummary sys.floats c.pcapPath info a.stats a.flows.count
  let (flows, err₁, ok₁) := printed (printTop sys.qsort a.flows c.topN false (sys.top false))
  let (gtpu, err₂, ok₂) := printed (reportGtpu sys.qsort a.stats a.tunnels sys.teids)
  let (tunnels, err₃, ok₃) := printed (printTop sys.qsort a.tunnels c.topN true (sys.top true))
  let (csv, err₄, ok₄) := exportCsv sys c.csvPath (reportCsv sys.qsort a.flows (sys.csv false))
  let (tunnelsCsv, err₅, ok₅) := exportCsv sys c.tunnelsPath (reportTunnelsCsv sys.qsort a.tunnels (sys.csv true))
  { status := if ok₀ && ok₁ && ok₂ && ok₃ && ok₄ && ok₅ && sys.flush then exitOk else exitInput
    stdout := summary ++ flows ++ gtpu ++ tunnels
    stderr := damaged ++ err₁ ++ err₂ ++ err₃ ++ err₄ ++ err₅
    files := csv ++ tunnelsCsv }

/-- `fopen(path, "rb")` -/
def System.fopen (sys : System) (path : Text) : Option Stream := (sys.file path).map fun p => streamOf p.1 p.2

/-- The part of `main` behind the command line. -/
def execute (sys : System) (c : Command) : Option Outcome := do
  let (r, st) := pcapOpenStream (sys.fopen c.pcapPath) sys.buffer
  if st ≠ .ok then some { status := exitInput, stderr := openError sys c.pcapPath st }
  else do
    match ← analysisInit sys.w sys.flowsInit sys.tunnelsInit sys.fragsInit with
    | none => some { status := exitInput, stderr := outOfMemory }
    | some a => do
        let (a, r, st) ← analysisRun sys.w sys.grants a r
        some (report sys c r.info a r.records st)

/-- `main`, of the arguments behind the name of the program -/
def main (sys : System) (args : List Text) : Option Outcome :=
  match commandLine sys.w args with
  | .help => some { status := exitOk, stdout := usage }
  | .refused stderr => some { status := exitUsage, stderr := stderr }
  | .run c => execute sys c

/-! ### How it ends -/

/-- The ways in which `main` ends. -/
inductive Ending (sys : System) (args : List Text) : Outcome → Prop where
  | help (hask : commandLine sys.w args = .help) : Ending sys args { status := exitOk, stdout := usage }
  | refused {stderr : Text} (hask : commandLine sys.w args = .refused stderr) :
      Ending sys args { status := exitUsage, stderr := stderr }
  | closed {c : Command} {r : PcapReader} {st : PcapStatus} (hask : commandLine sys.w args = .run c)
      (hopen : pcapOpenStream (sys.fopen c.pcapPath) sys.buffer = (r, st)) (hst : st ≠ .ok) :
      Ending sys args { status := exitInput, stderr := openError sys c.pcapPath st }
  | noMemory {c : Command} {r : PcapReader} (hask : commandLine sys.w args = .run c)
      (hopen : pcapOpenStream (sys.fopen c.pcapPath) sys.buffer = (r, .ok))
      (hinit : analysisInit sys.w sys.flowsInit sys.tunnelsInit sys.fragsInit = some none) :
      Ending sys args { status := exitInput, stderr := outOfMemory }
  | reported {c : Command} {r r' : PcapReader} {a a' : Analysis} {st : PcapStatus}
      (hask : commandLine sys.w args = .run c)
      (hopen : pcapOpenStream (sys.fopen c.pcapPath) sys.buffer = (r, .ok))
      (hinit : analysisInit sys.w sys.flowsInit sys.tunnelsInit sys.fragsInit = some (some a))
      (hrun : analysisRun sys.w sys.grants a r = some (a', r', st)) :
      Ending sys args (report sys c r'.info a' r'.records st)

section endings

variable {sys : System} {args : List Text} {out : Outcome}

/-- **`main` returns**, in one of these ways. -/
theorem main_ending (sys : System) (args : List Text) : ∃ out, main sys args = some out ∧ Ending sys args out := by
  unfold main
  cases hask : commandLine sys.w args with
  | help => exact ⟨_, rfl, .help hask⟩
  | refused stderr => exact ⟨_, rfl, .refused hask⟩
  | run c =>
      dsimp only
      unfold execute
      rcases hopen : pcapOpenStream (sys.fopen c.pcapPath) sys.buffer with ⟨r, st⟩
      dsimp only
      by_cases hst : st = .ok
      swap
      · rw [if_pos hst]
        exact ⟨_, rfl, .closed hask hopen hst⟩
      rw [if_neg (not_not.mpr hst)]
      obtain rfl := hst
      obtain ⟨a, hinit, hfresh⟩ := analysisInit_spec sys.w sys.flowsInit sys.tunnelsInit sys.fragsInit
      simp only [hinit, Option.bind_eq_bind, Option.bind_some]
      cases a with
      | none => exact ⟨_, rfl, .noMemory hask hopen hinit⟩
      | some a =>
          obtain ⟨a', r', st, hrun, -⟩ := analysisRun_spec (hfresh a rfl).inv sys.grants r
          simp only [hrun, Option.bind_some]
          exact ⟨_, rfl, .reported hask hopen hinit hrun⟩

theorem ending_of_main (h : main sys args = some out) : Ending sys args out := by
  obtain ⟨out', hmain, hending⟩ := main_ending sys args
  rw [h, Option.some.injEq] at hmain
  exact hmain ▸ hending

end endings

/-! ### Exit statuses -/

section statuses

variable {sys : System} {args : List Text} {c : Command} {a : Analysis} {st : PcapStatus} {info : PcapFileInfo}
  {records : UInt64}

theorem parseArgs_refused {w : ℕ} {o : Options} {stderr : Text} (h : parseArgs w o args = .refused stderr) :
    stderr ≠ [] := by
  fun_induction parseArgs w o args with
  | case1 => cases h
  | case2 => cases h
  | case3 => cases h; decide
  | case4 => cases h; decide
  | case5 _ _ _ _ _ _ ih => exact ih h
  | case6 => cases h; exact List.cons_ne_nil _ _
  | case7 _ _ _ _ _ _ ih => exact ih h
  | case8 _ _ _ _ _ _ _ _ ih => exact ih h
  | case9 => cases h; exact List.cons_ne_nil _ _
  | case10 => cases h; decide
  | case11 _ _ _ _ _ _ _ _ ih => exact ih h

theorem usage_ne_nil : usage ≠ [] := by
  unfold usage
  exact List.append_ne_nil_of_left_ne_nil (List.append_ne_nil_of_right_ne_nil _ Nat.toDigits_ne_nil) _

theorem commandLine_refused {w : ℕ} {stderr : Text} (h : commandLine w args = .refused stderr) : stderr ≠ [] := by
  unfold commandLine at h
  split at h
  · cases h
  · rename_i hparse
    cases h
    exact parseArgs_refused hparse
  · split at h
    · exact Request.refused.inj h ▸ usage_ne_nil
    · split_ifs at h
      · cases h
        decide
      · cases h
        decide

/-- A failed part is told on `stderr`, and no other. -/
theorem printed_told (part : Option Text) : (printed part).2.1 = [] ↔ (printed part).2.2 = true := by
  cases part with
  | none => exact iff_of_false (by decide) Bool.false_ne_true
  | some text => exact iff_of_true rfl rfl

theorem exportCsv_told (sys : System) (path report : Option Text) :
    (exportCsv sys path report).2.1 = [] ↔ (exportCsv sys path report).2.2 = true := by
  cases path with
  | none => exact iff_of_true rfl rfl
  | some path =>
      unfold exportCsv writeCsv
      dsimp only
      cases sys.create path with
      | false => exact iff_of_false (List.cons_ne_nil _ _) Bool.false_ne_true
      | true =>
          cases hok : (report.isSome && sys.store path) with
          | false => exact iff_of_false (List.cons_ne_nil _ _) Bool.false_ne_true
          | true => exact iff_of_true rfl rfl

theorem status_eq_ok {b : Bool} : b = true ↔ (if b then exitOk else exitInput) = exitOk := by
  cases b <;> decide

/-- **An error is printed if and only if something failed.** -/
theorem report_status (sys : System) (c : Command) (info : PcapFileInfo) (a : Analysis) (records : UInt64)
    (st : PcapStatus) : (report sys c info a records st).status = exitOk ↔
      (report sys c info a records st).stderr = [] ∧ sys.flush = true := by
  have hdamage : (if st ≠ .eof then (damage c.pcapPath st records, false) else ([], true)).1 = [] ↔
      (if st ≠ .eof then (damage c.pcapPath st records, false) else ([], true)).2 = true := by
    split
    · exact iff_of_false (List.cons_ne_nil _ _) Bool.false_ne_true
    · exact iff_of_true rfl rfl
  unfold report
  dsimp only
  rw [← status_eq_ok]
  simp only [List.append_eq_nil_iff, hdamage, printed_told, exportCsv_told, Bool.and_eq_true]

end statuses

/-! ### Files -/

section files

variable {sys : System} {args : List Text} {c : Command} {a : Analysis} {st : PcapStatus} {info : PcapFileInfo}
  {records : UInt64}

theorem exportCsv_files (sys : System) (path report : Option Text) : (exportCsv sys path report).1 =
    (path.filter sys.create).toList.map fun p => ⟨p, report.getD [], sys.store p⟩ := by
  cases path with
  | none => rfl
  | some path =>
      unfold exportCsv writeCsv
      dsimp only
      rw [Option.filter_some]
      cases sys.create path <;> rfl

theorem exportCsv_stored {path report : Option Text} {p : Text} (h : (exportCsv sys path report).2.2 = true)
    (hp : path = some p) : ∃ text, report = some text ∧ (exportCsv sys path report).1 = [⟨p, text, true⟩] := by
  subst hp
  unfold exportCsv writeCsv at h ⊢
  dsimp only at h ⊢
  cases hcreate : sys.create p with
  | false =>
      rw [hcreate] at h
      cases h
  | true =>
      rw [hcreate] at h
      simp only [Bool.not_true, Bool.false_eq_true, if_false, Bool.and_eq_true] at h ⊢
      obtain ⟨text, rfl⟩ := Option.isSome_iff_exists.mp h.1
      exact ⟨text, rfl, by rw [h.2]; rfl⟩

theorem distinct_of_commandLine {w : ℕ} (h : commandLine w args = .run c) : c.Distinct := by
  cases hparse : parseArgs w {} args with
  | help => rw [commandLine, hparse] at h; cases h
  | refused stderr => rw [commandLine, hparse] at h; cases h
  | options o => exact ((commandLine_run hparse).mp h).1

theorem report_stdout_eq : (report sys c info a records st).stdout =
    reportSummary sys.floats c.pcapPath info a.stats a.flows.count ++
      (printed (printTop sys.qsort a.flows c.topN false (sys.top false))).1 ++
      (printed (reportGtpu sys.qsort a.stats a.tunnels sys.teids)).1 ++
      (printed (printTop sys.qsort a.tunnels c.topN true (sys.top true))).1 := rfl

theorem report_files_eq : (report sys c info a records st).files =
    (exportCsv sys c.csvPath (reportCsv sys.qsort a.flows (sys.csv false))).1 ++
      (exportCsv sys c.tunnelsPath (reportTunnelsCsv sys.qsort a.tunnels (sys.csv true))).1 := rfl

/-- **Only the files that are asked for are written**, each once. -/
theorem report_files (hc : c.Distinct) : ((report sys c info a records st).files.map OutFile.path).Nodup ∧
    ∀ f ∈ (report sys c info a records st).files, f.path ≠ c.pcapPath ∧
      (c.csvPath = some f.path ∨ c.tunnelsPath = some f.path) := by
  have hmem : ∀ {path : Option Text} {p : Text}, p ∈ (path.filter sys.create).toList → path = some p := by
    intro path p hp
    exact (Option.filter_eq_some_iff.mp (Option.mem_toList.mp hp)).1
  rw [report_files_eq, exportCsv_files, exportCsv_files]
  constructor
  · rw [List.map_append, List.map_map, List.map_map]
    simp only [Function.comp_def, List.map_id']
    rw [List.nodup_append]
    refine ⟨Option.toList_nodup _, Option.toList_nodup _, ?_⟩
    rintro p hp q hq rfl
    exact hc.outputs p (hmem hp) (hmem hq)
  · intro f hf
    rcases List.mem_append.mp hf with hf | hf
    · obtain ⟨p, hp, rfl⟩ := List.mem_map.mp hf
      exact ⟨fun heq => hc.csv (heq ▸ hmem hp), .inl (hmem hp)⟩
    · obtain ⟨p, hp, rfl⟩ := List.mem_map.mp hf
      exact ⟨fun heq => hc.tunnels (heq ▸ hmem hp), .inr (hmem hp)⟩

/-- What has gone well if the status says so. -/
theorem report_ok (h : (report sys c info a records st).status = exitOk) : st = .eof ∧
    (printTop sys.qsort a.flows c.topN false (sys.top false)).isSome ∧
    (reportGtpu sys.qsort a.stats a.tunnels sys.teids).isSome ∧
    (printTop sys.qsort a.tunnels c.topN true (sys.top true)).isSome ∧
    (exportCsv sys c.csvPath (reportCsv sys.qsort a.flows (sys.csv false))).2.2 = true ∧
    (exportCsv sys c.tunnelsPath (reportTunnelsCsv sys.qsort a.tunnels (sys.csv true))).2.2 = true ∧
    sys.flush = true := by
  have hprinted : ∀ part : Option Text, (printed part).2.2 = true ↔ part.isSome := by
    intro part
    cases part with
    | none => exact iff_of_false Bool.false_ne_true Bool.false_ne_true
    | some text => exact iff_of_true rfl rfl
  have hend : (if st ≠ .eof then (damage c.pcapPath st records, false) else ([], true)).2 = true ↔ st = .eof := by
    split
    · exact iff_of_false Bool.false_ne_true ‹_›
    · exact iff_of_true rfl (not_not.mp ‹_›)
  unfold report at h
  dsimp only at h
  rw [← status_eq_ok] at h
  simp only [Bool.and_eq_true, hprinted, hend] at h
  obtain ⟨⟨⟨⟨⟨⟨hst, hflows⟩, hgtpu⟩, htunnels⟩, hcsv⟩, htunnelsCsv⟩, hflush⟩ := h
  exact ⟨hst, hflows, hgtpu, htunnels, hcsv, htunnelsCsv, hflush⟩

end files

/-! ### The theorem -/

/-- **What the program promises to its surroundings**, whatever they are.  It returns; the status is 0 if and only
if nothing was printed to `stderr` and the output was flushed, and 1 if and only if the command line was refused.
It writes files of the names that were asked for and no others, each name once, and never that of the input; if
the status is 0 they are all stored. -/
theorem main_contract (sys : System) (args : List Text) : ∃ out, main sys args = some out ∧
    (out.status = exitOk ↔ out.stderr = [] ∧ (sys.flush = true ∨ commandLine sys.w args = .help)) ∧
    (out.status = exitUsage ↔ ∃ stderr, commandLine sys.w args = .refused stderr) ∧
    (out.status = exitOk ∨ out.status = exitUsage ∨ out.status = exitInput) ∧
    (out.files.map OutFile.path).Nodup ∧
    (∀ f ∈ out.files, ∃ c, commandLine sys.w args = .run c ∧ f.path ≠ c.pcapPath ∧
      (c.csvPath = some f.path ∨ c.tunnelsPath = some f.path)) ∧
    (out.status = exitOk → ∀ c, commandLine sys.w args = .run c →
      ∀ path, c.csvPath = some path ∨ c.tunnelsPath = some path → ∃ f ∈ out.files, f.path = path ∧
      f.stored = true) := by
  obtain ⟨out, hmain, hending⟩ := main_ending sys args
  refine ⟨out, hmain, ?_⟩
  cases hending with
  | help hask =>
      refine ⟨iff_of_true rfl ⟨rfl, .inr hask⟩, iff_of_false (by decide) ?_, .inl rfl,
        List.nodup_nil, nofun, ?_⟩
      · rintro ⟨stderr, h⟩
        cases hask.symm.trans h
      · intro _ c h
        cases hask.symm.trans h
  | @refused stderr hask =>
      refine ⟨iff_of_false (show exitUsage ≠ exitOk by decide) fun h => commandLine_refused hask h.1,
        iff_of_true rfl ⟨stderr, hask⟩, .inr (.inl rfl), List.nodup_nil, nofun, ?_⟩
      intro h
      exact absurd h (show exitUsage ≠ exitOk by decide)
  | @closed c r st hask hopen hst =>
      have hsaid : openError sys c.pcapPath st ≠ [] := by
        unfold openError
        split <;> exact List.cons_ne_nil _ _
      refine ⟨iff_of_false (show exitInput ≠ exitOk by decide) fun h => hsaid h.1,
        iff_of_false (show exitInput ≠ exitUsage by decide) ?_, .inr (.inr rfl), List.nodup_nil, nofun, ?_⟩
      · rintro ⟨stderr, h⟩
        cases hask.symm.trans h
      · intro h
        exact absurd h (show exitInput ≠ exitOk by decide)
  | @noMemory c r hask hopen hinit =>
      refine ⟨iff_of_false (show exitInput ≠ exitOk by decide) fun h => absurd h.1 (by decide),
        iff_of_false (show exitInput ≠ exitUsage by decide) ?_, .inr (.inr rfl), List.nodup_nil, nofun, ?_⟩
      · rintro ⟨stderr, h⟩
        cases hask.symm.trans h
      · intro h
        exact absurd h (show exitInput ≠ exitOk by decide)
  | @reported c r r' a a' st hask hopen hinit hrun =>
      have hstatus := report_status sys c r'.info a' r'.records st
      have hor : (report sys c r'.info a' r'.records st).status = exitOk ∨
          (report sys c r'.info a' r'.records st).status = exitInput := ite_eq_or_eq _ _ _
      obtain ⟨hnodup, hfiles⟩ : ((report sys c r'.info a' r'.records st).files.map OutFile.path).Nodup ∧
          ∀ f ∈ (report sys c r'.info a' r'.records st).files, f.path ≠ c.pcapPath ∧
            (c.csvPath = some f.path ∨ c.tunnelsPath = some f.path) :=
        report_files (distinct_of_commandLine hask)
      refine ⟨?_, ?_, ?_, hnodup, fun f hf => ⟨c, hask, hfiles f hf⟩, ?_⟩
      · rw [hstatus, hask]
        simp
      · rw [hask]
        refine iff_of_false ?_ nofun
        rcases hor with h | h <;> rw [h] <;> decide
      · rcases hor with h | h
        · exact .inl h
        · exact .inr (.inr h)
      · intro hok c' hask' path hpath
        obtain rfl : c = c' := Request.run.inj (hask.symm.trans hask')
        obtain ⟨-, -, -, -, hcsv, htunnels, -⟩ := report_ok hok
        rcases hpath with hpath | hpath
        · obtain ⟨text, -, hfile⟩ := exportCsv_stored hcsv hpath
          refine ⟨⟨path, text, true⟩, ?_, rfl, rfl⟩
          rw [report_files_eq, hfile]
          exact List.mem_append_left _ (List.mem_singleton_self _)
        · obtain ⟨text, -, hfile⟩ := exportCsv_stored htunnels hpath
          refine ⟨⟨path, text, true⟩, ?_, rfl, rfl⟩
          rw [report_files_eq, hfile]
          exact List.mem_append_right _ (List.mem_singleton_self _)

end Pcapstat
