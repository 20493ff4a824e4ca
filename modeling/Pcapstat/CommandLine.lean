import Pcapstat.Numerals
import Pcapstat.Report

/-! # The command line (`main.c`)

The arguments behind the name of the program are read one by one (`parseArgs`); what they ask for is checked
when all have been read (`commandLine`).

* `w` is the width of `unsigned long`, which has at least 32 bits.
* A command line is a row of items (`Item`): it is accepted if and only if it is put together of items that
  name one input file and distinct output files (`commandLine_grammar`). -/

namespace Pcapstat

/-! ### Messages -/

def defaultTopN : ℕ := 10
def maxTopN : ℕ := 1000000

def usage : Text :=
  ("usage: pcapstat [-n N] [--csv FILE] [--tunnels-csv FILE] FILE.pcap\n" ++
    "\n" ++
    "Summarise a classic libpcap capture (Ethernet link type):\n" ++
    "packet counts per protocol, decode problems, the largest\n" ++
    "bidirectional flows and, for GTP-U traffic, the largest tunnels.\n" ++
    "\n" ++
    "  -n N                show the top N flows and tunnels by bytes\n" ++
    "                      (default ").toList ++ decimal defaultTopN ++
  (", 0 hides the tables)\n" ++
    "  --csv FILE          also write every flow to FILE as CSV\n" ++
    "  --tunnels-csv FILE  also write every GTP-U tunnel to FILE as CSV\n" ++
    "  -h, --help          show this help\n" ++
    "\n" ++
    "exit status: 0 ok, 1 usage error, 2 input error\n").toList

def needsNumber : Text := "pcapstat: -n needs a number from 0 to ".toList ++ decimal maxTopN ++ ['\n']
def needsFileName (arg : Text) : Text := "pcapstat: ".toList ++ arg ++ " needs a file name\n".toList
def unknownOption (arg : Text) : Text := "pcapstat: unknown option '".toList ++ arg ++ "'\n".toList ++ usage
def onlyOneInput : Text := "pcapstat: only one input file is supported\n".toList
def csvIsInput : Text := "pcapstat: a CSV file must not be the input file\n".toList
def csvsAreOne : Text := "pcapstat: --csv and --tunnels-csv need different files\n".toList

/-! ### Numbers -/

/-- `strtoul(text, NULL, 10)` of a digit string: the value, and whether `errno` is `ERANGE`. -/
def strtoul (w : ℕ) (text : Text) : ℕ × Bool :=
  let v := (Numeral.read 10 text).getD 0
  if v < 2 ^ w then (v, false) else (2 ^ w - 1, true)

/-- `parse_count`: `*out`, or `none` when it returns 0. -/
def parseCount (w : ℕ) (text : Text) : Option ℕ :=
  if text = [] then none
  else if text.any fun c => c < '0' || c > '9' then none
  else
    let (v, erange) := strtoul w text
    if erange || v > maxTopN then none else some v

/-! ### Arguments -/

/-- What the arguments have asked for. -/
structure Options where
  topN : ℕ := defaultTopN
  csvPath : Option Text := none
  tunnelsPath : Option Text := none
  pcapPath : Option Text := none

/-- How the loop over the arguments ends. -/
inductive Parsed where
  | options (o : Options)
  | help
  | refused (stderr : Text)

/-- The loop over the arguments. -/
def parseArgs (w : ℕ) : Options → List Text → Parsed
  | o, [] => .options o
  | o, arg :: rest =>
      if arg = "-h".toList ∨ arg = "--help".toList then .help
      else if arg = "-n".toList then
        match rest with
        | [] => .refused needsNumber
        | text :: rest =>
            match parseCount w text with
            | none => .refused needsNumber
            | some n => parseArgs w { o with topN := n } rest
      else if arg = "--csv".toList ∨ arg = "--tunnels-csv".toList then
        match rest with
        | [] => .refused (needsFileName arg)
        | path :: rest =>
            if arg = "--csv".toList then parseArgs w { o with csvPath := some path } rest
            else parseArgs w { o with tunnelsPath := some path } rest
      else if arg.head? = some '-' ∧ arg.tail ≠ [] then .refused (unknownOption arg)
      else if o.pcapPath.isSome then .refused onlyOneInput
      else parseArgs w { o with pcapPath := some arg } rest

/-- What the program is to do. -/
structure Command where
  topN : ℕ
  csvPath : Option Text
  tunnelsPath : Option Text
  pcapPath : Text

/-- What `main` makes of its arguments. -/
inductive Request where
  | run (c : Command)
  | help
  | refused (stderr : Text)

/-- The arguments and the checks behind the loop. -/
def commandLine (w : ℕ) (args : List Text) : Request :=
  match parseArgs w {} args with
  | .help => .help
  | .refused stderr => .refused stderr
  | .options o =>
      match o.pcapPath with
      | none => .refused usage
      | some pcapPath =>
          if o.csvPath = some pcapPath ∨ o.tunnelsPath = some pcapPath then .refused csvIsInput
          else if o.csvPath.isSome ∧ o.tunnelsPath.isSome ∧ o.csvPath = o.tunnelsPath then .refused csvsAreOne
          else .run ⟨o.topN, o.csvPath, o.tunnelsPath, pcapPath⟩

/-! ### The grammar -/

/-- A piece of a command line. -/
inductive Item where
  | topN (text : Text) (n : ℕ)
  | csv (path : Text)
  | tunnels (path : Text)
  | input (path : Text)

namespace Item

/-- The arguments of an item. -/
def args : Item → List Text
  | topN text _ => ["-n".toList, text]
  | csv path => ["--csv".toList, path]
  | tunnels path => ["--tunnels-csv".toList, path]
  | input path => [path]

/-- A count is a decimal numeral, perhaps with zeros in front.  The input file does not look like an option. -/
def Valid : Item → Prop
  | topN text n => n ≤ maxTopN ∧ ∃ k, text = List.replicate k '0' ++ decimal n
  | input path => path.head? = some '-' → path = "-".toList
  | _ => True

def topN? : Item → Option ℕ
  | topN _ n => some n
  | _ => none

def csv? : Item → Option Text
  | csv path => some path
  | _ => none

def tunnels? : Item → Option Text
  | tunnels path => some path
  | _ => none

def input? : Item → Option Text
  | input path => some path
  | _ => none

end Item

/-- `c` is what the items ask for; the last one of a kind decides. -/
structure Command.AskedBy (c : Command) (items : List Item) : Prop where
  topN : c.topN = (items.filterMap Item.topN?).getLast?.getD defaultTopN
  csv : c.csvPath = (items.filterMap Item.csv?).getLast?
  tunnels : c.tunnelsPath = (items.filterMap Item.tunnels?).getLast?
  input : items.filterMap Item.input? = [c.pcapPath]

/-- No file is named twice. -/
structure Command.Distinct (c : Command) : Prop where
  csv : c.csvPath ≠ some c.pcapPath
  tunnels : c.tunnelsPath ≠ some c.pcapPath
  outputs : ∀ path, c.csvPath = some path → c.tunnelsPath ≠ some path

/-! ### Counts -/

section counts

variable {w n : ℕ} {text : Text}

theorem digit_iff (c : Char) : (c < '0' || c > '9') = false ↔ '0' ≤ c ∧ c ≤ '9' := by
  rw [Bool.or_eq_false_iff, decide_eq_false_iff_not, decide_eq_false_iff_not, not_lt, not_lt]

theorem exists_value (h : text.any (fun c => c < '0' || c > '9') = false) (m : ℕ) :
    ∃ n, Numeral.readFrom 10 m text = some n := by
  induction text generalizing m with
  | nil => exact ⟨m, rfl⟩
  | cons c text ih =>
      rw [List.any_cons, Bool.or_eq_false_iff, digit_iff] at h
      obtain ⟨⟨hlo, hhi⟩, hrest⟩ := h
      have hlt : c.toNat - '0'.toNat < 10 := by
        have hle : c.toNat ≤ '9'.toNat := hhi
        have hnine : '9'.toNat = '0'.toNat + 9 := rfl
        omega
      have hadd : Numeral.addDigit 10 m c = some (10 * m + (c.toNat - '0'.toNat)) := by
        unfold Numeral.addDigit Numeral.digitValue
        rw [if_pos ⟨hlo, hhi⟩, Option.bind_some, if_pos hlt]
      obtain ⟨n, hn⟩ := ih hrest (10 * m + (c.toNat - '0'.toNat))
      refine ⟨n, ?_⟩
      unfold Numeral.readFrom at hn ⊢
      rw [List.foldlM_cons, hadd, Option.bind_eq_bind, Option.bind_some, hn]

theorem digits_zeros (k n : ℕ) :
    (List.replicate k '0' ++ decimal n).any (fun c => c < '0' || c > '9') = false := by
  rw [List.any_append, Bool.or_eq_false_iff, List.any_eq_false, List.any_eq_false]
  constructor
  · intro c hc
    rw [List.eq_of_mem_replicate hc]
    decide
  · intro c hc
    obtain ⟨d, hd, rfl⟩ := Numeral.mem_toDigits (by decide) hc
    clear hc
    revert d
    decide

/-- **`parse_count` reads the decimal numerals up to `MAX_TOP_N`.** -/
theorem parseCount_eq_some (hw : 32 ≤ w) :
    parseCount w text = some n ↔ n ≤ maxTopN ∧ ∃ k, text = List.replicate k '0' ++ decimal n := by
  have hwide : maxTopN < 2 ^ w := lt_of_lt_of_le (by decide) (Nat.pow_le_pow_right (by decide) hw)
  unfold parseCount strtoul
  constructor
  · intro h
    by_cases hnil : text = []
    · rw [if_pos hnil] at h
      cases h
    rw [if_neg hnil] at h
    by_cases hany : text.any (fun c => c < '0' || c > '9') = true
    · rw [if_pos hany] at h
      cases h
    rw [if_neg hany] at h
    obtain ⟨v, hv⟩ := exists_value (Bool.not_eq_true _ ▸ hany) 0
    have hread : Numeral.read 10 text = some v := by
      unfold Numeral.read
      rw [if_neg hnil, hv]
    rw [hread, Option.getD_some] at h
    by_cases hfits : v < 2 ^ w
    · simp only [if_pos hfits, Bool.false_or, decide_eq_true_eq] at h
      rw [Option.ite_none_left_eq_some, Option.some.injEq] at h
      obtain ⟨hmax, rfl⟩ := h
      exact ⟨not_lt.mp hmax, Numeral.exists_zeros (by decide) (by decide) hnil hv⟩
    · simp only [if_neg hfits, Bool.true_or, if_true] at h
      cases h
  · rintro ⟨hmax, k, rfl⟩
    have hnil : List.replicate k '0' ++ decimal n ≠ [] := by
      intro h
      exact Nat.toDigits_ne_nil (List.append_eq_nil_iff.mp h).2
    have hread : Numeral.read 10 (List.replicate k '0' ++ decimal n) = some n :=
      Numeral.read_zeros (by decide) (by decide) k
    rw [if_neg hnil, digits_zeros, if_neg Bool.false_ne_true, hread, Option.getD_some]
    simp only [if_pos (hmax.trans_lt hwide), Bool.false_or, decide_eq_true_eq]
    rw [if_neg (not_lt.mpr hmax)]

end counts

/-! ### The loop -/

/-- An item is read. -/
def Options.apply (o : Options) : Item → Options
  | .topN _ n => { o with topN := n }
  | .csv path => { o with csvPath := some path }
  | .tunnels path => { o with tunnelsPath := some path }
  | .input path => { o with pcapPath := some path }

/-- There is room for the input file of an item. -/
def Options.Allows (o : Options) (i : Item) : Prop := i.input?.isSome → o.pcapPath = none

section loop

variable {w : ℕ} {o : Options} {i : Item} {items : List Item} {rest : List Text}

theorem Item.Valid.input_ne {path opt : Text} (h : (Item.input path).Valid) (hhead : opt.head? = some '-')
    (hopt : opt ≠ "-".toList) : path ≠ opt := by
  rintro rfl
  exact hopt (h hhead)

theorem parseArgs_item (hw : 32 ≤ w) (hi : i.Valid) (ho : o.Allows i) :
    parseArgs w o (i.args ++ rest) = parseArgs w (o.apply i) rest := by
  cases i with
  | topN text n =>
      show parseArgs w o ("-n".toList :: text :: rest) = _
      rw [parseArgs, if_neg (by decide), if_pos rfl, (parseCount_eq_some hw).mpr hi]
      rfl
  | csv path =>
      show parseArgs w o ("--csv".toList :: path :: rest) = _
      rw [parseArgs, if_neg (by decide), if_neg (by decide), if_pos (.inl rfl)]
      rfl
  | tunnels path =>
      show parseArgs w o ("--tunnels-csv".toList :: path :: rest) = _
      rw [parseArgs, if_neg (by decide), if_neg (by decide), if_pos (.inr rfl)]
      exact if_neg (by decide)
  | input path =>
      have hhelp : ¬ (path = "-h".toList ∨ path = "--help".toList) :=
        not_or.mpr ⟨hi.input_ne rfl (by decide), hi.input_ne rfl (by decide)⟩
      have hcsv : ¬ (path = "--csv".toList ∨ path = "--tunnels-csv".toList) :=
        not_or.mpr ⟨hi.input_ne rfl (by decide), hi.input_ne rfl (by decide)⟩
      have hopt : ¬ (path.head? = some '-' ∧ path.tail ≠ []) := by
        rintro ⟨hhead, htail⟩
        rw [hi hhead] at htail
        exact htail rfl
      show parseArgs w o (path :: rest) = _
      rw [parseArgs.eq_def]
      dsimp only
      rw [if_neg hhelp, if_neg (hi.input_ne rfl (by decide)), if_neg hcsv, if_neg hopt, ho rfl]
      rfl

/-- There is room for the input files of the items. -/
def Options.AllowsAll (o : Options) (items : List Item) : Prop :=
  (o.pcapPath.toList ++ items.filterMap Item.input?).length ≤ 1

theorem Options.allowsAll_cons : o.AllowsAll (i :: items) ↔ o.Allows i ∧ (o.apply i).AllowsAll items := by
  unfold Options.AllowsAll Options.Allows
  cases i with
  | input path =>
      cases hpath : o.pcapPath with
      | none => exact ⟨fun h => ⟨fun _ => rfl, h⟩, And.right⟩
      | some p =>
          constructor
          · intro h
            simp [Item.input?] at h
          · rintro ⟨h, -⟩
            cases h rfl
  | topN text n => exact ⟨fun h => ⟨nofun, h⟩, And.right⟩
  | csv path => exact ⟨fun h => ⟨nofun, h⟩, And.right⟩
  | tunnels path => exact ⟨fun h => ⟨nofun, h⟩, And.right⟩

theorem parseArgs_items (hw : 32 ≤ w) (hvalid : ∀ i ∈ items, i.Valid) (ho : o.AllowsAll items) :
    parseArgs w o (items.flatMap Item.args ++ rest) = parseArgs w (items.foldl Options.apply o) rest := by
  induction items generalizing o with
  | nil => rfl
  | cons i items ih =>
      rw [List.forall_mem_cons] at hvalid
      obtain ⟨hi, hrest⟩ := Options.allowsAll_cons.mp ho
      rw [List.flatMap_cons, List.append_assoc, parseArgs_item hw hvalid.1 hi, ih hvalid.2 hrest]
      rfl

/-- The loop stops at `rest`, behind a row of items. -/
structure Stops (w : ℕ) (o : Options) (args : List Text) (items : List Item) (rest : List Text) : Prop where
  valid : ∀ i ∈ items, i.Valid
  allows : o.AllowsAll items
  split : args = items.flatMap Item.args ++ rest

theorem Stops.nil (args : List Text) : Stops w o args [] args where
  valid := nofun
  allows := by
    unfold Options.AllowsAll
    rw [List.filterMap_nil, List.append_nil]
    exact Option.length_toList_le
  split := rfl

theorem Stops.cons {args rest' : List Text} (hi : i.Valid) (ho : o.Allows i)
    (h : Stops w (o.apply i) args items rest') : Stops w o (i.args ++ args) (i :: items) rest' where
  valid := List.forall_mem_cons.mpr ⟨hi, h.valid⟩
  allows := Options.allowsAll_cons.mpr ⟨ho, h.allows⟩
  split := by rw [h.split, List.flatMap_cons, List.append_assoc]

/-- At its end and before `-h`, the loop has read a row of items. -/
structure Grammatical (w : ℕ) (o : Options) (args : List Text) : Prop where
  options : ∀ o', parseArgs w o args = .options o' → ∃ items, Stops w o args items [] ∧
    o' = items.foldl Options.apply o
  help : parseArgs w o args = .help → ∃ items arg rest, Stops w o args items (arg :: rest) ∧
    (arg = "-h".toList ∨ arg = "--help".toList)

theorem Grammatical.item (hw : 32 ≤ w) (hi : i.Valid) (ho : o.Allows i)
    (h : Grammatical w (o.apply i) rest) : Grammatical w o (i.args ++ rest) where
  options _ hend := by
    rw [parseArgs_item hw hi ho] at hend
    obtain ⟨items, hstops, heq⟩ := h.options _ hend
    exact ⟨i :: items, hstops.cons hi ho, heq⟩
  help hend := by
    rw [parseArgs_item hw hi ho] at hend
    obtain ⟨items, arg, rest', hstops, harg⟩ := h.help hend
    exact ⟨i :: items, arg, rest', hstops.cons hi ho, harg⟩

theorem Grammatical.refused {args : List Text} {stderr : Text} (h : parseArgs w o args = .refused stderr) :
    Grammatical w o args where
  options _ hend := nomatch h.symm.trans hend
  help hend := nomatch h.symm.trans hend

/-- **Every command line is read by the grammar.** -/
theorem grammatical (hw : 32 ≤ w) (o : Options) (args : List Text) : Grammatical w o args := by
  fun_induction parseArgs w o args with
  | case1 o =>
      refine ⟨?_, nofun⟩
      intro o' h
      exact ⟨[], .nil [], (Parsed.options.inj h).symm⟩
  | case2 o arg rest hhelp =>
      have hend : parseArgs w o (arg :: rest) = .help := by
        rw [parseArgs.eq_def]
        exact if_pos hhelp
      refine ⟨?_, fun _ => ⟨[], arg, rest, .nil _, hhelp⟩⟩
      intro o' h
      cases hend.symm.trans h
  | case3 o _ => exact .refused rfl
  | case4 o text rest hcount _ =>
      apply Grammatical.refused
      rw [parseArgs.eq_def]
      dsimp only
      rw [if_neg (by decide), if_pos rfl, hcount]
  | case5 o text rest n hcount _ ih =>
      apply Grammatical.item (i := .topN text n) hw ((parseCount_eq_some hw).mp hcount) nofun ih
  | case6 o arg hhelp hn hcsv =>
      apply Grammatical.refused
      rw [parseArgs.eq_def]
      dsimp only
      rw [if_neg hhelp, if_neg hn, if_pos hcsv]
  | case7 o path rest _ _ _ ih => exact .item (i := .csv path) hw trivial nofun ih
  | case8 o arg hhelp hn hcsv path rest hne ih =>
      obtain rfl := hcsv.resolve_left hne
      exact .item (i := .tunnels path) hw trivial nofun ih
  | case9 o arg rest hhelp hn hcsv hopt =>
      apply Grammatical.refused
      rw [parseArgs.eq_def]
      dsimp only
      rw [if_neg hhelp, if_neg hn, if_neg hcsv, if_pos hopt]
  | case10 o arg rest hhelp hn hcsv hopt hinput =>
      apply Grammatical.refused
      rw [parseArgs.eq_def]
      dsimp only
      rw [if_neg hhelp, if_neg hn, if_neg hcsv, if_neg hopt, if_pos hinput]
  | case11 o arg rest hhelp hn hcsv hopt hinput ih =>
      have hvalid : (Item.input arg).Valid := by
        intro hhead
        have htail : arg.tail = [] := not_not.mp fun hne => hopt ⟨hhead, hne⟩
        cases arg with
        | nil => cases hhead
        | cons c arg =>
            obtain rfl : c = '-' := Option.some.inj hhead
            obtain rfl : arg = [] := htail
            rfl
      apply Grammatical.item (i := .input arg) hw hvalid ?_ ih
      intro _
      exact Option.not_isSome_iff_eq_none.mp hinput

end loop

/-! ### The whole command line -/

section whole

variable {w : ℕ} {o : Options} {c : Command} {args : List Text} {items : List Item}

/-- The last item of a kind decides. -/
theorem foldl_last {β : Type} (field : Options → Option β) (value : Item → Option β)
    (h : ∀ o i, field (o.apply i) = (value i).or (field o)) (o : Options) (items : List Item) :
    field (items.foldl Options.apply o) = (items.filterMap value).getLast?.or (field o) := by
  induction items generalizing o with
  | nil => rfl
  | cons i items ih =>
      rw [List.foldl_cons, ih, h, List.filterMap_cons]
      cases value i with
      | none => rfl
      | some v =>
          rw [List.getLast?_cons, Option.some_or]
          cases (items.filterMap value).getLast? <;> rfl

theorem csvPath_foldl (items : List Item) :
    (items.foldl Options.apply {}).csvPath = (items.filterMap Item.csv?).getLast? := by
  rw [foldl_last Options.csvPath Item.csv? (fun o i => by cases i <;> rfl), Option.or_none]

theorem tunnelsPath_foldl (items : List Item) :
    (items.foldl Options.apply {}).tunnelsPath = (items.filterMap Item.tunnels?).getLast? := by
  rw [foldl_last Options.tunnelsPath Item.tunnels? (fun o i => by cases i <;> rfl), Option.or_none]

theorem pcapPath_foldl (items : List Item) :
    (items.foldl Options.apply {}).pcapPath = (items.filterMap Item.input?).getLast? := by
  rw [foldl_last Options.pcapPath Item.input? (fun o i => by cases i <;> rfl), Option.or_none]

theorem topN_foldl (items : List Item) :
    (items.foldl Options.apply {}).topN = (items.filterMap Item.topN?).getLast?.getD defaultTopN := by
  have h := foldl_last (fun o => some o.topN) Item.topN? (fun o i => by cases i <;> rfl) {} items
  cases hlast : (items.filterMap Item.topN?).getLast? with
  | none =>
      rw [hlast] at h
      exact Option.some.inj h
  | some n =>
      rw [hlast] at h
      exact Option.some.inj h

/-- What the items ask for is what the loop has kept. -/
theorem askedBy_iff (hinputs : (items.filterMap Item.input?).length ≤ 1) : c.AskedBy items ↔
    c.topN = (items.foldl Options.apply {}).topN ∧ c.csvPath = (items.foldl Options.apply {}).csvPath ∧
      c.tunnelsPath = (items.foldl Options.apply {}).tunnelsPath ∧
      (items.foldl Options.apply {}).pcapPath = some c.pcapPath := by
  rw [topN_foldl, csvPath_foldl, tunnelsPath_foldl, pcapPath_foldl]
  constructor
  · intro h
    refine ⟨h.topN, h.csv, h.tunnels, ?_⟩
    rw [h.input]
    rfl
  · rintro ⟨htop, hcsv, htunnels, hpath⟩
    refine ⟨htop, hcsv, htunnels, ?_⟩
    match hin : items.filterMap Item.input?, hpath, hinputs with
    | [], hpath, _ => cases hpath
    | [path], hpath, _ => exact congrArg (fun p => [p]) (Option.some.inj hpath)

/-- The checks behind the loop. -/
theorem commandLine_run (h : parseArgs w {} args = .options o) : commandLine w args = .run c ↔ c.Distinct ∧
    c.topN = o.topN ∧ c.csvPath = o.csvPath ∧ c.tunnelsPath = o.tunnelsPath ∧ o.pcapPath = some c.pcapPath := by
  rw [commandLine, h]
  dsimp only
  cases hpath : o.pcapPath with
  | none => exact ⟨nofun, fun h => nomatch h.2.2.2.2⟩
  | some path =>
      dsimp only
      constructor
      · intro h
        split_ifs at h with hin hout
        obtain rfl := Request.run.inj h
        obtain ⟨hcsv, htunnels⟩ := not_or.mp hin
        refine ⟨⟨hcsv, htunnels, ?_⟩, rfl, rfl, rfl, rfl⟩
        intro out hc ht
        exact hout ⟨Option.isSome_of_eq_some hc, Option.isSome_of_eq_some ht, hc.trans ht.symm⟩
      · rintro ⟨hdistinct, htop, hcsv, htunnels, hin⟩
        obtain rfl := Option.some.inj hin
        have hinput : ¬ (o.csvPath = some c.pcapPath ∨ o.tunnelsPath = some c.pcapPath) := by
          rw [← hcsv, ← htunnels]
          exact not_or.mpr ⟨hdistinct.csv, hdistinct.tunnels⟩
        have houtputs : ¬ (o.csvPath.isSome ∧ o.tunnelsPath.isSome ∧ o.csvPath = o.tunnelsPath) := by
          rintro ⟨hsome, -, heq⟩
          obtain ⟨out, hout⟩ := Option.isSome_iff_exists.mp hsome
          exact hdistinct.outputs out (hcsv.trans hout) (htunnels.trans (heq.symm.trans hout))
        rw [if_neg hinput, if_neg houtputs, ← htop, ← hcsv, ← htunnels]

theorem commandLine_help : commandLine w args = .help ↔ parseArgs w {} args = .help := by
  rw [commandLine]
  cases parseArgs w {} args with
  | help => exact ⟨fun _ => rfl, fun _ => rfl⟩
  | refused stderr => exact ⟨nofun, nofun⟩
  | options o =>
      refine ⟨?_, nofun⟩
      intro h
      dsimp only at h
      split at h
      · cases h
      · split_ifs at h

/-- **A command line is accepted if and only if it is put together of items** that name one input file and
distinct output files; `-h` behind such items asks for help.  Any other command line is a usage error. -/
theorem commandLine_grammar (hw : 32 ≤ w) (args : List Text) :
    (∀ c, commandLine w args = .run c ↔ c.Distinct ∧
      ∃ items, (∀ i ∈ items, i.Valid) ∧ c.AskedBy items ∧ args = items.flatMap Item.args) ∧
    (commandLine w args = .help ↔ ∃ (items : List Item) (arg : Text) (rest : List Text),
      (∀ i ∈ items, i.Valid) ∧
      (items.filterMap Item.input?).length ≤ 1 ∧ args = items.flatMap Item.args ++ arg :: rest ∧
      (arg = "-h".toList ∨ arg = "--help".toList)) := by
  have hgrammar := grammatical hw {} args
  constructor
  · intro c
    constructor
    · intro h
      cases hloop : parseArgs w {} args with
      | help =>
          rw [commandLine, hloop] at h
          cases h
      | refused stderr =>
          rw [commandLine, hloop] at h
          cases h
      | options o =>
          obtain ⟨hdistinct, hasked⟩ := (commandLine_run hloop).mp h
          obtain ⟨items, hstops, rfl⟩ := hgrammar.options o hloop
          refine ⟨hdistinct, items, hstops.valid, (askedBy_iff hstops.allows).mpr hasked, ?_⟩
          rw [hstops.split, List.append_nil]
    · rintro ⟨hdistinct, items, hvalid, hasked, rfl⟩
      have hinputs : Options.AllowsAll {} items := by
        show (items.filterMap Item.input?).length ≤ 1
        rw [hasked.input]
        rfl
      have hloop : parseArgs w {} (items.flatMap Item.args ++ []) = _ := parseArgs_items hw hvalid hinputs
      rw [List.append_nil] at hloop
      exact (commandLine_run hloop).mpr ⟨hdistinct, (askedBy_iff hinputs).mp hasked⟩
  · rw [commandLine_help]
    constructor
    · intro h
      obtain ⟨items, arg, rest, hstops, harg⟩ := hgrammar.help h
      exact ⟨items, arg, rest, hstops.valid, hstops.allows, hstops.split, harg⟩
    · rintro ⟨items, arg, rest, hvalid, hinputs, rfl, harg⟩
      rw [parseArgs_items (o := {}) hw hvalid hinputs, parseArgs.eq_def]
      exact if_pos harg

/-- A long that has 64 bits, and a count with a zero in front. -/
theorem commandLine_grammar_count :
    commandLine 64 ["-n".toList, "03".toList, "cap.pcap".toList] = .run ⟨3, none, none, "cap.pcap".toList⟩ := by
  refine ((commandLine_grammar (by decide) _).1 _).mpr ⟨⟨nofun, nofun, nofun⟩, ?_⟩
  refine ⟨[.topN "03".toList 3, .input "cap.pcap".toList], ?_, ⟨rfl, rfl, rfl, rfl⟩, rfl⟩
  rw [List.forall_mem_cons, List.forall_mem_singleton]
  exact ⟨⟨by decide, 1, rfl⟩, fun h => absurd h (by decide)⟩

end whole

end Pcapstat
