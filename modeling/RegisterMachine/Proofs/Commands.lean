import Mathlib.Data.List.Basic
import RegisterMachine.CommandLine
import RegisterMachine.Proofs.Except

namespace RegisterMachine

namespace Files

theorem lookup_filter_of_ne {p q : Place} (h : q ≠ p) (entries : List (Place × Node)) :
    (entries.filter (fun entry => entry.1 ≠ p)).lookup q = entries.lookup q := by
  induction entries with
  | nil => rfl
  | cons entry entries ih =>
      obtain ⟨r, n⟩ := entry
      by_cases hr : r = p
      · subst hr
        rw [List.filter_cons_of_neg (by simp), ih, List.lookup_cons, beq_false_of_ne h]
      · rw [List.filter_cons_of_pos (by simpa using hr), List.lookup_cons, List.lookup_cons, ih]

theorem hasBelow_iff (f : Files) (p : Place) :
    f.hasBelow p = true ↔ ∃ q n, (q, n) ∈ f.entries ∧ p <+: q := by
  simp [hasBelow, List.any_eq_true]

theorem hasBelow_of_directory {f : Files} {p q : Place} (hp : f.node? p = some .directory)
    (hq : q <+: p) : q = [] ∨ f.hasBelow q = true := by
  unfold node? at hp
  cases hl : f.entries.lookup p with
  | some n =>
      obtain ⟨front, back, hentries, -⟩ := List.lookup_eq_some_iff.mp hl
      refine .inr ((f.hasBelow_iff q).mpr ⟨p, n, ?_, hq⟩)
      rw [hentries]
      exact List.mem_append_right front List.mem_cons_self
  | none =>
      rw [hl, Option.none_or] at hp
      split at hp
      · rename_i hbelow
        rcases hbelow with rfl | hbelow
        · exact .inl (List.prefix_nil.mp hq)
        · obtain ⟨r, n, hmem, hr⟩ := (f.hasBelow_iff p).mp hbelow
          exact .inr ((f.hasBelow_iff q).mpr ⟨r, n, hmem, hq.trans hr⟩)
      · cases hp

def onto (p : Place) (m : Name) : Place :=
  if m = Path.here then p else if m = Path.above then p.dropLast else p ++ [m]

theorem walk_cons_iff {f : Files} {p dest : Place} {m : Name} {rest : List Name} :
    f.walk p (m :: rest) = .ok dest ↔ f.node? p = some .directory ∧ m.length ≤ 255 ∧
      (m ≠ Path.here → m ≠ Path.above → (f.node? (p ++ [m])).isSome) ∧
      f.walk (onto p m) rest = .ok dest := by
  rw [walk, onto]
  by_cases hp : f.node? p = some .directory
  · by_cases hlong : 255 < m.length
    · simp [hp, hlong, Nat.not_le.mpr hlong]
    · by_cases hhere : m = Path.here
      · simp [hp, hhere, Path.here]
      · by_cases habove : m = Path.above
        · simp [hp, habove, Path.above, Path.here]
        · cases hn : f.node? (p ++ [m]) <;> simp [hp, hlong, hhere, habove, Nat.not_lt.mp hlong]
  · simp [hp]

theorem walk_concat_here {f : Files} {names : List Name} {p dest : Place}
    (h : f.walk p (names ++ [Path.here]) = .ok dest) : f.node? dest = some .directory := by
  induction names generalizing p with
  | nil =>
      obtain ⟨hp, -, -, hrest⟩ := walk_cons_iff.mp h
      cases hrest
      exact hp
  | cons m rest ih => exact ih (walk_cons_iff.mp h).2.2.2

theorem walk_of_heres {f : Files} {names : List Name} {p dest : Place}
    (hnames : names.filter (· ≠ Path.here) = []) (h : f.walk p names = .ok dest) : dest = p := by
  induction names with
  | nil =>
      cases h
      rfl
  | cons m rest ih =>
      have hhere : m = Path.here := by simpa using List.filter_eq_nil_iff.mp hnames m List.mem_cons_self
      subst hhere
      rw [List.filter_cons_of_neg (by simp)] at hnames
      exact ih hnames (walk_cons_iff.mp h).2.2.2

theorem getLast?_walk {f : Files} {names : List Name} {p dest : Place} {last : Name}
    (hlast : (names.filter (· ≠ Path.here)).getLast? = some last) (habove : last ≠ Path.above)
    (h : f.walk p names = .ok dest) : dest.getLast? = some last := by
  induction names generalizing p with
  | nil => cases hlast
  | cons m rest ih =>
      obtain ⟨-, -, -, hrest⟩ := walk_cons_iff.mp h
      by_cases hhere : m = Path.here
      · rw [List.filter_cons_of_neg (by simpa using hhere)] at hlast
        exact ih hlast hrest
      · rw [List.filter_cons_of_pos (by simpa using hhere), List.getLast?_cons] at hlast
        cases hmore : (rest.filter (· ≠ Path.here)).getLast? with
        | some other =>
            rw [hmore] at hlast
            exact ih (hmore.trans hlast) hrest
        | none =>
            rw [hmore, Option.getD_none, Option.some.injEq] at hlast
            subst hlast
            have hdest := walk_of_heres (List.getLast?_eq_none_iff.mp hmore) hrest
            rw [hdest, onto, if_neg hhere, if_neg habove, List.getLast?_concat]

section Insert

variable {f : Files} {parent : Place} {last : Name} (hparent : f.node? parent = some .directory)
  (n : Node)

include hparent

theorem hasBelow_insert {q : Place} (hq : q ≠ parent ++ [last]) :
    (q = [] ∨ (f.insert (parent ++ [last]) n).hasBelow q = true) ↔
      (q = [] ∨ f.hasBelow q = true) := by
  constructor
  · rintro (rfl | hbelow)
    · exact .inl rfl
    · obtain ⟨r, k, hmem, hr⟩ := (hasBelow_iff _ q).mp hbelow
      rcases List.mem_cons.mp hmem with heq | hmem
      · cases heq
        rcases List.prefix_concat_iff.mp hr with rfl | hr
        · exact absurd rfl hq
        · exact hasBelow_of_directory hparent hr
      · exact .inr ((hasBelow_iff f q).mpr ⟨r, k, (List.mem_filter.mp hmem).1, hr⟩)
  · rintro (rfl | hbelow)
    · exact .inl rfl
    · obtain ⟨r, k, hmem, hr⟩ := (hasBelow_iff f q).mp hbelow
      refine .inr ((hasBelow_iff _ q).mpr ?_)
      by_cases hplace : r = parent ++ [last]
      · subst hplace
        exact ⟨_, n, List.mem_cons_self, hr⟩
      · exact ⟨r, k, List.mem_cons_of_mem _ (List.mem_filter.mpr ⟨hmem, by simpa using hplace⟩), hr⟩

theorem node?_insert_of_ne {q : Place} (hq : q ≠ parent ++ [last]) :
    (f.insert (parent ++ [last]) n).node? q = f.node? q := by
  have hlookup : (f.insert (parent ++ [last]) n).entries.lookup q = f.entries.lookup q := by
    rw [insert, List.lookup_cons, beq_false_of_ne hq]
    exact lookup_filter_of_ne hq f.entries
  rw [node?, node?, hlookup]
  exact congrArg _ (if_congr (hasBelow_insert hparent n hq) rfl rfl)

theorem isSome_node?_insert {q : Place} (h : (f.node? q).isSome) :
    ((f.insert (parent ++ [last]) n).node? q).isSome := by
  by_cases hq : q = parent ++ [last]
  · rw [hq, node?, insert, List.lookup_cons_self]
    rfl
  · rw [node?_insert_of_ne hparent n hq]
    exact h

theorem walk_insert (hplace : f.node? (parent ++ [last]) ≠ some .directory) {names : List Name}
    {p dest : Place} (h : f.walk p names = .ok dest) :
    (f.insert (parent ++ [last]) n).walk p names = .ok dest := by
  induction names generalizing p with
  | nil => exact h
  | cons m rest ih =>
      obtain ⟨hp, hlong, hthere, hrest⟩ := walk_cons_iff.mp h
      have hne : p ≠ parent ++ [last] := by
        rintro rfl
        exact hplace hp
      refine walk_cons_iff.mpr ⟨?_, hlong, fun hhere habove => ?_, ih hrest⟩
      · rw [node?_insert_of_ne hparent n hne, hp]
      · exact isSome_node?_insert hparent n (hthere hhere habove)

end Insert

theorem write_eq_ok {f changed : Files} {p : Path} {bytes : List UInt8}
    (h : f.write p bytes = .ok changed) :
    ∃ parent last n, changed = f.insert (parent ++ [last]) n ∧ p.fileName? = some last ∧
      f.node? parent = some .directory ∧ f.node? (parent ++ [last]) ≠ some .directory := by
  obtain ⟨-, -, h⟩ := Except.bind_eq_ok h
  cases hlast : p.names.getLast? with
  | none =>
      rw [hlast] at h
      cases h
  | some last =>
      rw [hlast] at h
      dsimp only at h
      split at h
      · obtain ⟨-, -, h⟩ := Except.bind_eq_ok h
        cases h
      · rename_i hname
        rw [not_or] at hname
        obtain ⟨parent, hparent, h⟩ := Except.bind_eq_ok h
        split at h
        · cases h
        · split at h
          · cases h
          · obtain ⟨n, hn, h⟩ := Except.bind_eq_ok h
            cases h
            refine ⟨parent, last, n, rfl, ?_, walk_concat_here hparent, fun hdirectory => ?_⟩
            · obtain ⟨front, hfront⟩ := List.getLast?_eq_some_iff.mp hlast
              rw [Path.fileName?, hfront, List.filter_append,
                List.filter_cons_of_pos (by simpa using hname.1), List.filter_nil,
                List.getLast?_concat, Option.filter_some, if_pos (by simpa using hname.2)]
            · rw [hdirectory] at hn
              cases hn

theorem openFile_eq_ok_iff {f : Files} {p : Path} {file : File} :
    f.openFile p = .ok file ↔ checkPath p = .ok () ∧ ∃ place n,
      f.walk (f.origin p) (route p) = .ok place ∧ f.node? place = some n ∧ n.content = file := by
  constructor
  · intro h
    obtain ⟨⟨⟩, hcheck, h⟩ := Except.bind_eq_ok h
    obtain ⟨place, hwalk, h⟩ := Except.bind_eq_ok h
    cases hn : f.node? place with
    | none =>
        rw [hn] at h
        cases h
    | some n =>
        rw [hn] at h
        exact ⟨hcheck, place, n, hwalk, hn, Except.ok.inj h⟩
  · rintro ⟨hcheck, place, n, hwalk, hn, rfl⟩
    rw [openFile, Except.bind_of_ok hcheck, Except.bind_of_ok hwalk, hn]

theorem filter_route (p : Path) :
    (route p).filter (· ≠ Path.here) = p.names.filter (· ≠ Path.here) := by
  unfold route
  split
  · rw [List.filter_append, List.filter_cons_of_neg (by simp), List.filter_nil, List.append_nil]
  · rfl

theorem openFile_write {f changed : Files} {p q : Path} {bytes : List UInt8} {file : File}
    (hwrite : f.write p bytes = .ok changed) (hopen : f.openFile q = .ok file) {last : Name}
    (hlast : q.fileName? = some last) (hne : p.fileName? ≠ some last) :
    changed.openFile q = .ok file := by
  obtain ⟨parent, written, n, rfl, hwritten, hparent, hplace⟩ := write_eq_ok hwrite
  obtain ⟨hcheck, place, m, hwalk, hnode, rfl⟩ := openFile_eq_ok_iff.mp hopen
  refine openFile_eq_ok_iff.mpr ⟨hcheck, place, m, walk_insert hparent n hplace hwalk, ?_, rfl⟩
  rw [node?_insert_of_ne hparent n ?_, hnode]
  rintro rfl
  obtain ⟨hname, habove⟩ := Option.filter_eq_some_iff.mp hlast
  rw [← filter_route] at hname
  have hplace := getLast?_walk hname (of_decide_eq_true habove) hwalk
  rw [List.getLast?_concat] at hplace
  exact hne (hwritten.trans hplace)

end Files

theorem Machine.phase_create {config : Config} {m : Machine} (h : create config = .ok m) :
    m.phase = .empty := by
  obtain ⟨-, -, h⟩ := Except.bind_eq_ok h
  obtain ⟨memory, -, h⟩ := Except.bind_eq_ok h
  cases h
  rfl

namespace CommandLine

def opened (files : Files) (path : String) : Except String File :=
  (files.openFile (Path.ofText path)).mapError FileError.message

theorem opened_of_readSource {path : String} {x : Except String File} {a : Assembly}
    (h : readSource path x = .ok a) : ∃ file, x = .ok file := by
  cases x with
  | ok file => exact ⟨file, rfl⟩
  | error reason => cases h

theorem isSource_eq_true_iff {path : String} :
    isSource path = true ↔ (Path.ofText path).extension? = some (Path.ofText "masm") :=
  beq_iff_eq

theorem readSource_write {files changed : Files} {source target : String} {bytes : List UInt8}
    {a : Assembly} (hsource : isSource source = true) (htarget : isSource target = false)
    (hread : readSource source (opened files source) = .ok a)
    (hwrite : files.write (Path.ofText target) bytes = .ok changed) :
    readSource source (opened changed source) = .ok a := by
  rw [isSource_eq_true_iff, Path.extension?, Option.bind_eq_some_iff] at hsource
  obtain ⟨last, hlast, hextension⟩ := hsource
  obtain ⟨file, hopened⟩ := opened_of_readSource hread
  have hopen : files.openFile (Path.ofText source) = .ok file := by
    unfold opened at hopened
    cases h : files.openFile (Path.ofText source) with
    | error e =>
        rw [h] at hopened
        cases hopened
    | ok other =>
        rw [h] at hopened
        exact congrArg Except.ok (Except.ok.inj hopened)
  have hne : (Path.ofText target).fileName? ≠ some last := by
    intro hname
    refine Bool.eq_false_iff.mp htarget (isSource_eq_true_iff.mpr ?_)
    rw [Path.extension?, hname]
    exact hextension
  have hkept : opened changed source = .ok file := by
    rw [opened, Files.openFile_write hwrite hopen hlast hne]
    rfl
  rw [hkept, ← hopened]
  exact hread

theorem write_of_assembled {files : Files} {level : Level} {input : String} {output : Option String}
    {a : Assembly} (hread : readSource input (opened files input) = .ok a)
    (hstatus : ((assemble level input output).perform files).status = 0) :
    files.write (Path.ofText (outputPath input output)) a.image =
      .ok ((assemble level input output).perform files).files := by
  unfold assemble opened at *
  rw [Plan.perform, hread] at *
  dsimp only at *
  rw [Plan.perform] at *
  cases hwrite : files.write (Path.ofText (outputPath input output)) a.image with
  | ok changed => rfl
  | error e =>
      rw [hwrite] at hstatus
      cases hstatus

section Run

variable {patience : Nat} {level : Level} {arguments : List String} {config : Config}

def reportOn (patience : Nat) (level : Level) (arguments : List String) (log : String) (m : Machine) :
    Except Failure (List UInt8) → Report
  | .error failure => failure.report [] log
  | .ok image => runImage patience level arguments log m image

theorem perform_run_of_rejected (files : Files) (program : String) {e : Error}
    (h : Machine.create config = .error e) :
    (run patience level program arguments config).perform files =
      .ofReport files (Failure.report (.refused e) [] "") := by
  rw [run, h]
  rfl

theorem perform_run (files : Files) (program : String) {m : Machine}
    (h : Machine.create config = .ok m) :
    (run patience level program arguments config).perform files =
      .ofReport files (reportOn patience level arguments ((Event.created config).line level) m
        (programImage m.state.memory.codeSize program (opened files program))) := by
  rw [run, h]
  dsimp only
  rw [Plan.perform]
  unfold opened reportOn
  cases programImage m.state.memory.codeSize program
    ((files.openFile (Path.ofText program)).mapError FileError.message) <;> rfl

theorem programImage_source {limit : Nat} {program : String} {x : Except String File} {a : Assembly}
    (hsource : isSource program = true) (hread : readSource program x = .ok a) :
    programImage limit program x = .ok a.image := by
  rw [programImage, if_pos hsource, hread]
  rfl

theorem reportOn_file {m : Machine} (hm : m.phase = .empty) {program : String}
    (hprogram : isSource program = false) (log : String) (image : List UInt8) :
    reportOn patience level arguments log m
      (programImage m.state.memory.codeSize program (.ok (File.ofBytes image))) =
      runImage patience level arguments log m image := by
  rw [programImage, if_neg (Bool.eq_false_iff.mp hprogram)]
  by_cases hlong : m.state.memory.codeSize < image.length
  · have hread : File.readImage program m.state.memory.codeSize (.ok (File.ofBytes image)) =
        .error (.imageTooLarge image.length m.state.memory.codeSize) := if_pos hlong
    have hnil : image ≠ [] := List.ne_nil_of_length_pos (Nat.zero_lt_of_lt hlong)
    have hload : m.load image = .error (.imageTooLarge image.length m.state.memory.codeSize) := by
      rw [Machine.load, hm, if_neg nofun, if_neg hnil, Memory.loadCode, if_pos hlong]
    rw [hread, runImage, hload]
    rfl
  · have hread : File.readImage program m.state.memory.codeSize (.ok (File.ofBytes image)) =
        .ok image := by
      rw [File.readImage, File.image, File.ofBytes, if_neg hlong, Contents.first]
      rw [List.take_of_length_le (by omega)]
    rw [hread]
    rfl

def resultLine (m : Machine) : List UInt8 :=
  Text.bytes ("R0 = " ++ Word.text (m.state.registers.value 0) ++ "\n").toList

inductive Results (config : Config) (image : List UInt8) (patience : Nat) (arguments : List String) :
    Report → Prop
  | rejected {e : Error} (hcreate : Machine.create config = .error e) :
      Results config image patience arguments (Failure.report (.refused e) [] "")
  | unloaded {m : Machine} {e : Error} (log : String) (hcreate : Machine.create config = .ok m)
      (hload : m.load image = .error e) :
      Results config image patience arguments (Failure.report (.refused e) [] log)
  | halted {m loaded after : Machine} (log : String) (hcreate : Machine.create config = .ok m)
      (hload : m.load image = .ok loaded) (hrun : loaded.execute patience arguments = (after, .ok ())) :
      Results config image patience arguments
        ⟨0, (Transcript.between loaded after).printed ++ resultLine after, log⟩
  | failed {m loaded after : Machine} {e : Error} (log : String)
      (hcreate : Machine.create config = .ok m) (hload : m.load image = .ok loaded)
      (hrun : loaded.execute patience arguments = (after, .error e)) :
      Results config image patience arguments
        (Failure.report (.refused e) (Transcript.between loaded after).printed log)
  | cut {m loaded after : Machine} {outcome : Outcome Unit} (log : String)
      (hcreate : Machine.create config = .ok m) (hload : m.load image = .ok loaded)
      (hrun : loaded.execute patience arguments = (after, outcome))
      (hends : outcome = .crashed ∨ outcome = .unfinished) :
      Results config image patience arguments ⟨1, (Transcript.between loaded after).printed, log⟩

theorem results_runImage {m : Machine} (hcreate : Machine.create config = .ok m) (log : String)
    (image : List UInt8) :
    Results config image patience arguments (runImage patience level arguments log m image) := by
  unfold runImage
  cases hload : m.load image with
  | error e => exact .unloaded log hcreate hload
  | ok loaded =>
      dsimp only
      unfold runProgram
      rcases hrun : loaded.execute patience arguments with ⟨after, ⟨⟩ | e | _ | _⟩
      · exact .halted _ hcreate hload hrun
      · cases e with
        | fault fault => exact .failed _ hcreate hload hrun
        | _ => exact .failed _ hcreate hload hrun
      · exact .cut _ hcreate hload hrun (.inl rfl)
      · exact .cut _ hcreate hload hrun (.inr rfl)

theorem Results.status_eq_zero_iff {image : List UInt8} {report : Report}
    (h : Results config image patience arguments report) :
    report.status = 0 ↔ ∃ m loaded after, Machine.create config = .ok m ∧
      m.load image = .ok loaded ∧ loaded.execute patience arguments = (after, .ok ()) := by
  cases h with
  | halted log hcreate hload hrun =>
      exact iff_of_true rfl ⟨_, _, _, hcreate, hload, hrun⟩
  | rejected hcreate =>
      refine iff_of_false Nat.one_ne_zero ?_
      rintro ⟨m, loaded, after, hcreate', -, -⟩
      rw [hcreate] at hcreate'
      cases hcreate'
  | unloaded log hcreate hload =>
      refine iff_of_false Nat.one_ne_zero ?_
      rintro ⟨m, loaded, after, hcreate', hload', -⟩
      cases hcreate.symm.trans hcreate'
      rw [hload] at hload'
      cases hload'
  | failed log hcreate hload hrun =>
      refine iff_of_false Nat.one_ne_zero ?_
      rintro ⟨m, loaded, after, hcreate', hload', hrun'⟩
      cases hcreate.symm.trans hcreate'
      cases hload.symm.trans hload'
      rw [hrun] at hrun'
      cases hrun'
  | cut log hcreate hload hrun hends =>
      refine iff_of_false Nat.one_ne_zero ?_
      rintro ⟨m, loaded, after, hcreate', hload', hrun'⟩
      cases hcreate.symm.trans hcreate'
      cases hload.symm.trans hload'
      rw [hrun] at hrun'
      cases hrun'
      rcases hends with hends | hends <;> cases hends

end Run

theorem runs_source_as_image {files : Files} {level : Level} {source : String}
    {output : Option String} {a : Assembly} {written : Ending} (hsource : isSource source = true)
    (htarget : isSource (outputPath source output) = false)
    (hread : readSource source (opened files source) = .ok a)
    (hwritten : (assemble level source output).perform files = written)
    (hstatus : written.status = 0)
    (hback : ∀ bytes changed, files.write (Path.ofText (outputPath source output)) bytes = .ok changed →
      changed.openFile (Path.ofText (outputPath source output)) = .ok (File.ofBytes bytes))
    (patience : Nat) (level' : Level) (arguments : List String) (ram : Nat) (debug : Bool)
    (limit : Option Nat) :
    let ran := fun files program =>
      ((Command.run program arguments ram debug limit).plan patience level').perform files
    let config := { Config.ofRamSize ram with debug := debug, limit := limit }
    ∃ report, ran written.files source = .ofReport written.files report ∧
      ran written.files (outputPath source output) = .ofReport written.files report ∧
      ran files source = .ofReport files report ∧
      Results config a.image patience arguments report ∧
      (report.status = 0 ↔ ∃ m loaded after, Machine.create config = .ok m ∧
        m.load a.image = .ok loaded ∧ loaded.execute patience arguments = (after, .ok ())) := by
  subst hwritten
  have hwrite := write_of_assembled hread hstatus
  generalize ((assemble level source output).perform files).files = changed at hwrite ⊢
  have hkept := readSource_write hsource htarget hread hwrite
  have htaken : opened changed (outputPath source output) = .ok (File.ofBytes a.image) := by
    rw [opened, hback a.image changed hwrite]
    rfl
  intro ran config
  cases hcreate : Machine.create config with
  | error e =>
      have hresults : Results config a.image patience arguments
        (Failure.report (.refused e) [] "") := .rejected hcreate
      refine ⟨_, perform_run_of_rejected _ _ hcreate, perform_run_of_rejected _ _ hcreate,
        perform_run_of_rejected _ _ hcreate, hresults, ?_⟩
      rw [← hcreate]
      exact hresults.status_eq_zero_iff
  | ok m =>
      have hresults : Results config a.image patience arguments (runImage patience level' arguments
        ((Event.created config).line level') m a.image) := results_runImage hcreate _ _
      refine ⟨_, ?_, ?_, ?_, hresults, ?_⟩
      · refine (perform_run changed source hcreate).trans ?_
        rw [programImage_source hsource hkept]
        rfl
      · refine (perform_run changed (outputPath source output) hcreate).trans ?_
        rw [htaken, reportOn_file (Machine.phase_create hcreate) htarget]
      · refine (perform_run files source hcreate).trans ?_
        rw [programImage_source hsource hread]
        rfl
      · rw [← hcreate]
        exact hresults.status_eq_zero_iff

def workshop : Files :=
  (Files.bare [Path.ofText "w"]).insert [Path.ofText "w", Path.ofText "a.masm"]
    (.file (Text.bytes "INC R0\nHLT".toList))

theorem write_workshop (bytes : List UInt8) : workshop.write (Path.ofText "a.bin") bytes =
    .ok (workshop.insert [Path.ofText "w", Path.ofText "a.bin"] (.file bytes)) :=
  rfl

theorem openFile_workshop (bytes : List UInt8) :
    (workshop.insert [Path.ofText "w", Path.ofText "a.bin"] (.file bytes)).openFile
      (Path.ofText "a.bin") = .ok (File.ofBytes bytes) :=
  rfl

def assembled : Ending := (assemble .warn "a.masm" none).perform workshop

theorem runs_source_as_image_workshop :
    isSource "a.masm" = true ∧ isSource (outputPath "a.masm" none) = false ∧
    readSource "a.masm" (opened workshop "a.masm") = .ok ⟨[0x10, 0, 0x01], Symbols.empty⟩ ∧
    assembled.status = 0 ∧
    (∀ bytes changed, workshop.write (Path.ofText (outputPath "a.masm" none)) bytes = .ok changed →
      changed.openFile (Path.ofText (outputPath "a.masm" none)) = .ok (File.ofBytes bytes)) ∧
    assembled.files.openFile (Path.ofText (outputPath "a.masm" none)) =
      .ok (File.ofBytes [0x10, 0, 0x01]) ∧
    ∃ report, report.status = 0 ∧ report.stdout = Text.bytes "R0 = 2\n".toList ∧
      ((Command.run "a.masm" ["x"] 32 false none).plan 9 .warn).perform assembled.files =
        .ofReport assembled.files report ∧
      ((Command.run "a.bin" ["x"] 32 false none).plan 9 .warn).perform assembled.files =
        .ofReport assembled.files report := by
  have hsource : isSource "a.masm" = true := by decide +kernel
  have htarget : isSource (outputPath "a.masm" none) = false := by decide +kernel
  have hread : readSource "a.masm" (opened workshop "a.masm") =
      .ok ⟨[0x10, 0, 0x01], Symbols.empty⟩ := Except.eq_ok_of_toOption (by decide +kernel)
  have hstatus : assembled.status = 0 := by decide +kernel
  have hname : outputPath "a.masm" none = "a.bin" := by decide +kernel
  have hback : ∀ bytes changed,
      workshop.write (Path.ofText (outputPath "a.masm" none)) bytes = .ok changed →
      changed.openFile (Path.ofText (outputPath "a.masm" none)) = .ok (File.ofBytes bytes) := by
    rw [hname]
    intro bytes changed hwrite
    rw [write_workshop] at hwrite
    cases hwrite
    exact openFile_workshop bytes
  have hran : ((Command.run "a.masm" ["x"] 32 false none).plan 9 .warn).perform assembled.files =
      .ofReport assembled.files ⟨0, Text.bytes "R0 = 2\n".toList, ""⟩ := by decide +kernel
  obtain ⟨report, hrun, himage, -, -, -⟩ :=
    runs_source_as_image hsource htarget hread rfl hstatus hback 9 .warn ["x"] 32 false none
  have hopen := hback _ _ (write_of_assembled hread hstatus)
  rw [hname] at himage
  have hreport := hrun.symm.trans hran
  exact ⟨hsource, htarget, hread, hstatus, hback, hopen, report, congrArg Ending.status hreport,
    List.append_cancel_left (congrArg Ending.stdout hreport), hrun, himage⟩

end CommandLine

end RegisterMachine
