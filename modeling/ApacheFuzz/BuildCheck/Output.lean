import ApacheFuzz.BuildCheck.Discover

/-!
# The report does no harm

`main` tests the output path before it writes the report.  Whatever else happens in a run, nothing
that the checker reads is overwritten, under whatever name.
-/

namespace ApacheFuzz.BuildCheck

open Raising

/-- A file, under all its names. -/
structure Inode where
  regular : Bool
  /-- `st_nlink`. -/
  links : Nat
  content : List UInt8
  /-- Opening it for reading may be refused. -/
  opened : Except String PUnit

/-- What the tests of the output path ask of `pathlib` and the file system.  An error is an
`OSError`. -/
structure Files (Path : Type) where
  suffix : Path → String
  name : Path → String
  /-- `Path(__file__)`. -/
  checker : Path
  /-- The file that a path leads to, through symbolic links. -/
  node : Path → Except String (Option Nat)
  inode : Nat → Inode

/-- What `$` matches. -/
def atEnd (rest : List Char) : Bool := rest = [] || rest = ['\n']

/-- `re.search(r"\.so(?:\..*)?$", name)`. -/
def isSharedLibrary (name : String) : Bool :=
  name.toList.tails.any fun rest => ['.', 's', 'o'].isPrefixOf rest &&
    (atEnd (rest.drop 3) ||
      (rest.drop 3).head? = some '.' && atEnd ((rest.drop 4).dropWhile (· ≠ '\n')))

def artifactMagics : List (List UInt8) := [elfMagic] ++ archiveMagics ++ bitcodeMagics

def Inode.isArtifact (inode : Inode) : Bool :=
  artifactMagics.any (·.isPrefixOf (inode.content.take 8))

section Output

variable {Path : Type} [DecidableEq Path] (paths : Paths Path) (files : Files Path)

def hasArtifactName (path : Path) : Bool :=
  files.suffix path ∈ [".o", ".obj", ".lo", ".ko", ".a", ".rlib", ".bc"] ||
    isSharedLibrary (files.name path)

/-- `report_path.exists() and path.exists() and report_path.samefile(path)`. -/
def sameFile (report path : Path) : Except String Bool := do
  match ← files.node report with
  | none => .ok false
  | some n =>
    let other ← files.node path
    .ok (other = some n)

/-- `report_path in inputs or any(...)`. -/
def overwritesInput (inputs : List Path) (reportPath : Path) : Except String Bool :=
  if reportPath ∈ inputs then .ok true else inputs.anyM (sameFile files reportPath)

/-- The tests of a file that is there already. -/
def checkExisting (inode : Inode) : Except String PUnit :=
  if !inode.regular then .error "output path must be a regular file"
  else if 1 < inode.links then .error "output path must not be hardlinked to another file"
  else do
    inode.opened
    if inode.isArtifact then
      .error "output path must not overwrite an artifact, even if excluded"
    else .ok ⟨⟩

/-- The tests of the output path, which `main` makes in the `try` statement. -/
def checkOutput (report : Path) (artifacts : List (Path × ArtifactKind)) (binaries : List Path)
    (configPath : Path) : Except String PUnit :=
  let reportPath := paths.resolve report
  let inputs := artifacts.map Prod.fst ++ binaries.map paths.resolve ++
    [configPath, paths.resolve files.checker]
  if hasArtifactName files report || hasArtifactName files reportPath then
    .error "output paths must not use object, archive, or shared-library filenames"
  else do
    let taken ← overwritesInput files inputs reportPath
    if taken then .error "output path must not overwrite an input artifact, config, or checker"
    else
      match ← files.node reportPath with
      | none => .ok ⟨⟩
      | some n => checkExisting (files.inode n)

variable {paths files}

omit [DecidableEq Path] in
private theorem node_ne_of_sameFile {reportPath input : Path} {n : Nat}
    (hnode : files.node reportPath = .ok (some n))
    (h : sameFile files reportPath input = .ok false) : files.node input ≠ .ok (some n) := by
  intro hinput
  simp [sameFile, hnode, hinput] at h

private theorem node_ne_of_overwritesInput {inputs : List Path} {reportPath : Path} {n : Nat}
    (hnode : files.node reportPath = .ok (some n))
    (h : overwritesInput files inputs reportPath = .ok false) :
    ∀ input ∈ inputs, files.node input ≠ .ok (some n) := by
  unfold overwritesInput at h
  split_ifs at h
  · cases h
  intro input hinput
  exact node_ne_of_sameFile hnode (anyM_eq_false.mp h input hinput)

private theorem spared_of_checkExisting {inode : Inode} (h : checkExisting inode = .ok ⟨⟩) :
    inode.links ≤ 1 ∧ inode.isArtifact = false := by
  unfold checkExisting at h
  split_ifs at h with hregular hlinks hartifact
  · obtain ⟨_, -, h⟩ := bind_eq_ok.mp h
    cases h
  · exact ⟨by omega, Bool.eq_false_iff.mpr hartifact⟩

/-- What the tests of the output path leave to be overwritten. -/
theorem spared_of_checkOutput {report configPath : Path}
    {artifacts : List (Path × ArtifactKind)} {binaries : List Path} {n : Nat}
    (h : checkOutput paths files report artifacts binaries configPath = .ok ⟨⟩)
    (hnode : files.node (paths.resolve report) = .ok (some n)) :
    (∀ input ∈ artifacts.map Prod.fst ++ binaries.map paths.resolve ++
        [configPath, paths.resolve files.checker], files.node input ≠ .ok (some n)) ∧
      (files.inode n).links ≤ 1 ∧ (files.inode n).isArtifact = false := by
  simp only [checkOutput] at h
  split_ifs at h
  obtain ⟨taken, htaken, h⟩ := bind_eq_ok.mp h
  split_ifs at h with hnot
  rw [Bool.not_eq_true] at hnot
  rw [hnot] at htaken
  rw [hnode, ok_bind] at h
  exact ⟨node_ne_of_overwritesInput hnode htaken, spared_of_checkExisting h⟩

end Output

section Run

variable {Path : Type} [DecidableEq Path] (machine : Machine Path) (files : Files Path)
  (config : Path)

/-- `tryMain` before it writes: where, what, and the exit code. -/
def prepared : Except String (Path × String × Nat) := do
  let configPath := machine.paths.resolve config
  let parsed ← machine.readConfig configPath
  let loaded ← loadConfig machine.paths machine.repr configPath parsed
  if !machine.readelfInstalled then .error "readelf is required (install GNU binutils)"
  else
    let (artifacts, errors) ← machine.discover loaded.objects loaded.binaries loaded.excludes
      (machine.paths.parent configPath)
    machine.checkOutput loaded.report artifacts loaded.binaries configPath
    let report := makeReport machine.tools artifacts errors loaded.modes configPath loaded.overrides
    .ok (machine.paths.resolve loaded.report, report.text, exitCode report)

omit [DecidableEq Path] in
private theorem tryMain_eq : tryMain machine config = prepared machine config >>= fun result =>
    machine.writeReport result.1 result.2.1 >>= fun _ => .ok result.2.2 := by
  simp only [tryMain, prepared]
  cases machine.readConfig (machine.paths.resolve config) with
  | error error => rfl
  | ok parsed =>
    simp only [ok_bind]
    cases loadConfig machine.paths machine.repr (machine.paths.resolve config) parsed with
    | error error => rfl
    | ok loaded =>
      simp only [ok_bind]
      split_ifs
      · rfl
      · cases machine.discover loaded.objects loaded.binaries loaded.excludes
          (machine.paths.parent (machine.paths.resolve config)) with
        | error error => rfl
        | ok found =>
          simp only [ok_bind]
          cases machine.checkOutput loaded.report found.1 loaded.binaries
            (machine.paths.resolve config) <;> rfl

/-- What the checker reads in a run: its configuration, itself, the binaries that are configured and
the artifacts that it finds. -/
inductive Reads : Path → Prop
  | config : Reads (machine.paths.resolve config)
  | checker : Reads (machine.paths.resolve files.checker)
  | binary {parsed : ParsedConfig} {loaded : Loaded Path} {path : Path}
      (hread : machine.readConfig (machine.paths.resolve config) = .ok parsed)
      (hload : loadConfig machine.paths machine.repr (machine.paths.resolve config) parsed =
        .ok loaded) (hpath : path ∈ loaded.binaries) : Reads (machine.paths.resolve path)
  | artifact {parsed : ParsedConfig} {loaded : Loaded Path}
      {artifacts : List (Path × ArtifactKind)} {errors : List String}
      {artifact : Path × ArtifactKind}
      (hread : machine.readConfig (machine.paths.resolve config) = .ok parsed)
      (hload : loadConfig machine.paths machine.repr (machine.paths.resolve config) parsed =
        .ok loaded)
      (hfound : machine.discover loaded.objects loaded.binaries loaded.excludes
        (machine.paths.parent (machine.paths.resolve config)) = .ok (artifacts, errors))
      (hartifact : artifact ∈ artifacts) : Reads artifact.1

/-- The outcomes of writing a file, and the directories above it, or of failing to: every path leads
where it led, and no file but the written one changes. -/
def Written (path : Path) (files' : Files Path) : Prop :=
  ∀ other n, files.node other = .ok (some n) → (files.inode n).regular = true →
    files'.node other = .ok (some n) ∧
      (files.node path ≠ .ok (some n) → (files'.inode n).content = (files.inode n).content)

/-- What a run of `main` can leave. -/
def Leaves (files' : Files Path) : Prop :=
  match prepared machine config with
  | .error _ => files' = files
  | .ok (path, _, _) => Written files path files'

variable {machine files config}

omit [DecidableEq Path] in
private theorem prepared_eq_ok {path : Path} {text : String} {code : Nat}
    (h : prepared machine config = .ok (path, text, code)) :
    ∃ parsed loaded artifacts errors,
      machine.readConfig (machine.paths.resolve config) = .ok parsed ∧
      loadConfig machine.paths machine.repr (machine.paths.resolve config) parsed = .ok loaded ∧
      machine.discover loaded.objects loaded.binaries loaded.excludes
        (machine.paths.parent (machine.paths.resolve config)) = .ok (artifacts, errors) ∧
      machine.checkOutput loaded.report artifacts loaded.binaries
        (machine.paths.resolve config) = .ok ⟨⟩ ∧
      machine.paths.resolve loaded.report = path := by
  obtain ⟨parsed, hread, h⟩ := bind_eq_ok.mp h
  obtain ⟨loaded, hload, h⟩ := bind_eq_ok.mp h
  split_ifs at h
  obtain ⟨⟨artifacts, errors⟩, hfound, h⟩ := bind_eq_ok.mp h
  obtain ⟨_, houtput, h⟩ := bind_eq_ok.mp h
  cases h
  exact ⟨parsed, loaded, artifacts, errors, hread, hload, hfound, houtput, rfl⟩

omit [DecidableEq Path] in
private theorem written_of_main (h : main machine config ≠ 2) :
    ∃ path text, prepared machine config = .ok (path, text, main machine config) ∧
      machine.writeReport path text = .ok ⟨⟩ := by
  unfold main at h ⊢
  rw [tryMain_eq] at h ⊢
  cases hprepared : prepared machine config with
  | error error => simp [hprepared] at h
  | ok result =>
    cases hwrite : machine.writeReport result.1 result.2.1 with
    | error error => simp [hprepared, hwrite] at h
    | ok _ => exact ⟨result.1, result.2.1, by simp [hwrite], hwrite⟩

/-- Whatever a run comes to, a file that it reads keeps its content under every name, and so does a
file with a second hard link or one that begins as an artifact. -/
theorem spared_of_leaves (houtput : machine.checkOutput = checkOutput machine.paths files)
    {files' : Files Path} (hrun : Leaves machine files config files') {path : Path} {n : Nat}
    (hnode : files.node path = .ok (some n)) (hregular : (files.inode n).regular = true) :
    files'.node path = .ok (some n) ∧
      (Reads machine files config path ∨ 1 < (files.inode n).links ∨
          (files.inode n).isArtifact = true →
        (files'.inode n).content = (files.inode n).content) := by
  unfold Leaves at hrun
  cases hprepared : prepared machine config with
  | error error =>
    rw [hprepared] at hrun
    rw [hrun]
    exact ⟨hnode, fun _ => rfl⟩
  | ok result =>
    obtain ⟨target, text, code⟩ := result
    rw [hprepared] at hrun
    obtain ⟨hkept, hsame⟩ := hrun path n hnode hregular
    refine ⟨hkept, fun hprotected => hsame fun htarget => ?_⟩
    obtain ⟨parsed, loaded, artifacts, errors, hread, hload, hfound, hchecked, rfl⟩ :=
      prepared_eq_ok hprepared
    rw [houtput] at hchecked
    obtain ⟨hinputs, hlinks, hartifact⟩ := spared_of_checkOutput hchecked htarget
    cases hprotected with
    | inl hreads =>
      refine hinputs path ?_ hnode
      cases hreads with
      | config => simp
      | checker => simp
      | binary hread' hload' hpath =>
        rw [hread, Except.ok.injEq] at hread'
        subst hread'
        rw [hload, Except.ok.injEq] at hload'
        subst hload'
        simp [List.mem_map_of_mem hpath]
      | artifact hread' hload' hfound' hmem =>
        rw [hread, Except.ok.injEq] at hread'
        subst hread'
        rw [hload, Except.ok.injEq] at hload'
        subst hload'
        rw [hfound, Except.ok.injEq, Prod.mk.injEq] at hfound'
        obtain ⟨rfl, -⟩ := hfound'
        simp [List.mem_map_of_mem hmem]
    | inr hfile =>
      cases hfile with
      | inl hnames => exact absurd hnames (not_lt.mpr hlinks)
      | inr hmagic =>
        rw [hartifact] at hmagic
        cases hmagic

/-- A run does no harm, and no run but one that has written its report passes for one. -/
theorem report_harmless (houtput : machine.checkOutput = checkOutput machine.paths files) :
    (main machine config ≠ 2 → ∃ path text,
      prepared machine config = .ok (path, text, main machine config) ∧
        machine.writeReport path text = .ok ⟨⟩) ∧
    ∀ files', Leaves machine files config files' → ∀ path n, files.node path = .ok (some n) →
      (files.inode n).regular = true →
        files'.node path = .ok (some n) ∧
          (Reads machine files config path ∨ 1 < (files.inode n).links ∨
              (files.inode n).isArtifact = true →
            (files'.inode n).content = (files.inode n).content) := by
  constructor
  · exact written_of_main
  · intro files' hrun path n hnode hregular
    exact spared_of_leaves houtput hrun hnode hregular

end Run

/-- An object, and a report of an earlier run. -/
def reportFiles : Files String where
  suffix _ := ".md"
  name := id
  checker := "check_build.py"
  node path := .ok
    (if path = "a.o" then some 1 else if path = "build-report.md" then some 2 else none)
  inode n := ⟨true, 1, if n = 2 then [0x23] else elfMagic, .ok ⟨⟩⟩

def checkedMachine : Machine String :=
  { strippedMachine with checkOutput := checkOutput strippedMachine.paths reportFiles }

/-- The report is written anew, and the object stays as it is. -/
theorem report_harmless_rewritten : ∃ files',
    Leaves checkedMachine reportFiles "check-build.ini" files' ∧ (files'.inode 2).content = [] ∧
      (files'.inode 1).content = elfMagic := by
  have hpath : (prepared checkedMachine "check-build.ini").map Prod.fst =
      .ok "build-report.md" := by decide +kernel
  have hrun : Leaves checkedMachine reportFiles "check-build.ini" { reportFiles with
      inode := fun n => ⟨true, 1, if n = 2 then [] else elfMagic, .ok ⟨⟩⟩ } := by
    unfold Leaves
    cases hprepared : prepared checkedMachine "check-build.ini" with
    | error error =>
      rw [hprepared] at hpath
      cases hpath
    | ok result =>
      obtain ⟨path, text, code⟩ := result
      rw [hprepared, Except.map, Except.ok.injEq] at hpath
      have htarget : path = "build-report.md" := hpath
      intro other n hnode hregular
      refine ⟨hnode, fun hother => ?_⟩
      have hn : n ≠ 2 := by
        intro htwo
        rw [htwo, htarget] at hother
        exact hother rfl
      simp [reportFiles, hn]
  refine ⟨_, hrun, rfl, ?_⟩
  have hspared := (report_harmless rfl).2 _ hrun "a.o" 1 rfl rfl
  exact hspared.2 (.inr (.inr (by decide)))

end ApacheFuzz.BuildCheck
