import ApacheFuzz.BuildCheck.Main
import ApacheFuzz.Library.BigEndian
import ApacheFuzz.Library.Folds
import ApacheFuzz.Library.Walk
import Mathlib.Data.List.AList
import Mathlib.Data.String.Basic

/-!
# The search for artifacts

`discover` goes over the configured roots, walks the directories among them and collects artifacts
in a dictionary keyed by their resolved paths, and errors in a list.  What it finds is described by
what lies below the roots, without the loops and the dictionary.
-/

namespace ApacheFuzz.BuildCheck

open Raising Walk

/-- What `discover` asks of `pathlib`, `fnmatch` and the file system.  An error is an `OSError`. -/
structure Disk (Path : Type) where
  paths : Paths Path
  fnmatchcase : String → String → Bool
  name : Path → String
  suffix : Path → String
  isFile : Path → Except String Bool
  isDir : Path → Except String Bool
  /-- What `os.walk` finds at a path. -/
  listing : Path → Entry String String
  /-- `stat.S_ISREG(path.stat().st_mode)`. -/
  isRegular : Path → Except String Bool
  content : Path → Except String (List UInt8)
  /-- `path.resolve(strict=True)`. -/
  resolveStrict : Path → Except String Path

/-- The argument `kind` of `add`. -/
inductive RootKind
  | object | binary
  deriving DecidableEq, Repr

def elfMagic : List UInt8 := [0x7F, 0x45, 0x4C, 0x46]

/-- `!<arch>` and `!<thin>`, each with a line feed. -/
def archiveMagics : List (List UInt8) :=
  [[0x21, 0x3C, 0x61, 0x72, 0x63, 0x68, 0x3E, 0x0A],
    [0x21, 0x3C, 0x74, 0x68, 0x69, 0x6E, 0x3E, 0x0A]]

def bitcodeMagics : List (List UInt8) := [[0x42, 0x43, 0xC0, 0xDE], [0xDE, 0xC0, 0x17, 0x0B]]

def elfType (header : List UInt8) : Option Nat :=
  if header.take 4 = elfMagic ∧ header.length = 18 then
    match header.getD 5 0 with
    | 1 => some (BigEndian.value (header.drop 16).reverse)
    | 2 => some (BigEndian.value (header.drop 16))
    | _ => none
  else none

structure Search (Path : Type) where
  artifacts : AList fun _ : Path => ArtifactKind
  errors : List String

def Search.failed {Path : Type} (search : Search Path) (error : String) : Search Path :=
  { search with errors := search.errors ++ [error] }

section Discover

variable {Path : Type} (disk : Disk Path) (excludes : List String) (base : Path)

def excluded (path : Path) : Bool :=
  excludes.any fun pattern => disk.fnmatchcase (disk.paths.relative path base) pattern ||
    disk.fnmatchcase (disk.name path) pattern

/-- The choice of `artifact_kind` by the header. -/
def artifactKind (kind : RootKind) (explicit : Bool) (path : Path) (header : List UInt8) :
    Except String (Option ArtifactKind) :=
  match kind with
  | .object =>
    if archiveMagics.any (·.isPrefixOf header) then .ok (some .archive)
    else if elfType header = some 1 ∨ bitcodeMagics.any (·.isPrefixOf header) then
      .ok (some .object)
    -- Malformed files of a known suffix stay visible.
    else if disk.suffix path ∈ [".o", ".obj", ".a", ".rlib", ".bc"] then
      .ok (some (if disk.suffix path ∈ [".a", ".rlib"] then .archive else .object))
    else .ok none
  | .binary =>
    if elfType header = some 2 ∨ elfType header = some 3 then .ok (some .binary)
    else if explicit then .error "expected an ELF executable or shared library"
    else .ok none

/-- The `try` statement of `add`: the item to store, if any.  An error is what it puts after the
path in `errors`. -/
def tryAdd (kind : RootKind) (explicit : Bool) (path : Path) :
    Except String (Option (Path × ArtifactKind)) := do
  let regular ← disk.isRegular path
  if !regular then
    if explicit then .error "expected a regular file" else .ok none
  else
    let content ← disk.content path
    match ← artifactKind disk kind explicit path (content.take 18) with
    | none => .ok none
    | some artifact =>
      let key ← disk.resolveStrict path
      .ok (some (key, artifact))

variable [DecidableEq Path]

def add (kind : RootKind) (explicit : Bool) (search : Search Path) (path : Path) :
    Search Path × Bool :=
  if excluded disk excludes base path then (search, false)
  else
    match tryAdd disk kind explicit path with
    | .ok none => (search, false)
    | .ok (some (key, artifact)) =>
      ({ search with artifacts := search.artifacts.insert key artifact }, true)
    | .error error => (search.failed (disk.paths.str path ++ ": " ++ error), false)

/-- The body of the loops over what `os.walk` yields, with `matched`. -/
def visit (kind : RootKind) (explicit : Bool) (found : Search Path × Nat) :
    Visit Path String → Search Path × Nat
  | .failed error => (found.1.failed error, found.2)
  | .file path =>
    let (search, added) := add disk excludes base kind explicit found.1 path
    (search, found.2 + added.toNat)

def missing (kind : RootKind) (root : Path) : String :=
  disk.paths.str root ++ ": missing or not a " ++
    (if kind = .object then "directory" else "file/directory")

def unmatched (root : Path) : String := disk.paths.str root ++ ": no matching artifacts found"

/-- The body of the loop over the roots. -/
def searchRoot (kind : RootKind) (search : Search Path) (root : Path) :
    Except String (Search Path) :=
  if excluded disk excludes base root then .ok search
  else do
    let isFile ← disk.isFile root
    let (found, matched) ←
      if isFile ∧ kind = .binary then
        .ok (visit disk excludes base kind true (search, 0) (.file root))
      else do
        let isDir ← disk.isDir root
        if isDir then
          .ok ((walk disk.paths.join (excluded disk excludes base) root (disk.listing root)).foldl
            (visit disk excludes base kind false) (search, 0))
        else .ok (search.failed (missing disk kind root), 0)
    if matched = 0 ∧ found.errors.length = search.errors.length then
      .ok (found.failed (unmatched disk root))
    else .ok found

def searchRoots (objects binaries : List Path) : Except String (Search Path) := do
  let search ← objects.foldlM (searchRoot disk excludes base .object) ⟨∅, []⟩
  binaries.foldlM (searchRoot disk excludes base .binary) search

end Discover

/-- `sorted(artifacts.items())`: no two items have the same path. -/
def sortedItems {Path : Type} [LinearOrder Path] (artifacts : AList fun _ : Path => ArtifactKind) :
    List (Path × ArtifactKind) :=
  (artifacts.entries.map fun item => (item.1, item.2)).insertionSort (·.1 ≤ ·.1)

def discover {Path : Type} [LinearOrder Path] (disk : Disk Path) (objects binaries : List Path)
    (excludes : List String) (base : Path) :
    Except String (List (Path × ArtifactKind) × List String) := do
  let search ← searchRoots disk excludes base objects binaries
  let search := if search.artifacts.keys = [] then search.failed "no matching artifacts found"
    else search
  .ok (sortedItems search.artifacts, search.errors)

section Roots

variable {Path : Type} (disk : Disk Path) (excludes : List String) (base : Path) (kind : RootKind)
  (explicit : Bool) (root : Path)

/-- The item that a visit stores. -/
def accepts : Visit Path String → Option (Path × ArtifactKind)
  | .failed _ => none
  | .file path =>
    if excluded disk excludes base path then none
    else (tryAdd disk kind explicit path).toOption.join

/-- The error that a visit reports. -/
def complains : Visit Path String → Option String
  | .failed error => some error
  | .file path =>
    if excluded disk excludes base path then none
    else match tryAdd disk kind explicit path with
      | .ok _ => none
      | .error error => some (disk.paths.str path ++ ": " ++ error)

/-- The root is itself the file to add. -/
def isExplicit : Bool := (disk.isFile root).toOption = some true ∧ kind = .binary

def isWalked : Bool := (disk.isDir root).toOption = some true

/-- No test of the root raises. -/
def Testable : Prop :=
  excluded disk excludes base root = true ∨ ∃ isFile, disk.isFile root = .ok isFile ∧
    ((isFile = true ∧ kind = .binary) ∨ ∃ isDir, disk.isDir root = .ok isDir)

def rootVisits : List (Visit Path String) :=
  if isExplicit disk kind root then [.file root]
  else if isWalked disk root then
    walk disk.paths.join (excluded disk excludes base) root (disk.listing root)
  else []

def rootItems : List (Path × ArtifactKind) :=
  if excluded disk excludes base root then []
  else (rootVisits disk excludes base kind root).filterMap
    (accepts disk excludes base kind (isExplicit disk kind root))

/-- What a root reports before it is held against its matches. -/
def rootComplaints : List String :=
  if isExplicit disk kind root ∨ isWalked disk root then
    (rootVisits disk excludes base kind root).filterMap
      (complains disk excludes base kind (isExplicit disk kind root))
  else [missing disk kind root]

def rootErrors : List String :=
  if excluded disk excludes base root then []
  else if rootItems disk excludes base kind root = [] ∧
      rootComplaints disk excludes base kind root = [] then [unmatched disk root]
  else rootComplaints disk excludes base kind root

variable [DecidableEq Path] {disk excludes base kind explicit}

private theorem visit_eq (found : Search Path × Nat) (v : Visit Path String) :
    visit disk excludes base kind explicit found v =
      (⟨found.1.artifacts.storeAll (accepts disk excludes base kind explicit v).toList,
        found.1.errors ++ (complains disk excludes base kind explicit v).toList⟩,
        found.2 + (accepts disk excludes base kind explicit v).toList.length) := by
  cases v with
  | failed error => rfl
  | file path =>
    simp only [visit, add, accepts, complains]
    by_cases hexcluded : excluded disk excludes base path = true
    · simp [hexcluded, AList.storeAll]
    · cases hadd : tryAdd disk kind explicit path with
      | error error => simp [hexcluded, AList.storeAll, Search.failed, Except.toOption]
      | ok item =>
        cases item with
        | none => simp [hexcluded, AList.storeAll, Except.toOption]
        | some item => simp [hexcluded, AList.storeAll, Except.toOption]

variable (disk excludes base kind explicit) in
private theorem foldl_visit (found : Search Path × Nat) (visits : List (Visit Path String)) :
    visits.foldl (visit disk excludes base kind explicit) found =
      (⟨found.1.artifacts.storeAll (visits.filterMap (accepts disk excludes base kind explicit)),
        found.1.errors ++ visits.filterMap (complains disk excludes base kind explicit)⟩,
        found.2 + (visits.filterMap (accepts disk excludes base kind explicit)).length) := by
  induction visits generalizing found with
  | nil => simp [AList.storeAll]
  | cons v visits ih =>
    have hcons : ∀ {β : Type} (f : Visit Path String → Option β),
        (v :: visits).filterMap f = (f v).toList ++ visits.filterMap f := by
      intro β f
      cases hv : f v <;> simp [hv]
    rw [List.foldl_cons, ih, visit_eq, hcons, hcons, AList.storeAll_append, List.append_assoc,
      List.length_append, Nat.add_assoc]

variable (disk excludes base kind) in
/-- What a root adds to a search. -/
def extend (search : Search Path) (root : Path) : Search Path :=
  ⟨search.artifacts.storeAll (rootItems disk excludes base kind root),
    search.errors ++ rootErrors disk excludes base kind root⟩

variable (disk) in
private theorem conclude_root (search : Search Path) (items : List (Path × ArtifactKind))
    (complaints : List String) :
    (if items.length = 0 ∧ (search.errors ++ complaints).length = search.errors.length then
        Except.ok ((⟨search.artifacts.storeAll items, search.errors ++ complaints⟩ :
          Search Path).failed (unmatched disk root))
      else .ok ⟨search.artifacts.storeAll items, search.errors ++ complaints⟩ :
        Except String (Search Path)) =
      .ok ⟨search.artifacts.storeAll items, search.errors ++
        if items = [] ∧ complaints = [] then [unmatched disk root] else complaints⟩ := by
  have hlengths : (items.length = 0 ∧ (search.errors ++ complaints).length = search.errors.length) ↔
      items = [] ∧ complaints = [] := by
    rw [List.length_eq_zero_iff, List.length_append, Nat.add_eq_left, List.length_eq_zero_iff]
  simp only [hlengths]
  split_ifs with hnone
  · rw [hnone.2, Search.failed, List.append_nil]
  · rfl

section Round

variable {root : Path} (hexcluded : excluded disk excludes base root = false) (search : Search Path)

include hexcluded

private theorem searchRoot_explicit (hfile : disk.isFile root = .ok true) :
    searchRoot disk excludes base .binary search root =
      .ok (extend disk excludes base .binary search root) := by
  have hexplicit : isExplicit disk .binary root = true := by
    simp [isExplicit, hfile, Except.toOption]
  have hround := conclude_root disk root search
    ([Visit.file root].filterMap (accepts disk excludes base .binary true))
    ([Visit.file root].filterMap (complains disk excludes base .binary true))
  have hvisit := foldl_visit disk excludes base .binary true (search, 0) [.file root]
  rw [List.foldl_cons, List.foldl_nil] at hvisit
  simp only [searchRoot, hexcluded, hfile, ok_bind, and_self, if_true, Bool.false_eq_true,
    if_false, hvisit, Nat.zero_add, hround]
  simp [extend, rootErrors, rootItems, rootComplaints, rootVisits, hexcluded, hexplicit]

private theorem searchRoot_walked (hwalked : disk.isDir root = .ok true)
    (hexplicit : isExplicit disk kind root = false) {isFile : Bool}
    (hfile : disk.isFile root = .ok isFile) :
    searchRoot disk excludes base kind search root =
      .ok (extend disk excludes base kind search root) := by
  have hnot : ¬(isFile = true ∧ kind = .binary) := by
    simpa [isExplicit, hfile, Except.toOption] using hexplicit
  have hiswalked : isWalked disk root = true := by
    simp [isWalked, hwalked, Except.toOption]
  simp only [searchRoot, hexcluded, hfile, hwalked, ok_bind, hnot, if_true, Bool.false_eq_true,
    if_false, foldl_visit, Nat.zero_add, conclude_root]
  simp [extend, rootErrors, rootItems, rootComplaints, rootVisits, hexcluded, hexplicit, hiswalked]

private theorem searchRoot_missing (hmissing : disk.isDir root = .ok false)
    (hexplicit : isExplicit disk kind root = false) {isFile : Bool}
    (hfile : disk.isFile root = .ok isFile) :
    searchRoot disk excludes base kind search root =
      .ok (extend disk excludes base kind search root) := by
  have hnot : ¬(isFile = true ∧ kind = .binary) := by
    simpa [isExplicit, hfile, Except.toOption] using hexplicit
  have hiswalked : isWalked disk root = false := by
    simp [isWalked, hmissing, Except.toOption]
  simp [searchRoot, extend, rootErrors, rootItems, rootComplaints, rootVisits, hexcluded,
    hexplicit, hiswalked, hfile, hmissing, hnot, Search.failed, AList.storeAll]

end Round

/-- A round over a root returns if no test of it raises, and then it extends the search. -/
theorem searchRoot_eq_ok {search search' : Search Path} {root : Path} :
    searchRoot disk excludes base kind search root = .ok search' ↔
      Testable disk excludes base kind root ∧
        search' = extend disk excludes base kind search root := by
  have hround : ∀ {t : Search Path}, searchRoot disk excludes base kind search root = .ok t →
      (searchRoot disk excludes base kind search root = .ok search' ↔ search' = t) := by
    intro t ht
    rw [ht, Except.ok.injEq, eq_comm]
  by_cases hexcluded : excluded disk excludes base root = true
  · have hskip : searchRoot disk excludes base kind search root =
        .ok (extend disk excludes base kind search root) := by
      simp [searchRoot, extend, rootItems, rootErrors, hexcluded, AList.storeAll]
    rw [hround hskip]
    simp [Testable, hexcluded]
  · rw [Bool.not_eq_true] at hexcluded
    cases hfile : disk.isFile root with
    | error error => simp [searchRoot, Testable, hexcluded, hfile]
    | ok isFile =>
      by_cases hnot : isFile = true ∧ kind = .binary
      · obtain ⟨rfl, rfl⟩ := hnot
        rw [hround (searchRoot_explicit hexcluded search hfile)]
        simp [Testable, hfile]
      · have hexplicit : isExplicit disk kind root = false := by
          simpa [isExplicit, hfile, Except.toOption] using hnot
        cases hdir : disk.isDir root with
        | error error => simp [searchRoot, Testable, hexcluded, hfile, hdir, hnot]
        | ok isDir =>
          have hok : searchRoot disk excludes base kind search root =
              .ok (extend disk excludes base kind search root) := by
            cases isDir with
            | true => exact searchRoot_walked hexcluded search hdir hexplicit hfile
            | false => exact searchRoot_missing hexcluded search hdir hexplicit hfile
          rw [hround hok]
          simp [Testable, hfile, hdir]

private theorem foldl_extend (search : Search Path) (roots : List Path) :
    roots.foldl (extend disk excludes base kind) search =
      ⟨search.artifacts.storeAll (roots.flatMap (rootItems disk excludes base kind)),
        search.errors ++ roots.flatMap (rootErrors disk excludes base kind)⟩ := by
  induction roots generalizing search with
  | nil => simp [AList.storeAll]
  | cons root roots ih =>
    rw [List.foldl_cons, ih, extend, List.flatMap_cons, List.flatMap_cons, AList.storeAll_append,
      List.append_assoc]

private theorem foldlM_searchRoot {search search' : Search Path} {roots : List Path} :
    roots.foldlM (searchRoot disk excludes base kind) search = .ok search' ↔
      (∀ root ∈ roots, Testable disk excludes base kind root) ∧
        search' =
          ⟨search.artifacts.storeAll (roots.flatMap (rootItems disk excludes base kind)),
            search.errors ++ roots.flatMap (rootErrors disk excludes base kind)⟩ := by
  rw [foldlM_eq_ok fun _ _ _ => searchRoot_eq_ok, foldl_extend]

theorem searchRoots_eq_ok {objects binaries : List Path} {search : Search Path} :
    searchRoots disk excludes base objects binaries = .ok search ↔
      ((∀ root ∈ objects, Testable disk excludes base .object root) ∧
        ∀ root ∈ binaries, Testable disk excludes base .binary root) ∧
      search = ⟨(AList.storeAll ∅ (objects.flatMap (rootItems disk excludes base .object))).storeAll
          (binaries.flatMap (rootItems disk excludes base .binary)),
        objects.flatMap (rootErrors disk excludes base .object) ++
          binaries.flatMap (rootErrors disk excludes base .binary)⟩ := by
  rw [searchRoots, bind_eq_ok]
  simp only [foldlM_searchRoot, List.nil_append]
  constructor
  · intro h
    obtain ⟨_, ⟨hfirst, rfl⟩, hsecond, rfl⟩ := h
    exact ⟨⟨hfirst, hsecond⟩, rfl⟩
  · intro h
    obtain ⟨⟨hfirst, hsecond⟩, rfl⟩ := h
    exact ⟨_, ⟨hfirst, rfl⟩, hsecond, rfl⟩

end Roots

end ApacheFuzz.BuildCheck
