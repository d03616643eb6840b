import Mathlib.Data.List.Sort

/-!
# Walks over directory trees

A walk lists the files of a directory in the order of their names and then enters its
subdirectories in that order, as `os.walk` does for a caller that sorts and prunes the names.  What
a walk comes to is described without an order, and the walk itself does not depend on the order in
which the directories are listed.
-/

namespace Walk

variable {Path Name Error : Type*}

/-- What a name stands for.  A `link` is a symbolic link to a directory: it is listed with the
directories, but not entered. -/
inductive Entry (Name Error : Type*)
  | file
  | link
  | unreadable (error : Error)
  | directory (names : List Name) (entry : Name → Entry Name Error)

def Entry.isDirectory : Entry Name Error → Bool
  | .file => false
  | .link | .unreadable _ | .directory .. => true

/-- What a walk hands to its caller. -/
inductive Visit (Path Error : Type*)
  | file (path : Path)
  | failed (error : Error)

section Walk

variable (join : Path → Name → Path) (skip : Path → Bool)

/-- What lies below a path, through directories that are neither links nor skipped. -/
inductive Reaches : Path → Entry Name Error → Visit Path Error → Prop
  | failed (path : Path) (error : Error) : Reaches path (.unreadable error) (.failed error)
  | file {path : Path} {names : List Name} {entry : Name → Entry Name Error} {name : Name}
      (hname : name ∈ names) (hfile : (entry name).isDirectory = false) :
      Reaches path (.directory names entry) (.file (join path name))
  | enter {path : Path} {names : List Name} {entry : Name → Entry Name Error} {name : Name}
      {visit : Visit Path Error} (hname : name ∈ names) (hskip : skip (join path name) = false)
      (h : Reaches (join path name) (entry name) visit) :
      Reaches path (.directory names entry) visit

variable {join skip} {path : Path} {e : Entry Name Error} {visit : Visit Path Error}

theorem Reaches.isDirectory (h : Reaches join skip path e visit) : e.isDirectory = true := by
  cases h <;> rfl

variable [LinearOrder Name]

variable (join skip) in
def walk : Path → Entry Name Error → List (Visit Path Error)
  | _, .file | _, .link => []
  | _, .unreadable error => [.failed error]
  | path, .directory names entry =>
    let dirs := (names.filter fun name =>
      (entry name).isDirectory && !skip (join path name)).insertionSort (· ≤ ·)
    let files := (names.filter fun name => !(entry name).isDirectory).insertionSort (· ≤ ·)
    files.map (fun name => .file (join path name)) ++
      dirs.flatMap fun name => walk (join path name) (entry name)

/-- A walk comes to what is reached, and to nothing else. -/
theorem mem_walk : visit ∈ walk join skip path e ↔ Reaches join skip path e visit := by
  induction e generalizing path with
  | file =>
    rw [walk, List.mem_nil_iff, false_iff]
    exact nofun
  | link =>
    rw [walk, List.mem_nil_iff, false_iff]
    exact nofun
  | unreadable error =>
    rw [walk, List.mem_singleton]
    constructor
    · intro h
      rw [h]
      exact .failed path error
    · intro h
      cases h
      rfl
  | directory names entry ih =>
    simp only [walk, List.mem_append, List.mem_map, List.mem_flatMap, List.mem_insertionSort,
      List.mem_filter, Bool.not_eq_true', Bool.and_eq_true]
    constructor
    · intro h
      cases h with
      | inl h =>
        obtain ⟨name, ⟨hname, hfile⟩, rfl⟩ := h
        exact .file hname hfile
      | inr h =>
        obtain ⟨name, ⟨hname, -, hskip⟩, hvisit⟩ := h
        exact .enter hname hskip ((ih name).mp hvisit)
    · intro h
      cases h with
      | @file _ _ _ name hname hfile => exact .inl ⟨name, ⟨hname, hfile⟩, rfl⟩
      | @enter _ _ _ name _ hname hskip h =>
        exact .inr ⟨name, ⟨hname, h.isDirectory, hskip⟩, (ih name).mpr h⟩

end Walk

/-- Directories that differ at most in the order in which they are listed. -/
inductive Entry.Same : Entry Name Error → Entry Name Error → Prop
  | file : Same .file .file
  | link : Same .link .link
  | unreadable (error : Error) : Same (.unreadable error) (.unreadable error)
  | directory {names names' : List Name} {entry entry' : Name → Entry Name Error}
      (hnames : names.Perm names') (h : ∀ name ∈ names, Same (entry name) (entry' name)) :
      Same (.directory names entry) (.directory names' entry')

theorem Entry.Same.isDirectory {e e' : Entry Name Error} (h : e.Same e') :
    e.isDirectory = e'.isDirectory := by
  cases h <;> rfl

theorem insertionSort_congr [LinearOrder Name] {names names' : List Name}
    (h : names.Perm names') :
    names.insertionSort (· ≤ ·) = names'.insertionSort (· ≤ ·) :=
  ((names.perm_insertionSort (· ≤ ·)).trans
    (h.trans (names'.perm_insertionSort (· ≤ ·)).symm)).eq_of_pairwise'
      (names.pairwise_insertionSort (· ≤ ·)) (names'.pairwise_insertionSort (· ≤ ·))

/-- The order in which directories are listed is lost. -/
theorem walk_same [LinearOrder Name] {join : Path → Name → Path} {skip : Path → Bool} {path : Path}
    {e e' : Entry Name Error} (h : e.Same e') : walk join skip path e = walk join skip path e' := by
  induction h generalizing path with
  | file => rfl
  | link => rfl
  | unreadable error => rfl
  | @directory names names' entry entry' hnames hsame ih =>
    have hsort : ∀ p p' : Name → Bool, (∀ name ∈ names, p name = p' name) →
        (names.filter p).insertionSort (· ≤ ·) = (names'.filter p').insertionSort (· ≤ ·) := by
      intro p p' hp
      rw [List.filter_congr hp]
      exact insertionSort_congr (hnames.filter p')
    have hdirs := hsort (fun name => (entry name).isDirectory && !skip (join path name))
      (fun name => (entry' name).isDirectory && !skip (join path name))
      fun name hname => by rw [(hsame name hname).isDirectory]
    have hfiles := hsort (fun name => !(entry name).isDirectory)
      (fun name => !(entry' name).isDirectory)
      fun name hname => by rw [(hsame name hname).isDirectory]
    simp only [walk]
    rw [← hdirs, ← hfiles]
    congr 1
    apply List.flatMap_congr
    intro name hname
    rw [List.mem_insertionSort, List.mem_filter] at hname
    exact ih name hname.1

end Walk
