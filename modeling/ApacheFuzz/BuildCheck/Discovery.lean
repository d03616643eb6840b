import ApacheFuzz.BuildCheck.Discover

/-!
# What the search finds

The artifacts and the errors of `discover`, in terms of what lies below the roots: nothing is lost
to the order of the roots, the dictionary or the order in which directories are listed, and a root
that cannot be searched is not passed over.
-/

namespace ApacheFuzz.BuildCheck

open Raising Walk

section Found

variable {Path : Type} (disk : Disk Path) (excludes : List String) (base : Path) (kind : RootKind)
  (root : Path)

/-- What a root offers: itself, or what lies below it. -/
def Comes (v : Visit Path String) : Prop :=
  if isExplicit disk kind root then v = .file root
  else isWalked disk root = true ∧
    Reaches disk.paths.join (excluded disk excludes base) root (disk.listing root) v

/-- A root has an artifact: a file that it offers, that is not excluded and that `add` stores. -/
def Finds (item : Path × ArtifactKind) : Prop :=
  excluded disk excludes base root = false ∧ ∃ path,
    Comes disk excludes base kind root (.file path) ∧ excluded disk excludes base path = false ∧
      tryAdd disk kind (isExplicit disk kind root) path = .ok (some item)

/-- A root is there, can be read throughout and has an artifact. -/
structure Searched : Prop where
  present : isExplicit disk kind root = true ∨ isWalked disk root = true
  readable : ∀ error, ¬Comes disk excludes base kind root (.failed error)
  examined : ∀ path, Comes disk excludes base kind root (.file path) →
    excluded disk excludes base path = false →
      ∃ item, tryAdd disk kind (isExplicit disk kind root) path = .ok item
  matched : ∃ item, Finds disk excludes base kind root item

variable {disk excludes base kind root} {item : Path × ArtifactKind}

private theorem mem_rootVisits {v : Visit Path String} :
    v ∈ rootVisits disk excludes base kind root ↔ Comes disk excludes base kind root v := by
  unfold rootVisits Comes
  split_ifs with hexplicit hwalked
  · exact List.mem_singleton
  · rw [mem_walk]
    simp [hwalked]
  · simp [hwalked]

private theorem accepts_eq_some {explicit : Bool} {v : Visit Path String} :
    accepts disk excludes base kind explicit v = some item ↔
      ∃ path, v = .file path ∧ excluded disk excludes base path = false ∧
        tryAdd disk kind explicit path = .ok (some item) := by
  cases v with
  | failed error => simp [accepts]
  | file path =>
    by_cases hexcluded : excluded disk excludes base path = true
    · simp [accepts, hexcluded]
    · cases hadd : tryAdd disk kind explicit path with
      | error error => simp [accepts, hexcluded, hadd, Except.toOption]
      | ok found => simp [accepts, hexcluded, hadd, Except.toOption]

private theorem mem_rootItems : item ∈ rootItems disk excludes base kind root ↔
    Finds disk excludes base kind root item := by
  unfold rootItems Finds
  split_ifs with hexcluded
  · simp [hexcluded]
  · simp only [List.mem_filterMap, mem_rootVisits, accepts_eq_some]
    constructor
    · intro h
      obtain ⟨_, hcomes, path, rfl, hpath⟩ := h
      exact ⟨Bool.not_eq_true _ ▸ hexcluded, path, hcomes, hpath⟩
    · intro h
      obtain ⟨-, path, hcomes, hpath⟩ := h
      exact ⟨_, hcomes, path, rfl, hpath⟩

private theorem complains_eq_none {explicit : Bool} {v : Visit Path String} :
    complains disk excludes base kind explicit v = none ↔
      ∃ path, v = .file path ∧ (excluded disk excludes base path = false →
        ∃ item, tryAdd disk kind explicit path = .ok item) := by
  cases v with
  | failed error => simp [complains]
  | file path =>
    by_cases hexcluded : excluded disk excludes base path = true
    · simp [complains, hexcluded]
    · cases hadd : tryAdd disk kind explicit path with
      | error error => simp [complains, hexcluded, hadd]
      | ok found => simp [complains, hexcluded, hadd]

private theorem rootComplaints_eq_nil : rootComplaints disk excludes base kind root = [] ↔
    (isExplicit disk kind root = true ∨ isWalked disk root = true) ∧
      ∀ v, Comes disk excludes base kind root v →
        complains disk excludes base kind (isExplicit disk kind root) v = none := by
  unfold rootComplaints
  split_ifs with hpresent
  · simp only [hpresent, true_and, List.filterMap_eq_nil_iff, mem_rootVisits]
  · simp [hpresent]

private theorem searched_iff : Searched disk excludes base kind root ↔
    (∃ item, Finds disk excludes base kind root item) ∧
      rootComplaints disk excludes base kind root = [] := by
  rw [rootComplaints_eq_nil]
  constructor
  · intro h
    refine ⟨h.matched, h.present, ?_⟩
    intro v hv
    rw [complains_eq_none]
    cases v with
    | failed error => exact absurd hv (h.readable error)
    | file path => exact ⟨path, rfl, h.examined path hv⟩
  · intro h
    obtain ⟨hmatched, hpresent, hquiet⟩ := h
    refine ⟨hpresent, ?_, ?_, hmatched⟩
    · intro error hcomes
      obtain ⟨path, hpath, -⟩ := complains_eq_none.mp (hquiet _ hcomes)
      cases hpath
    · intro path hcomes
      obtain ⟨_, hpath, hadd⟩ := complains_eq_none.mp (hquiet _ hcomes)
      cases hpath
      exact hadd

private theorem rootErrors_eq_nil : rootErrors disk excludes base kind root = [] ↔
    excluded disk excludes base root = true ∨ Searched disk excludes base kind root := by
  have hitems : rootItems disk excludes base kind root = [] ↔
      ¬∃ item, Finds disk excludes base kind root item := by
    rw [List.eq_nil_iff_forall_not_mem, not_exists]
    simp only [mem_rootItems]
  unfold rootErrors
  rw [searched_iff]
  split_ifs with hexcluded hnone
  · simp [hexcluded]
  · rw [hitems] at hnone
    simp [hexcluded, hnone.1]
  · rw [hitems] at hnone
    constructor
    · intro hquiet
      exact .inr ⟨by_contra fun hfinds => hnone ⟨hfinds, hquiet⟩, hquiet⟩
    · intro h
      exact (h.resolve_left hexcluded).2

private theorem artifactKind_binary {explicit : Bool} {path : Path} {header : List UInt8}
    {artifact : ArtifactKind}
    (h : artifactKind disk .binary explicit path header = .ok (some artifact)) :
    artifact = .binary := by
  simp only [artifactKind] at h
  split_ifs at h <;> cases h
  rfl

private theorem tryAdd_binary {explicit : Bool} {path : Path}
    (h : tryAdd disk .binary explicit path = .ok (some item)) : item.2 = .binary := by
  rw [tryAdd, bind_eq_ok] at h
  obtain ⟨regular, -, h⟩ := h
  split at h
  · split_ifs at h
    cases h
  · obtain ⟨content, -, h⟩ := bind_eq_ok.mp h
    obtain ⟨found, hkind, h⟩ := bind_eq_ok.mp h
    cases found with
    | none => cases h
    | some artifact =>
      obtain ⟨key, -, h⟩ := bind_eq_ok.mp h
      cases h
      exact artifactKind_binary hkind

private theorem Finds.binary (h : Finds disk excludes base .binary root item) :
    item.2 = .binary := by
  obtain ⟨-, path, -, -, hadd⟩ := h
  exact tryAdd_binary hadd

end Found

section Sorted

variable {Path : Type} [LinearOrder Path] {artifacts : AList fun _ : Path => ArtifactKind}

private theorem mem_sortedItems {item : Path × ArtifactKind} :
    item ∈ sortedItems artifacts ↔ artifacts.lookup item.1 = some item.2 := by
  rw [sortedItems, List.mem_insertionSort, ← Option.mem_def, AList.mem_lookup_iff, List.mem_map]
  constructor
  · intro h
    obtain ⟨entry, hentry, rfl⟩ := h
    exact hentry
  · intro h
    exact ⟨⟨item.1, item.2⟩, h, rfl⟩

private theorem sortedItems_pairwise : (sortedItems artifacts).Pairwise (·.1 < ·.1) := by
  have htotal : Std.Total fun a b : Path × ArtifactKind => a.1 ≤ b.1 :=
    ⟨fun a b => le_total a.1 b.1⟩
  have htrans : IsTrans (Path × ArtifactKind) fun a b => a.1 ≤ b.1 :=
    ⟨fun _ _ _ => le_trans⟩
  have hsorted := (artifacts.entries.map fun item => (item.1, item.2)).pairwise_insertionSort
    fun a b : Path × ArtifactKind => a.1 ≤ b.1
  have hkeys : ((artifacts.entries.map fun item => (item.1, item.2)).map Prod.fst).Nodup := by
    rw [List.map_map]
    exact artifacts.nodupKeys
  have hdistinct : (sortedItems artifacts).Pairwise (·.1 ≠ ·.1) := by
    rw [← List.pairwise_map]
    exact ((List.perm_insertionSort _ _).map Prod.fst).nodup_iff.mpr hkeys
  exact hsorted.imp₂ (fun _ _ hle hne => lt_of_le_of_ne hle hne) hdistinct

private theorem sortedItems_eq_nil : sortedItems artifacts = [] ↔ artifacts.keys = [] := by
  have hlength : (sortedItems artifacts).length = artifacts.keys.length := by
    rw [sortedItems, List.length_insertionSort, List.length_map, AList.keys, List.keys,
      List.length_map]
  rw [← List.length_eq_zero_iff, hlength, List.length_eq_zero_iff]

end Sorted

section Result

variable {Path : Type} [LinearOrder Path] (disk : Disk Path) (objects binaries : List Path)
  (excludes : List String) (base : Path)

/-- A file is an artifact of a root. -/
def Found (item : Path × ArtifactKind) : Prop :=
  (∃ root ∈ objects, Finds disk excludes base .object root item) ∨
    ∃ root ∈ binaries, Finds disk excludes base .binary root item

/-- What `discover` returns, in terms of the files below the roots. -/
structure Discovered (artifacts : List (Path × ArtifactKind)) (errors : List String) : Prop where
  sorted : artifacts.Pairwise (·.1 < ·.1)
  sound : ∀ item ∈ artifacts, Found disk objects binaries excludes base item
  complete : ∀ item, Found disk objects binaries excludes base item →
    ∃ kind, (item.1, kind) ∈ artifacts
  /-- What both lists of roots reach is a binary. -/
  binary : ∀ root ∈ binaries, ∀ item, Finds disk excludes base .binary root item → item ∈ artifacts
  errors : errors = [] ↔ artifacts ≠ [] ∧
    (∀ root ∈ objects, excluded disk excludes base root = true ∨
      Searched disk excludes base .object root) ∧
    ∀ root ∈ binaries, excluded disk excludes base root = true ∨
      Searched disk excludes base .binary root

/-- The dictionary after the loops over the roots. -/
def stored : AList fun _ : Path => ArtifactKind :=
  (AList.storeAll ∅ (objects.flatMap (rootItems disk excludes base .object))).storeAll
    (binaries.flatMap (rootItems disk excludes base .binary))

/-- The errors after the loops over the roots. -/
def reported : List String :=
  objects.flatMap (rootErrors disk excludes base .object) ++
    binaries.flatMap (rootErrors disk excludes base .binary)

variable {disk objects binaries excludes base} {item : Path × ArtifactKind}

private theorem discover_eq_ok {result : List (Path × ArtifactKind) × List String} :
    discover disk objects binaries excludes base = .ok result ↔
      ((∀ root ∈ objects, Testable disk excludes base .object root) ∧
        ∀ root ∈ binaries, Testable disk excludes base .binary root) ∧
      (sortedItems (stored disk objects binaries excludes base),
        if (stored disk objects binaries excludes base).keys = [] then
          reported disk objects binaries excludes base ++ ["no matching artifacts found"]
        else reported disk objects binaries excludes base) = result := by
  rw [discover, bind_eq_ok]
  simp only [searchRoots_eq_ok]
  constructor
  · intro h
    obtain ⟨_, ⟨htestable, rfl⟩, h⟩ := h
    refine ⟨htestable, ?_⟩
    rw [Except.ok.injEq] at h
    rw [← h]
    unfold stored reported Search.failed
    split_ifs <;> rfl
  · intro h
    obtain ⟨htestable, rfl⟩ := h
    refine ⟨_, ⟨htestable, rfl⟩, ?_⟩
    rw [Except.ok.injEq]
    unfold stored reported Search.failed
    split_ifs <;> rfl

omit [LinearOrder Path] in
private theorem mem_items {kind : RootKind} {roots : List Path} :
    item ∈ roots.flatMap (rootItems disk excludes base kind) ↔
      ∃ root ∈ roots, Finds disk excludes base kind root item := by
  simp only [List.mem_flatMap, mem_rootItems]

private theorem found_of_stored
    (h : (stored disk objects binaries excludes base).lookup item.1 = some item.2) :
    Found disk objects binaries excludes base item := by
  cases AList.lookup_storeAll h with
  | inl hbinary => exact .inr (mem_items.mp hbinary)
  | inr hobject =>
    cases AList.lookup_storeAll hobject with
    | inl hobject => exact .inl (mem_items.mp hobject)
    | inr hempty => cases hempty

private theorem stored_of_binary
    (h : item.1 ∈ (binaries.flatMap (rootItems disk excludes base .binary)).map Prod.fst) :
    (stored disk objects binaries excludes base).lookup item.1 = some .binary := by
  obtain ⟨kind, hmem, hlookup⟩ := AList.lookup_storeAll_of_mem
    (AList.storeAll ∅ (objects.flatMap (rootItems disk excludes base .object))) h
  obtain ⟨root, -, hfinds⟩ := mem_items.mp hmem
  have hkind : kind = .binary := hfinds.binary
  rw [stored, hlookup, hkind]

private theorem stored_of_found (h : Found disk objects binaries excludes base item) :
    ∃ kind, (stored disk objects binaries excludes base).lookup item.1 = some kind := by
  by_cases hbinary : item.1 ∈ (binaries.flatMap (rootItems disk excludes base .binary)).map Prod.fst
  · exact ⟨.binary, stored_of_binary hbinary⟩
  · cases h with
    | inl hobject =>
      obtain ⟨kind, -, hlookup⟩ := AList.lookup_storeAll_of_mem ∅
        (List.mem_map_of_mem (mem_items.mpr hobject))
      exact ⟨kind, by rw [stored, AList.lookup_storeAll_of_notMem hbinary, hlookup]⟩
    | inr hfinds => exact absurd (List.mem_map_of_mem (mem_items.mpr hfinds)) hbinary

omit [LinearOrder Path] in
private theorem reported_eq_nil : reported disk objects binaries excludes base = [] ↔
    (∀ root ∈ objects, excluded disk excludes base root = true ∨
      Searched disk excludes base .object root) ∧
    ∀ root ∈ binaries, excluded disk excludes base root = true ∨
      Searched disk excludes base .binary root := by
  simp only [reported, List.append_eq_nil_iff, List.flatMap_eq_nil_iff, rootErrors_eq_nil]

/-- The search returns unless a test of a root raises, and then it has found exactly what lies
below the roots, and it reports every root that it could not search. -/
theorem discover_exact :
    ((∃ result, discover disk objects binaries excludes base = .ok result) ↔
      (∀ root ∈ objects, Testable disk excludes base .object root) ∧
        ∀ root ∈ binaries, Testable disk excludes base .binary root) ∧
    ∀ artifacts errors, discover disk objects binaries excludes base = .ok (artifacts, errors) →
      Discovered disk objects binaries excludes base artifacts errors := by
  constructor
  · simp only [discover_eq_ok, exists_and_left, exists_eq', and_true]
  · intro artifacts errors h
    obtain ⟨-, hresult⟩ := discover_eq_ok.mp h
    obtain ⟨rfl, rfl⟩ := Prod.mk.inj hresult
    constructor
    · exact sortedItems_pairwise
    · intro item hitem
      exact found_of_stored (mem_sortedItems.mp hitem)
    · intro item hfound
      obtain ⟨kind, hlookup⟩ := stored_of_found hfound
      exact ⟨kind, mem_sortedItems.mpr hlookup⟩
    · intro root hroot item hfinds
      rw [mem_sortedItems, hfinds.binary]
      exact stored_of_binary (List.mem_map_of_mem (mem_items.mpr ⟨root, hroot, hfinds⟩))
    · rw [← reported_eq_nil, Ne, sortedItems_eq_nil]
      split_ifs with hnone
      · simp [hnone]
      · simp [hnone]

/-- The order in which the system lists directories changes nothing: neither the artifacts and their
kinds nor the errors and their order. -/
theorem discover_listed {listing : Path → Entry String String}
    (h : ∀ path, (disk.listing path).Same (listing path)) (objects binaries : List Path)
    (excludes : List String) (base : Path) :
    discover { disk with listing := listing } objects binaries excludes base =
      discover disk objects binaries excludes base := by
  have hround : ∀ kind, searchRoot { disk with listing := listing } excludes base kind =
      searchRoot disk excludes base kind := by
    intro kind
    funext search root
    simp only [searchRoot, ← walk_same (h root)]
    rfl
  rw [discover, discover, searchRoots, searchRoots, hround, hround]

end Result

/-- A directory listed out of order.  `b.o` holds an executable, and `private` cannot be read. -/
def treeDisk : Disk String where
  paths := ⟨id, fun _ => "", fun path name => path ++ "/" ++ name, id, fun path _ => path⟩
  fnmatchcase name pattern := name == pattern
  name := id
  suffix _ := ".o"
  isFile path := .ok (path == "lib/b.o")
  isDir path := .ok (path == "lib")
  listing _ := .directory ["b.o", "private", "a.o"] fun name =>
    if name = "private" then .unreadable "Permission denied" else .file
  isRegular _ := .ok true
  content path := .ok (if path = "lib/b.o" then elfMagic ++ [2, 1] ++ List.replicate 10 0 ++ [2, 0]
    else [])
  resolveStrict path := .ok path

theorem discover_exact_tree :
    discover treeDisk ["lib"] ["lib/b.o"] ["lib/private"] "" =
      .ok ([("lib/a.o", .object), ("lib/b.o", .binary)], []) ∧
    Discovered treeDisk ["lib"] ["lib/b.o"] ["lib/private"] ""
      [("lib/a.o", .object), ("lib/b.o", .binary)] [] := by
  have h : discover treeDisk ["lib"] ["lib/b.o"] ["lib/private"] "" =
      .ok ([("lib/a.o", .object), ("lib/b.o", .binary)], []) := by decide +kernel
  exact ⟨h, discover_exact.2 _ _ h⟩

theorem discover_listed_sorted :
    discover { treeDisk with listing := fun _ => .directory ["a.o", "b.o", "private"] fun name =>
        if name = "private" then .unreadable "Permission denied" else .file }
      ["lib"] ["lib/b.o"] [] "" = discover treeDisk ["lib"] ["lib/b.o"] [] "" := by
  have hnames : ["b.o", "private", "a.o"].Perm ["a.o", "b.o", "private"] := by decide
  refine discover_listed (fun _ => .directory hnames fun name _ => ?_) _ _ _ _
  show Entry.Same (if name = "private" then .unreadable "Permission denied" else .file) _
  split_ifs
  · exact .unreadable _
  · exact .file

end ApacheFuzz.BuildCheck
