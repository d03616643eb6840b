import ApacheFuzz.BuildCheck.Elf

/-!
# Evidence does not depend on order and only grows

Two lines of `readelf` can be read in either order, so `parse_elf` depends on its lines as a
multiset only.  For `detect`, evidence is ordered by what it contains, and conclusions by how
much they claim.
-/

namespace ApacheFuzz.BuildCheck

open PyText

/-- What a line of a symbol table adds to the strong references. -/
def addReference : Option (String × SymbolKind) → Finset String → Finset String
  | some (name, .strong), references => insert name references
  | _, references => references

/-- What a line of a symbol table does to the other symbols. -/
def addSymbol : Option (String × SymbolKind) → (Finmap fun _ : String => Reason) →
    Finmap fun _ : String => Reason
  | some (name, .defined), symbols => symbols.insert name .definition
  | some (name, .weak), symbols => setDefault symbols name .weakReference
  | _, symbols => symbols

private theorem lookup_setDefault (symbols : Finmap fun _ : String => Reason) (name other : String)
    (reason : Reason) :
    (setDefault symbols name reason).lookup other =
      if other = name then (symbols.lookup other).or (some reason) else symbols.lookup other := by
  unfold setDefault
  split_ifs with hmem hsame hsame
  · subst hsame
    obtain ⟨old, hold⟩ := Finmap.mem_iff.mp hmem
    rw [hold, Option.some_or]
  · rfl
  · subst hsame
    rw [Finmap.lookup_insert, Finmap.lookup_eq_none.mpr hmem, Option.none_or]
  · exact Finmap.lookup_insert_of_ne _ hsame

private theorem lookup_insert (symbols : Finmap fun _ : String => Reason) (name other : String)
    (reason : Reason) :
    (symbols.insert name reason).lookup other =
      if other = name then some reason else symbols.lookup other := by
  split_ifs with hsame
  · rw [hsame, Finmap.lookup_insert]
  · exact Finmap.lookup_insert_of_ne _ hsame

private theorem addSymbol_comm (entry entry' : Option (String × SymbolKind))
    (symbols : Finmap fun _ : String => Reason) :
    addSymbol entry (addSymbol entry' symbols) = addSymbol entry' (addSymbol entry symbols) := by
  rcases entry with - | ⟨name, - | - | -⟩ <;> rcases entry' with - | ⟨name', - | - | -⟩ <;>
    first
      | rfl
      | apply Finmap.ext_lookup
        intro other
        simp only [addSymbol, lookup_setDefault, lookup_insert]
        split_ifs <;> simp

private theorem addReference_comm (entry entry' : Option (String × SymbolKind))
    (references : Finset String) :
    addReference entry (addReference entry' references) =
      addReference entry' (addReference entry references) := by
  rcases entry with - | ⟨name, - | - | -⟩ <;> rcases entry' with - | ⟨name', - | - | -⟩ <;>
    first
      | rfl
      | exact Finset.insert_comm ..

/-- What a line of the table of sections adds: names, headings of a symbol table, and whether
there is code or data. -/
structure SectionShare where
  names : Finset String
  symtabs : Nat
  runtime : Bool

def sectionShare (line : List Char) : SectionShare :=
  match sectionEntry line with
  | none => ⟨∅, 0, false⟩
  | some (name, size, flags) =>
    ⟨if size = 0 then ∅ else {name}, if name = ".symtab" then 1 else 0,
      if size = 0 then false else flags.any fun flag => flag ∈ ['A', 'X']⟩

section Fields

variable (alnum : Char → Bool) (s : Scan) (line : List Char)

/-- What a line adds to each of the accumulators. -/
theorem readLine_eq : readLine alnum s line =
    { references := addReference (symbolEntry line) s.references
      otherSymbols := addSymbol (symbolEntry line) s.otherSymbols
      sections := s.sections ∪ (sectionShare line).names
      headers := s.headers + if line = "ELF Header:".toList then 1 else 0
      symtabs := s.symtabs + (sectionShare line).symtabs
      hasRuntimeSections := s.hasRuntimeSections || (sectionShare line).runtime
      relocatable := s.relocatable || ((relocatableLine alnum).matchStart line).isSome } := by
  have hheader : readHeader s line = { s with
      headers := s.headers + if line = "ELF Header:".toList then 1 else 0 } := by
    unfold readHeader
    split_ifs <;> rfl
  have htype (s : Scan) : readType alnum s line = { s with
      relocatable := s.relocatable || ((relocatableLine alnum).matchStart line).isSome } := by
    unfold readType
    split_ifs with htype <;> simp [htype]
  have hsection (s : Scan) : readSection s line = { s with
      sections := s.sections ∪ (sectionShare line).names
      symtabs := s.symtabs + (sectionShare line).symtabs
      hasRuntimeSections := s.hasRuntimeSections || (sectionShare line).runtime } := by
    unfold readSection sectionShare
    cases sectionEntry line with
    | none => simp
    | some entry =>
      obtain ⟨name, size, flags⟩ := entry
      dsimp only
      split_ifs <;> simp
  have hsymbol (s : Scan) : readSymbol s line = { s with
      references := addReference (symbolEntry line) s.references
      otherSymbols := addSymbol (symbolEntry line) s.otherSymbols } := by
    unfold readSymbol
    rcases symbolEntry line with - | ⟨name, - | - | -⟩ <;> rfl
  rw [readLine, hheader, htype, hsection, hsymbol]

end Fields

private theorem readLine_comm (alnum : Char → Bool) (s : Scan) (line line' : List Char) :
    readLine alnum (readLine alnum s line) line' =
      readLine alnum (readLine alnum s line') line := by
  simp only [readLine_eq, Scan.mk.injEq]
  refine ⟨addReference_comm .., addSymbol_comm .., Finset.union_right_comm .., ?_, ?_, ?_, ?_⟩
  · exact Nat.add_right_comm ..
  · exact Nat.add_right_comm ..
  · exact Bool.or_right_comm ..
  · exact Bool.or_right_comm ..

private theorem parseElf_perm (alnum : Char → Bool) {output output' : List Char} (member : String)
    (h : (splitlines output).Perm (splitlines output')) :
    parseElf alnum output member = parseElf alnum output' member := by
  have hscan : (splitlines output).foldl (readLine alnum) {} =
      (splitlines output').foldl (readLine alnum) {} :=
    h.foldl_eq' (fun line _ line' _ s => readLine_comm alnum s line line') _
  unfold parseElf
  rw [hscan]

/-- A definition prevails over weak references to the name, wherever the lines stand. -/
theorem lookup_foldl_readLine (alnum : Char → Bool) (lines : List (List Char)) (name : String) :
    (lines.foldl (readLine alnum) {}).otherSymbols.lookup name =
      if ∃ line ∈ lines, symbolEntry line = some (name, .defined) then some .definition
      else if ∃ line ∈ lines, symbolEntry line = some (name, .weak) then some .weakReference
      else none := by
  induction lines using List.reverseRecOn with
  | nil => simp
  | append_singleton lines line ih =>
    have hcases (kind : SymbolKind) : (∃ l ∈ lines ++ [line], symbolEntry l = some (name, kind)) ↔
        (∃ l ∈ lines, symbolEntry l = some (name, kind)) ∨
          symbolEntry line = some (name, kind) := by
      simp [or_and_right, exists_or]
    rw [List.foldl_append, List.foldl_cons, List.foldl_nil, readLine_eq]
    simp only [hcases]
    rcases hentry : symbolEntry line with - | ⟨other, kind⟩
    · simpa [addSymbol] using ih
    · by_cases hname : name = other
      · subst hname
        cases kind with
        | defined => simp [addSymbol]
        | weak =>
          simp only [addSymbol, lookup_setDefault, if_true, ih]
          by_cases hdefined : ∃ l ∈ lines, symbolEntry l = some (name, .defined)
          · simp [hdefined]
          · by_cases hweak : ∃ l ∈ lines, symbolEntry l = some (name, .weak)
            · simp [hdefined, hweak]
            · simp [hdefined, hweak]
        | strong => simpa [addSymbol] using ih
      · have hother (kind' : SymbolKind) : some (other, kind) ≠ some (name, kind') := by
          simp [Ne.symm hname]
        simp only [hother, or_false]
        cases kind with
        | defined => simpa [addSymbol, lookup_insert, hname] using ih
        | weak => simpa [addSymbol, lookup_setDefault, hname] using ih
        | strong => simpa [addSymbol] using ih

private theorem parseElf_otherSymbols {alnum : Char → Bool} {output : List Char} {member : String}
    {evidence : Evidence} (h : parseElf alnum output member = .ok ⟨member, .evidence evidence⟩) :
    evidence.otherSymbols = ((splitlines output).foldl (readLine alnum) {}).otherSymbols := by
  unfold parseElf at h
  dsimp only at h
  split_ifs at h <;> cases h
  rfl

/-- The second evidence has whatever the first has; a weak reference may have become a
definition. -/
structure Evidence.Grows (evidence evidence' : Evidence) : Prop where
  references : evidence.references ⊆ evidence'.references
  sections : evidence.sections ⊆ evidence'.sections
  definitions : ∀ name, evidence.otherSymbols.lookup name = some .definition →
    evidence'.otherSymbols.lookup name = some .definition
  weakReferences : ∀ name, evidence.otherSymbols.lookup name = some .weakReference →
    evidence'.otherSymbols.lookup name = some .weakReference ∨
      evidence'.otherSymbols.lookup name = some .definition

/-- How much a conclusion claims. -/
def EvidenceState.strength : EvidenceState → Nat
  | .found => 2
  | .symbolOnly => 1
  | .notSeen | .unknown => 0

private theorem Evidence.Grows.keys {evidence evidence' : Evidence} (h : evidence.Grows evidence') :
    evidence.otherSymbols.keys ⊆ evidence'.otherSymbols.keys := by
  intro name hname
  rw [Finmap.mem_keys, Finmap.mem_iff] at hname ⊢
  obtain ⟨reason, hreason⟩ := hname
  cases reason with
  | definition => exact ⟨_, h.definitions name hreason⟩
  | weakReference => exact (h.weakReferences name hreason).elim (⟨_, ·⟩) (⟨_, ·⟩)

private theorem firstMatch_spec {names : Finset String} {pattern : Option (String → Bool)}
    {name : String} (h : firstMatch names pattern = some name) :
    name ∈ names ∧ ∃ matches?, pattern = some matches? ∧ matches? name = true := by
  cases pattern with
  | none => cases h
  | some matches? =>
    simp only [firstMatch] at h
    split_ifs at h with hsome
    obtain rfl := Option.some.inj h
    have hmin := Finset.mem_filter.mp (Finset.min'_mem _ hsome)
    exact ⟨hmin.1, matches?, rfl, hmin.2⟩

private theorem firstMatch_isSome_mono {names names' : Finset String}
    {pattern : Option (String → Bool)}
    (hsub : names ⊆ names') (h : (firstMatch names pattern).isSome) :
    (firstMatch names' pattern).isSome := by
  obtain ⟨name, hname⟩ := Option.isSome_iff_exists.mp h
  obtain ⟨hmem, matches?, rfl, hmatches⟩ := firstMatch_spec hname
  have hsome : (names'.filter fun name => matches? name).Nonempty :=
    ⟨name, Finset.mem_filter.mpr ⟨hsub hmem, hmatches⟩⟩
  simp [firstMatch, hsome]

section Detect

variable {patterns : Check → NamePatterns} {check : Check} {evidence evidence' : Evidence}

private theorem strength_detect : (detect patterns check evidence).1.strength =
    if (firstMatch evidence.sections (patterns check).sectionName).isSome ∨
        (firstMatch evidence.references (patterns check).symbol).isSome then 2
    else
      match firstMatch evidence.otherSymbols.keys (patterns check).symbol with
      | some name =>
        if check = .libfuzzer ∧ evidence.otherSymbols.lookup name = some .definition then 2 else 1
      | none => 0 := by
  unfold detect
  cases hsection : firstMatch evidence.sections (patterns check).sectionName with
  | some name => rfl
  | none =>
    cases hreference : firstMatch evidence.references (patterns check).symbol with
    | some name => rfl
    | none =>
      cases hother : firstMatch evidence.otherSymbols.keys (patterns check).symbol with
      | some name =>
        have hmem := (firstMatch_spec hother).1
        rw [Finmap.mem_keys, Finmap.mem_iff] at hmem
        obtain ⟨reason, hreason⟩ := hmem
        simp only [hreason, Option.getD_some, Option.isSome_none, Bool.false_eq_true, or_self,
          if_false, Option.some.injEq]
        split_ifs <;> rfl
      | none =>
        simp only [Option.isSome_none, Bool.false_eq_true, or_self, if_false]
        split_ifs <;> rfl

/-- More evidence never weakens a conclusion, when the pattern of the driver matches one
name only. -/
theorem strength_detect_mono (hdriver : ∀ matches?, (patterns .libfuzzer).symbol = some matches? →
      ∀ name name', matches? name = true → matches? name' = true → name = name')
    (h : evidence.Grows evidence') :
    (detect patterns check evidence).1.strength ≤ (detect patterns check evidence').1.strength := by
  rw [strength_detect, strength_detect]
  split_ifs with hfound hfound' hfound'
  · exact le_rfl
  · have hfound'' := hfound.imp (firstMatch_isSome_mono h.sections)
      (firstMatch_isSome_mono h.references)
    exact absurd hfound'' hfound'
  · split
    · split_ifs <;> decide
    · decide
  · cases hother : firstMatch evidence.otherSymbols.keys (patterns check).symbol with
    | none => exact Nat.zero_le _
    | some name =>
      obtain ⟨hmem, matches?, hpattern, hmatches⟩ := firstMatch_spec hother
      have hsome := firstMatch_isSome_mono h.keys (Option.isSome_of_eq_some hother)
      obtain ⟨name', hother'⟩ := Option.isSome_iff_exists.mp hsome
      obtain ⟨-, matches', hpattern', hmatches'⟩ := firstMatch_spec hother'
      obtain rfl : matches? = matches' := Option.some.inj (hpattern.symm.trans hpattern')
      rw [hother']
      dsimp only
      split_ifs with hdefinition hdefinition' hdefinition'
      · exact le_rfl
      · obtain ⟨rfl, hdefined⟩ := hdefinition
        obtain rfl := hdriver matches? hpattern name name' hmatches hmatches'
        exact absurd ⟨rfl, h.definitions name hdefined⟩ hdefinition'
      · decide
      · exact le_rfl

end Detect

private theorem checkPatterns_libfuzzer (matches? : String → Bool)
    (h : (checkPatterns .libfuzzer).symbol = some matches?) (name name' : String)
    (hname : matches? name = true) (hname' : matches? name' = true) : name = name' := by
  obtain rfl := Option.some.inj h
  have heq := Regex.fullmatch_lit hname
  have heq' := Regex.fullmatch_lit hname'
  exact String.toList_inj.mp (heq.trans heq'.symm)

/-- Order and growth: `parse_elf` gives the same outcome for every order of the lines, a
definition prevails over weak references wherever its line stands, and `detect` never draws a
weaker conclusion from more evidence. -/
theorem evidence_order_and_growth (alnum : Char → Bool) (patterns : Check → NamePatterns)
    (hdriver : ∀ matches?, (patterns .libfuzzer).symbol = some matches? →
      ∀ name name', matches? name = true → matches? name' = true → name = name') :
    (∀ output output' member, (splitlines output).Perm (splitlines output') →
      parseElf alnum output member = parseElf alnum output' member) ∧
    (∀ output member evidence, parseElf alnum output member = .ok ⟨member, .evidence evidence⟩ →
      ∀ name, evidence.otherSymbols.lookup name =
        if ∃ line ∈ splitlines output, symbolEntry line = some (name, .defined) then
          some .definition
        else if ∃ line ∈ splitlines output, symbolEntry line = some (name, .weak) then
          some .weakReference
        else none) ∧
    ∀ check evidence evidence', evidence.Grows evidence' →
      ((detect patterns check evidence).1 = .found →
        (detect patterns check evidence').1 = .found) ∧
      ((detect patterns check evidence).1 = .symbolOnly →
        (detect patterns check evidence').1 ≠ .notSeen ∧
          (detect patterns check evidence').1 ≠ .unknown) := by
  refine ⟨?_, ?_, ?_⟩
  · intro output output' member h
    exact parseElf_perm alnum member h
  · intro output member evidence h name
    rw [parseElf_otherSymbols h, lookup_foldl_readLine]
  · intro check evidence evidence' hgrows
    have hmono : (detect patterns check evidence).1.strength ≤
        (detect patterns check evidence').1.strength := strength_detect_mono hdriver hgrows
    refine ⟨?_, ?_⟩
    · intro hfound
      rw [hfound] at hmono
      cases hstate : (detect patterns check evidence').1 with
      | found => rfl
      | symbolOnly =>
        rw [hstate] at hmono
        exact absurd hmono (by decide)
      | notSeen =>
        rw [hstate] at hmono
        exact absurd hmono (by decide)
      | unknown =>
        rw [hstate] at hmono
        exact absurd hmono (by decide)
    · intro honly
      rw [honly] at hmono
      constructor
      · intro hstate
        rw [hstate] at hmono
        exact absurd hmono (by decide)
      · intro hstate
        rw [hstate] at hmono
        exact absurd hmono (by decide)

def weakLine : String := "1: 00 0 FUNC WEAK DEFAULT UND LLVMFuzzerRunDriver\n"

def definitionLine : String := "2: 40 9 FUNC GLOBAL DEFAULT 9 LLVMFuzzerRunDriver\n"

theorem evidence_order_and_growth_driver :
    parseElf Char.isAlphanum ("ELF Header:\n" ++ weakLine ++ definitionLine).toList "" =
      parseElf Char.isAlphanum (definitionLine ++ weakLine ++ "ELF Header:\n").toList "" ∧
    (detect checkPatterns .libfuzzer
      ⟨∅, (∅ : Finmap _).insert "LLVMFuzzerRunDriver" .definition, {"asan_globals"}, true⟩).1 =
        .found := by
  have hlaws := evidence_order_and_growth Char.isAlphanum checkPatterns checkPatterns_libfuzzer
  constructor
  · exact hlaws.1 _ _ _ (by decide +kernel)
  · refine (hlaws.2.2 .libfuzzer
      ⟨∅, (∅ : Finmap _).insert "LLVMFuzzerRunDriver" .definition, ∅, true⟩ _ ?_).1 ?_
    · exact ⟨subset_rfl, Finset.empty_subset _, fun _ h => h, fun _ h => .inl h⟩
    · decide +kernel

end ApacheFuzz.BuildCheck
