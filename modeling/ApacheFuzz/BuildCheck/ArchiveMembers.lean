import ApacheFuzz.BuildCheck.Archive

/-!
# Archive members one by one

`readelf` prints bytes, and `inspect` looks for headings in what text mode makes of them.  It
finds every member and nothing else exactly if the headings survive that and no line of a
body turns into one.
-/

namespace ApacheFuzz.BuildCheck

open PyText Regex TextMode

/-- A member as it is printed: its name, the kind of brackets and the lines of its body. -/
structure PrintedMember where
  name : List UInt8
  thin : Bool
  body : List (List UInt8)

/-- The heading of a member; the members of a thin archive stand in square brackets. -/
def printedHeading (path name : List UInt8) (thin : Bool) : List UInt8 :=
  encode "File: ".toList ++ path ++ if thin then 0x5B :: name ++ [0x5D] else 0x28 :: name ++ [0x29]

def printedLines (path : List UInt8) (members : List PrintedMember) : List (List UInt8) :=
  members.flatMap fun m => printedHeading path m.name m.thin :: m.body

/-- Printed lines, as text mode reads them. -/
def printedText (lines : List (List UInt8)) : List Char := readText (lines.flatMap (· ++ [0x0A]))

/-- What `inspect` should say of a member: what `parse_elf` says of its body alone. -/
def PrintedMember.unit (alnum : Char → Bool) (m : PrintedMember) : ArtifactUnit :=
  parseUnit alnum (printedText m.body) (String.ofList (decodeText m.name))

/-- The path is the UTF-8 form of a text, neither it nor the name of the member has a carriage
return, and text mode makes no line of the body a heading. -/
def Legible (path : List UInt8) (m : PrintedMember) : Prop :=
  0x0D ∉ path ∧ 0x0D ∉ m.name ∧ ∃ text, path = encode text ∧
    ∀ line ∈ (printedText m.body).splitOn '\n', ¬HeadingForm text line

/-- The lines that printed lines are read as. -/
def readLines (lines : List (List UInt8)) : List (List Char) :=
  lines.flatMap fun line => linesOf (decodeText line)

section Lines

variable {lines : List (List UInt8)} {stdout : List UInt8}

private theorem readText_cons (line rest : List UInt8) :
    readText (line ++ 0x0A :: rest) = lineText (decodeText line) ++ '\n' :: readText rest := by
  rw [readText, decodeText_ascii (c := '\n') (by decide) (by decide), newlines_cons_line]
  rfl

private theorem printedText_cons (line : List UInt8) (lines : List (List UInt8)) :
    printedText (line :: lines) =
      lineText (decodeText line) ++ '\n' :: printedText lines := by
  rw [printedText, List.flatMap_cons, List.append_assoc, List.singleton_append, readText_cons]
  rfl

private theorem printedText_eq (lines : List (List UInt8)) :
    printedText lines = terminated (readLines lines) := by
  induction lines with
  | nil => rfl
  | cons line lines ih =>
    have hline : terminated (linesOf (decodeText line)) = lineText (decodeText line) ++ ['\n'] := by
      rw [linesOf, terminated_eq (List.splitOn_ne_nil _ _), List.intercalate_splitOn]
    have hsplit : terminated (readLines (line :: lines)) =
        terminated (linesOf (decodeText line)) ++ terminated (readLines lines) :=
      List.flatMap_append
    rw [printedText_cons, ih, hsplit, hline]
    simp

private theorem splitOn_printedText (lines : List (List UInt8)) :
    (printedText lines).splitOn '\n' = readLines lines ++ [[]] := by
  induction lines with
  | nil => rfl
  | cons line lines ih =>
    rw [printedText_cons, List.splitOn_append_cons_self, ih, ← List.append_assoc]
    rfl

private theorem splitOn_readText (stdout : List UInt8) : ∃ rest, (rest = [] ∨ rest = [[]]) ∧
    (readText stdout).splitOn '\n' = readLines (stdout.splitOn 0x0A) ++ rest := by
  have hdecode : decodeText stdout = ['\n'].intercalate ((stdout.splitOn 0x0A).map decodeText) := by
    rw [← decodeText_intercalate (c := '\n') (b := 0x0A) (by decide) (by decide),
      List.intercalate_splitOn]
  have hne : (stdout.splitOn 0x0A).map decodeText ≠ [] := by simp
  obtain ⟨rest, hrest, hsplit⟩ := splitOn_newlines hne
  refine ⟨rest, hrest, ?_⟩
  rw [readText, hdecode, hsplit, List.flatMap_map]
  rfl

end Lines

section Headings

variable {text : List Char} {name : List UInt8} {thin : Bool}

private theorem decodeText_printedHeading (text : List Char) (name : List UInt8) (thin : Bool) :
    decodeText (printedHeading (encode text) name thin) = heading text (decodeText name) thin := by
  have hclose (c : Char) (b : UInt8) (hc : String.utf8EncodeChar c = [b]) (hb : b < 0x80) :
      decodeText (name ++ [b]) = decodeText name ++ [c] := decodeText_ascii hc hb name []
  have hopen (c : Char) (b : UInt8) (hc : String.utf8EncodeChar c = [b]) (hb : b < 0x80)
      (rest : List UInt8) : decodeText (b :: rest) = c :: decodeText rest :=
    decodeText_ascii hc hb [] rest
  rw [printedHeading, List.append_assoc, decodeText_encode, decodeText_encode, heading_eq,
    List.append_assoc]
  congr 2
  cases thin with
  | false =>
    show decodeText (0x28 :: (name ++ [0x29])) = '(' :: (decodeText name ++ [')'])
    rw [hopen '(' _ (by decide) (by decide), hclose ')' _ (by decide) (by decide)]
  | true =>
    show decodeText (0x5B :: (name ++ [0x5D])) = '[' :: (decodeText name ++ [']'])
    rw [hopen '[' _ (by decide) (by decide), hclose ']' _ (by decide) (by decide)]

private theorem mem_printedHeading {b : UInt8} (hb : b < 0x20) (path : List UInt8) :
    b ∈ printedHeading path name thin ↔ b ∈ path ∨ b ∈ name := by
  have hfile : ∀ b' ∈ encode "File: ".toList, 0x20 ≤ b' := by decide +kernel
  have hother : ∀ b' ∈ [(0x28 : UInt8), 0x29, 0x5B, 0x5D], 0x20 ≤ b' := by decide +kernel
  have hne (b' : UInt8) (h : 0x20 ≤ b') : b ≠ b' := by
    rintro rfl
    exact absurd hb (UInt8.not_lt.mpr h)
  have hprefix : b ∉ encode "File: ".toList := fun h => hne b (hfile b h) rfl
  simp only [printedHeading, List.append_assoc, List.mem_append, hprefix, false_or]
  cases thin <;> simp [hne _ (hother _ _)]

private theorem linesOf_printedHeading (hnewline : 0x0A ∉ printedHeading (encode text) name thin)
    (hpath : 0x0D ∉ encode text) (hname : 0x0D ∉ name) :
    linesOf (decodeText (printedHeading (encode text) name thin)) =
      [heading text (decodeText name) thin] := by
  rw [linesOf_eq, decodeText_printedHeading]
  · rw [mem_decodeText_iff (b := 0x0D) (by decide) (by decide) (by decide),
      mem_printedHeading (by decide), not_or]
    exact ⟨hpath, hname⟩
  · rwa [mem_decodeText_iff (b := 0x0A) (by decide) (by decide) (by decide)]

end Headings

section Members

variable {alnum : Char → Bool} {path stdout : List UInt8} {preamble : List (List UInt8)}
  {members : List PrintedMember}

/-- The output is that of an archive: lines that do not begin like a heading, and the members. -/
structure PrintsArchive (path stdout : List UInt8) (preamble : List (List UInt8))
    (members : List PrintedMember) : Prop where
  lines_eq : stdout.splitOn 0x0A = preamble ++ printedLines path members
  preamble : ∀ line ∈ (printedText preamble).splitOn '\n', ¬"File: ".toList <+: line

private theorem PrintsArchive.preamble_line (h : PrintsArchive path stdout preamble members) :
    ∀ line ∈ readLines preamble, ¬"File: ".toList <+: line := by
  intro line hline
  apply h.preamble
  rw [splitOn_printedText]
  exact List.mem_append_left _ hline

private theorem not_headingForm_of_not_prefix {text line : List Char}
    (h : ¬"File: ".toList <+: line) : ¬HeadingForm text line := by
  rintro ⟨name, thin, rfl⟩
  apply h
  rw [heading_eq, List.append_assoc]
  exact List.prefix_append _ _

private theorem PrintsArchive.newline_not_mem (h : PrintsArchive path stdout preamble members)
    {m : PrintedMember} (hm : m ∈ members) : 0x0A ∉ printedHeading path m.name m.thin := by
  have hline : printedHeading path m.name m.thin ∈ stdout.splitOn 0x0A := by
    rw [h.lines_eq]
    exact List.mem_append_right _ (List.mem_flatMap.mpr ⟨m, hm, List.mem_cons_self⟩)
  exact not_mem_of_mem_splitOn hline

private theorem PrintsArchive.newline_path {text : List Char}
    (h : PrintsArchive (encode text) stdout preamble members) :
    ∀ line ∈ (readText stdout).splitOn '\n', '\n' ∉ text ∨ ¬"File: ".toList <+: line := by
  intro line hline
  cases members with
  | nil =>
    right
    obtain ⟨rest, hrest, hsplit⟩ := splitOn_readText stdout
    rw [hsplit, h.lines_eq, printedLines, List.flatMap_nil, List.append_nil,
      List.mem_append] at hline
    rcases hline with hline | hline
    · exact h.preamble_line line hline
    · rcases hrest with rfl | rfl
      · cases hline
      · obtain rfl : line = [] := by simpa using hline
        simp
  | cons m members =>
    left
    have hnewline := h.newline_not_mem List.mem_cons_self
    rw [mem_printedHeading (by decide), not_or] at hnewline
    rw [← mem_encode_iff (b := 0x0A) (by decide) (by decide) (by decide)]
    exact hnewline.1

/-- What a member is read as. -/
private def chunkOf (m : PrintedMember) : Chunk := ⟨decodeText m.name, m.thin, readLines m.body⟩

private theorem unit_chunkOf (alnum : Char → Bool) (m : PrintedMember) :
    (chunkOf m).unit alnum = m.unit alnum := by
  rw [PrintedMember.unit, printedText_eq, parseUnit_terminated]
  rfl

private theorem readLines_member {text : List Char} {m : PrintedMember}
    (hnewline : 0x0A ∉ printedHeading (encode text) m.name m.thin)
    (hpath : 0x0D ∉ encode text) (hname : 0x0D ∉ m.name) :
    readLines (printedHeading (encode text) m.name m.thin :: m.body) =
      heading text (decodeText m.name) m.thin :: readLines m.body := by
  rw [readLines, List.flatMap_cons, linesOf_printedHeading hnewline hpath hname]
  rfl

private theorem readLines_printedLines {text : List Char}
    (h : ∀ m ∈ members, 0x0A ∉ printedHeading (encode text) m.name m.thin ∧
      0x0D ∉ encode text ∧ 0x0D ∉ m.name) :
    readLines (printedLines (encode text) members) = chunkLines text (members.map chunkOf) := by
  induction members with
  | nil => rfl
  | cons m members ih =>
    obtain ⟨⟨hnewline, hpath, hname⟩, hmembers⟩ := List.forall_mem_cons.mp h
    have hlines : printedLines (encode text) (m :: members) =
        (printedHeading (encode text) m.name m.thin :: m.body) ++
          printedLines (encode text) members := rfl
    rw [hlines, readLines, List.flatMap_append, ← readLines, ← readLines, ih hmembers,
      readLines_member hnewline hpath hname]
    rfl

/-- Legible members are found, each as it is. -/
theorem PrintsArchive.memberUnits_eq (h : PrintsArchive path stdout preamble members)
    (hlegible : ∀ m ∈ members, Legible path m) :
    memberUnits alnum (readText stdout)
        ((headingPattern (fsdecode path)).finditer (readText stdout)) =
      members.map (PrintedMember.unit alnum) := by
  by_cases hpath : ∃ text, path = encode text
  · obtain ⟨text, rfl⟩ := hpath
    have hcut : Cut text (readLines (stdout.splitOn 0x0A)) (readLines preamble)
        (members.map chunkOf) := by
      refine ⟨?_, fun line hline => not_headingForm_of_not_prefix (h.preamble_line line hline),
        List.forall_mem_map.mpr ?_⟩
      · rw [h.lines_eq, readLines, List.flatMap_append, ← readLines, ← readLines,
          readLines_printedLines]
        intro m hm
        exact ⟨h.newline_not_mem hm, (hlegible m hm).1, (hlegible m hm).2.1⟩
      · intro m hm line hline
        obtain ⟨-, -, text', htext, hbody⟩ := hlegible m hm
        obtain rfl := encode_injective htext
        apply hbody
        rw [splitOn_printedText]
        exact List.mem_append_left _ hline
    obtain ⟨preamble', chunks, hcut', hunits⟩ : ∃ preamble' chunks,
        Cut text ((readText stdout).splitOn '\n') preamble' chunks ∧
        chunks.map (Chunk.unit alnum) = (members.map chunkOf).map (Chunk.unit alnum) := by
      obtain ⟨rest, rfl | rfl, hsplit⟩ := splitOn_readText stdout
      · exact ⟨_, _, by rwa [hsplit, List.append_nil], rfl⟩
      · rw [hsplit]
        exact hcut.append_nil
    rw [fsdecode_encode, memberUnits_chunks hcut' h.newline_path, hunits, List.map_map]
    exact List.map_congr_left fun m _ => unit_chunkOf alnum m
  · obtain ⟨byte, hbyte⟩ := exists_surrogate (not_exists.mp hpath)
    have hnil : members = [] := by
      cases members with
      | nil => rfl
      | cons m members =>
        obtain ⟨-, -, text, htext, -⟩ := hlegible m List.mem_cons_self
        exact absurd ⟨text, htext⟩ hpath
    rw [finditer_surrogate hbyte, hnil]
    rfl

private theorem PrintsArchive.exists_chunks (alnum : Char → Bool)
    (h : PrintsArchive path stdout preamble members) :
    ∃ chunks : List Chunk, memberUnits alnum (readText stdout)
        ((headingPattern (fsdecode path)).finditer (readText stdout)) =
          chunks.map (Chunk.unit alnum) ∧
      (chunks ≠ [] → ∃ text preamble', path = encode text ∧
        Cut text ((readText stdout).splitOn '\n') preamble' chunks) := by
  by_cases hpath : ∃ text, path = encode text
  · obtain ⟨text, rfl⟩ := hpath
    obtain ⟨preamble', chunks, hcut⟩ := exists_cut text ((readText stdout).splitOn '\n')
    refine ⟨chunks, ?_, fun _ => ⟨text, preamble', rfl, hcut⟩⟩
    rw [fsdecode_encode, memberUnits_chunks hcut h.newline_path]
  · obtain ⟨byte, hbyte⟩ := exists_surrogate (not_exists.mp hpath)
    refine ⟨[], ?_, fun hne => absurd rfl hne⟩
    rw [finditer_surrogate hbyte]
    rfl

private theorem member_parseUnit (alnum : Char → Bool) (output : List Char) (member : String) :
    (parseUnit alnum output member).member = member := by
  unfold parseUnit
  split
  next unit hunit =>
    unfold parseElf at hunit
    dsimp only at hunit
    split_ifs at hunit <;> cases hunit <;> rfl
  next => rfl

private theorem parseUnit_not_mem (alnum : Char → Bool) (output : List Char) (member : String) :
    parseUnit alnum output member ∉ archiveUnits none [] := by
  unfold parseUnit
  split
  next unit hunit =>
    unfold parseElf at hunit
    dsimp only at hunit
    split_ifs at hunit <;> cases hunit <;> simp [archiveUnits]
  next text htext =>
    unfold parseElf at htext
    dsimp only at htext
    split_ifs at htext <;> cases htext <;> simp [archiveUnits]

/-- If the units are those of the members, all members are legible. -/
theorem PrintsArchive.legible (h : PrintsArchive path stdout preamble members)
    (hunits : memberUnits alnum (readText stdout)
        ((headingPattern (fsdecode path)).finditer (readText stdout)) =
      members.map (PrintedMember.unit alnum)) : ∀ m ∈ members, Legible path m := by
  obtain ⟨chunks, hchunks, hfound⟩ := h.exists_chunks alnum
  rw [hchunks] at hunits
  intro m₀ hm₀
  have hne : chunks ≠ [] := by
    rintro rfl
    have hlength := congrArg List.length hunits
    rw [List.map_nil, List.length_map] at hlength
    exact List.ne_nil_of_mem hm₀ (List.length_eq_zero_iff.mp hlength.symm)
  obtain ⟨text, preamble', rfl, hcut⟩ := hfound hne
  -- no line of the text has a carriage return
  have hcr : ∀ c ∈ chunks, '\r' ∉ heading text c.name c.thin := by
    intro c hc hmem
    have hline : heading text c.name c.thin ∈ (readText stdout).splitOn '\n' := by
      rw [hcut.lines_eq]
      exact List.mem_append_right _ (List.mem_flatMap.mpr ⟨c, hc, List.mem_cons_self⟩)
    exact cr_not_mem_newlines _ (mem_of_mem_splitOn hline hmem)
  have hpath : 0x0D ∉ encode text := by
    obtain ⟨c, hc⟩ := List.exists_mem_of_ne_nil chunks hne
    rw [mem_encode_iff (c := '\r') (by decide) (by decide) (by decide)]
    intro hmem
    exact hcr c hc (by simp [heading_eq, hmem])
  have hname : ∀ m ∈ members, 0x0D ∉ m.name := by
    intro m hm
    have hmem : m.unit alnum ∈ chunks.map (Chunk.unit alnum) := by
      rw [hunits]
      exact List.mem_map_of_mem hm
    obtain ⟨c, hc, hunit⟩ := List.mem_map.mp hmem
    have hnames := congrArg ArtifactUnit.member hunit
    rw [Chunk.unit, PrintedMember.unit, member_parseUnit, member_parseUnit] at hnames
    have hnames : c.name = decodeText m.name := String.ofList_injective hnames
    rw [← mem_decodeText_iff (c := '\r') (by decide) (by decide) (by decide), ← hnames]
    intro hmem
    apply hcr c hc
    cases c.thin <;> simp [heading_eq, hmem]
  have hlines : readLines (printedLines (encode text) members) =
      chunkLines text (members.map chunkOf) :=
    readLines_printedLines fun m hm => ⟨h.newline_not_mem hm, hpath, hname m hm⟩
  -- each member has its heading, so no body has one
  have hsum : ((members.map chunkOf).map fun c =>
      c.lines.countP (HeadingForm text ·)).sum = 0 := by
    have hlength : chunks.length = members.length := by simpa using congrArg List.length hunits
    obtain ⟨rest, -, hsplit⟩ := splitOn_readText stdout
    have hcount := hcut.length_chunks
    rw [hsplit, h.lines_eq, readLines, List.flatMap_append, ← readLines, ← readLines, hlines,
      List.countP_append, List.countP_append, countP_chunkLines, List.length_map,
      hlength] at hcount
    omega
  rw [List.sum_eq_zero_iff_forall_eq_nat, List.forall_mem_map, List.forall_mem_map] at hsum
  refine ⟨hpath, hname m₀ hm₀, text, rfl, ?_⟩
  have hbody := hsum m₀ hm₀
  rw [List.countP_eq_zero] at hbody
  rw [splitOn_printedText]
  exact List.forall_mem_append.mpr ⟨fun line hline => by simpa using hbody line hline,
    List.forall_mem_singleton.mpr (not_headingForm_nil text)⟩

private theorem isSome_diagnostic (output : ProcessOutput) :
    (diagnostic output.completed).isSome ↔
      output.returncode ≠ 0 ∨ strip (readText output.stderr) ≠ [] := by
  unfold diagnostic
  split_ifs with h
  · exact iff_of_true rfl h
  · exact iff_of_false Bool.false_ne_true h

private theorem eq_map_unit {diagnosed : Option Message} {units fileUnits : List ArtifactUnit}
    (hne : members ≠ [])
    (hunits : units ++ archiveUnits diagnosed units =
      members.map (PrintedMember.unit alnum) ++ fileUnits)
    (hfile : fileUnits.length = if diagnosed.isSome then 1 else 0) :
    units = members.map (PrintedMember.unit alnum) := by
  cases diagnosed with
  | some text => exact (List.append_inj' hunits hfile.symm).1
  | none =>
    obtain rfl : fileUnits = [] := List.length_eq_zero_iff.mp hfile
    rw [List.append_nil] at hunits
    cases units with
    | nil =>
      obtain ⟨m, hm⟩ := List.exists_mem_of_ne_nil members hne
      have hmem : m.unit alnum ∈ archiveUnits none [] := by
        rw [← List.nil_append (archiveUnits none []), hunits]
        exact List.mem_map_of_mem hm
      exact absurd hmem (parseUnit_not_mem alnum _ _)
    | cons unit units =>
      rw [← hunits]
      exact (List.append_nil _).symm

end Members

/-- `inspect` gives one unit for each member, in order, which says what `parse_elf` says of its
body alone, and behind them one error if `readelf` gave a diagnostic or there are no members,
exactly if all members are legible. -/
theorem archive_members_one_by_one (alnum : Char → Bool)
    {readelf : List UInt8 → Except Message ProcessOutput} {path : List UInt8}
    {output : ProcessOutput} (hrun : readelf path = .ok output) {preamble : List (List UInt8)}
    {members : List PrintedMember} (h : PrintsArchive path output.stdout preamble members) :
    (∃ fileUnits, inspect alnum readelf path .archive =
        .ok (members.map (PrintedMember.unit alnum) ++ fileUnits) ∧
      if output.returncode ≠ 0 ∨ strip (readText output.stderr) ≠ [] ∨ members = [] then
        ∃ text, fileUnits = [⟨"", .error text⟩]
      else fileUnits = []) ↔ ∀ m ∈ members, Legible path m := by
  have hdiagnostic := isSome_diagnostic output
  have hinspect : inspect alnum readelf path .archive = .ok
      (memberUnits alnum (readText output.stdout)
        ((headingPattern (fsdecode path)).finditer (readText output.stdout)) ++
      archiveUnits (diagnostic output.completed) (memberUnits alnum (readText output.stdout)
        ((headingPattern (fsdecode path)).finditer (readText output.stdout)))) := by
    rw [inspect, hrun]
    rfl
  rw [hinspect]
  generalize diagnostic output.completed = diagnosed at hdiagnostic ⊢
  constructor
  · rintro ⟨fileUnits, hunits, hfile⟩
    by_cases hne : members = []
    · simp [hne]
    have hlength : fileUnits.length = if diagnosed.isSome then 1 else 0 := by
      by_cases hsome : diagnosed.isSome
      · rw [if_pos (or_assoc.mp (.inl (hdiagnostic.mp hsome)))] at hfile
        obtain ⟨text, rfl⟩ := hfile
        rw [if_pos hsome, List.length_singleton]
      · rw [if_neg (fun hcond => (or_assoc.mpr hcond).elim (hsome ∘ hdiagnostic.mpr) hne)] at hfile
        rw [hfile, if_neg hsome, List.length_nil]
    exact h.legible (eq_map_unit hne (Except.ok.inj hunits) hlength)
  · intro hlegible
    rw [h.memberUnits_eq hlegible]
    refine ⟨_, rfl, ?_⟩
    cases diagnosed with
    | some text =>
      rw [if_pos (or_assoc.mp (.inl (hdiagnostic.mp rfl)))]
      exact ⟨_, rfl⟩
    | none =>
      have hquiet := mt hdiagnostic.mpr Bool.false_ne_true
      cases members with
      | nil =>
        rw [if_pos (.inr (.inr rfl))]
        exact ⟨_, rfl⟩
      | cons m members =>
        rw [if_neg (fun hcond => (or_assoc.mpr hcond).elim hquiet (List.cons_ne_nil m members))]
        rfl

/-- Two members of one name, of which the second is not an ELF file. -/
def twoMembers : List PrintedMember :=
  [⟨encode "same.o".toList, false, [encode "ELF Header:".toList, []]⟩,
    ⟨encode "same.o".toList, true, [encode ")]".toList, encode "not an ELF file".toList]⟩]

def twoMembersOutput : ProcessOutput where
  returncode := 1
  stdout := encode
    "\nFile: a.a(same.o)\nELF Header:\n\nFile: a.a[same.o]\n)]\nnot an ELF file".toList
  stderr := encode "readelf: Error: Not an ELF file\n".toList

theorem archive_members_one_by_one_two : ∃ fileUnits text,
    inspect Char.isAlphanum (fun _ => .ok twoMembersOutput) (encode "a.a".toList) .archive =
      .ok (twoMembers.map (PrintedMember.unit Char.isAlphanum) ++ fileUnits) ∧
    fileUnits = [⟨"", .error text⟩] := by
  have hprints : PrintsArchive (encode "a.a".toList) twoMembersOutput.stdout [[]] twoMembers :=
    ⟨by decide +kernel, by decide +kernel⟩
  have hlegible : ∀ m ∈ twoMembers, Legible (encode "a.a".toList) m := by
    have hlines : ∀ m ∈ twoMembers, 0x0D ∉ encode "a.a".toList ∧ 0x0D ∉ m.name ∧
        ∀ line ∈ (printedText m.body).splitOn '\n', ¬HeadingForm "a.a".toList line := by
      decide +kernel
    intro m hm
    obtain ⟨hpath, hname, hbody⟩ := hlines m hm
    exact ⟨hpath, hname, _, rfl, hbody⟩
  obtain ⟨fileUnits, hunits, hfile⟩ := (@archive_members_one_by_one Char.isAlphanum
    (fun _ => .ok twoMembersOutput) _ _ rfl _ _ hprints).mpr hlegible
  rw [if_pos (.inl (by decide))] at hfile
  obtain ⟨text, hfile⟩ := hfile
  exact ⟨fileUnits, text, hunits, hfile⟩

/-- The name of the second member has a carriage return. -/
def returnMembers : List PrintedMember :=
  [⟨encode "a.o".toList, false, [encode "ELF Header:".toList, []]⟩,
    ⟨encode "b\r.o".toList, false, [encode "ELF Header:".toList]⟩]

def returnOutput : ProcessOutput where
  returncode := 0
  stdout := encode "\nFile: a.a(a.o)\nELF Header:\n\nFile: a.a(b\r.o)\nELF Header:".toList
  stderr := []

theorem archive_member_lost :
    PrintsArchive (encode "a.a".toList) returnOutput.stdout [[]] returnMembers ∧
    (∀ m ∈ returnMembers, 0x0A ∉ m.name ∧
      ∀ line ∈ m.body, ∀ name thin, line ≠ printedHeading (encode "a.a".toList) name thin) ∧
    ¬∃ fileUnits, inspect Char.isAlphanum (fun _ => .ok returnOutput) (encode "a.a".toList) .archive =
      .ok (returnMembers.map (PrintedMember.unit Char.isAlphanum) ++ fileUnits) := by
  refine ⟨⟨by decide +kernel, by decide +kernel⟩, ?_, ?_⟩
  · have hfirst : ∀ m ∈ returnMembers, 0x0A ∉ m.name ∧
        ∀ line ∈ m.body, line.head? ≠ some 0x46 := by decide +kernel
    intro m hm
    refine ⟨(hfirst m hm).1, ?_⟩
    rintro line hline name thin rfl
    exact (hfirst m hm).2 _ hline rfl
  · rintro ⟨fileUnits, hunits⟩
    have hone : (inspect Char.isAlphanum (fun _ => .ok returnOutput) (encode "a.a".toList)
        .archive).map List.length = .ok 1 := by decide +kernel
    rw [hunits, Except.map, Except.ok.injEq, List.length_append] at hone
    have hmembers : (returnMembers.map (PrintedMember.unit Char.isAlphanum)).length = 2 := by
      rw [List.length_map]
      rfl
    omega

end ApacheFuzz.BuildCheck
