import ApacheFuzz.BuildCheck.Inspect
import Mathlib

/-!
# The chunks of an archive

The headings that `inspect` finds are the lines of the heading form, each as a whole, and
`parse_elf` reads the same in the text between two headings as in the lines between them.
-/

namespace ApacheFuzz.BuildCheck

open PyText Regex TextMode

/-- The heading of a member; the members of a thin archive stand in square brackets. -/
def heading (path : List Char) (name : List Char) (thin : Bool) : List Char :=
  "File: ".toList ++ path ++ if thin then '[' :: name ++ [']'] else '(' :: name ++ [')']

theorem heading_eq (path : List Char) (name : List Char) (thin : Bool) : heading path name thin =
    "File: ".toList ++ path ++
      if thin then '[' :: name ++ [']'] else '(' :: name ++ [')'] := by
  delta heading
  rfl

def HeadingForm (path : List Char) (line : List Char) : Prop :=
  ∃ name thin, line = heading path name thin

/-- The name between an opening bracket and the last character of the line. -/
def bracketed (i : Nat) (closing : Char) (rest : List Char) : Option Groups :=
  if rest.getLast? = some closing then some [(i, rest.dropLast)] else none

/-- The groups behind the path of a heading. -/
def memberGroups : List Char → Option Groups
  | '(' :: rest => bracketed 1 ')' rest
  | '[' :: rest => bracketed 2 ']' rest
  | _ => none

/-- The groups of a line of the heading form. -/
def headingGroups (path : List Char) (line : List Char) : Option Groups :=
  if "File: ".toList ++ path <+: line then
    memberGroups (line.drop ("File: ".toList ++ path).length)
  else none

private theorem bracketed_append (i : Nat) (closing : Char) (name : List Char) :
    bracketed i closing (name ++ [closing]) = some [(i, name)] := by
  simp [bracketed]

private theorem eq_append_of_bracketed {i : Nat} {closing : Char} {rest : List Char}
    {groups : Groups}
    (h : bracketed i closing rest = some groups) : ∃ name, rest = name ++ [closing] := by
  unfold bracketed at h
  split_ifs at h with hlast
  exact ⟨_, (List.dropLast_append_getLast? _ hlast).symm⟩

private theorem headingGroups_append (path : List Char) (rest : List Char) :
    headingGroups path ("File: ".toList ++ path ++ rest) = memberGroups rest := by
  rw [headingGroups, if_pos (List.prefix_append _ _), List.drop_left]

private theorem headingGroups_heading (path : List Char) (name : List Char) (thin : Bool) :
    headingGroups path (heading path name thin) = some [(if thin then 2 else 1, name)] := by
  rw [heading_eq, headingGroups_append]
  cases thin with
  | false => exact bracketed_append 1 ')' name
  | true => exact bracketed_append 2 ']' name

private theorem headingGroups_eq_none {path : List Char} {line : List Char}
    (h : ¬HeadingForm path line) : headingGroups path line = none := by
  by_contra hsome
  obtain ⟨groups, hgroups⟩ := Option.ne_none_iff_exists'.mp hsome
  apply h
  by_cases hbegins : "File: ".toList ++ path <+: line
  · obtain ⟨rest, rfl⟩ := hbegins
    rw [headingGroups_append] at hgroups
    unfold memberGroups at hgroups
    split at hgroups
    · obtain ⟨name, rfl⟩ := eq_append_of_bracketed hgroups
      exact ⟨name, false, rfl⟩
    · obtain ⟨name, rfl⟩ := eq_append_of_bracketed hgroups
      exact ⟨name, true, rfl⟩
    · cases hgroups
  · rw [headingGroups, if_neg hbegins] at hgroups
    cases hgroups

private theorem headingForm_iff {path : List Char} {line : List Char} :
    HeadingForm path line ↔ headingGroups path line ≠ none := by
  constructor
  · rintro ⟨name, thin, rfl⟩
    simp [headingGroups_heading]
  · intro h
    by_contra hform
    exact h (headingGroups_eq_none hform)

instance (path : List Char) (line : List Char) : Decidable (HeadingForm path line) :=
  decidable_of_iff' _ headingForm_iff

private theorem ways_bracketed (i : Nat) {closing : Char} (hclosing : closing ≠ '\n')
    {rest after : List Char} (before : List Char) (hrest : '\n' ∉ rest) (hafter : AtLineEnd after) :
    ways (.seq (.group i (.run (· != '\n'))) (.seq (.lit [closing]) .lineEnd))
        ⟨before, rest ++ after⟩ =
      ((bracketed i closing rest).map fun groups =>
        (groups, ⟨rest.reverse ++ before, after⟩)).toList := by
  have hchars : ∀ a ∈ rest, (a != '\n') = true := by
    intro a ha
    rw [bne_iff_ne]
    exact fun h => hrest (h ▸ ha)
  have hnext : after.head?.any (· != '\n') = false := by
    rcases hafter with rfl | hnewline
    · rfl
    · rw [hnewline]
      rfl
  have hclose (before : List Char) : ways (.seq (.lit [closing]) .lineEnd)
      ⟨before, closing :: after⟩ = [([], ⟨closing :: before, after⟩)] := by
    have hlit := ways_seq_lit [closing] before after .lineEnd
    rw [List.singleton_append] at hlit
    rw [hlit, ways_lineEnd hafter]
    rfl
  have hother (before : List Char) (a : Char) (y : List Char)
      (hy : ∀ b ∈ y, (b != '\n') = true) (hne : ¬(a = closing ∧ y = [])) :
      ways (.seq (.lit [closing]) .lineEnd) ⟨before, a :: (y ++ after)⟩ = [] := by
    by_cases ha : a = closing
    · subst ha
      have hlit := ways_seq_lit [a] before (y ++ after) .lineEnd
      rw [List.singleton_append] at hlit
      rw [hlit, ways_lineEnd_eq_nil]
      cases y with
      | nil => exact absurd ⟨rfl, rfl⟩ hne
      | cons b y => simpa [AtLineEnd] using hy b (by simp)
    · exact ways_seq_lit_eq_nil before .lineEnd (by simp [Ne.symm ha])
  have hend (before : List Char) : ways (.seq (.lit [closing]) .lineEnd) ⟨before, after⟩ = [] := by
    apply ways_seq_lit_eq_nil
    rcases hafter with rfl | hnewline
    · simp
    · cases after with
      | nil => simp
      | cons b after => simp_all
  rw [ways_seq_group_run, runs_last before hchars hnext _ closing]
  · unfold bracketed
    split_ifs with hlast
    · have hsplit := List.dropLast_append_getLast? _ hlast
      rw [hclose]
      generalize rest.dropLast = name at hsplit ⊢
      subst hsplit
      simp
    · rfl
  · intro before a y hy hne
    rw [hother before a y hy hne]
    rfl
  · intro before
    rw [hend before]
    rfl

private theorem ways_bracket (opening closing : List Char) (i : Nat) (c : Cursor) :
    ways (.seq (.inOrder [.lit opening, .group i (.run (· != '\n')), .lit closing])
        (.seq .lineEnd .empty)) c =
      ways (.seq (.lit opening) (.seq (.group i (.run (· != '\n')))
        (.seq (.lit closing) .lineEnd))) c := by
  simp [inOrder, ways, List.flatMap_assoc, List.flatMap_map, List.map_flatMap, Function.comp_def]

private theorem ways_member {before rest after : List Char} (hrest : '\n' ∉ rest)
    (hafter : AtLineEnd after) :
    ways (.seq (.alt (.inOrder [lit "(", .group 1 (.run (· != '\n')), lit ")"])
        (.inOrder [lit "[", .group 2 (.run (· != '\n')), lit "]"])) (.seq .lineEnd .empty))
        ⟨before, rest ++ after⟩ =
      ((memberGroups rest).map fun groups => (groups, ⟨rest.reverse ++ before, after⟩)).toList := by
  have hother {opening : Char} (hopening : '\n' ≠ opening) (hhead : rest.head? ≠ some opening)
      (s : Regex) : ways (.seq (.lit [opening]) s) ⟨before, rest ++ after⟩ = [] := by
    apply ways_seq_lit_eq_nil
    rw [prefix_append_iff (by simpa using hopening) hafter]
    rintro ⟨rest', rfl⟩
    exact hhead rfl
  have hopen (opening : Char) (rest' : List Char) (h : rest = opening :: rest') (s : Regex) :
      ways (.seq (.lit [opening]) s) ⟨before, rest ++ after⟩ =
        ways s ⟨opening :: before, rest' ++ after⟩ := by
    subst h
    exact ways_seq_lit [opening] before (rest' ++ after) s
  rw [ways_seq_alt, show lit "(" = .lit ['('] from rfl, show lit ")" = .lit [')'] from rfl,
    show lit "[" = .lit ['['] from rfl, show lit "]" = .lit [']'] from rfl, ways_bracket,
    ways_bracket]
  unfold memberGroups
  split
  next rest' =>
    rw [hopen '(' rest' rfl, ways_bracketed 1 (by decide) _ (by simp_all) hafter,
      hother (by decide) (by simp), List.append_nil]
    simp
  next rest' =>
    rw [hopen '[' rest' rfl, ways_bracketed 2 (by decide) _ (by simp_all) hafter,
      hother (by decide) (by simp), List.nil_append]
    simp
  next hparen hsquare =>
    rw [hother (by decide), hother (by decide)]
    · rfl
    · intro hhead
      obtain ⟨rest', rfl⟩ := List.head?_eq_some_iff.mp hhead
      exact hsquare rest' rfl
    · intro hhead
      obtain ⟨rest', rfl⟩ := List.head?_eq_some_iff.mp hhead
      exact hparen rest' rfl

private theorem escape_map (path : List Char) : escape (path.map .char) = Regex.lit path := by
  induction path with
  | nil => rfl
  | cons c path ih => rw [List.map_cons, escape, ih, Regex.lit]

private theorem ways_heading {path before line after : List Char} (hbefore : AtLineStart before)
    (hline : '\n' ∉ line) (hafter : AtLineEnd after)
    (hpath : '\n' ∉ path ∨ ¬"File: ".toList <+: line) :
    ways (headingPattern (path.map .char)) ⟨before, line ++ after⟩ =
      ((headingGroups path line).map fun groups =>
        (groups, ⟨line.reverse ++ before, after⟩)).toList := by
  have hstart (s : Regex) : ways (.seq .lineStart s) ⟨before, line ++ after⟩ =
      ways s ⟨before, line ++ after⟩ := by
    have hway := ways_lineStart (c := ⟨before, line ++ after⟩) hbefore
    rw [ways, hway]
    simp
  rw [headingPattern, inOrder, hstart, escape_map]
  by_cases hfile : "File: ".toList <+: line
  · obtain ⟨rest, rfl⟩ := hfile
    have hpath' : '\n' ∉ path := hpath.resolve_right (not_not_intro (List.prefix_append _ _))
    rw [inOrder, List.append_assoc, lit, ways_seq_lit, inOrder]
    by_cases hname : path <+: rest
    · obtain ⟨rest, rfl⟩ := hname
      rw [List.append_assoc, ways_seq_lit, ← List.append_assoc _ path, headingGroups_append]
      have hrest : '\n' ∉ rest := by
        intro h
        exact hline (by simp [h])
      have hmember := @ways_member (path.reverse ++ ("File: ".toList.reverse ++ before)) _ _
        hrest hafter
      simpa [inOrder] using hmember
    · have hname' : ¬"File: ".toList ++ path <+: "File: ".toList ++ rest := by
        rwa [List.prefix_append_right_inj]
      rw [headingGroups, if_neg hname',
        ways_seq_lit_eq_nil _ _ (by rwa [prefix_append_iff hpath' hafter])]
      rfl
  · have hfile' : ¬"File: ".toList ++ path <+: line := by
      intro h
      exact hfile ((List.prefix_append _ _).trans h)
    rw [headingGroups, if_neg hfile', inOrder, lit,
      ways_seq_lit_eq_nil _ _ (by rwa [prefix_append_iff (by decide) hafter])]
    rfl

private theorem matchAt_heading {path : List Char} {before line after : List Char}
    (hbefore : AtLineStart before) (hline : '\n' ∉ line) (hafter : AtLineEnd after)
    (hpath : '\n' ∉ path ∨ ¬"File: ".toList <+: line) :
    (headingPattern (path.map .char)).matchAt before (line ++ after) =
      (headingGroups path line).map fun groups =>
        ⟨before.length, before.length + line.length, groups⟩ := by
  rw [matchAt, ways_heading hbefore hline hafter hpath]
  cases headingGroups path line with
  | none => rfl
  | some groups => simp

private theorem matchAt_inLine (path : List Char) (a : Char) (before after : List Char)
    (ha : a ≠ '\n') : (headingPattern (path.map .char)).matchAt (a :: before) after = none := by
  simp [matchAt, headingPattern, inOrder, ways, ha]

section Read

variable {alnum : Char → Bool}

theorem readLine_nil (s : Scan) : readLine alnum s [] = s := rfl

private theorem foldl_readLine_filter (lines : List (List Char)) (s : Scan) :
    (lines.filter (· ≠ [])).foldl (readLine alnum) s = lines.foldl (readLine alnum) s := by
  induction lines generalizing s with
  | nil => rfl
  | cons line lines ih =>
    cases line with
    | nil => simpa [readLine_nil] using ih s
    | cons a line => simpa using ih (readLine alnum s (a :: line))

private theorem parseElf_congr {output output' : List Char} (member : String)
    (h : (splitlines output).filter (· ≠ []) = (splitlines output').filter (· ≠ [])) :
    parseElf alnum output member = parseElf alnum output' member := by
  have hscan : (splitlines output).foldl (readLine alnum) {} =
      (splitlines output').foldl (readLine alnum) {} := by
    rw [← foldl_readLine_filter, h, foldl_readLine_filter]
  unfold parseElf
  rw [hscan]

private theorem parseElf_newline (output : List Char) (member : String) :
    parseElf alnum ('\n' :: output) member = parseElf alnum output member := by
  apply parseElf_congr
  rw [splitlines_newline]
  rfl

private theorem parseElf_append_newline (output : List Char) (member : String) :
    parseElf alnum (output ++ ['\n']) member = parseElf alnum output member :=
  parseElf_congr member (filter_splitlinesFrom_newline [] output)

end Read

/-- A heading and the lines up to the next one. -/
structure Chunk where
  name : List Char
  thin : Bool
  lines : List (List Char)

def chunkLines (path : List Char) (chunks : List Chunk) : List (List Char) :=
  chunks.flatMap fun chunk => heading path chunk.name chunk.thin :: chunk.lines

def Chunk.unit (alnum : Char → Bool) (chunk : Chunk) : ArtifactUnit :=
  parseUnit alnum (['\n'].intercalate chunk.lines) (String.ofList chunk.name)

/-- Lines with their ends. -/
def terminated (lines : List (List Char)) : List Char := lines.flatMap (· ++ ['\n'])

private theorem terminated_cons (line : List Char) (lines : List (List Char)) :
    terminated (line :: lines) = line ++ '\n' :: terminated lines := by
  simp [terminated]

private theorem intercalate_append {lines lines' : List (List Char)} (h : lines' ≠ []) :
    ['\n'].intercalate (lines ++ lines') = terminated lines ++ ['\n'].intercalate lines' := by
  induction lines with
  | nil => rfl
  | cons line lines ih =>
    have hne : lines ++ lines' ≠ [] := List.append_ne_nil_of_right_ne_nil lines h
    rw [List.cons_append, List.intercalate_cons_of_ne_nil hne, ih, terminated_cons]
    simp

theorem terminated_eq {lines : List (List Char)} (h : lines ≠ []) :
    terminated lines = ['\n'].intercalate lines ++ ['\n'] := by
  induction lines with
  | nil => exact absurd rfl h
  | cons line lines ih =>
    cases lines with
    | nil => simp [terminated]
    | cons line' lines =>
      rw [terminated_cons, ih (by simp), List.intercalate_cons_cons]
      simp

private theorem parseUnit_newline (alnum : Char → Bool) (output : List Char) (member : String) :
    parseUnit alnum ('\n' :: output) member = parseUnit alnum output member := by
  rw [parseUnit, parseElf_newline]
  rfl

theorem parseUnit_terminated (alnum : Char → Bool) (body : List (List Char)) (member : String) :
    parseUnit alnum (terminated body) member =
      parseUnit alnum (['\n'].intercalate body) member := by
  cases body with
  | nil => rfl
  | cons line lines =>
    rw [terminated_eq (by simp), parseUnit, parseElf_append_newline]
    rfl

private theorem lineMatches_append {form : List Char → Option Groups} {lines : List (List Char)}
    (h : ∀ line ∈ lines, form line = none) (start : Nat) (lines' : List (List Char)) :
    lineMatches form start (lines ++ lines') =
      lineMatches form (start + (terminated lines).length) lines' := by
  induction lines generalizing start with
  | nil => rfl
  | cons line lines ih =>
    have hline : form line = none := h line (by simp)
    have hrest := ih (fun line' hline' => h line' (by simp [hline'])) (start + line.length + 1)
    have hlength : (terminated (line :: lines)).length =
        line.length + 1 + (terminated lines).length := by
      rw [terminated_cons, List.length_append, List.length_cons]
      omega
    rw [List.cons_append, lineMatches, hline, hrest, hlength, ← Nat.add_assoc, ← Nat.add_assoc]
    rfl

section Members

variable {alnum : Char → Bool} {path : List Char}

private theorem lineMatches_chunkLines {c : Chunk} (chunks : List Chunk)
    (hbody : ∀ line ∈ c.lines, ¬HeadingForm path line) (start : Nat) :
    lineMatches (headingGroups path) start (chunkLines path (c :: chunks)) =
      ⟨start, start + (heading path c.name c.thin).length, [(if c.thin then 2 else 1, c.name)]⟩ ::
        lineMatches (headingGroups path)
          (start + (heading path c.name c.thin ++ '\n' :: terminated c.lines).length)
          (chunkLines path chunks) := by
  have hnone : ∀ line ∈ c.lines, headingGroups path line = none :=
    fun line hline => headingGroups_eq_none (hbody line hline)
  have hlines : chunkLines path (c :: chunks) =
      heading path c.name c.thin :: (c.lines ++ chunkLines path chunks) := rfl
  rw [hlines, lineMatches, headingGroups_heading, lineMatches_append hnone]
  simp [Nat.add_assoc, Nat.add_comm 1]

private theorem headingMember_eq (start stop : Nat) (thin : Bool) (name : List Char) :
    headingMember ⟨start, stop, [(if thin then 2 else 1, name)]⟩ = String.ofList name := by
  cases thin <;> rfl

private theorem memberUnits_cons (stdout : List Char) (found : Regex.Match)
    (headings : List Regex.Match) : memberUnits alnum stdout (found :: headings) =
      parseUnit alnum ((stdout.take ((headings.head?.map Match.start).getD stdout.length)).drop
        found.stop) (headingMember found) :: memberUnits alnum stdout headings := by
  cases headings <;> rfl

/-- The units are those of the chunks, whatever is printed before them. -/
theorem memberUnits_chunkLines {chunks : List Chunk}
    (hbody : ∀ c ∈ chunks, ∀ line ∈ c.lines, ¬HeadingForm path line) (before : List Char) :
    memberUnits alnum (before ++ ['\n'].intercalate (chunkLines path chunks))
        (lineMatches (headingGroups path) before.length (chunkLines path chunks)) =
      chunks.map (Chunk.unit alnum) := by
  induction chunks generalizing before with
  | nil => rfl
  | cons c chunks ih =>
    have hc : ∀ line ∈ c.lines, ¬HeadingForm path line := hbody c (by simp)
    rw [lineMatches_chunkLines chunks hc, List.map_cons]
    cases chunks with
    | nil =>
      have hslice : (before ++ ['\n'].intercalate (heading path c.name c.thin :: c.lines)).drop
          (before.length + (heading path c.name c.thin).length) =
            (['\n'].intercalate (heading path c.name c.thin :: c.lines)).drop
              (heading path c.name c.thin).length := List.drop_length_add_append _
      have hlines : chunkLines path [c] = heading path c.name c.thin :: c.lines := by
        simp [chunkLines]
      have hunit : parseUnit alnum ((['\n'].intercalate
          (heading path c.name c.thin :: c.lines)).drop (heading path c.name c.thin).length)
            (String.ofList c.name) = c.unit alnum := by
        cases hcases : c.lines with
        | nil => simp [Chunk.unit, hcases]
        | cons line lines =>
          rw [List.intercalate_cons_cons, List.append_assoc, List.drop_left,
            List.singleton_append, parseUnit_newline, Chunk.unit, hcases]
      have hlast : lineMatches (headingGroups path) (before.length +
          (heading path c.name c.thin ++ '\n' :: terminated c.lines).length)
          (chunkLines path []) = [] := rfl
      rw [hlines, hlast, memberUnits_cons, headingMember_eq, List.head?_nil, Option.map_none,
        Option.getD_none, List.take_length, hslice, hunit]
      rfl
    | cons c' chunks =>
      have hc' : ∀ line ∈ c'.lines, ¬HeadingForm path line := hbody c' (by simp)
      have hrest := ih (fun c'' h => hbody c'' (List.mem_cons_of_mem c h))
        (before ++ (heading path c.name c.thin ++ '\n' :: terminated c.lines))
      have htext : before ++ ['\n'].intercalate (chunkLines path (c :: c' :: chunks)) =
          before ++ (heading path c.name c.thin ++ '\n' :: terminated c.lines) ++
            ['\n'].intercalate (chunkLines path (c' :: chunks)) := by
        have hlines : chunkLines path (c :: c' :: chunks) =
            (heading path c.name c.thin :: c.lines) ++ chunkLines path (c' :: chunks) := rfl
        rw [hlines, intercalate_append (by simp [chunkLines]), terminated_cons,
          List.append_assoc before]
      have hlength : before.length +
          (heading path c.name c.thin ++ '\n' :: terminated c.lines).length =
          (before ++ (heading path c.name c.thin ++ '\n' :: terminated c.lines)).length :=
        List.length_append.symm
      rw [htext, memberUnits_cons, hlength, hrest, headingMember_eq,
        lineMatches_chunkLines chunks hc', List.head?_cons, Option.map_some, Option.getD_some,
        List.take_left, List.drop_length_add_append, List.drop_left, parseUnit_newline,
        parseUnit_terminated]
      rfl

private theorem headingForm_heading (path name : List Char) (thin : Bool) :
    HeadingForm path (heading path name thin) := ⟨name, thin, rfl⟩

theorem not_headingForm_nil (path : List Char) : ¬HeadingForm path [] := by
  rw [headingForm_iff, headingGroups, if_neg] <;> simp

/-- The lines that one text is cut into. -/
structure Cut (path : List Char) (lines preamble : List (List Char)) (chunks : List Chunk) :
    Prop where
  lines_eq : lines = preamble ++ chunkLines path chunks
  preamble : ∀ line ∈ preamble, ¬HeadingForm path line
  chunks : ∀ c ∈ chunks, ∀ line ∈ c.lines, ¬HeadingForm path line

theorem exists_cut (path : List Char) (lines : List (List Char)) :
    ∃ preamble chunks, Cut path lines preamble chunks := by
  induction lines with
  | nil => exact ⟨[], [], rfl, by simp, by simp⟩
  | cons line lines ih =>
    obtain ⟨preamble, chunks, hcut⟩ := ih
    by_cases hform : HeadingForm path line
    · obtain ⟨name, thin, rfl⟩ := hform
      refine ⟨[], ⟨name, thin, preamble⟩ :: chunks, ?_, by simp, ?_⟩
      · rw [hcut.lines_eq]
        rfl
      · exact List.forall_mem_cons.mpr ⟨hcut.preamble, hcut.chunks⟩
    · refine ⟨line :: preamble, chunks, ?_, ?_, hcut.chunks⟩
      · rw [hcut.lines_eq, List.cons_append]
      · exact List.forall_mem_cons.mpr ⟨hform, hcut.preamble⟩

private theorem countP_heading_eq_zero {lines : List (List Char)}
    (h : ∀ line ∈ lines, ¬HeadingForm path line) :
    lines.countP (HeadingForm path ·) = 0 := by
  simpa [List.countP_eq_zero] using h

theorem countP_chunkLines (path : List Char) (chunks : List Chunk) :
    (chunkLines path chunks).countP (HeadingForm path ·) =
      chunks.length + (chunks.map fun c => c.lines.countP (HeadingForm path ·)).sum := by
  induction chunks with
  | nil => rfl
  | cons c chunks ih =>
    have hlines : chunkLines path (c :: chunks) =
        heading path c.name c.thin :: (c.lines ++ chunkLines path chunks) := rfl
    rw [hlines, List.countP_cons_of_pos (by simpa using headingForm_heading ..),
      List.countP_append, ih, List.length_cons, List.map_cons, List.sum_cons]
    omega

theorem Cut.length_chunks {lines preamble : List (List Char)} {chunks : List Chunk}
    (h : Cut path lines preamble chunks) :
    chunks.length = lines.countP (HeadingForm path ·) := by
  have hnone : (chunks.map fun c => c.lines.countP (HeadingForm path ·)).sum = 0 := by
    rw [List.sum_eq_zero_iff_forall_eq_nat, List.forall_mem_map]
    exact fun c hc => countP_heading_eq_zero (h.chunks c hc)
  rw [h.lines_eq, List.countP_append, countP_heading_eq_zero h.preamble, countP_chunkLines, hnone]
  omega

private theorem unit_append_nil (alnum : Char → Bool) (c : Chunk) :
    Chunk.unit alnum { c with lines := c.lines ++ [[]] } = c.unit alnum := by
  have hlines : ['\n'].intercalate (c.lines ++ [[]]) = terminated c.lines := by
    rw [intercalate_append (by simp)]
    simp
  rw [Chunk.unit, hlines, parseUnit_terminated, Chunk.unit]

theorem Cut.append_nil {lines preamble : List (List Char)} {chunks : List Chunk}
    (h : Cut path lines preamble chunks) : ∃ preamble' chunks',
      Cut path (lines ++ [[]]) preamble' chunks' ∧
      chunks'.map (Chunk.unit alnum) = chunks.map (Chunk.unit alnum) := by
  rcases List.eq_nil_or_concat chunks with rfl | ⟨chunks, last, rfl⟩
  · refine ⟨preamble ++ [[]], [], ⟨by simp [h.lines_eq, chunkLines], ?_, by simp⟩, rfl⟩
    exact List.forall_mem_append.mpr ⟨h.preamble, by simp [not_headingForm_nil]⟩
  · rw [List.concat_eq_append] at h ⊢
    obtain ⟨hchunks, hlast⟩ := List.forall_mem_append.mp h.chunks
    refine ⟨preamble, chunks ++ [{ last with lines := last.lines ++ [[]] }], ⟨?_, h.preamble, ?_⟩, ?_⟩
    · simp [h.lines_eq, chunkLines]
    · refine List.forall_mem_append.mpr ⟨hchunks, List.forall_mem_singleton.mpr ?_⟩
      exact List.forall_mem_append.mpr ⟨hlast last (by simp), by simp [not_headingForm_nil]⟩
    · simp [unit_append_nil]

private theorem finditer_headings {stdout : List Char} {preamble : List (List Char)}
    {chunks : List Chunk} (hcut : Cut path (stdout.splitOn '\n') preamble chunks)
    (hpath : ∀ line ∈ stdout.splitOn '\n', '\n' ∉ path ∨ ¬"File: ".toList <+: line) :
    (headingPattern (path.map .char)).finditer stdout =
      lineMatches (headingGroups path) (terminated preamble).length (chunkLines path chunks) := by
  have hnone : ∀ line ∈ preamble, headingGroups path line = none :=
    fun line hline => headingGroups_eq_none (hcut.preamble line hline)
  have hempty : headingGroups path [] = none := headingGroups_eq_none (not_headingForm_nil path)
  rw [finditer_lines (matchAt_inLine path) hempty, hcut.lines_eq, lineMatches_append hnone,
    Nat.zero_add]
  intro line hline before after hbefore hafter
  exact matchAt_heading hbefore (not_mem_of_mem_splitOn hline) hafter (hpath line hline)

/-- The units of an archive are those of the chunks of its text. -/
theorem memberUnits_chunks {stdout : List Char} {preamble : List (List Char)}
    {chunks : List Chunk} (hcut : Cut path (stdout.splitOn '\n') preamble chunks)
    (hpath : ∀ line ∈ stdout.splitOn '\n', '\n' ∉ path ∨ ¬"File: ".toList <+: line) :
    memberUnits alnum stdout ((headingPattern (path.map .char)).finditer stdout) =
      chunks.map (Chunk.unit alnum) := by
  rw [finditer_headings hcut hpath]
  cases chunks with
  | nil => rfl
  | cons c chunks =>
    have htext : stdout = terminated preamble ++
        ['\n'].intercalate (chunkLines path (c :: chunks)) := by
      rw [← intercalate_append (by simp [chunkLines]), ← hcut.lines_eq, List.intercalate_splitOn]
    rw [htext]
    exact memberUnits_chunkLines hcut.chunks (terminated preamble)

end Members

section Surrogates

variable {path : List PyChar} {byte : UInt8}

private theorem ways_escape_surrogate (h : .surrogate byte ∈ path) (c : Cursor) :
    ways (escape path) c = [] := by
  induction path generalizing c with
  | nil => cases h
  | cons a path ih =>
    cases a with
    | surrogate _ =>
      obtain ⟨before, after⟩ := c
      cases after <;> rfl
    | char a =>
      have hmem : .surrogate byte ∈ path := by simpa using h
      simp [escape, ways_seq, ih hmem]

theorem finditer_surrogate (h : .surrogate byte ∈ path) (stdout : List Char) :
    (headingPattern path).finditer stdout = [] := by
  have hnone (before after : List Char) : (headingPattern path).matchAt before after = none := by
    simp [matchAt, headingPattern, inOrder, ways_seq, ways_escape_surrogate h]
  have hfrom (before : List Char) : finditerFrom (headingPattern path) 0 before stdout = [] := by
    induction stdout generalizing before with
    | nil => simp [finditerFrom, hnone]
    | cons a stdout ih => simp [finditerFrom, hnone, ih]
  exact hfrom []

end Surrogates

end ApacheFuzz.BuildCheck
