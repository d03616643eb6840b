import Mathlib.Data.List.Basic

/-!
# Backtracking regular expressions

Patterns repeat single characters of a class only.  A pattern at a place of a text has a
list of ways to match, in the order in which a backtracking matcher tries them; the match
it reports is the first way.
-/

/-- A place in a text: the characters before it, last first, and those behind it. -/
structure Regex.Cursor where
  before : List Char
  after : List Char
  deriving DecidableEq

inductive Regex
  | empty
  /-- One character of a class. -/
  | one (p : Char → Bool)
  /-- As many characters of a class as possible. -/
  | run (p : Char → Bool)
  | seq (r s : Regex)
  /-- The left pattern, or else the right one. -/
  | alt (r s : Regex)
  | group (i : Nat) (r : Regex)
  /-- `^` and `$` in multi-line mode. -/
  | lineStart
  | lineEnd
  /-- Between a character of the class and one outside it, or an end of the text. -/
  | boundary (word : Char → Bool)

namespace Regex

/-- `p+`. -/
def plus (p : Char → Bool) : Regex := .seq (.one p) (.run p)

/-- The pattern, if possible. -/
def opt (r : Regex) : Regex := .alt r .empty

def lit : List Char → Regex
  | [] => .empty
  | a :: s => .seq (.one (· == a)) (lit s)

def inOrder : List Regex → Regex
  | [] => .empty
  | r :: rs => .seq r (inOrder rs)

/-- The first pattern of the list that matches. -/
def firstOf : List Regex → Regex
  | [] => .one fun _ => false
  | [r] => r
  | r :: rs => .alt r (firstOf rs)

/-- The groups that took part, by number. -/
abbrev Groups := List (Nat × List Char)

/-- The places behind a greedy run of a class, furthest first. -/
def runs (p : Char → Bool) (before : List Char) : List Char → List Cursor
  | [] => [⟨before, []⟩]
  | a :: after =>
    if p a then runs p (a :: before) after ++ [⟨before, a :: after⟩] else [⟨before, a :: after⟩]

/-- The ways to match at a place, each with its groups and the place behind it. -/
def ways : Regex → Cursor → List (Groups × Cursor)
  | .empty, c => [([], c)]
  | .one p, c =>
    match c.after with
    | [] => []
    | a :: after => if p a then [([], ⟨a :: c.before, after⟩)] else []
  | .run p, c => (runs p c.before c.after).map fun c' => ([], c')
  | .seq r s, c =>
    (ways r c).flatMap fun first => (ways s first.2).map fun second =>
      (first.1 ++ second.1, second.2)
  | .alt r s, c => ways r c ++ ways s c
  | .group i r, c =>
    (ways r c).map fun way =>
      ((i, c.after.take (c.after.length - way.2.after.length)) :: way.1, way.2)
  | .lineStart, c => if c.before = [] ∨ c.before.head? = some '\n' then [([], c)] else []
  | .lineEnd, c => if c.after = [] ∨ c.after.head? = some '\n' then [([], c)] else []
  | .boundary word, c =>
    if c.before.head?.any word ≠ c.after.head?.any word then [([], c)] else []

structure Match where
  start : Nat
  stop : Nat
  groups : Groups
  deriving DecidableEq

/-- The match at a place, if there is one. -/
def matchAt (r : Regex) (before after : List Char) : Option Match :=
  (ways r ⟨before, after⟩).head?.map fun way =>
    ⟨before.length, before.length + (after.length - way.2.after.length), way.1⟩

/-- `re.match`. -/
def matchStart (r : Regex) (text : List Char) : Option Match := matchAt r [] text

/-- `re.fullmatch`, as a test. -/
def fullmatch (r : Regex) (text : List Char) : Bool :=
  (ways r ⟨[], text⟩).any fun way => way.2.after == []

/-- `re.finditer` from a place on, of which `skip` characters belong to the last match.  The
pattern has no empty match. -/
def finditerFrom (r : Regex) (skip : Nat) (before : List Char) : List Char → List Match
  | [] => if skip = 0 then (matchAt r before []).toList else []
  | a :: after =>
    if skip = 0 then
      match matchAt r before (a :: after) with
      | none => finditerFrom r 0 (a :: before) after
      | some found =>
        found :: finditerFrom r (found.stop - found.start - 1) (a :: before) after
    else finditerFrom r (skip - 1) (a :: before) after

def finditer (r : Regex) (text : List Char) : List Match := finditerFrom r 0 [] text

theorem ways_empty (c : Cursor) : ways .empty c = [([], c)] := rfl

theorem ways_one (p : Char → Bool) (before : List Char) (a : Char) (after : List Char) :
    ways (.one p) ⟨before, a :: after⟩ = if p a then [([], ⟨a :: before, after⟩)] else [] := rfl

theorem ways_run (p : Char → Bool) (c : Cursor) :
    ways (.run p) c = (runs p c.before c.after).map fun c' => ([], c') := rfl

theorem ways_seq (r s : Regex) (c : Cursor) :
    ways (.seq r s) c = (ways r c).flatMap fun first => (ways s first.2).map fun second =>
      (first.1 ++ second.1, second.2) := rfl

theorem ways_alt (r s : Regex) (c : Cursor) : ways (.alt r s) c = ways r c ++ ways s c := rfl

theorem ways_group (i : Nat) (r : Regex) (c : Cursor) :
    ways (.group i r) c = (ways r c).map fun way =>
      ((i, c.after.take (c.after.length - way.2.after.length)) :: way.1, way.2) := rfl

theorem ways_lit (s before after : List Char) :
    ways (lit s) ⟨before, s ++ after⟩ = [([], ⟨s.reverse ++ before, after⟩)] := by
  induction s generalizing before with
  | nil => rfl
  | cons a s ih => simp [lit, ways_seq, ways_one, ih]

theorem ways_lit_eq_nil {s after : List Char} (before : List Char) (h : ¬s <+: after) :
    ways (lit s) ⟨before, after⟩ = [] := by
  induction s generalizing before after with
  | nil => exact absurd List.nil_prefix h
  | cons a s ih =>
    cases after with
    | nil => rfl
    | cons b after =>
      simp only [lit, ways_seq, ways_one, beq_iff_eq]
      split_ifs with hab
      · subst hab
        rw [List.cons_prefix_cons, not_and] at h
        simp [ih _ (h rfl)]
      · rfl

theorem ways_seq_alt (r s t : Regex) (c : Cursor) :
    ways (.seq (.alt r s) t) c = ways (.seq r t) c ++ ways (.seq s t) c := by
  simp [ways_seq, ways_alt]

theorem ways_seq_lit (s before after : List Char) (r : Regex) :
    ways (.seq (lit s) r) ⟨before, s ++ after⟩ = ways r ⟨s.reverse ++ before, after⟩ := by
  simp [ways_seq, ways_lit]

theorem ways_seq_lit_eq_nil {s after : List Char} (before : List Char) (r : Regex)
    (h : ¬s <+: after) : ways (.seq (lit s) r) ⟨before, after⟩ = [] := by
  simp [ways_seq, ways_lit_eq_nil before h]

theorem ways_seq_group_run (i : Nat) (p : Char → Bool) (r : Regex) (before after : List Char) :
    ways (.seq (.group i (.run p)) r) ⟨before, after⟩ =
      (runs p before after).flatMap fun c => (ways r c).map fun way =>
        ((i, after.take (after.length - c.after.length)) :: way.1, way.2) := by
  simp [ways_seq, ways_group, ways_run, List.flatMap_map]

theorem fullmatch_lit {s text : List Char} (h : (lit s).fullmatch text = true) : text = s := by
  by_cases hbegins : s <+: text
  · obtain ⟨after, rfl⟩ := hbegins
    simpa [fullmatch, ways_lit] using h
  · simp [fullmatch, ways_lit_eq_nil [] hbegins] at h

theorem runs_last {β : Type*} {p : Char → Bool} {x after : List Char} (before : List Char)
    (hx : ∀ a ∈ x, p a = true) (hafter : after.head?.any p = false) (f : Cursor → List β)
    (last : Char)
    (hf : ∀ before a y, (∀ b ∈ y, p b = true) → ¬(a = last ∧ y = []) →
      f ⟨before, a :: (y ++ after)⟩ = [])
    (hend : ∀ before, f ⟨before, after⟩ = []) :
    (runs p before (x ++ after)).flatMap f =
      if x.getLast? = some last then f ⟨x.dropLast.reverse ++ before, last :: after⟩
      else [] := by
  induction x generalizing before with
  | nil =>
    cases after with
    | nil => simp [runs, hend]
    | cons b after =>
      have hb : p b = false := by simpa using hafter
      simp [runs, hb, hend]
  | cons a x ih =>
    have ha : p a = true := hx a (by simp)
    have hxs : ∀ b ∈ x, p b = true := fun b hb => hx b (by simp [hb])
    have hrest := ih (a :: before) hxs
    rw [List.cons_append, runs, if_pos ha, List.flatMap_append, hrest]
    cases x with
    | nil =>
      by_cases hlast : a = last
      · subst hlast
        simp
      · have hnone := hf before a [] (by simp) (by simp [hlast])
        simpa [hlast] using hnone
    | cons b x =>
      have hnone := hf before a (b :: x) hxs (by simp)
      simp only [List.flatMap_cons, List.flatMap_nil, hnone, List.append_nil,
        List.getLast?_cons_cons, List.dropLast_cons_of_ne_nil (List.cons_ne_nil b x),
        List.reverse_cons, List.append_assoc, List.singleton_append]

def AtLineStart (before : List Char) : Prop := before = [] ∨ before.head? = some '\n'

def AtLineEnd (after : List Char) : Prop := after = [] ∨ after.head? = some '\n'

theorem ways_lineStart {c : Cursor} (h : AtLineStart c.before) : ways .lineStart c = [([], c)] :=
  if_pos h

theorem ways_lineEnd {c : Cursor} (h : AtLineEnd c.after) : ways .lineEnd c = [([], c)] :=
  if_pos h

theorem ways_lineEnd_eq_nil {c : Cursor} (h : ¬AtLineEnd c.after) : ways .lineEnd c = [] :=
  if_neg h

theorem prefix_append_iff {s x after : List Char} (hs : '\n' ∉ s) (hafter : AtLineEnd after) :
    s <+: x ++ after ↔ s <+: x := by
  constructor
  · intro h
    rcases Nat.le_total s.length x.length with hle | hle
    · exact List.prefix_of_prefix_length_le h (List.prefix_append x after) hle
    · obtain ⟨t, rfl⟩ := List.prefix_of_prefix_length_le (List.prefix_append x after) h hle
      rw [List.prefix_append_right_inj] at h
      cases t with
      | nil => simp
      | cons a t =>
        obtain ⟨u, rfl⟩ := h
        rcases hafter with hnil | hnewline
        · cases hnil
        · obtain rfl : a = '\n' := by simpa using hnewline
          simp at hs
  · intro h
    exact h.trans (List.prefix_append x after)

/-- The matches on the lines, where `form` tells the groups of a line that matches. -/
def lineMatches (form : List Char → Option Groups) (start : Nat) : List (List Char) → List Match
  | [] => []
  | x :: lines =>
    ((form x).map fun groups => ⟨start, start + x.length, groups⟩).toList ++
      lineMatches form (start + x.length + 1) lines

section Lines

variable {r : Regex}

theorem finditerFrom_skip (before x after : List Char) :
    finditerFrom r x.length before (x ++ after) = finditerFrom r 0 (x.reverse ++ before) after := by
  induction x generalizing before with
  | nil => rfl
  | cons a x ih => simp [finditerFrom, ih]

/-- The matches behind the end of a line. -/
def finditerNext (r : Regex) (before : List Char) : List Char → List Match
  | [] => []
  | a :: after => finditerFrom r 0 (a :: before) after

theorem finditerFrom_inLine
    (hstart : ∀ a before after, a ≠ '\n' → matchAt r (a :: before) after = none)
    {a : Char} {x after : List Char} (before : List Char) (ha : a ≠ '\n') (hx : '\n' ∉ x) :
    finditerFrom r 0 (a :: before) (x ++ after) =
      finditerNext r (x.reverse ++ a :: before) after := by
  induction x generalizing a before with
  | nil =>
    cases after with
    | nil => simp [finditerFrom, finditerNext, hstart a before [] ha]
    | cons b after => simp [finditerFrom, finditerNext, hstart a before _ ha]
  | cons b x ih =>
    rw [List.mem_cons, not_or] at hx
    have hnext := ih (a :: before) (Ne.symm hx.1) hx.2
    simp only [List.cons_append, finditerFrom, hstart a before _ ha]
    simpa using hnext

theorem finditerFrom_line
    (hstart : ∀ a before after, a ≠ '\n' → matchAt r (a :: before) after = none)
    {form : List Char → Option Groups} (hempty : form [] = none) {before x after : List Char}
    (hx : '\n' ∉ x) (hform : matchAt r before (x ++ after) =
      (form x).map fun groups => ⟨before.length, before.length + x.length, groups⟩) :
    finditerFrom r 0 before (x ++ after) =
      ((form x).map fun groups => ⟨before.length, before.length + x.length, groups⟩).toList ++
        finditerNext r (x.reverse ++ before) after := by
  cases x with
  | nil =>
    rw [hempty] at hform ⊢
    cases after with
    | nil => simpa [finditerFrom, finditerNext] using hform
    | cons b after =>
      simp only [List.nil_append, Option.map_none] at hform
      simp [finditerFrom, finditerNext, hform]
  | cons a x =>
    rw [List.mem_cons, not_or] at hx
    have ha : a ≠ '\n' := Ne.symm hx.1
    rw [List.cons_append] at hform ⊢
    cases hgroups : form (a :: x) with
    | none =>
      rw [hgroups] at hform
      have hline : finditerFrom r 0 (a :: before) (x ++ after) =
          finditerNext r (x.reverse ++ a :: before) after :=
        finditerFrom_inLine hstart before ha hx.2
      simp only [finditerFrom, hform]
      simpa using hline
    | some groups =>
      rw [hgroups] at hform
      have hskip : finditerFrom r x.length (a :: before) (x ++ after) =
          finditerFrom r 0 (x.reverse ++ a :: before) after := finditerFrom_skip ..
      have hend : finditerFrom r 0 (x.reverse ++ a :: before) after =
          finditerNext r (x.reverse ++ a :: before) after := by
        cases hrev : x.reverse with
        | nil => exact finditerFrom_inLine hstart before ha List.not_mem_nil
        | cons b y =>
          have hb : b ∈ x := List.mem_reverse.mp (hrev ▸ List.mem_cons_self)
          have hb' : b ≠ '\n' := fun h => hx.2 (h ▸ hb)
          exact finditerFrom_inLine hstart (y ++ a :: before) hb' List.not_mem_nil
      have hlength : before.length + (a :: x).length - before.length - 1 = x.length := by simp
      simp only [finditerFrom, hform, Option.map_some, if_true, hlength, hskip, hend]
      simp

/-- A pattern that matches whole lines only is found line by line. -/
theorem finditerFrom_lines
    (hstart : ∀ a before after, a ≠ '\n' → matchAt r (a :: before) after = none)
    {form : List Char → Option Groups} (hempty : form [] = none) {lines : List (List Char)}
    (hlines : ∀ x ∈ lines, '\n' ∉ x ∧ ∀ before after, AtLineStart before → AtLineEnd after →
      matchAt r before (x ++ after) =
        (form x).map fun groups => ⟨before.length, before.length + x.length, groups⟩)
    (hne : lines ≠ []) {before : List Char} (hbefore : AtLineStart before) :
    finditerFrom r 0 before (['\n'].intercalate lines) = lineMatches form before.length lines := by
  induction lines generalizing before with
  | nil => exact absurd rfl hne
  | cons x lines ih =>
    obtain ⟨hx, hform⟩ := hlines x (by simp)
    cases lines with
    | nil =>
      have hline := finditerFrom_line hstart hempty hx (hform before [] hbefore (.inl rfl))
      rw [List.append_nil] at hline
      rw [List.intercalate_singleton, hline]
      rfl
    | cons y lines =>
      have hbefore' : AtLineStart ('\n' :: (x.reverse ++ before)) := .inr rfl
      have hrest := ih (fun z hz => hlines z (by simp [hz])) (by simp) hbefore'
      have hline := finditerFrom_line hstart hempty hx
        (hform before ('\n' :: ['\n'].intercalate (y :: lines)) hbefore (.inr rfl))
      rw [List.intercalate_cons_cons, List.append_assoc, List.singleton_append, hline,
        lineMatches, finditerNext, hrest]
      simp [Nat.add_comm]

end Lines

theorem not_mem_of_mem_splitOn {α : Type*} [DecidableEq α] {a : α} {text line : List α}
    (h : line ∈ text.splitOn a) : a ∉ line := by
  induction text generalizing line with
  | nil =>
    obtain rfl : line = [] := by simpa using h
    exact List.not_mem_nil
  | cons b text ih =>
    rw [List.splitOn_cons_eq_if_modifyHead] at h
    split_ifs at h with hb
    · rcases List.mem_cons.mp h with rfl | h
      · exact List.not_mem_nil
      · exact ih h
    · obtain ⟨first, lines, hsplit⟩ := List.exists_cons_of_ne_nil (List.splitOn_ne_nil a text)
      rw [hsplit] at ih h
      rw [List.modifyHead_cons] at h
      rcases List.mem_cons.mp h with rfl | h
      · have hfirst : a ∉ first := ih List.mem_cons_self
        rw [beq_iff_eq] at hb
        simp [hfirst, Ne.symm hb]
      · exact ih (List.mem_cons_of_mem first h)

theorem mem_of_mem_splitOn {α : Type*} [DecidableEq α] {a b : α} {text line : List α}
    (h : line ∈ text.splitOn a) (hb : b ∈ line) : b ∈ text := by
  induction text generalizing line with
  | nil =>
    obtain rfl : line = [] := by simpa using h
    exact hb
  | cons c text ih =>
    rw [List.splitOn_cons_eq_if_modifyHead] at h
    split_ifs at h
    · rcases List.mem_cons.mp h with rfl | h
      · cases hb
      · exact List.mem_cons_of_mem c (ih h hb)
    · obtain ⟨first, lines, hsplit⟩ := List.exists_cons_of_ne_nil (List.splitOn_ne_nil a text)
      rw [hsplit] at ih h
      rw [List.modifyHead_cons] at h
      rcases List.mem_cons.mp h with rfl | h
      · rcases List.mem_cons.mp hb with rfl | hb
        · exact List.mem_cons_self
        · exact List.mem_cons_of_mem c (ih List.mem_cons_self hb)
      · exact List.mem_cons_of_mem c (ih (List.mem_cons_of_mem first h) hb)

theorem finditer_lines {r : Regex}
    (hstart : ∀ a before after, a ≠ '\n' → matchAt r (a :: before) after = none)
    {form : List Char → Option Groups} (hempty : form [] = none) {text : List Char}
    (hlines : ∀ x ∈ text.splitOn '\n', ∀ before after, AtLineStart before → AtLineEnd after →
      matchAt r before (x ++ after) =
        (form x).map fun groups => ⟨before.length, before.length + x.length, groups⟩) :
    finditer r text = lineMatches form 0 (text.splitOn '\n') := by
  have hfound := finditerFrom_lines hstart hempty
    (fun x hx => ⟨not_mem_of_mem_splitOn hx, hlines x hx⟩) (List.splitOn_ne_nil '\n' text)
    (.inl rfl)
  rw [List.intercalate_splitOn] at hfound
  exact hfound

end Regex
