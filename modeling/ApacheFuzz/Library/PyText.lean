import Mathlib.Data.List.Basic

/-!
# Python's methods on text

A text is its list of code points.  The methods of `str` that split, trim and pad it are
given as documented.
-/

namespace PyText

/-- `str.isspace` on one character. -/
def isSpace (c : Char) : Bool :=
  (9 ≤ c.toNat && c.toNat ≤ 13) || (28 ≤ c.toNat && c.toNat ≤ 32) || c.toNat == 0x85 ||
    c.toNat == 0xa0 || c.toNat == 0x1680 || (0x2000 ≤ c.toNat && c.toNat ≤ 0x200a) ||
    c.toNat == 0x2028 || c.toNat == 0x2029 || c.toNat == 0x202f || c.toNat == 0x205f ||
    c.toNat == 0x3000

/-- The zeros of the decimal digits of Unicode; each is followed by the other nine. -/
def decimalZeros : List Nat :=
  [0x30, 0x660, 0x6f0, 0x7c0, 0x966, 0x9e6, 0xa66, 0xae6, 0xb66, 0xbe6, 0xc66, 0xce6, 0xd66,
    0xde6, 0xe50, 0xed0, 0xf20, 0x1040, 0x1090, 0x17e0, 0x1810, 0x1946, 0x19d0, 0x1a80, 0x1a90,
    0x1b50, 0x1bb0, 0x1c40, 0x1c50, 0xa620, 0xa8d0, 0xa900, 0xa9d0, 0xa9f0, 0xaa50, 0xabf0,
    0xff10, 0x104a0, 0x10d30, 0x11066, 0x110f0, 0x11136, 0x111d0, 0x112f0, 0x11450, 0x114d0,
    0x11650, 0x116c0, 0x11730, 0x118e0, 0x11950, 0x11c50, 0x11d50, 0x11da0, 0x11f50, 0x16a60,
    0x16ac0, 0x16b50, 0x1d7ce, 0x1d7d8, 0x1d7e2, 0x1d7ec, 0x1d7f6, 0x1e140, 0x1e2f0, 0x1e4f0,
    0x1e950, 0x1fbf0]

/-- `\d` of `re`. -/
def isDigit (c : Char) : Bool :=
  decimalZeros.any fun first => first ≤ c.toNat && c.toNat < first + 10

/-- `[0-9a-fA-F]`. -/
def isHexDigit (c : Char) : Bool :=
  ('0' ≤ c && c ≤ '9') || ('a' ≤ c && c ≤ 'f') || ('A' ≤ c && c ≤ 'F')

/-- `[A-Za-z]`. -/
def isLetter (c : Char) : Bool := ('a' ≤ c && c ≤ 'z') || ('A' ≤ c && c ≤ 'Z')

/-- `int(digits, 16)` of hexadecimal digits. -/
def intOfHex (digits : List Char) : Nat :=
  digits.foldl (fun n c => 16 * n +
    (if c ≤ '9' then c.toNat - '0'.toNat else if 'a' ≤ c then c.toNat - 'a'.toNat + 10
      else c.toNat - 'A'.toNat + 10)) 0

/-- The line boundaries of `str.splitlines`. -/
def isLineBreak (c : Char) : Bool :=
  (10 ≤ c.toNat && c.toNat ≤ 13) || (28 ≤ c.toNat && c.toNat ≤ 30) || c.toNat == 0x85 ||
    c.toNat == 0x2028 || c.toNat == 0x2029

/-- `str.splitlines` behind the characters `line` (last first) of the current line. -/
def splitlinesFrom (line : List Char) : List Char → List (List Char)
  | [] => if line = [] then [] else [line.reverse]
  | '\r' :: '\n' :: rest => line.reverse :: splitlinesFrom [] rest
  | c :: rest =>
    if isLineBreak c then line.reverse :: splitlinesFrom [] rest
    else splitlinesFrom (c :: line) rest

def splitlines (text : List Char) : List (List Char) := splitlinesFrom [] text

@[simp] theorem splitlines_nil : splitlines [] = [] := rfl

@[simp] theorem splitlines_newline (text : List Char) :
    splitlines ('\n' :: text) = [] :: splitlines text := by
  simp [splitlines, splitlinesFrom, isLineBreak]

theorem filter_splitlinesFrom_newline (line text : List Char) :
    (splitlinesFrom line (text ++ ['\n'])).filter (· ≠ []) =
      (splitlinesFrom line text).filter (· ≠ []) := by
  have hunfold (line rest : List Char) (c : Char)
      (hcrlf : ∀ rest', c = '\r' → rest = '\n' :: rest' → False)
      (hlast : ¬(c = '\r' ∧ rest = [])) :
      splitlinesFrom line (c :: (rest ++ ['\n'])) =
        if isLineBreak c then line.reverse :: splitlinesFrom [] (rest ++ ['\n'])
        else splitlinesFrom (c :: line) (rest ++ ['\n']) := by
    refine splitlinesFrom.eq_3 line c _ ?_
    intro rest' hc hrest
    cases rest with
    | nil => exact hlast ⟨hc, rfl⟩
    | cons a rest =>
      rw [List.cons_append, List.cons.injEq] at hrest
      exact hcrlf rest hc (by rw [hrest.1])
  induction line, text using splitlinesFrom.induct with
  | case1 => simp [splitlinesFrom, isLineBreak]
  | case2 line hline => simp [splitlinesFrom, isLineBreak, hline]
  | case3 line rest ih =>
    simp only [List.cons_append, splitlinesFrom, List.filter_cons, ih]
  | case4 line c rest hcrlf hbreak ih =>
    by_cases hlast : c = '\r' ∧ rest = []
    · obtain ⟨rfl, rfl⟩ := hlast
      simp [splitlinesFrom, isLineBreak]
    · rw [List.cons_append, hunfold line rest c hcrlf hlast, splitlinesFrom.eq_3 line c rest hcrlf,
        if_pos hbreak, if_pos hbreak, List.filter_cons, List.filter_cons, ih]
  | case5 line c rest hcrlf hbreak ih =>
    by_cases hlast : c = '\r' ∧ rest = []
    · obtain ⟨rfl, rfl⟩ := hlast
      exact absurd (by decide) hbreak
    · rw [List.cons_append, hunfold line rest c hcrlf hlast, splitlinesFrom.eq_3 line c rest hcrlf,
        if_neg hbreak, if_neg hbreak, ih]

/-- `str.split()` behind the characters `word` (last first) of the current word. -/
def splitFrom (word : List Char) : List Char → List (List Char)
  | [] => if word = [] then [] else [word.reverse]
  | c :: rest =>
    if isSpace c then
      if word = [] then splitFrom [] rest else word.reverse :: splitFrom [] rest
    else splitFrom (c :: word) rest

/-- `str.split()`: the runs of characters that are not white space. -/
def split (text : List Char) : List (List Char) := splitFrom [] text

/-- `str.strip()`. -/
def strip (text : List Char) : List Char :=
  ((text.dropWhile isSpace).reverse.dropWhile isSpace).reverse

/-- `f"{text:width}"` of a text. -/
def ljust (text : String) (width : Nat) : String :=
  text ++ String.ofList (List.replicate (width - text.length) ' ')

/-- `f"{text:>width}"`, which is also the format of a number. -/
def rjust (text : String) (width : Nat) : String :=
  String.ofList (List.replicate (width - text.length) ' ') ++ text

end PyText
