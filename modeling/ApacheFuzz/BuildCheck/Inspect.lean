import ApacheFuzz.BuildCheck.Elf
import ApacheFuzz.Library.TextMode

/-!
# Inspection of one artifact

`readelf` prints all members of an archive as one text.  `inspect` reads its bytes in text mode,
finds the headings of the members and takes what stands between two headings for one ELF file.
-/

namespace ApacheFuzz.BuildCheck

open PyText TextMode

inductive ArtifactKind
  | object | binary | archive
  deriving DecidableEq, Repr

def ArtifactKind.name : ArtifactKind → String
  | .object => "object"
  | .binary => "binary"
  | .archive => "archive"

/-- What `readelf` leaves behind. -/
structure ProcessOutput where
  returncode : Int
  stdout : List UInt8
  stderr : List UInt8

structure CompletedProcess where
  returncode : Int
  stdout : List Char
  stderr : List Char

/-- What `subprocess.run` returns with `text=True` and `errors="replace"` under a UTF-8 locale. -/
def ProcessOutput.completed (output : ProcessOutput) : CompletedProcess where
  returncode := output.returncode
  stdout := readText output.stdout
  stderr := readText output.stderr

/-- `diagnostic`, unless it is empty. -/
def diagnostic (result : CompletedProcess) : Option Message :=
  if result.returncode ≠ 0 ∨ strip result.stderr ≠ [] then
    let detail := [' '].intercalate (split result.stderr)
    let detail :=
      if detail = [] then ("exit status " ++ toString result.returncode).toList else detail
    some ⟨"readelf: " ++ String.ofList (detail.take 500), by simp⟩
  else none

/-- `re.escape` of a path.  Decoded text has no surrogates. -/
def escape : List PyChar → Regex
  | [] => .empty
  | .char c :: path => .seq (.one (· == c)) (escape path)
  | .surrogate _ :: path => .seq (.one fun _ => false) (escape path)

def headingPattern (path : List PyChar) : Regex :=
  .inOrder [.lineStart, lit "File: ", escape path,
    .alt (.inOrder [lit "(", .group 1 (.run (· != '\n')), lit ")"])
      (.inOrder [lit "[", .group 2 (.run (· != '\n')), lit "]"]), .lineEnd]

/-- One of the two groups took part in the match. -/
def headingMember (heading : Regex.Match) : String :=
  String.ofList (((heading.groups.lookup 1).or (heading.groups.lookup 2)).getD [])

section Inspect

variable (alnum : Char → Bool)

/-- `parse_elf`, with a `ValueError` as the unit's error. -/
def parseUnit (output : List Char) (member : String) : ArtifactUnit :=
  match parseElf alnum output member with
  | .ok unit => unit
  | .error text => ⟨member, .error text⟩

/-- The loop over the headings. -/
def memberUnits (stdout : List Char) : List Regex.Match → List ArtifactUnit
  | [] => []
  | heading :: headings =>
    let stop :=
      match headings with
      | [] => stdout.length
      | next :: _ => next.start
    parseUnit alnum ((stdout.take stop).drop heading.stop) (headingMember heading) ::
      memberUnits stdout headings

/-- What is said of the archive as a whole. -/
def archiveUnits (diagnostic : Option Message) (units : List ArtifactUnit) : List ArtifactUnit :=
  match diagnostic with
  | some text => [{ finding := .error ⟨"archive inspection incomplete: " ++ text, by simp⟩ }]
  | none =>
    if units.isEmpty then
      [{ finding := .error ⟨"no archive members found (empty archive)", by decide⟩ }]
    else []

/-- `inspect` on a path, given by its bytes; `readelf` runs the program on it. -/
def inspect (readelf : List UInt8 → Except Message ProcessOutput) (path : List UInt8)
    (kind : ArtifactKind) : Except Message (List ArtifactUnit) := do
  let output ← readelf path
  let result := output.completed
  if kind ≠ .archive then
    match diagnostic result with
    | some text => .ok [{ finding := .error text }]
    | none => .ok [parseUnit alnum result.stdout ""]
  else
    let headings := (headingPattern (fsdecode path)).finditer result.stdout
    let units := memberUnits alnum result.stdout headings
    .ok (units ++ archiveUnits (diagnostic result) units)

end Inspect

end ApacheFuzz.BuildCheck
