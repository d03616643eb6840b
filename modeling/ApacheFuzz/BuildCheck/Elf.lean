import ApacheFuzz.BuildCheck.Config
import ApacheFuzz.Library.Regex
import Mathlib.Data.Finmap
import Mathlib.Data.Finset.Max
import Mathlib.Data.String.Basic

/-!
# Evidence of one ELF file

`parse_elf` reads what `readelf` prints of one file or archive member in one pass over the
lines, and `detect` draws its conclusion for one check.  Neither depends on the order of
the lines, and more evidence never weakens a conclusion.
-/

namespace ApacheFuzz.BuildCheck

open PyText

/-! ## The tables of names -/

/-- What `CHECKS` says of a check: patterns for whole names of symbols and of sections. -/
structure NamePatterns where
  symbol : Option (String → Bool)
  sectionName : Option (String → Bool)

def fortifyFunctions : String :=
  "asprintf|confstr|dprintf|explicit_bzero|fdelt|fgets|fgets_unlocked|" ++
    "fgetws|fgetws_unlocked|fprintf|fread|fread_unlocked|fwprintf|getcwd|" ++
    "getdomainname|getgroups|gethostname|getlogin_r|gets|getwd|longjmp|" ++
    "mbsnrtowcs|mbsrtowcs|mbstowcs|memcpy|memmove|mempcpy|memset|obstack_printf|" ++
    "obstack_vprintf|poll|ppoll|pread|pread64|printf|read|readlink|readlinkat|" ++
    "realpath|recv|recvfrom|snprintf|sprintf|stpcpy|stpncpy|strcat|strcpy|" ++
    "strncat|strncpy|swprintf|syslog|ttyname_r|vasprintf|vdprintf|vfprintf|" ++
    "vfwprintf|vprintf|vsnprintf|vsprintf|vswprintf|vsyslog|vwprintf|wcrtomb|" ++
    "wcpcpy|wcpncpy|wcsnrtombs|wcsrtombs|wcstombs|wcscat|wcscpy|wcsncat|" ++
    "wcsncpy|wctomb|wmemcpy|wmemmove|wmempcpy|wmemset|wprintf"

/-- One of the words between the bars; a word may end in `.*`. -/
def words (text : String) : Regex :=
  .firstOf ((text.toList.splitBy fun _ b => b != '|').map fun word =>
    let word := word.dropWhile (· == '|')
    if ".*".toList <:+ word then
      .seq (.lit (word.take (word.length - 2))) (.run (· != '\n'))
    else .lit word)

def lit (text : String) : Regex := .lit text.toList

def symbolPattern : Check → Option Regex
  | .stackProtector => some (.inOrder [lit "__stack_chk_",
      .firstOf [.seq (lit "fail") (.opt (lit "_local")), lit "guard"]])
  | .fortify => some (.firstOf [
      .inOrder [lit "__", .opt (lit "nldbl___"), words fortifyFunctions, lit "_chk",
        .opt (lit "ieee128")],
      .inOrder [lit "__open", .opt (words "64|at|at64"), lit "_2"]])
  | .asan => some (.seq (lit "__asan_") (words ("init|report_.*|load.*|store.*|stack_.*|" ++
      "register_.*|unregister_.*|memcpy|memmove|memset")))
  | .ubsan => some (words "__ubsan_handle_.*")
  | .tsan => some (.seq (lit "__tsan_")
      (words "init|read.*|write.*|atomic.*|func_entry|func_exit|vptr_.*"))
  | .msan => some (words "__msan_.*")
  | .sancov => some (.seq (lit "__sanitizer_cov_") (.firstOf [
      .seq (lit "trace_pc") (.opt (lit "_guard")),
      words "trace_pc_guard_init|8bit_counters_init|bool_flag_init"]))
  | .sancovCmp => some (.seq (lit "__sanitizer_cov_trace_") (.firstOf [
      .inOrder [.opt (lit "const_"), lit "cmp", .one (· ∈ ['1', '2', '4', '8'])], lit "switch"]))
  | .sancovPcTable => some (lit "__sanitizer_cov_pcs_init")
  | .llvmProfile => none
  | .sourceCoverage => none
  | .libfuzzer => some (lit "LLVMFuzzerRunDriver")

def sectionPattern : Check → Option Regex
  | .asan => some (lit "asan_globals")
  | .sancov => some (.seq (lit "__sancov_") (words "cntrs|guards|bools"))
  | .sancovPcTable => some (lit "__sancov_pcs")
  | .llvmProfile => some (.seq (lit "__llvm_prf_") (words "cnts|bits"))
  | .sourceCoverage => some (lit "__llvm_covmap")
  | _ => none

/-- `CHECKS`, with `re.fullmatch`. -/
def checkPatterns (check : Check) : NamePatterns where
  symbol := (symbolPattern check).map fun pattern name => pattern.fullmatch name.toList
  sectionName := (sectionPattern check).map fun pattern name => pattern.fullmatch name.toList

/-! ## Units -/

/-- Why a name is among the other symbols. -/
inductive Reason
  | definition | weakReference
  deriving DecidableEq, Repr

def Reason.name : Reason → String
  | .definition => "definition"
  | .weakReference => "weak reference"

structure Evidence where
  references : Finset String
  otherSymbols : Finmap fun _ : String => Reason
  sections : Finset String
  symbolsPresent : Bool

/-- A text that Python takes for true. -/
abbrev Message := { text : String // text ≠ "" }

/-- What a `Unit` has instead of the defaults of its fields. -/
inductive Finding
  | evidence (evidence : Evidence)
  | skipped (reason : Message)
  | error (text : Message)

/-- `Unit`; the member is empty unless the unit is a member of an archive. -/
structure ArtifactUnit where
  member : String := ""
  finding : Finding

/-! ## Lines of `readelf` -/

/-- What `parse_elf` has read so far. -/
structure Scan where
  references : Finset String := ∅
  otherSymbols : Finmap fun _ : String => Reason := ∅
  sections : Finset String := ∅
  headers : Nat := 0
  symtabs : Nat := 0
  hasRuntimeSections : Bool := false
  relocatable : Bool := false

section Lines

-- `str.isalnum` on one character
variable (alnum : Char → Bool)

def relocatableLine : Regex :=
  .inOrder [.run isSpace, lit "Type:", .plus isSpace, lit "REL",
    .boundary fun c => alnum c || c == '_']

def sectionLine : Regex :=
  .inOrder [.run isSpace, lit "[", .run isSpace, .plus isDigit, lit "]", .plus isSpace,
    .group 1 (.plus fun c => !isSpace c), .plus isSpace, .plus fun c => !isSpace c,
    .plus isSpace, .plus isHexDigit, .plus isSpace, .plus isHexDigit, .plus isSpace,
    .group 2 (.plus isHexDigit), .plus isSpace, .plus isHexDigit, .plus isSpace,
    .group 3 (.run isLetter), .plus isSpace, .plus isDigit]

/-- A line of the table of sections: name, size and flags. -/
def sectionEntry (line : List Char) : Option (String × Nat × List Char) := do
  let found ← sectionLine.matchStart line
  let name ← found.groups.lookup 1
  let size ← found.groups.lookup 2
  let flags ← found.groups.lookup 3
  return (String.ofList name, intOfHex size, flags)

inductive SymbolKind
  | defined | weak | strong
  deriving DecidableEq, Repr

/-- A line of a symbol table that counts: the name without its version, and whether the
symbol is defined here, or else a weak or a strong reference. -/
def symbolEntry (line : List Char) : Option (String × SymbolKind) :=
  match split line with
  | index :: _ :: _ :: type :: bind :: _ :: place :: name :: _ =>
    if (Regex.seq (.plus isDigit) (lit ":")).fullmatch index = false then none
    else if type = "FILE".toList ∨ type = "SECTION".toList then none
    else
      let name := String.ofList (name.takeWhile (· != '@'))
      if place ≠ "UND".toList then some (name, .defined)
      else if bind = "WEAK".toList then some (name, .weak)
      else some (name, .strong)
  | _ => none

def readHeader (s : Scan) (line : List Char) : Scan :=
  if line = "ELF Header:".toList then { s with headers := s.headers + 1 } else s

def readType (s : Scan) (line : List Char) : Scan :=
  if ((relocatableLine alnum).matchStart line).isSome then { s with relocatable := true } else s

def readSection (s : Scan) (line : List Char) : Scan :=
  match sectionEntry line with
  | none => s
  | some (name, size, flags) =>
    let s := if name = ".symtab" then { s with symtabs := s.symtabs + 1 } else s
    if size = 0 then s
    else { s with
      sections := insert name s.sections
      hasRuntimeSections := s.hasRuntimeSections || flags.any fun flag => flag ∈ ['A', 'X'] }

/-- `other_symbols.setdefault(name, reason)`. -/
def setDefault (symbols : Finmap fun _ : String => Reason) (name : String) (reason : Reason) :
    Finmap fun _ : String => Reason :=
  if name ∈ symbols then symbols else symbols.insert name reason

def readSymbol (s : Scan) (line : List Char) : Scan :=
  match symbolEntry line with
  | none => s
  | some (name, .defined) => { s with otherSymbols := s.otherSymbols.insert name .definition }
  | some (name, .weak) => { s with otherSymbols := setDefault s.otherSymbols name .weakReference }
  | some (name, .strong) => { s with references := insert name s.references }

/-- The body of the loop of `parse_elf`. -/
def readLine (s : Scan) (line : List Char) : Scan :=
  readSymbol (readSection (readType alnum (readHeader s line) line) line) line

def parseElf (output : List Char) (member : String) : Except Message ArtifactUnit :=
  let s := (splitlines output).foldl (readLine alnum) {}
  if s.headers ≠ 1 then
    .error ⟨"expected one ELF file (non-ELF members and LLVM bitcode are unsupported)", by decide⟩
  else if ∃ name ∈ s.sections, ".gnu.lto_".toList.isPrefixOf name.toList then
    .error ⟨"GCC LTO objects are unsupported; inspect the final linked binary", by decide⟩
  else if s.relocatable && !s.hasRuntimeSections &&
      (".rmeta" ∈ s.sections || ".rmeta-link" ∈ s.sections) then
    .ok ⟨member, .skipped ⟨"Rust metadata (no runtime code or data)", by decide⟩⟩
  else .ok ⟨member, .evidence ⟨s.references, s.otherSymbols, s.sections, s.symtabs != 0⟩⟩

end Lines

/-! ## The conclusion for one check -/

/-- `STATES`. -/
inductive EvidenceState
  | found | symbolOnly | notSeen | unknown
  deriving DecidableEq, Repr

def EvidenceState.name : EvidenceState → String
  | .found => "FOUND"
  | .symbolOnly => "SYMBOL-ONLY"
  | .notSeen => "NOT-SEEN"
  | .unknown => "UNKNOWN"

def states : List EvidenceState := [.found, .symbolOnly, .notSeen, .unknown]

/-- The first of the sorted names that match, if any does. -/
def firstMatch (names : Finset String) : Option (String → Bool) → Option String
  | none => none
  | some pattern =>
    if h : (names.filter fun name => pattern name).Nonempty then
      some ((names.filter fun name => pattern name).min' h)
    else none

def detect (patterns : Check → NamePatterns) (check : Check) (evidence : Evidence) :
    EvidenceState × String :=
  match firstMatch evidence.sections (patterns check).sectionName with
  | some name => (.found, name ++ " (section)")
  | none =>
    match firstMatch evidence.references (patterns check).symbol with
    | some name => (.found, name ++ " (reference)")
    | none =>
      match firstMatch evidence.otherSymbols.keys (patterns check).symbol with
      | some name =>
        -- the name is a key
        let reason := (evidence.otherSymbols.lookup name).getD .weakReference
        let state := if check = .libfuzzer ∧ reason = .definition then .found else .symbolOnly
        (state, name ++ " (" ++ reason.name ++ ")")
      | none =>
        if evidence.symbolsPresent then (.notSeen, "no matching evidence")
        else (.unknown, "symbol table unavailable")

end ApacheFuzz.BuildCheck
