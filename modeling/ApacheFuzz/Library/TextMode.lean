import Mathlib.Data.List.Basic

/-!
# Bytes as text

Python decodes UTF-8 one character at a time.  Where the next byte neither goes on with the
bytes seen so far nor begins a character, those bytes are left to an error handler and
decoding starts again.  Text mode then writes every end of a line as `\n`.
-/

namespace TextMode

/-- A piece of the bytes: a character, or bytes that make none. -/
inductive Piece
  | char (c : Char)
  | broken (bytes : List UInt8)
  deriving DecidableEq

def Piece.bytes : Piece → List UInt8
  | .char c => String.utf8EncodeChar c
  | .broken bytes => bytes

/-- The character at the start of the bytes. -/
def charOf (bytes : List UInt8) : Option Char := bytes.toByteArray.utf8DecodeChar? 0

/-- The byte begins a character of several bytes. -/
def leads (b : UInt8) : Bool := 0xC2 ≤ b && b ≤ 0xF4

/-- The least and the greatest byte that can follow the first bytes of a character: no longer
form than needed, no surrogate, no number above 0x10FFFF. -/
def least (seen : List UInt8) : UInt8 :=
  if seen = [0xE0] then 0xA0 else if seen = [0xF0] then 0x90 else 0x80

def greatest (seen : List UInt8) : UInt8 :=
  if seen = [0xED] then 0x9F else if seen = [0xF4] then 0x8F else 0xBF

def follows (seen : List UInt8) (b : UInt8) : Bool :=
  seen ≠ [] ∧ least seen ≤ b ∧ b ≤ greatest seen

def unfinished (seen : List UInt8) : List Piece := if seen = [] then [] else [.broken seen]

/-- Decoding behind `seen`, the first bytes of a character. -/
def decodeFrom (seen : List UInt8) : List UInt8 → List Piece
  | [] => unfinished seen
  | b :: bytes =>
    if follows seen b then
      match charOf (seen ++ [b]) with
      | some c => .char c :: decodeFrom [] bytes
      | none => decodeFrom (seen ++ [b]) bytes
    else
      unfinished seen ++
        match charOf [b] with
        | some c => .char c :: decodeFrom [] bytes
        | none => if leads b then decodeFrom [b] bytes else .broken [b] :: decodeFrom [] bytes

def decode (bytes : List UInt8) : List Piece := decodeFrom [] bytes

def encode (text : List Char) : List UInt8 := text.flatMap String.utf8EncodeChar

/-- The handler `replace`. -/
def Piece.replaced : Piece → Char
  | .char c => c
  | .broken _ => '\uFFFD'

/-- `bytes.decode(errors="replace")`. -/
def decodeText (bytes : List UInt8) : List Char := (decode bytes).map Piece.replaced

/-- A code point of a `str`: a character, or the surrogate that stands for a byte. -/
inductive PyChar
  | char (c : Char)
  | surrogate (byte : UInt8)
  deriving DecidableEq

/-- The handler `surrogateescape`. -/
def Piece.escaped : Piece → List PyChar
  | .char c => [.char c]
  | .broken bytes => bytes.map .surrogate

/-- `os.fsdecode`. -/
def fsdecode (bytes : List UInt8) : List PyChar := (decode bytes).flatMap Piece.escaped

/-- Universal newlines, where `cr` tells whether the last character was `\r`. -/
def newlinesFrom (cr : Bool) : List Char → List Char
  | [] => []
  | c :: text =>
    if c = '\r' then '\n' :: newlinesFrom true text
    else if c = '\n' ∧ cr then newlinesFrom false text
    else c :: newlinesFrom false text

def newlines (text : List Char) : List Char := newlinesFrom false text

/-- What text mode makes of the bytes, with `errors="replace"`. -/
def readText (bytes : List UInt8) : List Char := newlines (decodeText bytes)

section Decoding

variable {seen bytes : List UInt8} {b : UInt8} {c : Char}

private theorem charOf_nil : charOf [] = none := by
  decide

theorem charOf_utf8EncodeChar (c : Char) (bytes : List UInt8) :
    charOf (String.utf8EncodeChar c ++ bytes) = some c := by
  rw [charOf, List.toByteArray_append]
  exact ByteArray.utf8DecodeChar?_utf8EncodeChar_append

private theorem utf8EncodeChar_ne_nil (c : Char) : String.utf8EncodeChar c ≠ [] := by
  intro h
  have hlength := congrArg List.length h
  rw [String.length_utf8EncodeChar] at hlength
  exact absurd hlength (Nat.ne_of_gt c.utf8Size_pos)

private theorem eq_append_of_charOf (h : charOf bytes = some c) :
    ∃ rest, bytes = String.utf8EncodeChar c ++ rest := by
  obtain ⟨rest, hrest⟩ := ByteArray.exists_of_utf8DecodeChar?_eq_some h
  refine ⟨rest.data.toList, List.toByteArray_inj.mp ?_⟩
  rw [hrest, List.toByteArray_append]
  congr 1
  simp [ByteArray.ext_iff, List.data_toByteArray]

private theorem flatMap_bytes_unfinished (seen : List UInt8) :
    (unfinished seen).flatMap Piece.bytes = seen := by
  unfold unfinished
  split_ifs with h
  · exact h.symm
  · simp [Piece.bytes]

private theorem utf8EncodeChar_of_charOf (hseen : charOf seen = none)
    (h : charOf (seen ++ [b]) = some c) : String.utf8EncodeChar c = seen ++ [b] := by
  obtain ⟨rest, hrest⟩ := eq_append_of_charOf h
  rcases List.eq_nil_or_concat rest with rfl | ⟨rest', last, rfl⟩
  · rw [hrest, List.append_nil]
  · rw [List.concat_eq_append, ← List.append_assoc] at hrest
    rw [(List.append_inj' hrest rfl).1, charOf_utf8EncodeChar] at hseen
    cases hseen

/-- Decoding loses nothing. -/
private theorem flatMap_bytes_decodeFrom (hseen : charOf seen = none) :
    (decodeFrom seen bytes).flatMap Piece.bytes = seen ++ bytes := by
  induction bytes generalizing seen with
  | nil => rw [decodeFrom, flatMap_bytes_unfinished, List.append_nil]
  | cons b bytes ih =>
    rw [decodeFrom]
    split_ifs with hfollows hleads
    · cases hchar : charOf (seen ++ [b]) with
      | none => rw [ih hchar, List.append_assoc, List.singleton_append]
      | some c =>
        rw [List.flatMap_cons, ih charOf_nil, Piece.bytes, utf8EncodeChar_of_charOf hseen hchar]
        simp
    all_goals rw [List.flatMap_append, flatMap_bytes_unfinished]
    all_goals cases hchar : charOf [b]
    · simp [ih hchar]
    · simp [ih charOf_nil, Piece.bytes, utf8EncodeChar_of_charOf charOf_nil hchar]
    · simp [ih charOf_nil, Piece.bytes]
    · simp [ih charOf_nil, Piece.bytes, utf8EncodeChar_of_charOf charOf_nil hchar]

theorem flatMap_bytes_decode (bytes : List UInt8) :
    (decode bytes).flatMap Piece.bytes = bytes :=
  flatMap_bytes_decodeFrom charOf_nil

private theorem follows_ascii (seen : List UInt8) (hb : b < 0x80) : follows seen b = false := by
  have hleast : 0x80 ≤ least seen := by
    unfold least
    split_ifs <;> decide
  have hlt : ¬least seen ≤ b := UInt8.not_le.mpr (UInt8.lt_of_lt_of_le hb hleast)
  simp [follows, hlt]

private theorem decodeFrom_ascii (hc : String.utf8EncodeChar c = [b]) (hb : b < 0x80)
    (before after : List UInt8) :
    decodeFrom seen (before ++ b :: after) =
      decodeFrom seen before ++ .char c :: decodeFrom [] after := by
  have hchar : charOf [b] = some c := by
    rw [← hc, ← List.append_nil (String.utf8EncodeChar c), charOf_utf8EncodeChar]
  induction before generalizing seen with
  | nil => simp [decodeFrom, follows_ascii seen hb, hchar]
  | cons b' before ih =>
    rw [List.cons_append, decodeFrom, decodeFrom]
    split_ifs
    · split <;> simp [ih]
    all_goals split <;> simp [ih]

theorem decode_ascii (hc : String.utf8EncodeChar c = [b]) (hb : b < 0x80)
    (before after : List UInt8) :
    decode (before ++ b :: after) = decode before ++ .char c :: decode after :=
  decodeFrom_ascii hc hb before after

theorem decodeText_ascii (hc : String.utf8EncodeChar c = [b]) (hb : b < 0x80)
    (before after : List UInt8) :
    decodeText (before ++ b :: after) = decodeText before ++ c :: decodeText after := by
  simp [decodeText, decode_ascii hc hb, Piece.replaced]

theorem mem_of_char_mem_decode (hc : String.utf8EncodeChar c = [b])
    (h : Piece.char c ∈ decode bytes) : b ∈ bytes := by
  rw [← flatMap_bytes_decode bytes, List.mem_flatMap]
  exact ⟨_, h, by simp [Piece.bytes, hc]⟩

theorem mem_of_mem_decodeText (hc : String.utf8EncodeChar c = [b]) (hne : c ≠ '\uFFFD')
    (h : c ∈ decodeText bytes) : b ∈ bytes := by
  obtain ⟨piece, hpiece, hreplaced⟩ := List.mem_map.mp h
  cases piece with
  | char c' => exact mem_of_char_mem_decode hc (hreplaced ▸ hpiece)
  | broken _ => exact absurd hreplaced.symm hne

theorem mem_decodeText_iff (hc : String.utf8EncodeChar c = [b]) (hb : b < 0x80)
    (hne : c ≠ '\uFFFD') : c ∈ decodeText bytes ↔ b ∈ bytes := by
  refine ⟨mem_of_mem_decodeText hc hne, fun h => ?_⟩
  obtain ⟨before, after, rfl⟩ := List.append_of_mem h
  rw [decodeText_ascii hc hb]
  simp

/-- Lines of bytes are decoded one by one. -/
theorem decodeText_intercalate (hc : String.utf8EncodeChar c = [b]) (hb : b < 0x80)
    (lines : List (List UInt8)) :
    decodeText ([b].intercalate lines) = [c].intercalate (lines.map decodeText) := by
  induction lines with
  | nil => rfl
  | cons line lines ih =>
    cases lines with
    | nil => simp
    | cons line' lines =>
      rw [List.map_cons, List.map_cons, List.intercalate_cons_cons, List.intercalate_cons_cons,
        ← List.map_cons, ← ih, List.append_assoc, List.singleton_append,
        decodeText_ascii hc hb, List.append_assoc, List.singleton_append]

private theorem follows_of (hseen : seen ≠ []) (hb : 0x80 ≤ b.toNat ∧ b.toNat ≤ 0xBF)
    (hE0 : seen = [0xE0] → 0xA0 ≤ b.toNat) (hF0 : seen = [0xF0] → 0x90 ≤ b.toNat)
    (hED : seen = [0xED] → b.toNat ≤ 0x9F) (hF4 : seen = [0xF4] → b.toNat ≤ 0x8F) :
    follows seen b = true := by
  have hleast : least seen ≤ b := by
    unfold least
    split_ifs with h h'
    · exact UInt8.le_iff_toNat_le.mpr (hE0 h)
    · exact UInt8.le_iff_toNat_le.mpr (hF0 h')
    · exact UInt8.le_iff_toNat_le.mpr hb.1
  have hgreatest : b ≤ greatest seen := by
    unfold greatest
    split_ifs with h h'
    · exact UInt8.le_iff_toNat_le.mpr (hED h)
    · exact UInt8.le_iff_toNat_le.mpr (hF4 h')
    · exact UInt8.le_iff_toNat_le.mpr hb.2
  exact decide_eq_true ⟨hseen, hleast, hgreatest⟩

private theorem follows_utf8EncodeChar {rest : List UInt8} (hseen : seen ≠ [])
    (h : String.utf8EncodeChar c = seen ++ b :: rest) : follows seen b = true := by
  have hvalid : c.val.toNat < 0xD800 ∨ 0xDFFF < c.val.toNat ∧ c.val.toNat < 0x110000 := c.valid
  unfold String.utf8EncodeChar at h
  generalize c.val.toNat = v at h hvalid
  rcases seen with _ | ⟨b₀, _ | ⟨b₁, _ | ⟨b₂, _ | ⟨b₃, seen⟩⟩⟩⟩
  · exact absurd rfl hseen
  all_goals simp only [List.cons_append, List.nil_append] at h
  all_goals split_ifs at h
  all_goals simp only [List.cons.injEq, reduceCtorEq, and_false, List.nil_eq,
    List.append_eq_nil_iff] at h
  all_goals
    apply follows_of hseen
    all_goals simp only [List.cons.injEq, reduceCtorEq, and_false, and_true, ← UInt8.toNat_inj,
      UInt8.toNat_ofNat', UInt8.reduceToNat, false_imp_iff] at h ⊢
    all_goals omega

private theorem leads_utf8EncodeChar {b' : UInt8} {rest : List UInt8}
    (h : String.utf8EncodeChar c = b :: b' :: rest) : leads b = true := by
  have hvalid : c.val.toNat < 0xD800 ∨ 0xDFFF < c.val.toNat ∧ c.val.toNat < 0x110000 := c.valid
  unfold String.utf8EncodeChar at h
  generalize c.val.toNat = v at h hvalid
  simp only at h
  split_ifs at h
  all_goals simp only [List.cons.injEq, reduceCtorEq, and_false, ← UInt8.toNat_inj,
    UInt8.toNat_ofNat'] at h
  all_goals
    simp only [leads, Bool.and_eq_true, decide_eq_true_eq, UInt8.le_iff_toNat_le,
      UInt8.reduceToNat]
    omega

/-- A character is not complete before its last byte. -/
private theorem charOf_initial {rest : List UInt8} (hrest : rest ≠ [])
    (h : String.utf8EncodeChar c = seen ++ rest) : charOf seen = none := by
  by_contra hsome
  obtain ⟨c', hc'⟩ := Option.ne_none_iff_exists'.mp hsome
  obtain ⟨rest', rfl⟩ := eq_append_of_charOf hc'
  have hwhole := charOf_utf8EncodeChar c []
  rw [List.append_nil, h, List.append_assoc, charOf_utf8EncodeChar] at hwhole
  cases hwhole
  have hlength := congrArg List.length h
  rw [List.append_assoc, List.length_append, List.length_append] at hlength
  exact hrest (List.length_eq_zero_iff.mp (by omega))

private theorem decodeFrom_rest {rest : List UInt8} (hseen : seen ≠ []) (hrest : rest ≠ [])
    (h : String.utf8EncodeChar c = seen ++ rest) (bytes : List UInt8) :
    decodeFrom seen (rest ++ bytes) = .char c :: decodeFrom [] bytes := by
  induction rest generalizing seen with
  | nil => exact absurd rfl hrest
  | cons b rest ih =>
    have hnext : String.utf8EncodeChar c = (seen ++ [b]) ++ rest := by simpa using h
    rw [List.cons_append, decodeFrom, follows_utf8EncodeChar hseen h, if_pos rfl]
    cases rest with
    | nil =>
      rw [List.append_nil] at hnext
      rw [← hnext, ← List.append_nil (String.utf8EncodeChar c), charOf_utf8EncodeChar]
      rfl
    | cons b' rest => rw [charOf_initial (by simp) hnext, ih (by simp) (by simp) hnext]

theorem decode_utf8EncodeChar (c : Char) (bytes : List UInt8) :
    decode (String.utf8EncodeChar c ++ bytes) = .char c :: decode bytes := by
  cases h : String.utf8EncodeChar c with
  | nil => exact absurd h (utf8EncodeChar_ne_nil c)
  | cons b rest =>
    cases rest with
    | nil =>
      have hchar := charOf_utf8EncodeChar c []
      rw [List.append_nil, h] at hchar
      simp [decode, decodeFrom, follows, unfinished, hchar]
    | cons b' rest =>
      have hcons : String.utf8EncodeChar c = [b] ++ b' :: rest := h
      have hprefix := charOf_initial (by simp) hcons
      have hrest := decodeFrom_rest (by simp) (by simp) hcons bytes
      simpa [decode, decodeFrom, follows, unfinished, hprefix, leads_utf8EncodeChar h] using hrest

/-- Encoded text is read back. -/
theorem decode_encode (text : List Char) (bytes : List UInt8) :
    decode (encode text ++ bytes) = text.map .char ++ decode bytes := by
  induction text with
  | nil => rfl
  | cons c text ih =>
    rw [encode, List.flatMap_cons, List.append_assoc, decode_utf8EncodeChar, ← encode, ih,
      List.map_cons, List.cons_append]

theorem decodeText_encode (text : List Char) (bytes : List UInt8) :
    decodeText (encode text ++ bytes) = text ++ decodeText bytes := by
  have hreplaced : Piece.replaced ∘ Piece.char = id := rfl
  rw [decodeText, decode_encode, List.map_append, List.map_map, hreplaced, List.map_id, decodeText]

theorem encode_injective {text text' : List Char} (h : encode text = encode text') :
    text = text' := by
  have hdecode (text : List Char) : decodeText (encode text) = text := by
    have := decodeText_encode text []
    simpa [decodeText, decode, decodeFrom, unfinished] using this
  rw [← hdecode text, h, hdecode]

theorem mem_encode_iff {text : List Char} (hc : String.utf8EncodeChar c = [b]) (hb : b < 0x80)
    (hne : c ≠ '\uFFFD') : b ∈ encode text ↔ c ∈ text := by
  rw [← mem_decodeText_iff hc hb hne, ← List.append_nil (encode text), decodeText_encode]
  simp [decodeText, decode, decodeFrom, unfinished]

theorem fsdecode_encode (text : List Char) : fsdecode (encode text) = text.map .char := by
  rw [fsdecode, ← List.append_nil (encode text), decode_encode, List.flatMap_append,
    List.flatMap_map]
  simp [decode, decodeFrom, unfinished, Piece.escaped, List.map_eq_flatMap]

private theorem flatMap_bytes_of_escaped {pieces : List Piece}
    (h : ∀ byte, .surrogate byte ∉ pieces.flatMap Piece.escaped) :
    ∃ text, pieces.flatMap Piece.bytes = encode text := by
  induction pieces with
  | nil => exact ⟨[], rfl⟩
  | cons piece pieces ih =>
    rw [List.flatMap_cons] at h
    obtain ⟨text, htext⟩ := ih fun byte hbyte => h byte (List.mem_append_right _ hbyte)
    rw [List.flatMap_cons, htext]
    cases piece with
    | char c => exact ⟨c :: text, rfl⟩
    | broken bytes =>
      cases bytes with
      | nil => exact ⟨text, rfl⟩
      | cons b bytes => exact absurd (by simp [Piece.escaped]) (h b)

/-- Bytes that are not UTF-8 become surrogates. -/
theorem exists_surrogate (h : ∀ text, bytes ≠ encode text) :
    ∃ byte, .surrogate byte ∈ fsdecode bytes := by
  by_contra hnone
  rw [not_exists] at hnone
  obtain ⟨text, htext⟩ := flatMap_bytes_of_escaped hnone
  rw [flatMap_bytes_decode] at htext
  exact h text htext

end Decoding

section Newlines

variable {x y text : List Char} {cr : Bool}

private theorem cr_not_mem_newlinesFrom : '\r' ∉ newlinesFrom cr text := by
  induction text generalizing cr with
  | nil => simp [newlinesFrom]
  | cons c text ih =>
    rw [newlinesFrom]
    split_ifs with hcr hlf
    · simp [ih]
    · exact ih
    · simp [ih, Ne.symm hcr]

theorem cr_not_mem_newlines (text : List Char) : '\r' ∉ newlines text := cr_not_mem_newlinesFrom

private theorem newlinesFrom_append :
    newlinesFrom cr (x ++ '\n' :: y) = newlinesFrom cr (x ++ ['\n']) ++ newlinesFrom false y := by
  induction x generalizing cr with
  | nil => cases cr <;> simp [newlinesFrom]
  | cons c x ih =>
    simp only [List.cons_append, newlinesFrom]
    split_ifs <;> simp [ih]

/-- What is read of a line with its end, without that end. -/
def lineText (x : List Char) : List Char := (newlines (x ++ ['\n'])).dropLast

private theorem newlinesFrom_line (cr : Bool) (x : List Char) :
    (∃ z, newlinesFrom cr (x ++ ['\n']) = z ++ ['\n']) ∨ cr = true ∧ x = [] := by
  induction x generalizing cr with
  | nil => cases cr <;> simp [newlinesFrom]
  | cons c x ih =>
    left
    simp only [List.cons_append, newlinesFrom]
    split_ifs with hcr hlf
    · rcases ih true with ⟨z, hz⟩ | ⟨-, rfl⟩
      · exact ⟨'\n' :: z, by rw [hz, List.cons_append]⟩
      · exact ⟨[], rfl⟩
    all_goals obtain ⟨z, hz⟩ := (ih false).resolve_right (by simp)
    · exact ⟨z, hz⟩
    · exact ⟨c :: z, by rw [hz, List.cons_append]⟩

private theorem newlines_line (x : List Char) : newlines (x ++ ['\n']) = lineText x ++ ['\n'] := by
  obtain ⟨z, hz⟩ := (newlinesFrom_line false x).resolve_right (by simp)
  rw [lineText, newlines, hz, List.dropLast_concat]

theorem newlines_cons_line (x y : List Char) :
    newlines (x ++ '\n' :: y) = lineText x ++ '\n' :: newlines y := by
  rw [newlines, newlinesFrom_append, ← newlines, ← newlines, newlines_line]
  simp

private theorem newlinesFrom_last (cr : Bool) (x : List Char) :
    newlinesFrom cr (x ++ ['\n']) = newlinesFrom cr x ∨
      newlinesFrom cr (x ++ ['\n']) = newlinesFrom cr x ++ ['\n'] := by
  induction x generalizing cr with
  | nil => cases cr <;> simp [newlinesFrom]
  | cons c x ih =>
    simp only [List.cons_append, newlinesFrom]
    split_ifs
    · simpa using ih true
    · exact ih false
    · simpa using ih false

theorem newlines_last (x : List Char) :
    newlines x = lineText x ∨ newlines x = lineText x ++ ['\n'] := by
  have hlast := newlinesFrom_last false x
  rw [← newlines, ← newlines, newlines_line] at hlast
  rcases hlast with h | h
  · exact .inr h.symm
  · exact .inl (List.append_cancel_right h).symm

private theorem newlinesFrom_eq (hx : '\r' ∉ x) : newlinesFrom false x = x := by
  induction x with
  | nil => rfl
  | cons c x ih =>
    rw [List.mem_cons, not_or] at hx
    simp [newlinesFrom, Ne.symm hx.1, ih hx.2]

theorem lineText_eq (hx : '\r' ∉ x) : lineText x = x := by
  rw [lineText, newlines, newlinesFrom_eq (by simp [hx]), List.dropLast_concat]

/-- The lines that one line is read as. -/
def linesOf (x : List Char) : List (List Char) := (lineText x).splitOn '\n'

theorem linesOf_eq (hx : '\r' ∉ x) (hnewline : '\n' ∉ x) : linesOf x = [x] := by
  rw [linesOf, lineText_eq hx, List.splitOn_eq_singleton hnewline]

/-- The lines of a text are those of its lines, and perhaps an empty one at the end. -/
theorem splitOn_newlines {lines : List (List Char)} (hlines : lines ≠ []) :
    ∃ rest, (rest = [] ∨ rest = [[]]) ∧
      (newlines (['\n'].intercalate lines)).splitOn '\n' = lines.flatMap linesOf ++ rest := by
  induction lines with
  | nil => exact absurd rfl hlines
  | cons x lines ih =>
    cases lines with
    | nil =>
      rw [List.intercalate_singleton, List.flatMap_singleton]
      rcases newlines_last x with h | h
      · exact ⟨[], .inl rfl, by rw [h, linesOf, List.append_nil]⟩
      · exact ⟨[[]], .inr rfl, by rw [h, linesOf, List.splitOn_append_cons_self, List.splitOn_nil]⟩
    | cons y lines =>
      obtain ⟨rest, hrest, hsplit⟩ := ih (by simp)
      refine ⟨rest, hrest, ?_⟩
      rw [List.intercalate_cons_cons, List.append_assoc, List.singleton_append, newlines_cons_line,
        List.splitOn_append_cons_self, hsplit, ← linesOf, ← List.append_assoc, ← List.flatMap_cons]

end Newlines

end TextMode
