import Mathlib.Data.List.Basic
import Mathlib.Data.UInt

/-!
# Header blocks of HTTP/2

The decoder of HPACK header blocks without Huffman code and without a dynamic table: prefix
integers, plain strings, and representations that refer to the static table.  A block that needs
more is not decoded.
-/

namespace Hpack

def ascii (text : String) : List UInt8 := text.toList.map fun c => UInt8.ofNat c.toNat

structure Field where
  name : List UInt8
  value : List UInt8
  deriving DecidableEq, Repr

/-- The static table, whose first entry has index 1. -/
def staticTable : List Field :=
  [(":authority", ""), (":method", "GET"), (":method", "POST"), (":path", "/"),
    (":path", "/index.html"), (":scheme", "http"), (":scheme", "https"), (":status", "200"),
    (":status", "204"), (":status", "206"), (":status", "304"), (":status", "400"),
    (":status", "404"), (":status", "500"), ("accept-charset", ""),
    ("accept-encoding", "gzip, deflate"), ("accept-language", ""), ("accept-ranges", ""),
    ("accept", ""), ("access-control-allow-origin", ""), ("age", ""), ("allow", ""),
    ("authorization", ""), ("cache-control", ""), ("content-disposition", ""),
    ("content-encoding", ""), ("content-language", ""), ("content-length", ""),
    ("content-location", ""), ("content-range", ""), ("content-type", ""), ("cookie", ""),
    ("date", ""), ("etag", ""), ("expect", ""), ("expires", ""), ("from", ""), ("host", ""),
    ("if-match", ""), ("if-modified-since", ""), ("if-none-match", ""), ("if-range", ""),
    ("if-unmodified-since", ""), ("last-modified", ""), ("link", ""), ("location", ""),
    ("max-forwards", ""), ("proxy-authenticate", ""), ("proxy-authorization", ""), ("range", ""),
    ("referer", ""), ("refresh", ""), ("retry-after", ""), ("server", ""), ("set-cookie", ""),
    ("strict-transport-security", ""), ("transfer-encoding", ""), ("user-agent", ""),
    ("vary", ""), ("via", ""), ("www-authenticate", "")].map
      fun entry => ⟨ascii entry.1, ascii entry.2⟩

def lookup (index : Nat) : Option Field :=
  if index = 0 then none else staticTable[index - 1]?

/-- The continuation bytes of a prefix integer: seven bits each, the lowest first. -/
def decodeContinuation (shift value : Nat) : List UInt8 → Option (Nat × List UInt8)
  | [] => none
  | b :: rest =>
    let value := value + b.toNat % 128 * 2 ^ shift
    if b.toNat < 128 then some (value, rest) else decodeContinuation (shift + 7) value rest

/-- An integer with a prefix of `bits` bits, whose largest value announces continuation bytes. -/
def decodeInteger (bits : Nat) : List UInt8 → Option (Nat × List UInt8)
  | [] => none
  | b :: rest =>
    let value := b.toNat % 2 ^ bits
    if value < 2 ^ bits - 1 then some (value, rest) else decodeContinuation 0 value rest

/-- A string; the highest bit of its first byte marks the Huffman code. -/
def decodeString : List UInt8 → Option (List UInt8 × List UInt8)
  | [] => none
  | b :: rest =>
    if 128 ≤ b.toNat then none
    else do
      let (length, rest) ← decodeInteger 7 (b :: rest)
      if rest.length < length then none
      else return (rest.take length, rest.drop length)

/-- The name that an index stands for, or the one that follows the index 0. -/
def decodeName (index : Nat) (rest : List UInt8) : Option (List UInt8 × List UInt8) :=
  if index = 0 then decodeString rest
  else (lookup index).map fun field => (field.name, rest)

/-- A literal field: its name and its value. -/
def decodeLiteral (bits : Nat) (block : List UInt8) : Option (Field × List UInt8) := do
  let (index, rest) ← decodeInteger bits block
  let (name, rest) ← decodeName index rest
  let (value, rest) ← decodeString rest
  return (⟨name, value⟩, rest)

def decodeField : List UInt8 → Option (Field × List UInt8)
  | [] => none
  | b :: rest =>
    if 128 ≤ b.toNat then do
      let (index, rest) ← decodeInteger 7 (b :: rest)
      let field ← lookup index
      return (field, rest)
    else if 64 ≤ b.toNat then decodeLiteral 6 (b :: rest)
    else if 32 ≤ b.toNat then none
    else decodeLiteral 4 (b :: rest)

def decodeFields : Nat → List UInt8 → Option (List Field)
  | _, [] => some []
  | 0, _ :: _ => none
  | fuel + 1, b :: rest => do
    let (field, rest) ← decodeField (b :: rest)
    let fields ← decodeFields fuel rest
    return field :: fields

/-- Every field takes a byte, so the block is long enough as fuel. -/
def decodeBlock (block : List UInt8) : Option (List Field) := decodeFields block.length block

variable {bits : Nat} {b : UInt8} {block rest : List UInt8}

theorem decodeInteger_short (h : b.toNat % 2 ^ bits < 2 ^ bits - 1) :
    decodeInteger bits (b :: rest) = some (b.toNat % 2 ^ bits, rest) := by
  rw [decodeInteger]
  exact if_pos h

/-- A string whose length is below the largest value of the prefix is read back. -/
theorem decodeString_short {string : List UInt8} (h : string.length < 127) :
    decodeString (UInt8.ofNat string.length :: (string ++ rest)) = some (string, rest) := by
  have hbyte : (UInt8.ofNat string.length).toNat = string.length := by
    rw [UInt8.toNat_ofNat']
    omega
  have hlength : (UInt8.ofNat string.length).toNat % 2 ^ 7 = string.length := by
    rw [hbyte]
    omega
  rw [decodeString, if_neg (by omega), decodeInteger_short (by omega), hlength]
  simp

theorem length_of_decodeContinuation {shift value n : Nat}
    (h : decodeContinuation shift value block = some (n, rest)) :
    rest.length < block.length ∧ value ≤ n := by
  induction block generalizing shift value with
  | nil => cases h
  | cons b block ih =>
    rw [decodeContinuation] at h
    split_ifs at h with hlast
    · cases h
      exact ⟨Nat.lt_succ_self _, Nat.le_add_right _ _⟩
    · obtain ⟨hlength, hle⟩ := ih h
      exact ⟨Nat.lt_succ_of_lt hlength, Nat.le_trans (Nat.le_add_right _ _) hle⟩

theorem length_of_decodeInteger {n : Nat} (h : decodeInteger bits block = some (n, rest)) :
    rest.length < block.length := by
  match block with
  | [] => cases h
  | b :: block =>
    rw [decodeInteger] at h
    split_ifs at h with hshort
    · cases h
      exact Nat.lt_succ_self _
    · exact Nat.lt_succ_of_lt (length_of_decodeContinuation h).1

theorem decodeString_eq_some {string : List UInt8} (h : decodeString block = some (string, rest)) :
    ∃ tail, decodeInteger 7 block = some (string.length, tail) ∧ tail = string ++ rest := by
  match block with
  | [] => cases h
  | b :: block =>
    rw [decodeString] at h
    split_ifs at h with hhuffman
    obtain ⟨⟨n, tail⟩, hinteger, h⟩ := Option.bind_eq_some_iff.mp h
    dsimp only at h
    split_ifs at h with hshort
    cases h
    refine ⟨tail, ?_, (List.take_append_drop n tail).symm⟩
    rw [List.length_take, Nat.min_eq_left (Nat.not_lt.mp hshort)]
    exact hinteger

theorem length_of_decodeString {string : List UInt8}
    (h : decodeString block = some (string, rest)) : string.length + rest.length < block.length := by
  obtain ⟨tail, hinteger, rfl⟩ := decodeString_eq_some h
  have hlength := length_of_decodeInteger hinteger
  rwa [List.length_append] at hlength

theorem length_of_decodeName {index : Nat} {name : List UInt8}
    (h : decodeName index block = some (name, rest)) : rest.length ≤ block.length := by
  rw [decodeName] at h
  split_ifs at h with hzero
  · have hlength := length_of_decodeString h
    omega
  · obtain ⟨entry, -, hentry⟩ := Option.map_eq_some_iff.mp h
    rw [(Prod.mk.inj hentry).2]

theorem length_of_decodeLiteral {field : Field}
    (h : decodeLiteral bits block = some (field, rest)) :
    field.value.length + rest.length + 2 ≤ block.length := by
  rw [decodeLiteral] at h
  obtain ⟨⟨index, rest₁⟩, hindex, h⟩ := Option.bind_eq_some_iff.mp h
  obtain ⟨⟨name, rest₂⟩, hname, h⟩ := Option.bind_eq_some_iff.mp h
  obtain ⟨⟨value, rest₃⟩, hvalue, h⟩ := Option.bind_eq_some_iff.mp h
  cases h
  have hfirst := length_of_decodeInteger hindex
  have hlast := length_of_decodeString hvalue
  have hmiddle := length_of_decodeName hname
  show value.length + rest.length + 2 ≤ block.length
  omega

theorem length_of_decodeField {field : Field} (h : decodeField block = some (field, rest)) :
    field ∈ staticTable ∨ field.value.length + rest.length + 2 ≤ block.length := by
  match block with
  | [] => cases h
  | b :: block =>
    rw [decodeField] at h
    split_ifs at h with hindexed hincremental
    · obtain ⟨⟨index, tail⟩, -, h⟩ := Option.bind_eq_some_iff.mp h
      obtain ⟨entry, hentry, h⟩ := Option.bind_eq_some_iff.mp h
      cases h
      rw [lookup] at hentry
      split_ifs at hentry
      exact .inl (List.mem_of_getElem? hentry)
    · exact .inr (length_of_decodeLiteral h)
    · exact .inr (length_of_decodeLiteral h)

theorem decodeFields_cons_eq_some {fuel : Nat} {field : Field} {fields : List Field}
    (h : decodeFields (fuel + 1) block = some (field :: fields)) :
    ∃ rest, decodeField block = some (field, rest) ∧ decodeFields fuel rest = some fields := by
  match block with
  | [] => cases h
  | b :: block =>
    rw [decodeFields] at h
    obtain ⟨⟨first, rest⟩, hfirst, h⟩ := Option.bind_eq_some_iff.mp h
    obtain ⟨others, hothers, h⟩ := Option.bind_eq_some_iff.mp h
    cases h
    exact ⟨rest, hfirst, hothers⟩

theorem decodeFields_of_field {fuel : Nat} {field : Field} {fields : List Field}
    (hfield : decodeField block = some (field, rest))
    (hrest : decodeFields fuel rest = some fields) :
    decodeFields (fuel + 1) block = some (field :: fields) := by
  match block with
  | [] => cases hfield
  | b :: block =>
    rw [decodeFields, hfield]
    show (decodeFields fuel rest).bind _ = _
    rw [hrest]
    rfl

end Hpack
