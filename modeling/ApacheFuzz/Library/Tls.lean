import ApacheFuzz.Library.Reading

/-!
# The ClientHello of TLS

One record that carries one handshake message, a ClientHello.  Every part of variable size stands
behind a length field, which is all that the readers go by: the record, the handshake message,
the fields of the hello, the block of extensions, each extension, and the vectors inside it.
-/

namespace Tls

open Reader

inductive Extension
  | serverName (names : List (UInt8 × List UInt8))
  | supportedGroups (groups : List (List UInt8))
  | signatureAlgorithms (algorithms : List (List UInt8))
  | protocolNegotiation (protocols : List (List UInt8))
  | supportedVersions (versions : List (List UInt8))
  | pskModes (modes : List UInt8)
  | keyShare (entries : List (List UInt8 × List UInt8))
  | other (number value : List UInt8)
  deriving DecidableEq, Repr

structure ClientHello where
  version : List UInt8
  random : List UInt8
  session : List UInt8
  suites : List (List UInt8)
  compression : List UInt8
  extensions : List Extension
  deriving DecidableEq, Repr

structure Handshake where
  type : UInt8
  hello : ClientHello
  deriving DecidableEq, Repr

structure Record where
  type : UInt8
  version : List UInt8
  handshake : Handshake
  deriving DecidableEq, Repr

/-- The names that the hello offers for the protocol above it. -/
def ClientHello.protocols (hello : ClientHello) : List (List UInt8) :=
  hello.extensions.flatMap fun extension =>
    match extension with
    | .protocolNegotiation protocols => protocols
    | _ => []

def encodeTagged (name : UInt8 × List UInt8) : List UInt8 := [name.1] ++ vector 2 name.2

def encodeKeyed (entry : List UInt8 × List UInt8) : List UInt8 := entry.1 ++ vector 2 entry.2

def Extension.number : Extension → List UInt8
  | .serverName _ => [0x00, 0x00]
  | .supportedGroups _ => [0x00, 0x0A]
  | .signatureAlgorithms _ => [0x00, 0x0D]
  | .protocolNegotiation _ => [0x00, 0x10]
  | .supportedVersions _ => [0x00, 0x2B]
  | .pskModes _ => [0x00, 0x2D]
  | .keyShare _ => [0x00, 0x33]
  | .other number _ => number

def Extension.value : Extension → List UInt8
  | .serverName names => vector 2 (names.flatMap encodeTagged)
  | .supportedGroups groups => vector 2 groups.flatten
  | .signatureAlgorithms algorithms => vector 2 algorithms.flatten
  | .protocolNegotiation protocols => vector 2 (protocols.flatMap (vector 1))
  | .supportedVersions versions => vector 1 versions.flatten
  | .pskModes modes => vector 1 modes
  | .keyShare entries => vector 2 (entries.flatMap encodeKeyed)
  | .other _ value => value

def Extension.encode (extension : Extension) : List UInt8 :=
  extension.number ++ vector 2 extension.value

def ClientHello.encode (hello : ClientHello) : List UInt8 :=
  hello.version ++ (hello.random ++ (vector 1 hello.session ++ (vector 2 hello.suites.flatten ++
    (vector 1 hello.compression ++ vector 2 (hello.extensions.flatMap Extension.encode)))))

def Handshake.encode (handshake : Handshake) : List UInt8 :=
  [handshake.type] ++ vector 3 handshake.hello.encode

def Record.encode (record : Record) : List UInt8 :=
  [record.type] ++ (record.version ++ vector 2 record.handshake.encode)

def tagged : Reader (UInt8 × List UInt8) := do
  let tag ← byte
  let value ← sized 2 rest
  return (tag, value)

def keyed : Reader (List UInt8 × List UInt8) := do
  let key ← bytes 2
  let value ← sized 2 rest
  return (key, value)

/-- The reader of an extension's value. -/
def valueOf (number : List UInt8) : Reader Extension :=
  if number = [0x00, 0x00] then .serverName <$> sized 2 (many tagged)
  else if number = [0x00, 0x0A] then .supportedGroups <$> sized 2 (many (bytes 2))
  else if number = [0x00, 0x0D] then .signatureAlgorithms <$> sized 2 (many (bytes 2))
  else if number = [0x00, 0x10] then .protocolNegotiation <$> sized 2 (many (sized 1 rest))
  else if number = [0x00, 0x2B] then .supportedVersions <$> sized 1 (many (bytes 2))
  else if number = [0x00, 0x2D] then .pskModes <$> sized 1 rest
  else if number = [0x00, 0x33] then .keyShare <$> sized 2 (many keyed)
  else .other number <$> rest

def extension : Reader Extension := do
  let number ← bytes 2
  sized 2 (valueOf number)

def clientHello : Reader ClientHello := do
  let version ← bytes 2
  let random ← bytes 32
  let session ← sized 1 rest
  let suites ← sized 2 (many (bytes 2))
  let compression ← sized 1 rest
  let extensions ← sized 2 (many extension)
  return ⟨version, random, session, suites, compression, extensions⟩

def handshake : Reader Handshake := do
  let type ← byte
  let hello ← sized 3 clientHello
  return ⟨type, hello⟩

def record : Reader Record := do
  let type ← byte
  let version ← bytes 2
  let handshake ← sized 2 handshake
  return ⟨type, version, handshake⟩

def Pairs (items : List (List UInt8)) : Prop := ∀ item ∈ items, item.length = 2

instance (items : List (List UInt8)) : Decidable (Pairs items) := by
  unfold Pairs
  infer_instance

/-- The parts of the value fit their length fields. -/
def Extension.Fits : Extension → Prop
  | .serverName names =>
    (∀ name ∈ names, name.2.length < 256 ^ 2) ∧ (names.flatMap encodeTagged).length < 256 ^ 2
  | .supportedGroups groups => Pairs groups ∧ groups.flatten.length < 256 ^ 2
  | .signatureAlgorithms algorithms => Pairs algorithms ∧ algorithms.flatten.length < 256 ^ 2
  | .protocolNegotiation protocols =>
    (∀ protocol ∈ protocols, protocol.length < 256 ^ 1) ∧
      (protocols.flatMap (vector 1)).length < 256 ^ 2
  | .supportedVersions versions => Pairs versions ∧ versions.flatten.length < 256 ^ 1
  | .pskModes modes => modes.length < 256 ^ 1
  | .keyShare entries =>
    (∀ entry ∈ entries, entry.1.length = 2 ∧ entry.2.length < 256 ^ 2) ∧
      (entries.flatMap encodeKeyed).length < 256 ^ 2
  | .other number _ =>
    number.length = 2 ∧ number ∉ [[0x00, 0x00], [0x00, 0x0A], [0x00, 0x0D], [0x00, 0x10],
      [0x00, 0x2B], [0x00, 0x2D], [0x00, 0x33]]

structure ClientHello.WellFormed (hello : ClientHello) : Prop where
  version : hello.version.length = 2
  random : hello.random.length = 32
  session : hello.session.length < 256 ^ 1
  suites : Pairs hello.suites
  suites_length : hello.suites.flatten.length < 256 ^ 2
  compression : hello.compression.length < 256 ^ 1
  fits : ∀ extension ∈ hello.extensions, extension.Fits
  value_length : ∀ extension ∈ hello.extensions, extension.value.length < 256 ^ 2
  extensions_length : (hello.extensions.flatMap Extension.encode).length < 256 ^ 2

structure Record.WellFormed (record : Record) : Prop where
  version : record.version.length = 2
  hello : record.handshake.hello.WellFormed
  hello_length : record.handshake.hello.encode.length < 256 ^ 3
  handshake_length : record.handshake.encode.length < 256 ^ 2

theorem exactly_pairs {items : List (List UInt8)} (h : Pairs items) :
    exactly (many (bytes 2)) items.flatten = some items := by
  rw [← List.flatMap_id]
  apply exactly_many
  · intro item hmem
    exact reads_bytes (h item hmem)
  · rintro item hmem rfl
    exact absurd (h [] hmem) (by decide)

theorem vector_ne_nil {width : Nat} {content : List UInt8} (hwidth : 0 < width) :
    vector width content ≠ [] := by
  rw [← List.length_pos_iff, length_vector]
  omega

theorem reads_tagged {name : UInt8 × List UInt8} (h : name.2.length < 256 ^ 2) :
    Reads tagged (encodeTagged name) name := by
  rw [encodeTagged, ← List.append_nil (vector 2 name.2)]
  apply (reads_byte name.1).bind
  apply (Reads.sized (exactly_rest name.2) h).bind
  exact Reads.pure name

theorem reads_keyed {entry : List UInt8 × List UInt8} (hkey : entry.1.length = 2)
    (h : entry.2.length < 256 ^ 2) : Reads keyed (encodeKeyed entry) entry := by
  rw [encodeKeyed, ← List.append_nil (vector 2 entry.2)]
  apply (reads_bytes hkey).bind
  apply (Reads.sized (exactly_rest entry.2) h).bind
  exact Reads.pure entry

theorem Extension.number_length {extension : Extension} (h : extension.Fits) :
    extension.number.length = 2 := by
  cases extension with
  | other number value => exact h.1
  | _ => rfl

theorem Extension.exactly_value {extension : Extension} (h : extension.Fits) :
    exactly (valueOf extension.number) extension.value = some extension := by
  cases extension with
  | serverName names =>
    have hread : ∀ name ∈ names, Reads tagged (encodeTagged name) name :=
      fun name hmem => reads_tagged (h.1 name hmem)
    have hpos : ∀ name ∈ names, encodeTagged name ≠ [] := fun name _ => List.cons_ne_nil _ _
    exact (Reads.map _ (Reads.sized (exactly_many hread hpos) h.2)).exactly
  | supportedGroups groups =>
    exact (Reads.map _ (Reads.sized (exactly_pairs h.1) h.2)).exactly
  | signatureAlgorithms algorithms =>
    exact (Reads.map _ (Reads.sized (exactly_pairs h.1) h.2)).exactly
  | protocolNegotiation protocols =>
    have hread : ∀ protocol ∈ protocols, Reads (sized 1 rest) (vector 1 protocol) protocol :=
      fun protocol hmem => Reads.sized (exactly_rest protocol) (h.1 protocol hmem)
    have hpos : ∀ protocol ∈ protocols, vector 1 protocol ≠ [] :=
      fun protocol _ => vector_ne_nil (by decide)
    exact (Reads.map _ (Reads.sized (exactly_many hread hpos) h.2)).exactly
  | supportedVersions versions =>
    exact (Reads.map _ (Reads.sized (exactly_pairs h.1) h.2)).exactly
  | pskModes modes =>
    exact (Reads.map _ (Reads.sized (exactly_rest modes) h)).exactly
  | keyShare entries =>
    have hread : ∀ entry ∈ entries, Reads keyed (encodeKeyed entry) entry :=
      fun entry hmem => reads_keyed (h.1 entry hmem).1 (h.1 entry hmem).2
    have hpos : ∀ entry ∈ entries, encodeKeyed entry ≠ [] := by
      intro entry _ hnil
      rw [encodeKeyed, List.append_eq_nil_iff] at hnil
      exact vector_ne_nil (by decide) hnil.2
    exact (Reads.map _ (Reads.sized (exactly_many hread hpos) h.2)).exactly
  | other number value =>
    have hother := h.2
    simp only [List.mem_cons, List.not_mem_nil, or_false, not_or] at hother
    obtain ⟨h₀, h₁, h₂, h₃, h₄, h₅, h₆⟩ := hother
    show exactly (valueOf number) value = _
    rw [valueOf, if_neg h₀, if_neg h₁, if_neg h₂, if_neg h₃, if_neg h₄, if_neg h₅, if_neg h₆]
    exact exactly_map_rest _ value

theorem Extension.reads {extension : Extension} (h : extension.Fits)
    (hlength : extension.value.length < 256 ^ 2) :
    Reads Tls.extension extension.encode extension :=
  (reads_bytes (Extension.number_length h)).bind
    (Reads.sized (Extension.exactly_value h) hlength)

theorem Extension.encode_ne_nil (extension : Extension) : extension.encode ≠ [] := by
  intro hnil
  rw [Extension.encode, List.append_eq_nil_iff] at hnil
  exact vector_ne_nil (by decide) hnil.2

theorem ClientHello.reads {hello : ClientHello} (h : hello.WellFormed) :
    Reads clientHello hello.encode hello := by
  have hextensions : exactly (many extension) (hello.extensions.flatMap Extension.encode) =
      some hello.extensions :=
    exactly_many (fun e hmem => Extension.reads (h.fits e hmem) (h.value_length e hmem))
      (fun e _ => e.encode_ne_nil)
  rw [ClientHello.encode, ← List.append_nil (vector 2 (hello.extensions.flatMap _))]
  apply (reads_bytes h.version).bind
  apply (reads_bytes h.random).bind
  apply (Reads.sized (exactly_rest hello.session) h.session).bind
  apply (Reads.sized (exactly_pairs h.suites) h.suites_length).bind
  apply (Reads.sized (exactly_rest hello.compression) h.compression).bind
  apply (Reads.sized hextensions h.extensions_length).bind
  exact Reads.pure hello

theorem Handshake.reads {message : Handshake} (h : message.hello.WellFormed)
    (hlength : message.hello.encode.length < 256 ^ 3) :
    Reads handshake message.encode message := by
  rw [Handshake.encode, ← List.append_nil (vector 3 _)]
  apply (reads_byte message.type).bind
  apply (Reads.sized (ClientHello.reads h).exactly hlength).bind
  exact Reads.pure message

/-- A well-formed record is read back whole, with nothing left over at any level. -/
theorem Record.exactly_encode {r : Record} (h : r.WellFormed) :
    exactly record r.encode = some r := by
  apply Reads.exactly
  rw [Record.encode, ← List.append_nil (vector 2 _)]
  apply (reads_byte r.type).bind
  apply (reads_bytes h.version).bind
  apply (Reads.sized (Handshake.reads h.hello h.hello_length).exactly h.handshake_length).bind
  exact Reads.pure r

end Tls
