import ApacheFuzz.Corpus.Multipacket
import ApacheFuzz.Library.Hpack
import ApacheFuzz.Library.Raising
import ApacheFuzz.Library.Tls

/-!
# ClientHello seeds

`tls_client_hello` of `generate-interesting-corpus.py` writes its lengths from the inside out, and
each of them may overflow.  Whatever it returns is the encoding of one record, which a reader
that goes by the length fields alone takes apart again.
-/

namespace ApacheFuzz.Corpus

open Reader (vector)
open Raising

/-- `tls_record` -/
def tlsRecord (contentType : UInt8) (payload version : List UInt8) :
    Except Raised (List UInt8) := do
  let length ← toBytes 2 payload.length
  return [contentType] ++ version ++ length ++ payload

/-- `tls_extension` -/
def tlsExtension (number : Nat) (value : List UInt8) : Except Raised (List UInt8) := do
  let number ← toBytes 2 number
  let length ← toBytes 2 value.length
  return number ++ length ++ value

def extendProtocol (encoded protocol : List UInt8) : Except Raised (List UInt8) :=
  if ¬(1 ≤ protocol.length ∧ protocol.length ≤ 255) then
    .error (.valueError "TLS ALPN protocol names must contain 1 through 255 bytes")
  else .ok (encoded ++ [UInt8.ofNat protocol.length] ++ protocol)

/-- `tls_alpn` -/
def tlsAlpn (protocols : List (List UInt8)) : Except Raised (List UInt8) := do
  let encoded ← protocols.foldlM extendProtocol []
  if encoded = [] ∨ 0xFFFF < encoded.length then
    throw (.valueError "TLS ALPN protocol list must contain 1 through 65535 bytes")
  let length ← toBytes 2 encoded.length
  return length ++ encoded

def countFrom (start stop : Nat) : List UInt8 :=
  (List.range' start (stop - start)).map UInt8.ofNat

/-- `tls_client_hello` -/
def tlsClientHello (protocols : List (List UInt8)) : Except Raised (List UInt8) := do
  let name := Hpack.ascii "localhost"
  let listLength ← toBytes 2 (name ++ [0x00, 0x00, 0x00]).length
  let nameLength ← toBytes 2 name.length
  let serverName := listLength ++ ([0x00] ++ nameLength ++ name)
  let alpn ← tlsAlpn protocols
  let groups := [0x00, 0x04, 0x00, 0x1d, 0x00, 0x17]
  let signatures := [0x00, 0x08, 0x08, 0x04, 0x04, 0x03, 0x08, 0x05, 0x04, 0x01]
  let key := countFrom 1 33
  let keyLength ← toBytes 2 key.length
  let keyShareEntry := [0x00, 0x1d] ++ keyLength ++ key
  let entryLength ← toBytes 2 keyShareEntry.length
  let keyShare := entryLength ++ keyShareEntry
  let serverName ← tlsExtension 0x0000 serverName
  let alpn ← tlsExtension 0x0010 alpn
  let groups ← tlsExtension 0x000A groups
  let signatures ← tlsExtension 0x000D signatures
  let versions ← tlsExtension 0x002B [0x02, 0x03, 0x04]
  let modes ← tlsExtension 0x002D [0x01, 0x01]
  let keyShare ← tlsExtension 0x0033 keyShare
  let extensions := [serverName, alpn, groups, signatures, versions, modes, keyShare].flatten
  let extensionsLength ← toBytes 2 extensions.length
  let body := [0x03, 0x03] ++ countFrom 0 32 ++ [0x00] ++
    [0x00, 0x08, 0x13, 0x01, 0x13, 0x02, 0x13, 0x03, 0xc0, 0x2f] ++ [0x01, 0x00] ++
    extensionsLength ++ extensions
  let bodyLength ← toBytes 3 body.length
  let handshake := [0x01] ++ bodyLength ++ body
  tlsRecord 0x16 handshake [0x03, 0x01]

/-- What the seed offers. -/
def offeredHello (protocols : List (List UInt8)) : Tls.ClientHello where
  version := [0x03, 0x03]
  random := countFrom 0 32
  session := []
  suites := [[0x13, 0x01], [0x13, 0x02], [0x13, 0x03], [0xc0, 0x2f]]
  compression := [0x00]
  extensions := [
    .serverName [(0x00, Hpack.ascii "localhost")],
    .protocolNegotiation protocols,
    .supportedGroups [[0x00, 0x1d], [0x00, 0x17]],
    .signatureAlgorithms [[0x08, 0x04], [0x04, 0x03], [0x08, 0x05], [0x04, 0x01]],
    .supportedVersions [[0x03, 0x04]],
    .pskModes [0x01],
    .keyShare [([0x00, 0x1d], countFrom 1 33)]]

/-- The handshake message of the seed, whether or not a record can carry it. -/
def handshakeMessage (protocols : List (List UInt8)) : Tls.Handshake :=
  ⟨0x01, offeredHello protocols⟩

def helloRecord (protocols : List (List UInt8)) : Tls.Record :=
  ⟨0x16, [0x03, 0x01], handshakeMessage protocols⟩

/-- The names that the length byte of a protocol can carry. -/
def Named (protocol : List UInt8) : Prop := 1 ≤ protocol.length ∧ protocol.length ≤ 255

private theorem tlsRecord_eq_ok {contentType : UInt8} {payload version x : List UInt8} :
    tlsRecord contentType payload version = .ok x ↔
      payload.length < 256 ^ 2 ∧ x = [contentType] ++ (version ++ vector 2 payload) := by
  rw [tlsRecord, bind_eq_ok]
  simp only [toBytes_eq_ok, pure_eq_ok, and_assoc, exists_and_left, exists_eq_left]
  simp [vector, eq_comm]

private theorem tlsExtension_eq_ok {number : Nat} {value x : List UInt8}
    (hnumber : number < 256 ^ 2) : tlsExtension number value = .ok x ↔
      value.length < 256 ^ 2 ∧ x = BigEndian.digits 2 number ++ vector 2 value := by
  rw [tlsExtension, toBytes_of_lt hnumber, ok_bind, bind_eq_ok]
  simp only [toBytes_eq_ok, pure_eq_ok, and_assoc, exists_and_left, exists_eq_left]
  simp [vector, eq_comm]

private theorem extendProtocol_eq_ok {encoded protocol x : List UInt8} :
    extendProtocol encoded protocol = .ok x ↔
      Named protocol ∧ x = encoded ++ vector 1 protocol := by
  have hvector : vector 1 protocol = [UInt8.ofNat protocol.length] ++ protocol := rfl
  rw [extendProtocol, hvector, ← List.append_assoc]
  by_cases hnamed : 1 ≤ protocol.length ∧ protocol.length ≤ 255
  · simp [Named, hnamed, eq_comm]
  · simp [Named, hnamed]

private theorem foldlM_extendProtocol_eq_ok {protocols : List (List UInt8)}
    {encoded x : List UInt8} : protocols.foldlM extendProtocol encoded = .ok x ↔
      (∀ protocol ∈ protocols, Named protocol) ∧
        x = encoded ++ protocols.flatMap (vector 1) :=
  foldlM_append_eq_ok @extendProtocol_eq_ok

private theorem flatMap_vector_eq_nil {protocols : List (List UInt8)} :
    protocols.flatMap (vector 1) = [] ↔ protocols = [] := by
  constructor
  · intro hnil
    cases protocols with
    | nil => rfl
    | cons protocol protocols =>
      rw [List.flatMap_cons, List.append_eq_nil_iff] at hnil
      exact absurd hnil.1 (Tls.vector_ne_nil (by decide))
  · rintro rfl
    rfl

private theorem tlsAlpn_eq_ok {protocols : List (List UInt8)} {x : List UInt8} :
    tlsAlpn protocols = .ok x ↔
      (∀ protocol ∈ protocols, Named protocol) ∧ protocols ≠ [] ∧
        (protocols.flatMap (vector 1)).length < 256 ^ 2 ∧
        x = vector 2 (protocols.flatMap (vector 1)) := by
  rw [tlsAlpn, bind_eq_ok]
  simp only [foldlM_extendProtocol_eq_ok, List.nil_append, and_assoc, exists_and_left,
    exists_eq_left]
  apply and_congr_right
  intro _
  rw [← flatMap_vector_eq_nil.ne]
  generalize protocols.flatMap (vector 1) = encoded
  by_cases hbad : encoded = [] ∨ 0xFFFF < encoded.length
  · rw [if_pos hbad]
    constructor
    · rintro ⟨⟩
    · rintro ⟨hne, hlt, _⟩
      rcases hbad with hnil | hlong
      · exact absurd hnil hne
      · omega
  · rw [if_neg hbad, bind_eq_ok]
    rw [not_or, not_lt] at hbad
    simp only [toBytes_eq_ok, pure_eq_ok, and_assoc, exists_and_left, exists_eq_left]
    simp [vector, hbad.1, eq_comm]

/-- The end of `tls_client_hello`, from the block of extensions on. -/
def sealHello (extensions : List UInt8) : Except Raised (List UInt8) := do
  let extensionsLength ← toBytes 2 extensions.length
  let body := [0x03, 0x03] ++ countFrom 0 32 ++ [0x00] ++
    [0x00, 0x08, 0x13, 0x01, 0x13, 0x02, 0x13, 0x03, 0xc0, 0x2f] ++ [0x01, 0x00] ++
    extensionsLength ++ extensions
  let bodyLength ← toBytes 3 body.length
  let handshake := [0x01] ++ bodyLength ++ body
  tlsRecord 0x16 handshake [0x03, 0x01]

private theorem tlsClientHello_eq (protocols : List (List UInt8)) :
    tlsClientHello protocols = (do
      let alpn ← tlsAlpn protocols
      let alpn ← tlsExtension 0x0010 alpn
      sealHello [(Tls.Extension.serverName [(0x00, Hpack.ascii "localhost")]).encode, alpn,
        (Tls.Extension.supportedGroups [[0x00, 0x1d], [0x00, 0x17]]).encode,
        (Tls.Extension.signatureAlgorithms
          [[0x08, 0x04], [0x04, 0x03], [0x08, 0x05], [0x04, 0x01]]).encode,
        (Tls.Extension.supportedVersions [[0x03, 0x04]]).encode,
        (Tls.Extension.pskModes [0x01]).encode,
        (Tls.Extension.keyShare [([0x00, 0x1d], countFrom 1 33)]).encode].flatten) := rfl

private theorem length_handshakeMessage (protocols : List (List UInt8)) :
    (handshakeMessage protocols).encode.length =
      156 + (protocols.flatMap (vector 1)).length := by
  simp [handshakeMessage, offeredHello, Tls.Handshake.encode, Tls.ClientHello.encode,
    Tls.Extension.encode, Tls.Extension.value, Tls.Extension.number, Tls.encodeTagged,
    Tls.encodeKeyed, Hpack.ascii, countFrom]
  omega

private theorem handshakeMessage_longest (protocols : List (List UInt8)) :
    ((offeredHello protocols).extensions.flatMap Tls.Extension.encode).length + 53 =
        (handshakeMessage protocols).encode.length ∧
      (offeredHello protocols).encode.length + 4 = (handshakeMessage protocols).encode.length := by
  constructor
  · rw [length_handshakeMessage]
    simp [offeredHello, Tls.Extension.encode, Tls.Extension.value, Tls.Extension.number,
      Tls.encodeTagged, Tls.encodeKeyed, Hpack.ascii, countFrom]
    omega
  · rw [handshakeMessage, Tls.Handshake.encode, List.length_append, Reader.length_vector,
      List.length_singleton]
    dsimp only
    omega

private theorem encode_offeredHello (protocols : List (List UInt8)) :
    (offeredHello protocols).encode =
      [0x03, 0x03] ++ countFrom 0 32 ++ [0x00] ++
        [0x00, 0x08, 0x13, 0x01, 0x13, 0x02, 0x13, 0x03, 0xc0, 0x2f] ++ [0x01, 0x00] ++
        BigEndian.digits 2
          ((offeredHello protocols).extensions.flatMap Tls.Extension.encode).length ++
        (offeredHello protocols).extensions.flatMap Tls.Extension.encode := by
  have hsession : vector 1 [] = [0x00] := rfl
  have hsuites : vector 2 [[0x13, 0x01], [0x13, 0x02], [0x13, 0x03], [0xc0, 0x2f]].flatten =
      [0x00, 0x08, 0x13, 0x01, 0x13, 0x02, 0x13, 0x03, 0xc0, 0x2f] := rfl
  have hcompression : vector 1 [0x00] = [0x01, 0x00] := rfl
  show [0x03, 0x03] ++ (countFrom 0 32 ++ (vector 1 [] ++ (vector 2 (List.flatten _) ++
    (vector 1 [0x00] ++ vector 2 _)))) = _
  rw [hsession, hcompression, offeredHello, hsuites]
  simp only [vector, List.append_assoc]

private theorem sealHello_eq_ok {protocols : List (List UInt8)} {block x : List UInt8}
    (hblock : block = (offeredHello protocols).extensions.flatMap Tls.Extension.encode) :
    sealHello block = .ok x ↔
      (handshakeMessage protocols).encode.length < 256 ^ 2 ∧
        x = (helloRecord protocols).encode := by
  obtain ⟨hextensions, hhello⟩ := handshakeMessage_longest protocols
  have hmessage : [0x01] ++ BigEndian.digits 3 (offeredHello protocols).encode.length ++
      (offeredHello protocols).encode = (handshakeMessage protocols).encode := rfl
  rw [hblock, sealHello]
  simp only [bind_eq_ok, toBytes_eq_ok, tlsRecord_eq_ok, and_assoc, exists_and_left,
    exists_eq_left, ← encode_offeredHello, hmessage]
  constructor
  · rintro ⟨_, _, hfits, hx⟩
    exact ⟨hfits, hx⟩
  · rintro ⟨hfits, hx⟩
    exact ⟨by omega, by omega, hfits, hx⟩

/-- The seed is the encoding of its record, and exists when the handshake message fits. -/
theorem tlsClientHello_eq_ok {protocols : List (List UInt8)} {x : List UInt8} :
    tlsClientHello protocols = .ok x ↔
      (∀ protocol ∈ protocols, Named protocol) ∧ protocols ≠ [] ∧
        (handshakeMessage protocols).encode.length < 256 ^ 2 ∧
        x = (helloRecord protocols).encode := by
  have hlength := length_handshakeMessage protocols
  rw [tlsClientHello_eq, bind_eq_ok]
  simp only [bind_eq_ok, tlsAlpn_eq_ok, tlsExtension_eq_ok (by decide : 0x0010 < 256 ^ 2),
    and_assoc, exists_and_left, exists_eq_left]
  apply and_congr_right
  intro _
  apply and_congr_right
  intro _
  rw [@sealHello_eq_ok protocols _ x (by rfl), Reader.length_vector]
  constructor
  · rintro ⟨_, _, hfits, hx⟩
    exact ⟨hfits, hx⟩
  · rintro ⟨hfits, hx⟩
    exact ⟨by omega, by omega, hfits, hx⟩

private theorem offeredHello_fits {protocols : List (List UInt8)}
    (hnamed : ∀ protocol ∈ protocols, Named protocol)
    (hlist : (protocols.flatMap (vector 1)).length + 2 < 256 ^ 2) :
    ∀ extension ∈ (offeredHello protocols).extensions,
      extension.Fits ∧ extension.value.length < 256 ^ 2 := by
  have hnames : ∀ protocol ∈ protocols, protocol.length < 256 ^ 1 := by
    intro protocol hmem
    have hlong := (hnamed protocol hmem).2
    omega
  intro extension hmem
  simp only [offeredHello, List.mem_cons, List.not_mem_nil, or_false] at hmem
  rcases hmem with rfl | rfl | rfl | rfl | rfl | rfl | rfl
  · exact ⟨⟨by decide, by decide⟩, by decide⟩
  · rw [Tls.Extension.value, Reader.length_vector]
    exact ⟨⟨hnames, by omega⟩, by omega⟩
  · exact ⟨⟨by decide, by decide⟩, by decide⟩
  · exact ⟨⟨by decide, by decide⟩, by decide⟩
  · exact ⟨⟨by decide, by decide⟩, by decide⟩
  · exact ⟨(by decide : 1 < 256 ^ 1), by decide⟩
  · exact ⟨⟨by decide, by decide⟩, by decide⟩

private theorem helloRecord_wellFormed {protocols : List (List UInt8)}
    (hnamed : ∀ protocol ∈ protocols, Named protocol)
    (hfits : (handshakeMessage protocols).encode.length < 256 ^ 2) :
    (helloRecord protocols).WellFormed := by
  obtain ⟨hextensions, hhello⟩ := handshakeMessage_longest protocols
  have hlength := length_handshakeMessage protocols
  have hparts := offeredHello_fits hnamed (by omega)
  have hwell : (offeredHello protocols).WellFormed :=
    { version := rfl
      random := rfl
      session := show 0 < 256 ^ 1 by decide
      suites := show Tls.Pairs [[0x13, 0x01], [0x13, 0x02], [0x13, 0x03], [0xc0, 0x2f]] by decide
      suites_length := show 8 < 256 ^ 2 by decide
      compression := show 1 < 256 ^ 1 by decide
      fits := fun extension hmem => (hparts extension hmem).1
      value_length := fun extension hmem => (hparts extension hmem).2
      extensions_length := by omega }
  have hhello_length : (offeredHello protocols).encode.length < 256 ^ 3 := by omega
  exact ⟨rfl, hwell, hhello_length, hfits⟩

private theorem protocols_helloRecord (protocols : List (List UInt8)) :
    (helloRecord protocols).handshake.hello.protocols = protocols := by
  show [] ++ (protocols ++ []) = protocols
  rw [List.append_nil, List.nil_append]

/-- The encoder refuses just the lists that no hello can carry, and a reader that goes by the
length fields alone takes every other seed apart to the last byte. -/
theorem client_hello_lengths_agree (protocols : List (List UInt8)) :
    ((∃ raised, tlsClientHello protocols = .error raised) ↔
      protocols = [] ∨ (∃ protocol ∈ protocols, ¬Named protocol) ∨
        65535 < (handshakeMessage protocols).encode.length) ∧
    ∀ seed, tlsClientHello protocols = .ok seed →
      seed = (helloRecord protocols).encode ∧
        Reader.exactly Tls.record seed = some (helloRecord protocols) ∧
        (helloRecord protocols).handshake.hello.protocols = protocols := by
  constructor
  · cases hhello : tlsClientHello protocols with
    | error raised =>
      have hrefused : ¬((∀ protocol ∈ protocols, Named protocol) ∧ protocols ≠ [] ∧
          (handshakeMessage protocols).encode.length < 256 ^ 2) := by
        rintro ⟨hnamed, hne, hfits⟩
        have hok := tlsClientHello_eq_ok.mpr ⟨hnamed, hne, hfits, rfl⟩
        rw [hhello] at hok
        cases hok
      refine ⟨fun _ => ?_, fun _ => ⟨raised, rfl⟩⟩
      by_contra hgood
      simp only [not_or, not_exists, not_and, not_not] at hgood
      exact hrefused ⟨hgood.2.1, hgood.1, by omega⟩
    | ok seed =>
      obtain ⟨hnamed, hne, hfits, _⟩ := tlsClientHello_eq_ok.mp hhello
      constructor
      · rintro ⟨raised, hraised⟩
        cases hraised
      · rintro (hnil | ⟨protocol, hmem, hbad⟩ | hlong)
        · exact absurd hnil hne
        · exact absurd (hnamed protocol hmem) hbad
        · omega
  · intro seed hseed
    obtain ⟨hnamed, _, hfits, rfl⟩ := tlsClientHello_eq_ok.mp hseed
    exact ⟨rfl, Tls.Record.exactly_encode (helloRecord_wellFormed hnamed hfits),
      protocols_helloRecord protocols⟩

end ApacheFuzz.Corpus
