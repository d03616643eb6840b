import ApacheFuzz.Corpus.Multipacket
import ApacheFuzz.Library.Http2
import ApacheFuzz.Library.Raising
import Mathlib.Data.Int.Bitwise

/-!
# The HTTP/2 request seeds

`h2_request_headers` writes the length of the path as one byte.  A path of 127 bytes, which its
guard lets pass, fills the prefix of the length, so that a decoder takes the first bytes of the
path for the rest of the length.
-/

namespace ApacheFuzz.Corpus

/-- `stream & 0x7FFFFFFF` -/
def streamBits (stream : Int) : Nat := (Int.land stream 0x7FFFFFFF).toNat

/-- `h2_frame` -/
def h2Frame (frameType flags : UInt8) (stream : Int) (payload : List UInt8) :
    Except Raised (List UInt8) := do
  let length ← toBytes 3 payload.length
  let identifier ← toBytes 4 (streamBits stream)
  return length ++ [frameType, flags] ++ identifier ++ payload

/-- `bytes([n])` for a natural number. -/
def byte (n : Nat) : Except Raised (List UInt8) :=
  if n < 256 then .ok [UInt8.ofNat n] else .error (.valueError "bytes must be in range(0, 256)")

/-- `h2_request_headers` -/
def h2RequestHeaders (stream : Int) (path : List UInt8) : Except Raised (List UInt8) :=
  if path = [] ∨ 0x7F < path.length then
    .error (.valueError "HTTP/2 seed path must contain 1 through 127 bytes")
  else do
    let length ← byte path.length
    let block := [0x82, 0x86, 0x04] ++ length ++ path
    let block := block ++ [0x01, 0x09] ++ Hpack.ascii "localhost"
    h2Frame 0x01 0x05 stream block

private theorem streamBits_eq (stream : Int) : (streamBits stream : Int) = stream % 2 ^ 31 := by
  rw [streamBits]
  cases stream with
  | ofNat n =>
    show ((n &&& (2 ^ 31 - 1) : Nat) : Int) = (n : Int) % 2 ^ 31
    rw [Nat.and_two_pow_sub_one_eq_mod]
    rfl
  | negSucc n =>
    show ((Nat.ldiff (2 ^ 31 - 1) n : Nat) : Int) = _
    have hbits : Nat.ldiff (2 ^ 31 - 1) n = 2 ^ 31 - (n % 2 ^ 31 + 1) := by
      apply Nat.eq_of_testBit_eq
      intro i
      rw [Nat.testBit_ldiff, Nat.testBit_two_pow_sub_one,
        Nat.testBit_two_pow_sub_succ (Nat.mod_lt _ (by decide)), Nat.testBit_mod_two_pow]
      by_cases hi : i < 31 <;> simp [hi]
    have hlt := Nat.mod_lt n (show 0 < 2 ^ 31 by decide)
    rw [hbits, Int.negSucc_emod _ (by decide)]
    omega

private theorem streamBits_lt (stream : Int) : streamBits stream < 2 ^ 31 := by
  have hlt := Int.emod_lt_of_pos stream (show (0 : Int) < 2 ^ 31 by decide)
  rw [← streamBits_eq] at hlt
  omega

/-- The header block of a seed. -/
def seedBlock (path : List UInt8) : List UInt8 :=
  0x82 :: 0x86 :: 0x04 :: UInt8.ofNat path.length ::
    (path ++ 0x01 :: 0x09 :: Hpack.ascii "localhost")

/-- The request that a seed is meant to be. -/
def intendedFields (path : List UInt8) : List Hpack.Field :=
  [⟨Hpack.ascii ":method", Hpack.ascii "GET"⟩, ⟨Hpack.ascii ":scheme", Hpack.ascii "http"⟩,
    ⟨Hpack.ascii ":path", path⟩, ⟨Hpack.ascii ":authority", Hpack.ascii "localhost"⟩]

def intendedRequest (stream : Int) (path : List UInt8) : Http2.Headers :=
  ⟨(stream % 2 ^ 31).toNat, true, true, intendedFields path⟩

private theorem length_seedBlock (path : List UInt8) :
    (seedBlock path).length = path.length + 15 := by
  simp [seedBlock, Hpack.ascii]

private theorem h2RequestHeaders_eq_ok {stream : Int} {path x : List UInt8} :
    h2RequestHeaders stream path = .ok x ↔
      1 ≤ path.length ∧ path.length ≤ 127 ∧
        x = Http2.encodeFrame ⟨0x01, 0x05, streamBits stream, seedBlock path⟩ := by
  rw [h2RequestHeaders]
  split_ifs with hbad
  · have hlength : ¬(1 ≤ path.length ∧ path.length ≤ 127) := by
      rcases hbad with rfl | hlong
      · simp
      · omega
    constructor
    · exact fun h => by cases h
    · exact fun h => absurd ⟨h.1, h.2.1⟩ hlength
  · have hpos : 1 ≤ path.length := by
      rw [not_or] at hbad
      exact List.length_pos_iff.mpr hbad.1
    have hmax : path.length ≤ 127 := by omega
    have hstream := streamBits_lt stream
    have hblock : [0x82, 0x86, 0x04] ++ [UInt8.ofNat path.length] ++ path ++ [0x01, 0x09] ++
        Hpack.ascii "localhost" = seedBlock path := by
      simp [seedBlock]
    have hlength := length_seedBlock path
    rw [byte, if_pos (by omega), Raising.ok_bind]
    dsimp only
    rw [hblock, h2Frame, toBytes_of_lt (by omega), toBytes_of_lt (by omega)]
    simp only [Raising.ok_bind, Raising.pure_eq_ok]
    constructor
    · exact fun h => ⟨hpos, hmax, h.symm⟩
    · exact fun h => h.2.2.symm

def seedTail : List UInt8 := 0x01 :: 0x09 :: Hpack.ascii "localhost"

private theorem decodeField_path (rest : List UInt8) :
    Hpack.decodeField (0x04 :: rest) = (Hpack.decodeString rest).bind fun value =>
      some (⟨Hpack.ascii ":path", value.1⟩, value.2) := by
  rfl

private theorem decodeField_tail :
    Hpack.decodeField seedTail =
      some (⟨Hpack.ascii ":authority", Hpack.ascii "localhost"⟩, []) := by
  decide

private theorem decodeBlock_seedBlock_eq_some (path : List UInt8) :
    Hpack.decodeBlock (seedBlock path) = some (intendedFields path) ↔
      ∃ rest, Hpack.decodeString (UInt8.ofNat path.length :: (path ++ seedTail)) =
          some (path, rest) ∧
        Hpack.decodeFields (path.length + 12) rest =
          some [⟨Hpack.ascii ":authority", Hpack.ascii "localhost"⟩] := by
  have hmethod : Hpack.decodeField (seedBlock path) =
      some (⟨Hpack.ascii ":method", Hpack.ascii "GET"⟩, (seedBlock path).drop 1) := rfl
  have hscheme : Hpack.decodeField ((seedBlock path).drop 1) =
      some (⟨Hpack.ascii ":scheme", Hpack.ascii "http"⟩, (seedBlock path).drop 2) := rfl
  have hpath := decodeField_path (UInt8.ofNat path.length :: (path ++ seedTail))
  rw [Hpack.decodeBlock, length_seedBlock]
  constructor
  · intro h
    obtain ⟨rest, hfield, h⟩ := Hpack.decodeFields_cons_eq_some h
    cases hmethod.symm.trans hfield
    obtain ⟨rest, hfield, h⟩ := Hpack.decodeFields_cons_eq_some h
    cases hscheme.symm.trans hfield
    obtain ⟨rest, hfield, h⟩ := Hpack.decodeFields_cons_eq_some h
    obtain ⟨⟨value, rest'⟩, hstring, hvalue⟩ := Option.bind_eq_some_iff.mp (hpath.symm.trans hfield)
    cases hvalue
    exact ⟨_, hstring, h⟩
  · rintro ⟨rest, hstring, htail⟩
    rw [hstring] at hpath
    exact Hpack.decodeFields_of_field hmethod
      (Hpack.decodeFields_of_field hscheme (Hpack.decodeFields_of_field hpath htail))

private theorem decodeBlock_short {path : List UInt8} (hlength : path.length ≤ 126) :
    Hpack.decodeBlock (seedBlock path) = some (intendedFields path) := by
  apply (decodeBlock_seedBlock_eq_some path).mpr
  exact ⟨seedTail, Hpack.decodeString_short (by omega),
    Hpack.decodeFields_of_field decodeField_tail (by rw [Hpack.decodeFields])⟩

/-- The byte 127 is followed by the rest of the length, so the path that is read cannot be the
whole path with the authority left behind it. -/
theorem not_decodeBlock_long {path : List UInt8} (hlength : path.length = 127) :
    Hpack.decodeBlock (seedBlock path) ≠ some (intendedFields path) := by
  intro h
  obtain ⟨rest, hstring, hfields⟩ := (decodeBlock_seedBlock_eq_some path).mp h
  obtain ⟨tail, hinteger, rfl⟩ := Hpack.decodeString_eq_some hstring
  have hcontinuation : Hpack.decodeContinuation 0 127 (path ++ seedTail) =
      some (path.length, path ++ rest) := by
    rw [hlength] at hinteger ⊢
    exact hinteger
  have hshorter := (Hpack.length_of_decodeContinuation hcontinuation).1
  have hauthority : rest.length < 11 := by
    simpa [seedTail, Hpack.ascii] using hshorter
  obtain ⟨rest', hfield, -⟩ := Hpack.decodeFields_cons_eq_some hfields
  rcases Hpack.length_of_decodeField hfield with hstatic | hlong
  · exact absurd hstatic (by decide)
  · have hvalue : (Hpack.ascii "localhost").length = 9 := rfl
    dsimp only at hlong
    omega

/-- A request seed decodes to the intended request exactly when its path has less than 127
bytes. -/
theorem h2RequestHeaders_decodes_iff {stream : Int} {path x : List UInt8}
    (h : h2RequestHeaders stream path = .ok x) :
    Http2.decodeRequests x = some [intendedRequest stream path] ↔ path.length ≤ 126 := by
  obtain ⟨hpos, hmax, rfl⟩ := h2RequestHeaders_eq_ok.mp h
  have hlength := length_seedBlock path
  have hstream : streamBits stream = (stream % 2 ^ 31).toNat := by
    rw [← streamBits_eq]
    rfl
  have hheaders : Http2.Frame.headers ⟨0x01, 0x05, streamBits stream, seedBlock path⟩ =
      (Hpack.decodeBlock (seedBlock path)).map fun fields =>
        ⟨streamBits stream, true, true, fields⟩ :=
    Http2.headers_of_complete rfl rfl
  rw [Http2.decodeRequests_encodeFrame (by show (seedBlock path).length < _; omega)
    (streamBits_lt stream), hheaders]
  constructor
  · intro hdecoded
    by_contra hlong
    obtain ⟨headers, hheaders, hsame⟩ := Option.map_eq_some_iff.mp hdecoded
    obtain ⟨fields, hfields, hfinal⟩ := Option.map_eq_some_iff.mp hheaders
    have hfields' : fields = intendedFields path := by
      rw [← hfinal] at hsame
      exact congrArg Http2.Headers.fields (List.cons.inj hsame).1
    rw [hfields'] at hfields
    exact not_decodeBlock_long (by omega) hfields
  · intro hshort
    rw [decodeBlock_short hshort, hstream]
    rfl

theorem h2RequestHeaders_decodes_iff_slash :
    ∃ x, h2RequestHeaders (-1) [47] = .ok x ∧
      (Http2.decodeRequests x = some [intendedRequest (-1) [47]] ↔ [(47 : UInt8)].length ≤ 126) := by
  have hok := h2RequestHeaders_eq_ok.mpr ⟨by decide, by decide, (rfl : _ = Http2.encodeFrame
    ⟨0x01, 0x05, streamBits (-1), seedBlock [47]⟩)⟩
  exact ⟨_, hok, h2RequestHeaders_decodes_iff hok⟩

/-- A path of 127 slashes is accepted, and its seed does not decode to the request. -/
theorem long_path_misread :
    ∃ x, h2RequestHeaders 1 (List.replicate 127 47) = .ok x ∧
      Http2.decodeRequests x ≠ some [intendedRequest 1 (List.replicate 127 47)] := by
  have hlength : (List.replicate 127 (47 : UInt8)).length = 127 := List.length_replicate
  refine ⟨Http2.encodeFrame ⟨0x01, 0x05, streamBits 1, seedBlock (List.replicate 127 47)⟩,
    h2RequestHeaders_eq_ok.mpr ⟨by omega, by omega, rfl⟩, ?_⟩
  decide +kernel

end ApacheFuzz.Corpus
