import Mathlib.Data.List.Basic
import Mathlib.Data.UInt

/-!
# Length-prefixed frames

A body is preceded by its length as a big-endian 16-bit word; a stream is a concatenation of
frames with nonempty bodies.  `decode` reads a whole stream or fails.
-/

namespace LengthPrefixed

/-- The value of a big-endian 16-bit word. -/
def wordValue (hi lo : UInt8) : Nat := hi.toNat * 256 + lo.toNat

def word (n : Nat) : List UInt8 := [UInt8.ofNat (n / 256), UInt8.ofNat (n % 256)]

def frame (body : List UInt8) : List UInt8 := word body.length ++ body

def encode (bodies : List (List UInt8)) : List UInt8 := bodies.flatMap frame

/-- A body that a frame can carry. -/
def Framable (body : List UInt8) : Prop := 1 ≤ body.length ∧ body.length < 2 ^ 16

def decode : List UInt8 → Option (List (List UInt8))
  | [] => some []
  | [_] => none
  | hi :: lo :: rest =>
    if wordValue hi lo = 0 ∨ rest.length < wordValue hi lo then none
    else (decode (rest.drop (wordValue hi lo))).map (rest.take (wordValue hi lo) :: ·)
termination_by stream => stream.length
decreasing_by
  simp only [List.length_drop, List.length_cons]
  omega

theorem wordValue_lt (hi lo : UInt8) : wordValue hi lo < 2 ^ 16 := by
  have hhi := hi.toNat_lt
  have hlo := lo.toNat_lt
  unfold wordValue
  omega

theorem wordValue_word {n : Nat} (hn : n < 2 ^ 16) :
    wordValue (UInt8.ofNat (n / 256)) (UInt8.ofNat (n % 256)) = n := by
  simp only [wordValue, UInt8.toNat_ofNat']
  omega

theorem word_wordValue (hi lo : UInt8) : word (wordValue hi lo) = [hi, lo] := by
  have hlo := lo.toNat_lt
  have hdiv : wordValue hi lo / 256 = hi.toNat := by
    unfold wordValue
    omega
  have hmod : wordValue hi lo % 256 = lo.toNat := by
    unfold wordValue
    omega
  rw [word, hdiv, hmod, UInt8.ofNat_toNat, UInt8.ofNat_toNat]

@[simp] theorem decode_nil : decode [] = some [] := by
  rw [decode]

@[simp] theorem decode_singleton (b : UInt8) : decode [b] = none := by
  rw [decode]

theorem decode_cons (hi lo : UInt8) (rest : List UInt8) :
    decode (hi :: lo :: rest) =
      if wordValue hi lo = 0 ∨ rest.length < wordValue hi lo then none
      else (decode (rest.drop (wordValue hi lo))).map (rest.take (wordValue hi lo) :: ·) := by
  rw [decode]

theorem decode_eq_some_nil {stream : List UInt8} (h : decode stream = some []) : stream = [] := by
  match stream with
  | [] => rfl
  | [b] => simp at h
  | hi :: lo :: rest =>
    rw [decode_cons] at h
    split_ifs at h
    simp at h

/-- Decoding undoes encoding. -/
theorem decode_encode {bodies : List (List UInt8)} (h : ∀ body ∈ bodies, Framable body) :
    decode (encode bodies) = some bodies := by
  induction bodies with
  | nil => exact decode_nil
  | cons body bodies ih =>
    obtain ⟨hpos, hlt⟩ := h body List.mem_cons_self
    have hvalue := wordValue_word hlt
    have hrest := ih fun b hb => h b (List.mem_cons_of_mem _ hb)
    show decode (_ :: _ :: (body ++ encode bodies)) = _
    rw [decode_cons, hvalue, List.length_append, if_neg (by omega), List.drop_left,
      List.take_left, hrest]
    rfl

/-- The decoder accepts exactly the encodings, so a stream has at most one reading. -/
theorem decode_eq_some_iff {stream : List UInt8} {bodies : List (List UInt8)} :
    decode stream = some bodies ↔ stream = encode bodies ∧ ∀ body ∈ bodies, Framable body := by
  constructor
  · intro h
    induction hlength : stream.length using Nat.strongRecOn generalizing stream bodies with
    | ind n ih =>
      match stream with
      | [] =>
        obtain rfl : [] = bodies := by simpa using h
        exact ⟨rfl, nofun⟩
      | [b] => simp at h
      | hi :: lo :: rest =>
        rw [decode_cons] at h
        split_ifs at h with hbad
        rw [not_or, not_lt] at hbad
        obtain ⟨bodies', hbodies, rfl⟩ := Option.map_eq_some_iff.mp h
        have hshort : (rest.drop (wordValue hi lo)).length < n := by
          rw [← hlength, List.length_drop, List.length_cons, List.length_cons]
          omega
        obtain ⟨hrest, hframable⟩ := ih _ hshort hbodies rfl
        have htake : (rest.take (wordValue hi lo)).length = wordValue hi lo := by
          rw [List.length_take]
          omega
        refine ⟨?_, ?_⟩
        · show _ = frame _ ++ encode bodies'
          rw [frame, htake, word_wordValue, ← hrest, List.append_assoc, List.take_append_drop]
          rfl
        · intro body hmem
          rcases List.mem_cons.mp hmem with rfl | hmem
          · have hlt := wordValue_lt hi lo
            refine ⟨?_, ?_⟩ <;> rw [htake] <;> omega
          · exact hframable body hmem
  · rintro ⟨rfl, h⟩
    exact decode_encode h

end LengthPrefixed
