import ApacheFuzz.Library.LengthPrefixed

/-!
# Fuzzer inputs

An input is a flags byte followed by raw bytes, or by length-prefixed packets when the
multipacket flag is set.  `decodeFuzzInput` is the decoder of the harness.  Whatever would be
undefined behaviour of its code (a read outside the input, a negative size, a write behind the
array of packets) makes the model stuck.
-/

namespace ApacheFuzz.Framing

def httpPreludeFlag : UInt8 := 0x01
def multipacketFlag : UInt8 := 0x02
def waitForResponseFlag : UInt8 := 0x04
def maxPacketCount : Nat := 64

/-- `data` and `size` of a packet, as an offset into the input and a size. -/
structure FuzzPacketView where
  offset : Nat
  size : Nat
  deriving DecidableEq, Repr

/-- `struct fuzzInput`: `packets` lists the first `packetCount` entries of the array. -/
structure FuzzInput where
  flags : UInt8
  packets : List FuzzPacketView
  deriving DecidableEq, Repr

inductive Stuck
  | readOutside
  | negativeSize
  | fullArray
  /-- The fuel of the model's loop has run out. -/
  | fuel
  deriving DecidableEq, Repr

def readByte (data : List UInt8) (i : Nat) : Except Stuck UInt8 :=
  match data[i]? with
  | some byte => .ok byte
  | none => .error .readOutside

def subtract (a b : Nat) : Except Stuck Nat :=
  if b ≤ a then .ok (a - b) else .error .negativeSize

def FuzzInput.push (input : FuzzInput) (view : FuzzPacketView) : Except Stuck FuzzInput :=
  if input.packets.length < maxPacketCount then
    .ok { input with packets := input.packets ++ [view] }
  else .error .fullArray

/-- The loop over the packets; `none` is the return value -1. -/
def decodeLoop (data : List UInt8) (size : Nat) :
    Nat → Nat → FuzzInput → Except Stuck (Option FuzzInput)
  | 0, _, _ => .error .fuel
  | fuel + 1, offset, input =>
    if offset < size then do
      let left ← subtract size offset
      if left < 2 ∨ input.packets.length = maxPacketCount then return none
      let hi ← readByte data offset
      let lo ← readByte data (offset + 1)
      let packetSize := hi.toNat <<< 8 ||| lo.toNat
      let left ← subtract size (offset + 2)
      if packetSize = 0 ∨ left < packetSize then return none
      let input ← input.push ⟨offset + 2, packetSize⟩
      decodeLoop data size fuel (offset + 2 + packetSize) input
    else return if 0 < input.packets.length then some input else none

/-- `decodeFuzzInput`: `some` is the return value 0 with the filled structure.  `data` is `none`
for a null pointer. -/
def decodeFuzzInput (data : Option (List UInt8)) (size : Nat) : Except Stuck (Option FuzzInput) :=
  match data with
  | none => return none
  | some data =>
    if size < 1 then return none
    else do
      let flags ← readByte data 0
      if flags &&& multipacketFlag = 0 then
        let rawSize ← subtract size 1
        return some ⟨flags, [⟨1, rawSize⟩]⟩
      else decodeLoop data size size 1 ⟨flags, []⟩

/-- The bytes that a view shows. -/
def FuzzPacketView.bytes (data : List UInt8) (view : FuzzPacketView) : List UInt8 :=
  (data.drop view.offset).take view.size

/-- The flags and the packets of a decoded input. -/
def FuzzInput.contents (data : List UInt8) (input : FuzzInput) : UInt8 × List (List UInt8) :=
  (input.flags, input.packets.map (FuzzPacketView.bytes data))

section Suffix

variable {data rest : List UInt8} {hi lo : UInt8} {offset : Nat}

theorem length_of_drop (h : data.drop offset = hi :: lo :: rest) :
    data.length = offset + 2 + rest.length := by
  have hlength := congrArg List.length h
  simp only [List.length_drop, List.length_cons] at hlength
  omega

private theorem getElem?_of_drop (h : data.drop offset = hi :: lo :: rest) :
    data[offset]? = some hi ∧ data[offset + 1]? = some lo := by
  refine ⟨?_, ?_⟩
  · rw [← Nat.add_zero offset, ← List.getElem?_drop, h]
    rfl
  · rw [← List.getElem?_drop, h]
    rfl

theorem drop_of_drop (h : data.drop offset = hi :: lo :: rest) (n : Nat) :
    data.drop (offset + 2 + n) = rest.drop n := by
  rw [← List.drop_drop, ← List.drop_drop, h]
  rfl

end Suffix

private theorem shift_or_eq_wordValue (hi lo : UInt8) :
    hi.toNat <<< 8 ||| lo.toNat = LengthPrefixed.wordValue hi lo := by
  rw [← Nat.shiftLeft_add_eq_or_of_lt lo.toNat_lt, Nat.shiftLeft_eq, LengthPrefixed.wordValue]

/-- The packets read so far and those in the rest of the input, when the rest is well formed
and they are not too many. -/
def withRest (packets : List (List UInt8)) (rest : List UInt8) : Option (List (List UInt8)) :=
  (LengthPrefixed.decode rest).bind fun bodies =>
    if packets.length + bodies.length ≤ maxPacketCount then some (packets ++ bodies) else none

theorem withRest_nil {packets : List (List UInt8)} (h : packets.length ≤ maxPacketCount) :
    withRest packets [] = some packets := by
  simp [withRest, h]

theorem withRest_singleton (packets : List (List UInt8)) (b : UInt8) :
    withRest packets [b] = none := by
  simp [withRest]

theorem withRest_cons (packets : List (List UInt8)) (hi lo : UInt8) (rest : List UInt8) :
    withRest packets (hi :: lo :: rest) =
      if LengthPrefixed.wordValue hi lo = 0 ∨ rest.length < LengthPrefixed.wordValue hi lo then none
      else withRest (packets ++ [rest.take (LengthPrefixed.wordValue hi lo)])
        (rest.drop (LengthPrefixed.wordValue hi lo)) := by
  rw [withRest, LengthPrefixed.decode_cons]
  split_ifs with hbad
  · rfl
  · rw [withRest]
    cases LengthPrefixed.decode (rest.drop (LengthPrefixed.wordValue hi lo)) with
    | none => rfl
    | some bodies => simp [Nat.add_assoc, Nat.add_comm 1]

private theorem withRest_full {packets : List (List UInt8)} {rest : List UInt8} (hrest : rest ≠ [])
    (hfull : maxPacketCount ≤ packets.length) : withRest packets rest = none := by
  rw [withRest]
  cases hbodies : LengthPrefixed.decode rest with
  | none => rfl
  | some bodies =>
    have hpos : bodies ≠ [] := by
      rintro rfl
      exact hrest (LengthPrefixed.decode_eq_some_nil hbodies)
    have hlength := List.length_pos_iff.mpr hpos
    show (if packets.length + bodies.length ≤ maxPacketCount then _ else none) = none
    rw [if_neg (by omega)]

/-- The packets of a finished input; an input without packets is refused. -/
def accept (flags : UInt8) (packets : List (List UInt8)) : Option (UInt8 × List (List UInt8)) :=
  if 0 < packets.length then some (flags, packets) else none

/-- The loop never gets stuck and reads the rest of the input. -/
theorem decodeLoop_eq {data : List UInt8} {fuel offset : Nat} {input : FuzzInput}
    (hoffset : offset ≤ data.length) (hfuel : data.length - offset < fuel)
    (hcount : input.packets.length ≤ maxPacketCount) :
    (decodeLoop data data.length fuel offset input).map (Option.map (FuzzInput.contents data)) =
      .ok ((withRest (input.contents data).2 (data.drop offset)).bind (accept input.flags)) := by
  induction fuel generalizing offset input with
  | zero => omega
  | succ fuel ih =>
    have hlength : (input.contents data).2.length = input.packets.length := by
      simp [FuzzInput.contents]
    rw [decodeLoop]
    match hdrop : data.drop offset with
    | [] =>
      have hend : ¬offset < data.length := by
        rw [List.drop_eq_nil_iff] at hdrop
        omega
      rw [if_neg hend, withRest_nil (by omega), Option.bind_some, accept, hlength]
      split_ifs <;> rfl
    | [b] =>
      have hlen := congrArg List.length hdrop
      simp only [List.length_drop, List.length_cons, List.length_nil] at hlen
      rw [if_pos (by omega), withRest_singleton]
      simp [subtract, hoffset, hlen]
      rfl
    | hi :: lo :: rest =>
      have hlen := length_of_drop hdrop
      obtain ⟨hhi, hlo⟩ := getElem?_of_drop hdrop
      rw [if_pos (by omega)]
      by_cases hfull : input.packets.length = maxPacketCount
      · rw [withRest_full (by simp) (by omega)]
        simp [subtract, hoffset, hfull]
        rfl
      · have hleft : subtract data.length offset = .ok (rest.length + 2) := by
          rw [subtract, if_pos hoffset, hlen]
          congr 1
          omega
        have hleft' : subtract data.length (offset + 2) = .ok rest.length := by
          rw [subtract, if_pos (by omega), hlen]
          congr 1
          omega
        have hreadHi : readByte data offset = .ok hi := by rw [readByte, hhi]
        have hreadLo : readByte data (offset + 1) = .ok lo := by rw [readByte, hlo]
        have hstop : ¬(rest.length + 2 < 2 ∨ input.packets.length = maxPacketCount) := by
          rw [not_or]
          exact ⟨by omega, hfull⟩
        rw [withRest_cons]
        simp only [hleft, hleft', hreadHi, hreadLo, shift_or_eq_wordValue, bind, Except.bind,
          if_neg hstop, pure, Except.pure]
        split_ifs with hbad
        · rfl
        · rw [not_or, not_lt] at hbad
          simp only [FuzzInput.push, if_pos (show input.packets.length < maxPacketCount by omega)]
          rw [ih (by omega) (by omega) (by simp; omega), ← drop_of_drop hdrop]
          have hview : FuzzPacketView.bytes data ⟨offset + 2, LengthPrefixed.wordValue hi lo⟩ =
              rest.take (LengthPrefixed.wordValue hi lo) := by
            rw [FuzzPacketView.bytes, ← Nat.add_zero (offset + 2), drop_of_drop hdrop]
            rfl
          simp only [FuzzInput.contents, List.map_append, List.map_cons, List.map_nil, hview]

/-- What an input stands for: its flags with the raw rest or the packets. -/
def meaning : List UInt8 → Option (UInt8 × List (List UInt8))
  | [] => none
  | flags :: rest =>
    if flags &&& multipacketFlag = 0 then some (flags, [rest])
    else (withRest [] rest).bind (accept flags)

/-- `decodeFuzzInput` is total and finds what the input stands for. -/
theorem decodeFuzzInput_eq (data : List UInt8) :
    (decodeFuzzInput (some data) data.length).map (Option.map (FuzzInput.contents data)) =
      .ok (meaning data) := by
  match data with
  | [] => rfl
  | flags :: rest =>
    rw [decodeFuzzInput, meaning]
    simp only [readByte, List.getElem?_cons_zero, List.length_cons, bind, Except.bind]
    rw [if_neg (by omega)]
    split_ifs with hraw
    · rw [subtract, if_pos (by omega)]
      simp [FuzzInput.contents, FuzzPacketView.bytes, Except.map, pure, Except.pure]
    · exact @decodeLoop_eq (flags :: rest) _ 1 _ (by simp) (by simp) (by simp)

end ApacheFuzz.Framing
