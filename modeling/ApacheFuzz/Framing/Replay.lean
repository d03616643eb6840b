import ApacheFuzz.Framing.Input

/-!
# The decoder of the replay tool

`parse_fuzzer_input` of `send-test-case.py` reads the same format with slices and checks the
number of packets after appending one.  Both decoders read the rest of the input alike, so
they accept the same inputs and find the same packets.
-/

namespace ApacheFuzz.Framing

/-- The dataclass `FuzzerInput` of the replay tool. -/
structure FuzzerInput where
  flags : UInt8
  packets : List (List UInt8)
  deriving DecidableEq, Repr

inductive Raised
  | valueError (message : String)
  /-- The fuel of the model's loop has run out. -/
  | fuel
  deriving DecidableEq, Repr

/-- `data[start:stop]` -/
def slice (data : List UInt8) (start stop : Nat) : List UInt8 := (data.drop start).take (stop - start)

/-- `int.from_bytes(data, "big")` -/
def intFromBytes (data : List UInt8) : Nat := data.foldl (fun value byte => value * 256 + byte.toNat) 0

def parseLoop (data : List UInt8) :
    Nat → Nat → List (List UInt8) → Except Raised (List (List UInt8))
  | 0, _, _ => .error .fuel
  | fuel + 1, offset, packets =>
    if offset < data.length then
      if data.length - offset < 2 then .error (.valueError "truncated packet length")
      else
        let packetLength := intFromBytes (slice data offset (offset + 2))
        let stop := offset + 2 + packetLength
        if packetLength = 0 ∨ data.length < stop then .error (.valueError "invalid packet length")
        else
          let packets := packets ++ [slice data (offset + 2) stop]
          if maxPacketCount < packets.length then
            .error (.valueError "fuzzer input contains more than 64 packets")
          else parseLoop data fuel stop packets
    else .ok packets

/-- `parse_fuzzer_input` -/
def parseFuzzerInput (data : List UInt8) : Except Raised FuzzerInput :=
  match data with
  | [] => .error (.valueError "empty fuzzer input")
  | flags :: rest =>
    if flags &&& multipacketFlag = 0 then .ok ⟨flags, [rest]⟩
    else
      match parseLoop data data.length 1 [] with
      | .error raised => .error raised
      | .ok [] => .error (.valueError "multipacket fuzzer input contains no packets")
      | .ok packets => .ok ⟨flags, packets⟩

private theorem intFromBytes_pair (hi lo : UInt8) :
    intFromBytes [hi, lo] = LengthPrefixed.wordValue hi lo := by
  simp [intFromBytes, LengthPrefixed.wordValue]

private theorem withRest_over {packets : List (List UInt8)} (rest : List UInt8)
    (hover : maxPacketCount < packets.length) : withRest packets rest = none := by
  rw [withRest]
  cases LengthPrefixed.decode rest with
  | none => rfl
  | some bodies =>
    show (if packets.length + bodies.length ≤ maxPacketCount then _ else none) = none
    rw [if_neg (by omega)]

private theorem parseLoop_eq {data : List UInt8} {fuel offset : Nat} {packets : List (List UInt8)}
    (hoffset : offset ≤ data.length) (hfuel : data.length - offset < fuel)
    (hcount : packets.length ≤ maxPacketCount) :
    (parseLoop data fuel offset packets).toOption = withRest packets (data.drop offset) := by
  induction fuel generalizing offset packets with
  | zero => omega
  | succ fuel ih =>
    rw [parseLoop]
    match hdrop : data.drop offset with
    | [] =>
      have hend : ¬offset < data.length := by
        rw [List.drop_eq_nil_iff] at hdrop
        omega
      rw [if_neg hend, withRest_nil hcount]
      rfl
    | [b] =>
      have hlen := congrArg List.length hdrop
      simp only [List.length_drop, List.length_cons, List.length_nil] at hlen
      rw [if_pos (by omega), if_pos (by omega), withRest_singleton]
      rfl
    | hi :: lo :: rest =>
      have hlen := length_of_drop hdrop
      have hheader : slice data offset (offset + 2) = [hi, lo] := by
        rw [slice, hdrop, Nat.add_sub_cancel_left]
        rfl
      have hbody (n : Nat) : slice data (offset + 2) (offset + 2 + n) = rest.take n := by
        rw [slice, ← Nat.add_zero (offset + 2), drop_of_drop hdrop, Nat.add_assoc,
          Nat.add_sub_cancel_left, Nat.zero_add]
        rfl
      rw [if_pos (by omega), if_neg (by omega), withRest_cons]
      simp only [hheader, hbody, intFromBytes_pair]
      by_cases hbad : LengthPrefixed.wordValue hi lo = 0 ∨
          rest.length < LengthPrefixed.wordValue hi lo
      · rw [if_pos (by omega), if_pos hbad]
        rfl
      · rw [if_neg (by omega), if_neg hbad]
        rw [not_or, not_lt] at hbad
        by_cases hmany : maxPacketCount <
            (packets ++ [rest.take (LengthPrefixed.wordValue hi lo)]).length
        · -- the packet just read is one too many, whatever follows it
          rw [if_pos hmany, withRest_over _ hmany]
          rfl
        · rw [if_neg hmany, ih (by omega) (by omega) (by omega), drop_of_drop hdrop]

theorem parseFuzzerInput_eq (data : List UInt8) :
    (parseFuzzerInput data).toOption.map (fun parsed => (parsed.flags, parsed.packets)) =
      meaning data := by
  match data with
  | [] => rfl
  | flags :: rest =>
    rw [parseFuzzerInput, meaning]
    split_ifs with hraw
    · rfl
    · have hloop := @parseLoop_eq (flags :: rest) (flags :: rest).length
        1 [] (by simp) (by simp) (by simp)
      rw [List.drop_one, List.tail_cons] at hloop
      rw [← hloop]
      cases hparsed : parseLoop (flags :: rest) (flags :: rest).length 1 [] with
      | error raised => rfl
      | ok packets =>
        cases packets with
        | nil => rfl
        | cons packet packets => simp [Except.toOption, accept]

/-- On every byte string the decoder of the harness returns, it returns 0 exactly when the
replay tool's decoder does not raise, and then both have found the same flags and packets. -/
theorem decoders_agree (data : List UInt8) :
    ∃ result, decodeFuzzInput (some data) data.length = .ok result ∧
      (result.isSome ↔ ∃ parsed, parseFuzzerInput data = .ok parsed) ∧
      ∀ input parsed, result = some input → parseFuzzerInput data = .ok parsed →
        input.flags = parsed.flags ∧ input.packets.length = parsed.packets.length ∧
        input.packets.map (FuzzPacketView.bytes data) = parsed.packets := by
  have hdecode := decodeFuzzInput_eq data
  have hparse := parseFuzzerInput_eq data
  rw [← hparse] at hdecode
  cases hresult : decodeFuzzInput (some data) data.length with
  | error stuck =>
    rw [hresult] at hdecode
    cases hdecode
  | ok result =>
    rw [hresult] at hdecode
    have hsame : result.map (FuzzInput.contents data) =
        (parseFuzzerInput data).toOption.map (fun parsed => (parsed.flags, parsed.packets)) :=
      Except.ok.inj hdecode
    refine ⟨result, rfl, ?_, ?_⟩
    · have hsome := congrArg Option.isSome hsame
      rw [Option.isSome_map, Option.isSome_map] at hsome
      rw [hsome]
      cases parseFuzzerInput data with
      | error raised => simp [Except.toOption]
      | ok parsed => simp [Except.toOption]
    · rintro input parsed rfl hparsed
      rw [hparsed] at hsame
      have hcontents : input.contents data = (parsed.flags, parsed.packets) := Option.some.inj hsame
      obtain ⟨hflags, hpackets⟩ := Prod.mk.inj hcontents
      refine ⟨hflags, ?_, hpackets⟩
      rw [← hpackets, List.length_map]

/-- The limit is checked at different points: 64 packets pass and 65 do not. -/
example : (parseFuzzerInput (2 :: (List.replicate 64 [0, 1, 7]).flatten)).toOption.isSome = true ∧
    parseFuzzerInput (2 :: (List.replicate 65 [0, 1, 7]).flatten) =
      .error (.valueError "fuzzer input contains more than 64 packets") := by
  decide +kernel

end ApacheFuzz.Framing
