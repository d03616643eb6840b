import ApacheFuzz.Corpus.Multipacket
import ApacheFuzz.Library.Raising

/-!
# The grammar of the inputs

The decoder accepts a flags byte with any bytes behind it, or with 1 to 64 frames when the
multipacket flag is set.  Its views tile a framed input, so the encoder gives the input back from
them, and the encoder's results are accepted unless they hold too many packets.
-/

namespace ApacheFuzz.Corpus

open Framing

/-- The inputs with these flags and packets. -/
inductive Grammar (flags : UInt8) : List (List UInt8) → List UInt8 → Prop
  | raw {packet : List UInt8} (hflags : flags &&& multipacketFlag = 0) :
      Grammar flags [packet] (flags :: packet)
  | framed {packets : List (List UInt8)} (hflags : flags &&& multipacketFlag ≠ 0)
      (hpos : 1 ≤ packets.length) (hmax : packets.length ≤ 64)
      (hframable : ∀ packet ∈ packets, LengthPrefixed.Framable packet) :
      Grammar flags packets (flags :: LengthPrefixed.encode packets)

private theorem withRest_empty_eq_some {rest : List UInt8} {packets : List (List UInt8)} :
    withRest [] rest = some packets ↔
      LengthPrefixed.decode rest = some packets ∧ packets.length ≤ maxPacketCount := by
  rw [withRest, Option.bind_eq_some_iff]
  constructor
  · rintro ⟨bodies, hbodies, hcount⟩
    split_ifs at hcount with hmax
    obtain rfl : bodies = packets := by simpa using hcount
    exact ⟨hbodies, by simpa using hmax⟩
  · rintro ⟨hbodies, hmax⟩
    exact ⟨packets, hbodies, by simpa using hmax⟩

private theorem accept_eq_some {flags flags' : UInt8} {packets packets' : List (List UInt8)} :
    accept flags packets = some (flags', packets') ↔
      flags = flags' ∧ packets = packets' ∧ 1 ≤ packets.length := by
  rw [accept]
  split_ifs with hpos
  · simp [show 1 ≤ packets.length from hpos]
  · constructor
    · exact fun h => by cases h
    · exact fun h => absurd h.2.2 hpos

private theorem meaning_eq_some_iff {x : List UInt8} {flags : UInt8} {packets : List (List UInt8)} :
    meaning x = some (flags, packets) ↔ Grammar flags packets x := by
  constructor
  · intro h
    match x with
    | [] => cases h
    | first :: rest =>
      rw [meaning] at h
      split_ifs at h with hraw
      · cases h
        exact .raw hraw
      · obtain ⟨bodies, hrest, haccept⟩ := Option.bind_eq_some_iff.mp h
        obtain ⟨rfl, rfl, hpos⟩ := accept_eq_some.mp haccept
        obtain ⟨hdecode, hmax⟩ := withRest_empty_eq_some.mp hrest
        obtain ⟨rfl, hframable⟩ := LengthPrefixed.decode_eq_some_iff.mp hdecode
        exact .framed hraw hpos hmax hframable
  · intro h
    cases h with
    | raw hraw => rw [meaning, if_pos hraw]
    | framed hflags hpos hmax hframable =>
      rw [meaning, if_neg hflags, Option.bind_eq_some_iff]
      have hdecode := LengthPrefixed.decode_encode hframable
      exact ⟨packets, withRest_empty_eq_some.mpr ⟨hdecode, hmax⟩,
        accept_eq_some.mpr ⟨rfl, rfl, hpos⟩⟩

/-- The views show the bodies of frames that lie behind one another from `start` to `stop`. -/
def Tiles (start : Nat) : List FuzzPacketView → Nat → Prop
  | [], stop => start = stop
  | view :: views, stop =>
    view.offset = start + 2 ∧ 1 ≤ view.size ∧ Tiles (view.offset + view.size) views stop

private theorem Tiles.append {start stop : Nat} {views : List FuzzPacketView} {size : Nat}
    (h : Tiles start views stop) (hsize : 1 ≤ size) :
    Tiles start (views ++ [⟨stop + 2, size⟩]) (stop + 2 + size) := by
  induction views generalizing start with
  | nil =>
    obtain rfl : start = stop := h
    exact ⟨rfl, hsize, rfl⟩
  | cons view views ih => exact ⟨h.1, h.2.1, ih h.2.2⟩

private theorem Tiles.le {start stop : Nat} {views : List FuzzPacketView}
    (h : Tiles start views stop) : start ≤ stop := by
  induction views generalizing start with
  | nil => exact Nat.le_of_eq h
  | cons view views ih =>
    obtain ⟨hoffset, -, hrest⟩ := h
    have hle := ih hrest
    omega

private theorem Tiles.inside {start stop : Nat} {views : List FuzzPacketView}
    (h : Tiles start views stop) {view : FuzzPacketView} (hmem : view ∈ views) :
    view.offset + view.size ≤ stop := by
  induction views generalizing start with
  | nil => cases hmem
  | cons first views ih =>
    obtain ⟨-, -, hrest⟩ := h
    rcases List.mem_cons.mp hmem with rfl | hmem
    · exact hrest.le
    · exact ih hrest hmem

private theorem push_eq_ok {input result : FuzzInput} {view : FuzzPacketView}
    (h : input.push view = .ok result) :
    input.packets.length < maxPacketCount ∧
      result = { input with packets := input.packets ++ [view] } := by
  rw [FuzzInput.push] at h
  split_ifs at h with hcount
  exact ⟨hcount, (Except.ok.inj h).symm⟩

private theorem subtract_eq_ok {a b n : Nat} (h : subtract a b = .ok n) : b ≤ a ∧ n = a - b := by
  rw [subtract] at h
  split_ifs at h with hle
  exact ⟨hle, (Except.ok.inj h).symm⟩

private theorem decodeLoop_tiles {data : List UInt8} {fuel offset : Nat} {input result : FuzzInput}
    (h : decodeLoop data data.length fuel offset input = .ok (some result))
    (hoffset : offset ≤ data.length) (hflags : input.flags &&& multipacketFlag ≠ 0)
    (htiles : Tiles 1 input.packets offset) :
    Tiles 1 result.packets data.length ∧ result.flags &&& multipacketFlag ≠ 0 := by
  induction fuel generalizing offset input with
  | zero => cases h
  | succ fuel ih =>
    rw [decodeLoop] at h
    split_ifs at h with hmore hpos
    · obtain ⟨left, hleft, h⟩ := Raising.bind_eq_ok.mp h
      split_ifs at h with hstop
      · cases h
      · obtain ⟨hi, -, h⟩ := Raising.bind_eq_ok.mp h
        obtain ⟨lo, -, h⟩ := Raising.bind_eq_ok.mp h
        obtain ⟨left', hleft', h⟩ := Raising.bind_eq_ok.mp h
        obtain ⟨hle, rfl⟩ := subtract_eq_ok hleft'
        split_ifs at h with hbad
        · cases h
        · obtain ⟨next, hnext, h⟩ := Raising.bind_eq_ok.mp h
          obtain ⟨-, rfl⟩ := push_eq_ok hnext
          rw [not_or] at hbad
          exact ih h (by omega) hflags (htiles.append (by omega))
    · have hend : offset = data.length := by omega
      obtain rfl : input = result := by simpa using h
      exact ⟨hend ▸ htiles, hflags⟩
    · cases h

/-- What the decoder returns for an accepted input. -/
structure Decoded (x : List UInt8) (input : FuzzInput) : Prop where
  grammar : Grammar input.flags (input.packets.map (FuzzPacketView.bytes x)) x
  count : input.packets.length ≤ 64
  inside : ∀ view ∈ input.packets, view.offset + view.size ≤ x.length
  tiles : input.flags &&& multipacketFlag ≠ 0 → Tiles 1 input.packets x.length
  reencoded : input.flags &&& multipacketFlag ≠ 0 →
    multipacket (input.packets.map (FuzzPacketView.bytes x)) input.flags = .ok x

private theorem decodeFuzzInput_tiles {x : List UInt8} {input : FuzzInput}
    (h : decodeFuzzInput (some x) x.length = .ok (some input)) :
    if input.flags &&& multipacketFlag = 0 then input.packets = [⟨1, x.length - 1⟩] ∧ 1 ≤ x.length
    else Tiles 1 input.packets x.length := by
  rw [decodeFuzzInput] at h
  split_ifs at h with hshort
  · cases h
  · obtain ⟨flags, -, h⟩ := Raising.bind_eq_ok.mp h
    split_ifs at h with hraw
    · obtain ⟨rawSize, hsize, h⟩ := Raising.bind_eq_ok.mp h
      obtain ⟨hle, rfl⟩ := subtract_eq_ok hsize
      obtain rfl : _ = input := Option.some.inj (Raising.pure_eq_ok.mp h)
      rw [if_pos hraw]
      exact ⟨rfl, hle⟩
    · obtain ⟨htiles, hflags⟩ := decodeLoop_tiles h (by omega) hraw rfl
      rw [if_neg hflags]
      exact htiles

private theorem Grammar.packets_ne_nil {flags : UInt8} {packets : List (List UInt8)}
    {x : List UInt8} (h : Grammar flags packets x) : packets ≠ [] ∧ packets.length ≤ 64 := by
  cases h with
  | raw hflags => simp
  | framed hflags hpos hmax hframable =>
    exact ⟨List.length_pos_iff.mp hpos, hmax⟩

theorem decoded_of_decodeFuzzInput {x : List UInt8} {input : FuzzInput}
    (h : decodeFuzzInput (some x) x.length = .ok (some input)) : Decoded x input := by
  have hcontents := decodeFuzzInput_eq x
  rw [h] at hcontents
  have hmeaning : meaning x = some (input.flags, input.packets.map (FuzzPacketView.bytes x)) :=
    (Except.ok.inj hcontents).symm
  have hgrammar := meaning_eq_some_iff.mp hmeaning
  have hviews := decodeFuzzInput_tiles h
  refine ⟨hgrammar, by simpa using hgrammar.packets_ne_nil.2, ?_, ?_, ?_⟩
  · intro view hmem
    split_ifs at hviews with hraw
    · obtain ⟨hpackets, hle⟩ := hviews
      rw [hpackets, List.mem_singleton] at hmem
      rw [hmem]
      show 1 + (x.length - 1) ≤ x.length
      omega
    · exact hviews.inside hmem
  · intro hflags
    rwa [if_neg hflags] at hviews
  · intro hflags
    apply multipacket_eq_ok.mpr
    refine ⟨hgrammar.packets_ne_nil.1, ?_⟩
    generalize input.packets.map (FuzzPacketView.bytes x) = packets at hgrammar
    cases hgrammar with
    | raw hraw => exact absurd hraw hflags
    | framed _ _ _ hframable => exact ⟨hframable, rfl⟩

/-- An input is determined by its flags and its packets. -/
theorem Grammar.unique {flags : UInt8} {packets : List (List UInt8)} {x y : List UInt8}
    (hx : Grammar flags packets x) (hy : Grammar flags packets y) : x = y := by
  cases hx with
  | raw hraw =>
    cases hy with
    | raw => rfl
    | framed hflags => exact absurd hraw hflags
  | framed hflags =>
    cases hy with
    | raw hraw => exact absurd hraw hflags
    | framed => rfl

/-- On every byte string the decoder of the harness returns without reading outside, underflow or a
65th view, it accepts exactly the grammar, and an accepted input is the encoding of what it finds. -/
theorem decodeFuzzInput_canonical (x : List UInt8) :
    ∃ result, decodeFuzzInput (some x) x.length = .ok result ∧
      (result.isSome ↔ ∃ flags packets, Grammar flags packets x) ∧
      (∀ input, result = some input → Decoded x input) ∧
      ∀ input y input', result = some input →
        decodeFuzzInput (some y) y.length = .ok (some input') →
        input.contents x = input'.contents y → x = y := by
  have hdecode := decodeFuzzInput_eq x
  cases hresult : decodeFuzzInput (some x) x.length with
  | error stuck =>
    rw [hresult] at hdecode
    cases hdecode
  | ok result =>
    rw [hresult] at hdecode
    have hmeaning : result.map (FuzzInput.contents x) = meaning x := Except.ok.inj hdecode
    refine ⟨result, rfl, ?_, ?_, ?_⟩
    · rw [← Option.isSome_map (f := FuzzInput.contents x), hmeaning, Option.isSome_iff_exists]
      constructor
      · rintro ⟨⟨flags, packets⟩, h⟩
        exact ⟨flags, packets, meaning_eq_some_iff.mp h⟩
      · rintro ⟨flags, packets, h⟩
        exact ⟨(flags, packets), meaning_eq_some_iff.mpr h⟩
    · rintro input rfl
      exact decoded_of_decodeFuzzInput hresult
    · rintro input y input' rfl hy hsame
      obtain ⟨hflags, hpackets⟩ := Prod.mk.inj hsame
      have hx := (decoded_of_decodeFuzzInput hresult).grammar
      have hy' := (decoded_of_decodeFuzzInput hy).grammar
      rw [← hflags, ← hpackets] at hy'
      exact hx.unique hy'

/-- What the encoder emits for a list of packets, the harness decodes to that list. -/
def Recovered (flags : UInt8) (packets : List (List UInt8)) : Prop :=
  ∀ x, multipacket packets flags = .ok x →
    ∃ input, decodeFuzzInput (some x) x.length = .ok (some input) ∧
      input.contents x = (flags, packets)

/-- The encoder raises, or the list is short enough for the harness. -/
theorem recovered_iff {flags : UInt8} {packets : List (List UInt8)}
    (hflags : flags &&& multipacketFlag ≠ 0) :
    Recovered flags packets ↔
      packets.length ≤ 64 ∨ ∃ packet ∈ packets, packet = [] ∨ 0xFFFF < packet.length := by
  have hframable_iff : (∀ packet ∈ packets, LengthPrefixed.Framable packet) ↔
      ¬∃ packet ∈ packets, packet = [] ∨ 0xFFFF < packet.length := by
    simp only [framable_iff, not_exists, not_and]
  constructor
  · intro h
    by_contra hnot
    rw [not_or, not_le] at hnot
    obtain ⟨hmany, hbad⟩ := hnot
    have hne : packets ≠ [] := by
      rintro rfl
      simp at hmany
    have hframable := hframable_iff.mpr hbad
    obtain ⟨input, hinput, hcontents⟩ := h _ (multipacket_eq_ok.mpr ⟨hne, hframable, rfl⟩)
    have hcount := (decoded_of_decodeFuzzInput hinput).count
    have hpackets : input.packets.map (FuzzPacketView.bytes _) = packets :=
      (Prod.mk.inj hcontents).2
    rw [← hpackets, List.length_map] at hmany
    omega
  · intro h x hx
    obtain ⟨hne, hframable, rfl⟩ := multipacket_eq_ok.mp hx
    have hshort : packets.length ≤ 64 := h.resolve_right (hframable_iff.mp hframable)
    have hmeaning := meaning_eq_some_iff.mpr
      (Grammar.framed hflags (List.length_pos_iff.mpr hne) hshort hframable)
    have hdecode := decodeFuzzInput_eq (flags :: LengthPrefixed.encode packets)
    rw [hmeaning] at hdecode
    obtain ⟨result, hresult, hmap⟩ := Raising.map_eq_ok.mp hdecode
    obtain ⟨input, rfl, hcontents⟩ := Option.map_eq_some_iff.mp hmap
    exact ⟨input, hresult, hcontents⟩

theorem recovered_iff_three_packets :
    (∃ x, multipacket [[7], [0, 0], [8, 0, 9]] 2 = .ok x) ∧ Recovered 2 [[7], [0, 0], [8, 0, 9]] :=
  ⟨⟨_, rfl⟩, (recovered_iff (by decide)).mpr (.inl (by decide))⟩

/-- The harness refuses the encoding of 65 packets. -/
theorem encoder_exceeds_limit :
    ∃ packets, (∃ x, multipacket packets 2 = .ok x ∧
      decodeFuzzInput (some x) x.length = .ok none) ∧ ¬Recovered 2 packets := by
  have hencode : ∃ x, multipacket (List.replicate 65 [7]) 2 = .ok x ∧
      decodeFuzzInput (some x) x.length = .ok none := by
    refine ⟨2 :: (List.replicate 65 [0, 1, 7]).flatten, ?_, ?_⟩ <;> decide +kernel
  obtain ⟨x, hx, hrefused⟩ := hencode
  refine ⟨List.replicate 65 [7], ⟨x, hx, hrefused⟩, fun h => ?_⟩
  obtain ⟨input, hinput, -⟩ := h x hx
  rw [hrefused] at hinput
  cases hinput

end ApacheFuzz.Corpus
