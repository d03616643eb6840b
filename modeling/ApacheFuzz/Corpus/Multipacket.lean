import ApacheFuzz.Framing.Input
import ApacheFuzz.Library.BigEndian
import ApacheFuzz.Library.Raising

/-!
# The encoder of the seeds

`multipacket` of `generate-interesting-corpus.py` writes framed inputs.  Its guards are those of
the wire format but for the number of packets, which it does not check: a list of more than 64
packets is encoded although the harness refuses the result.
-/

namespace ApacheFuzz.Corpus

open Framing
open Raising

inductive Raised
  | valueError (message : String)
  | overflowError (message : String)
  deriving DecidableEq, Repr

/-- `n.to_bytes(length, "big")` for a natural number. -/
def toBytes (length n : Nat) : Except Raised (List UInt8) :=
  if n < 256 ^ length then .ok (BigEndian.digits length n)
  else .error (.overflowError "int too big to convert")

def extendFrame (result packet : List UInt8) : Except Raised (List UInt8) :=
  if packet = [] ∨ 0xFFFF < packet.length then
    .error (.valueError "multipacket frames must contain 1 through 65535 bytes")
  else do
    let length ← toBytes 2 packet.length
    return result ++ length ++ packet

/-- `multipacket` -/
def multipacket (packets : List (List UInt8)) (flags : UInt8) : Except Raised (List UInt8) := do
  let result ← packets.foldlM extendFrame [flags]
  if packets = [] then throw (.valueError "multipacket input needs at least one packet")
  else return result

theorem toBytes_of_lt {length n : Nat} (h : n < 256 ^ length) :
    toBytes length n = .ok (BigEndian.digits length n) :=
  if_pos h

theorem toBytes_eq_ok {length n : Nat} {x : List UInt8} :
    toBytes length n = .ok x ↔ n < 256 ^ length ∧ x = BigEndian.digits length n := by
  rw [toBytes]
  split_ifs with hfits
  · simp [hfits, eq_comm]
  · simp [hfits]

private theorem digits_eq_word {n : Nat} : BigEndian.digits 2 n = LengthPrefixed.word n := by
  have hlow : UInt8.ofNat n = UInt8.ofNat (n % 256) := by
    apply UInt8.toNat_inj.mp
    simp
  rw [LengthPrefixed.word, ← hlow]
  rfl

theorem framable_iff (packet : List UInt8) :
    LengthPrefixed.Framable packet ↔ ¬(packet = [] ∨ 0xFFFF < packet.length) := by
  rw [LengthPrefixed.Framable, not_or, ← List.length_eq_zero_iff]
  omega

private theorem extendFrame_eq_ok {result packet x : List UInt8} :
    extendFrame result packet = .ok x ↔
      LengthPrefixed.Framable packet ∧ x = result ++ LengthPrefixed.frame packet := by
  rw [extendFrame, framable_iff]
  split_ifs with hbad
  · simp [hbad]
  · have hlength : packet.length < 256 ^ 2 := by
      rw [not_or] at hbad
      omega
    rw [toBytes_of_lt hlength, digits_eq_word]
    simp [hbad, LengthPrefixed.frame, eq_comm]

private theorem foldlM_extendFrame_eq_ok {packets : List (List UInt8)} {result x : List UInt8} :
    packets.foldlM extendFrame result = .ok x ↔
      (∀ packet ∈ packets, LengthPrefixed.Framable packet) ∧
        x = result ++ LengthPrefixed.encode packets := by
  rw [LengthPrefixed.encode]
  exact foldlM_append_eq_ok @extendFrame_eq_ok

/-- The encoder returns exactly when there are packets and a frame can carry each. -/
theorem multipacket_eq_ok {packets : List (List UInt8)} {flags : UInt8} {x : List UInt8} :
    multipacket packets flags = .ok x ↔
      packets ≠ [] ∧ (∀ packet ∈ packets, LengthPrefixed.Framable packet) ∧
        x = flags :: LengthPrefixed.encode packets := by
  rw [multipacket]
  cases hloop : packets.foldlM extendFrame [flags] with
  | error raised =>
    have hbad : ¬∀ packet ∈ packets, LengthPrefixed.Framable packet := by
      intro hframable
      have hok := foldlM_extendFrame_eq_ok.mpr ⟨hframable, (rfl : [flags] ++ _ = _)⟩
      rw [hloop] at hok
      cases hok
    simp [bind, Except.bind, hbad]
  | ok result =>
    obtain ⟨hframable, rfl⟩ := foldlM_extendFrame_eq_ok.mp hloop
    by_cases hempty : packets = []
    · simp [bind, Except.bind, hempty, throw, throwThe, MonadExceptOf.throw]
    · simp only [bind, Except.bind, if_neg hempty, pure, Except.pure]
      rw [Except.ok.injEq, eq_comm, List.singleton_append]
      exact ⟨fun hx => ⟨hempty, hframable, hx⟩, fun h => h.2.2⟩

end ApacheFuzz.Corpus
