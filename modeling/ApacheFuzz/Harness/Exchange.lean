import ApacheFuzz.Framing.Input
import ApacheFuzz.Harness.System

/-!
# Talking to the server

The harness connects, sends the packets of an input and waits between them for a first
response, for at most 500 ms each.  Sizes are subtracted as `size_t`.
-/

namespace ApacheFuzz.Harness

open ApacheFuzz.Framing
open Script (Proc)

def packetDelayUs : Nat := 20000
def iterationDelayUs : Nat := 1850
def responseTimeoutMs : Nat := 500
def responseDrainTimeoutMs : Nat := 10
def maxResponseBytes : Nat := 65536

/-- `sizeof(response)` -/
def responseSize : Nat := 4096

def sizeSub (a b : Nat) : Nat := (2 ^ 64 + a - b) % 2 ^ 64

def bytesOf (text : String) : List UInt8 := text.toList.map fun c => c.toNat.toUInt8

def keepAlivePrelude : List UInt8 :=
  bytesOf "HEAD / HTTP/1.1\r\nHost: localhost\r\nConnection: keep-alive\r\n\r\n"

/-- `connectTarget`: the descriptor, or -1. -/
def connectTarget : Process Int := do
  let sockfd ← socket
  if sockfd = -1 then return -1
  if (← inetPton) ≠ 1 then
    let _ ← close
    return -1
  if (← connect) = -1 then
    let _ ← close
    return -1
  return sockfd

def sendTurn (bytes : List UInt8) (sent : Nat) : Process (Nat ⊕ Int) := do
  if bytes.length ≤ sent then return .inr 0
  let result ← send (bytes.drop sent)
  if 0 < result then return .inl (sent + result.toNat)
  if result = -1 ∧ (← errno) = .EINTR then return .inl sent
  return .inr (-1)

/-- `sendAll` -/
def sendAll (bytes : List UInt8) : Process Int := Proc.iterate (sendTurn bytes) 0

def pollTurn (timeout : Nat) (_ : Unit) : Process (Unit ⊕ (Int × Bool)) := do
  let (pollResult, error) ← poll timeout
  if pollResult = -1 ∧ (← errno) = .EINTR then return .inl ()
  return .inr (pollResult, error)

/-- The inner `do ... while` of `waitForPacketResponse`. -/
def pollRetry (timeout : Nat) : Process (Int × Bool) := Proc.iterate (pollTurn timeout) ()

/-- The local variables `received` and `timeout` of `waitForPacketResponse`. -/
structure Gate where
  received : Nat
  timeout : Nat
  deriving DecidableEq, Repr

def Gate.available (gate : Gate) : Nat := sizeSub maxResponseBytes gate.received

/-- 0 when a byte has been received. -/
def Gate.verdict (gate : Gate) : Int := if 0 < gate.received then 0 else -1

/-- One turn of the loop over `recv`: it ends with `break` or with a return value. -/
def drainTurn (gate : Gate) : Process (Gate ⊕ (Gate ⊕ Int)) := do
  if gate.available = 0 then return .inr (.inr 0)
  let result ← recv (if responseSize < gate.available then responseSize else gate.available)
  if 0 < result then
    return .inl ⟨gate.received + result.toNat, responseDrainTimeoutMs⟩
  let error ← errno
  if result = -1 ∧ error = .EINTR then return .inl gate
  if result = -1 ∧ (error = .EAGAIN ∨ error = .EWOULDBLOCK) then return .inr (.inl gate)
  return .inr (.inr gate.verdict)

def gateTurn (gate : Gate) : Process (Gate ⊕ Int) := do
  let (pollResult, error) ← pollRetry gate.timeout
  if pollResult ≤ 0 then return .inr gate.verdict
  if error then return .inr gate.verdict
  Proc.iterate drainTurn gate

/-- `waitForPacketResponse` -/
def waitForPacketResponse : Process Int := Proc.iterate gateTurn ⟨0, responseTimeoutMs⟩

/-- `sendPrelude` -/
def sendPrelude : Process Int := do
  if (← sendAll keepAlivePrelude) = -1 then return -1
  waitForPacketResponse

/-- What `sendMultipacketData` does before the packets that are left, if any are. -/
def betweenPackets (flags : UInt8) (left : List FuzzPacketView) : Process Int :=
  if left = [] then return 0
  else if flags &&& waitForResponseFlag ≠ 0 then waitForPacketResponse
  else do
    usleep packetDelayUs
    return 0

/-- The loop of `sendMultipacketData` over the packets that are left. -/
def sendPackets (flags : UInt8) (data : List UInt8) : List FuzzPacketView → Process Int
  | [] => return 0
  | packet :: left => do
    if (← sendAll (packet.bytes data)) = -1 then return -1
    if (← betweenPackets flags left) = -1 then return -1
    sendPackets flags data left

/-- `sendMultipacketData` -/
def sendMultipacketData (data : List UInt8) (input : FuzzInput) : Process Int :=
  sendPackets input.flags data input.packets

def sendFirst (flags : UInt8) : Process Int :=
  if flags &&& httpPreludeFlag ≠ 0 then sendPrelude else return 0

/-- The part of `fuzzServer` from the prelude to the log: the value of `sendResult`. -/
def sendInput (data : List UInt8) (input : FuzzInput) : Process Int := do
  if (← sendFirst input.flags) = -1 then return -1
  if input.flags &&& multipacketFlag ≠ 0 then sendMultipacketData data input
  else sendAll ((input.packets.headD ⟨0, 0⟩).bytes data)

end ApacheFuzz.Harness
