import ApacheFuzz.Framing.Replay
import ApacheFuzz.Harness.Exchange

/-!
# The replay tool

`main` of `send-test-case.py` decodes one input and sends it as the harness does.  An exception
that nobody catches ends the process with status 1, and a refused argument with status 2; the
socket is closed on both ways out.  What the tool prints is left out, and so are its timeouts,
since a call may time out whenever it is asked.
-/

namespace ApacheFuzz.Harness

open ApacheFuzz.Framing
open Script (Proc)

/-- The arguments that decide what is sent. -/
structure Arguments where
  raw : Bool
  packet : Option Int
  packetDelayUs : Nat
  responseLimit : Nat
  dryRun : Bool
  deriving DecidableEq, Repr

/-- `KEEPALIVE_PRELUDE` -/
def keepalivePrelude : List UInt8 :=
  bytesOf "HEAD / HTTP/1.1\r\n" ++ bytesOf "Host: localhost\r\n" ++
    bytesOf "Connection: keep-alive\r\n" ++ bytesOf "\r\n"

/-- `parser.error` -/
def parserError {α : Type} (message : String) : Process α := do
  Proc.exit ⟨2, message, ← errno⟩

/-- An `OSError` or a `ValueError` reaches the end of the script. -/
def uncaught {α : Type} : Process α := do
  Proc.exit ⟨1, "error: ", ← errno⟩

/-- One call of `send` inside `sock.sendall`, which tries again after an interrupt. -/
def sendallTurn (bytes : List UInt8) (sent : Nat) : Process (Nat ⊕ Unit) := do
  let result ← send (bytes.drop sent)
  if 0 ≤ result then
    if bytes.length ≤ sent + result.toNat then return .inr ()
    else return .inl (sent + result.toNat)
  else if (← errno) = .EINTR then return .inl sent
  else uncaught

/-- `sock.sendall`, which calls `send` also for no bytes at all. -/
def sendall (bytes : List UInt8) : Process Unit := Proc.iterate (sendallTurn bytes) 0

inductive RecvAnswer
  | bytes (count : Nat)
  | timeout
  | interrupted
  | failed
  deriving DecidableEq, Repr

def recvOnce (size : Nat) : Process RecvAnswer := do
  Proc.modify (·.onSocket (.recv size))
  Proc.await fun answer w =>
    match answer with
    | .count n => if n ≤ size then some (.bytes n, w.onSocket (.received n)) else none
    | .timeout => some (.timeout, w)
    | .fail .EINTR => some (.interrupted, w.setErrno .EINTR)
    | .fail e => some (.failed, w.setErrno e)
    | _ => none

def sockRecvTurn (size : Nat) (_ : Unit) : Process (Unit ⊕ Option Nat) := do
  match ← recvOnce size with
  | .bytes n => return .inr (some n)
  | .timeout => return .inr none
  | .interrupted => return .inl ()
  | .failed => uncaught

/-- `sock.recv`: the number of bytes, or `none` for `socket.timeout`. -/
def sockRecv (size : Nat) : Process (Option Nat) := Proc.iterate (sockRecvTurn size) ()

/-- One turn of the loop of `receive_response` with `received` bytes in the response. -/
def receiveTurn (limit received : Nat) : Process (Nat ⊕ Nat) := do
  if limit ≤ received then return .inr received
  match ← sockRecv (min 4096 (limit - received)) with
  | none => return .inr received
  | some 0 => return .inr received
  | some (n + 1) => return .inl (received + (n + 1))

/-- `receive_response`: the length of the response, or `none` when there was none in time. -/
def receiveResponse (limit : Nat) : Process (Option Nat) := do
  match ← sockRecv (min 4096 limit) with
  | none => return none
  | some 0 => return some 0
  | some (n + 1) => return some (← Proc.iterate (receiveTurn limit) (n + 1))

/-- `not response` -/
def noResponse (response : Option Nat) : Bool := response = none || response = some 0

/-- A response gate: 0, or the status that `main` returns without a response. -/
def gateStatus (arguments : Arguments) : Process Int := do
  if noResponse (← receiveResponse arguments.responseLimit) then return 2 else return 0

/-- What `main` does between two packets. -/
def betweenSends (arguments : Arguments) (flags : UInt8) : Process Int := do
  if flags &&& waitForResponseFlag ≠ 0 then gateStatus arguments
  else do
    usleep arguments.packetDelayUs
    return 0

/-- The loop of `main` over the packets that are left. -/
def sendEach (arguments : Arguments) (flags : UInt8) : List (List UInt8) → Process Int
  | [] => return 0
  | packet :: left => do
    sendall packet
    if left = [] then return 0
    else if (← betweenSends arguments flags) ≠ 0 then return 2
    else sendEach arguments flags left

def sendKeepalive (arguments : Arguments) (flags : UInt8) : Process Int := do
  if flags &&& httpPreludeFlag ≠ 0 then
    sendall keepalivePrelude
    gateStatus arguments
  else return 0

/-- The part of `main` inside of `with`, up to the last packet. -/
def sendDecoded (arguments : Arguments) (flags : UInt8) (packets : List (List UInt8)) :
    Process Int := do
  if (← sendKeepalive arguments flags) ≠ 0 then return 2
  else sendEach arguments flags packets

/-- `socket.create_connection` -/
def createConnection : Process Unit := do
  if (← plainCall) = -1 then uncaught else return ()

/-- The input that the arguments ask for. -/
def decodeInput (arguments : Arguments) (data : List UInt8) : Process FuzzerInput :=
  if arguments.raw then return ⟨0, [data]⟩
  else match parseFuzzerInput data with
    | .error (.valueError _) => uncaught
    | .error .fuel => Proc.stuck
    | .ok decoded => return decoded

/-- The packets that the arguments ask for. -/
def selectPackets (arguments : Arguments) (decoded : FuzzerInput) : Process (List (List UInt8)) :=
  match arguments.packet with
  | none => return decoded.packets
  | some packet =>
    if decoded.flags &&& multipacketFlag = 0 then
      parserError "--packet requires a multipacket input"
    else if 1 ≤ packet ∧ packet ≤ decoded.packets.length then
      return (decoded.packets[packet.toNat - 1]?).toList
    else parserError s!"--packet must be between 1 and {decoded.packets.length}"

/-- The part of `main` inside of `with`. -/
def exchange (arguments : Arguments) (flags : UInt8) (packets : List (List UInt8)) :
    Process Int := do
  let status ← sendDecoded arguments flags packets
  if status ≠ 0 then return status
  else
    let _ ← receiveResponse arguments.responseLimit
    return 0

/-- `main` from the decoding on. -/
def replay (arguments : Arguments) (data : List UInt8) : Process Int := do
  let decoded ← decodeInput arguments data
  let packets ← selectPackets arguments decoded
  if arguments.dryRun then return 0
  else
    createConnection
    let status ← exchange arguments decoded.flags packets
    let _ ← plainCall
    return status

/-- `main` -/
def main (arguments : Arguments) (data : List UInt8) : Process Int :=
  if arguments.raw ∧ arguments.packet.isSome then
    parserError "--raw and --packet cannot be used together"
  else if 1 ≤ arguments.responseLimit ∧ arguments.responseLimit ≤ 2 ^ 20 then
    replay arguments data
  else parserError "invalid response limit"

theorem keepalivePrelude_eq : keepalivePrelude = keepAlivePrelude := by
  decide

end ApacheFuzz.Harness
