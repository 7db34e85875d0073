import DpcppTrace.Foundation.Memory
import DpcppTrace.Model.GDBServerProtocol

/-! # The server loop

`DebugServer::run` hands each read to the protocol as one packet, writes the reply, and leaves the
loop once the protocol has stopped. The read buffer is reused, so a packet is followed there by what
earlier reads left behind.
-/

namespace DpcppTrace.Model

open Foundation

/-- The size of the read buffer. -/
def readSize : ℕ := 16384

/-- What can be observed of the loop: the bytes written, the calls, the states at its end, and
whether an exception ended it. -/
structure Session (σ : Type) where
  replies : Bytes
  calls : List Request
  environment : σ
  protocol : GDBServerProtocol
  crashed : Bool
deriving DecidableEq

/-- The observation of an iteration in front of the rest of the loop. -/
def Session.behind {σ : Type} (rest : Session σ) (calls : List Request) (response : Bytes) :
    Session σ :=
  { rest with replies := response ++ rest.replies, calls := calls ++ rest.calls }

/-- `DebugServer::run` from the state of its protocol and its buffer, until the reads end, with a debugger
that answers everything. -/
def DebugServer.run {σ : Type} (environment : Environment Request.Answer σ) :
    List Bytes → Memory → GDBServerProtocol → σ → Session σ
  | [], _, protocol, state => ⟨[], [], state, protocol, false⟩
  | message :: reads, buf, protocol, state =>
    let buf := buf.write 0 message
    let packet := (processPacket message (buf message.length) protocol).run environment state
    match packet.value with
    | none => ⟨[], packet.calls, packet.final, protocol, true⟩
    | some (response, protocol) =>
      if protocol.mRunning then
        (run environment reads buf protocol packet.final).behind packet.calls response
      else ⟨response, packet.calls, packet.final, protocol, false⟩

/-- The same with a debugger whose calls may not come back: they throw, end the process, or use a null
pointer. -/
def DebugServer.serve {σ : Type} (environment : FallibleEnvironment Request.Answer σ) :
    List Bytes → Memory → GDBServerProtocol → σ → Session σ
  | [], _, protocol, state => ⟨[], [], state, protocol, false⟩
  | message :: reads, buf, protocol, state =>
    let buf := buf.write 0 message
    let packet := (processPacket message (buf message.length) protocol).attempt environment state
    match packet.value with
    | none => ⟨[], packet.calls, packet.final, protocol, true⟩
    | some (response, protocol) =>
      if protocol.mRunning then
        (serve environment reads buf protocol packet.final).behind packet.calls response
      else ⟨response, packet.calls, packet.final, protocol, false⟩

theorem DebugServer.serve_fallible {σ : Type} (environment : Environment Request.Answer σ)
    (reads : List Bytes) (buf : Memory) (protocol : GDBServerProtocol) (state : σ) :
    DebugServer.serve environment.fallible reads buf protocol state =
      DebugServer.run environment reads buf protocol state := by
  induction reads generalizing buf protocol state with
  | nil => rfl
  | cons message reads ih =>
    simp only [serve, run, Program.attempt_fallible, ih]

end DpcppTrace.Model
