import DpcppTrace.Soundness.RemoteHandlers

/-! # A remote debugger

A client that sends packets and reads the stream of replies works with the debugger as if it asked it
itself: command after command, the debugger is asked the same, changes the same, and the client gets the
same results. Acknowledgements and packets that the server does not support may stand anywhere between
them. The session ends early exactly if a command breaks off, and then every command before it has its
result.
-/

namespace DpcppTrace.Soundness

open Foundation Model

/-! ## The client at the debugger -/

/-- A command and its result. -/
abbrev Performed := (command : Command) × command.Result

/-- What becomes of a list of commands: the results in order, up to one that breaks off. -/
structure Exchange (σ : Type) where
  outcomes : List Performed
  calls : List Request
  environment : σ
  remote : Remote
  brokenOff : Bool

/-- A command with its result in front of the others. -/
def Exchange.behind {σ : Type} (rest : Exchange σ) (calls : List Request) (outcome : Performed) :
    Exchange σ :=
  { rest with outcomes := outcome :: rest.outcomes, calls := calls ++ rest.calls }

/-- The commands, one after another, put to the debugger itself. -/
def converse {σ : Type} (environment : Environment Request.Answer σ) :
    List Command → Remote → σ → Exchange σ
  | [], remote, state => ⟨[], [], state, remote, false⟩
  | command :: commands, remote, state =>
    let conversation := (command.perform remote).run environment state
    match conversation.value with
    | none => ⟨[], conversation.calls, conversation.final, remote, true⟩
    | some (result, remote) =>
      (converse environment commands remote conversation.final).behind conversation.calls
        ⟨command, result⟩

/-! ## The client at the server -/

/-- A packet with a command, behind an acknowledgement or not; the server looks at the digits behind the
mark, not at their value. -/
structure ClientPacket where
  command : Command
  lead : Bool
  high : UInt8
  low : UInt8
  highDigit : anyHex high = true
  lowDigit : anyHex low = true

/-- What the client sends at a time: an acknowledgement alone, a packet with a command, or one whose
reply has nothing to do with the debugger, as any unsupported one has. -/
inductive ClientRead where
  | acknowledgement
  | sends (packet : ClientPacket)
  | aside (bytes : Bytes) (silent : route bytes = .processUnsupported ∨
      route bytes = .process_qProcessInfo ∨ route bytes = .process_qSupported)

def ClientRead.bytes : ClientRead → Bytes
  | .acknowledgement => str "+"
  | .sends packet => packetOf packet.lead false packet.command.body packet.high packet.low
  | .aside bytes _ => bytes

def ClientRead.command : ClientRead → Option Command
  | .sends packet => some packet.command
  | .acknowledgement | .aside .. => none

/-- What the client waits for after sending: no reply, one with the result of a command, or another. -/
def ClientRead.awaits : ClientRead → Option (Option Command)
  | .acknowledgement => none
  | .sends packet => some (some packet.command)
  | .aside .. => some none

/-- The commands among the reads. -/
def commandsOf (reads : List ClientRead) : List Command := reads.filterMap ClientRead.command

/-- The results of the commands in the texts of the replies, as far as there are replies. -/
def readResults : List (Option Command) → List Bytes → Option (List Performed)
  | _, [] => some []
  | [], _ :: _ => none
  | none :: awaited, _ :: texts => readResults awaited texts
  | some command :: awaited, text :: texts => do
    let result ← command.parse text
    let outcomes ← readResults awaited texts
    return ⟨command, result⟩ :: outcomes

/-- What the client learns from all that the server writes. -/
def readReplies (reads : List ClientRead) (replies : Bytes) : Option (List Performed) :=
  (payloads replies).bind (readResults (reads.filterMap ClientRead.awaits))

private theorem readReplies_nil (reads : List ClientRead) : readReplies reads [] = some [] := by
  change readResults _ [] = some []
  cases reads.filterMap ClientRead.awaits <;> rfl

section Replies

variable (reads : List ClientRead) {replies : Bytes}

/-- An acknowledgement of the server is no reply. -/
theorem readReplies_acknowledgement (ack : Bool) :
    readReplies (.acknowledgement :: reads) ((if ack then str "+" else []) ++ replies) =
      readReplies reads replies := by
  have plus : str "+" = [0x2b] := by decide
  have awaited : (ClientRead.acknowledgement :: reads).filterMap ClientRead.awaits =
      reads.filterMap ClientRead.awaits := rfl
  rw [readReplies, plus, payloads_acknowledgement, awaited, readReplies]

/-- A reply that has nothing to do with the debugger is passed over. -/
theorem readReplies_aside {text : Bytes} (unhashed : 0x23 ∉ text) (ack : Bool) {bytes : Bytes}
    (silent : route bytes = .processUnsupported ∨ route bytes = .process_qProcessInfo ∨
      route bytes = .process_qSupported) :
    readReplies (.aside bytes silent :: reads) (createResponse text ack ++ replies) =
      readReplies reads replies := by
  have awaited : (ClientRead.aside bytes silent :: reads).filterMap ClientRead.awaits =
      none :: reads.filterMap ClientRead.awaits := rfl
  rw [readReplies, createResponse_eq, payloads_frame ack unhashed, awaited, readReplies]
  cases payloads replies with
  | none => rfl
  | some texts => rfl

/-- The reply to the first command gives its result, the other replies those of the others. -/
theorem readReplies_packet (packet : ClientPacket) (result : packet.command.Result) (ack : Bool)
    {outcomes : List Performed} (others : readReplies reads replies = some outcomes) :
    readReplies (.sends packet :: reads)
        (createResponse (packet.command.render result) ack ++ replies) =
      some (⟨packet.command, result⟩ :: outcomes) := by
  have awaited : (ClientRead.sends packet :: reads).filterMap ClientRead.awaits =
      some packet.command :: reads.filterMap ClientRead.awaits := rfl
  obtain ⟨texts, stream, read⟩ := Option.bind_eq_some_iff.mp others
  rw [createResponse_eq, readReplies,
    payloads_frame ack (packet.command.clean_render result).hash_notMem, stream, awaited]
  apply Option.bind_eq_some_iff.mpr
  refine ⟨packet.command.render result :: texts, rfl, ?_⟩
  rw [readResults, packet.command.parse_render, read]
  rfl

end Replies

/-! ## Both agree -/

section Runs

variable {σ : Type} (environment : Environment Request.Answer σ)

/-- A packet makes the server ask what its command asks, and its reply holds the result. -/
theorem processPacket_run (packet : ClientPacket) (after : UInt8) (remote : Remote) (state : σ) :
    (processPacket (ClientRead.sends packet).bytes after remote.protocol).run environment state =
      { (packet.command.perform remote).run environment state with
        value := ((packet.command.perform remote).run environment state).value.map fun outcome =>
          (createResponse (packet.command.render outcome.1) (packet.command.acked remote.acks),
            outcome.2.protocol) } := by
  rw [ClientRead.bytes, packet.command.handles packet.lead packet.high packet.low after remote
    packet.highDigit packet.lowDigit]
  exact Program.run_map environment _ _ state

/-- The server answers an acknowledgement with its own, as long as there are any. -/
theorem processPacket_acknowledgement (after : UInt8) (remote : Remote) :
    processPacket ClientRead.acknowledgement.bytes after remote.protocol =
      pure (if remote.acks then str "+" else [], remote.protocol) := by
  have routed : route (str "+") = .processAck := by decide
  rw [ClientRead.bytes, processPacket, routed]
  rfl

/-- Of the debugger nothing is asked for such a packet. -/
theorem processPacket_aside {bytes : Bytes} (silent : route bytes = .processUnsupported ∨
    route bytes = .process_qProcessInfo ∨ route bytes = .process_qSupported) (after : UInt8)
    (remote : Remote) :
    ∃ text, 0x23 ∉ text ∧ processPacket bytes after remote.protocol =
      pure (createResponse text remote.acks, remote.protocol) := by
  rw [processPacket]
  rcases silent with routed | routed | routed
  · exact ⟨[], List.not_mem_nil, by rw [routed]; rfl⟩
  · exact ⟨[], List.not_mem_nil, by rw [routed]; rfl⟩
  · refine ⟨_, ?_, by rw [routed]; rfl⟩
    decide

/-- The server writes, asks and leaves what the client's own questions would have given. -/
structure Mirrors (reads : List ClientRead) (session : Session σ) (exchange : Exchange σ) : Prop where
  calls : session.calls = exchange.calls
  environment : session.environment = exchange.environment
  protocol : session.protocol = exchange.remote.protocol
  crashed : session.crashed = exchange.brokenOff
  outcomes : readReplies reads session.replies = some exchange.outcomes

section Steps

variable {reads : List ClientRead} {session : Session σ} {exchange : Exchange σ}

theorem Mirrors.packet (mirrors : Mirrors reads session exchange) (calls : List Request)
    (packet : ClientPacket) (result : packet.command.Result) (ack : Bool) :
    Mirrors (.sends packet :: reads)
      (session.behind calls (createResponse (packet.command.render result) ack))
      (exchange.behind calls ⟨packet.command, result⟩) where
  calls := congrArg (calls ++ ·) mirrors.calls
  environment := mirrors.environment
  protocol := mirrors.protocol
  crashed := mirrors.crashed
  outcomes := readReplies_packet reads packet result ack mirrors.outcomes

/-- What has nothing to do with the debugger only adds to the replies. -/
theorem Mirrors.silent (mirrors : Mirrors reads session exchange) {read : ClientRead}
    {response : Bytes}
    (passed : readReplies (read :: reads) (response ++ session.replies) =
      readReplies reads session.replies) :
    Mirrors (read :: reads) (session.behind [] response) exchange where
  calls := mirrors.calls
  environment := mirrors.environment
  protocol := mirrors.protocol
  crashed := mirrors.crashed
  outcomes := passed.trans mirrors.outcomes

end Steps

theorem mirrors_run (reads : List ClientRead) (buf : Memory) (remote : Remote) (state : σ) :
    Mirrors reads
      (DebugServer.run environment (reads.map ClientRead.bytes) buf remote.protocol state)
      (converse environment (commandsOf reads) remote state) := by
  induction reads generalizing buf remote state with
  | nil => exact ⟨rfl, rfl, rfl, rfl, rfl⟩
  | cons read reads ih =>
    rw [List.map_cons, DebugServer.run]
    cases read with
    | acknowledgement =>
      simp only [processPacket_acknowledgement]
      exact (ih _ remote state).silent (readReplies_acknowledgement reads remote.acks)
    | aside bytes silent =>
      obtain ⟨text, unhashed, replied⟩ := processPacket_aside silent
        (buf.write 0 bytes bytes.length) remote
      simp only [ClientRead.bytes, replied]
      exact (ih _ remote state).silent (readReplies_aside reads unhashed remote.acks silent)
    | sends packet =>
      have commands : commandsOf (.sends packet :: reads) = packet.command :: commandsOf reads := rfl
      rw [commands, converse]
      simp only [processPacket_run]
      cases ended : ((packet.command.perform remote).run environment state).value with
      | none => exact ⟨rfl, rfl, rfl, rfl, readReplies_nil _⟩
      | some outcome =>
        apply Mirrors.packet
        apply ih

end Runs

end DpcppTrace.Soundness
