import DpcppTrace.Foundation.Pattern
import DpcppTrace.Model.Debugger
import DpcppTrace.Model.PacketText

/-! # The GDB server protocol

The dispatcher tries the patterns of the packets in order; the handler of the first that matches
parses the packet again and replies. Packets reach the protocol as they were read: with or without
the acknowledgements around them, and with whatever the read buffer holds behind them. A handler
that throws ends the server, so it has no reply.
-/

namespace DpcppTrace.Model

open Foundation Pattern

/-- The state of `GDBServerProtocol`. -/
structure GDBServerProtocol where
  mRunning : Bool := true
  mAck : Bool := true
  mCurrentThreadIndex : UInt64 := 0
  mLastThreadInfoIndex : UInt64 := 0
deriving DecidableEq

abbrev Server := StateT GDBServerProtocol (Program Request.Answer)

abbrev Handler := Server Bytes

def ask (request : Request) : Server request.Answer := StateT.lift (Program.ask request)

/-- An exception that nothing catches. -/
def throwException : Handler := StateT.lift .fail

/-- `createResponse(response, mAck)`. -/
def respond (response : Bytes) : Handler := do
  let protocol ← get
  return createResponse response protocol.mAck

/-! ## Patterns -/

def digit (c : UInt8) : Bool := 0x30 ≤ c ∧ c ≤ 0x39

/-- `[0-9a-f]`. -/
def lowerHex (c : UInt8) : Bool := digit c ∨ (0x61 ≤ c ∧ c ≤ 0x66)

/-- `[0-9a-fA-F]`. -/
def anyHex (c : UInt8) : Bool := lowerHex c ∨ (0x41 ≤ c ∧ c ≤ 0x46)

/-- `[0-9a-zA-Z]`. -/
def alphanumeric (c : UInt8) : Bool := digit c ∨ (0x61 ≤ c ∧ c ≤ 0x7a) ∨ (0x41 ≤ c ∧ c ≤ 0x5a)

/-- `.`. -/
def anyChar (_ : UInt8) : Bool := true

def text (literal : String) : Pattern UInt8 := .literal (str literal)

/-- `([0-9a-f]+)`. -/
def number : Pattern UInt8 := group (many lowerHex)

/-- `\+?\$`. -/
def packetStart : Pattern UInt8 := optional (text "+") ++ text "$"

/-- `#[0-9a-fA-F]{2}`. -/
def packetEnd : Pattern UInt8 := text "#" ++ (one anyHex ++ one anyHex)

/-- A packet with this body, with or without an acknowledgement on either side. -/
def packetPattern (body : Pattern UInt8) : Pattern UInt8 :=
  packetStart ++ (body ++ (packetEnd ++ optional (text "+")))

/-! ## Dispatch -/

inductive Route where
  | process_qAttached | process_qSupported | process_QStartNoAckMode | processStatus | process_g
  | process_G | process_H | process_qfThreadInfo | process_qC | process_m | process_M
  | process_qXfer | process_z | process_Z | process_vCont | process_vFile | process_c | process_p
  | process_qProcessInfo | processAck | stop | processUnsupported
deriving DecidableEq

/-- The patterns of the dispatcher in front of the test for a lone acknowledgement, each by its
body. -/
def dispatchTable : List (Pattern UInt8 × Route) :=
  [(text "qAttached" ++ optional (text ":" ++ many alphanumeric), .process_qAttached),
    (text "qSupported:" ++ many anyChar, .process_qSupported),
    (text "QStartNoAckMode", .process_QStartNoAckMode),
    (text "?", .processStatus),
    (text "g", .process_g),
    (text "G" ++ many lowerHex, .process_G),
    (text "H" ++ many anyChar, .process_H),
    (text "qfThreadInfo", .process_qfThreadInfo),
    (text "qsThreadInfo", .process_qfThreadInfo),
    (text "qC", .process_qC),
    (text "m" ++ many fun c => anyHex c || c = 0x2c, .process_m),
    (text "M" ++ many anyChar, .process_M),
    (text "x" ++ many fun c => anyHex c || c = 0x2c, .process_m),
    (text "qXfer" ++ many anyChar, .process_qXfer),
    (text "z" ++ many anyChar, .process_z),
    (text "Z" ++ many anyChar, .process_Z),
    (text "vCont" ++ many anyChar, .process_vCont),
    (text "vFile" ++ many anyChar, .process_vFile),
    (text "c", .process_c),
    (text "p" ++ many lowerHex, .process_p),
    (text "qProcessInfo", .process_qProcessInfo)]

/-- The first entry of a dispatch table whose pattern matches the packet. -/
def findRoute (packet : Bytes) : List (Pattern UInt8 × Route) → Option Route
  | [] => none
  | (body, route) :: table =>
    if ((packetPattern body).fullMatch packet).isSome then some route else findRoute packet table

def route (packet : Bytes) : Route :=
  match findRoute packet dispatchTable with
  | some route => route
  | none =>
    if packet = str "+" then .processAck
    else if ((packetPattern (text "k")).fullMatch packet).isSome then .stop
    else .processUnsupported

/-! ## Handlers -/

def process_qSupported : Handler :=
  respond (str "swbreak+;hwbreak+;vContSupported+;PacketSize=" ++ formatHex 16384 ++
    str ";QStartNoAckMode+;qXfer:auxv:read+;qXfer:features:read+;qXfer:exec-file:read+")

def processAck : Handler := do
  let protocol ← get
  return if protocol.mAck then str "+" else []

def process_QStartNoAckMode : Handler := do
  modify fun protocol => { protocol with mAck := false }
  return createResponse (str "OK") true

/-- `H[gc]([\-0-9a-fA-F]+)`. -/
def threadBody : Pattern UInt8 :=
  text "H" ++ (one (fun c => c = 0x67 || c = 0x63) ++ group (many fun c => c = 0x2d || anyHex c))

/-- The pattern of a thread packet, which has no place for an acknowledgement behind the packet. -/
def threadPattern : Pattern UInt8 := packetStart ++ (threadBody ++ packetEnd)

def process_H (packet : Bytes) : Handler :=
  match threadPattern.fullMatch packet with
  | some [threadIdHex] => do
    modify fun protocol =>
      { protocol with
        mCurrentThreadIndex :=
          if threadIdHex.head? = some 0x2d then 0 else parseUInt64 threadIdHex }
    respond (str "OK")
  | _ => respond (str "E01")

def process_qfThreadInfo : Handler := do
  let numThreads : UInt64 ← ask .getNumThreads
  let protocol ← get
  if protocol.mLastThreadInfoIndex < numThreads then
    set { protocol with mLastThreadInfoIndex := protocol.mLastThreadInfoIndex + 1 }
    let threadId : UInt64 ← ask (.getThreadIDAtIndex protocol.mLastThreadInfoIndex)
    respond (str "m" ++ encodeInt 8 threadId.toBitVec)
  else
    set { protocol with mLastThreadInfoIndex := 0 }
    respond (str "l")

def process_qC : Handler := do
  let protocol ← get
  let threadId : UInt64 ← ask (.getThreadIDAtIndex protocol.mCurrentThreadIndex)
  respond (str "QC" ++ encodeInt 8 threadId.toBitVec)

/-- The reply with register or memory contents; no bytes mean that they could not be read. -/
def respondData (data : Bytes) (text : Bytes → Bytes) : Handler :=
  if data = [] then respond (str "E01") else respond (text data)

def process_g : Handler := do
  let protocol ← get
  let regValues : Buffer ← ask (.getRegistersData protocol.mCurrentThreadIndex)
  respondData regValues.data encode

/-- The whole packet behind its first character is decoded. -/
def process_G (packet : Bytes) (after : UInt8) : Handler := do
  let protocol ← get
  let regValues := decode after (packet.drop 1)
  let _ ← ask (.writeRegistersData regValues protocol.mCurrentThreadIndex)
  respond (str "OK")

def memoryPattern : Pattern UInt8 :=
  packetPattern (one (fun c => c = 0x6d || c = 0x78) ++ (number ++ (text "," ++ number)))

/-- The address and the length of a memory packet; what did not match is empty. -/
def memoryRange (packet : Bytes) : UInt64 × UInt64 :=
  match memoryPattern.fullMatch packet with
  | some [startHex, lengthHex] => (parseUInt64 startHex, parseUInt64 lengthHex)
  | _ => (parseUInt64 [], parseUInt64 [])

def process_m (packet : Bytes) : Handler :=
  let (start, length) := memoryRange packet
  if length = 0 then respond (str "OK")
  else do
    let data : Buffer ← ask (.readMemory start length)
    respondData data.data (if (str "$x").isPrefixOf packet then escape else encode)

def writePattern : Pattern UInt8 :=
  packetPattern (one (fun c => c = 0x6d || c = 0x78) ++
    (number ++ (text "," ++ (number ++ (text ":" ++ number)))))

/-- The address, the length and the data of a write packet; what did not match is empty. -/
def writeCaptures (packet : Bytes) : Bytes × Bytes × Bytes :=
  match writePattern.fullMatch packet with
  | some [startHex, lengthHex, dataHex] => (startHex, lengthHex, dataHex)
  | _ => ([], [], [])

/-- The data of a write packet is followed by the end of the packet. -/
def process_M (packet : Bytes) : Handler :=
  let (startHex, lengthHex, dataHex) := writeCaptures packet
  if parseUInt64 lengthHex = 0 then respond (str "OK")
  else do
    let _ ← ask (.writeMemory (parseUInt64 startHex) (parseUInt64 lengthHex) (decode 0x23 dataHex))
    respond (str "OK")

def encodeStopReason (stopReason : StopReason) : Bytes :=
  match stopReason.type with
  | .signal => str "S" ++ formatHex2 stopReason.code
  | .breakpoint => str "T05swbreak:;"
  | .exit | .none => str "W00"
  | _ => str "S05"

def processStatus : Handler := do
  let protocol ← get
  let stopReason : StopReason ← ask (.getStopReason protocol.mCurrentThreadIndex)
  respond (encodeStopReason stopReason)

/-- The objects of `qXfer` packets. -/
inductive XferObject where
  | features | auxv | execFile
deriving DecidableEq

def XferObject.pattern : XferObject → Pattern UInt8
  | .features =>
    packetPattern (text "qXfer:features:read:target.xml:" ++ (number ++ (text "," ++ number)))
  | .auxv => packetPattern (text "qXfer:auxv:read::" ++ (number ++ (text "," ++ number)))
  | .execFile =>
    packetPattern (text "qXfer:exec-file:read:" ++
      (optional number ++ (text ":" ++ (number ++ (text "," ++ number)))))

/-- The object, the offset and the length of a read; the patterns are tried in this order. -/
def qXferRead (packet : Bytes) : Option (XferObject × UInt64 × UInt64) :=
  if let some [offsetHex, lengthHex] := XferObject.features.pattern.fullMatch packet then
    some (.features, parseUInt64 offsetHex, parseUInt64 lengthHex)
  else if let some [offsetHex, lengthHex] := XferObject.auxv.pattern.fullMatch packet then
    some (.auxv, parseUInt64 offsetHex, parseUInt64 lengthHex)
  else if let some [_, offsetHex, lengthHex] := XferObject.execFile.pattern.fullMatch packet then
    some (.execFile, parseUInt64 offsetHex, parseUInt64 lengthHex)
  else none

/-- `std::string::substr`, at an offset inside the text. -/
def substr (text : Bytes) (offset length : UInt64) : Bytes :=
  (text.drop offset.toNat).take length.toNat

/-- The response to a read of an object of `size` bytes, sliced from its text. -/
def xferSlice (size : ℕ) (text : Bytes) (offset length : UInt64) : Bytes :=
  if offset.toNat ≥ size then []
  else if (offset + length).toNat ≤ size then str "m" ++ substr text offset length
  else str "l" ++ substr text offset length

def process_qXfer (packet : Bytes) : Handler :=
  match qXferRead packet with
  | some (.features, offset, length) => do
    let xml : Buffer ← ask .getGDBTargetXML
    respond (xferSlice xml.data.length xml.data offset length)
  | some (.auxv, offset, length) => do
    let auxv : Buffer ← ask .getAuxvData
    respond (xferSlice auxv.data.length (escape auxv.data) offset length)
  | some (.execFile, offset, length) => do
    let path : Buffer ← ask .getExecutablePath
    respond (xferSlice path.data.length path.data offset length)
  | none => respond []

/-- `\+?\$z0,([0-9a-f]+),([0-9a-f]+)#[0-9a-fA-F]{2}\+?`, and the same for `Z`. -/
def breakpointPattern (command : String) : Pattern UInt8 :=
  packetPattern (text command ++ (number ++ (text "," ++ number)))

/-- The common body of the two breakpoint handlers. -/
def processBreakpoint (command : String) (action : UInt64 → Request) (packet : Bytes) : Handler :=
  match (breakpointPattern command).fullMatch packet with
  | some [addrHex, _] => do
    let _ ← ask (action (parseUInt64 addrHex))
    respond (str "OK")
  | _ => respond (str "E01")

def process_z : Bytes → Handler := processBreakpoint "z0," .removeSoftwareBreakpoint

def process_Z : Bytes → Handler := processBreakpoint "Z0," .createSoftwareBreakpoint

/-- The response once a resumed program has stopped. -/
def respondStopped (action : Request) : Handler := do
  let _ ← ask action
  processStatus

/-- A signal and a thread, with or without `;c` behind them. -/
def signalPattern (command : String) : Pattern UInt8 :=
  packetPattern (text command ++ (number ++ (text ":" ++ (number ++ optional (text ";c")))))

def process_vCont (packet : Bytes) : Handler :=
  if ((packetPattern (text "vCont?")).fullMatch packet).isSome then
    respond (str "vCont;c;C;t;s;S;r")
  else if ((packetPattern (text "vCont;c")).fullMatch packet).isSome then
    respondStopped (.resume 0 0)
  else if let some [tidHex] := (packetPattern (text "vCont;c:" ++ number)).fullMatch packet then
    respondStopped (.resume 0 (parseUInt64 tidHex))
  else if let some [signalHex, tidHex] := (signalPattern "vCont;C").fullMatch packet then
    respondStopped (.resume (parseInt32 signalHex) (parseUInt64 tidHex))
  else if let some [tidHex] := (packetPattern (text "vCont;s:" ++ number)).fullMatch packet then
    respondStopped (.stepInstruction (parseUInt64 tidHex) 0)
  else if let some [signalHex, tidHex] := (signalPattern "vCont;S").fullMatch packet then
    respondStopped (.stepInstruction (parseUInt64 tidHex) (parseInt32 signalHex))
  else respond []

def process_c : Handler := respondStopped (.resume 0 0)

/-- The register number of a packet; what did not match is empty. -/
def registerNumber (packet : Bytes) : UInt64 :=
  match (packetPattern (text "p" ++ number)).fullMatch packet with
  | some [regHex] => parseUInt64 regHex
  | _ => parseUInt64 []

def process_p (packet : Bytes) : Handler := do
  let protocol ← get
  let data : Buffer ← ask (.readRegister protocol.mCurrentThreadIndex (registerNumber packet))
  respondData data.data encode

/-- The result of a system call, a negative one behind a minus sign. -/
def respondResult (res : Int32) : Handler :=
  if 0 ≤ res then respond (str "F" ++ encodeInt 4 res.toBitVec)
  else respond (str "F" ++ (str "-" ++ encodeInt 4 (-res).toBitVec))

/-- `vFile:open`; the system sees the path up to a null character. -/
def vFileOpen (nameHex flagsHex modeHex : Bytes) : Handler := do
  let filename := (decodeString nameHex).takeWhile (· ≠ 0)
  let res : Int32 ← ask (.llopen filename (parseInt32 flagsHex) (parseInt32 modeHex))
  respondResult res

def vFileClose (fdHex : Bytes) : Handler := do
  let dropThisMany := if fdHex.head? = some 0x2d then 1 else 0
  let fd := parseInt32 (fdHex.drop dropThisMany)
  let res : Int32 ← ask (.llclose (if dropThisMany > 0 then -fd else fd))
  respondResult res

/-- `vFile:pread`. The buffer has room for `count` bytes before the read, and is cut to the result
afterwards. The result is an `int`: minus one of a failed read, and any other negative value, converts to
a size that no buffer can have. -/
def vFilePread (fdHex countHex offsetHex : Bytes) : Handler := do
  let count := parseUInt64 countHex
  if 0x8000000000000000 ≤ count then throwException
  else
    let allocated : Bool ← ask (.allocate count)
    if allocated then
      let result : Option Bytes ← ask (.llread (parseInt32 fdHex) (parseUInt64 offsetHex) count)
      match result with
      | none => throwException
      | some buf =>
        let res := Int32.ofNat buf.length
        if res < 0 then throwException
        else respond (str "F" ++ encodeInt 4 res.toBitVec ++ str ";" ++
          escape (buf.take res.toNatClampNeg))
    else throwException

def process_vFile (packet : Bytes) : Handler :=
  if ((packetPattern (text "vFile:setfs:" ++ many anyChar)).fullMatch packet).isSome then
    respond (str "F0")
  else if let some [nameHex, flagsHex, modeHex] := (packetPattern (text "vFile:open:" ++
      (group (many anyChar) ++ (text "," ++ (number ++ (text "," ++ number)))))).fullMatch packet then
    vFileOpen nameHex flagsHex modeHex
  else if let some [fdHex] := (packetPattern (text "vFile:close:" ++ number)).fullMatch packet then
    vFileClose fdHex
  else if let some [fdHex, countHex, offsetHex] := (packetPattern (text "vFile:pread:" ++
      (number ++ (text "," ++ (number ++ (text "," ++ number)))))).fullMatch packet then
    vFilePread fdHex countHex offsetHex
  else respond []

def process_qAttached : Handler := do
  let attached : Bool ← ask .isAttached
  respond (if attached then str "1" else str "0")

def process_qProcessInfo : Handler := respond []

def processUnsupported : Handler := respond []

/-- `processPacket`; `after` is the character behind the packet in the read buffer. -/
def processPacket (packet : Bytes) (after : UInt8) : Handler :=
  match route packet with
  | .process_qAttached => process_qAttached
  | .process_qSupported => process_qSupported
  | .process_QStartNoAckMode => process_QStartNoAckMode
  | .processStatus => processStatus
  | .process_g => process_g
  | .process_G => process_G packet after
  | .process_H => process_H packet
  | .process_qfThreadInfo => process_qfThreadInfo
  | .process_qC => process_qC
  | .process_m => process_m packet
  | .process_M => process_M packet
  | .process_qXfer => process_qXfer packet
  | .process_z => process_z packet
  | .process_Z => process_Z packet
  | .process_vCont => process_vCont packet
  | .process_vFile => process_vFile packet
  | .process_c => process_c
  | .process_p => process_p packet
  | .process_qProcessInfo => process_qProcessInfo
  | .processAck => processAck
  | .stop => do
    modify fun protocol => { protocol with mRunning := false }
    return []
  | .processUnsupported => processUnsupported

end DpcppTrace.Model
