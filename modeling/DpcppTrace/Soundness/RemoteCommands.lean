import DpcppTrace.Foundation.ReplyStream
import DpcppTrace.Model.DebugServer
import DpcppTrace.Soundness.FileRead
import DpcppTrace.Soundness.TextCodecs
import DpcppTrace.Soundness.ThreadSelection

/-! # What a client means by its packets

A command has a packet, a meaning as questions to the debugger, and a result, which the client finds in
the reply. The handler of the packet asks what the command means, whatever the debugger answers, and
the client gets the result back from the text that the handler replies. Commands that the server
misreads are not among them.
-/

namespace DpcppTrace.Soundness

open Foundation Model Pattern

/-! ## Commands -/

/-- How the program is let go on. -/
inductive Resumption where
  | all
  | everyThread
  | thread (tid : UInt64)
  | threadWithSignal (signal : Fin (2 ^ 31)) (tid : UInt64)
  | step (tid : UInt64)
  | stepWithSignal (signal : Fin (2 ^ 31)) (tid : UInt64)

/-- The numbers of file descriptors, flags and modes are those that an `int` holds. -/
inductive Command where
  | isAttached
  | stopAcknowledging
  | stopReason
  | selectThread (thread : UInt64)
  | selectAny
  | currentThread
  | nextThread (restart : Bool)
  | readRegisters
  | readRegister (number : UInt64)
  | readMemory (addr len : UInt64)
  | breakpoint (inserts : Bool) (addr kind : UInt64)
  | resume (how : Resumption)
  | openFile (name : Bytes) (flags mode : Fin (2 ^ 31)) (valid : name ≠ [] ∧ 0 ∉ name)
  | closeFile (fd : Fin (2 ^ 31))
  | readFile (fd : Fin (2 ^ 31)) (count offset : UInt64)

def Resumption.body : Resumption → Bytes
  | .all => str "c"
  | .everyThread => str "vCont;c"
  | .thread tid => str "vCont;c:" ++ hexNumeral tid.toNat
  | .threadWithSignal signal tid =>
    str "vCont;C" ++ (hexNumeral signal ++ (str ":" ++ hexNumeral tid.toNat))
  | .step tid => str "vCont;s:" ++ hexNumeral tid.toNat
  | .stepWithSignal signal tid =>
    str "vCont;S" ++ (hexNumeral signal ++ (str ":" ++ hexNumeral tid.toNat))

/-- The body of the packet. -/
def Command.body : Command → Bytes
  | .isAttached => str "qAttached"
  | .stopAcknowledging => str "QStartNoAckMode"
  | .stopReason => str "?"
  | .selectThread thread => selectBody thread
  | .selectAny => str "Hg-1"
  | .currentThread => str "qC"
  | .nextThread restart => if restart then str "qfThreadInfo" else str "qsThreadInfo"
  | .readRegisters => str "g"
  | .readRegister number => str "p" ++ hexNumeral number.toNat
  | .readMemory addr len =>
    str "m" ++ (hexNumeral addr.toNat ++ (str "," ++ hexNumeral len.toNat))
  | .breakpoint true addr kind =>
    str "Z0," ++ (hexNumeral addr.toNat ++ (str "," ++ hexNumeral kind.toNat))
  | .breakpoint false addr kind =>
    str "z0," ++ (hexNumeral addr.toNat ++ (str "," ++ hexNumeral kind.toNat))
  | .resume how => how.body
  | .openFile name flags mode _ =>
    str "vFile:open:" ++ (encode name ++ 0x2c :: (hexNumeral flags ++ 0x2c :: hexNumeral mode))
  | .closeFile fd => str "vFile:close:" ++ hexNumeral fd
  | .readFile fd count offset =>
    preadBody (hexNumeral fd) (hexNumeral count.toNat) (hexNumeral offset.toNat)

/-! ## Meanings -/

/-- Bytes that an `int` can count. -/
abbrev FileData := { data : Bytes // data.length < 2 ^ 31 }

/-- Why a program stopped, as far as a client is told. -/
inductive Stop where
  | signal (code : Int32)
  | breakpoint
  | exited

/-- Of registers and of memory there may be nothing to know, of threads none left. -/
abbrev Command.Result : Command → Type
  | .isAttached => Bool
  | .stopAcknowledging | .selectThread _ | .selectAny | .breakpoint .. => Unit
  | .stopReason | .resume _ => Stop
  | .currentThread => UInt64
  | .nextThread _ => Option UInt64
  | .readRegisters | .readRegister _ | .readMemory .. => Option Bytes
  | .openFile .. | .closeFile _ => Int32
  | .readFile .. => FileData

/-- What a client can know of the server: the thread that the next commands are about, how many
threads have been listed, and whether replies are acknowledged. -/
structure Remote where
  thread : UInt64 := 0
  listed : UInt64 := 0
  acks : Bool := true

def Remote.protocol (remote : Remote) : GDBServerProtocol where
  mRunning := true
  mAck := remote.acks
  mCurrentThreadIndex := remote.thread
  mLastThreadInfoIndex := remote.listed

abbrev Conversation := StateT Remote (Program Request.Answer)

def question (request : Request) : Conversation request.Answer :=
  StateT.lift (Program.ask request)

def brokenOff {α : Type} : Conversation α := StateT.lift .fail

/-- No bytes mean that nothing is known. -/
def known (data : Bytes) : Option Bytes := if data = [] then none else some data

/-- A reason without a text of its own is shown as signal five. -/
def stopOf (reason : StopReason) : Stop :=
  match reason.type with
  | .signal => .signal reason.code
  | .breakpoint => .breakpoint
  | .exit | .none => .exited
  | _ => .signal 5

/-- Why the selected thread stopped. -/
def whyStopped : Conversation Stop := do
  let remote ← get
  let reason : StopReason ← question (.getStopReason remote.thread)
  return stopOf reason

def Resumption.request : Resumption → Request
  | .all | .everyThread => .resume 0 0
  | .thread tid => .resume 0 tid
  | .threadWithSignal signal tid => .resume (.ofNat signal) tid
  | .step tid => .stepInstruction tid 0
  | .stepWithSignal signal tid => .stepInstruction tid (.ofNat signal)

/-- What is left of a buffer when its length is taken for an `int`; none when that is negative. -/
def counted (buf : Bytes) : Option FileData :=
  if negative : Int32.ofNat buf.length < 0 then none
  else some ⟨buf.take (Int32.ofNat buf.length).toNatClampNeg, by
    have bound := (Int32.ofNat buf.length).toNatClampNeg_lt
    rw [List.length_take]
    omega⟩

def handOver : Option FileData → Conversation FileData
  | some data => pure data
  | none => brokenOff

/-- What the command asks, and its result. -/
def Command.perform : (command : Command) → Conversation command.Result
  | .isAttached => question .isAttached
  | .stopAcknowledging => modify fun remote => { remote with acks := false }
  | .stopReason => whyStopped
  | .selectThread thread => modify fun remote => { remote with thread }
  | .selectAny => modify fun remote => { remote with thread := 0 }
  | .currentThread => do
    let remote ← get
    question (.getThreadIDAtIndex remote.thread)
  | .nextThread _ => do
    let count : UInt64 ← question .getNumThreads
    let remote ← get
    if remote.listed < count then
      set { remote with listed := remote.listed + 1 }
      let thread : UInt64 ← question (.getThreadIDAtIndex remote.listed)
      return some thread
    else
      set { remote with listed := 0 }
      return none
  | .readRegisters => do
    let remote ← get
    let buf : Buffer ← question (.getRegistersData remote.thread)
    return known buf.data
  | .readRegister number => do
    let remote ← get
    let buf : Buffer ← question (.readRegister remote.thread number)
    return known buf.data
  | .readMemory addr len =>
    if len = 0 then return some []
    else do
      let buf : Buffer ← question (.readMemory addr len)
      return known buf.data
  | .breakpoint true addr _ => question (.createSoftwareBreakpoint addr)
  | .breakpoint false addr _ => question (.removeSoftwareBreakpoint addr)
  | .resume how => do
    let _ ← question how.request
    whyStopped
  | .openFile name flags mode _ => question (.llopen name (.ofNat flags) (.ofNat mode))
  | .closeFile fd => question (.llclose (.ofNat fd))
  | .readFile fd count offset => do
    if 0x8000000000000000 ≤ count then brokenOff
    else
      let allocated : Bool ← question (.allocate count)
      if allocated then
        let outcome : Option Bytes ← question (.llread (.ofNat fd) offset count)
        handOver (outcome.bind counted)
      else brokenOff

/-! ## Results in replies -/

def renderData : Option Bytes → Bytes
  | none => str "E01"
  | some [] => str "OK"
  | some data => encode data

def renderResult (res : Int32) : Bytes :=
  if 0 ≤ res then str "F" ++ encodeInt 4 res.toBitVec
  else str "F" ++ (str "-" ++ encodeInt 4 (-res).toBitVec)

def Stop.render : Stop → Bytes
  | .signal code => str "S" ++ formatHex2 code
  | .breakpoint => str "T05swbreak:;"
  | .exited => str "W00"

/-- The text that the handler replies. -/
def Command.render : (command : Command) → command.Result → Bytes
  | .isAttached, attached => if attached then str "1" else str "0"
  | .stopAcknowledging, _ | .selectThread _, _ | .selectAny, _ | .breakpoint .., _ => str "OK"
  | .stopReason, stop | .resume _, stop => stop.render
  | .currentThread, thread => str "QC" ++ encodeInt 8 thread.toBitVec
  | .nextThread _, some thread => str "m" ++ encodeInt 8 thread.toBitVec
  | .nextThread _, none => str "l"
  | .readRegisters, data | .readRegister _, data | .readMemory .., data => renderData data
  | .openFile .., res | .closeFile _, res => renderResult res
  | .readFile .., data => str "F" ++ encodeInt 4 (Int32.ofNat data.1.length).toBitVec ++ str ";" ++
      escape data.1

/-- The bytes of pairs of digits. -/
def parsePairs : Bytes → Option Bytes
  | [] => some []
  | [_] => none
  | high :: low :: rest =>
    (parsePairs rest).map (UInt8.ofNat (16 * hexDigitValue high + hexDigitValue low) :: ·)

def parseData (text : Bytes) : Option (Option Bytes) :=
  if text = str "E01" then some none
  else if text = str "OK" then some (some [])
  else (parsePairs text).map some

/-- A numeral behind a sign or not. -/
def parseSigned (text : Bytes) : Int32 :=
  if text.head? = some 0x2d then -Int32.ofNat (hexValue text.tail) else Int32.ofNat (hexValue text)

def parseResult (text : Bytes) : Option Int32 :=
  if text.head? = some 0x46 then some (parseSigned text.tail) else none

def parseStop (text : Bytes) : Option Stop :=
  if text.head? = some 0x53 then some (.signal (parseSigned text.tail))
  else if text = str "T05swbreak:;" then some .breakpoint
  else if text = str "W00" then some .exited
  else none

def fileData (data : Bytes) : Option FileData :=
  if fits : data.length < 2 ^ 31 then some ⟨data, fits⟩ else none

/-- The data behind the semicolon, if it is as long as the number in front of that says. -/
def parseFileData (text : Bytes) : Option FileData := do
  let numeral := (text.drop 1).takeWhile (· ≠ 0x3b)
  let data ← unescape (text.drop (numeral.length + 2))
  if data.length = hexValue numeral then fileData data else none

/-- What the client reads from the text of a reply. -/
def Command.parse : (command : Command) → Bytes → Option command.Result
  | .isAttached, text =>
    if text = str "1" then some true else if text = str "0" then some false else none
  | .stopAcknowledging, text | .selectThread _, text | .selectAny, text | .breakpoint .., text =>
    if text = str "OK" then some () else none
  | .stopReason, text | .resume _, text => parseStop text
  | .currentThread, text =>
    if (str "QC").isPrefixOf text then some (UInt64.ofNat (hexValue (text.drop 2))) else none
  | .nextThread _, text =>
    if text = str "l" then some none
    else if (str "m").isPrefixOf text then some (some (UInt64.ofNat (hexValue (text.drop 1))))
    else none
  | .readRegisters, text | .readRegister _, text | .readMemory .., text => parseData text
  | .openFile .., text | .closeFile _, text => parseResult text
  | .readFile .., text => parseFileData text

/-! ## The client gets the results -/

private theorem parsePairs_encode (data : Bytes) : parsePairs (encode data) = some data := by
  induction data with
  | nil => rfl
  | cons v rest ih =>
    have bound := v.toNat_lt
    have pair : encode (v :: rest) =
        hexCharacter (v.toNat / 16) :: hexCharacter (v.toNat % 16) :: encode rest := by
      rw [encode, List.flatMap_cons, hexPair_eq]
      rfl
    rw [pair, parsePairs, ih, hexDigitValue_hexCharacter (by omega),
      hexDigitValue_hexCharacter (by omega), Nat.div_add_mod, UInt8.ofNat_toNat]
    rfl

private theorem parseData_renderData (data : Option Bytes) : parseData (renderData data) = some data := by
  match data with
  | none => rfl
  | some [] => rfl
  | some (v :: rest) =>
    have notError : encode (v :: rest) ≠ str "E01" := by
      intro same
      have widths := congrArg List.length same
      rw [encode_length] at widths
      change 2 * (rest.length + 1) = 3 at widths
      omega
    have notOk : encode (v :: rest) ≠ str "OK" := by
      intro same
      have member : (0x4f : UInt8) ∈ encode (v :: rest) := by
        rw [same]
        decide
      exact absurd (mem_encode member) (by decide)
    rw [renderData, parseData, if_neg notError, if_neg notOk, parsePairs_encode]
    · rfl
    · exact List.cons_ne_nil _ _

private theorem ofNat_hexValue (num : Int32) : Int32.ofNat (hexValue (encodeInt 4 num.toBitVec)) = num := by
  apply Int32.toBitVec.inj
  rw [encodeInt_eq, hexValue_hexNumeral, Int32.toBitVec_ofNat', BitVec.ofNat_toNat, BitVec.setWidth_eq]

private theorem parseSigned_minus (n : ℕ) :
    parseSigned (str "-" ++ hexNumeral n) = -Int32.ofNat n := by
  have sign : str "-" = [0x2d] := by decide
  rw [sign, List.singleton_append, parseSigned, List.head?_cons, if_pos rfl, List.tail_cons,
    hexValue_hexNumeral]

private theorem parseSigned_digits {digits : Bytes} (lower : ∀ c ∈ digits, lowerHex c = true) :
    parseSigned digits = Int32.ofNat (hexValue digits) := by
  rw [parseSigned, if_neg]
  intro sign
  exact absurd (lower _ (List.mem_of_head? sign)) (by decide)

private theorem parseResult_renderResult (res : Int32) : parseResult (renderResult res) = some res := by
  have letter : str "F" = [0x46] := by decide
  rw [renderResult, letter]
  split
  · have lower : ∀ c ∈ encodeInt 4 res.toBitVec, lowerHex c = true := fun c mem => mem_trim_encode mem
    have value : Int32.ofNat (hexValue (encodeInt 4 res.toBitVec)) = res := ofNat_hexValue res
    rw [List.singleton_append, parseResult, List.head?_cons, if_pos rfl, List.tail_cons,
      parseSigned_digits lower, value]
  · have value : Int32.ofNat (hexValue (encodeInt 4 (-res).toBitVec)) = -res := ofNat_hexValue (-res)
    rw [encodeInt_eq, hexValue_hexNumeral] at value
    rw [List.singleton_append, parseResult, List.head?_cons, if_pos rfl, List.tail_cons, encodeInt_eq,
      parseSigned_minus, value, Int32.neg_neg]

/-- Zeros in front of a numeral do not change its value. -/
theorem hexValue_replicate_zero (count : ℕ) (digits : Bytes) :
    hexValue (List.replicate count 0x30 ++ digits) = hexValue digits := by
  have zero : hexDigitValue 0x30 = 0 := rfl
  rw [hexValue, List.map_append, List.map_replicate, zero, List.reverse_append,
    List.reverse_replicate, Nat.ofDigits_append, Nat.ofDigits_replicate_zero, Nat.mul_zero, Nat.add_zero,
    hexValue]

private theorem parseSigned_formatHex2 (code : Int32) : parseSigned (formatHex2 code) = code := by
  have low := code.le_toInt
  have high := code.toInt_lt
  have numeral : trim (encode (leBytes 4 code.toInt.natAbs).reverse) =
      hexNumeral code.toInt.natAbs := by
    have encoded := encodeInt_eq 4 (BitVec.ofNat 32 code.toInt.natAbs)
    rwa [encodeInt, BitVec.toNat_ofNat, Nat.mod_eq_of_lt (by omega)] at encoded
  rw [formatHex2, numeral]
  split
  · rename_i negative
    have sign : code.toInt = -(code.toInt.natAbs : ℤ) := by
      have below : code.toInt < (0 : Int32).toInt := Int32.lt_iff_toInt_lt.mp negative
      change code.toInt < 0 at below
      omega
    rw [parseSigned_minus, ← Int32.ofInt_eq_ofNat, ← Int32.ofInt_neg, ← sign, Int32.ofInt_toInt]
  · rename_i positive
    have value : code.toInt = (code.toInt.natAbs : ℤ) := by
      have above : ¬code.toInt < (0 : Int32).toInt := fun below =>
        positive (Int32.lt_iff_toInt_lt.mpr below)
      change ¬code.toInt < 0 at above
      omega
    rw [parseSigned_digits, hexValue_replicate_zero, hexValue_hexNumeral, ← Int32.ofInt_eq_ofNat,
      ← value, Int32.ofInt_toInt]
    intro c mem
    rcases List.mem_append.mp mem with zero | digit
    · rw [List.eq_of_mem_replicate zero]
      decide
    · exact mem_hexNumeral digit

private theorem parseStop_render (stop : Stop) : parseStop stop.render = some stop := by
  cases stop with
  | signal code =>
    have letter : str "S" = [0x53] := by decide
    rw [Stop.render, letter, List.singleton_append, parseStop, List.head?_cons, if_pos rfl,
      List.tail_cons, parseSigned_formatHex2]
  | breakpoint => rfl
  | exited => rfl

private theorem parseFileData_render (data : FileData) :
    parseFileData (str "F" ++ encodeInt 4 (Int32.ofNat data.1.length).toBitVec ++ str ";" ++
      escape data.1) = some data := by
  have letter : str "F" = [0x46] := by decide
  have semicolon : str ";" = [0x3b] := by decide
  have value : (Int32.ofNat data.1.length).toBitVec.toNat = data.1.length := by
    rw [Int32.toBitVec_ofNat', BitVec.toNat_ofNat]
    exact Nat.mod_eq_of_lt (Nat.lt_trans data.2 (by norm_num))
  have digits : ∀ c ∈ hexNumeral data.1.length, decide (c ≠ 0x3b) = true := by
    intro c mem
    apply decide_eq_true
    rintro rfl
    exact absurd (mem_hexNumeral mem) (by decide)
  have front : (hexNumeral data.1.length ++ 0x3b :: escape data.1).takeWhile (· ≠ 0x3b) =
      hexNumeral data.1.length := by
    rw [List.takeWhile_append_of_pos digits]
    simp
  have rest : ([0x46] ++ hexNumeral data.1.length ++ [0x3b] ++ escape data.1).drop
      ((hexNumeral data.1.length).length + 2) = escape data.1 := by
    have width : (hexNumeral data.1.length).length + 2 =
        ([0x46] ++ hexNumeral data.1.length ++ [0x3b]).length := by simp
    rw [width, List.drop_left]
  have behind : ([0x46] ++ hexNumeral data.1.length ++ [0x3b] ++ escape data.1).drop 1 =
      hexNumeral data.1.length ++ 0x3b :: escape data.1 := by simp
  rw [encodeInt_eq, value, letter, semicolon, parseFileData, behind, front, rest, unescape_escape]
  change (if data.1.length = hexValue (hexNumeral data.1.length) then fileData data.1 else none) = _
  rw [hexValue_hexNumeral, if_pos rfl]
  exact dif_pos data.2

private theorem ofNat_hexValue_thread (thread : UInt64) :
    UInt64.ofNat (hexValue (encodeInt 8 thread.toBitVec)) = thread := by
  rw [encodeInt_eq, hexValue_hexNumeral]
  exact UInt64.ofNat_toNat

/-- The client reads the result from the text that the handler replies. -/
theorem Command.parse_render (command : Command) (result : command.Result) :
    command.parse (command.render result) = some result := by
  cases command with
  | isAttached => cases result <;> rfl
  | stopAcknowledging | selectThread | selectAny => rfl
  | breakpoint inserts => cases inserts <;> rfl
  | stopReason | resume => exact parseStop_render result
  | currentThread =>
    have front : (str "QC").isPrefixOf (str "QC" ++ encodeInt 8 result.toBitVec) = true := by
      rw [List.isPrefixOf_iff_prefix]
      exact List.prefix_append _ _
    change (if (str "QC").isPrefixOf (str "QC" ++ encodeInt 8 result.toBitVec) = true then _
      else none) = some result
    rw [if_pos front]
    exact congrArg some (ofNat_hexValue_thread result)
  | nextThread restart =>
    cases result with
    | none => rfl
    | some thread =>
      have front : (str "m").isPrefixOf (str "m" ++ encodeInt 8 thread.toBitVec) = true := by
        rw [List.isPrefixOf_iff_prefix]
        exact List.prefix_append _ _
      have letter : str "m" = [0x6d] := by decide
      have more : str "m" ++ encodeInt 8 thread.toBitVec ≠ str "l" := by
        rw [letter]
        simp [str]
      change (if str "m" ++ encodeInt 8 thread.toBitVec = str "l" then some none
        else if (str "m").isPrefixOf (str "m" ++ encodeInt 8 thread.toBitVec) = true then _
        else none) = some (some thread)
      rw [if_neg more, if_pos front]
      exact congrArg (fun value => some (some value)) (ofNat_hexValue_thread thread)
  | readRegisters | readRegister | readMemory => exact parseData_renderData result
  | openFile | closeFile => exact parseResult_renderResult result
  | readFile => exact parseFileData_render result

/-- No text of a result holds a mark of the frame. -/
theorem Command.clean_render (command : Command) (result : command.Result) :
    Clean (command.render result) := by
  have data (data : Option Bytes) : Clean (renderData data) := by
    match data with
    | none => exact show Clean (str "E01") by decide
    | some [] => exact show Clean (str "OK") by decide
    | some (first :: rest) => exact clean_encode (first :: rest)
  have res (res : Int32) : Clean (renderResult res) := by
    rw [renderResult]
    split
    · exact .append (by decide) (clean_encodeInt _ _)
    · exact .append (by decide) (.append (by decide) (clean_encodeInt _ _))
  have stop (stop : Stop) : Clean stop.render := by
    cases stop with
    | signal code => exact .append (by decide) (clean_formatHex2 code)
    | breakpoint | exited => decide
  have ok : Clean (str "OK") := by decide
  cases command with
  | isAttached => cases result <;> exact show Clean (str _) by decide
  | stopAcknowledging | selectThread | selectAny => exact ok
  | breakpoint inserts => cases inserts <;> exact ok
  | stopReason | resume => exact stop result
  | currentThread => exact .append (by decide) (clean_encodeInt _ _)
  | nextThread =>
    cases result with
    | none => exact show Clean (str "l") by decide
    | some thread => exact .append (by decide) (clean_encodeInt _ _)
  | readRegisters | readRegister | readMemory => exact data result
  | openFile | closeFile => exact res result
  | readFile =>
    exact .append (.append (.append (by decide) (clean_encodeInt _ _)) (by decide)) (clean_escape _)

end DpcppTrace.Soundness
