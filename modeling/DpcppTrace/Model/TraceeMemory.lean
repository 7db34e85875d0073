import DpcppTrace.Foundation.MappedMemory
import DpcppTrace.Model.Tracer

/-! # File names in the tracee

The tracer reads and writes the memory of the tracee a word at a time. The result of reading a word is
not checked: where a byte is not mapped it is minus one, a word of bytes that end no string. A
replaced file name is written below the stack pointer and its red zone, in whole words.
-/

namespace DpcppTrace.Model.NativeTracer

open Foundation

/-- `sizeof(long)`. -/
def longSize : ℕ := 8

def PATH_MAX : UInt64 := 4096

/-- The places of registers among the words of the user area. -/
def RSI : ℕ := 13
def RDI : ℕ := 14
def RSP : ℕ := 19

/-- What the tracer reaches of a stopped tracee: its memory, and its user area by offsets. -/
structure Tracee where
  memory : MappedMemory
  user : ℕ → UInt64

/-- `PTRACE_PEEKDATA`: the bytes of the word, those of minus one if one of them is not mapped. -/
def peekData (memory : MappedMemory) (address : UInt64) : Bytes :=
  (memory.load address longSize).getD (List.replicate longSize 0xff)

/-- `PTRACE_POKETEXT`, which fails if a byte of the word is not mapped. -/
def pokeText (memory : MappedMemory) (address : UInt64) (word : Bytes) : Option MappedMemory :=
  if (memory.load address longSize).isSome then some (memory.store address word) else none

/-- `PTRACE_POKEUSER`. -/
def pokeUser (user : ℕ → UInt64) (offset : ℕ) (value : UInt64) : ℕ → UInt64 :=
  fun other => if other = offset then value else user other

/-! ## Reading -/

/-- The loop over the bytes of a word: those that are copied, and whether it met the end. -/
def copyWord : Bytes → Bytes × Bool
  | [] => ([], false)
  | byte :: rest =>
    if byte = 0 then ([], true)
    else
      let (copied, isComplete) := copyWord rest
      (byte :: copied, isComplete)

structure ReadString where
  isComplete : Bool := false
  readBytes : UInt64 := 0
  result : Bytes := []

def ReadString.next (memory : MappedMemory) (addr : UInt64) (s : ReadString) : ReadString :=
  let (copied, isComplete) := copyWord (peekData memory (addr + s.readBytes))
  ⟨isComplete, s.readBytes + UInt64.ofNat longSize, s.result ++ copied⟩

/-- The loop of `readString`, for so many words at most. -/
def ReadString.run (memory : MappedMemory) (addr : UInt64) : ℕ → ReadString → Option Bytes
  | 0, s => if s.isComplete then some s.result else none
  | words + 1, s =>
    if s.isComplete then some s.result else (s.next memory addr).run memory addr words

def readString (memory : MappedMemory) (addr : UInt64) (words : ℕ) : Option Bytes :=
  ReadString.run memory addr words {}

/-! ## Writing -/

/-- The loop that fills a buffer from its `i`-th byte on, and whether it met the end of the text.
What stands behind the terminator is what was in the buffer. -/
def fillBuffer (text : Bytes) (offset : ℕ) (stale : ℕ → UInt8) (i : ℕ) : ℕ → Bytes × Bool
  | 0 => ([], false)
  | left + 1 =>
    if i + offset = text.length then (0 :: (List.range' (i + 1) left).map stale, true)
    else
      let (rest, atEnd) := fillBuffer text offset stale (i + 1) left
      (text.getD (offset + i) 0 :: rest, atEnd)

structure WriteString where
  stackAddr : UInt64
  offset : ℕ := 0
  atEnd : Bool := false
  memory : MappedMemory

/-- `failed to poke data`. -/
inductive PokeError where
  | failed

/-- The body of the loop. -/
def WriteString.next (text : Bytes) (stale : ℕ → UInt8) (s : WriteString) :
    Except PokeError WriteString :=
  let (buf, atEnd) := fillBuffer text s.offset stale 0 longSize
  match pokeText s.memory s.stackAddr buf with
  | none => .error .failed
  | some memory => .ok ⟨s.stackAddr + UInt64.ofNat longSize, s.offset + longSize, atEnd, memory⟩

/-- The loop of `writeString`, for so many words at most. -/
def WriteString.run (text : Bytes) (stale : ℕ → UInt8) :
    ℕ → WriteString → Option (Except PokeError MappedMemory)
  | 0, s => if s.atEnd then some (.ok s.memory) else none
  | words + 1, s =>
    if s.atEnd then some (.ok s.memory)
    else
      match s.next text stale with
      | .error error => some (.error error)
      | .ok next => next.run text stale words

/-- `writeString` for the register at this offset of the user area. -/
def writeString (tracee : Tracee) (reg : ℕ) (text : Bytes) (stale : ℕ → UInt8) (words : ℕ) :
    Option (Except PokeError Tracee) :=
  let stackAddr := tracee.user (longSize * RSP) - (128 + PATH_MAX)
  (WriteString.run text stale words { stackAddr, memory := tracee.memory }).map fun result =>
    result.map fun memory => ⟨memory, pokeUser tracee.user reg stackAddr⟩

end DpcppTrace.Model.NativeTracer
