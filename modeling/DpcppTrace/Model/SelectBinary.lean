import DpcppTrace.Foundation.Machine
import DpcppTrace.Model.CollectArgs

/-! # Recording `piextDeviceSelectBinary` on several threads

The handler dumps the device images on the first call of the program and records every call. The
first call is found by double-checked locking on an atomic flag and a mutex that all threads share.
Each thread runs its calls one after another; a step of the machine is one step of one thread, and
a thread that waits for the mutex is not enabled.
-/

namespace DpcppTrace.Model

open Foundation

/-- `binary->Format`. -/
inductive ImageFormat where
  | PI_DEVICE_BINARY_TYPE_SPIRV
  | PI_DEVICE_BINARY_TYPE_NATIVE
  | PI_DEVICE_BINARY_TYPE_LLVMIR_BITCODE
  | PI_DEVICE_BINARY_TYPE_NONE
  | other (value : UInt8)
deriving DecidableEq, Repr

def ImageFormat.extension : ImageFormat → Bytes
  | .PI_DEVICE_BINARY_TYPE_SPIRV => str ".spv"
  | .PI_DEVICE_BINARY_TYPE_NATIVE => str ".bin"
  | .PI_DEVICE_BINARY_TYPE_LLVMIR_BITCODE => str ".bc"
  | .PI_DEVICE_BINARY_TYPE_NONE => str ".none"
  | .other _ => []

/-- One element of `binaries`: its format, target, bytes and serialised descriptor. -/
structure DeviceImage where
  Format : ImageFormat
  DeviceTargetSpec : Bytes
  binary : Bytes
  descriptor : Bytes
deriving DecidableEq

/-- The two files of image `i`, by name and content. -/
def imageFiles (i : ℕ) (image : DeviceImage) : List (Bytes × Bytes) :=
  [(decimal i ++ str "_" ++ image.DeviceTargetSpec ++ image.Format.extension, image.binary),
    (decimal i ++ str ".desc", leBytes 8 image.descriptor.length ++ image.descriptor)]

/-- The files of the images from index `i` on. -/
def dumpFrom (i : ℕ) (images : List DeviceImage) : List (Bytes × Bytes) :=
  (images.zipIdx i).flatMap fun (image, index) => imageFiles index image

/-- A call as the handler receives it: the function id and times, the plugin's result, the
arguments, the images `binaries` points to and the eight bytes at `selectedBinary`. -/
structure SelectBinary where
  funcId : UInt32
  timeBegin : UInt64
  timeEnd : UInt64
  res : Int32
  device : UInt64
  binaries : UInt64
  numBinaries : UInt32
  selectedBinary : UInt64
  images : List DeviceImage
  counted : images.length = numBinaries.toNat
  selected : Bytes
  wide : selected.length = 8

/-- The record the handler serialises; `sizeof(selectedBinary)` is the size of the pointer. -/
def SelectBinary.record (call : SelectBinary) : APICall :=
  { callRecord call.funcId call.timeBegin call.timeEnd call.res
      [.pointer call.device, .pointer call.binaries, .uint32 call.numBinaries,
        .pointer call.selectedBinary] with
    small_outputs := [call.selected] }

namespace SelectBinary

/-- Where a thread stands in its current call. -/
inductive Point where
  | unlockedTest
  | lock
  | lockedTest
  | setFlag
  | dump (i : ℕ)
  | unlock (returns : Bool)
  | write
deriving DecidableEq

/-- The shared flag, mutex and files, and each thread's remaining calls, position and trace.
`dumps` counts the completed dumps. -/
structure State (Thread : Type) where
  GBinariesCollected : Bool
  GBinariesMutex : Option Thread
  files : List (Bytes × Bytes)
  dumps : ℕ
  pending : Thread → List SelectBinary
  point : Thread → Point
  trace : Thread → List APICall

section

variable {Thread : Type} [DecidableEq Thread]

def initial (calls : Thread → List SelectBinary) : State Thread :=
  { GBinariesCollected := false
    GBinariesMutex := none
    files := []
    dumps := 0
    pending := calls
    point := fun _ => .unlockedTest
    trace := fun _ => [] }

/-- Move a thread within its call. -/
def State.goto (s : State Thread) (thread : Thread) (point : Point) : State Thread :=
  { s with point := Function.update s.point thread point }

/-- End a thread's current call. -/
def State.leave (s : State Thread) (thread : Thread) (rest : List SelectBinary) : State Thread :=
  { s with
    pending := Function.update s.pending thread rest
    point := Function.update s.point thread .unlockedTest }

/-- One step of `handleSelectBinary` on `thread`. -/
def step (s : State Thread) (thread : Thread) : Option (State Thread) :=
  match s.pending thread with
  | [] => none
  | call :: rest =>
    match s.point thread with
    | .unlockedTest => some (s.goto thread (if s.GBinariesCollected then .write else .lock))
    | .lock =>
      if s.GBinariesMutex = none then
        some ({ s with GBinariesMutex := some thread }.goto thread .lockedTest)
      else none
    | .lockedTest =>
      -- The early return leaves the handler, so the call is not recorded.
      some (s.goto thread (if s.GBinariesCollected then .unlock true else .setFlag))
    | .setFlag => some ({ s with GBinariesCollected := true }.goto thread (.dump 0))
    | .dump i =>
      match call.images[i]? with
      | some image => some ({ s with files := s.files ++ imageFiles i image }.goto thread (.dump (i + 1)))
      | none => some ({ s with dumps := s.dumps + 1 }.goto thread (.unlock false))
    | .unlock true => some ({ s with GBinariesMutex := none }.leave thread rest)
    | .unlock false => some ({ s with GBinariesMutex := none }.goto thread .write)
    | .write =>
      some ({ s with
        trace := Function.update s.trace thread (s.trace thread ++ [call.record]) }.leave thread rest)

/-- All threads together: the label is the thread that moves. -/
def machine (Thread : Type) [DecidableEq Thread] : Machine (State Thread) Thread := ⟨step⟩

/-- Every thread has returned from all its calls. -/
def State.finished (s : State Thread) : Prop := ∀ thread, s.pending thread = []

/-- The step is a second test that finds the images already collected. -/
def overtaken (s : State Thread) (thread : Thread) : Prop :=
  s.pending thread ≠ [] ∧ s.point thread = .lockedTest ∧ s.GBinariesCollected = true

instance (s : State Thread) (thread : Thread) : Decidable (overtaken s thread) :=
  inferInstanceAs (Decidable (_ ∧ _ ∧ _))

end

end SelectBinary

end DpcppTrace.Model
