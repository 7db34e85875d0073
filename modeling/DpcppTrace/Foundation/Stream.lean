import DpcppTrace.Foundation.Bytes

/-! # Input streams with sticky state bits

`std::istream::read` behaves differently on a good stream, on a short one and on one that has
already failed. A stream holds the characters it can still deliver, what happens after them (end
of file or a device error) and the three state bits. A read on a good stream delivers what is
left, up to the requested count; only a short read raises `eofbit`, and a stream that is not good
delivers nothing.
-/

namespace DpcppTrace.Foundation

/-- An input stream over a finite source; `broken` says that the source ends in a device error. -/
structure IStream where
  rest : Bytes
  broken : Bool := false
  eofbit : Bool := false
  failbit : Bool := false
  badbit : Bool := false
deriving DecidableEq, Repr

namespace IStream

/-- `std::ifstream{path}`: a file that cannot be opened leaves `failbit` and nothing to read. -/
def opened : Option Bytes → IStream
  | some data => { rest := data }
  | none => { rest := [], failbit := true }

def good (is : IStream) : Bool := !is.eofbit && !is.failbit && !is.badbit

def eof (is : IStream) : Bool := is.eofbit

/-- `is.read(buffer, count)`: the characters stored at the front of the buffer, and the stream. -/
def read (is : IStream) (count : ℕ) : Bytes × IStream :=
  if is.good then
    let short := decide (is.rest.length < count)
    (is.rest.take count,
      { is with
        rest := is.rest.drop count
        eofbit := short && !is.broken
        failbit := short && !is.broken
        badbit := short && is.broken })
  else ([], { is with failbit := true })

/-- The buffer after a read: characters that were not delivered keep their old values. -/
def overlay (buffer delivered : Bytes) : Bytes := delivered ++ buffer.drop delivered.length

/-- A read that the source can satisfy delivers exactly the requested count and raises no bit. -/
theorem read_enough (data tail : Bytes) (broken : Bool) :
    read { rest := data ++ tail, broken } data.length = (data, { rest := tail, broken }) := by
  simp [read, good]

/-- A read past the end of a regular file delivers the rest and raises `eofbit`. -/
theorem read_short {data : Bytes} {count : ℕ} (short : data.length < count) :
    read { rest := data } count = (data, { rest := [], eofbit := true, failbit := true }) := by
  have nothing : data.drop count = [] := List.drop_eq_nil_of_le short.le
  have all : data.take count = data := List.take_of_length_le short.le
  simp [read, good, short, nothing, all]

/-- A stream that is not good delivers nothing and keeps every bit it has. -/
theorem read_failed {is : IStream} (failed : is.good = false) (count : ℕ) :
    is.read count = ([], { is with failbit := true }) := by
  simp [read, failed]

/-- A failed read leaves the buffer as it was. -/
theorem overlay_nil (buffer : Bytes) : overlay buffer [] = buffer := rfl

/-- A read that fills the buffer leaves nothing of its old content. -/
theorem overlay_full {buffer delivered : Bytes} (fills : buffer.length ≤ delivered.length) :
    overlay buffer delivered = delivered := by
  rw [overlay, List.drop_eq_nil_of_le fills, List.append_nil]

/-- So an integer that was read in full is the stored one, whatever the variable held. -/
theorem ofLe_overlay (width junk : ℕ) {value : ℕ} (fits : value < 256 ^ width) :
    ofLe (overlay (leBytes width junk) (leBytes width value)) = value := by
  rw [overlay_full (by simp), ofLe_leBytes_of_lt fits]

/-- A full read overwrites the whole front of the buffer. -/
theorem overlay_replicate (data : Bytes) (extra : ℕ) (byte : UInt8) :
    overlay (List.replicate (data.length + extra) byte) data =
      data ++ List.replicate extra byte := by
  simp [overlay]

end IStream

end DpcppTrace.Foundation
