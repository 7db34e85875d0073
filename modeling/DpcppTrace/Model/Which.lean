import DpcppTrace.Foundation.FileSystem

/-! # Looking an executable up

`which` goes through the `PATH` by positions. Positions are of type `size_t`; a separator that is not
found is at the largest of them, and the position behind that wraps to zero.
-/

namespace DpcppTrace.Model

open Foundation

/-- `std::string::npos`. -/
def npos : UInt64 := 0xffffffffffffffff

/-- `path.find(":", start)`. -/
def findSeparator (path : Bytes) (start : UInt64) : UInt64 :=
  match (path.drop start.toNat).findIdx? (· = 0x3a) with
  | some distance => start + UInt64.ofNat distance
  | none => npos

/-- `std::filesystem::path{component} / executable`. -/
def candidate (component executable : Bytes) : Bytes :=
  if executable.head? = some slash ∨ component = [] then executable
  else if component.getLast? = some slash then component ++ executable
  else component ++ slash :: executable

/-- What leaves the function other than a result. -/
inductive WhichError where
  | notFound (message : Bytes)
  /-- `substr` from behind the end. -/
  | outOfRange
deriving DecidableEq

/-- The variables of the loop, and the candidates it has looked at. -/
structure Which where
  lastSeparator : UInt64 := 0
  done : Bool := false
  tried : List Bytes := []

/-- How the function ends, and the candidates it looked at. -/
structure WhichResult where
  outcome : Except WhichError Bytes
  tried : List Bytes

/-- The body of the loop: the end of the function, or the variables that the condition sees. -/
def Which.body (existing : Bytes → Bool) (path executable : Bytes) (s : Which) :
    WhichResult ⊕ Which :=
  let nextSeparator := findSeparator path s.lastSeparator
  let done := s.done || nextSeparator = npos
  let length :=
    if nextSeparator = npos then UInt64.ofNat path.length - s.lastSeparator
    else nextSeparator - s.lastSeparator
  if path.length < s.lastSeparator.toNat then .inl ⟨.error .outOfRange, s.tried⟩
  else
    let cand := candidate ((path.drop s.lastSeparator.toNat).take length.toNat) executable
    if existing cand then .inl ⟨.ok cand, s.tried ++ [cand]⟩
    else .inr ⟨nextSeparator + 1, done, s.tried ++ [cand]⟩

/-- The loop, for so many passes at most. -/
def Which.run (existing : Bytes → Bool) (path executable : Bytes) : ℕ → Which → Option WhichResult
  | 0, _ => none
  | passes + 1, s =>
    match s.body existing path executable with
    | .inl result => some result
    | .inr next =>
      if next.done then
        some ⟨.error (.notFound (str "Executable not found " ++ executable)), next.tried⟩
      else next.run existing path executable passes

/-- `which`, with this text in the variable `PATH`. -/
def which (existing : Bytes → Bool) (path executable : Bytes) (passes : ℕ) : Option WhichResult :=
  Which.run existing path executable passes {}

end DpcppTrace.Model
