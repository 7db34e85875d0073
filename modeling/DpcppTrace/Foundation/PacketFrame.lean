import DpcppTrace.Foundation.Bytes
import Mathlib.Data.List.Chain

/-! # Frames of the remote serial protocol

A frame is `$`, a payload, `#` and two digits of the payload's sum, behind an acknowledgement or
not. A payload is clean when the marks of the frame and the run-length mark do not occur in it and
every escape mark introduces a byte. The reader looks for the first `#`; it recovers every clean
payload.
-/

namespace DpcppTrace.Foundation

/-- The marks that no payload may hold: `#`, `$` and `*`. -/
def forbidden (c : UInt8) : Bool := c = 0x23 ∨ c = 0x24 ∨ c = 0x2a

/-- Read from the left, every `}` is followed by the byte it introduces. -/
def escapesComplete : Bytes → Bool
  | [] => true
  | [c] => c ≠ 0x7d
  | c :: next :: rest => if c = 0x7d then escapesComplete rest else escapesComplete (next :: rest)

/-- What a payload must be for the reader of a frame to recover it. -/
structure Clean (payload : Bytes) : Prop where
  unmarked : ∀ c ∈ payload, forbidden c = false
  complete : escapesComplete payload = true

instance (payload : Bytes) : Decidable (Clean payload) :=
  decidable_of_iff
    (payload.all (fun c => !forbidden c) = true ∧ escapesComplete payload = true)
    ⟨fun both => ⟨by simpa using both.1, both.2⟩, fun clean => ⟨by simpa using clean.1, clean.2⟩⟩

/-- The lower-case digit of a number below sixteen. -/
def hexCharacter (n : ℕ) : UInt8 := UInt8.ofNat (if n < 10 then 0x30 + n else 0x57 + n)

/-- The shortest lower-case numeral of a number. -/
def hexNumeral (n : ℕ) : Bytes :=
  if n = 0 then [0x30] else ((Nat.digits 16 n).map hexCharacter).reverse

/-- The value of a digit of either case. -/
def hexDigitValue (c : UInt8) : ℕ :=
  if 0x61 ≤ c then c.toNat - 0x57 else if 0x41 ≤ c then c.toNat - 0x37 else c.toNat - 0x30

/-- The value of a numeral of digits of either case. -/
def hexValue (numeral : Bytes) : ℕ := Nat.ofDigits 16 (numeral.map hexDigitValue).reverse

/-- The two digits of a payload's sum modulo 256. -/
def sumDigits (payload : Bytes) : Bytes :=
  let sum := (payload.map UInt8.toNat).sum % 256
  [hexCharacter (sum / 16), hexCharacter (sum % 16)]

/-- A reply is one frame around a clean payload. -/
structure Frame (ack : Bool) (payload reply : Bytes) : Prop where
  text : reply = (if ack then [0x2b] else []) ++ 0x24 :: (payload ++ 0x23 :: sumDigits payload)
  clean : Clean payload

/-- What a client reads: the payload of one frame whose sum is right. -/
def receive (reply : Bytes) : Option Bytes :=
  let frame := if reply.head? = some 0x2b then reply.tail else reply
  match frame with
  | [] => none
  | start :: rest =>
    let payload := rest.takeWhile (· ≠ 0x23)
    if start = 0x24 ∧ rest.drop payload.length = 0x23 :: sumDigits payload then some payload else none

/-- The data of an escaped payload; none when it ends inside an escape. -/
def unescape : Bytes → Option Bytes
  | [] => some []
  | [c] => if c = 0x7d then none else some [c]
  | c :: next :: rest =>
    if c = 0x7d then (unescape rest).map ((next ^^^ 0x20) :: ·)
    else (unescape (next :: rest)).map (c :: ·)

theorem unescape_cons {c : UInt8} (plain : c ≠ 0x7d) (rest : Bytes) :
    unescape (c :: rest) = (unescape rest).map (c :: ·) := by
  cases rest with
  | nil => simp [unescape, plain]
  | cons next rest => rw [unescape, if_neg plain]

theorem unescape_pair (introduced : UInt8) (rest : Bytes) :
    unescape (0x7d :: introduced :: rest) = (unescape rest).map ((introduced ^^^ 0x20) :: ·) := by
  rw [unescape, if_pos rfl]

theorem hexDigitValue_hexCharacter {d : ℕ} (small : d < 16) :
    hexDigitValue (hexCharacter d) = d := by
  have all : ∀ d < 16, hexDigitValue (hexCharacter d) = d := by decide
  exact all d small

/-- A numeral has the value it was made for. -/
theorem hexValue_hexNumeral (n : ℕ) : hexValue (hexNumeral n) = n := by
  rw [hexNumeral]
  split
  · rename_i zero
    subst zero
    rfl
  · rw [hexValue, ← List.map_reverse, List.reverse_reverse, List.map_map]
    have digits : (Nat.digits 16 n).map (hexDigitValue ∘ hexCharacter) = Nat.digits 16 n := by
      rw [List.map_congr_left (g := id)]
      · exact List.map_id _
      · exact fun d mem => hexDigitValue_hexCharacter (Nat.digits_lt_base (by norm_num) mem)
    rw [digits, Nat.ofDigits_digits]

theorem hexNumeral_injective : Function.Injective hexNumeral := by
  intro first second same
  rw [← hexValue_hexNumeral first, same, hexValue_hexNumeral]

private theorem escapesComplete_cons {c : UInt8} (plain : c ≠ 0x7d) (rest : Bytes) :
    escapesComplete (c :: rest) = escapesComplete rest := by
  cases rest with
  | nil => simp [escapesComplete, plain]
  | cons next rest => simp [escapesComplete, plain]

theorem escapesComplete_pair (introduced : UInt8) (rest : Bytes) :
    escapesComplete (0x7d :: introduced :: rest) = escapesComplete rest := by
  simp [escapesComplete]

private theorem escapesComplete_append {front : Bytes} (complete : escapesComplete front = true)
    (rest : Bytes) : escapesComplete (front ++ rest) = escapesComplete rest := by
  induction front using escapesComplete.induct with
  | case1 => rfl
  | case2 c =>
    apply escapesComplete_cons
    simpa [escapesComplete] using complete
  | case3 introduced front ih =>
    rw [escapesComplete_pair] at complete
    rw [List.cons_append, List.cons_append, escapesComplete_pair, ih complete]
  | case4 c next front plain ih =>
    rw [escapesComplete_cons plain] at complete
    rw [List.cons_append, escapesComplete_cons plain, ih complete]

/-- Where no `}` introduces another one, the escapes are complete unless the last byte is one. -/
theorem escapesComplete_iff {payload : Bytes}
    (spread : payload.IsChain fun c next => c = 0x7d → next ≠ 0x7d) :
    escapesComplete payload = true ↔ payload.getLast? ≠ some 0x7d := by
  induction payload using escapesComplete.induct with
  | case1 => simp [escapesComplete]
  | case2 c => simp [escapesComplete]
  | case3 introduced rest ih =>
    obtain ⟨plain, tail⟩ := List.isChain_cons_cons.mp spread
    rw [escapesComplete_pair, ih tail.tail]
    cases rest with
    | nil => simpa using plain rfl
    | cons next rest => simp
  | case4 c next rest plain ih =>
    rw [escapesComplete_cons plain, ih (List.isChain_cons_cons.mp spread).2,
      List.getLast?_cons_cons]

namespace Clean

theorem nil : Clean [] := ⟨by simp, rfl⟩

theorem append {front rest : Bytes} (first : Clean front) (second : Clean rest) :
    Clean (front ++ rest) where
  unmarked c mem := (List.mem_append.mp mem).elim (first.unmarked c) (second.unmarked c)
  complete := by rw [escapesComplete_append first.complete, second.complete]

/-- Text without marks and escapes is clean. -/
theorem of_plain {payload : Bytes} (plain : ∀ c ∈ payload, forbidden c = false ∧ c ≠ 0x7d) :
    Clean payload where
  unmarked c mem := (plain c mem).1
  complete := by
    induction payload with
    | nil => rfl
    | cons c rest ih =>
      rw [escapesComplete_cons (plain c List.mem_cons_self).2]
      exact ih fun other mem => plain other (List.mem_cons_of_mem c mem)

/-- A plain byte in front changes nothing. -/
theorem cons_iff {c : UInt8} (unmarked : forbidden c = false) (plain : c ≠ 0x7d) (rest : Bytes) :
    Clean (c :: rest) ↔ Clean rest := by
  constructor
  · intro clean
    refine ⟨fun other mem => clean.unmarked other (List.mem_cons_of_mem c mem), ?_⟩
    rw [← escapesComplete_cons plain]
    exact clean.complete
  · intro clean
    refine ⟨?_, ?_⟩
    · rintro other (_ | ⟨_, mem⟩)
      · exact unmarked
      · exact clean.unmarked other mem
    · rw [escapesComplete_cons plain]
      exact clean.complete

theorem hash_notMem {payload : Bytes} (clean : Clean payload) : 0x23 ∉ payload := fun mem => by
  have := clean.unmarked _ mem
  simp [forbidden] at this

theorem dollar_notMem {payload : Bytes} (clean : Clean payload) : 0x24 ∉ payload := fun mem => by
  have := clean.unmarked _ mem
  simp [forbidden] at this

end Clean

/-- A reply is the frame of one payload at most. -/
theorem Frame.payload_eq {ack : Bool} {payload other reply : Bytes}
    (frame : Frame ack payload reply) (same : reply = (if ack then [0x2b] else []) ++
      0x24 :: (other ++ 0x23 :: sumDigits other)) : payload = other := by
  have bodies := List.append_cancel_left (frame.text.symm.trans same)
  have widths := congrArg List.length bodies
  simp only [List.length_cons, List.length_append, sumDigits, List.length_nil] at widths
  exact List.append_inj_left (List.cons.inj bodies).2 (by omega)

/-- A client recovers a payload without `#` from its frame. -/
theorem receive_frame {payload : Bytes} (unhashed : 0x23 ∉ payload) (ack : Bool) :
    receive ((if ack then [0x2b] else []) ++ 0x24 :: (payload ++ 0x23 :: sumDigits payload)) =
      some payload := by
  have front : (payload ++ 0x23 :: sumDigits payload).takeWhile
      (fun c => !decide (c = 0x23)) = payload := by
    rw [List.takeWhile_append_of_pos]
    · simp
    · intro c mem
      have differs : c ≠ 0x23 := fun same => unhashed (same ▸ mem)
      simpa using differs
  rw [receive]
  cases ack <;> simp [front]

/-- A client recovers the payload of a frame. -/
theorem Frame.received {ack : Bool} {payload reply : Bytes} (frame : Frame ack payload reply) :
    receive reply = some payload := by
  rw [frame.text]
  exact receive_frame frame.clean.hash_notMem ack

end DpcppTrace.Foundation
