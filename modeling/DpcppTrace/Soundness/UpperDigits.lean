import DpcppTrace.Soundness.TextCodecs

/-! # Digits of either case

The packet patterns admit upper-case digits, and the digit function gives such a digit its value
less thirty-two. As a nibble that is the value with the three bits of `0xe0`, which the parser ors
into the digit in front; in a pair it is harmless as the high digit only. The parser also takes
every numeral of more than two digits a byte for the largest value, leading zeros included.
-/

namespace DpcppTrace.Soundness

open Foundation Model

def upperHex (c : UInt8) : Bool := 0x41 ≤ c ∧ c ≤ 0x46

/-! ## What the digits say -/

/-- The bytes that the pairs of digits denote; an odd digit at the end denotes none. -/
def denoted : Bytes → Bytes
  | high :: low :: rest => UInt8.ofNat (16 * hexDigitValue high + hexDigitValue low) :: denoted rest
  | _ => []

/-- The low digits of the pairs. -/
def lowDigits : Bytes → Bytes
  | _ :: low :: rest => low :: lowDigits rest
  | _ => []

/-- The parser of a type returns the value of the text, if it is one of the type. -/
def NumeralRead (signed : Bool) (width : ℕ) (text : Bytes) : Prop :=
  hexValue text ≤ (integerMax signed width).toNat →
    (parseInt signed width text).toNat = hexValue text

/-- Both decoders map each pair of digits to the byte it denotes. -/
structure PairsRead (after : UInt8) (text : Bytes) : Prop where
  decoded : (decode after text).take (text.length / 2) = denoted text
  string : decodeString text = denoted text

/-- Where so many digits fill the type, each upper-case digit stands behind one whose value is
fourteen or fifteen, or in front of a text that fills the type. -/
def Absorbed (room : ℕ) (text : Bytes) : Prop :=
  ∀ front c rest, text = front ++ c :: rest → upperHex c = true →
    front.getLast?.elim (text.length = room) (14 ≤ hexDigitValue ·)

/-- The texts that the parser of a type reads: what the upper-case digits spoil is set anyway or
shifted out, and a longer text has the largest value. -/
def NumeralPlain (signed : Bool) (width : ℕ) (text : Bytes) : Prop :=
  hexValue text ≤ (integerMax signed width).toNat →
    if text.length ≤ width * 2 then Absorbed (width * 2) text
    else hexValue text = (integerMax signed width).toNat

/-- No pair has an upper-case low digit. -/
def PairsPlain (text : Bytes) : Prop := ∀ c ∈ lowDigits text, upperHex c = false

/-! ## Numerals -/

/-- The nibble of an upper-case digit has three bits too many. -/
theorem nibble_toNat {c : UInt8} (hex : anyHex c = true) :
    (UInt8.ofInt (hexDigitToInt c)).toNat =
      if upperHex c = true then 0xe0 + hexDigitValue c else hexDigitValue c := by
  have all : ∀ n < 256, anyHex (UInt8.ofNat n) = true →
      (UInt8.ofInt (hexDigitToInt (UInt8.ofNat n))).toNat =
        if upperHex (UInt8.ofNat n) = true then 0xe0 + hexDigitValue (UInt8.ofNat n)
        else hexDigitValue (UInt8.ofNat n) := by
    decide +kernel
  have here := all c.toNat c.toNat_lt
  rw [UInt8.ofNat_toNat] at here
  exact here hex

/-- The parser's loop without a bound on the number of bits. -/
def pushed (text : Bytes) : ℕ :=
  text.foldl (fun result c => result <<< 4 ||| (UInt8.ofInt (hexDigitToInt c)).toNat) 0

private theorem pushNibble_mod {bits n : ℕ} {result : BitVec bits} (holds : result.toNat = n % 2 ^ bits)
    (c : UInt8) : (pushNibble result c).toNat =
      (n <<< 4 ||| (UInt8.ofInt (hexDigitToInt c)).toNat) % 2 ^ bits := by
  rw [pushNibble, BitVec.toNat_or, BitVec.toNat_shiftLeft, BitVec.toNat_setWidth,
    UInt8.toNat_toBitVec, holds, Nat.or_mod_two_pow]
  congr 1
  rw [Nat.shiftLeft_eq, Nat.shiftLeft_eq, Nat.mod_mul_mod]

/-- The parser's loop keeps the low bits of the unbounded one. -/
theorem foldl_pushNibble_mod (bits : ℕ) (text : Bytes) :
    (text.foldl pushNibble (0 : BitVec bits)).toNat = pushed text % 2 ^ bits := by
  induction text using List.reverseRecOn with
  | nil => simp [pushed]
  | append_singleton front c ih =>
    rw [List.foldl_concat, pushNibble_mod ih]
    conv_rhs => rw [pushed, List.foldl_concat, ← pushed]

private theorem shiftLeft_or_digit {d : ℕ} (n : ℕ) (small : d < 16) : n <<< 4 ||| d = 16 * n + d := by
  rw [← Nat.shiftLeft_add_eq_or_of_lt (by omega : d < 2 ^ 4), Nat.shiftLeft_eq]
  omega

private theorem pushed_concat {c : UInt8} (hex : anyHex c = true) (front : Bytes) :
    pushed (front ++ [c]) =
      16 * (if upperHex c = true then pushed front ||| 14 else pushed front) + hexDigitValue c := by
  have small := hexDigitValue_lt hex
  rw [pushed, List.foldl_concat, ← pushed, nibble_toNat hex]
  split
  · have nibble : 0xe0 + hexDigitValue c = 14 <<< 4 ||| hexDigitValue c := by
      rw [shiftLeft_or_digit 14 small]
    rw [nibble, ← Nat.or_assoc, ← Nat.shiftLeft_or_distrib, shiftLeft_or_digit _ small]
  · exact shiftLeft_or_digit _ small

private theorem hexValue_concat (front : Bytes) (c : UInt8) :
    hexValue (front ++ [c]) = 16 * hexValue front + hexDigitValue c := by
  simp only [hexValue, List.map_append, List.map_singleton, List.reverse_append,
    List.reverse_singleton, List.singleton_append, Nat.ofDigits_cons]
  omega

private theorem digit_mod {d : ℕ} (room n : ℕ) (small : d < 16) :
    (16 * n + d) % 16 ^ (room + 1) = 16 * (n % 16 ^ room) + d := by
  rw [pow_succ', Nat.mod_mul, Nat.mul_add_mod, Nat.mod_eq_of_lt small,
    Nat.mul_add_div (by norm_num), Nat.div_eq_of_lt small, Nat.add_zero, add_comm]

/-- Setting three bits of the last digit leaves the value exactly when they are set already. -/
theorem raised_iff {room : ℕ} {text : Bytes} (hex : ∀ c ∈ text, anyHex c = true)
    (short : text.length ≤ room) :
    (pushed text ||| 14) % 16 ^ room = hexValue text ↔ pushed text % 16 ^ room = hexValue text ∧
      text.getLast?.elim (text.length = room) (14 ≤ hexDigitValue ·) := by
  rcases List.eq_nil_or_concat text with rfl | ⟨front, c, rfl⟩
  · have none : pushed [] = 0 := rfl
    have zero : hexValue [] = 0 := rfl
    rw [none, zero]
    cases room with
    | zero => simp [Nat.mod_one]
    | succ room =>
      have large : 14 < 16 ^ (room + 1) := by
        rw [pow_succ]
        have positive := pow_pos (by norm_num : 0 < 16) room
        omega
      simp [Nat.mod_eq_of_lt large]
  · rw [List.concat_eq_append] at *
    have last := hex c (by simp)
    have small := hexDigitValue_lt last
    obtain ⟨room, rfl⟩ : ∃ k, room = k + 1 := ⟨room - 1, by
      rw [List.length_append, List.length_singleton] at short
      omega⟩
    rw [pushed_concat last, hexValue_concat]
    generalize (if upperHex c = true then pushed front ||| 14 else pushed front) = result
    have raised : ∀ d < 16, d ||| 14 < 16 ∧ (d ||| 14 = d ↔ 14 ≤ d) := by decide
    obtain ⟨below, same⟩ := raised _ small
    have digit : 16 * result + hexDigitValue c ||| 14 = 16 * result + (hexDigitValue c ||| 14) := by
      rw [← shiftLeft_or_digit _ small, Nat.or_assoc, shiftLeft_or_digit _ below]
    rw [digit, digit_mod room result below, digit_mod room result small, List.getLast?_concat,
      Option.elim_some]
    omega

private theorem absorbed_concat {room : ℕ} {front : Bytes} {c : UInt8} :
    Absorbed (room + 1) (front ++ [c]) ↔ Absorbed room front ∧ (upperHex c = true →
      front.getLast?.elim (front.length = room) (14 ≤ hexDigitValue ·)) := by
  have length : (front ++ [c]).length = room + 1 ↔ front.length = room := by
    rw [List.length_append, List.length_singleton]
    omega
  constructor
  · intro absorbed
    refine ⟨fun before other rest split upper => ?_, fun upper => ?_⟩
    · have here := absorbed before other (rest ++ [c]) (by simp [split]) upper
      rwa [length] at here
    · have here := absorbed front c [] rfl upper
      rwa [length] at here
  · rintro ⟨inner, outer⟩ before other rest split upper
    rw [length]
    rcases List.eq_nil_or_concat rest with rfl | ⟨inside, last, rfl⟩
    · obtain ⟨rfl, same⟩ := List.append_inj' split rfl
      obtain rfl := List.singleton_inj.mp same
      exact outer upper
    · rw [List.concat_eq_append, ← List.cons_append, ← List.append_assoc] at split
      obtain ⟨same, -⟩ := List.append_inj' split rfl
      exact inner before other inside same upper

private theorem pushed_iff {room : ℕ} {text : Bytes} (hex : ∀ c ∈ text, anyHex c = true)
    (short : text.length ≤ room) :
    pushed text % 16 ^ room = hexValue text ↔ Absorbed room text := by
  induction text using List.reverseRecOn generalizing room with
  | nil =>
    have none : pushed [] % 16 ^ room = hexValue [] := Nat.zero_mod _
    exact iff_of_true none fun front c rest split _ => by simp at split
  | append_singleton front c ih =>
    have before : ∀ c ∈ front, anyHex c = true := fun c mem => hex c (List.mem_append_left _ mem)
    have last := hex c (by simp)
    have small := hexDigitValue_lt last
    rw [List.length_append, List.length_singleton] at short
    obtain ⟨room, rfl⟩ : ∃ k, room = k + 1 := ⟨room - 1, by omega⟩
    have cut (n : ℕ) : (16 * n + hexDigitValue c) % 16 ^ (room + 1) =
        16 * hexValue front + hexDigitValue c ↔ n % 16 ^ room = hexValue front := by
      rw [digit_mod room n small]
      omega
    rw [pushed_concat last, hexValue_concat, cut, absorbed_concat, ← ih before (by omega)]
    split
    · rename_i upper
      rw [raised_iff before (by omega)]
      simp [upper]
    · rename_i lower
      simp [lower]

private theorem numeralRead_iff (signed : Bool) (width : ℕ) {text : Bytes}
    (hex : ∀ c ∈ text, anyHex c = true) :
    NumeralRead signed width text ↔ NumeralPlain signed width text := by
  rw [NumeralRead, NumeralPlain]
  apply imp_congr_right
  intro _
  rw [parseInt]
  split
  · rename_i long
    rw [if_neg (by omega)]
    exact eq_comm
  · rename_i short
    have power : 2 ^ (8 * width) = 16 ^ (width * 2) := by
      rw [show 8 * width = 4 * (width * 2) by omega, pow_mul]
      norm_num
    rw [if_pos (by omega), foldl_pushNibble_mod, power]
    exact pushed_iff hex (by omega)

/-! ## Pairs -/

/-- A pair is read right exactly when its low digit is no upper-case one. -/
theorem decodePair_iff {high low : UInt8} (highHex : anyHex high = true) (lowHex : anyHex low = true) :
    decodePair high low = UInt8.ofNat (16 * hexDigitValue high + hexDigitValue low) ↔
      upperHex low = false := by
  have shifted : ∀ n < 256, anyHex (UInt8.ofNat n) = true →
      UInt8.ofInt (hexDigitToInt (UInt8.ofNat n) <<< (4 : ℕ)) =
        UInt8.ofNat (16 * hexDigitValue (UInt8.ofNat n)) := by
    decide +kernel
  have plain : ∀ n < 256, anyHex (UInt8.ofNat n) = true →
      (UInt8.ofInt (hexDigitToInt (UInt8.ofNat n)) = UInt8.ofNat (hexDigitValue (UInt8.ofNat n)) ↔
        upperHex (UInt8.ofNat n) = false) := by
    decide +kernel
  have front := shifted high.toNat high.toNat_lt
  have back := plain low.toNat low.toNat_lt
  rw [UInt8.ofNat_toNat] at front back
  rw [decodePair, front highHex, UInt8.ofNat_add, ← back lowHex]
  exact UInt8.add_right_inj _

private theorem decodeString_eq_denoted_iff {text : Bytes} (hex : ∀ c ∈ text, anyHex c = true) :
    decodeString text = denoted text ↔ PairsPlain text := by
  induction text using decode.induct with
  | case1 => simp [decodeString, denoted, PairsPlain, lowDigits]
  | case2 high => simp [decodeString, DecodeString.next, denoted, PairsPlain, lowDigits]
  | case3 high low rest ih =>
    obtain ⟨first, others⟩ := List.forall_mem_cons.mp hex
    obtain ⟨second, behind⟩ := List.forall_mem_cons.mp others
    rw [decodeString_cons_cons, denoted, List.cons.injEq, decodePair_iff first second, ih behind,
      PairsPlain, PairsPlain, lowDigits, List.forall_mem_cons]

/-- Of the pairs of a text, `decode` makes what `decodeString` makes of the text. -/
theorem decode_take (after : UInt8) (text : Bytes) :
    (decode after text).take (text.length / 2) = decodeString text := by
  induction text using decode.induct with
  | case1 => rfl
  | case2 high => simp [decodeString, DecodeString.next]
  | case3 high low rest ih =>
    have pairs : (high :: low :: rest).length / 2 = rest.length / 2 + 1 := by
      rw [List.length_cons, List.length_cons]
      omega
    rw [pairs, decode, List.take_succ_cons, ih, decodeString_cons_cons]

private theorem pairsRead_iff (after : UInt8) {text : Bytes} (hex : ∀ c ∈ text, anyHex c = true) :
    PairsRead after text ↔ PairsPlain text := by
  rw [← decodeString_eq_denoted_iff hex]
  constructor
  · exact fun read => read.string
  · exact fun read => ⟨(decode_take after text).trans read, read⟩

/-! ## Both readings -/

/-- A text of hexadecimal digits is read as the numeral of its value, and as the bytes of its pairs,
exactly when the upper-case digits in it are where they do no harm and its length is in range. -/
theorem digits_read_iff (after : UInt8) (signed : Bool) (width : ℕ) {text : Bytes}
    (hex : ∀ c ∈ text, anyHex c = true) :
    (NumeralRead signed width text ↔ NumeralPlain signed width text) ∧
      (PairsRead after text ↔ PairsPlain text) :=
  ⟨numeralRead_iff signed width hex, pairsRead_iff after hex⟩

/-- Digits of both cases, as a packet may bring them. -/
theorem digits_read_mixed :
    (NumeralRead false 8 (str "1fA") ↔ NumeralPlain false 8 (str "1fA")) ∧
      (PairsRead 0x23 (str "1fA") ↔ PairsPlain (str "1fA")) :=
  digits_read_iff 0x23 false 8 (List.all_eq_true.mp rfl)

/-- Thread id `A` is read as `0xea` and a one behind sixteen zeros as the largest number; the pair
`0A` of a file name stands for a newline and is read as another byte. -/
theorem digits_misread :
    ¬NumeralRead false 8 (str "A") ∧ ¬NumeralRead false 8 (str "00000000000000001") ∧
      ¬PairsRead 0x23 (str "0A") := by
  refine ⟨fun read => ?_, fun read => ?_, fun read => ?_⟩
  · have value := read (by decide)
    revert value
    decide
  · have value := read (by decide)
    revert value
    decide
  · have value := read.string
    revert value
    decide

end DpcppTrace.Soundness
