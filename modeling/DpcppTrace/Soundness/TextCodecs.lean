import DpcppTrace.Soundness.RegisterWrite

/-! # Coders and decoders of packet texts

Bytes go through pairs of digits or through escapes, numbers through their shortest numeral. The two
decoders of digits are loops of different shape, with the shift on either side of the conversion to
a byte; both read a text pair by pair, and they differ in the odd character only.
-/

namespace DpcppTrace.Soundness

open Foundation Model

/-! ## The two decoders of digits -/

/-- A digit shifted as an `int` and as a `char` leaves the same byte. -/
theorem ofInt_shiftLeft (c : UInt8) :
    UInt8.ofInt (hexDigitToInt c <<< (4 : ℕ)) = UInt8.ofInt (hexDigitToInt c) <<< 4 := by
  have all : ∀ n < 256, UInt8.ofInt (hexDigitToInt (UInt8.ofNat n) <<< (4 : ℕ)) =
      UInt8.ofInt (hexDigitToInt (UInt8.ofNat n)) <<< 4 := by
    decide +kernel
  have here := all c.toNat c.toNat_lt
  rwa [UInt8.ofNat_toNat] at here

/-- Between two pairs the loop of `decodeString` is in the state it started in, but for what it has
returned and an overwritten character. -/
theorem foldl_next_ret (text ret : Bytes) (realChar : UInt8) :
    (text.foldl DecodeString.next ⟨ret, false, realChar⟩).ret = ret ++ decodeString text := by
  induction text using decode.induct generalizing ret realChar with
  | case1 => simp [decodeString]
  | case2 high => simp [decodeString, DecodeString.next]
  | case3 high low rest ih =>
    have pair (before : Bytes) (last : UInt8) :
        ((high :: low :: rest).foldl DecodeString.next ⟨before, false, last⟩).ret =
          before ++ decodePair high low :: decodeString rest := by
      simp only [List.foldl_cons, DecodeString.next]
      simp [ih, decodePair, ofInt_shiftLeft]
    have whole : decodeString (high :: low :: rest) = decodePair high low :: decodeString rest :=
      pair [] 0
    rw [pair, whole]

theorem decodeString_cons_cons (high low : UInt8) (rest : Bytes) :
    decodeString (high :: low :: rest) = decodePair high low :: decodeString rest := by
  rw [decodeString]
  simp only [List.foldl_cons, DecodeString.next]
  simp [foldl_next_ret, decodePair, ofInt_shiftLeft]

/-- On whole pairs the decoders agree, whatever the characters are. -/
theorem decode_eq_decodeString (after : UInt8) {text : Bytes} (paired : Even text.length) :
    decode after text = decodeString text := by
  induction text using decode.induct with
  | case1 => rfl
  | case2 high => simp at paired
  | case3 high low rest ih =>
    have shorter : Even rest.length := by
      rw [List.length_cons, List.length_cons] at paired
      simpa [Nat.even_add_one] using paired
    rw [decode, decodeString_cons_cons, ih shorter]

/-- Both decoders undo the encoder, and they agree on every text of even length. -/
theorem decoders_undo_encode (after : UInt8) :
    (∀ data, decode after (encode data) = data ∧ decodeString (encode data) = data) ∧
      ∀ text : Bytes, Even text.length → decode after text = decodeString text := by
  refine ⟨fun data => ⟨decode_encode after data, ?_⟩, fun text => decode_eq_decodeString after⟩
  have paired : Even (encode data).length := by
    rw [encode_length]
    exact even_two_mul data.length
  rw [← decode_eq_decodeString after paired, decode_encode]

/-! ## Numerals of integers -/

/-- The shortest lower-case numeral of a number, most significant digit first. -/
structure ShortestNumeral (n : ℕ) (numeral : Bytes) : Prop where
  nonempty : numeral ≠ []
  lower : ∀ c ∈ numeral, lowerHex c = true
  value : hexValue numeral = n
  trimmed : numeral.head? = some 0x30 → n = 0 ∧ numeral = [0x30]
  shortest : ∀ other : Bytes, other ≠ [] → (∀ c ∈ other, lowerHex c = true) → hexValue other = n →
    numeral.length ≤ other.length

/-- A numeral of so many digits has a value below that power of sixteen. -/
theorem hexValue_lt {numeral : Bytes} (hex : ∀ c ∈ numeral, anyHex c = true) :
    hexValue numeral < 16 ^ numeral.length := by
  have small : ∀ d ∈ (numeral.map hexDigitValue).reverse, d < 16 := by
    intro d mem
    obtain ⟨c, member, rfl⟩ := List.mem_map.mp (List.mem_reverse.mp mem)
    exact hexDigitValue_lt (hex c member)
  have bound := Nat.ofDigits_lt_base_pow_length (by norm_num : 1 < 16) small
  rwa [List.length_reverse, List.length_map] at bound

theorem length_hexNumeral_le {n width : ℕ} (positive : 0 < width) (fits : n < 16 ^ width) :
    (hexNumeral n).length ≤ width := by
  rw [hexNumeral]
  split
  · exact positive
  · rw [List.length_reverse, List.length_map]
    exact (Nat.digits_length_le_iff (by norm_num) n).mpr fits

private theorem head?_hexNumeral {n : ℕ} (zero : (hexNumeral n).head? = some 0x30) : n = 0 := by
  by_contra nonzero
  have nonempty := Nat.digits_ne_nil_iff_ne_zero (b := 16).mpr nonzero
  rw [hexNumeral, if_neg nonzero, List.head?_reverse, List.getLast?_map,
    List.getLast?_eq_some_getLast nonempty, Option.map_some, Option.some.injEq] at zero
  have leading := Nat.getLast_digit_ne_zero 16 nonzero
  have small := Nat.digits_lt_base (by norm_num : 1 < 16) (List.getLast_mem nonempty)
  have value := congrArg hexDigitValue zero
  rw [hexDigitValue_hexCharacter small] at value
  exact leading value

private theorem shortestNumeral_hexNumeral (n : ℕ) : ShortestNumeral n (hexNumeral n) where
  nonempty := hexNumeral_ne_nil n
  lower _ mem := mem_hexNumeral mem
  value := hexValue_hexNumeral n
  trimmed zero := by
    obtain rfl := head?_hexNumeral zero
    exact ⟨rfl, rfl⟩
  shortest other nonempty lower value := by
    have bound := hexValue_lt fun c mem => anyHex_of_lowerHex (lower c mem)
    rw [value] at bound
    exact length_hexNumeral_le (List.length_pos_iff.mpr nonempty) bound

/-- The parser of a type reads the numeral of each number below the modulus of the type. -/
theorem parseInt_hexNumeral (signed : Bool) {width n : ℕ} (fits : n < 2 ^ (8 * width)) :
    (parseInt signed width (hexNumeral n)).toNat = n := by
  rcases Nat.eq_zero_or_pos width with rfl | positive
  · have single := (parseInt signed 0 (hexNumeral n)).isLt
    omega
  · have power : 2 ^ (8 * width) = 16 ^ (width * 2) := by
      rw [show 8 * width = 4 * (width * 2) by omega, pow_mul]
      norm_num
    have short : (hexNumeral n).length ≤ width * 2 := length_hexNumeral_le (by omega) (by omega)
    rw [parseInt, if_neg (by omega), hexNumeral]
    split
    · rename_i zero
      subst zero
      have digit : UInt8.ofInt (hexDigitToInt 0x30) = 0 := rfl
      simp [pushNibble, digit]
    · have value := Nat.ofDigits_digits 16 n
      have small : ∀ d ∈ Nat.digits 16 n, d < 16 := fun d mem =>
        Nat.digits_lt_base (by norm_num) mem
      exact (foldl_pushNibble_toNat _ small (by omega)).trans value

/-- An integer of any width is encoded as the shortest numeral of its bits, and the parser of its
type gives it back. -/
theorem encodeInt_roundTrip (signed : Bool) (width : ℕ) (num : BitVec (8 * width)) :
    ShortestNumeral num.toNat (encodeInt width num) ∧
      parseInt signed width (encodeInt width num) = num := by
  rw [encodeInt_eq]
  refine ⟨shortestNumeral_hexNumeral num.toNat, ?_⟩
  apply BitVec.eq_of_toNat_eq
  exact parseInt_hexNumeral signed num.isLt

/-! ## Escaped binary -/

private theorem escape_injective : Function.Injective escape := by
  intro first second same
  have decoded := congrArg unescape same
  rw [unescape_escape, unescape_escape] at decoded
  exact Option.some.inj decoded

/-- The last byte of an escaped text is no escape mark. -/
theorem getLast?_escape (data : Bytes) : (escape data).getLast? ≠ some 0x7d :=
  (escapesComplete_iff (spread_escape data)).mp (clean_escape data).complete

private theorem escape_followed {data : Bytes} {i : ℕ} (mark : (escape data)[i]? = some 0x7d) :
    i + 1 < (escape data).length := by
  have inside := (List.getElem?_eq_some_iff.mp mark).choose
  by_contra last
  have final : i = (escape data).length - 1 := by omega
  rw [final, ← List.getLast?_eq_getElem?] at mark
  exact getLast?_escape data mark

/-- An escaped text holds no mark of the frame, each escape mark in it is followed by a byte, and
undoing the escapes gives the data; so no two data have one escaped text. -/
theorem escape_readable :
    (∀ data, (∀ c ∈ escape data, c ≠ 0x23 ∧ c ≠ 0x24 ∧ c ≠ 0x2a) ∧
      (∀ i, (escape data)[i]? = some 0x7d → i + 1 < (escape data).length) ∧
      unescape (escape data) = some data) ∧
    Function.Injective escape := by
  refine ⟨fun data => ⟨?_, fun i => escape_followed, unescape_escape data⟩, escape_injective⟩
  intro c mem
  simpa [forbidden] using (clean_escape data).unmarked c mem

end DpcppTrace.Soundness
