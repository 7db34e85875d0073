import DpcppTrace.Foundation.PacketFrame
import DpcppTrace.Model.GDBServerProtocol
import Mathlib.Data.Nat.Digits.Lemmas

/-! # The texts of replies

Hexadecimal texts and escaped binary are clean payloads, and a response is laid out as the frame of
its payload.
-/

namespace DpcppTrace.Soundness

open Foundation Model

/-- The two characters of a byte are its digits, high digit first. -/
theorem hexPair_eq (v : UInt8) :
    hexPair v = [hexCharacter (v.toNat / 16), hexCharacter (v.toNat % 16)] := by
  have digits : ∀ n < 256, hexPair (UInt8.ofNat n) = [hexCharacter (n / 16), hexCharacter (n % 16)] := by
    decide +kernel
  have all := digits v.toNat v.toNat_lt
  rwa [UInt8.ofNat_toNat] at all

private theorem foldl_add_toNat (message : Bytes) (start : UInt8) :
    (message.foldl (· + ·) start).toNat = (start.toNat + (message.map UInt8.toNat).sum) % 256 := by
  induction message generalizing start with
  | nil => simp [Nat.mod_eq_of_lt start.toNat_lt]
  | cons c rest ih =>
    rw [List.foldl_cons, ih, UInt8.toNat_add, List.map_cons, List.sum_cons]
    omega

private theorem checksum_toNat (message : Bytes) :
    (checksum message).toNat = (message.map UInt8.toNat).sum % 256 := by
  simpa [checksum] using foldl_add_toNat message 0

/-- A response is the frame of its payload. -/
theorem createResponse_eq (response : Bytes) (ack : Bool) :
    createResponse response ack =
      (if ack then [0x2b] else []) ++ 0x24 :: (response ++ 0x23 :: sumDigits response) := by
  have dollar : str "$" = [0x24] := by decide
  have hash : str "#" = [0x23] := by decide
  have plus : str "+" = [0x2b] := by decide
  rw [createResponse, hexPair_eq, checksum_toNat, dollar, hash, plus]
  cases ack <;> simp [sumDigits]

/-- A client recovers a response without `#`. -/
theorem receive_unhashed {response : Bytes} (unhashed : 0x23 ∉ response) (ack : Bool) :
    receive (createResponse response ack) = some response := by
  rw [createResponse_eq]
  exact receive_frame unhashed ack

/-- A client recovers a clean response. -/
theorem receive_createResponse {response : Bytes} (clean : Clean response) (ack : Bool) :
    receive (createResponse response ack) = some response :=
  receive_unhashed clean.hash_notMem ack

/-! ## Hexadecimal texts -/

theorem lowerHex_hexCharacter {d : ℕ} (small : d < 16) : lowerHex (hexCharacter d) = true := by
  have all : ∀ d < 16, lowerHex (hexCharacter d) = true := by decide
  exact all d small

private theorem mem_hexPair {v c : UInt8} (mem : c ∈ hexPair v) : lowerHex c = true := by
  have bound := v.toNat_lt
  rw [hexPair_eq] at mem
  rcases List.mem_pair.mp mem with rfl | rfl
  · apply lowerHex_hexCharacter
    omega
  · apply lowerHex_hexCharacter
    omega

theorem mem_encode {data : Bytes} {c : UInt8} (mem : c ∈ encode data) : lowerHex c = true := by
  obtain ⟨v, -, inside⟩ := List.mem_flatMap.mp mem
  exact mem_hexPair inside

private theorem mem_trim {v : Bytes} {c : UInt8} (mem : c ∈ trim v) : c ∈ v ∨ c = 0x30 := by
  rw [trim] at mem
  split at mem
  · exact .inr (List.mem_singleton.mp mem)
  · exact .inl (List.dropWhile_suffix _ |>.mem mem)

theorem mem_trim_encode {data : Bytes} {c : UInt8} (mem : c ∈ trim (encode data)) :
    lowerHex c = true := by
  rcases mem_trim mem with inside | rfl
  · exact mem_encode inside
  · decide

theorem plain_of_lowerHex {c : UInt8} (digit : lowerHex c = true) :
    forbidden c = false ∧ c ≠ 0x7d := by
  have all : ∀ n < 256, lowerHex (UInt8.ofNat n) = true →
      forbidden (UInt8.ofNat n) = false ∧ UInt8.ofNat n ≠ 0x7d := by
    decide +kernel
  have here := all c.toNat c.toNat_lt
  rw [UInt8.ofNat_toNat] at here
  exact here digit

theorem clean_encode (data : Bytes) : Clean (encode data) :=
  .of_plain fun _ mem => plain_of_lowerHex (mem_encode mem)

private theorem clean_trim_encode (data : Bytes) : Clean (trim (encode data)) :=
  .of_plain fun _ mem => plain_of_lowerHex (mem_trim_encode mem)

theorem clean_encodeInt (width : ℕ) (num : BitVec (8 * width)) : Clean (encodeInt width num) :=
  clean_trim_encode _

theorem clean_formatHex2 (code : Int32) : Clean (formatHex2 code) := by
  rw [formatHex2]
  split
  · exact .append (by decide) (clean_trim_encode _)
  · refine .append (.of_plain fun c mem => ?_) (clean_trim_encode _)
    rw [List.eq_of_mem_replicate mem]
    decide

/-! ## Numerals -/

private theorem hexDigitToInt_hexCharacter {d : ℕ} (small : d < 16) :
    UInt8.ofInt (hexDigitToInt (hexCharacter d)) = UInt8.ofNat d := by
  have all : ∀ d < 16, UInt8.ofInt (hexDigitToInt (hexCharacter d)) = UInt8.ofNat d := by decide
  exact all d small

/-- Appending a digit multiplies by sixteen, while there is room for it. -/
theorem pushNibble_toNat {bits d : ℕ} (value : BitVec bits) (small : d < 16)
    (fits : 16 * value.toNat + d < 2 ^ bits) :
    (pushNibble value (hexCharacter d)).toNat = 16 * value.toNat + d := by
  have digit : ((UInt8.ofNat d).toBitVec.setWidth bits).toNat = d := by
    rw [BitVec.toNat_setWidth, UInt8.toNat_toBitVec, UInt8.toNat_ofNat',
      Nat.mod_eq_of_lt (by omega : d < 2 ^ 8), Nat.mod_eq_of_lt (by omega)]
  have shifted : (value <<< 4).toNat = value.toNat <<< 4 := by
    rw [BitVec.toNat_shiftLeft, Nat.mod_eq_of_lt]
    rw [Nat.shiftLeft_eq]
    omega
  rw [pushNibble, hexDigitToInt_hexCharacter small, BitVec.toNat_or, digit, shifted,
    ← Nat.shiftLeft_add_eq_or_of_lt (by omega : d < 2 ^ 4), Nat.shiftLeft_eq]
  omega

/-- The loop of the parser on digits computes their positional value, while it fits the type. -/
theorem foldl_pushNibble_toNat {bits : ℕ} (digits : List ℕ) (small : ∀ d ∈ digits, d < 16)
    (fits : Nat.ofDigits 16 digits < 2 ^ bits) :
    ((digits.map hexCharacter).reverse.foldl pushNibble (0 : BitVec bits)).toNat =
      Nat.ofDigits 16 digits := by
  induction digits with
  | nil => simp
  | cons d digits ih =>
    rw [Nat.ofDigits_cons] at fits
    have rest := ih (fun other mem => small other (List.mem_cons_of_mem d mem)) (by omega)
    have room : 16 * Nat.ofDigits 16 digits + d < 2 ^ bits := by omega
    rw [List.map_cons, List.reverse_cons, List.foldl_concat, pushNibble_toNat _
      (small d List.mem_cons_self) (by rwa [rest]), rest, Nat.ofDigits_cons]
    omega

/-- The parser reads the numeral of every number that fits a `size_t`. -/
theorem parseUInt64_hexNumeral {n : ℕ} (fits : n < 2 ^ 64) :
    (parseUInt64 (hexNumeral n)).toNat = n := by
  rw [hexNumeral]
  split
  · rename_i zero
    subst zero
    decide
  · have width : (Nat.digits 16 n).length ≤ 16 :=
      (Nat.digits_length_le_iff (by norm_num) n).mpr (by omega)
    have short : ¬(((Nat.digits 16 n).map hexCharacter).reverse.length > 8 * 2) := by
      rw [List.length_reverse, List.length_map]
      omega
    change (parseInt false 8 _).toNat = n
    rw [parseInt, if_neg short]
    have value := Nat.ofDigits_digits 16 n
    have small : ∀ d ∈ Nat.digits 16 n, d < 16 := fun d mem => Nat.digits_lt_base (by norm_num) mem
    have room : Nat.ofDigits 16 (Nat.digits 16 n) < 2 ^ (8 * 8) := by
      rw [value]
      omega
    exact (foldl_pushNibble_toNat (Nat.digits 16 n) small room).trans value

theorem parseUInt64_ofNat {n : ℕ} (fits : n < 2 ^ 64) : parseUInt64 (hexNumeral n) = .ofNat n := by
  apply UInt64.toNat.inj
  rw [parseUInt64_hexNumeral fits, UInt64.toNat_ofNat', Nat.mod_eq_of_lt fits]

theorem hexDigitValue_lt {c : UInt8} (digit : anyHex c = true) : hexDigitValue c < 16 := by
  simp only [anyHex, lowerHex, Model.digit, UInt8.le_iff_toNat_le, decide_eq_true_eq] at digit
  simp only [hexDigitValue, UInt8.le_iff_toNat_le]
  simp at digit ⊢
  split_ifs <;> omega

private theorem hexCharacter_hexDigitValue {c : UInt8} (digit : lowerHex c = true) :
    hexCharacter (hexDigitValue c) = c := by
  apply UInt8.toNat.inj
  simp only [lowerHex, Model.digit, UInt8.le_iff_toNat_le, decide_eq_true_eq] at digit
  simp only [hexCharacter, hexDigitValue, UInt8.le_iff_toNat_le]
  simp at digit ⊢
  split_ifs <;> omega

theorem anyHex_of_lowerHex {c : UInt8} (digit : lowerHex c = true) : anyHex c = true := by
  simp [anyHex, digit]

/-- The parser reads lower-case numerals of up to sixteen digits, and takes all longer ones for the
largest number. -/
theorem parseUInt64_toNat {numeral : Bytes} (hex : ∀ c ∈ numeral, lowerHex c = true) :
    (parseUInt64 numeral).toNat = if numeral.length ≤ 16 then hexValue numeral else 2 ^ 64 - 1 := by
  split
  · rename_i short
    have characters : numeral = (((numeral.map hexDigitValue).reverse).map hexCharacter).reverse := by
      rw [← List.map_reverse, List.reverse_reverse, List.map_map]
      symm
      exact (List.map_congr_left fun c mem => hexCharacter_hexDigitValue (hex c mem)).trans
        (List.map_id _)
    have small : ∀ d ∈ (numeral.map hexDigitValue).reverse, d < 16 := by
      intro d mem
      obtain ⟨c, member, rfl⟩ := List.mem_map.mp (List.mem_reverse.mp mem)
      exact hexDigitValue_lt (anyHex_of_lowerHex (hex c member))
    have bound := Nat.ofDigits_lt_base_pow_length (by norm_num : 1 < 16) small
    have room : Nat.ofDigits 16 (numeral.map hexDigitValue).reverse < 2 ^ (8 * 8) := by
      apply bound.trans_le
      rw [List.length_reverse, List.length_map]
      exact (Nat.pow_le_pow_right (by norm_num) short).trans (by norm_num)
    change (parseInt false 8 numeral).toNat = _
    rw [parseInt, if_neg (by omega), hexValue]
    nth_rewrite 1 [characters]
    exact foldl_pushNibble_toNat _ small room
  · rename_i long
    change (parseInt false 8 numeral).toNat = _
    rw [parseInt, if_pos (by omega)]
    rfl

/-- Dropping the zeros in front of the digits of a word leaves its numeral. -/
theorem dropWhile_encode {width n : ℕ} (fits : n < 256 ^ width) :
    (encode (leBytes width n).reverse).dropWhile (· = 0x30) =
      ((Nat.digits 16 n).map hexCharacter).reverse := by
  induction width generalizing n with
  | zero =>
    obtain rfl : n = 0 := by simpa using fits
    simp [leBytes, encode]
  | succ width ih =>
    have front := ih (n := n / 256) (by rw [pow_succ] at fits; omega)
    have byte : (UInt8.ofNat n).toNat = n % 256 := by simp
    have last : encode (leBytes (width + 1) n).reverse = encode (leBytes width (n / 256)).reverse ++
        [hexCharacter (n % 256 / 16), hexCharacter (n % 16)] := by
      rw [leBytes, List.reverse_cons, encode, List.flatMap_append, List.flatMap_singleton, hexPair_eq,
        byte, encode]
      congr 4
      omega
    have nonzero {d : ℕ} (small : d < 16) (positive : 0 < d) : hexCharacter d ≠ 0x30 := by
      have all : ∀ d < 16, 0 < d → hexCharacter d ≠ 0x30 := by decide
      exact all d small positive
    rw [last, List.dropWhile_append, front]
    rcases Nat.eq_zero_or_pos (n / 256) with below | above
    · rw [below, Nat.digits_zero, List.map_nil, List.reverse_nil, List.isEmpty_nil, if_pos rfl]
      rcases Nat.eq_zero_or_pos n with rfl | positive
      · rfl
      · rw [Nat.digits_def' (by norm_num) positive]
        rcases Nat.eq_zero_or_pos (n / 16) with small | large
        · have short : n % 256 / 16 = 0 := by omega
          have zero : hexCharacter 0 = 0x30 := rfl
          simp [short, small, zero, nonzero (by omega : n % 16 < 16) (by omega)]
        · have digit : n % 256 / 16 = n / 16 := by omega
          rw [Nat.digits_of_lt 16 (n / 16) (by omega) (by omega)]
          simp [digit, nonzero (by omega : n / 16 < 16) large]
    · have two : Nat.digits 16 n = n % 16 :: n / 16 % 16 :: Nat.digits 16 (n / 256) := by
        rw [Nat.digits_def' (by norm_num) (by omega : 0 < n),
          Nat.digits_def' (by norm_num) (by omega : 0 < n / 16), Nat.div_div_eq_div_mul]
      have digit : n % 256 / 16 = n / 16 % 16 := by omega
      have nonempty : Nat.digits 16 (n / 256) ≠ [] :=
        Nat.digits_ne_nil_iff_ne_zero.mpr (by omega)
      simp [two, digit, nonempty]

/-- An integer is encoded as its numeral. -/
theorem encodeInt_eq (width : ℕ) (num : BitVec (8 * width)) :
    encodeInt width num = hexNumeral num.toNat := by
  have fits : num.toNat < 256 ^ width := by
    have bound := num.isLt
    rwa [pow_mul] at bound
  rw [encodeInt, trim, dropWhile_encode fits, hexNumeral]
  rcases Nat.eq_zero_or_pos num.toNat with zero | positive
  · simp [zero]
  · have nonempty : Nat.digits 16 num.toNat ≠ [] :=
      Nat.digits_ne_nil_iff_ne_zero.mpr (by omega)
    rw [if_neg (by omega)]
    split
    · rename_i empty
      simp [nonempty] at empty
    · rfl

theorem hexNumeral_ne_nil (n : ℕ) : hexNumeral n ≠ [] := by
  rw [hexNumeral]
  split
  · exact List.cons_ne_nil _ _
  · rename_i nonzero
    simpa using Nat.digits_ne_nil_iff_ne_zero.mpr nonzero

theorem mem_hexNumeral {n : ℕ} {c : UInt8} (mem : c ∈ hexNumeral n) : lowerHex c = true := by
  rw [hexNumeral] at mem
  split at mem
  · rw [List.mem_singleton.mp mem]
    decide
  · obtain ⟨d, member, rfl⟩ := List.mem_map.mp (List.mem_reverse.mp mem)
    exact lowerHex_hexCharacter (Nat.digits_lt_base (by norm_num) member)

/-! ## Escaped binary -/

theorem escape_cons (c : UInt8) (data : Bytes) :
    escape (c :: data) = (if reserved c then [0x7d, c ^^^ 0x20] else [c]) ++ escape data := rfl

/-- A reserved byte becomes an escape of a byte that is not reserved. -/
theorem not_reserved_xor {c : UInt8} (escaped : reserved c = true) :
    reserved (c ^^^ 0x20) = false := by
  simp only [reserved, Bool.decide_or, Bool.or_eq_true, decide_eq_true_eq] at escaped
  rcases escaped with rfl | rfl | rfl | rfl <;> decide

theorem plain_of_not_reserved {c : UInt8} (plain : reserved c = false) :
    forbidden c = false ∧ c ≠ 0x7d := by
  simp only [reserved, Bool.decide_or, Bool.or_eq_false_iff, decide_eq_false_iff_not] at plain
  simp [forbidden, plain]

theorem clean_escape (data : Bytes) : Clean (escape data) := by
  induction data with
  | nil => exact .nil
  | cons c data ih =>
    rw [escape_cons]
    refine .append ?_ ih
    split
    · rename_i escaped
      obtain ⟨unmarked, -⟩ := plain_of_not_reserved (not_reserved_xor escaped)
      refine ⟨List.forall_mem_cons.mpr ⟨by decide, ?_⟩, escapesComplete_pair _ _⟩
      exact List.forall_mem_singleton.mpr unmarked
    · rename_i plain
      exact .of_plain (by simpa using plain_of_not_reserved (by simpa using plain))

theorem escape_append (front rest : Bytes) : escape (front ++ rest) = escape front ++ escape rest :=
  List.flatMap_append

/-- Data without reserved bytes is escaped to itself. -/
theorem escape_plain {data : Bytes} (plain : ∀ c ∈ data, reserved c = false) :
    escape data = data := by
  induction data with
  | nil => rfl
  | cons c data ih =>
    obtain ⟨here, rest⟩ := List.forall_mem_cons.mp plain
    rw [escape_cons, here, ih rest]
    rfl

/-- The escapes add one byte for each reserved one. -/
theorem escape_length (data : Bytes) :
    (escape data).length = data.length + data.countP reserved := by
  induction data with
  | nil => rfl
  | cons c data ih =>
    rw [escape_cons, List.length_append, ih, List.length_cons, List.countP_cons]
    split <;> simp only [List.length_cons, List.length_nil] <;> omega

/-- What a front of an escaped text decodes to is escaped to that front. -/
theorem escape_of_unescape_take {data decoded : Bytes} {n : ℕ}
    (decodes : unescape ((escape data).take n) = some decoded) :
    escape decoded = (escape data).take n := by
  induction data generalizing n decoded with
  | nil =>
    have none : escape [] = [] := rfl
    rw [none, List.take_nil] at decodes ⊢
    obtain rfl := Option.some.inj decodes
    rfl
  | cons c data ih =>
    rw [escape_cons] at decodes ⊢
    split at decodes
    · rename_i escaped
      match n with
      | 0 =>
        obtain rfl := Option.some.inj decodes
        rfl
      | 1 => cases decodes
      | n + 2 =>
        have back : c ^^^ 0x20 ^^^ 0x20 = c := by
          rw [UInt8.xor_assoc, UInt8.xor_self, UInt8.xor_zero]
        simp only [List.cons_append, List.nil_append, List.take_succ_cons, unescape_pair,
          back] at decodes
        obtain ⟨rest, later, rfl⟩ := Option.map_eq_some_iff.mp decodes
        rw [escape_cons, if_pos escaped, ih later]
        rfl
    · rename_i plain
      match n with
      | 0 =>
        obtain rfl := Option.some.inj decodes
        rfl
      | n + 1 =>
        have unescaped := (plain_of_not_reserved (by simpa using plain)).2
        simp only [List.cons_append, List.nil_append, List.take_succ_cons,
          unescape_cons unescaped] at decodes
        obtain ⟨rest, later, rfl⟩ := Option.map_eq_some_iff.mp decodes
        rw [escape_cons, if_neg plain, ih later]
        rfl

/-- Undoing the escapes of an escaped text gives the data. -/
theorem unescape_escape (data : Bytes) : unescape (escape data) = some data := by
  induction data with
  | nil => rfl
  | cons c data ih =>
    rw [escape_cons]
    split
    · have back : c ^^^ 0x20 ^^^ 0x20 = c := by
        rw [UInt8.xor_assoc, UInt8.xor_self, UInt8.xor_zero]
      rw [List.cons_append, List.cons_append, List.nil_append, unescape_pair, ih, back]
      rfl
    · rename_i plain
      have unescaped := (plain_of_not_reserved (by simpa using plain)).2
      rw [List.cons_append, List.nil_append, unescape_cons unescaped, ih]
      rfl

/-- In an escaped text no `}` introduces another one. -/
theorem spread_escape (data : Bytes) :
    (escape data).IsChain fun c next => c = 0x7d → next ≠ 0x7d := by
  induction data with
  | nil => exact .nil
  | cons c data ih =>
    have behind {b : UInt8} (plain : b ≠ 0x7d) :
        (b :: escape data).IsChain fun c next => c = 0x7d → next ≠ 0x7d := by
      cases rest : escape data with
      | nil => exact .singleton b
      | cons next rest' =>
        rw [rest] at ih
        exact List.isChain_cons_cons.mpr ⟨fun same => absurd same plain, ih⟩
    rw [escape_cons]
    split
    · rename_i escaped
      have plain := (plain_of_not_reserved (not_reserved_xor escaped)).2
      exact List.isChain_cons_cons.mpr ⟨fun _ => plain, behind plain⟩
    · rename_i plain
      exact behind (plain_of_not_reserved (by simpa using plain)).2

end DpcppTrace.Soundness
