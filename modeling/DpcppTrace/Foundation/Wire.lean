import DpcppTrace.Foundation.Bytes
import Mathlib.Tactic.Common

/-! # Tag-length-value records

The part of the protobuf wire format that scalar, string and message fields use: base-128
variable-length integers, and fields that carry either such an integer or a counted byte string.
Parsing stops at the end of the input, at a zero tag or at the first malformed field, and keeps
the fields read so far. Writing fields and parsing them back is the identity, whether the input
ends there or continues with a zero byte. Where fields are cut and zeros stand for the rest, no field
appears that was not written.
-/

namespace DpcppTrace.Foundation.Wire

/-- Base-128 digits, least significant first; every byte but the last has its top bit set. -/
def varintDigits : ℕ → ℕ → Bytes
  | 0, value => [UInt8.ofNat value]
  | fuel + 1, value =>
    if value < 128 then [UInt8.ofNat value]
    else UInt8.ofNat (value % 128 + 128) :: varintDigits fuel (value / 128)

def varint (value : ℕ) : Bytes := varintDigits value value

def parseVarint : Bytes → Option (ℕ × Bytes)
  | [] => none
  | byte :: rest =>
    if byte.toNat < 128 then some (byte.toNat, rest)
    else (parseVarint rest).map fun (high, rest) => (byte.toNat - 128 + 128 * high, rest)

private theorem parseVarint_single {value : ℕ} (small : value < 128) (rest : Bytes) :
    parseVarint (UInt8.ofNat value :: rest) = some (value, rest) := by
  have same : (UInt8.ofNat value).toNat = value :=
    UInt8.toNat_ofNat_of_lt (by change value < 256; omega)
  simp [parseVarint, same, small]

private theorem parseVarint_digits (fuel value : ℕ) (rest : Bytes) (enough : value ≤ fuel) :
    parseVarint (varintDigits fuel value ++ rest) = some (value, rest) := by
  induction fuel generalizing value with
  | zero => exact parseVarint_single (by omega) rest
  | succ fuel ih =>
    rw [varintDigits]
    split
    · next small => exact parseVarint_single small rest
    · next large =>
      have same : (UInt8.ofNat (value % 128 + 128)).toNat = value % 128 + 128 :=
        UInt8.toNat_ofNat_of_lt (by change value % 128 + 128 < 256; omega)
      rw [List.cons_append, parseVarint, same, if_neg (by omega), ih (value / 128) (by omega)]
      simp only [Option.map_some, Option.some.injEq, Prod.mk.injEq, and_true]
      omega

/-- A varint is self-delimiting. -/
theorem parseVarint_varint (value : ℕ) (rest : Bytes) :
    parseVarint (varint value ++ rest) = some (value, rest) :=
  parseVarint_digits value value rest le_rfl

private theorem parseVarint_digits_cut (fuel value kept : ℕ) (rest : Bytes) (enough : value ≤ fuel)
    (cut : kept < (varintDigits fuel value).length) :
    parseVarint ((varintDigits fuel value).take kept ++ 0 :: rest) =
      some (value % 128 ^ kept, rest) := by
  have nothing (digits : Bytes) : parseVarint (digits.take 0 ++ 0 :: rest) =
      some (value % 128 ^ 0, rest) := by simp [parseVarint, Nat.mod_one]
  induction fuel generalizing value kept with
  | zero =>
    obtain rfl : kept = 0 := by simpa [varintDigits] using cut
    exact nothing _
  | succ fuel ih =>
    rcases kept with _ | kept
    · exact nothing _
    rw [varintDigits] at cut ⊢
    split at cut
    · simp at cut
    · next large =>
      have same : (UInt8.ofNat (value % 128 + 128)).toNat = value % 128 + 128 :=
        UInt8.toNat_ofNat_of_lt (by change value % 128 + 128 < 256; omega)
      have later := ih (value / 128) kept (by omega) (by simpa using cut)
        (fun digits => by simp [parseVarint, Nat.mod_one])
      rw [if_neg large, List.take_succ_cons, List.cons_append, parseVarint, same,
        if_neg (by omega), later, pow_succ', Nat.mod_mul]
      simp only [Option.map_some, Option.some.injEq, Prod.mk.injEq, and_true]
      omega

/-- Of a varint that is cut, the digits that are kept are read if a zero follows. -/
theorem parseVarint_cut {value kept : ℕ} (cut : kept < (varint value).length) (rest : Bytes) :
    parseVarint ((varint value).take kept ++ 0 :: rest) = some (value % 128 ^ kept, rest) :=
  parseVarint_digits_cut value value kept rest le_rfl cut

theorem lt_pow_varint (value : ℕ) : value < 128 ^ (varint value).length := by
  have digits (fuel value : ℕ) (enough : value ≤ fuel) :
      value < 128 ^ (varintDigits fuel value).length := by
    induction fuel generalizing value with
    | zero =>
      obtain rfl := Nat.le_zero.mp enough
      decide
    | succ fuel ih =>
      rw [varintDigits]
      split
      · next small => simpa using small
      · have high := ih (value / 128) (by omega)
        rw [List.length_cons, pow_succ]
        omega
  exact digits value value le_rfl

theorem varint_ne_nil (value : ℕ) : varint value ≠ [] := by
  cases value with
  | zero => simp [varint, varintDigits]
  | succ value =>
    rw [varint, varintDigits]
    split <;> simp

/-- A field's value: wire type 0 or wire type 2. -/
inductive Payload where
  | number (value : ℕ)
  | bytes (value : Bytes)
deriving DecidableEq, Repr

structure Field where
  number : ℕ
  payload : Payload
deriving DecidableEq, Repr

def Field.encode (field : Field) : Bytes :=
  match field.payload with
  | .number value => varint (field.number * 8) ++ varint value
  | .bytes value => varint (field.number * 8 + 2) ++ varint value.length ++ value

def encodeFields (fields : List Field) : Bytes := fields.flatMap Field.encode

/-- One field and the rest of the input; `none` for a malformed field. -/
def parseField (tag : ℕ) (input : Bytes) : Option (Field × Bytes) := do
  let (value, rest) ← parseVarint input
  if tag % 8 = 0 then some (⟨tag / 8, .number value⟩, rest)
  else if tag % 8 = 2 ∧ value ≤ rest.length then
    some (⟨tag / 8, .bytes (rest.take value)⟩, rest.drop value)
  else none

/-- Fields up to the end of the input, a zero tag or a malformed field. -/
def parseFields : ℕ → Bytes → List Field
  | 0, _ => []
  | fuel + 1, input =>
    match parseVarint input with
    | none | some (0, _) => []
    | some (tag, rest) =>
      match parseField tag rest with
      | none => []
      | some (field, rest) => field :: parseFields fuel rest

theorem parseFields_encode (field : Field) (positive : 0 < field.number) (fuel : ℕ)
    (rest : Bytes) :
    parseFields (fuel + 1) (field.encode ++ rest) = field :: parseFields fuel rest := by
  obtain ⟨number, payload⟩ := field
  obtain ⟨below, rfl⟩ : ∃ below, number = below + 1 := Nat.exists_eq_succ_of_ne_zero positive.ne'
  cases payload with
  | number value =>
    have tag : parseField (below * 8 + 7 + 1) (varint value ++ rest) =
        some (⟨below + 1, .number value⟩, rest) := by
      have kind : (below * 8 + 7 + 1) % 8 = 0 := by omega
      have index : (below * 8 + 7 + 1) / 8 = below + 1 := by omega
      simp [parseField, parseVarint_varint, kind, index]
    have split : (below + 1) * 8 = below * 8 + 7 + 1 := by omega
    simp only [Field.encode, List.append_assoc, parseFields, split, parseVarint_varint, tag]
  | bytes value =>
    have tag : parseField (below * 8 + 9 + 1) (varint value.length ++ (value ++ rest)) =
        some (⟨below + 1, .bytes value⟩, rest) := by
      have kind : (below * 8 + 9 + 1) % 8 = 2 := by omega
      have index : (below * 8 + 9 + 1) / 8 = below + 1 := by omega
      simp [parseField, parseVarint_varint, kind, index]
    have split : (below + 1) * 8 + 2 = below * 8 + 9 + 1 := by omega
    simp only [Field.encode, List.append_assoc, parseFields, split, parseVarint_varint, tag]

/-- What may follow the fields of a message: nothing, or a byte that reads as a zero tag. -/
def Terminated : Bytes → Prop
  | [] => True
  | byte :: _ => byte = 0

theorem parseFields_encodeFields (fields : List Field) (positive : ∀ field ∈ fields, 0 < field.number)
    (tail : Bytes) (terminated : Terminated tail) (fuel : ℕ) (enough : fields.length ≤ fuel) :
    parseFields fuel (encodeFields fields ++ tail) = fields := by
  induction fields generalizing fuel with
  | nil =>
    cases fuel with
    | zero => rfl
    | succ fuel =>
      cases tail with
      | nil => rfl
      | cons byte rest =>
        obtain rfl : byte = 0 := terminated
        rfl
  | cons field rest ih =>
    cases fuel with
    | zero => simp at enough
    | succ fuel =>
      have here := positive field (List.mem_cons_self ..)
      have later := fun other member => positive other (List.mem_cons_of_mem field member)
      rw [encodeFields, List.flatMap_cons, List.append_assoc, parseFields_encode field here]
      rw [← encodeFields, ih later fuel (by simpa using enough)]

/-! ## Fields that are cut -/

theorem parseFields_zeros (fuel count : ℕ) : parseFields fuel (List.replicate count 0) = [] := by
  cases fuel with
  | zero => rfl
  | succ fuel => cases count <;> rfl

theorem varint_small {value : ℕ} (small : value < 128) : varint value = [UInt8.ofNat value] := by
  cases value with
  | zero => rfl
  | succ value => rw [varint, varintDigits, if_pos small]

/-- A field whose tag is one byte. -/
def Field.Short (field : Field) : Prop := 0 < field.number ∧ field.number < 16

/-- What such a field consists of behind its tag. -/
def Payload.encode : Payload → Bytes
  | .number value => varint value
  | .bytes value => varint value.length ++ value

def Payload.kind : Payload → ℕ
  | .number _ => 0
  | .bytes _ => 2

theorem Field.Short.encode {field : Field} (short : field.Short) :
    field.encode = UInt8.ofNat (field.number * 8 + field.payload.kind) :: field.payload.encode := by
  obtain ⟨number, payload⟩ := field
  obtain ⟨positive, small⟩ : 0 < number ∧ number < 16 := short
  cases payload with
  | number value =>
    have tag : number * 8 < 128 := by omega
    simp [Field.encode, Payload.kind, Payload.encode, varint_small tag]
  | bytes value =>
    have tag : number * 8 + 2 < 128 := by omega
    simp [Field.encode, Payload.kind, Payload.encode, varint_small tag]

/-- A number that is cut is read from the digits that are left. -/
theorem parseFields_number_cut {number value kept : ℕ} (positive : 0 < number) (small : number < 16)
    (cut : kept < (varint value).length) (fuel zeros : ℕ) :
    parseFields (fuel + 1)
      (UInt8.ofNat (number * 8) :: ((varint value).take kept ++ List.replicate (zeros + 1) 0)) =
        [⟨number, .number (value % 128 ^ kept)⟩] := by
  obtain ⟨below, rfl⟩ : ∃ below, number = below + 1 := Nat.exists_eq_succ_of_ne_zero positive.ne'
  have read : parseField (below * 8 + 7 + 1) ((varint value).take kept ++ 0 :: List.replicate zeros 0) =
      some (⟨below + 1, .number (value % 128 ^ kept)⟩, List.replicate zeros 0) := by
    have kind : (below * 8 + 7 + 1) % 8 = 0 := by omega
    have index : (below * 8 + 7 + 1) / 8 = below + 1 := by omega
    simp [parseField, parseVarint_cut cut, kind, index]
  have split : (below + 1) * 8 = below * 8 + 7 + 1 := by omega
  simp only [parseFields, split, parseVarint_single (by omega : below * 8 + 7 + 1 < 128),
    List.replicate_succ, read, parseFields_zeros]

/-- Of a payload that is cut, with zeros behind it, a field of its number is read at most, and zeros are
left. -/
theorem parseField_cut {number kept : ℕ} {payload : Payload} (cut : kept < payload.encode.length)
    (zeros : ℕ) {field : Field} {rest : Bytes}
    (read : parseField (number * 8 + payload.kind)
      (payload.encode.take kept ++ 0 :: List.replicate zeros 0) = some (field, rest)) :
    field.number = number ∧ ∃ left, rest = List.replicate left 0 := by
  cases payload with
  | number value =>
    have kind : (number * 8 + 0) % 8 = 0 := by omega
    have index : (number * 8 + 0) / 8 = number := by omega
    simp only [Payload.encode, Payload.kind] at cut read
    simp only [parseField, parseVarint_cut cut, kind, index] at read
    obtain ⟨rfl, rfl⟩ : _ = field ∧ _ = rest := by simpa using read
    exact ⟨rfl, zeros, rfl⟩
  | bytes value =>
    have kind : (number * 8 + 2) % 8 = 2 := by omega
    have index : (number * 8 + 2) / 8 = number := by omega
    simp only [Payload.encode, Payload.kind] at cut read
    by_cases within : kept < (varint value.length).length
    · rw [List.take_append_of_le_length within.le] at read
      simp only [parseField, parseVarint_cut within, kind, index] at read
      simp only [Option.bind_eq_bind, Option.bind_some, OfNat.ofNat_ne_zero, if_false] at read
      split at read
      · obtain ⟨rfl, rfl⟩ : _ = field ∧ _ = rest := by simpa using read
        exact ⟨rfl, _, rfl⟩
      · cases read
    · obtain ⟨more, rfl⟩ := Nat.exists_eq_add_of_le (not_lt.mp within)
      have few : (value.take more).length ≤ value.length := List.length_take_le' more value
      rw [List.take_append, List.take_of_length_le (by omega), Nat.add_sub_cancel_left,
        List.append_assoc] at read
      simp only [parseField, parseVarint_varint, kind, index] at read
      simp only [Option.bind_eq_bind, Option.bind_some, OfNat.ofNat_ne_zero, if_false] at read
      split at read
      · obtain ⟨rfl, rfl⟩ : _ = field ∧ _ = rest := by simpa using read
        refine ⟨rfl, zeros + 1 - (value.length - (value.take more).length), ?_⟩
        rw [List.drop_append, List.drop_eq_nil_of_le few, List.nil_append, ← List.replicate_succ,
          List.drop_replicate]
      · cases read

/-- Of one field that is cut, with zeros behind it, a field of its number is read at most. -/
theorem number_of_cut {field : Field} (short : field.Short) {kept : ℕ}
    (cut : kept < field.encode.length) (fuel zeros : ℕ) :
    ∀ read ∈ parseFields (fuel + 1) (field.encode.take kept ++ List.replicate (zeros + 1) 0),
      read.number = field.number := by
  intro read member
  have bounds : 0 < field.number ∧ field.number < 16 := short
  have kinds : field.payload.kind ≤ 2 := by cases field.payload <;> simp [Payload.kind]
  rcases kept with _ | kept
  · rw [List.take_zero, List.nil_append, parseFields_zeros] at member
    cases member
  rw [short.encode, List.length_cons] at cut
  rw [short.encode, List.take_succ_cons, List.cons_append, parseFields,
    parseVarint_single (by omega), List.replicate_succ] at member
  split at member
  · cases member
  · cases member
  · rename_i tag rest nonzero same
    obtain ⟨rfl, rfl⟩ := Prod.mk.inj (Option.some.inj same)
    split at member
    · cases member
    · rename_i first left parsed
      obtain ⟨number, zeros, rfl⟩ := parseField_cut (by omega) zeros parsed
      rw [parseFields_zeros, List.mem_singleton] at member
      rw [member, number]

/-- Of fields that are cut, with zeros behind them, only fields of their numbers are read. -/
theorem parseFields_cut {fields : List Field} (short : ∀ field ∈ fields, field.Short)
    (fuel kept zeros : ℕ) :
    ∀ read ∈ parseFields fuel ((encodeFields fields).take kept ++ List.replicate (zeros + 1) 0),
      ∃ field ∈ fields, read.number = field.number := by
  induction fields generalizing fuel kept with
  | nil =>
    intro read member
    rw [encodeFields, List.flatMap_nil, List.take_nil, List.nil_append, parseFields_zeros] at member
    cases member
  | cons field later ih =>
    intro read member
    have here := short field (List.mem_cons_self ..)
    have more := fun other among => short other (List.mem_cons_of_mem field among)
    cases fuel with
    | zero => cases member
    | succ fuel =>
    rw [encodeFields, List.flatMap_cons] at member
    by_cases whole : field.encode.length ≤ kept
    · obtain ⟨left, rfl⟩ := Nat.exists_eq_add_of_le whole
      rw [List.take_append, List.take_of_length_le (Nat.le_add_right _ _), Nat.add_sub_cancel_left,
        List.append_assoc, parseFields_encode field here.1, List.mem_cons] at member
      rcases member with rfl | member
      · exact ⟨_, List.mem_cons_self .., rfl⟩
      · obtain ⟨other, among, same⟩ := ih more fuel left read member
        exact ⟨other, List.mem_cons_of_mem field among, same⟩
    · refine ⟨field, List.mem_cons_self .., ?_⟩
      rw [List.take_append_of_le_length (by omega)] at member
      exact number_of_cut here (by omega) fuel zeros read member

/-- A field takes at least one byte, so a message has no more fields than bytes. -/
theorem length_le_encodeFields (fields : List Field) : fields.length ≤ (encodeFields fields).length := by
  induction fields with
  | nil => exact le_rfl
  | cons field rest ih =>
    have nonempty : 0 < field.encode.length := by
      apply List.length_pos_of_ne_nil
      unfold Field.encode
      split <;> simp [varint_ne_nil]
    rw [encodeFields, List.flatMap_cons, List.length_append, ← encodeFields, List.length_cons]
    omega

/-- Reading a whole message needs no fuel from the caller. -/
def parseMessage (input : Bytes) : List Field := parseFields input.length input

theorem parseMessage_encodeFields (fields : List Field)
    (positive : ∀ field ∈ fields, 0 < field.number) (tail : Bytes) (terminated : Terminated tail) :
    parseMessage (encodeFields fields ++ tail) = fields := by
  apply parseFields_encodeFields fields positive tail terminated
  have bound := length_le_encodeFields fields
  rw [List.length_append]
  omega

end DpcppTrace.Foundation.Wire
