import DpcppTrace.Model.GDBServerProtocol

/-! # Where the dispatcher sends a packet

A pattern matches a packet, with or without the acknowledgements around it, exactly as its body
pattern matches the packet's body, and with the same captures. The route of a packet and what most
handlers parse from it are therefore functions of its body.
-/

namespace DpcppTrace.Soundness

open Foundation Model Pattern

/-- The dispatcher only takes routes of its table, and only for packets of their pattern. -/
theorem findRoute_mem {packet : Bytes} {table : List (Pattern UInt8 × Route)} {found : Route}
    (routed : findRoute packet table = some found) :
    ∃ body, (body, found) ∈ table ∧ ((packetPattern body).fullMatch packet).isSome := by
  induction table with
  | nil => cases routed
  | cons entry table ih =>
    obtain ⟨body, candidate⟩ := entry
    rw [findRoute] at routed
    split at routed
    · rename_i fits
      obtain rfl := Option.some.inj routed
      exact ⟨body, List.mem_cons_self, fits⟩
    · obtain ⟨body, member, fits⟩ := ih routed
      exact ⟨body, List.mem_cons_of_mem _ member, fits⟩

/-- Only the lone acknowledgement is treated as one. -/
theorem eq_plus_of_route {packet : Bytes} (routed : route packet = .processAck) :
    packet = str "+" := by
  rw [route] at routed
  split at routed
  · rename_i found
    obtain ⟨body, member, -⟩ := findRoute_mem found
    simp [dispatchTable, routed] at member
  · split at routed
    · assumption
    · split at routed <;> cases routed

/-! ## Packets and their bodies -/

/-- A packet with these checksum digits, behind and in front of an acknowledgement or not. -/
def packetOf (lead trail : Bool) (body : Bytes) (high low : UInt8) : Bytes :=
  (if lead then [0x2b] else []) ++
    0x24 :: (body ++ 0x23 :: high :: low :: if trail then [0x2b] else [])

private theorem text_plus : text "+" = one (· == 0x2b) ++ nothing := rfl

private theorem text_dollar : text "$" = one (· == 0x24) ++ nothing := rfl

theorem text_hash : text "#" = one (· == 0x23) ++ nothing := rfl

theorem packetStart_go (lead : Bool) (rest : Bytes) (onward : Bytes → Option (List Bytes)) :
    packetStart.go ((if lead then [0x2b] else []) ++ 0x24 :: rest) onward = onward rest := by
  cases lead <;> simp [packetStart, text_plus, text_dollar, go]

/-- What may follow the body of a packet: the sum, and an acknowledgement or not. -/
def packetTrailer : Pattern UInt8 := packetEnd ++ optional (text "+")

/-- A trailer begins with `#` and takes three bytes, or four when the last is an acknowledgement. -/
theorem packetTrailer_some {rest : Bytes} {captures : List Bytes}
    (matched : packetTrailer.go rest atEnd = some captures) :
    rest.head? = some 0x23 ∧
      (rest.length = 3 ∨ (rest.length = 4 ∧ rest.getLast? = some 0x2b)) := by
  match rest with
  | [] => cases matched
  | [a] | [a, b] => simp [packetTrailer, packetEnd, text_hash, go] at matched
  | [a, b, c] =>
    simp only [packetTrailer, packetEnd, text_hash, go_append, go_one_cons] at matched
    split at matched
    · simp_all
    · cases matched
  | [a, b, c, d] =>
    simp only [packetTrailer, packetEnd, text_hash, text_plus, go, go_append] at matched
    split at matched
    · rename_i hash
      split at matched
      · split at matched
        · simp_all [atEnd]
        · cases matched
      · cases matched
    · cases matched
  | a :: b :: c :: d :: e :: rest =>
    simp [packetTrailer, packetEnd, text_hash, text_plus, go, atEnd] at matched

theorem plain_of_anyHex {c : UInt8} (digit : anyHex c = true) : c ≠ 0x23 ∧ c ≠ 0x2b := by
  constructor <;> rintro rfl <;> exact absurd digit (by decide)

section Trailer

variable {high low : UInt8}

private theorem packetTrailer_go (highDigit : anyHex high = true) (lowDigit : anyHex low = true)
    (trail : Bool) :
    packetTrailer.go (0x23 :: high :: low :: if trail then [0x2b] else []) atEnd = some [] := by
  cases trail <;>
    simp [packetTrailer, packetEnd, text_hash, text_plus, go, atEnd, highDigit, lowDigit]

/-- No match of a trailer starts in front of the packet's own. -/
theorem packetTrailer_longer (lowDigit : anyHex low = true) (trail : Bool) (c : UInt8)
    (rest : Bytes) :
    packetTrailer.go (c :: rest ++ 0x23 :: high :: low :: if trail then [0x2b] else []) atEnd =
      none := by
  by_contra matched
  obtain ⟨captures, matched⟩ := Option.ne_none_iff_exists'.mp matched
  obtain ⟨-, three | ⟨four, last⟩⟩ := packetTrailer_some matched
  · simp at three
    omega
  · cases trail with
    | false =>
      rw [List.getLast?_append] at last
      exact (plain_of_anyHex lowDigit).2 (by simpa using last)
    | true => simp at four

/-- No match of a trailer starts behind the packet's own. -/
theorem packetTrailer_short (highDigit : anyHex high = true) (trail : Bool) {rest : Bytes}
    (suffix : rest <:+ 0x23 :: high :: low :: if trail then [0x2b] else [])
    (shorter : rest.length < (0x23 :: high :: low :: if trail then [0x2b] else []).length) :
    packetTrailer.go rest atEnd = none := by
  by_contra matched
  obtain ⟨captures, matched⟩ := Option.ne_none_iff_exists'.mp matched
  obtain ⟨hash, width⟩ := packetTrailer_some matched
  have inside : rest <:+ high :: low :: if trail then [0x2b] else [] := by
    rcases List.suffix_cons_iff.mp suffix with rfl | inside
    · exact absurd shorter (lt_irrefl _)
    · exact inside
  rcases List.suffix_cons_iff.mp inside with rfl | inside
  · exact (plain_of_anyHex highDigit).1 (Option.some.inj hash)
  · have := inside.length_le
    cases trail <;> simp at this <;> omega

/-- A pattern matches a packet, whatever is around it, as its body pattern matches the body. -/
theorem fullMatch_packetOf (highDigit : anyHex high = true) (lowDigit : anyHex low = true)
    (pattern : Pattern UInt8) (lead trail : Bool) (body : Bytes) :
    (packetPattern pattern).fullMatch (packetOf lead trail body high low) =
      pattern.fullMatch body := by
  have step : (packetPattern pattern).fullMatch (packetOf lead trail body high low) =
      pattern.go (body ++ 0x23 :: high :: low :: if trail then [0x2b] else [])
        fun rest => packetTrailer.go rest atEnd := by
    rw [fullMatch, packetPattern, go_append, packetOf, packetStart_go]
    rfl
  rw [step]
  exact go_eq_fullMatch pattern (packetTrailer_go highDigit lowDigit trail)
    (packetTrailer_longer lowDigit trail) fun rest => packetTrailer_short highDigit trail

private theorem findRoute_packetOf (highDigit : anyHex high = true) (lowDigit : anyHex low = true)
    (lead trail : Bool) (body : Bytes) (table : List (Pattern UInt8 × Route)) :
    findRoute (packetOf lead trail body high low) table =
      (table.find? fun entry => (entry.1.fullMatch body).isSome).map (·.2) := by
  induction table with
  | nil => rfl
  | cons entry table ih =>
    obtain ⟨pattern, route⟩ := entry
    rw [findRoute, fullMatch_packetOf highDigit lowDigit, ih, List.find?_cons]
    split <;> simp_all

/-- The route of the packets with this body. -/
def bodyRoute (body : Bytes) : Route :=
  match (dispatchTable.find? fun entry => (entry.1.fullMatch body).isSome) with
  | some entry => entry.2
  | none => if ((text "k").fullMatch body).isSome then .stop else .processUnsupported

private theorem packetOf_ne_plus (lead trail : Bool) (body : Bytes) :
    packetOf lead trail body high low ≠ str "+" := by
  intro same
  have width := congrArg List.length same
  cases lead <;> simp [packetOf, str] at width

/-- The dispatcher looks at the body of a packet only. -/
theorem route_packetOf (highDigit : anyHex high = true) (lowDigit : anyHex low = true)
    (lead trail : Bool) (body : Bytes) :
    route (packetOf lead trail body high low) = bodyRoute body := by
  rw [route, findRoute_packetOf highDigit lowDigit, bodyRoute]
  cases dispatchTable.find? fun entry => (entry.1.fullMatch body).isSome with
  | some entry => rfl
  | none =>
    simp only [Option.map_none, if_neg (packetOf_ne_plus lead trail body),
      fullMatch_packetOf highDigit lowDigit]

end Trailer

private theorem packetStart_matches {front : Bytes} {captures : List Bytes}
    (fits : packetStart.Matches front captures) :
    ∃ lead : Bool, front = (if lead then [0x2b] else []) ++ [0x24] := by
  obtain ⟨mark, dollar, _, _, rfl, before, dollars, -⟩ := matches_append.mp fits
  obtain ⟨rfl, -⟩ := matches_literal.mp dollars
  rcases before with plus | ⟨rfl, -⟩
  · obtain ⟨rfl, -⟩ := matches_literal.mp plus
    exact ⟨true, by decide⟩
  · exact ⟨false, by decide⟩

private theorem packetTrailer_matches {rest : Bytes} {captures : List Bytes}
    (fits : packetTrailer.Matches rest captures) :
    ∃ trail : Bool, ∃ high low, anyHex high = true ∧ anyHex low = true ∧
      rest = 0x23 :: high :: low :: if trail then [0x2b] else [] := by
  obtain ⟨_, mark, _, _, rfl, ended, behind, -⟩ := matches_append.mp fits
  obtain ⟨hash, digits, _, _, rfl, hashes, sum, -⟩ := matches_append.mp ended
  obtain ⟨rfl, -⟩ := matches_literal.mp hashes
  obtain ⟨_, _, _, _, rfl, ⟨⟨high, highDigit, rfl⟩, -⟩, ⟨⟨low, lowDigit, rfl⟩, -⟩, -⟩ :=
    matches_append.mp sum
  have hash : str "#" = [0x23] := by decide
  rw [hash]
  rcases behind with plus | ⟨rfl, -⟩
  · obtain ⟨rfl, -⟩ := matches_literal.mp plus
    exact ⟨true, high, low, highDigit, lowDigit, rfl⟩
  · exact ⟨false, high, low, highDigit, lowDigit, rfl⟩

/-- What a pattern of packets matches is a packet. -/
theorem packetOf_of_fullMatch {pattern : Pattern UInt8} {packet : Bytes}
    (matched : ((packetPattern pattern).fullMatch packet).isSome) :
    ∃ lead trail body high low, anyHex high = true ∧ anyHex low = true ∧
      packet = packetOf lead trail body high low := by
  obtain ⟨captures, fits⟩ := isSome_fullMatch_iff.mp matched
  obtain ⟨_, _, _, _, rfl, start, inner, -⟩ := matches_append.mp fits
  obtain ⟨body, _, _, _, rfl, -, ended, -⟩ := matches_append.mp inner
  obtain ⟨lead, rfl⟩ := packetStart_matches start
  obtain ⟨trail, high, low, highDigit, lowDigit, rfl⟩ := packetTrailer_matches ended
  exact ⟨lead, trail, body, high, low, highDigit, lowDigit, by simp [packetOf]⟩

/-- Every packet that is supported, apart from the lone acknowledgement, has a body. -/
theorem packetOf_of_route {packet : Bytes} (supported : route packet ≠ .processUnsupported)
    (packetLike : packet ≠ str "+") :
    ∃ lead trail body high low, anyHex high = true ∧ anyHex low = true ∧
      packet = packetOf lead trail body high low := by
  rw [route] at supported
  split at supported
  · rename_i found
    obtain ⟨body, -, matched⟩ := findRoute_mem found
    exact packetOf_of_fullMatch matched
  · rw [if_neg packetLike] at supported
    split at supported
    · rename_i matched
      exact packetOf_of_fullMatch matched
    · exact absurd rfl supported

/-- The text between the first `$` and the last `#`. -/
def bodyOf (packet : Bytes) : Bytes :=
  ((packet.dropWhile (· ≠ 0x24)).tail.reverse.dropWhile (· ≠ 0x23)).tail.reverse

theorem bodyOf_packetOf {high low : UInt8} (highDigit : anyHex high = true)
    (lowDigit : anyHex low = true) (lead trail : Bool) (body : Bytes) :
    bodyOf (packetOf lead trail body high low) = body := by
  have highPlain := (plain_of_anyHex highDigit).1
  have lowPlain := (plain_of_anyHex lowDigit).1
  cases lead <;> cases trail <;>
    simp [bodyOf, packetOf, highPlain, lowPlain]

/-- The table entry that a body is routed by. -/
theorem bodyRoute_mem {body : Bytes} {found : Route} (routed : bodyRoute body = found)
    (supported : found ≠ .stop ∧ found ≠ .processUnsupported) :
    ∃ pattern captures, (pattern, found) ∈ dispatchTable ∧ pattern.Matches body captures := by
  rw [bodyRoute] at routed
  split at routed
  · rename_i entry located
    have matched := List.find?_some located
    obtain ⟨captures, fits⟩ := isSome_fullMatch_iff.mp matched
    exact ⟨entry.1, captures, routed ▸ List.mem_of_find?_eq_some located, fits⟩
  · split at routed
    · exact absurd routed.symm supported.1
    · exact absurd routed.symm supported.2

/-- Every packet that is supported, apart from the lone acknowledgement, ends in a trailer. -/
theorem trailer_of_route {packet : Bytes} (supported : route packet ≠ .processUnsupported)
    (packetLike : packet ≠ str "+") :
    ∃ front high low, ∃ trail : Bool,
      packet = front ++ 0x23 :: high :: low :: if trail then [0x2b] else [] := by
  obtain ⟨lead, trail, body, high, low, -, -, rfl⟩ := packetOf_of_route supported packetLike
  exact ⟨(if lead then [0x2b] else []) ++ 0x24 :: body, high, low, trail, by simp [packetOf]⟩

/-! ## Parts of a body -/

/-- One or more digits of a class. -/
structure Numeral (accepts : UInt8 → Bool) (text : Bytes) : Prop where
  nonempty : text ≠ []
  digits : ∀ c ∈ text, accepts c = true

theorem Numeral.of_all {accepts : UInt8 → Bool} {text : Bytes} (nonempty : text ≠ [])
    (digits : text.all accepts = true) : Numeral accepts text :=
  ⟨nonempty, List.all_eq_true.mp digits⟩

theorem Numeral.comma_notMem {accepts : UInt8 → Bool} {digits : Bytes}
    (numeral : Numeral accepts digits) (refused : accepts 0x2c = false) : 0x2c ∉ digits :=
  fun mem => Bool.false_ne_true (refused.symm.trans (numeral.digits _ mem))

/-- What stands in front of a separator is determined by it. -/
theorem eq_of_separated {α : Type} [DecidableEq α] {separator : α} {first second rest other : List α}
    (plain : separator ∉ first) (otherPlain : separator ∉ second)
    (same : first ++ separator :: rest = second ++ separator :: other) :
    first = second ∧ rest = other := by
  have front (digits left : List α) (absent : separator ∉ digits) :
      (digits ++ separator :: left).takeWhile (· ≠ separator) = digits := by
    rw [List.takeWhile_append_of_pos]
    · simp
    · exact fun c mem => decide_eq_true fun here => absent (here ▸ mem)
  have fronts := congrArg (List.takeWhile (· ≠ separator)) same
  rw [front first rest plain, front second other otherPlain] at fronts
  subst fronts
  exact ⟨rfl, (List.cons.inj (List.append_cancel_left same)).2⟩

theorem matches_text {literal : String} {front : Bytes} {captures : List Bytes} :
    (text literal).Matches front captures ↔ front = str literal ∧ captures = [] := matches_literal

theorem matches_number {digits : Bytes} {captures : List Bytes} :
    number.Matches digits captures ↔ Numeral lowerHex digits ∧ captures = [digits] := by
  constructor
  · rintro ⟨_, ⟨⟨nonempty, hex⟩, rfl⟩, rfl⟩
    exact ⟨⟨nonempty, hex⟩, rfl⟩
  · rintro ⟨numeral, rfl⟩
    exact ⟨[], ⟨⟨numeral.nonempty, numeral.digits⟩, rfl⟩, rfl⟩

theorem matches_text_append {literal : String} {second : Pattern UInt8} {body : Bytes}
    {captures : List Bytes} : (text literal ++ second).Matches body captures ↔
      ∃ rest, body = str literal ++ rest ∧ second.Matches rest captures := by
  rw [matches_append]
  constructor
  · rintro ⟨_, rest, _, _, rfl, literal, fits, rfl⟩
    obtain ⟨rfl, rfl⟩ := matches_text.mp literal
    exact ⟨rest, rfl, fits⟩
  · rintro ⟨rest, rfl, fits⟩
    exact ⟨_, rest, [], captures, rfl, matches_text.mpr ⟨rfl, rfl⟩, fits, rfl⟩

theorem matches_number_append {second : Pattern UInt8} {body : Bytes} {captures : List Bytes} :
    (number ++ second).Matches body captures ↔ ∃ digits rest later, body = digits ++ rest ∧
      Numeral lowerHex digits ∧ second.Matches rest later ∧ captures = digits :: later := by
  rw [matches_append]
  constructor
  · rintro ⟨digits, rest, _, later, rfl, first, fits, rfl⟩
    obtain ⟨numeral, rfl⟩ := matches_number.mp first
    exact ⟨digits, rest, later, rfl, numeral, fits, rfl⟩
  · rintro ⟨digits, rest, later, rfl, numeral, fits, rfl⟩
    exact ⟨digits, rest, [digits], later, rfl, matches_number.mpr ⟨numeral, rfl⟩, fits, rfl⟩

/-- Two numbers with a comma between them. -/
theorem matches_numbers {body : Bytes} {captures : List Bytes} :
    (number ++ (text "," ++ number)).Matches body captures ↔ ∃ first second,
      body = first ++ 0x2c :: second ∧ Numeral lowerHex first ∧ Numeral lowerHex second ∧
        captures = [first, second] := by
  have comma : str "," = [0x2c] := by decide
  simp only [matches_number_append, matches_text_append, matches_number, comma]
  constructor
  · rintro ⟨first, _, _, rfl, numeral, ⟨second, rfl, last, rfl⟩, rfl⟩
    exact ⟨first, second, rfl, numeral, last, rfl⟩
  · rintro ⟨first, second, rfl, numeral, last, rfl⟩
    exact ⟨first, _, [second], rfl, numeral, ⟨second, rfl, last, rfl⟩, rfl⟩

/-- A number in front of something that is no digit is captured whole. -/
theorem number_go {digits rest : Bytes} {onward : Bytes → Option (List Bytes)}
    (hex : ∀ c ∈ digits, lowerHex c = true) (nonempty : digits ≠ [])
    (stops : ∀ c ∈ rest.head?, lowerHex c = false)
    (inside : ∀ c left, lowerHex c = true → onward (c :: left) = none) :
    number.go (digits ++ rest) onward = (onward rest).map (digits :: ·) := by
  have whole : (digits ++ rest).take ((digits ++ rest).length - rest.length) = digits := by
    simp
  rw [number, go, go, goMany_run hex nonempty stops]
  · rw [whole]
  · intro c left digit
    rw [inside c left digit, Option.map_none]

/-- Two numbers at the end of a body are captured. -/
theorem numbers_go {first second : Bytes} (firstHex : ∀ c ∈ first, lowerHex c = true)
    (firstNonempty : first ≠ []) (secondHex : ∀ c ∈ second, lowerHex c = true)
    (secondNonempty : second ≠ []) :
    (number ++ (text "," ++ number)).go (first ++ (str "," ++ second)) atEnd =
      some [first, second] := by
  have comma : str "," = [0x2c] := by decide
  have separator : text "," = one (· == 0x2c) ++ nothing := rfl
  have last : number.go second atEnd = some [second] := by
    have stops : ∀ c ∈ ([] : Bytes).head?, lowerHex c = false := nofun
    have whole := number_go secondHex secondNonempty stops
      fun c left _ => (rfl : atEnd (c :: left) = none)
    rwa [List.append_nil] at whole
  rw [go_append, number_go firstHex firstNonempty]
  · simp [comma, separator, go, last]
  · simp [comma, lowerHex, digit]
  · intro c left hex
    have differs : c ≠ 0x2c := by
      rintro rfl
      exact absurd hex (by decide)
    simp [separator, go, differs]

/-- Anything may follow the name of a command. -/
theorem many_anyChar_go {rest : Bytes} (nonempty : rest ≠ []) :
    (many anyChar).go rest atEnd = some [] := by
  induction rest with
  | nil => exact absurd rfl nonempty
  | cons c rest ih =>
    cases rest with
    | nil => rfl
    | cons d rest =>
      have longer : goMany anyChar (d :: rest) atEnd = some [] := ih (List.cons_ne_nil _ _)
      change (goMany anyChar (d :: rest) atEnd).or (atEnd (d :: rest)) = some []
      rw [longer, Option.some_or]

/-- The route of a command that anything may follow, when no entry in front of its own matches. -/
theorem bodyRoute_command (command : String) (count : ℕ) {rest : Bytes} (nonempty : rest ≠ [])
    {target : Route} {later : List (Pattern UInt8 × Route)}
    (entry : dispatchTable.drop count = (text command ++ many anyChar, target) :: later)
    (skipped :
      dispatchTable.find? (fun entry => (entry.1.fullMatch (str command ++ rest)).isSome) =
        (dispatchTable.drop count).find?
          fun entry => (entry.1.fullMatch (str command ++ rest)).isSome) :
    bodyRoute (str command ++ rest) = target := by
  have fits : ((text command ++ many anyChar).fullMatch (str command ++ rest)).isSome = true := by
    rw [fullMatch, go_append, text, go_literal_self, many_anyChar_go nonempty]
    rfl
  rw [bodyRoute, skipped, entry, List.find?_cons]
  simp only [fits]

end DpcppTrace.Soundness
