import DpcppTrace.Model.HostDebugger
import DpcppTrace.Soundness.ReplyFrame

/-! # Breakpoints over a history of packets

The debugger's table follows the packets: an address is in it exactly if the last packet that is taken
for it inserted a breakpoint. The target does not: a second insertion creates a second breakpoint and
overwrites the table's entry, so that the removal that follows leaves the first one behind. Nor is a
packet always taken for the address that it names: a numeral of more than sixteen digits is taken for
the largest one.
-/

namespace DpcppTrace.Soundness

open Foundation Model Pattern

/-! ## The packets -/

/-- A `Z0` or a `z0` packet, with the digits of its address and its kind. -/
structure BreakpointPacket where
  inserts : Bool
  addrHex : Bytes
  kindHex : Bytes
  lead : Bool
  trail : Bool
  high : UInt8
  low : UInt8
  addrDigits : ∀ c ∈ addrHex, lowerHex c = true
  addrNonempty : addrHex ≠ []
  kindDigits : ∀ c ∈ kindHex, lowerHex c = true
  kindNonempty : kindHex ≠ []
  highDigit : anyHex high = true
  lowDigit : anyHex low = true

namespace BreakpointPacket

/-- The address that the packet names: the value of its numeral. -/
def address (packet : BreakpointPacket) : ℕ := hexValue packet.addrHex

/-- The address that the handlers take it for. -/
def taken (packet : BreakpointPacket) : UInt64 := parseUInt64 packet.addrHex

def command (packet : BreakpointPacket) : String := if packet.inserts then "Z0," else "z0,"

def body (packet : BreakpointPacket) : Bytes :=
  str packet.command ++ (packet.addrHex ++ (str "," ++ packet.kindHex))

def bytes (packet : BreakpointPacket) : Bytes :=
  packetOf packet.lead packet.trail packet.body packet.high packet.low

/-- What the packet asks of the debugger. -/
def request (packet : BreakpointPacket) : Request :=
  if packet.inserts then .createSoftwareBreakpoint packet.taken
  else .removeSoftwareBreakpoint packet.taken

private theorem body_fullMatch (packet : BreakpointPacket) :
    (text packet.command ++ (number ++ (text "," ++ number))).fullMatch packet.body =
      some [packet.addrHex, packet.kindHex] := by
  rw [fullMatch, body, go_append, text, go_literal_self]
  exact numbers_go packet.addrDigits packet.addrNonempty packet.kindDigits packet.kindNonempty

private theorem route_bytes (packet : BreakpointPacket) :
    route packet.bytes = if packet.inserts then .process_Z else .process_z := by
  have nonempty : str "0," ++ (packet.addrHex ++ (str "," ++ packet.kindHex)) ≠ [] :=
    List.cons_ne_nil _ _
  rw [bytes, route_packetOf packet.highDigit packet.lowDigit, body, command]
  cases packet.inserts with
  | true => exact bodyRoute_command "Z" 15 nonempty rfl rfl
  | false => exact bodyRoute_command "z" 14 nonempty rfl rfl

end BreakpointPacket

section Histories

variable {τ ι : Type} [DecidableEq ι] {lldb : LLDBTarget τ ι}
  {others : Environment Request.Answer (HostDebugger τ ι)}

/-- What a packet does to the debugger. -/
def BreakpointPacket.apply (lldb : LLDBTarget τ ι) (debugger : HostDebugger τ ι)
    (packet : BreakpointPacket) : HostDebugger τ ι :=
  if packet.inserts then debugger.createSoftwareBreakpoint lldb packet.taken
  else debugger.removeSoftwareBreakpoint lldb packet.taken

/-- A packet is answered `OK`, and the debugger does what it asks. -/
theorem processPacket_bytes (packet : BreakpointPacket) (after : UInt8)
    (protocol : GDBServerProtocol) (debugger : HostDebugger τ ι) :
    (processPacket packet.bytes after protocol).run (HostDebugger.environment lldb others) debugger =
      ⟨[packet.request], packet.apply lldb debugger,
        some (createResponse (str "OK") protocol.mAck, protocol)⟩ := by
  have captured : (breakpointPattern packet.command).fullMatch packet.bytes =
      some [packet.addrHex, packet.kindHex] := by
    rw [breakpointPattern, BreakpointPacket.bytes,
      fullMatch_packetOf packet.highDigit packet.lowDigit]
    exact packet.body_fullMatch
  have handler (action : UInt64 → Request) : processBreakpoint packet.command action packet.bytes =
      (do let _ ← ask (action packet.taken)
          respond (str "OK")) := by
    rw [processBreakpoint, captured]
    rfl
  rw [processPacket, packet.route_bytes]
  rcases kind : packet.inserts with _ | _
  · have command : packet.command = "z0," := by simp [BreakpointPacket.command, kind]
    have removes := handler .removeSoftwareBreakpoint
    rw [command] at removes
    simp only [process_z, removes, BreakpointPacket.request, BreakpointPacket.apply, kind]
    rfl
  · have command : packet.command = "Z0," := by simp [BreakpointPacket.command, kind]
    have creates := handler .createSoftwareBreakpoint
    rw [command] at creates
    simp only [process_Z, creates, BreakpointPacket.request, BreakpointPacket.apply, kind]
    rfl

/-- The server loop applies the packets one after another. -/
theorem run_breakpoints (packets : List BreakpointPacket) (buf : Memory)
    {protocol : GDBServerProtocol} (running : protocol.mRunning = true)
    (debugger : HostDebugger τ ι) :
    (DebugServer.run (HostDebugger.environment lldb others) (packets.map (·.bytes)) buf protocol
      debugger).environment = packets.foldl (BreakpointPacket.apply lldb) debugger := by
  induction packets generalizing buf debugger with
  | nil => rfl
  | cons packet packets ih =>
    rw [List.map_cons, List.foldl_cons, DebugServer.run]
    simp only [processPacket_bytes, running, if_true]
    exact ih _ _

end Histories

/-! ## What a history says of an address -/

section Naming

variable {α : Type} [DecidableEq α] (key : BreakpointPacket → α)

/-- The packets of a history that are for an address: whether each inserted or removed. -/
def naming (history : List BreakpointPacket) (address : α) : List Bool :=
  (history.filter fun packet => key packet = address).map (·.inserts)

/-- The last packet for the address inserted a breakpoint. -/
def LastInserts (history : List BreakpointPacket) (address : α) : Prop :=
  (naming key history address).getLast? = some true

/-- The last two packets for the address both inserted a breakpoint. -/
def InsertedTwice (history : List BreakpointPacket) (address : α) : Prop :=
  [true, true] <:+ naming key history address

variable {key} {history : List BreakpointPacket} {packet : BreakpointPacket} {address : α}

private theorem naming_concat_self (history : List BreakpointPacket) (packet : BreakpointPacket) :
    naming key (history ++ [packet]) (key packet) =
      naming key history (key packet) ++ [packet.inserts] := by
  simp [naming]

private theorem naming_concat_other (other : address ≠ key packet) :
    naming key (history ++ [packet]) address = naming key history address := by
  simp [naming, other.symm]

private theorem lastInserts_concat_self :
    LastInserts key (history ++ [packet]) (key packet) ↔ packet.inserts = true := by
  rw [LastInserts, naming_concat_self, List.getLast?_concat, Option.some_inj]

private theorem lastInserts_concat_other (other : address ≠ key packet) :
    LastInserts key (history ++ [packet]) address ↔ LastInserts key history address := by
  rw [LastInserts, naming_concat_other other, LastInserts]

private theorem insertedTwice_concat_self :
    InsertedTwice key (history ++ [packet]) (key packet) ↔
      LastInserts key history (key packet) ∧ packet.inserts = true := by
  rw [InsertedTwice, naming_concat_self, LastInserts]
  constructor
  · rintro ⟨front, same⟩
    have split : (front ++ [true]) ++ [true] =
        naming key history (key packet) ++ [packet.inserts] := by
      rw [← same, List.append_assoc]
      rfl
    obtain ⟨earlier, inserts⟩ := List.append_inj' split rfl
    rw [← earlier, List.getLast?_concat]
    exact ⟨rfl, (List.cons.inj inserts).1.symm⟩
  · rintro ⟨last, inserts⟩
    obtain ⟨front, same⟩ := List.getLast?_eq_some_iff.mp last
    exact ⟨front, by rw [same, inserts, List.append_assoc]; rfl⟩

private theorem insertedTwice_concat_other (other : address ≠ key packet) :
    InsertedTwice key (history ++ [packet]) address ↔ InsertedTwice key history address := by
  rw [InsertedTwice, naming_concat_other other, InsertedTwice]

theorem InsertedTwice.lastInserts (twice : InsertedTwice key history address) :
    LastInserts key history address := by
  obtain ⟨front, same⟩ := twice
  rw [LastInserts, ← same, List.getLast?_append]
  rfl

end Naming

/-! ## The table and the active breakpoints -/

section Invariants

variable {ι : Type} {history : List BreakpointPacket} {packet : BreakpointPacket}
  {active : ι → Option UInt64} {table : UInt64 → Option ι}

/-- What holds after every history: an entry of the table is active at its address, the table
follows the history, and of two insertions in a row the first is active outside the table. -/
structure FollowsPackets (history : List BreakpointPacket) (active : ι → Option UInt64)
    (table : UInt64 → Option ι) : Prop where
  listed : ∀ {address id}, table address = some id → active id = some address
  tabled : ∀ address, table address ≠ none ↔ LastInserts (·.taken) history address
  doubled : ∀ {address}, InsertedTwice (·.taken) history address →
    ∃ id, active id = some address ∧ table address ≠ some id

/-- Nothing is active outside the table but what was inserted twice. -/
def Exact (history : List BreakpointPacket) (active : ι → Option UInt64)
    (table : UInt64 → Option ι) : Prop :=
  ∀ {address id}, active id = some address → table address = some id ∨ InsertedTwice (·.taken) history address

/-- Without an entry there is nothing to remove. -/
theorem FollowsPackets.skip (follows : FollowsPackets history active table)
    (removes : packet.inserts = false) (missing : table packet.taken = none) :
    FollowsPackets (history ++ [packet]) active table where
  listed := follows.listed
  tabled address := by
    rcases eq_or_ne address packet.taken with rfl | elsewhere
    · simp [lastInserts_concat_self, removes, missing]
    · rw [lastInserts_concat_other elsewhere, follows.tabled]
  doubled {address} twice := by
    rcases eq_or_ne address packet.taken with rfl | elsewhere
    · rw [insertedTwice_concat_self, removes] at twice
      exact absurd twice.2 Bool.false_ne_true
    · exact follows.doubled ((insertedTwice_concat_other elsewhere).mp twice)

theorem Exact.skip (exact_ : Exact history active table) (missing : table packet.taken = none)
    (once : ¬InsertedTwice (·.taken) history packet.taken) : Exact (history ++ [packet]) active table := by
  intro address other here
  rcases eq_or_ne address packet.taken with rfl | elsewhere
  · rcases exact_ here with found | twice
    · exact absurd (missing.symm.trans found) nofun
    · exact absurd twice once
  · rw [insertedTwice_concat_other elsewhere]
    exact exact_ here

variable [DecidableEq ι] {id : ι}

/-- A fresh breakpoint takes the place of the entry in the table. -/
theorem FollowsPackets.insert (follows : FollowsPackets history active table)
    (inserts : packet.inserts = true)
    (fresh : active id = none) :
    FollowsPackets (history ++ [packet]) (Function.update active id (some packet.taken))
      (Function.update table packet.taken (some id)) where
  listed {address other} entry := by
    rcases eq_or_ne address packet.taken with rfl | elsewhere
    · rw [Function.update_self] at entry
      rw [← Option.some.inj entry, Function.update_self]
    · rw [Function.update_of_ne elsewhere] at entry
      have listed := follows.listed entry
      have distinct : other ≠ id := by
        rintro rfl
        exact absurd (fresh.symm.trans listed) nofun
      rw [Function.update_of_ne distinct, listed]
  tabled address := by
    rcases eq_or_ne address packet.taken with rfl | elsewhere
    · simp [lastInserts_concat_self, inserts]
    · rw [Function.update_of_ne elsewhere, lastInserts_concat_other elsewhere, follows.tabled]
  doubled {address} twice := by
    rcases eq_or_ne address packet.taken with rfl | elsewhere
    · have last := (insertedTwice_concat_self.mp twice).1
      obtain ⟨old, entry⟩ := Option.ne_none_iff_exists'.mp ((follows.tabled _).mpr last)
      have listed := follows.listed entry
      have distinct : old ≠ id := by
        rintro rfl
        exact absurd (fresh.symm.trans listed) nofun
      refine ⟨old, ?_, ?_⟩
      · rw [Function.update_of_ne distinct, listed]
      · rw [Function.update_self]
        exact fun same => distinct (Option.some.inj same).symm
    · rw [insertedTwice_concat_other elsewhere] at twice
      obtain ⟨other, here, missing⟩ := follows.doubled twice
      have distinct : other ≠ id := by
        rintro rfl
        exact absurd (fresh.symm.trans here) nofun
      exact ⟨other, by rw [Function.update_of_ne distinct, here],
        by rwa [Function.update_of_ne elsewhere]⟩

/-- The entry of the table goes, and with it its breakpoint. -/
theorem FollowsPackets.remove (follows : FollowsPackets history active table)
    (removes : packet.inserts = false)
    (entry : table packet.taken = some id) :
    FollowsPackets (history ++ [packet]) (Function.update active id none)
      (Function.update table packet.taken none) where
  listed {address other} found := by
    rcases eq_or_ne address packet.taken with rfl | elsewhere
    · rw [Function.update_self] at found
      cases found
    · rw [Function.update_of_ne elsewhere] at found
      have distinct : other ≠ id := by
        rintro rfl
        have same := (follows.listed found).symm.trans (follows.listed entry)
        exact elsewhere (Option.some.inj same)
      rw [Function.update_of_ne distinct, follows.listed found]
  tabled address := by
    rcases eq_or_ne address packet.taken with rfl | elsewhere
    · simp [lastInserts_concat_self, removes]
    · rw [Function.update_of_ne elsewhere, lastInserts_concat_other elsewhere, follows.tabled]
  doubled {address} twice := by
    rcases eq_or_ne address packet.taken with rfl | elsewhere
    · rw [insertedTwice_concat_self, removes] at twice
      exact absurd twice.2 Bool.false_ne_true
    · rw [insertedTwice_concat_other elsewhere] at twice
      obtain ⟨other, here, missing⟩ := follows.doubled twice
      have distinct : other ≠ id := by
        rintro rfl
        exact elsewhere (Option.some.inj (here.symm.trans (follows.listed entry)))
      exact ⟨other, by rw [Function.update_of_ne distinct, here],
        by rwa [Function.update_of_ne elsewhere]⟩

theorem Exact.insert (exact_ : Exact history active table)
    (follows : FollowsPackets history active table)
    (inserts : packet.inserts = true) :
    Exact (history ++ [packet]) (Function.update active id (some packet.taken))
      (Function.update table packet.taken (some id)) := by
  intro address other here
  rcases eq_or_ne other id with rfl | distinct
  · rw [Function.update_self] at here
    rw [← Option.some.inj here, Function.update_self]
    exact .inl rfl
  · rw [Function.update_of_ne distinct] at here
    rcases eq_or_ne address packet.taken with rfl | elsewhere
    · refine .inr (insertedTwice_concat_self.mpr ⟨?_, inserts⟩)
      rcases exact_ here with entry | twice
      · exact (follows.tabled _).mp (by rw [entry]; exact Option.some_ne_none other)
      · exact twice.lastInserts
    · rw [Function.update_of_ne elsewhere, insertedTwice_concat_other elsewhere]
      exact exact_ here

/-- Removing what was inserted once leaves nothing behind. -/
theorem Exact.remove (exact_ : Exact history active table) (entry : table packet.taken = some id)
    (once : ¬InsertedTwice (·.taken) history packet.taken) :
    Exact (history ++ [packet]) (Function.update active id none)
      (Function.update table packet.taken none) := by
  intro address other here
  have distinct : other ≠ id := by
    rintro rfl
    rw [Function.update_self] at here
    cases here
  rw [Function.update_of_ne distinct] at here
  rcases eq_or_ne address packet.taken with rfl | elsewhere
  · rcases exact_ here with found | twice
    · exact absurd (Option.some.inj (found.symm.trans entry)) distinct
    · exact absurd twice once
  · rw [Function.update_of_ne elsewhere, insertedTwice_concat_other elsewhere]
    exact exact_ here

end Invariants

/-! ## What a packet is taken for -/

namespace BreakpointPacket

/-- The address that a packet counts for: a numeral of more than sixteen digits counts for the largest
one. -/
def counted (packet : BreakpointPacket) : ℕ :=
  if packet.addrHex.length ≤ 16 then packet.address else 2 ^ 64 - 1

private theorem taken_toNat (packet : BreakpointPacket) : packet.taken.toNat = packet.counted := by
  rw [taken, parseUInt64_toNat packet.addrDigits, counted, address]

private theorem counted_of_misread {packet : BreakpointPacket} (misread : packet.counted ≠ packet.address) :
    packet.counted = 2 ^ 64 - 1 := by
  rw [counted] at misread ⊢
  split_ifs at misread ⊢
  · exact absurd rfl misread
  · rfl

end BreakpointPacket

/-- No packet removes what was inserted twice. -/
def RemovesOnce (packets : List BreakpointPacket) : Prop :=
  ∀ before packet after, packets = before ++ packet :: after → packet.inserts = false →
    ¬InsertedTwice (·.counted) before packet.counted

/-- If the packet counts for another address than it names, then both are already as it asks for. -/
def Reinserts (before : List BreakpointPacket) (packet : BreakpointPacket) : Prop :=
  packet.counted ≠ packet.address →
    (packet.address < 2 ^ 64 →
      (LastInserts (·.address) before packet.address ↔ packet.inserts = true)) ∧
    (LastInserts (·.address) before (2 ^ 64 - 1) ↔ packet.inserts = true)

def MisreadsRepeat (packets : List BreakpointPacket) : Prop :=
  ∀ before packet after, packets = before ++ packet :: after → Reinserts before packet

/-- For each address, the last packet that is taken for it and the last that names it insert or
remove alike. -/
def Agrees (history : List BreakpointPacket) : Prop :=
  ∀ address : UInt64, LastInserts (·.taken) history address ↔
    LastInserts (·.address) history address.toNat

section Readings

variable {history : List BreakpointPacket} {packet : BreakpointPacket}

private theorem insertedTwice_counted :
    InsertedTwice (·.counted) history packet.counted ↔ InsertedTwice (·.taken) history packet.taken := by
  have same (other : BreakpointPacket) : other.counted = packet.counted ↔ other.taken = packet.taken := by
    rw [← other.taken_toNat, ← packet.taken_toNat, UInt64.toNat_inj]
  simp only [InsertedTwice, naming, same]

private theorem agrees_concat (agrees : Agrees history) :
    Agrees (history ++ [packet]) ↔ Reinserts history packet := by
  have named (address : UInt64) (other : address.toNat ≠ packet.address) :
      LastInserts (·.address) (history ++ [packet]) address.toNat ↔
        LastInserts (·.address) history address.toNat := lastInserts_concat_other other
  have unread (address : UInt64) (other : address ≠ packet.taken) :
      LastInserts (·.taken) (history ++ [packet]) address ↔ LastInserts (·.taken) history address :=
    lastInserts_concat_other other
  have here : LastInserts (·.taken) (history ++ [packet]) packet.taken ↔ packet.inserts = true :=
    lastInserts_concat_self
  have there : LastInserts (·.address) (history ++ [packet]) packet.address ↔ packet.inserts = true :=
    lastInserts_concat_self
  have place := packet.taken_toNat
  by_cases read : packet.counted = packet.address
  · refine iff_of_true (fun address => ?_) fun misread => absurd read misread
    rcases eq_or_ne address packet.taken with rfl | elsewhere
    · rw [here, place, read, there]
    · have other : address.toNat ≠ packet.address := by
        rw [← read, ← place]
        exact fun same => elsewhere (UInt64.toNat_inj.mp same)
      rw [unread address elsewhere, named address other, agrees address]
  · have largest : packet.taken.toNat = 2 ^ 64 - 1 :=
      place.trans (BreakpointPacket.counted_of_misread read)
    have apart : packet.taken.toNat ≠ packet.address := place.trans_ne read
    have atLargest : (LastInserts (·.taken) (history ++ [packet]) packet.taken ↔
        LastInserts (·.address) (history ++ [packet]) packet.taken.toNat) ↔
          (LastInserts (·.address) history (2 ^ 64 - 1) ↔ packet.inserts = true) := by
      rw [here, named _ apart, largest]
      exact Iff.comm
    have atNamed (address : UInt64) (same : address.toNat = packet.address) :
        (LastInserts (·.taken) (history ++ [packet]) address ↔
          LastInserts (·.address) (history ++ [packet]) address.toNat) ↔
            (LastInserts (·.address) history packet.address ↔ packet.inserts = true) := by
      have elsewhere : address ≠ packet.taken := by
        rintro rfl
        exact apart same
      rw [unread address elsewhere, agrees address, same, there]
    constructor
    · intro next misread
      refine ⟨fun small => ?_, atLargest.mp (next packet.taken)⟩
      exact (atNamed (UInt64.ofNat packet.address) (UInt64.toNat_ofNat_of_lt' small)).mp (next _)
    · intro repeats address
      obtain ⟨asNamed, asTaken⟩ := repeats read
      rcases eq_or_ne address packet.taken with rfl | elsewhere
      · exact atLargest.mpr asTaken
      · by_cases same : address.toNat = packet.address
        · exact (atNamed address same).mpr (asNamed (same ▸ address.toNat_lt))
        · rw [unread address elsewhere, named address same, agrees address]

/-- Where every misread packet asks for what is there, the readings agree throughout. -/
theorem agrees_of_repeats (repeats : MisreadsRepeat history) : Agrees history := by
  induction history using List.reverseRecOn with
  | nil => exact fun address => Iff.rfl
  | append_singleton history packet ih =>
    refine (agrees_concat (ih fun before other after split => ?_)).mpr (repeats history packet [] rfl)
    exact repeats before other (after ++ [packet]) (by rw [split]; simp)

end Readings

/-! ## Runs -/

section Runs

variable {τ ι : Type} [DecidableEq ι] {lldb : LLDBTarget τ ι} {history : List BreakpointPacket}
  {packet : BreakpointPacket} {target : τ} {table : UInt64 → Option ι}

/-- Some breakpoint of the target is active at the address. -/
def Active (lldb : LLDBTarget τ ι) (debugger : HostDebugger τ ι) (address : UInt64) : Prop :=
  ∃ target id, debugger.mTarget = some target ∧ lldb.active target id = some address

/-- The target and the table are as the last packets that name each address say. -/
def Tracked (lldb : LLDBTarget τ ι) (history : List BreakpointPacket)
    (debugger : HostDebugger τ ι) : Prop :=
  ∀ address : UInt64,
    (Active lldb debugger address ↔ LastInserts (·.address) history address.toNat) ∧
      (debugger.mBreakpoints address ≠ none ↔ LastInserts (·.address) history address.toNat)

theorem FollowsPackets.tracked (follows : FollowsPackets history (lldb.active target) table)
    (exact_ : Exact history (lldb.active target) table) (agrees : Agrees history) :
    Tracked lldb history ⟨some target, table⟩ := by
  intro address
  rw [← agrees address]
  refine ⟨⟨?_, fun last => ?_⟩, follows.tabled address⟩
  · rintro ⟨here, id, same, active⟩
    obtain rfl := Option.some.inj same
    rcases exact_ active with entry | twice
    · exact (follows.tabled address).mp (by rw [entry]; exact Option.some_ne_none id)
    · exact twice.lastInserts
  · obtain ⟨id, entry⟩ := Option.ne_none_iff_exists'.mp ((follows.tabled address).mpr last)
    exact ⟨target, id, rfl, follows.listed entry⟩

/-- The table follows the packets for what they are taken for, so that it tells where they agree. -/
theorem FollowsPackets.agrees (follows : FollowsPackets history (lldb.active target) table)
    (tracked : Tracked lldb history ⟨some target, table⟩) : Agrees history := fun address =>
  (follows.tabled address).symm.trans (tracked address).2

/-- What one packet does to the target and the table, and what it keeps. -/
theorem FollowsPackets.apply (follows : FollowsPackets history (lldb.active target) table)
    (packet : BreakpointPacket) :
    ∃ next entries, packet.apply lldb ⟨some target, table⟩ = ⟨some next, entries⟩ ∧
      FollowsPackets (history ++ [packet]) (lldb.active next) entries ∧
      (Exact history (lldb.active target) table →
        (packet.inserts = false → ¬InsertedTwice (·.taken) history packet.taken) →
        Exact (history ++ [packet]) (lldb.active next) entries) := by
  rcases kind : packet.inserts with _ | _
  · rcases found : table packet.taken with _ | id
    · refine ⟨target, table, ?_, follows.skip kind found, ?_⟩
      · simp [BreakpointPacket.apply, kind, HostDebugger.removeSoftwareBreakpoint, found]
      · intro exact_ once
        exact exact_.skip found (once rfl)
    · refine ⟨lldb.RemoveBreakpointByID target id, Function.update table packet.taken none, ?_, ?_, ?_⟩
      · simp [BreakpointPacket.apply, kind, HostDebugger.removeSoftwareBreakpoint, found]
      · rw [lldb.removed]
        exact follows.remove kind found
      · intro exact_ once
        rw [lldb.removed]
        exact exact_.remove found (once rfl)
  · obtain ⟨id, created, fresh, active⟩ := lldb.created target packet.taken
    refine ⟨(lldb.CreateBreakpoint target packet.taken).2,
      Function.update table packet.taken (some id), ?_, ?_, ?_⟩
    · simp [BreakpointPacket.apply, kind, HostDebugger.createSoftwareBreakpoint, created]
    · rw [active]
      exact follows.insert kind fresh
    · intro exact_ _
      rw [active]
      exact exact_.insert follows kind

/-- The debugger after a history, from a target without breakpoints. -/
def afterPackets (lldb : LLDBTarget τ ι) (target : τ) (history : List BreakpointPacket) :
    HostDebugger τ ι :=
  history.foldl (BreakpointPacket.apply lldb) ⟨some target, fun _ => none⟩

private theorem follows_afterPackets (inactive : ∀ id, lldb.active target id = none)
    (history : List BreakpointPacket) :
    ∃ next entries, afterPackets lldb target history = ⟨some next, entries⟩ ∧
      FollowsPackets history (lldb.active next) entries ∧
      (RemovesOnce history → Exact history (lldb.active next) entries) := by
  induction history using List.reverseRecOn with
  | nil =>
    refine ⟨target, fun _ => none, rfl, ⟨nofun, fun _ => ?_, ?_⟩, fun _ _ id here => ?_⟩
    · simp [LastInserts, naming]
    · intro address twice
      simp [InsertedTwice, naming] at twice
    · exact absurd ((inactive id).symm.trans here) nofun
  | append_singleton history packet ih =>
    obtain ⟨target, table, reached, follows, exact_⟩ := ih
    obtain ⟨next, entries, applied, followsNext, exactNext⟩ := follows.apply packet
    refine ⟨next, entries, ?_, followsNext, fun removesOnce => exactNext (exact_ ?_) ?_⟩
    · rw [← applied, ← reached, afterPackets, List.foldl_concat, afterPackets]
    · intro before other after split
      exact removesOnce before other (after ++ [packet]) (by rw [split]; simp)
    · exact fun removes => mt insertedTwice_counted.mpr (removesOnce history packet [] rfl removes)

/-- A removal of what was inserted twice leaves a breakpoint. -/
theorem not_tracked_of_insertedTwice (inactive : ∀ id, lldb.active target id = none)
    (removes : packet.inserts = false) (twice : InsertedTwice (·.taken) history packet.taken) :
    ¬Tracked lldb (history ++ [packet]) (afterPackets lldb target (history ++ [packet])) := by
  obtain ⟨here, table, reached, follows, -⟩ := follows_afterPackets inactive history
  obtain ⟨id, active, outside⟩ := follows.doubled twice
  obtain ⟨entry, found⟩ := Option.ne_none_iff_exists'.mp
    ((follows.tabled packet.taken).mpr twice.lastInserts)
  have distinct : id ≠ entry := fun same => outside (by rw [found, same])
  have applied : afterPackets lldb target (history ++ [packet]) =
      ⟨some (lldb.RemoveBreakpointByID here entry),
        Function.update table packet.taken none⟩ := by
    rw [afterPackets, List.foldl_concat, ← afterPackets, reached]
    simp [BreakpointPacket.apply, removes, HostDebugger.removeSoftwareBreakpoint, found]
  rw [applied]
  intro tracked
  have still : Active lldb ⟨some (lldb.RemoveBreakpointByID here entry),
      Function.update table packet.taken none⟩ packet.taken :=
    ⟨_, id, rfl, by rw [lldb.removed, Function.update_of_ne distinct, active]⟩
  have listed := (tracked packet.taken).2.mpr ((tracked packet.taken).1.mp still)
  exact listed (Function.update_self _ _ _)

/-- The breakpoints are as the packets say after each of them exactly if no packet removes what was
inserted twice, and each that is taken for another address than it names leaves both as they are. -/
theorem breakpoints_tracked_iff (lldb : LLDBTarget τ ι)
    (others : Environment Request.Answer (HostDebugger τ ι))
    (inactive : ∀ id, lldb.active target id = none) (buf : Memory) {protocol : GDBServerProtocol}
    (running : protocol.mRunning = true) (packets : List BreakpointPacket) :
    (∀ sent, sent <+: packets → Tracked lldb sent
      (DebugServer.run (HostDebugger.environment lldb others) (sent.map (·.bytes)) buf protocol
        ⟨some target, fun _ => none⟩).environment) ↔
      RemovesOnce packets ∧ MisreadsRepeat packets := by
  simp only [run_breakpoints _ buf running]
  constructor
  · intro tracked
    have agrees (sent : List BreakpointPacket) (prefixed : sent <+: packets) : Agrees sent := by
      obtain ⟨next, entries, reached, follows, -⟩ := follows_afterPackets inactive sent
      have here := tracked sent prefixed
      rw [← afterPackets, reached] at here
      exact follows.agrees here
    refine ⟨fun before packet after split removes twice => ?_, fun before packet after split => ?_⟩
    · refine not_tracked_of_insertedTwice inactive removes (insertedTwice_counted.mp twice)
        (tracked (before ++ [packet]) ?_)
      exact ⟨after, by rw [split, List.append_assoc]; rfl⟩
    · refine (agrees_concat (agrees before ⟨packet :: after, split.symm⟩)).mp (agrees _ ?_)
      exact ⟨after, by rw [split, List.append_assoc]; rfl⟩
  · rintro ⟨removesOnce, repeats⟩ sent ⟨later, rfl⟩
    obtain ⟨next, entries, reached, follows, exact_⟩ := follows_afterPackets inactive sent
    rw [afterPackets] at reached
    rw [reached]
    have agrees : Agrees sent := agrees_of_repeats fun before packet after split =>
      repeats before packet (after ++ later) (by rw [split]; simp)
    refine follows.tracked (exact_ fun before packet after split => ?_) agrees
    exact removesOnce before packet (after ++ later) (by rw [split]; simp)

end Runs

/-! ## A target that counts -/

/-- A target that numbers its breakpoints. -/
structure CountingTarget where
  next : ℕ
  active : ℕ → Option UInt64
  unused : ∀ id, next ≤ id → active id = none

namespace CountingTarget

def create (target : CountingTarget) (address : UInt64) : CountingTarget where
  next := target.next + 1
  active := Function.update target.active target.next (some address)
  unused id later := by
    rw [Function.update_of_ne (by omega), target.unused id (by omega)]

def remove (target : CountingTarget) (removed : ℕ) : CountingTarget where
  next := target.next
  active := Function.update target.active removed none
  unused id later := by
    rcases eq_or_ne id removed with rfl | other
    · rw [Function.update_self]
    · rw [Function.update_of_ne other, target.unused id later]

def lldb : LLDBTarget CountingTarget ℕ where
  CreateBreakpoint target address := (some target.next, target.create address)
  RemoveBreakpointByID := remove
  active := active
  created target _ := ⟨target.next, rfl, target.unused target.next le_rfl, rfl⟩
  removed _ _ := rfl

def empty : CountingTarget := ⟨0, fun _ => none, fun _ _ => rfl⟩

/-- No answer but to the requests for breakpoints. -/
def others : Environment Request.Answer (HostDebugger CountingTarget ℕ) := fun debugger request =>
  ((objectsDebugger default default default () request).1, debugger)

end CountingTarget

/-- The packets `Z0` and `z0` for a numeral, with the kind `1`. -/
def breakpointAt (inserts : Bool) (addrHex : Bytes) (digits : ∀ c ∈ addrHex, lowerHex c = true)
    (nonempty : addrHex ≠ []) : BreakpointPacket where
  inserts := inserts
  addrHex := addrHex
  kindHex := str "1"
  lead := false
  trail := false
  high := 0x30
  low := 0x30
  addrDigits := digits
  addrNonempty := nonempty
  kindDigits := by decide +kernel
  kindNonempty := by decide
  highDigit := by decide
  lowDigit := by decide

def breakpointAt1000 (inserts : Bool) : BreakpointPacket :=
  breakpointAt inserts (str "1000") (by decide +kernel) (by decide)

/-- The packet `Z0,00000000000001000,1`, whose numeral has seventeen digits. -/
def longBreakpoint : BreakpointPacket :=
  breakpointAt true (str "00000000000001000") (by decide +kernel) (by decide)

/-- Breakpoints are inserted at 0x1000 and the largest address, a packet is taken for the latter in
place of the former, and the first is removed. -/
def servedPackets : List BreakpointPacket :=
  [breakpointAt1000 true, breakpointAt true (str "ffffffffffffffff") (by decide +kernel) (by decide),
    longBreakpoint, breakpointAt1000 false]

private theorem servedPackets_tracked :
    RemovesOnce servedPackets ∧ MisreadsRepeat servedPackets := by
  have places {before after : List BreakpointPacket} {packet : BreakpointPacket}
      (split : servedPackets = before ++ packet :: after) :
      before = servedPackets.take before.length ∧ servedPackets[before.length]? = some packet ∧
        before.length < 4 := by
    have width := congrArg List.length split
    rw [split, List.take_left', List.getElem?_append_right le_rfl, Nat.sub_self]
    · simp [servedPackets] at width
      exact ⟨rfl, rfl, by omega⟩
    · rfl
  constructor
  · intro before packet after split removes twice
    obtain ⟨front, here, bound⟩ := places split
    have all : ∀ k < 4, ∀ packet ∈ servedPackets[k]?, packet.inserts = false →
        ¬[true, true] <:+ naming (·.counted) (servedPackets.take k) packet.counted := by
      decide +kernel
    rw [front] at twice
    exact all before.length bound packet here removes twice
  · intro before packet after split misread
    obtain ⟨front, here, bound⟩ := places split
    have all : ∀ k < 4, ∀ packet ∈ servedPackets[k]?, packet.counted ≠ packet.address →
        (packet.address < 2 ^ 64 →
          ((naming (·.address) (servedPackets.take k) packet.address).getLast? = some true ↔
            packet.inserts = true)) ∧
        ((naming (·.address) (servedPackets.take k) (2 ^ 64 - 1)).getLast? = some true ↔
          packet.inserts = true) := by
      decide +kernel
    rw [front]
    exact all before.length bound packet here misread

theorem breakpoints_tracked_iff_served :
    Tracked CountingTarget.lldb servedPackets
      (DebugServer.run (HostDebugger.environment CountingTarget.lldb CountingTarget.others)
        (servedPackets.map (·.bytes)) (fun _ => 0) {} ⟨some .empty, fun _ => none⟩).environment :=
  (breakpoints_tracked_iff CountingTarget.lldb CountingTarget.others (fun _ => rfl)
    (fun _ => 0) rfl servedPackets).mpr servedPackets_tracked _ List.prefix_rfl

/-- A breakpoint is inserted twice and removed once. -/
theorem not_breakpoints_tracked :
    ¬∀ packets : List BreakpointPacket, Tracked CountingTarget.lldb packets
      (DebugServer.run (HostDebugger.environment CountingTarget.lldb CountingTarget.others)
        (packets.map (·.bytes)) (fun _ => 0) {} ⟨some .empty, fun _ => none⟩).environment := by
  intro always
  have tracked := always ([breakpointAt1000 true, breakpointAt1000 true] ++ [breakpointAt1000 false])
  rw [run_breakpoints _ _ rfl] at tracked
  refine not_tracked_of_insertedTwice (fun _ => ?_) ?_ ?_ tracked
  · rfl
  · rfl
  · exact ⟨[], by decide⟩

end DpcppTrace.Soundness
