import DpcppTrace.Soundness.ThreadSelection

/-! # Listing the threads

A client lists the threads with one `qfThreadInfo` packet and `qsThreadInfo` packets behind it, until
it is told that there are no more. The handler is one for both packets: it goes on at the place
where the last packet left off, whichever packet that was.
-/

namespace DpcppTrace.Soundness

open Foundation Model Pattern

variable {τ : Type} {process : LLDBProcess τ} {others : Environment Request.Answer τ}
  {after : Bytes → UInt8} {protocol : GDBServerProtocol} {debugger : τ}

/-- The payload that names a thread. -/
def threadInfo (id : UInt64) : Bytes := str "m" ++ hexNumeral id.toNat

/-- The packets that list threads, however they are framed. -/
structure EnumerationPackets (packets : List Bytes) : Prop where
  supported : ∀ packet ∈ packets, route packet = .process_qfThreadInfo
  first : packets.head?.map bodyOf = some (str "qfThreadInfo")
  later : ∀ packet ∈ packets.tail, bodyOf packet = str "qsThreadInfo"

/-- The client sends one packet after another and collects the replies up to `l`; there is no list
when that does not come. -/
def enumerate {σ : Type} (environment : Environment Request.Answer σ) (after : Bytes → UInt8) :
    List Bytes → GDBServerProtocol → σ → Option (List Bytes)
  | [], _, _ => none
  | packet :: packets, protocol, state =>
    let transcript := handled environment state protocol after packet
    match transcript.value, payload transcript with
    | some (_, next), some text =>
      if text = str "l" then some []
      else (enumerate environment after packets next transcript.final).map (text :: ·)
    | _, _ => none

private theorem threadInfo_clean (id : UInt64) : Clean (threadInfo id) := by
  rw [threadInfo, ← encodeInt_thread]
  exact .append (by decide) (clean_encodeInt _ _)

private theorem threadInfo_ne_last (id : UInt64) : threadInfo id ≠ str "l" := by
  intro same
  have starts : some (0x6d : UInt8) = some 0x6c := congrArg List.head? same
  exact absurd starts (by decide)

/-- What the handler does with the thread at its place, or without one there. -/
theorem handled_qfThreadInfo {packet : Bytes} (routed : route packet = .process_qfThreadInfo) :
    handled (process.environment others) (.ok debugger) protocol after packet =
      match (process.threads debugger)[protocol.mLastThreadInfoIndex.toNat]? with
      | some id => ⟨[.getNumThreads, .getThreadIDAtIndex protocol.mLastThreadInfoIndex], .ok debugger,
          some (createResponse (threadInfo id) protocol.mAck,
            { protocol with mLastThreadInfoIndex := protocol.mLastThreadInfoIndex + 1 })⟩
      | none => ⟨[.getNumThreads], .ok debugger,
          some (createResponse (str "l") protocol.mAck,
            { protocol with mLastThreadInfoIndex := 0 })⟩ := by
  have few := process.few debugger
  have counted : (UInt64.ofNat (process.threads debugger).length).toNat =
      (process.threads debugger).length := by
    rw [UInt64.toNat_ofNat', Nat.mod_eq_of_lt (few.trans (by norm_num))]
  have ran : handled (process.environment others) (.ok debugger) protocol after packet =
      let rest := ((if protocol.mLastThreadInfoIndex <
            UInt64.ofNat (process.threads debugger).length then (do
          set { protocol with mLastThreadInfoIndex := protocol.mLastThreadInfoIndex + 1 }
          let threadId : UInt64 ← ask (.getThreadIDAtIndex protocol.mLastThreadInfoIndex)
          respond (str "m" ++ encodeInt 8 threadId.toBitVec))
        else (do
          set { protocol with mLastThreadInfoIndex := 0 }
          respond (str "l")) : Handler) protocol).run (process.environment others) (.ok debugger)
      { rest with calls := .getNumThreads :: rest.calls } := by
    rw [handled, processPacket, routed]
    rfl
  rw [ran]
  rcases place : (process.threads debugger)[protocol.mLastThreadInfoIndex.toNat]? with _ | id
  · have behind : ¬protocol.mLastThreadInfoIndex < UInt64.ofNat (process.threads debugger).length := by
      rw [UInt64.lt_iff_toNat_lt, counted]
      exact not_lt.mpr (List.getElem?_eq_none_iff.mp place)
    rw [if_neg behind]
    rfl
  · have inside : protocol.mLastThreadInfoIndex < UInt64.ofNat (process.threads debugger).length := by
      rw [UInt64.lt_iff_toNat_lt, counted]
      exact (List.getElem?_eq_some_iff.mp place).1
    have named : process.getThreadIDAtIndex debugger protocol.mLastThreadInfoIndex = .ok id := by
      rw [LLDBProcess.getThreadIDAtIndex, place]
    have answered : process.environment others (.ok debugger)
        (.getThreadIDAtIndex protocol.mLastThreadInfoIndex) = (id, .ok debugger) := by
      rw [LLDBProcess.environment_getThreadIDAtIndex, named]
      rfl
    rw [if_pos inside]
    have told : ((ask (.getThreadIDAtIndex protocol.mLastThreadInfoIndex) >>=
        fun threadId : UInt64 => respond (str "m" ++ encodeInt 8 threadId.toBitVec))
          { protocol with mLastThreadInfoIndex := protocol.mLastThreadInfoIndex + 1 }).run
            (process.environment others) (.ok debugger) =
        ⟨[.getThreadIDAtIndex protocol.mLastThreadInfoIndex], .ok debugger,
          some (createResponse (threadInfo id) protocol.mAck,
            { protocol with mLastThreadInfoIndex := protocol.mLastThreadInfoIndex + 1 })⟩ := by
      rw [run_ask, answered]
      simp only [encodeInt_thread]
      rfl
    exact congrArg (fun rest : Transcript Request (Except DebuggerFault τ) _ =>
      { rest with calls := Request.getNumThreads :: rest.calls }) told

/-- The client is told of the threads from the place where the protocol is, if it asks often
enough. -/
theorem enumerate_eq {packets : List Bytes}
    (supported : ∀ packet ∈ packets, route packet = .process_qfThreadInfo) :
    enumerate (process.environment others) after packets protocol (.ok debugger) =
      if (process.threads debugger).length - protocol.mLastThreadInfoIndex.toNat < packets.length then
        some (((process.threads debugger).drop protocol.mLastThreadInfoIndex.toNat).map threadInfo)
      else none := by
  induction packets generalizing protocol with
  | nil => rfl
  | cons packet packets ih =>
    obtain ⟨routed, supported⟩ := List.forall_mem_cons.mp supported
    rw [enumerate, handled_qfThreadInfo routed]
    rcases place : (process.threads debugger)[protocol.mLastThreadInfoIndex.toNat]? with _ | id
    · have behind := List.getElem?_eq_none_iff.mp place
      have told : payload (⟨[.getNumThreads], .ok debugger,
          some (createResponse (str "l") protocol.mAck,
            { protocol with mLastThreadInfoIndex := 0 })⟩ :
          Transcript Request (Except DebuggerFault τ) _) = some (str "l") :=
        receive_createResponse (by decide) _
      simp only [told, if_true]
      rw [if_pos (by rw [List.length_cons]; omega), List.drop_eq_nil_of_le behind, List.map_nil]
    · obtain ⟨inside, there⟩ := List.getElem?_eq_some_iff.mp place
      have few := process.few debugger
      have next : (protocol.mLastThreadInfoIndex + 1).toNat =
          protocol.mLastThreadInfoIndex.toNat + 1 := by
        rw [UInt64.toNat_add]
        exact Nat.mod_eq_of_lt (by simp only [UInt64.toNat_one]; omega)
      have told : payload (⟨[.getNumThreads, .getThreadIDAtIndex protocol.mLastThreadInfoIndex],
          .ok debugger, some (createResponse (threadInfo id) protocol.mAck,
            { protocol with mLastThreadInfoIndex := protocol.mLastThreadInfoIndex + 1 })⟩ :
          Transcript Request (Except DebuggerFault τ) _) = some (threadInfo id) :=
        receive_createResponse (threadInfo_clean id) _
      simp only [told, if_neg (threadInfo_ne_last id)]
      rw [ih supported, next, List.drop_eq_getElem_cons inside, there, List.map_cons, List.length_cons]
      split
      · rw [if_pos (by omega), Option.map_some]
      · rw [if_neg (by omega), Option.map_none]

/-- A list of all threads, each once and in order, is what the client gets exactly if no enumeration
was left unfinished before, or there are no threads. -/
theorem threads_listed_iff (process : LLDBProcess τ) (others : Environment Request.Answer τ)
    (after : Bytes → UInt8) (protocol : GDBServerProtocol) (debugger : τ) (packets : List Bytes)
    (asks : EnumerationPackets packets)
    (enough : (process.threads debugger).length < packets.length) :
    enumerate (process.environment others) after packets protocol (.ok debugger) =
        some ((process.threads debugger).map threadInfo) ↔
      protocol.mLastThreadInfoIndex = 0 ∨ process.threads debugger = [] := by
  rw [enumerate_eq asks.supported, if_pos (by omega), Option.some_inj]
  constructor
  · intro same
    have widths := congrArg List.length same
    rw [List.length_map, List.length_map, List.length_drop] at widths
    rcases Nat.eq_zero_or_pos (process.threads debugger).length with none | positive
    · exact .inr (List.length_eq_zero_iff.mp none)
    · exact .inl (UInt64.toNat.inj (by rw [UInt64.toNat_zero]; omega))
  · rintro (start | none)
    · rw [start]
      rfl
    · rw [none, List.drop_nil]

/-- The packets for up to two threads. -/
def twoThreadPackets : List Bytes :=
  [str "$qfThreadInfo#bb", str "$qsThreadInfo#c8", str "$qsThreadInfo#c8"]

private theorem twoThreadPackets_ask : EnumerationPackets twoThreadPackets :=
  ⟨by decide, by decide, by decide⟩

/-- From a fresh protocol the client is told of both threads. -/
theorem threads_listed_iff_two :
    enumerate (twoThreads.environment (objectsDebugger default default default)) (fun _ => 0)
      twoThreadPackets {} (.ok ()) = some [str "m7", str "m1"] :=
  (threads_listed_iff twoThreads _ (fun _ => 0) {} () twoThreadPackets twoThreadPackets_ask
    (by decide)).mpr (.inl rfl)

/-- After one packet of an unfinished enumeration it is told of the second thread only. -/
theorem not_threads_listed :
    ¬∀ (history : List Bytes) (here : GDBServerProtocol × Unit),
      (packetMachine twoThreads (objectsDebugger default default default) fun _ => 0).run ({}, ())
          history = some here →
        enumerate (twoThreads.environment (objectsDebugger default default default)) (fun _ => 0)
          twoThreadPackets here.1 (.ok here.2) = some ((twoThreads.threads here.2).map threadInfo) := by
  intro always
  have listed := always [str "$qfThreadInfo#bb"] ({ mLastThreadInfoIndex := 1 }, ()) (by rfl)
  rw [enumerate_eq twoThreadPackets_ask.supported] at listed
  exact absurd listed (by decide)

end DpcppTrace.Soundness
