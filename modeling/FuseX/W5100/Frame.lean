import FuseX.W5100.Socket

/-!
# What the functions of a socket leave alone

* `Quiet` is what every register write keeps but OPEN, SEND and RECV;
* `TxFrame` is the transmit side of it, which RECV and the reads keep too;
* `ReadFrame` is what the reads of the I/O thread keep besides.
-/

namespace FuseX.W5100

open Lib

/-- The states of a connection that can be written to, and those before it. -/
def Streaming (state : SocketState) : Prop :=
  state = .init ∨ state = .listen ∨ state = .established

theorem not_streaming_closed : ¬ Streaming .closed := by
  unfold Streaming
  decide

theorem not_streaming_closeWait : ¬ Streaming .closeWait := by
  unfold Streaming
  decide

theorem not_streaming_udp : ¬ Streaming .udp := by
  unfold Streaming
  decide

/-- Events of the receive side. -/
def Event.Receives : Event → Prop
  | .recvCommand _ _ | .received _ | .datagram _ _ _ | .closeWait _ => True
  | _ => False

/-- A history that passes over the events of the receive side. -/
theorem foldl_receives {η : Type*} {record : η → Event → η}
    (passes : ∀ h e, e.Receives → record h e = h) (h : η) {trace events : List Event}
    (receives : ∀ e ∈ events, e.Receives) :
    (trace ++ events).foldl record h = trace.foldl record h := by
  rw [List.foldl_append]
  generalize trace.foldl record h = now
  induction events with
  | nil => rfl
  | cons event events ih =>
    rw [List.foldl_cons, passes now event (receives event List.mem_cons_self)]
    exact ih fun e member => receives e (List.mem_cons_of_mem _ member)

/-- The transmit side is as it was, or the socket is closed. -/
structure TxFrame (s t : Socket) : Prop where
  events : ∃ events : List Event, t.trace = s.trace ++ events ∧ ∀ e ∈ events, e.Receives
  txRr : t.txRr = s.txRr
  txBuffer : t.txBuffer = s.txBuffer
  lastSend : t.lastSend = s.lastSend
  datagramLengths : t.datagramLengths = s.datagramLengths
  pending : t.writePending = s.writePending ∨
    t.writePending = false ∧ ¬ Streaming t.state ∧ t.state ≠ .udp
  streaming : Streaming t.state → Streaming s.state
  udp : t.state = .udp → s.state = .udp

namespace TxFrame

variable {s t u : Socket}

theorem noEvents (trace : t.trace = s.trace) :
    ∃ events : List Event, t.trace = s.trace ++ events ∧ ∀ e ∈ events, e.Receives :=
  ⟨[], by rw [trace, List.append_nil], fun _ member => absurd member List.not_mem_nil⟩

theorem oneEvent {event : Event} (trace : t.trace = s.trace ++ [event]) (receives : event.Receives) :
    ∃ events : List Event, t.trace = s.trace ++ events ∧ ∀ e ∈ events, e.Receives := by
  refine ⟨[event], trace, fun e member => ?_⟩
  obtain rfl := List.mem_singleton.mp member
  exact receives

theorem refl (s : Socket) : TxFrame s s :=
  ⟨noEvents rfl, rfl, rfl, rfl, rfl, .inl rfl, id, id⟩

theorem trans (first : TxFrame s t) (second : TxFrame t u) : TxFrame s u := by
  refine ⟨?_, second.txRr.trans first.txRr, second.txBuffer.trans first.txBuffer,
    second.lastSend.trans first.lastSend, second.datagramLengths.trans first.datagramLengths, ?_,
    first.streaming ∘ second.streaming, first.udp ∘ second.udp⟩
  · obtain ⟨events, trace, receives⟩ := first.events
    obtain ⟨events', trace', receives'⟩ := second.events
    refine ⟨events ++ events', by rw [trace', trace, List.append_assoc], fun e member => ?_⟩
    rcases List.mem_append.mp member with member | member
    · exact receives e member
    · exact receives' e member
  · rcases second.pending with same | closed
    · rcases first.pending with same' | ⟨cleared, closed, notUdp⟩
      · exact .inl (same.trans same')
      · exact .inr ⟨same.trans cleared, closed ∘ second.streaming, notUdp ∘ second.udp⟩
    · exact .inr closed

end TxFrame

/-! ## Commands and register writes -/

/-- The trace, the pointers and the buffers. -/
def Socket.rings (s : Socket) :
    List Event × UInt16 × Buffer × Int × List Int × UInt16 × UInt16 × Buffer :=
  (s.trace, s.txRr, s.txBuffer, s.lastSend, s.datagramLengths, s.rxRsr, s.oldRxRd, s.rxBuffer)

/-- Neither side is touched, or the socket is closed. A socket that listens and is
in the sets of the `select` still listens. -/
structure Quiet (s t : Socket) : Prop where
  rings : t.rings = s.rings
  pending : t.writePending = s.writePending ∨
    t.writePending = false ∧ ¬ Streaming t.state ∧ t.state ≠ .udp
  streaming : Streaming t.state → Streaming s.state
  udp : t.state = .udp → s.state = .udp
  listening : t.okForIo = true → s.okForIo = true ∧ (s.state = .listen → t.state = .listen)

namespace Quiet

variable {s t : Socket}

theorem refl (s : Socket) : Quiet s s :=
  ⟨rfl, .inl rfl, id, id, fun ok => ⟨ok, id⟩⟩

theorem of_same (rings : t.rings = s.rings) (pending : t.writePending = s.writePending)
    (okForIo : t.okForIo = s.okForIo) (state : t.state = s.state) : Quiet s t :=
  ⟨rings, .inl pending, state ▸ id, state ▸ id, fun ok => ⟨okForIo ▸ ok, state ▸ id⟩⟩

theorem of_closed (rings : t.rings = s.rings)
    (pending : t.writePending = s.writePending ∨ t.writePending = false)
    (listening : t.okForIo = true → s.okForIo = true ∧ s.state ≠ .listen)
    (state : t.state = .closed) : Quiet s t := by
  have closed : ¬ Streaming t.state := state ▸ not_streaming_closed
  have notUdp : t.state ≠ .udp := by simp [state]
  refine ⟨rings, ?_, fun open_ => absurd open_ closed, fun udp => absurd udp notUdp,
    fun ok => ⟨(listening ok).1, fun listen => absurd listen (listening ok).2⟩⟩
  rcases pending with same | cleared
  · exact .inl same
  · exact .inr ⟨cleared, closed, notUdp⟩

/-- From INIT to another state of a connection. -/
theorem of_init (rings : t.rings = s.rings) (pending : t.writePending = s.writePending)
    (okForIo : t.okForIo = s.okForIo) (before : s.state = .init) (notUdp : t.state ≠ .udp) :
    Quiet s t :=
  ⟨rings, .inl pending, fun _ => .inl before, fun udp => absurd udp notUdp,
    fun ok => ⟨okForIo ▸ ok, fun listen => absurd (before.symm.trans listen) nofun⟩⟩

theorem txFrame (quiet : Quiet s t) : TxFrame s t := by
  have rings := quiet.rings
  simp only [Socket.rings, Prod.mk.injEq] at rings
  obtain ⟨trace, txRr, txBuffer, lastSend, lengths, -, -, -⟩ := rings
  exact ⟨TxFrame.noEvents trace, txRr, txBuffer, lastSend, lengths, quiet.pending,
    quiet.streaming, quiet.udp⟩

end Quiet

theorem socketListen_quiet (s : Socket) (host : HostResults) : Quiet s (socketListen s host) := by
  unfold socketListen
  split
  · rename_i init
    rcases bindIfNeeded_cases s host with bound | failed
    · rw [bound]
      dsimp only
      split
      · exact .of_init rfl rfl rfl init nofun
      · exact .of_same rfl rfl rfl rfl
    · rw [failed]
      exact .of_closed rfl (.inl rfl) (fun ok => ⟨ok, by simp [init]⟩) rfl
  · exact .refl s

theorem socketConnect_quiet (s : Socket) (host : HostResults) : Quiet s (socketConnect s host) := by
  unfold socketConnect
  split
  · exact .of_same rfl rfl rfl rfl
  split
  · rename_i init
    have notListening : s.state ≠ .listen := by simp [init]
    rcases bindIfNeeded_cases s host with bound | failed
    · rw [bound]
      dsimp only
      split
      · exact .of_init rfl rfl rfl init nofun
      · exact .of_closed rfl (.inl rfl) (fun ok => ⟨ok, notListening⟩) rfl
    · rw [failed]
      exact .of_closed rfl (.inl rfl) (fun ok => ⟨ok, notListening⟩) rfl
  · exact .refl s

theorem socketDiscon_quiet (s : Socket) : Quiet s (socketDiscon s) := by
  unfold socketDiscon
  split
  · exact .of_closed rfl (.inr rfl) nofun rfl
  · exact .refl s

theorem socketClose_quiet (s : Socket) : Quiet s (socketClose s) :=
  .of_closed rfl (.inr rfl) nofun rfl

theorem writeSocketPort_quiet (s : Socket) (which : Fin 2) (b : UInt8) (host : HostResults) :
    Quiet s (writeSocketPort s which b host) := by
  unfold writeSocketPort
  dsimp only
  split
  · split
    · rename_i unbound
      unfold socketBindPort
      split
      · exact .of_same rfl rfl rfl rfl
      · exact .of_closed rfl (.inl rfl) (fun ok => ⟨ok, by simp [unbound.1]⟩) rfl
    · exact .of_same rfl rfl rfl rfl
  · exact .of_same rfl rfl rfl rfl

theorem socketRecv_txFrame (s : Socket) : TxFrame s (socketRecv s) := by
  have noted : TxFrame s (s.note (.recvCommand s.rxRd s.rxBuffer)) :=
    ⟨TxFrame.oneEvent rfl True.intro, rfl, rfl, rfl, rfl, .inl rfl, id, id⟩
  apply noted.trans
  unfold socketRecv
  dsimp only
  split
  · exact ⟨TxFrame.noEvents rfl, rfl, rfl, rfl, rfl, .inl rfl, id, id⟩
  · exact .refl _

theorem addToSets_txFrame (s : Socket) : TxFrame s (addToSets s).1 := by
  unfold addToSets
  split
  · exact ⟨TxFrame.noEvents rfl, rfl, rfl, rfl, rfl, .inl rfl, id, id⟩
  · exact .refl s

/-- A register write touches neither side, or is OPEN, SEND or RECV. -/
theorem socketWrite_cases (s : Socket) (reg : Register) (b : UInt8) (host : HostResults) :
    Quiet s (socketWrite s reg b host) ∨
      reg = .cr ∧ ∃ command t, Command.ofByte b = some command ∧
        socketWrite s reg b host = { t with bindCount := 0 } ∧
        (command = .open ∧ t = socketOpen s host ∨ command = .send ∧ t = socketSend s host ∨
          command = .recv ∧ t = socketRecv s) := by
  cases reg with
  | port which => exact .inl (writeSocketPort_quiet s which b host)
  | cr =>
    have counted {t : Socket} (command : Quiet s t) : Quiet s { t with bindCount := 0 } :=
      ⟨command.rings, command.pending, command.streaming, command.udp, command.listening⟩
    unfold socketWrite writeSocketCr
    dsimp only
    split
    · exact .inr ⟨rfl, .open, _, ‹_›, rfl, .inl ⟨rfl, rfl⟩⟩
    · exact .inl (counted (socketListen_quiet s host))
    · exact .inl (counted (socketConnect_quiet s host))
    · exact .inl (counted (socketDiscon_quiet s))
    · exact .inl (counted (socketClose_quiet s))
    · exact .inr ⟨rfl, .send, _, ‹_›, rfl, .inr (.inl ⟨rfl, rfl⟩)⟩
    · exact .inr ⟨rfl, .recv, _, ‹_›, rfl, .inr (.inr ⟨rfl, rfl⟩)⟩
    · exact .inl (counted (.refl s))
  | _ => exact .inl (.of_same rfl rfl rfl rfl)

/-! ## Reads of the I/O thread -/

/-- The transmit side and its registers are as they were. -/
structure ReadFrame (s t : Socket) : Prop extends TxFrame s t where
  txWr : t.txWr = s.txWr
  dip : t.dip = s.dip
  dport : t.dport = s.dport
  stillUdp : s.state = .udp → t.state = .udp

theorem ReadFrame.refl (s : Socket) : ReadFrame s s :=
  ⟨.refl s, rfl, rfl, rfl, id⟩

theorem ReadFrame.trans {s t u : Socket} (first : ReadFrame s t) (second : ReadFrame t u) :
    ReadFrame s u :=
  ⟨first.toTxFrame.trans second.toTxFrame, second.txWr.trans first.txWr,
    second.dip.trans first.dip, second.dport.trans first.dport,
    second.stillUdp ∘ first.stillUdp⟩

theorem processRead_frame (s : Socket) (received : Received) :
    ReadFrame s (processRead s received) := by
  have stored {t : Socket} {event : Event} (trace : t.trace = s.trace ++ [event])
      (receives : event.Receives) (txRr : t.txRr = s.txRr) (txBuffer : t.txBuffer = s.txBuffer)
      (lastSend : t.lastSend = s.lastSend) (lengths : t.datagramLengths = s.datagramLengths)
      (pending : t.writePending = s.writePending) (state : t.state = s.state) : TxFrame s t :=
    ⟨TxFrame.oneEvent trace receives, txRr, txBuffer, lastSend, lengths, .inl pending, state ▸ id,
      state ▸ id⟩
  unfold processRead
  dsimp only
  split
  · split
    · exact ⟨stored rfl True.intro rfl rfl rfl rfl rfl rfl, rfl, rfl, rfl, id⟩
    · exact .refl s
  rename_i stream
  split
  · exact ⟨stored rfl True.intro rfl rfl rfl rfl rfl rfl, rfl, rfl, rfl, id⟩
  split
  · exact ⟨⟨TxFrame.oneEvent rfl True.intro, rfl, rfl, rfl, rfl, .inl rfl,
      fun open_ => absurd open_ not_streaming_closeWait, nofun⟩, rfl, rfl, rfl,
      fun udp => absurd udp stream⟩
  · exact ⟨⟨TxFrame.noEvents rfl, rfl, rfl, rfl, rfl, .inl rfl, id, id⟩, rfl, rfl, rfl, id⟩

theorem readControl_frame (s : Socket) (io : IoResults) : ReadFrame s (readControl s io) := by
  unfold readControl
  split
  · split
    · exact processRead_frame _ _
    · exact .refl s
  · exact .refl s

theorem readIfReady_frame (s : Socket) (io : IoResults) : ReadFrame s (readIfReady s io) := by
  unfold readIfReady
  split
  · split
    · rename_i listening
      unfold processAccept
      split
      · exact ⟨⟨TxFrame.noEvents rfl, rfl, rfl, rfl, rfl, .inl rfl, fun _ => .inr (.inl listening),
          nofun⟩, rfl, rfl, rfl, fun udp => absurd (listening.symm.trans udp) nofun⟩
      · exact .refl s
    · exact processRead_frame _ _
  · exact .refl s

theorem readPending_frame (s : Socket) (io : IoResults) : ReadFrame s (readPending s io) := by
  unfold readPending
  split
  · exact processRead_frame _ _
  · exact .refl s

/-- The write of a turn meets the transmit side as the turn met it. -/
theorem processIo_cases (s : Socket) (io : IoResults) :
    processIo s io = s ∨
      ∃ read, ReadFrame s read ∧ ReadFrame (writeIfReady read io) (processIo s io) := by
  unfold processIo
  split
  · exact .inr ⟨_, (readControl_frame s io).trans (readIfReady_frame _ io), readPending_frame _ io⟩
  · exact .inl rfl

end FuseX.W5100
