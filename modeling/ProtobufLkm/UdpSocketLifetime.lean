import ProtobufLkm.UdpReceiveModel

/-!
# The socket across the init functions of the UDP modules

An init function that returns has to have released what it created, because the
exit functions release nothing. Receiving never creates or releases a socket, so
only the two exit labels decide.
-/

namespace ProtobufLkm.UdpSocketLifetime

open ByteCodec ByteMemory UdpReceiveModel

set_option autoImplicit false

/-- Sockets still open after the events, none if one was released that was not. -/
def openSockets : Nat → List UdpEvent → Option Nat
  | count, [] => some count
  | count, .sockCreate err :: rest => openSockets (if err < 0 then count else count + 1) rest
  | 0, .sockRelease :: _ => none
  | count + 1, .sockRelease :: rest => openSockets count rest
  | count, _ :: rest => openSockets count rest

/-- When the function returns, what it created has been released once. -/
def SocketsClosed (run : InitRun) : Prop :=
  run.result.isSome → openSockets 0 run.events = some 0

instance (run : InitRun) : Decidable (SocketsClosed run) := by
  unfold SocketsClosed
  infer_instance

def LeavesSockets : UdpEvent → Prop
  | .sockCreate _ => False
  | .sockRelease => False
  | _ => True

theorem open_sockets_append {events : List UdpEvent}
    (leaves : ∀ event ∈ events, LeavesSockets event) (count : Nat) (rest : List UdpEvent) :
    openSockets count (events ++ rest) = openSockets count rest := by
  induction events with
  | nil => rfl
  | cons event events ih =>
      have tail := ih fun other member => leaves other (List.mem_cons_of_mem _ member)
      have head := leaves event List.mem_cons_self
      cases event with
      | sockCreate err => exact head.elim
      | sockRelease => exact head.elim
      | bind err => simpa [openSockets] using tail
      | kernelRecvmsg ret => simpa [openSockets] using tail
      | extractMessageSize => simpa [openSockets] using tail
      | processMessage message size => simpa [openSockets] using tail
      | received bar => simpa [openSockets] using tail

theorem receive_once_leaves (buffer : Memory) (received : RecvResult) :
    ∀ event ∈ receiveOnce buffer received, LeavesSockets event := by
  intro event member
  cases received with
  | failed err =>
      rw [List.mem_singleton.mp member]
      trivial
  | datagram bytes =>
      simp only [receiveOnce] at member
      split_ifs at member <;> simp only [List.append_nil, List.cons_append, List.nil_append,
        List.mem_cons, List.not_mem_nil, or_false] at member
      · rcases member with rfl | rfl | rfl <;> trivial
      · rcases member with rfl | rfl <;> trivial

theorem receive_iteration_leaves (processMessage : List Byte → Int) (buffer : Memory)
    (received : RecvResult) :
    ∀ event ∈ (receiveIteration processMessage buffer received).1, LeavesSockets event := by
  intro event member
  cases received with
  | failed err =>
      rw [List.mem_singleton.mp member]
      trivial
  | datagram bytes =>
      simp only [receiveIteration] at member
      split_ifs at member <;> simp only [List.cons_append, List.nil_append, List.mem_cons,
        List.not_mem_nil, or_false] at member
      · rcases member with rfl | rfl | rfl | rfl <;> trivial
      · rcases member with rfl | rfl | rfl | rfl <;> trivial
      · rcases member with rfl | rfl <;> trivial

theorem receive_loop_leaves (processMessage : List Byte → Int) (buffer : Memory)
    (received : List RecvResult) :
    ∀ event ∈ (receiveLoop processMessage buffer received).1, LeavesSockets event :=
  ExitingLoop.run_outputs (receive_iteration_leaves processMessage) buffer received

/-- A failed `bind` is the one way past `out_release` with an open socket. -/
theorem socket_init_closed_iff (created bound : Int) {receive : List UdpEvent}
    (leaves : ∀ event ∈ receive, LeavesSockets event) (left : Bool) :
    SocketsClosed (socketInit created bound receive left) ↔ created < 0 ∨ 0 ≤ bound := by
  by_cases noSocket : created < 0
  · refine iff_of_true (fun _ => ?_) (Or.inl noSocket)
    rw [socketInit, if_pos noSocket]
    simp [openSockets, noSocket]
  by_cases noAddress : bound < 0
  · refine iff_of_false (fun closed => ?_) (by omega)
    rw [socketInit, if_neg noSocket, if_pos noAddress] at closed
    simp [SocketsClosed, openSockets, noSocket] at closed
  · refine iff_of_true (fun returned => ?_) (Or.inr (by omega))
    rw [socketInit, if_neg noSocket, if_neg noAddress] at returned ⊢
    cases left with
    | false => simp at returned
    | true =>
        simp only [if_true, List.cons_append, List.nil_append, openSockets,
          if_neg noSocket, open_sockets_append leaves]

/-- Every init function closes its socket in exactly the runs where none was
created or binding it succeeded, whatever it received. -/
theorem init_functions_close_sockets_iff (created bound : Int) (stack : Memory) :
    (∀ received : RecvResult,
      SocketsClosed (moduleInit created bound stack received) ↔ created < 0 ∨ 0 ≤ bound) ∧
    (∀ received : RecvResult,
      SocketsClosed (addressBookUdpInit created bound stack received) ↔ created < 0 ∨ 0 ≤ bound) ∧
    ∀ (processMessage : List Byte → Int) (received : List RecvResult),
      SocketsClosed (helloWorldUdpInit processMessage created bound stack received) ↔
        created < 0 ∨ 0 ≤ bound :=
  ⟨fun received => socket_init_closed_iff created bound (receive_once_leaves _ received) true,
    fun received => socket_init_closed_iff created bound (receive_once_leaves _ received) true,
    fun processMessage received =>
      socket_init_closed_iff created bound (receive_loop_leaves processMessage _ received) _⟩

/-- `bind` reports that the address is in use. -/
theorem failed_bind_leaks_socket :
    openSockets 0 (moduleInit 0 (-98) (fun _ => 0) (.datagram [])).events = some 1 ∧
      ¬SocketsClosed (moduleInit 0 (-98) (fun _ => 0) (.datagram [])) ∧
      ¬SocketsClosed (addressBookUdpInit 0 (-98) (fun _ => 0) (.datagram [])) ∧
      ¬SocketsClosed (helloWorldUdpInit (fun _ => 0) 0 (-98) (fun _ => 0) []) := by
  decide

end ProtobufLkm.UdpSocketLifetime
