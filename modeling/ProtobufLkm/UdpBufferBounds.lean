import ProtobufLkm.UdpDatagramSemantics
import ProtobufLkm.HelloWorldUdpIsolation

/-!
# Which buffer bytes the UDP modules touch

`buffer` has 128 bytes. `kernel_recvmsg` is told to deliver up to 1024, and a
declared size below 128 is accepted although the message starts four bytes into
the buffer. The receive loop of the hello_world example never clears `buffer`
again, so a short datagram leaves part of the previous size field in place.
-/

namespace ProtobufLkm.UdpBufferBounds

open ByteCodec ByteMemory MessageSizeModel UdpReceiveModel UdpDatagramSemantics
open HelloWorldUdpIsolation

set_option autoImplicit false

/-- The event may write or read the byte at this index of `buffer`. -/
def Touches : UdpEvent → Nat → Prop
  | .kernelRecvmsg ret, index => (index : Int) < ret
  | .extractMessageSize, index => index < 4
  | .processMessage _ size, index => 4 ≤ index ∧ (index : Int) < 4 + size
  | _, _ => False

def InBounds (events : List UdpEvent) : Prop :=
  ∀ event ∈ events, ∀ index, Touches event index → index < bufferSize

/-- A datagram no longer than the buffer that declares no size, one the size
check refuses, or one whose frame ends within the buffer. -/
def FitsBuffer (datagram : List Byte) : Prop :=
  let size := decodeBE (datagram.take 4)
  datagram.length ≤ bufferSize ∧
    (datagram.length < 4 ∨ size = 0 ∨ bufferSize ≤ size ∨ 4 + size ≤ bufferSize)

instance (datagram : List Byte) : Decidable (FitsBuffer datagram) := by
  unfold FitsBuffer
  infer_instance

/-- The size field at the start of `buffer` leads to reads inside it. -/
def SizeFits (buffer : Memory) : Prop :=
  declaredSize buffer 0 = 0 ∨ bufferSize ≤ declaredSize buffer 0 ∨
    4 + declaredSize buffer 0 ≤ bufferSize

theorem in_bounds_append (first second : List UdpEvent) :
    InBounds (first ++ second) ↔ InBounds first ∧ InBounds second :=
  List.forall_mem_append

section Datagram

variable (buffer : Memory) (datagram : List Byte)

/-- The receive and the read of the size field. -/
theorem reads_in_bounds_iff :
    InBounds [.kernelRecvmsg (datagram.take receiveSize).length, .extractMessageSize] ↔
      datagram.length ≤ bufferSize := by
  have received : (datagram.take receiveSize).length = min 1024 datagram.length :=
    List.length_take
  have capacity : bufferSize = 128 := rfl
  constructor
  · intro inside
    by_contra long
    have last := inside _ List.mem_cons_self bufferSize (by simp only [Touches]; omega)
    omega
  · intro fits event member index touched
    rcases List.mem_pair.mp member with rfl | rfl
    · simp only [Touches] at touched
      omega
    · simp only [Touches] at touched
      omega

theorem message_in_bounds_iff (message : List Byte) {size : Nat} (positive : 1 ≤ size) :
    InBounds [.processMessage message size] ↔ 4 + size ≤ bufferSize := by
  constructor
  · intro inside
    have last := inside _ List.mem_cons_self (3 + size) (by simp only [Touches]; omega)
    omega
  · intro fits event member index touched
    rw [List.mem_singleton.mp member] at touched
    simp only [Touches] at touched
    omega

theorem received_in_bounds (bar : Int) : InBounds [.received bar] := by
  intro event member index touched
  rw [List.mem_singleton.mp member] at touched
  exact touched.elim

theorem receive_once_in_bounds_iff :
    InBounds (receiveOnce buffer (.datagram datagram)) ↔
      datagram.length ≤ bufferSize ∧ SizeFits (storeDatagram datagram buffer) := by
  rw [← reads_in_bounds_iff]
  by_cases refused : declaredSize (storeDatagram datagram buffer) 0 = 0 ∨
      bufferSize ≤ declaredSize (storeDatagram datagram buffer) 0
  · rw [receive_once_refused refused]
    exact (and_iff_left (refused.imp_right Or.inl)).symm
  · rw [receive_once_message (by omega) (by omega)]
    have split := in_bounds_append
      [.kernelRecvmsg (datagram.take receiveSize).length, .extractMessageSize]
      [.processMessage (load (storeDatagram datagram buffer) 4
        (declaredSize (storeDatagram datagram buffer) 0))
        (declaredSize (storeDatagram datagram buffer) 0)]
    rw [List.cons_append, List.cons_append, List.nil_append] at split
    rw [split, message_in_bounds_iff _ (by omega), SizeFits]
    apply and_congr_right
    intro _
    omega

theorem receive_iteration_in_bounds_iff (processMessage : List Byte → Int) :
    InBounds (receiveIteration processMessage buffer (.datagram datagram)).1 ↔
      datagram.length ≤ bufferSize ∧ SizeFits (storeDatagram datagram buffer) := by
  rw [← receive_once_in_bounds_iff]
  by_cases refused : declaredSize (storeDatagram datagram buffer) 0 = 0 ∨
      bufferSize ≤ declaredSize (storeDatagram datagram buffer) 0
  · rw [receive_once_refused refused, receive_iteration_refused refused]
  · have once := @receive_once_message buffer datagram (by omega) (by omega)
    rw [receive_iteration_message (by omega) (by omega) rfl]
    have split := in_bounds_append (receiveOnce buffer (.datagram datagram))
      [.received (processMessage (load (storeDatagram datagram buffer) 4
        (declaredSize (storeDatagram datagram buffer) 0)))]
    rw [once] at split ⊢
    exact split.trans (and_iff_left (received_in_bounds _))

end Datagram

section SizeField

variable {buffer : Memory} {datagram : List Byte}

theorem size_fits_prefixed (buffer : Memory) (prefixed : 4 ≤ datagram.length) :
    SizeFits (storeDatagram datagram buffer) ↔
      decodeBE (datagram.take 4) = 0 ∨ bufferSize ≤ decodeBE (datagram.take 4) ∨
        4 + decodeBE (datagram.take 4) ≤ bufferSize := by
  rw [SizeFits, declared_size_store_datagram buffer prefixed]

/-- A datagram too short for a size field either makes the size too large or
leaves the last byte of the size that was there. -/
theorem size_fits_short (readable : 4 + declaredSize buffer 0 ≤ bufferSize)
    (short : datagram.length < 4) : SizeFits (storeDatagram datagram buffer) := by
  by_cases zeros : ∀ index, index < 3 → storeDatagram datagram buffer (0 + index) = 0
  · have last : storeDatagram datagram buffer 3 = buffer 3 :=
      store_datagram_outside buffer (by omega)
    have size : declaredSize (storeDatagram datagram buffer) 0 = (buffer 3).val := by
      rw [declaredSize, decode_be_load_zeros zeros, Nat.zero_add, last]
    have split : declaredSize buffer 0 =
        decodeBE (load buffer 0 3) * 256 ^ 1 + (buffer 3).val := by
      rw [declaredSize, load_add buffer 0 3 1, decode_be_append]
      simp [load, decodeBE]
    exact Or.inr (Or.inr (by omega))
  · push Not at zeros
    obtain ⟨index, low, nonzero⟩ := zeros
    rw [Nat.zero_add] at nonzero
    exact Or.inr (Or.inl (declared_size_of_nonzero low nonzero))

theorem fits_buffer_iff (readable : 4 + declaredSize buffer 0 ≤ bufferSize) :
    datagram.length ≤ bufferSize ∧ SizeFits (storeDatagram datagram buffer) ↔
      FitsBuffer datagram := by
  rw [FitsBuffer]
  apply and_congr_right
  intro _
  by_cases short : datagram.length < 4
  · exact iff_of_true (size_fits_short readable short) (Or.inl short)
  · rw [size_fits_prefixed buffer (by omega)]
    exact (or_iff_right short).symm

theorem zeroed_buffer_readable (stack : Memory) :
    4 + declaredSize (zeroedBuffer stack) 0 ≤ bufferSize := by
  have zeros : ∀ index, index < 4 → zeroedBuffer stack (0 + index) = 0 := by
    intro index low
    have inside : 0 + index < (List.replicate bufferSize (0 : Byte)).length := by
      rw [List.length_replicate]
      exact (by omega : 0 + index < 4).trans (by decide)
    rw [zeroedBuffer, overlay_inside stack inside, List.getElem_replicate]
  have size : declaredSize (zeroedBuffer stack) 0 = zeroedBuffer stack (0 + 3) :=
    decode_be_load_zeros fun index low => zeros index (by omega)
  rw [size, zeros 3 (by decide)]
  decide

end SizeField

section Runs

variable {process : List Byte → Int}

theorem receive_iteration_keeps (process : List Byte → Int) {buffer : Memory}
    (readable : 4 + declaredSize buffer 0 ≤ bufferSize) {received : RecvResult}
    (fits : ∀ datagram, received = .datagram datagram → FitsBuffer datagram) :
    InBounds (receiveIteration process buffer received).1 ∧
      ∀ next, (receiveIteration process buffer received).2 = some next →
        4 + declaredSize next 0 ≤ bufferSize := by
  cases received with
  | failed err =>
      constructor
      · intro event member index touched
        have negative := err.property
        rw [List.mem_singleton.mp member] at touched
        simp only [Touches] at touched
        omega
      · intro next continues
        cases continues
  | datagram datagram =>
      have inside := (fits_buffer_iff readable).mpr (fits datagram rfl)
      refine ⟨(receive_iteration_in_bounds_iff buffer datagram process).mpr inside, ?_⟩
      intro next continues
      by_cases refused : declaredSize (storeDatagram datagram buffer) 0 = 0 ∨
          bufferSize ≤ declaredSize (storeDatagram datagram buffer) 0
      · rw [receive_iteration_refused refused] at continues
        cases continues
      · rw [receive_iteration_message (by omega) (by omega) rfl] at continues
        simp only at continues
        split_ifs at continues
        rw [Option.some.injEq] at continues
        have size := inside.2
        rw [SizeFits, continues] at size
        rw [continues] at refused
        omega

theorem receive_loop_in_bounds (process : List Byte → Int) (stack : Memory)
    {received : List RecvResult}
    (fits : ∀ datagram, .datagram datagram ∈ received → FitsBuffer datagram) :
    InBounds (receiveLoop process (zeroedBuffer stack) received).1 ∧
      ∀ buffer, Reaches process stack received buffer → 4 + declaredSize buffer 0 ≤ bufferSize := by
  have good : ∀ input ∈ received, ∀ datagram, input = .datagram datagram → FitsBuffer datagram := by
    intro input member datagram same
    exact fits datagram (same ▸ member)
  exact @ExitingLoop.run_invariant _ _ _ (receiveIteration process)
    (fun input => ∀ datagram, input = .datagram datagram → FitsBuffer datagram)
    (fun buffer => 4 + declaredSize buffer 0 ≤ bufferSize)
    (fun event => ∀ index, Touches event index → index < bufferSize)
    (fun buffer input readable => receive_iteration_keeps process readable)
    (zeroedBuffer stack) received (zeroed_buffer_readable stack) good

theorem receive_iteration_reached_iff (process : List Byte → Int) {stack buffer : Memory}
    {earlier : List RecvResult}
    (fits : ∀ datagram, .datagram datagram ∈ earlier → FitsBuffer datagram)
    (reached : Reaches process stack earlier buffer) (datagram : List Byte) :
    InBounds (receiveIteration process buffer (.datagram datagram)).1 ↔ FitsBuffer datagram := by
  rw [receive_iteration_in_bounds_iff]
  exact fits_buffer_iff ((receive_loop_in_bounds process stack fits).2 buffer reached)

end Runs

section Init

variable {created bound : Int} (socketCreated : 0 ≤ created) (socketBound : 0 ≤ bound)

include socketCreated socketBound

theorem socket_init_in_bounds_iff (receive : List UdpEvent) (left : Bool) :
    InBounds (socketInit created bound receive left).events ↔ InBounds receive := by
  have setup : InBounds [.sockCreate created, .bind bound] := by
    intro event member index touched
    rcases List.mem_pair.mp member with rfl | rfl
    · exact touched.elim
    · exact touched.elim
  have release : InBounds (if left then [.sockRelease] else []) := by
    intro event member index touched
    split_ifs at member
    · rw [List.mem_singleton.mp member] at touched
      exact touched.elim
    · cases member
  rw [socket_init_events socketCreated socketBound, in_bounds_append, in_bounds_append]
  exact (and_iff_right setup).trans (and_iff_left release)

theorem receive_once_init_in_bounds_iff (stack : Memory) (datagram : List Byte) :
    InBounds (socketInit created bound
        (receiveOnce (zeroedBuffer stack) (.datagram datagram)) true).events ↔
      FitsBuffer datagram := by
  rw [socket_init_in_bounds_iff socketCreated socketBound, receive_once_in_bounds_iff]
  exact fits_buffer_iff (zeroed_buffer_readable stack)

/-- The modules that receive once stay inside `buffer` on a datagram exactly when
it fits, and so does an iteration of the loop that only fitting datagrams came
before. -/
theorem receive_path_in_bounds_iff (process : List Byte → Int) (stack : Memory) :
    (∀ datagram, InBounds (moduleInit created bound stack (.datagram datagram)).events ↔
      FitsBuffer datagram) ∧
    (∀ datagram, InBounds (addressBookUdpInit created bound stack (.datagram datagram)).events ↔
      FitsBuffer datagram) ∧
    ∀ earlier, (∀ datagram, .datagram datagram ∈ earlier → FitsBuffer datagram) →
      InBounds (helloWorldUdpInit process created bound stack earlier).events ∧
      ∀ buffer, Reaches process stack earlier buffer → ∀ datagram,
        InBounds (receiveIteration process buffer (.datagram datagram)).1 ↔
          FitsBuffer datagram := by
  refine ⟨?_, ?_, ?_⟩
  · exact receive_once_init_in_bounds_iff socketCreated socketBound stack
  · exact receive_once_init_in_bounds_iff socketCreated socketBound stack
  · intro earlier fits
    constructor
    · exact (socket_init_in_bounds_iff socketCreated socketBound _ _).mpr
        (receive_loop_in_bounds process stack fits).1
    · intro buffer reached
      exact receive_iteration_reached_iff process fits reached

end Init

theorem receive_path_in_bounds_two_byte_message :
    InBounds (moduleInit 0 0 (fun _ => 0) (.datagram [0, 0, 0, 2, 8, 1])).events :=
  ((receive_path_in_bounds_iff (by decide : (0 : Int) ≤ 0) (by decide : (0 : Int) ≤ 0)
    (fun _ => 0) fun _ => 0).1 _).mpr (by decide)

/-- One byte more than the buffer is stored behind it; a declared size of 125
makes `process_message` read behind it although all received bytes are inside. -/
theorem long_datagram_overruns_buffer :
    ¬InBounds (moduleInit 0 0 (fun _ => 0) (.datagram (List.replicate 129 0))).events ∧
      ¬InBounds (moduleInit 0 0 (fun _ => 0) (.datagram [0, 0, 0, 125])).events := by
  have exact_at := receive_once_init_in_bounds_iff (by decide : (0 : Int) ≤ 0)
    (by decide : (0 : Int) ≤ 0) (fun _ => 0)
  constructor
  · exact (exact_at _).not.mpr (by decide +kernel)
  · exact (exact_at _).not.mpr (by decide)

end ProtobufLkm.UdpBufferBounds
