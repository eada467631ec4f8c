import ProtobufLkm.MessageSizeModel
import ProtobufLkm.ExitingLoop

/-!
# The init functions of the UDP modules

The generated `main.c` and the address-book example receive one datagram, the
hello_world example receives in a loop; socket setup and the two exit labels are
the same in all three. A run records its socket calls, what it hands to
`process_message` and what it reports. `pr_info` and `pr_err` lines other than
`received` are left out.
-/

namespace ProtobufLkm.UdpReceiveModel

open ByteCodec ByteMemory MessageSizeModel

set_option autoImplicit false

def bufferSize : Nat := 128

/-- The size argument of `kernel_recvmsg`. -/
def receiveSize : Nat := 1024

/-- An error is a negative return value; otherwise a datagram was waiting. -/
inductive RecvResult where
  | failed (err : { err : Int // err < 0 })
  | datagram (bytes : List Byte)

inductive UdpEvent where
  | sockCreate (err : Int)
  | bind (err : Int)
  | kernelRecvmsg (ret : Int)
  | extractMessageSize
  | processMessage (message : List Byte) (size : Int)
  | received (bar : Int)
  | sockRelease
  deriving DecidableEq, Repr

/-- There is no result while the function waits in `kernel_recvmsg`. -/
structure InitRun where
  events : List UdpEvent
  result : Option Int
  deriving DecidableEq, Repr

def UdpEvent.call : UdpEvent → Option (List Byte × Int)
  | .processMessage message size => some (message, size)
  | _ => none

def InitRun.calls (run : InitRun) : List (List Byte × Int) := run.events.filterMap UdpEvent.call

/-- `buffer` after the `memset`, with the stack around it. -/
def zeroedBuffer (stack : Memory) : Memory := overlay (List.replicate bufferSize 0) stack

/-- What `kernel_recvmsg` stores through the iovec. -/
def storeDatagram (bytes : List Byte) (buffer : Memory) : Memory :=
  overlay (bytes.take receiveSize) buffer

def extractMessageSize (buffer : Memory) : Int :=
  MessageSizeModel.extractMessageSize bufferSize buffer 0

/-- From `kernel_recvmsg` to `out_release`, in the modules that receive once. -/
def receiveOnce (buffer : Memory) : RecvResult → List UdpEvent
  | .failed err => [.kernelRecvmsg err]
  | .datagram bytes =>
      let filled := storeDatagram bytes buffer
      let size := extractMessageSize filled
      [.kernelRecvmsg (bytes.take receiveSize).length, .extractMessageSize] ++
        if size > 0 then [.processMessage (load filled 4 size.toNat) size] else []

/-- One iteration of the `do` loop of `hello_world_udp_init`. Without a next
buffer the loop has been left. -/
def receiveIteration (processMessage : List Byte → Int) (buffer : Memory) :
    RecvResult → List UdpEvent × Option Memory
  | .failed err => ([.kernelRecvmsg err], none)
  | .datagram bytes =>
      let filled := storeDatagram bytes buffer
      let size := extractMessageSize filled
      let reads := [.kernelRecvmsg (bytes.take receiveSize).length, .extractMessageSize]
      if size > 0 then
        let message := load filled 4 size.toNat
        let bar := processMessage message
        (reads ++ [.processMessage message size, .received bar],
          if bar ≤ 5 then some filled else none)
      else
        (reads, none)

/-- The part the init functions share: a failed call jumps to `out`, leaving the
receive part passes `out_release`. -/
def socketInit (created bound : Int) (receive : List UdpEvent) (left : Bool) : InitRun :=
  if created < 0 then
    { events := [.sockCreate created], result := some 0 }
  else if bound < 0 then
    { events := [.sockCreate created, .bind bound], result := some 0 }
  else if left then
    { events := [.sockCreate created, .bind bound] ++ receive ++ [.sockRelease], result := some 0 }
  else
    { events := [.sockCreate created, .bind bound] ++ receive, result := none }

/-- The generated `{module_name}_init`. -/
def moduleInit (created bound : Int) (stack : Memory) (received : RecvResult) : InitRun :=
  socketInit created bound (receiveOnce (zeroedBuffer stack) received) true

def addressBookUdpInit (created bound : Int) (stack : Memory) (received : RecvResult) : InitRun :=
  socketInit created bound (receiveOnce (zeroedBuffer stack) received) true

def receiveLoop (processMessage : List Byte → Int) (buffer : Memory) (received : List RecvResult) :
    List UdpEvent × Option Memory :=
  ExitingLoop.run (receiveIteration processMessage) buffer received

def helloWorldUdpInit (processMessage : List Byte → Int) (created bound : Int) (stack : Memory)
    (received : List RecvResult) : InitRun :=
  let loop := receiveLoop processMessage (zeroedBuffer stack) received
  socketInit created bound loop.1 loop.2.isNone

section Ready

variable {created bound : Int} (socketCreated : 0 ≤ created) (socketBound : 0 ≤ bound)
  (receive : List UdpEvent) (left : Bool)

include socketCreated socketBound

theorem socket_init_events : (socketInit created bound receive left).events =
    [.sockCreate created, .bind bound] ++ (receive ++ if left then [.sockRelease] else []) := by
  rw [socketInit, if_neg (by omega), if_neg (by omega)]
  cases left <;> simp

theorem socket_init_result :
    (socketInit created bound receive left).result = if left then some 0 else none := by
  rw [socketInit, if_neg (by omega), if_neg (by omega)]
  cases left <;> rfl

/-- Seen through observations that ignore socket setup and release, the run is
its receive part. -/
theorem socket_init_observed {Output : Type} {observe : UdpEvent → Option Output}
    (create : observe (.sockCreate created) = none) (bind : observe (.bind bound) = none)
    (release : observe .sockRelease = none) :
    (socketInit created bound receive left).events.filterMap observe =
      receive.filterMap observe := by
  rw [socket_init_events socketCreated socketBound, List.filterMap_append, List.filterMap_append]
  cases left <;> simp [create, bind, release]

end Ready

section Datagram

variable (buffer : Memory) {bytes : List Byte}

theorem store_datagram_inside {offset : Nat} (inside : offset < bytes.length)
    (received : offset < receiveSize) : storeDatagram bytes buffer offset = bytes[offset] := by
  rw [storeDatagram, overlay_inside buffer (by simp only [List.length_take]; omega),
    List.getElem_take]

theorem store_datagram_outside {offset : Nat} (outside : bytes.length ≤ offset) :
    storeDatagram bytes buffer offset = buffer offset :=
  overlay_outside buffer (by simp only [List.length_take]; omega)

theorem load_store_datagram {start count : Nat} (inside : start + count ≤ bytes.length)
    (received : start + count ≤ receiveSize) :
    load (storeDatagram bytes buffer) start count = (bytes.drop start).take count := by
  rw [storeDatagram, load_overlay_inside buffer (by simp only [List.length_take]; omega),
    List.drop_take, List.take_take]
  congr 1
  omega

theorem declared_size_store_datagram (prefixed : 4 ≤ bytes.length) :
    declaredSize (storeDatagram bytes buffer) 0 = decodeBE (bytes.take 4) := by
  rw [declaredSize, load_store_datagram buffer prefixed (by decide), List.drop_zero]

end Datagram

section Receive

variable {buffer : Memory} {bytes : List Byte}

theorem receive_once_refused (refused : declaredSize (storeDatagram bytes buffer) 0 = 0 ∨
      bufferSize ≤ declaredSize (storeDatagram bytes buffer) 0) :
    receiveOnce buffer (.datagram bytes) =
      [.kernelRecvmsg (bytes.take receiveSize).length, .extractMessageSize] := by
  have size : extractMessageSize (storeDatagram bytes buffer) ≤ 0 :=
    extract_message_size_refuses refused
  simp only [receiveOnce]
  rw [if_neg (by omega), List.append_nil]

theorem receive_once_message (positive : 1 ≤ declaredSize (storeDatagram bytes buffer) 0)
    (fits : declaredSize (storeDatagram bytes buffer) 0 < bufferSize) :
    receiveOnce buffer (.datagram bytes) =
      [.kernelRecvmsg (bytes.take receiveSize).length, .extractMessageSize,
        .processMessage
          (load (storeDatagram bytes buffer) 4 (declaredSize (storeDatagram bytes buffer) 0))
          (declaredSize (storeDatagram bytes buffer) 0)] := by
  have size : extractMessageSize (storeDatagram bytes buffer) =
      declaredSize (storeDatagram bytes buffer) 0 := extract_message_size_accepts (by decide) fits
  simp only [receiveOnce, size, Int.toNat_natCast]
  rw [if_pos (by omega)]
  rfl

variable {processMessage : List Byte → Int}

theorem receive_iteration_refused (refused : declaredSize (storeDatagram bytes buffer) 0 = 0 ∨
      bufferSize ≤ declaredSize (storeDatagram bytes buffer) 0) :
    receiveIteration processMessage buffer (.datagram bytes) =
      ([.kernelRecvmsg (bytes.take receiveSize).length, .extractMessageSize], none) := by
  have size : extractMessageSize (storeDatagram bytes buffer) ≤ 0 :=
    extract_message_size_refuses refused
  simp only [receiveIteration]
  rw [if_neg (by omega)]

theorem receive_iteration_message (positive : 1 ≤ declaredSize (storeDatagram bytes buffer) 0)
    (fits : declaredSize (storeDatagram bytes buffer) 0 < bufferSize) {message : List Byte}
    (stored : load (storeDatagram bytes buffer) 4 (declaredSize (storeDatagram bytes buffer) 0) =
      message) :
    receiveIteration processMessage buffer (.datagram bytes) =
      ([.kernelRecvmsg (bytes.take receiveSize).length, .extractMessageSize,
          .processMessage message (declaredSize (storeDatagram bytes buffer) 0),
          .received (processMessage message)],
        if processMessage message ≤ 5 then some (storeDatagram bytes buffer) else none) := by
  have size : extractMessageSize (storeDatagram bytes buffer) =
      declaredSize (storeDatagram bytes buffer) 0 := extract_message_size_accepts (by decide) fits
  simp only [receiveIteration, size, Int.toNat_natCast, stored]
  rw [if_pos (by omega)]
  rfl

end Receive

end ProtobufLkm.UdpReceiveModel
