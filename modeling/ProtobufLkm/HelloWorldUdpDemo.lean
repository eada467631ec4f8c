import ProtobufLkm.HelloWorldUdpIsolation

/-!
# The hello_world UDP demo from typed values to reported values

The client frames every value into a datagram of its own. The loop goes on after
values of at most 5 other than 0: a larger value is the last one reported, and 0
is encoded as no bytes, which the receiver treats as an empty package and leaves
without a report.
-/

namespace ProtobufLkm.HelloWorldUdpDemo

open ByteCodec ByteMemory MessageSizeModel LengthFraming Proto3Wire HelloWorldMessage
open UdpReceiveModel HelloWorldUdpIsolation

set_option autoImplicit false

def clientDatagram (value : Int) : List Byte := frame (marshalFoo value)

def clientDatagrams (values : List Int) : List RecvResult :=
  values.map fun value => .datagram (clientDatagram value)

def report : UdpEvent → Option Int
  | .received bar => some bar
  | _ => none

def reports (run : InitRun) : List Int := run.events.filterMap report

def keepsReceiving (value : Int) : Bool := decide (value ≠ 0 ∧ value ≤ 5)

/-- The report on the first value the loop does not go on after. -/
def lastReport : List Int → List Int
  | [] => []
  | value :: _ => if value = 0 then [] else [value]

section Iterations

variable {decoder : PbtoolsDecoder} (buffer : Memory)

theorem declared_size_client_datagram (value : Int) :
    declaredSize (storeDatagram (clientDatagram value) buffer) 0 = (marshalFoo value).length := by
  have length := marshal_foo_length_le value
  rw [clientDatagram, declared_size_store_datagram _ (by rw [frame_length]; omega),
    frame_size (by omega)]

theorem receive_iteration_zero :
    receiveIteration (processMessage decoder) buffer (.datagram (clientDatagram 0)) =
      ([.kernelRecvmsg 4, .extractMessageSize], none) := by
  have empty : declaredSize (storeDatagram (clientDatagram 0) buffer) 0 = 0 :=
    declared_size_client_datagram buffer 0
  rw [receive_iteration_refused (Or.inl empty)]
  rfl

theorem receive_iteration_value (conforms : decoder.Conforms) {value : Int}
    (inRange : IsInt32 value) (nonzero : value ≠ 0) :
    receiveIteration (processMessage decoder) buffer (.datagram (clientDatagram value)) =
      ([.kernelRecvmsg ((clientDatagram value).take receiveSize).length, .extractMessageSize,
          .processMessage (marshalFoo value) (marshalFoo value).length, .received value],
        if value ≤ 5 then some (storeDatagram (clientDatagram value) buffer) else none) := by
  have positive := marshal_foo_length_pos nonzero
  have length := marshal_foo_length_le value
  have small : 20 < bufferSize ∧ 24 ≤ receiveSize := by decide
  have declared := declared_size_client_datagram buffer value
  have stored : load (storeDatagram (clientDatagram value) buffer) 4
      (declaredSize (storeDatagram (clientDatagram value) buffer) 0) = marshalFoo value := by
    have received : 4 + (marshalFoo value).length ≤ receiveSize := by omega
    rw [declared, clientDatagram, load_store_datagram buffer (by rw [frame_length]) received,
      frame_drop, List.take_length]
  have bar : processMessage decoder (marshalFoo value) = value :=
    decoded_bar_marshal conforms inRange
  rw [receive_iteration_message (by omega) (by omega) stored, bar, declared]

end Iterations

theorem receive_loop_reports {decoder : PbtoolsDecoder} (conforms : decoder.Conforms)
    {values : List Int} (inRange : ∀ value ∈ values, IsInt32 value) (buffer : Memory) :
    (receiveLoop (processMessage decoder) buffer (clientDatagrams values)).1.filterMap report =
        values.takeWhile keepsReceiving ++ lastReport (values.dropWhile keepsReceiving) ∧
      (receiveLoop (processMessage decoder) buffer (clientDatagrams values)).2.isNone =
        !values.all keepsReceiving := by
  induction values generalizing buffer with
  | nil => exact ⟨rfl, rfl⟩
  | cons value values ih =>
      have tail := ih fun other member => inRange other (List.mem_cons_of_mem _ member)
      have head := inRange value List.mem_cons_self
      have datagrams : clientDatagrams (value :: values) =
          .datagram (clientDatagram value) :: clientDatagrams values := rfl
      rw [receiveLoop, datagrams]
      by_cases zero : value = 0
      · have stops : keepsReceiving 0 = false := rfl
        have step : receiveIteration (processMessage decoder) buffer
            (.datagram (clientDatagram 0)) = _ := receive_iteration_zero buffer
        rw [zero, ExitingLoop.run_cons_left _ (congrArg Prod.snd step), step]
        simp [stops, lastReport, report, List.filterMap_cons]
      · have step := receive_iteration_value buffer conforms head zero
        by_cases small : value ≤ 5
        · have continues : keepsReceiving value = true := by simp [keepsReceiving, zero, small]
          rw [if_pos small] at step
          obtain ⟨tailReports, tailLeft⟩ := tail (storeDatagram (clientDatagram value) buffer)
          rw [ExitingLoop.run_cons_next _ (congrArg Prod.snd step), step]
          rw [receiveLoop] at tailReports tailLeft
          simp [continues, report, List.filterMap_cons, tailReports, tailLeft]
        · have stops : keepsReceiving value = false := by simp [keepsReceiving, small]
          rw [if_neg small] at step
          rw [ExitingLoop.run_cons_left _ (congrArg Prod.snd step), step]
          simp [stops, lastReport, zero, report, List.filterMap_cons]

/-- All values are reported up to the first that is 0 or above 5; that one is
reported if it is not 0, and it is what the loop leaves on. -/
theorem demo_reports_values {decoder : PbtoolsDecoder} (conforms : decoder.Conforms)
    {created bound : Int} (socketCreated : 0 ≤ created) (socketBound : 0 ≤ bound) (stack : Memory)
    {values : List Int} (inRange : ∀ value ∈ values, IsInt32 value) :
    let run := helloWorldUdpInit (processMessage decoder) created bound stack
      (clientDatagrams values)
    reports run =
        values.takeWhile keepsReceiving ++ lastReport (values.dropWhile keepsReceiving) ∧
      (run.result = none ↔ ∀ value ∈ values, value ≠ 0 ∧ value ≤ 5) := by
  obtain ⟨reported, left⟩ := receive_loop_reports conforms inRange (zeroedBuffer stack)
  simp only [helloWorldUdpInit, reports]
  rw [socket_init_observed socketCreated socketBound _ _ rfl rfl rfl, reported,
    socket_init_result socketCreated socketBound, left]
  have all : values.all keepsReceiving = true ↔ ∀ value ∈ values, value ≠ 0 ∧ value ≤ 5 := by
    simp only [List.all_eq_true, keepsReceiving, decide_eq_true_eq]
  rw [← all]
  refine ⟨rfl, ?_⟩
  cases values.all keepsReceiving <;> simp

theorem demo_reports_values_three :
    let run := helloWorldUdpInit (processMessage wireDecoder) 0 0 (fun _ => 0)
      (clientDatagrams [-1, 5, 6])
    reports run = [-1, 5, 6].takeWhile keepsReceiving ++
        lastReport ([-1, 5, 6].dropWhile keepsReceiving) ∧
      (run.result = none ↔ ∀ value ∈ [-1, 5, 6], value ≠ 0 ∧ value ≤ 5) :=
  demo_reports_values wire_decoder_conforms (by decide) (by decide) (fun _ => 0)
    (by simp [IsInt32])

/-- The value 0 ends the demo unreported. -/
theorem zero_value_ends_demo :
    let run := helloWorldUdpInit (processMessage wireDecoder) 0 0 (fun _ => 0) (clientDatagrams [0])
    reports run = [] ∧ run.result = some 0 := by
  decide +kernel

end ProtobufLkm.HelloWorldUdpDemo
