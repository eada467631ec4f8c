import ProtobufLkm.HelloWorldTcpModel
import ProtobufLkm.FramedTcpDemo

/-!
# What the hello_world server prints

The server handles connections one after the other, so the first value whose
segment the hook keeps dropping blocks it in the read on that connection. At rest
it has printed the values before that one.
-/

namespace ProtobufLkm.HelloWorldTcpDemo

open ByteCodec NetfilterHookModel LengthFraming Proto3Wire HelloWorldMessage
open FramedTcpModel FramedTcpDemo HelloWorldTcpModel

set_option autoImplicit false

def passes (value : Int) : Bool := decide (value < 20)

section Law

variable {decoder : PbtoolsDecoder} {unmarshal : List Byte → Option Int}
  {values : List Int} {state : DemoState Int}

/-- The value 0 is not judged, and the rule would let it pass. -/
theorem hello_world_verdict (conforms : decoder.Conforms) {value : Int} (inRange : IsInt32 value) :
    verdictOf (helloWorldDemo decoder unmarshal) value = if 20 ≤ value then .drop else .accept := by
  by_cases zero : value = 0
  · rw [zero]
    exact verdict_of_empty rfl
  · have nonempty : marshalFoo value ≠ [] := List.length_pos_iff.mp (marshal_foo_length_pos zero)
    have small : (marshalFoo value).length < bufferSize :=
      (marshal_foo_length_le value).trans_lt (by decide)
    have verdict : verdictOf (helloWorldDemo decoder unmarshal) value =
        processMessage decoder (marshalFoo value) := verdict_of_judged nonempty small
    rw [verdict, process_message_marshal conforms inRange]

theorem hello_world_passes (conforms : decoder.Conforms) {value : Int} (inRange : IsInt32 value) :
    FramedTcpModel.passes (helloWorldDemo decoder unmarshal) value = passes value := by
  rw [FramedTcpModel.passes, hello_world_verdict conforms inRange, passes]
  split_ifs with large
  · simp [not_lt.mpr large]
  · simp [not_le.mp large]

theorem hello_world_passing (conforms : decoder.Conforms)
    (inRange : ∀ value ∈ values, IsInt32 value) :
    values.takeWhile (FramedTcpModel.passes (helloWorldDemo decoder unmarshal)) =
      values.takeWhile passes := by
  apply take_while_congr
  intro value member
  exact hello_world_passes conforms (inRange value member)

theorem hello_world_round_trips (unmarshals : Unmarshals unmarshal)
    (inRange : ∀ value ∈ values, IsInt32 value) :
    RoundTrips (helloWorldDemo decoder unmarshal) values :=
  fun value member => unmarshals value (inRange value member)

theorem hello_world_frame_length (value : Int) :
    (clientFrame (helloWorldDemo decoder unmarshal) value).length ≤ 65495 := by
  have framed : (clientFrame (helloWorldDemo decoder unmarshal) value).length =
      4 + (marshalFoo value).length := frame_length _
  have short := marshal_foo_length_le value
  omega

/-- At rest the server has printed exactly the values before the first one of at
least 20, in order. -/
theorem quiescent_prints_passing_prefix (conforms : decoder.Conforms)
    (unmarshals : Unmarshals unmarshal) (inRange : ∀ value ∈ values, IsInt32 value)
    (reachable : Reachable (helloWorldDemo decoder unmarshal) values state)
    (quiescent : Quiescent (helloWorldDemo decoder unmarshal) state) :
    state.printed = values.takeWhile passes := by
  rw [← hello_world_passing conforms inRange]
  exact quiescent_prints_passing (hello_world_round_trips unmarshals inRange) reachable quiescent

end Law

section BlockedRun

def unmarshalWire (encoded : List Byte) : Option Int :=
  (parse encoded).map fun fields =>
    (helloWorldFooDecodeInner (fields.map fun field => (field.number, field.int32))
      helloWorldFooInit).bar

theorem unmarshal_wire_marshal : Unmarshals unmarshalWire := by
  intro value inRange
  have parsed : parse (marshalFoo value) = some (int32Field 1 value) :=
    parse_encode_fields (int32_field_well_formed (by decide) value)
  rw [unmarshalWire, parsed, Option.map_some]
  rw [← decoded_bar_of_fields wire_decoder_conforms fun field member =>
    ⟨int32_field_well_formed (by decide) value field member,
      int32_field_varint 1 value field member⟩]
  exact congrArg some (decoded_bar_marshal wire_decoder_conforms inRange)

def wireDemo : Demo Int := helloWorldDemo wireDecoder unmarshalWire

theorem client_sends {values : List Int} {state : DemoState Int} {value : Int} {rest : List Int}
    (reachable : Reachable wireDemo values state) (pending : state.pending = value :: rest)
    (written : ∀ connection ∈ state.connections, connection.flight ≠ .unsent)
    (inRange : IsInt32 value) :
    Reachable wireDemo values { state with
      pending := rest
      connections := state.connections ++
        [{ message := value, flight := if 20 ≤ value then .sent true else .accepted }] } := by
  have last : ∀ flight : Flight,
      (state.connections ++ [Connection.mk value flight])[state.connections.length]? =
        some { message := value, flight := flight } := fun flight => List.getElem?_concat_length
  have replaced : ∀ before after : Flight,
      (state.connections ++ [Connection.mk value before]).set state.connections.length
        (Connection.mk value after) = state.connections ++ [Connection.mk value after] := by
    intro before after
    rw [List.set_append_right _ _ le_rfl, Nat.sub_self, List.set_cons_zero]
  have dialled := reachable.tail (.client (.dial pending written))
  have sent := dialled.tail (.client (.write (last .unsent) rfl))
  rw [DemoState.update, replaced] at sent
  have small : (clientFrame wireDemo value).length ≤ 65495 := hello_world_frame_length value
  have inspected := sent.tail (.network
    (@linear_hook_step _ wireDemo _ _ ⟨value, .sent false⟩ small (last (.sent false)) rfl))
  have verdict : verdictOf wireDemo value = if 20 ≤ value then .drop else .accept :=
    hello_world_verdict wire_decoder_conforms inRange
  rw [DemoState.update, replaced, verdict] at inspected
  by_cases large : 20 ≤ value
  · rw [if_pos large] at inspected ⊢
    exact inspected
  · rw [if_neg large] at inspected ⊢
    exact inspected

def blockedState : DemoState Int where
  pending := []
  connections := [⟨3, .delivered⟩, ⟨20, .sent true⟩, ⟨1, .delivered⟩]
  server := .readingLength 1
  printed := [3]

theorem blocked_reachable : Reachable wireDemo [3, 20, 1] blockedState := by
  have start : Reachable wireDemo [3, 20, 1] (initial [3, 20, 1]) := .refl
  have first : Reachable wireDemo [3, 20, 1] ⟨[20, 1], [⟨3, .accepted⟩], .accepting 0, []⟩ :=
    client_sends start rfl (by simp [initial]) (by simp [IsInt32])
  have delivered : Reachable wireDemo [3, 20, 1]
      ⟨[20, 1], [⟨3, .delivered⟩], .accepting 0, []⟩ :=
    first.tail (.network (@NetworkStep.deliver _ _ _ 0 ⟨3, .accepted⟩ rfl rfl))
  have accepted : Reachable wireDemo [3, 20, 1]
      ⟨[20, 1], [⟨3, .delivered⟩], .readingLength 0, []⟩ :=
    delivered.tail (.server (.accept rfl (by decide)))
  have length : Reachable wireDemo [3, 20, 1]
      ⟨[20, 1], [⟨3, .delivered⟩], .readingBody 0 2, []⟩ :=
    accepted.tail (.server (@ServerStep.readLength _ wireDemo _ 0 ⟨3, .delivered⟩ rfl rfl
      (by decide)))
  have printed : Reachable wireDemo [3, 20, 1]
      ⟨[20, 1], [⟨3, .delivered⟩], .accepting 1, [3]⟩ :=
    length.tail (.server (@ServerStep.readMessage _ wireDemo _ 0 2 ⟨3, .delivered⟩ 3 rfl rfl
      (by decide) (by decide)))
  have second : Reachable wireDemo [3, 20, 1]
      ⟨[1], [⟨3, .delivered⟩, ⟨20, .sent true⟩], .accepting 1, [3]⟩ :=
    client_sends printed rfl (by decide) (by simp [IsInt32])
  have blocked : Reachable wireDemo [3, 20, 1]
      ⟨[1], [⟨3, .delivered⟩, ⟨20, .sent true⟩], .readingLength 1, [3]⟩ :=
    second.tail (.server (.accept rfl (by decide)))
  have third : Reachable wireDemo [3, 20, 1]
      ⟨[], [⟨3, .delivered⟩, ⟨20, .sent true⟩, ⟨1, .accepted⟩], .readingLength 1, [3]⟩ :=
    client_sends blocked rfl (by decide) (by simp [IsInt32])
  exact third.tail (.network (@NetworkStep.deliver _ _ _ 2 ⟨1, .accepted⟩ rfl rfl))

theorem blocked_quiescent : Quiescent wireDemo blockedState where
  sent := rfl
  settled := by decide
  blocked := by
    intro next step
    cases step with
    | accept accepting => cases accepting
    | readLength reading found arrived =>
        cases reading
        cases found
        exact absurd arrived (by decide)
    | readMessage reading => cases reading
    | readMalformed reading => cases reading

theorem quiescent_prints_passing_prefix_blocked :
    blockedState.printed = [3, 20, 1].takeWhile passes :=
  quiescent_prints_passing_prefix wire_decoder_conforms unmarshal_wire_marshal
    (by simp [IsInt32]) blocked_reachable blocked_quiescent

/-- The value 1 passes the rule and is never printed: the server still waits for
the connection of the dropped 20. -/
theorem later_value_never_printed :
    Reachable (helloWorldDemo wireDecoder unmarshalWire) [3, 20, 1] blockedState ∧
      Quiescent (helloWorldDemo wireDecoder unmarshalWire) blockedState ∧
      blockedState.printed ≠ [3, 20, 1].filter passes :=
  ⟨blocked_reachable, blocked_quiescent, by decide⟩

end BlockedRun

end ProtobufLkm.HelloWorldTcpDemo
