import ProtobufLkm.HelloWorldMessage
import ProtobufLkm.FramedTcpModel

/-!
# The hello_world netfilter demo

The hello_world programs as an instance of the framed demo: the client sends the
values that are typed, and the module drops those of at least 20.
-/

namespace ProtobufLkm.HelloWorldTcpModel

open ByteCodec NetfilterHookModel Proto3Wire HelloWorldMessage FramedTcpModel

set_option autoImplicit false

/-- `process_message` of the hello_world netfilter example. -/
def processMessage (decoder : PbtoolsDecoder) (message : List Byte) : Verdict :=
  if decodedBar decoder message ≥ 20 then .drop else .accept

def helloWorldDemo (decoder : PbtoolsDecoder) (unmarshal : List Byte → Option Int) : Demo Int where
  marshal := marshalFoo
  unmarshal := unmarshal
  processMessage := processMessage decoder

/-- The Go decoder recovers what the Go encoder wrote. -/
def Unmarshals (unmarshal : List Byte → Option Int) : Prop :=
  ∀ value, IsInt32 value → unmarshal (marshalFoo value) = some value

/-- The rule of the module on a message of its own client. -/
theorem process_message_marshal {decoder : PbtoolsDecoder} (conforms : decoder.Conforms)
    {value : Int} (inRange : IsInt32 value) :
    processMessage decoder (marshalFoo value) = if 20 ≤ value then .drop else .accept := by
  rw [processMessage, decoded_bar_marshal conforms inRange]

end ProtobufLkm.HelloWorldTcpModel
