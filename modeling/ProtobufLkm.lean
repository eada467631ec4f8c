import ProtobufLkm.ByteCodec
import ProtobufLkm.ByteMemory
import ProtobufLkm.NetfilterHookModel
import ProtobufLkm.TcpSegmentModel
import ProtobufLkm.LengthFraming
import ProtobufLkm.NetfilterFrameRoundTrip
import ProtobufLkm.NetfilterPacketBounds
import ProtobufLkm.NetfilterStorage
import ProtobufLkm.NetfilterSegmentation
import ProtobufLkm.ExitingLoop
import ProtobufLkm.ItemSequence
import ProtobufLkm.ResourceAttempt
import ProtobufLkm.Binary32
import ProtobufLkm.Proto3Wire
import ProtobufLkm.UdpDatagramSemantics
import ProtobufLkm.HelloWorldMessage
import ProtobufLkm.UdpSocketLifetime
import ProtobufLkm.HelloWorldUdpDemo
import ProtobufLkm.HelloWorldTcpModel
import ProtobufLkm.HelloWorldTcpDemo
import ProtobufLkm.AddressBookMessage
import ProtobufLkm.AddressBookDecoding
import ProtobufLkm.AddressBookFilter
import ProtobufLkm.NetfilterPayloadLength
import ProtobufLkm.NetfilterCopyOwnership
import ProtobufLkm.UdpBufferBounds
import ProtobufLkm.AddressBookItemBounds
import ProtobufLkm.UndecodableMessages
import ProtobufLkm.AddressBookReceiver
import ProtobufLkm.ChunkedStream
import ProtobufLkm.TcpServerReassembly
import ProtobufLkm.PbtoolsEmbedding
import ProtobufLkm.PosixPath
import ProtobufLkm.MakefileText
import ProtobufLkm.FileWrites
import ProtobufLkm.GenerateFiles
import ProtobufLkm.GeneratedTexts
import ProtobufLkm.ModuleObjects
import ProtobufLkm.LoadableModule
import ProtobufLkm.NetfilterHookLifetime
import ProtobufLkm.FloatsFilter
import ProtobufLkm.FramedTcpModel
import ProtobufLkm.TransitionSystem
import ProtobufLkm.FramedTcpDemo
import ProtobufLkm.AddressBookEncoding
import ProtobufLkm.NetfilterTcpDemos
import ProtobufLkm.AddressBookMessageLaws
import ProtobufLkm.AddressBookUdpDemo
import ProtobufLkm.UdpSocketSystem
import ProtobufLkm.InterruptedWrites
import ProtobufLkm.GenerateFilesFaults
import ProtobufLkm.StreamEditing
import ProtobufLkm.PbtoolsRewriting
import ProtobufLkm.HookedTraffic
import ProtobufLkm.UdpPortSharing
