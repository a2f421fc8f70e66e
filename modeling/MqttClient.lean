import MqttClient.Lib.Chunks
import MqttClient.Lib.Courier
import MqttClient.Lib.Decoder
import MqttClient.Lib.Encoder
import MqttClient.Lib.Fifo
import MqttClient.Lib.Framing
import MqttClient.Lib.IndexMap
import MqttClient.Lib.Ledger
import MqttClient.Lib.Lines
import MqttClient.Lib.RoundTrip
import MqttClient.Lib.Rounds
import MqttClient.Lib.Transition
import MqttClient.Proto.Codes
import MqttClient.Proto.Packet
import MqttClient.Proto.Text
import MqttClient.Proto.Primitive
import MqttClient.Proto.Property
import MqttClient.Proto.ConnectCodec
import MqttClient.Proto.PublishCodec
import MqttClient.Proto.SubscribeCodec
import MqttClient.Proto.Codec
import MqttClient.Proto.PrimitiveSpec
import MqttClient.Proto.PropertySpec
import MqttClient.Proto.PropertyBlock
import MqttClient.Proto.ConnAckSpec
import MqttClient.Proto.ConnectSpec
import MqttClient.Proto.PublishSpec
import MqttClient.Proto.SubscribeSpec
import MqttClient.Proto.CodecSpec
import MqttClient.Proto.Matching
import MqttClient.Proto.Utf8
import MqttClient.Proto.Total
import MqttClient.Proto.PropertyOrder
import MqttClient.Proto.Blocks
import MqttClient.Io.Accumulator
import MqttClient.Io.Writer
import MqttClient.Io.Atomic
import MqttClient.Io.Reader
import MqttClient.Io.Pipe
import MqttClient.Io.Proxy
import MqttClient.Io.ProxySpec
import MqttClient.Io.ProxyRequest
import MqttClient.Io.WebSocket
import MqttClient.Io.Tunnel
import MqttClient.Client.Pkid
import MqttClient.Client.Session
import MqttClient.Client.World
import MqttClient.Client.SessionSpec
import MqttClient.Client.Discipline
import MqttClient.Client.WorldSpec
import MqttClient.Client.DisciplineRuns
import MqttClient.Client.Operations
import MqttClient.Client.Completion
import MqttClient.Client.Connection
import MqttClient.Client.ConnectionSpec
import MqttClient.Client.QoS1
import MqttClient.Client.Replay
import MqttClient.Client.ReplayRuns
import MqttClient.Client.Delivery
import MqttClient.Client.DeliveryRuns
import MqttClient.Client.Exchanges
import MqttClient.Client.Expiry
import MqttClient.Client.Safety
import MqttClient.Client.PingTimeout
import MqttClient.Client.PingDeadline
import MqttClient.Client.Authentication
import MqttClient.Client.Reauth
import MqttClient.Client.ReauthOnce
import MqttClient.Client.Pings
import MqttClient.Client.AuthExchange
import MqttClient.Client.Challenges
import MqttClient.Client.Atomicity
import MqttClient.Client.Leases
import MqttClient.Client.PkidRuns
import MqttClient.Client.Requests
import MqttClient.Client.AckOrderRuns
import MqttClient.Client.Progress
import MqttClient.Client.KeepAlive
import MqttClient.Client.Answers
import MqttClient.Client.AckProgress
import MqttClient.Client.Wire
import MqttClient.Client.Inbound
import MqttClient.Proto.Encodable
import MqttClient.Proto.Header
import MqttClient.Proto.Lengths
import MqttClient.Proto.Shortest
import MqttClient.Api.Text
import MqttClient.Api.Values
import MqttClient.Client.Provenance
import MqttClient.Client.Conversation
import MqttClient.Api.Conversion
import MqttClient.Api.Characters
import MqttClient.Api.Grammar
import MqttClient.Lib.Traverse
import MqttClient.Api.Limits
import MqttClient.Proto.Normalize
import MqttClient.Api.Fields
import MqttClient.Api.Readable
import MqttClient.Api.Received
