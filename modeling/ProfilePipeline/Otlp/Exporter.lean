import ProfilePipeline.Otlp.Content
import ProfilePipeline.Otlp.Request

/-!
# Sending requests

A batch of records becomes one request and is handed to a transport, which belongs to someone else
and may fail.  Over gRPC the message is framed: a byte that says that it is not compressed, four
bytes of length, and the message.  Over HTTP the body is the bare message.

* `Protocol.body?` — the bytes for a batch.
* `OtlpExporter.submission?` — what is sent for a batch, if anything.
-/

namespace ProfilePipeline.Otlp

open Wire (Bytes Message)

/-- How requests travel. -/
inductive Protocol where
  | grpc
  | http
  deriving DecidableEq, Repr, Inhabited

/-- A message behind its size, which was measured before it was written.  One that measures four
gigabytes or more does not fit. -/
def frame? (size : UInt64) (message : Bytes) : Option Bytes :=
  if size < 0x100000000 then some (0 :: bigEndian 4 size.toNat ++ message) else none

namespace Protocol

/-- The name of a protocol. -/
def name : Protocol → String
  | grpc => "Grpc"
  | http => "HttpProtobuf"

/-- Where requests are sent to. -/
def path : Protocol → String
  | grpc => "/opentelemetry.proto.collector.profile.v1.ProfileService/Export"
  | http => "/v1/profiles"

/-- What requests say they contain. -/
def contentType : Protocol → String
  | grpc => "application/grpc"
  | http => "application/x-protobuf"

/-- **The body of the request for a batch.** -/
def body? (p : Protocol) (records : List Record) : Option Bytes :=
  let message := request records
  match p with
  | grpc => frame? (Message.size message) (Message.encode message)
  | http => some (Message.encode message)

end Protocol

/-- A request that is ready to be sent. -/
structure Submission where
  path : String
  contentType : String
  body : Bytes
  deriving DecidableEq, Repr

/-- An exporter that sends each batch as one request. -/
structure OtlpExporter where
  protocol : Protocol := .grpc
  isShutdown : Bool := false
  deriving DecidableEq, Repr

namespace OtlpExporter

/-- **What is sent for a batch.**  Nothing is, once the exporter is shut down. -/
def submission? (e : OtlpExporter) (records : List Record) : Option Submission :=
  if e.isShutdown then none
  else (e.protocol.body? records).map fun body => ⟨e.protocol.path, e.protocol.contentType, body⟩

/-- Sends no more. -/
def shutdown (e : OtlpExporter) : OtlpExporter := { e with isShutdown := true }

/-- The exporter in words. -/
def describe (e : OtlpExporter) : String :=
  "OtlpProfileExporter \x7b protocol: " ++ e.protocol.name ++ ", is_shutdown: " ++
    AttributeValue.renderBool e.isShutdown ++ ", .. \x7d"

end OtlpExporter

end ProfilePipeline.Otlp
