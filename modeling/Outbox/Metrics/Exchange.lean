import Outbox.Bytes.Utf8
import Outbox.Metrics.Server
/-! Requests and pages as they go over a connection, which is closed after one of each. -/

namespace Outbox.Metrics

/-- The request that a first line makes; the rest of what the client sends does not matter. -/
def PageRequest.ofText? (text : String) : Option PageRequest :=
  match ((text.splitOn "\r\n").head?.getD "").splitOn " " with
  | [method, path, _] => some { method := method, path := path }
  | _ => none

def Page.reason (p : Page) : String := if p.status = 200 then "OK" else "Not Found"

def Page.text (p : Page) : String :=
  let headers := ["content-length: " ++ Nat.repr p.body.utf8ByteSize, "connection: close"] ++
    p.contentType.toList.map ("content-type: " ++ ·)
  "\r\n".intercalate (("HTTP/1.1 " ++ Nat.repr p.status ++ " " ++ p.reason) :: headers ++ ["", p.body])

/-- What is sent back for what a client sent. -/
def exchange (m : Metrics) (received : Bytes) : Bytes :=
  let page := match (Utf8.decode received).toOption.bind PageRequest.ofText? with
    | some request => respond m request
    | none => notFound
  Utf8.ofString page.text

end Outbox.Metrics
