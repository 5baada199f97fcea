import Outbox.Bytes.Hex
import Outbox.Metrics.Endpoint
/-! Serving the pages over HTTP. Only `GET` requests of the two pages are answered with one. -/

namespace Outbox.Metrics

structure PageRequest where
  method : String
  /-- With the query, if there is one. -/
  path : String
deriving DecidableEq, Repr, Inhabited

def notFound : Page := ⟨404, none, ""⟩

/-- Escapes that stand for themselves: a percent sign, a slash and a plus sign. -/
def isProtected (c : Char) : Bool := c = '%' || c = '/' || c = '+'

/-- A path with its escaped characters. -/
def unescape : List Char → List Char
  | '%' :: a :: b :: rest =>
    match Hex.digit? a.toNat, Hex.digit? b.toNat with
    | some x, some y =>
      let c := Char.ofNat (16 * x + y)
      if isProtected c then '%' :: a :: b :: unescape rest else c :: unescape rest
    | _, _ => '%' :: unescape (a :: b :: rest)
  | c :: rest => c :: unescape rest
  | [] => []

def respond (m : Metrics) (r : PageRequest) : Page :=
  if r.method != "GET" then notFound
  else match String.ofList (unescape (r.path.toList.takeWhile (· != '?'))) with
    | "/metrics" => m.metricsPage
    | "/health" => healthPage
    | _ => notFound

/-- Where the pages are served. -/
structure Site where
  portTaken : Bool := false
  /-- Whether the machine can reach itself. -/
  reachable : Bool := true
deriving DecidableEq, Repr, Inhabited

inductive SiteFault
  | portTaken
  | unreachable
deriving DecidableEq, Repr, Inhabited

/-- Starts the server and makes requests of it, each over a connection of its own. -/
def Site.visit (site : Site) (m : Metrics) (requests : List PageRequest) : Except SiteFault (List Page) :=
  if site.portTaken then .error .portTaken
  else if !site.reachable && !requests.isEmpty then .error .unreachable
  else .ok (requests.map (respond m))

end Outbox.Metrics
