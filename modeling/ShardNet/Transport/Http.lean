-- SUMMARY: Requests over HTTP: the address of a service, what it sees of a request, and how a connection can end.
import ShardNet.Exchange
import ShardNet.Text.Quoted
import ShardNet.Transport.Target

/-!
# HTTP

A service has an address without a slash at its end; the endpoint of a request follows after a
slash. Every request says who asks and that it takes JSON; a request with a text says that the text
is JSON.

Whatever keeps the whole response from arriving is no answer. Only a connection that stays silent is
given up for the time it takes.
-/

namespace ShardNet

structure HttpService where
  baseUrl : String

namespace HttpService

/-- The name under which a client asks. -/
def userAgent : String := "Elrond go SDK / 1.0.0 <Posting to nodes>"

def contentType : String := "application/json"

/-- The service at an address. -/
def ofUrl (url : String) : HttpService :=
  ⟨String.ofList ((url.toList.reverse.dropWhile (· = '/')).reverse)⟩

def url (service : HttpService) (endpoint : String) : String := service.baseUrl ++ "/" ++ endpoint

def description (service : HttpService) : String :=
  "HttpTransport \x7b base_url: " ++ Text.Quoted.text service.baseUrl ++ " \x7d"

/-- What a server sees of a request. -/
structure Seen where
  method : Method
  target : String
  accept : String
  userAgent : String
  contentType : Option String
  body : Bytes

def seen? (service : HttpService) (request : Request) : Option Seen :=
  (Target.ofUrl? (service.url request.endpoint)).map fun target =>
    { method := request.method
      target := target
      accept := contentType
      userAgent := userAgent
      contentType := request.body.map fun _ => contentType
      body := request.body.getD [] }

/-- How a connection ends. -/
inductive Ending where
  | served (response : Response)
  | refused
  | truncated
  | silent

/-- A response as it arrives: those that report no content or no change have no body, whatever the
server sends behind them. -/
def received (response : Response) : Response :=
  if response.status = 204 ∨ response.status = 304 then { response with body := [] } else response

/-- What the server has seen at the end, and the answer that the client has. -/
def exchange (service : HttpService) (request : Request) (ending : Ending) : Option Seen × Answer :=
  match service.seen? request, ending with
  | none, _ | _, .refused => (none, .error (.noAnswer false))
  | some seen, .served response => (some seen, .ok (received response))
  | some seen, .truncated => (some seen, .error (.noAnswer false))
  | some seen, .silent => (some seen, .error (.noAnswer true))

end HttpService

end ShardNet
