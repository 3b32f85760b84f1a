-- SUMMARY: What passes between a client and a service: requests, responses, and what goes wrong.
import ShardNet.Bytes
import ShardNet.Shard

/-!
# Exchanges

A client asks with a request for a route, relative to the address of the service, and gets a status
and a body, or no answer at all. `Exchange.Fault` are the ways in which an exchange fails: on the
way, at the service, or because the answer does not make sense.
-/

namespace ShardNet

inductive Method where
  | get
  | post
  deriving DecidableEq, Repr

def Method.name : Method → String
  | .get => "GET"
  | .post => "POST"

structure Request where
  method : Method
  endpoint : String
  /-- The text of a request that has one. -/
  body : Option Bytes
  deriving DecidableEq, Repr

structure Response where
  status : Nat
  body : Bytes
  deriving DecidableEq, Repr

def Response.isOk (response : Response) : Bool := response.status = 200

namespace Exchange

inductive Fault where
  /-- No answer: the connection failed, or took too long. -/
  | noAnswer (timeout : Bool)
  /-- A status other than 200. -/
  | status (code : Nat) (body : String)
  | network (text : String)
  /-- The body is not an envelope, or its contents are not what was asked for. -/
  | malformed
  | invalidResponse (text : String)
  /-- The service reports an error. -/
  | remote (message code : String)
  /-- An observer of another shard answered. -/
  | wrongShard (requested received : ShardId)
  deriving DecidableEq, Repr

namespace Fault

def message : Fault → String
  | .noAnswer _ => "HTTP error"
  | .status code body => s!"HTTP status {code}: {body}"
  | .network text => s!"Network error: {text}"
  | .malformed => "JSON parse error"
  | .invalidResponse text => s!"Invalid response: {text}"
  | .remote message code => s!"Remote error: {message} (code: {code})"
  | .wrongShard requested received =>
    s!"Shard id mismatch: requested from {requested.toNat}, got response from {received.toNat}"

/-- The status that the fault consists in. -/
def status? : Fault → Option Nat
  | .status code _ => some code
  | _ => none

/-- Whether the fault lies with the request. -/
def isClientError (fault : Fault) : Bool :=
  match fault.status? with
  | some code => 400 ≤ code && code < 500
  | none => false

def isRemote : Fault → Bool
  | .remote .. => true
  | _ => false

def isTimeout : Fault → Bool
  | .noAnswer timeout => timeout
  | _ => false

end Fault

end Exchange

/-- How a request is answered. -/
abbrev Answer := Except Exchange.Fault Response

end ShardNet
