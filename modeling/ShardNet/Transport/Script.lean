-- SUMMARY: A service whose answers are written down beforehand, for running a client without a network.
import ShardNet.Exchange
import ShardNet.Program

/-!
# Scripts

A script lists the answers of every endpoint in the order in which they are given; the last one is
given again and again. While an answer is under way, other calls may ask for nonces that they cannot
fetch: a sender who is in step hands them out, and any other sender only gets a slot.
-/

namespace ShardNet

namespace Script

/-- What happens upon a request. -/
structure Event where
  answer : Answer
  /-- A sender, and how many nonces are asked for while the answer is under way. -/
  reserved : Option (Address × Nat)

end Script

/-- The answers to come, and the requests so far, the latest one first. -/
structure Script where
  events : List (String × List Script.Event)
  requests : List Request

namespace Script

/-- Takes the next event of an endpoint, unless it is the last one. -/
def next (endpoint : String) :
    List (String × List Event) → Option Event × List (String × List Event)
  | [] => (none, [])
  | (name, events) :: rest =>
    if name = endpoint then
      match events with
      | [] => (none, (name, events) :: rest)
      | [event] => (some event, (name, [event]) :: rest)
      | event :: later => (some event, (name, later) :: rest)
    else
      let (event, rest) := next endpoint rest
      (event, (name, events) :: rest)

/-- Asks for a nonce that cannot be fetched. -/
def reserveUnfetched (sender : Address) (book : NonceBook) : NonceBook :=
  ((book.openSlot sender).take sender).2

/-- Answers a request from the script. -/
def answer (request : Request) : StateT Memory (StateM Script) Answer := do
  let script ← getThe Script
  let (event, events) := next request.endpoint script.events
  set ({ events := events, requests := request :: script.requests } : Script)
  match event with
  | none => return .error (.network s!"no route for {request.endpoint}")
  | some event =>
    if let some (sender, count) := event.reserved then
      modifyThe Memory fun memory =>
        { memory with nonces := Nat.repeat (reserveUnfetched sender) count memory.nonces }
    return event.answer

/-- Runs an operation alone against a script. -/
def run {α : Type} (call : Call Request Answer α) (memory : Memory) (script : Script) :
    (Except Error α × Memory) × Script :=
  ((Program.run answer call.run).run memory).run script

end Script

end ShardNet
