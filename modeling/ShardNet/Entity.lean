-- SUMMARY: The two kinds of service a client can talk to, and their names.
import ShardNet.Json.Codec
import ShardNet.Text.Blank

/-!
# Entities

A client talks to a proxy, which serves every shard, or to an observer, a single node that serves
the one shard it belongs to.
-/

namespace ShardNet

inductive Entity where
  | proxy
  | observer
  deriving DecidableEq, Repr, Inhabited

namespace Entity

def name : Entity → String
  | .proxy => "proxy"
  | .observer => "observer"

def ofName? (name : String) : Option Entity :=
  if name = "proxy" then some .proxy
  else if name = "observer" then some .observer
  else none

def codec : Json.Codec Entity := .named name ofName?

/-- Reads a name as a person writes it: in any case, between blanks, an observer under any of three
names. -/
def read? (text : String) : Option Entity :=
  let word := String.ofList ((Text.trim text.toList).map Char.toLower)
  if word = "observer" ∨ word = "node" ∨ word = "observer-node" then some .observer
  else if word = "proxy" then some .proxy
  else none

/-- The name under which descriptions show an entity. -/
def kind : Entity → String
  | .proxy => "Proxy"
  | .observer => "ObserverNode"

end Entity

end ShardNet
