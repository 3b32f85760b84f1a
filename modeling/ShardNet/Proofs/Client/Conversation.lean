-- SUMMARY: What the operations of a client ask, and what they make of the answers.
import ShardNet.Client
import ShardNet.Proofs.Trace

/-!
# Conversations

An exchange asks one question and ends with what the answer says. The parameters of the network are
found in the cache or are asked for, and `ConfigRead` lists the ways in which that may go. Below
stands, for each operation, which traces are complete and which questions are asked when.
-/

namespace ShardNet.Client

instance : Nonempty Answer := ⟨.error (.noAnswer false)⟩

open Json (Codec)

variable {client : Client} {trace : Trace Request Answer} {sent : Request}

/-! ## Exchanges -/

/-- The request that gets a route. -/
def getRequest (client : Client) (route : Route) : Request := ⟨.get, route.path client.entity, none⟩

/-- The request that posts a JSON value to a route. -/
def postRequest (client : Client) (route : Route) (body : Json) : Request :=
  ⟨.post, route.path client.entity, some (Text.Utf8.encode body.write)⟩

/-- What an answer says. -/
def told {α : Type} (codec : Codec α) (field : Option String) : Answer → Except Error α
  | .error cause => .error (.exchange cause)
  | .ok response => (Envelope.decode codec field response).mapError .exchange

section

variable {α : Type} {request : Request} {codec : Codec α} {field : Option String} {key : String}
  {route : Route} {body : Json}

theorem exchange_exchanges :
    (exchange request codec field).Exchanges request (told codec field) := by
  refine congrArg (Program.ask request) (funext fun answer => ?_)
  cases answer with
  | error cause => rfl
  | ok response =>
      simp only [told]
      cases hdecode : Envelope.decode codec field response <;>
        simp only [Program.bind, ExceptT.bindCont, Function.comp_apply, hdecode] <;> rfl

theorem get_exchanges : (client.get route codec key).Exchanges (client.getRequest route)
    (told codec (some key)) := exchange_exchanges

theorem post_exchanges :
    (client.post route body codec field).Exchanges (client.postRequest route body)
    (told codec field) := exchange_exchanges

end

/-! ## The parameters of the network -/

/-- What an answer says about the parameters of the network. -/
def configTold : Answer → Except Error NetworkConfig := told NetworkConfig.codec (some "config")

/-- How the parameters of the network are had: out of the cache at the first look, or under the lock
at the second one, or by asking. -/
inductive ConfigRead (client : Client) :
    Trace Request Answer → Except Error NetworkConfig → Prop where
  | fresh {config} : ConfigRead client [.did .freshConfig (some config)] (.ok config)
  | awaited {config} :
      ConfigRead client [.did .freshConfig none, .did (.acquire .config) (),
        .did .freshConfig (some config), .did (.release .config) ()] (.ok config)
  | fetched {answer config} (htold : configTold answer = .ok config) :
      ConfigRead client [.did .freshConfig none, .did (.acquire .config) (), .did .freshConfig none,
        .asked (client.getRequest .networkConfig) answer, .did (.storeConfig config) (),
        .did (.release .config) ()] (.ok config)
  | failed {answer cause} (htold : configTold answer = .error cause) :
      ConfigRead client [.did .freshConfig none, .did (.acquire .config) (), .did .freshConfig none,
        .asked (client.getRequest .networkConfig) answer, .did (.release .config) ()] (.error cause)

theorem ConfigRead.ne_nil {result : Except Error NetworkConfig}
    (h : ConfigRead client trace result) :
    trace ≠ [] := by
  cases h <;> simp

theorem ends_networkConfig {result : Except Error NetworkConfig} :
    client.networkConfig.Ends trace result ↔ ConfigRead client trace result := by
  unfold networkConfig currentConfig
  constructor
  · intro h
    obtain ⟨_ | config, _, rfl, hlook⟩ := Call.ends_access_bind.1 h
    · obtain ⟨inside, rfl, hlocked⟩ := Call.ends_holding.1 hlook
      obtain ⟨_ | config, _, rfl, hagain⟩ := Call.ends_access_bind.1 hlocked
      · obtain ⟨cause, hfetch, rfl⟩ | ⟨_, _, config, rfl, hfetch, hstore⟩ :=
          Call.ends_bind.1 hagain
        · obtain ⟨answer, rfl, htold⟩ := get_exchanges.ends.1 hfetch
          exact .failed htold.symm
        · obtain ⟨answer, rfl, htold⟩ := get_exchanges.ends.1 hfetch
          obtain ⟨⟨⟩, _, rfl, rfl, rfl⟩ := Call.ends_access_bind.1 hstore
          exact .fetched htold.symm
      · obtain ⟨rfl, rfl⟩ := hagain
        exact .awaited
    · obtain ⟨rfl, rfl⟩ := hlook
      exact .fresh
  · intro h
    cases h with
    | fresh => exact Call.ends_access_bind.2 ⟨_, [], rfl, rfl, rfl⟩
    | awaited =>
        refine Call.ends_access_bind.2 ⟨none, _, rfl, Call.ends_holding.2 ⟨[_], rfl, ?_⟩⟩
        exact Call.ends_access_bind.2 ⟨_, [], rfl, rfl, rfl⟩
    | @fetched answer config htold =>
        refine Call.ends_access_bind.2 ⟨none, _, rfl, Call.ends_holding.2 ⟨[_, _, _], rfl, ?_⟩⟩
        refine Call.ends_access_bind.2 ⟨none, _, rfl, Call.ends_bind.2 (.inr ?_)⟩
        exact ⟨[_], _, config, rfl, get_exchanges.ends.2 ⟨answer, rfl, htold.symm⟩, (), [],
          rfl, rfl, rfl⟩
    | @failed answer cause htold =>
        refine Call.ends_access_bind.2 ⟨none, _, rfl, Call.ends_holding.2 ⟨[_, _], rfl, ?_⟩⟩
        refine Call.ends_access_bind.2 ⟨none, _, rfl, Call.ends_bind.2 (.inl ?_)⟩
        exact ⟨cause, get_exchanges.ends.2 ⟨answer, rfl, htold.symm⟩, rfl⟩

theorem sends_networkConfig : client.networkConfig.Sends trace sent ↔
    trace = [.did .freshConfig none, .did (.acquire .config) (), .did .freshConfig none] ∧
      sent = client.getRequest .networkConfig := by
  unfold networkConfig currentConfig
  constructor
  · intro h
    obtain ⟨_ | config, _, rfl, hlook⟩ := Call.sends_access_bind.1 h
    · obtain ⟨inside, rfl, hlocked⟩ := Call.sends_holding.1 hlook
      obtain ⟨_ | config, _, rfl, hagain⟩ := Call.sends_access_bind.1 hlocked
      · obtain hfetch | ⟨_, _, config, rfl, -, hstore⟩ := Call.sends_bind.1 hagain
        · obtain ⟨rfl, rfl⟩ := get_exchanges.sends.1 hfetch
          exact ⟨rfl, rfl⟩
        · obtain ⟨_, _, _, hnone⟩ := Call.sends_access_bind.1 hstore
          exact hnone.elim
      · exact hagain.elim
    · exact hlook.elim
  · rintro ⟨rfl, rfl⟩
    refine Call.sends_access_bind.2 ⟨none, _, rfl, Call.sends_holding.2 ⟨[_], rfl, ?_⟩⟩
    exact Call.sends_access_bind.2 ⟨none, _, rfl,
      Call.sends_bind.2 (.inl (get_exchanges.sends.2 ⟨rfl, rfl⟩))⟩

/-! ## The status of a shard -/

/-- What an answer says about the status of a shard. -/
def statusTold (client : Client) (shard : ShardId) (answer : Answer) :
    Except Error NetworkStatus := do
  let status ← told NetworkStatus.codec (some (statusField client.entity)) answer
  if Route.checksShard client.entity ∧ status.shardId ≠ shard then
    throw (.exchange (.wrongShard shard status.shardId))
  return status

theorem networkStatus_exchanges {shard : ShardId} : (client.networkStatus shard).Exchanges
    (client.getRequest (.networkStatus shard)) (client.statusTold shard) := by
  refine get_exchanges.bind fun status => ?_
  dsimp only
  split <;> rfl

end ShardNet.Client
