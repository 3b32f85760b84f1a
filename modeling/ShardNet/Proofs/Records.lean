-- SUMMARY: Records without real numbers are lawful: accounts, queries, costs, and what a network says of itself.
import ShardNet.Account
import ShardNet.Network.Config
import ShardNet.Network.Epochs
import ShardNet.Network.Genesis
import ShardNet.Network.Status
import ShardNet.Proofs.Json.Table
import ShardNet.Transaction.Status
import ShardNet.Vm

/-!
# Records without real numbers

Nothing is lost in the text of such a record: an absent text is written as null, a table by the
decimal texts of its keys, and a field is left out only if it has its default.
-/

namespace ShardNet

open Json (Codec Record)

variable {depth : Nat}

theorem Account.lawful_codec : codec.Lawful (depth + 1) :=
  Record.Builds.lawful
    (Record.builds_of Account.mk
      |>.required (by decide) Codec.lawful_text
      |>.required (by decide) Codec.lawful_uint64
      |>.required (by decide) Codec.lawful_text
      |>.withDefault (by decide) Codec.lawful_text
      |>.withDefault (by decide) (Codec.lawful_option Codec.lawful_text rfl)
      |>.withDefault (by decide) (Codec.lawful_option Codec.lawful_text rfl)
      |>.withDefault (by decide) (Codec.lawful_option Codec.lawful_text rfl)
      |>.withDefault (by decide) Codec.lawful_text
      |>.withDefault (by decide) Codec.lawful_text
      |>.withDefault (by decide) Codec.lawful_text)
    (fun _ => rfl) fun _ => by simp

theorem TransactionCost.lawful_codec : codec.Lawful (depth + 1) :=
  Record.Builds.lawful
    (Record.builds_of TransactionCost.mk
      |>.withDefault (by decide) Codec.lawful_uint64
      |>.withDefault (by decide) Codec.lawful_text)
    (fun _ => rfl) fun _ => by simp

/-- The keys of a query. -/
def VmQuery.keys : List String := ["args", "value", "caller", "funcName", "scAddress"]

theorem VmQuery.builds_record : record.Builds (depth + 1) keys (fun query => query) fun _ => True :=
  Record.Builds.mono
    (Record.builds_of VmQuery.mk
      |>.required (by decide) Codec.lawful_text
      |>.required (by decide) Codec.lawful_text
      |>.omitted (by decide) Codec.lawful_text
      |>.omitted (by decide) Codec.lawful_text
      |>.withDefault (by decide) (Codec.lawful_list Codec.lawful_text))
    fun _ => by simp

theorem VmQuery.lawful_codec : codec.Lawful (depth + 2) :=
  builds_record.lawful (fun _ => rfl) fun _ => trivial

/-! ## Networks -/

theorem NetworkEconomics.lawful_codec : codec.Lawful (depth + 1) :=
  Record.Builds.lawful
    (Record.builds_of NetworkEconomics.mk
      |>.withDefault (by decide) Codec.lawful_text
      |>.withDefault (by decide) Codec.lawful_uint32
      |>.withDefault (by decide) Codec.lawful_text
      |>.withDefault (by decide) Codec.lawful_text
      |>.withDefault (by decide) Codec.lawful_text
      |>.withDefault (by decide) Codec.lawful_text
      |>.withDefault (by decide) Codec.lawful_text)
    (fun _ => rfl) fun _ => by simp

theorem MaxNodesChange.lawful_codec : codec.Lawful (depth + 1) :=
  Record.Builds.lawful
    (Record.builds_of MaxNodesChange.mk
      |>.required (by decide) Codec.lawful_uint32
      |>.required (by decide) Codec.lawful_uint32
      |>.required (by decide) Codec.lawful_uint32)
    (fun _ => rfl) fun _ => by simp

theorem EnableEpochs.lawful_codec : codec.Lawful (depth + 3) :=
  Record.Builds.lawful
    (Record.builds_of EnableEpochs.mk
      |>.withDefault (by decide) Codec.lawful_uint32
      |>.withDefault (by decide) Codec.lawful_uint32
      |>.withDefault (by decide) (Codec.lawful_list MaxNodesChange.lawful_codec))
    (fun _ => rfl) fun _ => by simp

theorem GenesisNodes.lawful_codec : codec.Lawful (depth + 3) :=
  Record.Builds.lawful
    (Record.builds_of GenesisNodes.mk
      |>.withDefault (by decide) (Codec.lawful_table (Codec.lawful_list Codec.lawful_text))
      |>.withDefault (by decide) (Codec.lawful_table (Codec.lawful_list Codec.lawful_text)))
    (fun _ => rfl) fun _ => by simp

theorem NetworkStatus.lawful_codec : codec.Lawful (depth + 1) :=
  Record.Builds.lawful
    (Record.builds_of NetworkStatus.mk
      |>.withDefault (by decide) Codec.lawful_uint64
      |>.withDefault (by decide) Codec.lawful_uint64
      |>.withDefault (by decide) Codec.lawful_uint64
      |>.withDefault (by decide) Codec.lawful_uint64
      |>.withDefault (by decide) Codec.lawful_uint64
      |>.withDefault (by decide) Codec.lawful_uint64
      |>.withDefault (by decide) Codec.lawful_uint64
      |>.withDefault (by decide) Codec.lawful_uint64
      |>.withDefault (by decide) Codec.lawful_text
      |>.withDefault (by decide) Codec.lawful_uint64
      |>.withDefault (by decide) Codec.lawful_uint64
      |>.withDefault (by decide) Codec.lawful_uint32)
    (fun _ => rfl) fun _ => by simp

end ShardNet
