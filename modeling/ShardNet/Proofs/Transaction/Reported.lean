-- SUMMARY: Reports of the network are read back from their text exactly if all amounts in them fit 64 bits.
import ShardNet.Block
import ShardNet.Proofs.Json.Record

/-!
# Reading back reports

An amount has 128 bits and is written as a number, but numbers are read up to 64 bits only. From a
text an amount of any size is read. So a report that carries a greater amount cannot be read from
its own text, and neither can a list of reports with such a one among them. All other reports are
read back.
-/

namespace ShardNet

open Json (Codec Record)

/-- An amount that is read from the number that is written for it. -/
def Amount.Fits (amount : Amount) : Prop := amount.toNat < 2 ^ 64

/-! ## Amounts in reports -/

def ContractResult.AmountsFit (result : ContractResult) : Prop := result.value.Fits

def ReportedTransaction.AmountsFit (tx : ReportedTransaction) : Prop :=
  tx.value.Fits ∧ ∀ result ∈ tx.contractResults, result.AmountsFit

def Hyperblock.AmountsFit (block : Hyperblock) : Prop := ∀ tx ∈ block.transactions, tx.AmountsFit

/-! ## Codecs -/

variable {depth : Nat}

theorem Amount.lawfulOn_codec : (Codec.unsignedOrText Amount).LawfulOn depth Amount.Fits :=
  Codec.lawfulOn_unsignedOrText

theorem ContractResult.lawfulOn_codec : codec.LawfulOn (depth + 1) AmountsFit :=
  Record.Builds.lawfulOn
    (Record.builds_of ContractResult.mk
      |>.withDefault (by decide) Codec.lawful_text
      |>.withDefault (by decide) Codec.lawful_uint64
      |>.withDefault (by decide) Amount.lawfulOn_codec
      |>.withDefault (by decide) Codec.lawful_text
      |>.withDefault (by decide) Codec.lawful_text
      |>.withDefault (by decide) Codec.lawful_text
      |>.withDefault (by decide) Codec.lawful_text
      |>.withDefault (by decide) Codec.lawful_text
      |>.withDefault (by decide) Codec.lawful_uint64
      |>.withDefault (by decide) Codec.lawful_uint64
      |>.withDefault (by decide) Codec.lawful_uint32
      |>.withDefault (by decide) Codec.lawful_text)
    (fun _ => rfl) fun _ => by simp [AmountsFit]

theorem ReportedTransaction.lawfulOn_codec : codec.LawfulOn (depth + 3) AmountsFit :=
  Record.Builds.lawfulOn
    (Record.builds_of ReportedTransaction.mk
      |>.withDefault (by decide) Codec.lawful_text
      |>.withDefault (by decide) Codec.lawful_text
      |>.withDefault (by decide) Codec.lawful_uint64
      |>.withDefault (by decide) Amount.lawfulOn_codec
      |>.withDefault (by decide) Codec.lawful_text
      |>.withDefault (by decide) Codec.lawful_text
      |>.withDefault (by decide) (Codec.lawful_unsignedOrText (by decide))
      |>.withDefault (by decide) Codec.lawful_uint64
      |>.withDefault (by decide) (Codec.lawful_option Codec.lawful_bytes rfl)
      |>.withDefault (by decide) Codec.lawful_text
      |>.withDefault (by decide) Codec.lawful_uint32
      |>.withDefault (by decide) Codec.lawful_uint32
      |>.withDefault (by decide) Codec.lawful_text
      |>.withDefault (by decide) Codec.lawful_text
      |>.withDefault (by decide) Codec.lawful_text
      |>.withDefault (by decide) Codec.lawful_uint64
      |>.withDefault (by decide) Codec.lawful_text
      |>.withDefault (by decide) (Codec.lawfulOn_list ContractResult.lawfulOn_codec))
    (fun _ => rfl) fun _ => by simp [AmountsFit]

theorem ShardBlock.lawful_codec : codec.Lawful (depth + 1) :=
  Record.Builds.lawful
    (Record.builds_of ShardBlock.mk
      |>.withDefault (by decide) Codec.lawful_text
      |>.withDefault (by decide) Codec.lawful_uint64
      |>.withDefault (by decide) Codec.lawful_uint32)
    (fun _ => rfl) fun _ => by simp

theorem Hyperblock.lawfulOn_codec : codec.LawfulOn (depth + 5) AmountsFit :=
  Record.Builds.lawfulOn
    (Record.builds_of Hyperblock.mk
      |>.withDefault (by decide) Codec.lawful_uint64
      |>.withDefault (by decide) Codec.lawful_uint64
      |>.withDefault (by decide) Codec.lawful_text
      |>.withDefault (by decide) Codec.lawful_text
      |>.withDefault (by decide) Codec.lawful_uint64
      |>.withDefault (by decide) Codec.lawful_uint64
      |>.withDefault (by decide) (Codec.lawful_list ShardBlock.lawful_codec)
      |>.withDefault (by decide) (Codec.lawfulOn_list ReportedTransaction.lawfulOn_codec)
      |>.withDefault (by decide) Codec.lawful_int64)
    (fun _ => rfl) fun _ => by simp [AmountsFit]

/-! ## Texts -/

/-- A report is read back from its text if all amounts in it fit. Otherwise nothing is read from
it. -/
theorem reports_read_back_iff (result : ContractResult) (tx : ReportedTransaction)
    (block : Hyperblock) :
    (∀ read, (Json.parse? (ContractResult.codec.write result).write).bind
      ContractResult.codec.read? = some read ↔ read = result ∧ result.AmountsFit) ∧
    (∀ read, (Json.parse? (ReportedTransaction.codec.write tx).write).bind
      ReportedTransaction.codec.read? = some read ↔ read = tx ∧ tx.AmountsFit) ∧
    ∀ read, (Json.parse? (Hyperblock.codec.write block).write).bind Hyperblock.codec.read? =
      some read ↔ read = block ∧ block.AmountsFit :=
  ⟨ContractResult.lawfulOn_codec.parse_iff result, ReportedTransaction.lawfulOn_codec.parse_iff tx,
    Hyperblock.lawfulOn_codec.parse_iff block⟩

/-- A result that carries the least amount of more than 64 bits. -/
def ContractResult.beyondWord : ContractResult where
  hash := ""
  nonce := 0
  value := .ofNat (2 ^ 64)
  receiver := ""
  sender := ""
  data := ""
  prevTxHash := ""
  firstTxHash := ""
  gasLimit := 0
  gasPrice := 0
  callType := 0
  returnMessage := ""

/-- Nothing is read from the text of a result with an amount of more than 64 bits. The amount itself
would be read, if it had been written as a text. -/
theorem beyondWord_not_read_back :
    (Json.parse? (ContractResult.codec.write .beyondWord).write).bind
      ContractResult.codec.read? = none ∧
      (Codec.unsignedOrText Amount).read? (.str "18446744073709551616") =
        some ContractResult.beyondWord.value := by
  refine ⟨Option.eq_none_iff_forall_ne_some.2 fun read hread => ?_, by decide +kernel⟩
  obtain ⟨-, hfits⟩ := (ContractResult.lawfulOn_codec.parse_iff _ read).1 hread
  exact Nat.lt_irrefl _ hfits

end ShardNet
