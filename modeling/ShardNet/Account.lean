-- SUMMARY: The state of an account, and its balance as a number.
import ShardNet.Json.Record

/-!
# Accounts

A balance arrives as a text. It counts the smallest denomination; `Account.denominatedBalance` shows
it in a greater unit, without needless zeros.
-/

namespace ShardNet

structure Account where
  address : String
  /-- The nonce that the next transaction of the account must have. -/
  nonce : UInt64
  /-- The balance in the smallest denomination. -/
  balance : String
  code : String
  codeHash : Option String
  rootHash : Option String
  codeMetadata : Option String
  username : String
  developerReward : String
  ownerAddress : String
  deriving DecidableEq, Repr

namespace Account

open Json (Codec)

def record : Json.Record Account Account :=
  Json.Record.of Account.mk
    |>.required "address" (·.address) Codec.text
    |>.required "nonce" (·.nonce) Codec.uint64
    |>.required "balance" (·.balance) Codec.text
    |>.withDefault "code" (·.code) Codec.text ""
    |>.withDefault "codeHash" (·.codeHash) (Codec.option Codec.text) none
    |>.withDefault "rootHash" (·.rootHash) (Codec.option Codec.text) none
    |>.withDefault "codeMetadata" (·.codeMetadata) (Codec.option Codec.text) none
    |>.withDefault "username" (·.username) Codec.text ""
    |>.withDefault "developerReward" (·.developerReward) Codec.text ""
    |>.withDefault "ownerAddress" (·.ownerAddress) Codec.text ""

def codec : Codec Account := record.codec

/-- The number of a balance text, which may stand between blanks. -/
def readBalance? (balance : String) : Option Amount :=
  (Text.Decimal.readUnsigned Amount (Text.trim balance.toList)).toOption

/-- An amount in a unit of `decimals` decimal places. -/
def denominate (amount : Amount) (decimals : UInt32) : String :=
  String.ofList (Text.Decimal.pointed amount.toNat decimals.toNat)

def amount? (account : Account) : Option Amount := readBalance? account.balance

def denominatedBalance? (account : Account) (decimals : UInt32) : Option String :=
  account.amount?.map (denominate · decimals)

end Account

end ShardNet
