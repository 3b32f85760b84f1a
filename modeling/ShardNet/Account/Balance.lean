-- SUMMARY: The balance of an account as a number and in a greater unit, or the fault that it is no number.
import ShardNet.Account
import ShardNet.Error

/-!
# Balances

A balance that is not a number is a fault, and the fault carries the text as it arrived, blanks
included.
-/

namespace ShardNet.Account

/-- The balance in the smallest denomination. -/
def amount (account : Account) : Except Error Amount :=
  match account.amount? with
  | some amount => .ok amount
  | none => .error (.invalidBalance account.balance)

/-- The balance in a unit of `decimals` decimal places. -/
def denominatedBalance (account : Account) (decimals : UInt32) : Except Error String := do
  return denominate (← account.amount) decimals

end ShardNet.Account
