-- SUMMARY: Which balances are numbers, and that a number is shown exactly in any unit.
import ShardNet.Account.Balance
import ShardNet.Client.Account
import ShardNet.Proofs.Text.Pointed
import ShardNet.Proofs.Trace

/-!
# Balances

A balance is a numeral between blanks, of a number that fits into an amount. In any unit the number
has one text of the shortest form, and this is the one that is shown, so nothing of a balance is
lost in it.
-/

namespace ShardNet

open Text (Padded)
open Text.Decimal (Numeral Pointed padded)

namespace Account

variable {account other : Account} {amount : Amount} {decimals : UInt32} {text : String}

/-- The balance is a numeral of a number, between blanks. -/
def Holds (account : Account) (value : Nat) : Prop :=
  ∃ core, Padded core account.balance.toList ∧ Numeral core value

theorem amount?_eq_some_iff : account.amount? = some amount ↔ account.Holds amount.toNat := by
  have hread : Text.Decimal.readUnsigned Amount (Text.trim account.balance.toList) = .ok amount ↔
      account.Holds amount.toNat := Text.Decimal.readUnsigned_trim_eq_ok_iff
  rw [← hread, amount?, readBalance?]
  cases Text.Decimal.readUnsigned Amount (Text.trim account.balance.toList) <;>
    simp [Except.toOption]

theorem amount_eq_ok_iff : account.amount = .ok amount ↔ account.Holds amount.toNat := by
  rw [← amount?_eq_some_iff, Account.amount]
  cases account.amount? <;> simp

theorem amount_eq_error_iff {cause : Error} : account.amount = .error cause ↔
    cause = .invalidBalance account.balance ∧ ∀ amount : Amount, ¬ account.Holds amount.toNat := by
  simp only [← amount?_eq_some_iff, Account.amount]
  cases account.amount? <;> simp [eq_comm]

theorem denominatedBalance_of_ok (h : account.amount = .ok amount) :
    account.denominatedBalance decimals = .ok (denominate amount decimals) := by
  rw [denominatedBalance, h]
  rfl

theorem denominatedBalance_of_error {cause : Error} (h : account.amount = .error cause) :
    account.denominatedBalance decimals = .error cause := by
  rw [denominatedBalance, h]
  rfl

theorem eq_denominate_iff : text = denominate amount decimals ↔ ∃ number,
    Pointed decimals.toNat text.toList number ∧ number * 10 ^ decimals.toNat = amount.toNat := by
  rw [← Text.Decimal.pointed_eq_iff, denominate, eq_comm, ← String.toList_inj, String.toList_ofList]

/-- In each unit, different amounts are shown differently. -/
theorem denominate_injective {amount' : Amount}
    (h : denominate amount decimals = denominate amount' decimals) :
    amount = amount' := by
  obtain ⟨number, htext, hnumber⟩ := eq_denominate_iff.1 h
  obtain ⟨number', htext', hnumber'⟩ := eq_denominate_iff.1 (Eq.refl (denominate amount decimals))
  obtain rfl := htext.value_unique htext'
  have hsame : amount.toNat = amount'.toNat := by exact_mod_cast hnumber'.symm.trans hnumber
  exact Unsigned.toNat_inj hsame

theorem denominatedBalance_eq_ok_iff : account.denominatedBalance decimals = .ok text ↔
    ∃ amount, account.amount = .ok amount ∧ text = denominate amount decimals := by
  cases hamount : account.amount with
  | error cause => simp [denominatedBalance_of_error hamount]
  | ok amount => simp [denominatedBalance_of_ok hamount, eq_comm]

/-- A balance is the number that stands in it between blanks, with at most one plus sign in front of
its digits, if this number is below `2 ^ 128`, and is a fault otherwise. The number is shown in any
unit by the only text of the shortest form that stands for it exactly, so different numbers are
shown differently. There is always a digit where the point is put. -/
theorem balance_exact :
    (∀ account : Account,
      (∀ amount, account.amount = .ok amount ↔
        ∃ core, Padded core account.balance.toList ∧ Numeral core amount.toNat) ∧
      (account.amount = .error (.invalidBalance account.balance) ↔
        ∀ value < 2 ^ 128, ¬ ∃ core, Padded core account.balance.toList ∧ Numeral core value) ∧
      ∀ decimals,
        (∀ amount, account.amount = .ok amount →
          ∃ text, account.denominatedBalance decimals = .ok text ∧
          ∀ other, other = text ↔ ∃ number,
            Pointed decimals.toNat other.toList number ∧
              number * 10 ^ decimals.toNat = amount.toNat) ∧
        ∀ cause, account.amount = .error cause →
          account.denominatedBalance decimals = .error cause) ∧
    (∀ (account other : Account) (decimals : UInt32) (text : String),
      account.denominatedBalance decimals = .ok text →
      other.denominatedBalance decimals = .ok text → account.amount = other.amount) ∧
    ∀ (amount : Amount) (decimals : UInt32),
      decimals.toNat < (padded amount.toNat decimals.toNat).length := by
  refine ⟨fun account => ⟨fun amount => amount_eq_ok_iff, ?_,
    fun decimals => ⟨fun amount hamount => ?_,
    fun cause => denominatedBalance_of_error⟩⟩, fun account other decimals text htext hother => ?_,
    fun amount decimals => Text.Decimal.lt_length_padded⟩
  · rw [amount_eq_error_iff]
    constructor
    · rintro ⟨-, hnone⟩ value hvalue
      exact hnone ⟨value, hvalue⟩
    · exact fun hnone => ⟨rfl, fun amount => hnone amount.toNat amount.toNat_lt⟩
  · exact ⟨_, denominatedBalance_of_ok hamount, fun other => eq_denominate_iff⟩
  · obtain ⟨amount, hamount, rfl⟩ := denominatedBalance_eq_ok_iff.1 htext
    obtain ⟨amount', hamount', hsame⟩ := denominatedBalance_eq_ok_iff.1 hother
    rw [hamount, hamount', denominate_injective hsame]

/-- An account of which only the balance matters. -/
def ofBalance (balance : String) : Account := ⟨"", 0, balance, "", none, none, none, "", "", ""⟩

/-- Blanks, a sign and zeros around the digits do not count, neither for the number nor for its
text. -/
theorem balance_exact_padded : (ofBalance "\u2003+0150 ").amount = .ok ⟨150, by decide⟩ ∧
    (ofBalance "\u2003+0150 ").denominatedBalance 2 = .ok "1.5" ∧
    (ofBalance "\u2003+0150 ").amount = (ofBalance "150").amount := by
  have hamount : (ofBalance "\u2003+0150 ").amount = .ok ⟨150, by decide⟩ := by decide +kernel
  have htext : (ofBalance "\u2003+0150 ").denominatedBalance 2 = .ok "1.5" := by decide +kernel
  have hother : (ofBalance "150").denominatedBalance 2 = .ok "1.5" := by decide +kernel
  exact ⟨hamount, htext, balance_exact.2.1 _ _ 2 "1.5" htext hother⟩

end Account

/-- The balance that a client asks for is that of the account it gets. -/
theorem Client.ends_balance {client : Client} {address : Address} {trace : Trace Request Answer}
    {result : Except Error Amount} : (client.balance address).Ends trace result ↔
      ∃ told, (client.account address).Ends trace told ∧ result = told >>= Account.amount := by
  have hbalance : client.balance address =
      client.account address >>= fun account => Call.ofExcept account.amount := by
    refine congrArg (client.account address >>= ·) (funext fun account => ?_)
    unfold Account.amount
    cases account.amount? <;> rfl
  rw [hbalance, Call.ends_bind_ofExcept]

end ShardNet
