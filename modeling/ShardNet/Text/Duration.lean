-- SUMMARY: The text of a length of time, in the greatest unit that it fills.
import ShardNet.Text.Decimal

/-!
# Durations

A duration is a number of nanoseconds. It is written in seconds, milliseconds, microseconds or
nanoseconds, the first of them of which it holds at least one, with as many decimals as it needs.
-/

namespace ShardNet

-- A power is that of the core library, whatever is imported beside it.
attribute [local instance (2000)] instPowNat

/-- A length of time in nanoseconds. -/
abbrev Duration := Nat

namespace Duration

def ofMilliseconds (count : Nat) : Duration := count * 10 ^ (6 : Nat)

def ofSeconds (count : Nat) : Duration := count * 10 ^ (9 : Nat)

def text (duration : Duration) : String :=
  let (places, unit) :=
    if 10 ^ (9 : Nat) ≤ duration then (9, "s")
    else if 10 ^ (6 : Nat) ≤ duration then (6, "ms")
    else if 10 ^ (3 : Nat) ≤ duration then (3, "µs")
    else (0, "ns")
  String.ofList (Text.Decimal.pointed duration places) ++ unit

end Duration

end ShardNet
