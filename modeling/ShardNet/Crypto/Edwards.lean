-- SUMMARY: The twisted Edwards curve over the field of 2^255 - 19 elements: points, group, and text.
import ShardNet.Bytes

/-!
# The Edwards curve

The curve `-x² + y² = 1 + d·x²·y²` over the integers modulo `2 ^ 255 - 19`. Points carry extended
coordinates, so that one formula without exceptions adds any two of them, a point to itself and
points of small order included.

A point is written as its `y` with the parity of its `x` in the top bit. Reading takes any 32 bytes
of which a point can be made: a `y` beyond the modulus counts as its remainder, and the parity bit
of `x = 0` is passed over.
-/

namespace ShardNet.Crypto

-- A power is that of the core library, whatever is imported beside it.
attribute [local instance (2000)] instPowNat

namespace Edwards

def modulus : Nat := 2 ^ (255 : Nat) - 19

instance : @NeZero Nat Zero.ofOfNat0 modulus := ⟨by decide⟩

/-- Elements of the field. -/
abbrev Element := Fin modulus

/-- The power of an element by the lowest `bits` bits of an exponent. -/
def power (base : Element) : (bits exponent : Nat) → Element
  | 0, _ => 1
  | bits + 1, exponent =>
    let rest := power (base * base) bits (exponent / 2)
    if exponent % 2 = 1 then base * rest else rest

def inverse (value : Element) : Element := power value 255 (modulus - 2)

/-- The coefficient `d` of the curve. -/
def coefficient : Element := 0x52036cee2b6ffe738cc740797779e89800700a4d4141d8ab75eb4dca135978a3

/-- A square root of minus one. -/
def rootOfMinusOne : Element := 0x2b8324804fc1df0b2b4d00993dfbd7a72f431806ad2fe478c4ee1b274a0ea0b0

/-- The even root of the quotient of two elements, the second not zero, if it is a square. -/
def rootOfQuotient? (num den : Element) : Option Element :=
  let cube := den * den * den
  let guess := num * cube * power (num * cube * cube * den) 252 ((modulus - 5) / 8)
  let check := den * guess * guess
  let even (root : Element) : Element := if root.val % 2 = 1 then -root else root
  if check = num then some (even guess)
  else if check = -num then some (even (guess * rootOfMinusOne))
  else none

/-! ## Points -/

/-- The point `(x / z, y / z)`, with `t = x * y / z`. -/
structure Point where
  x : Element
  y : Element
  z : Element
  t : Element

namespace Point

def neutral : Point := ⟨0, 1, 1, 0⟩

def ofAffine (x y : Element) : Point := ⟨x, y, 1, x * y⟩

def base : Point :=
  ofAffine 0x216936d3cd6e53fec0a4e231fdd6dc5c692cc7609525a7b2c9562d608f25d51a
    0x6666666666666666666666666666666666666666666666666666666666666658

def add (p q : Point) : Point :=
  let a := (p.y - p.x) * (q.y - q.x)
  let b := (p.y + p.x) * (q.y + q.x)
  let c := 2 * coefficient * p.t * q.t
  let d := 2 * p.z * q.z
  ⟨(b - a) * (d - c), (d + c) * (b + a), (d - c) * (d + c), (b - a) * (b + a)⟩

instance : Add Point := ⟨add⟩

instance : Neg Point := ⟨fun p => ⟨-p.x, p.y, p.z, -p.t⟩⟩

/-- A multiple of a point by the lowest `bits` bits of a factor. -/
def multiple (p : Point) : (bits factor : Nat) → Point
  | 0, _ => neutral
  | bits + 1, factor =>
    let rest := multiple (p + p) bits (factor / 2)
    if factor % 2 = 1 then p + rest else rest

/-! ## Text -/

/-- The 32 bytes of a point. -/
def compress (p : Point) : Bytes :=
  let scale := inverse p.z
  let x := p.x * scale
  let y := p.y * scale
  Bytes.ofNatLE 32 (y.val + x.val % 2 * 2 ^ (255 : Nat))

/-- The point of 32 bytes, if they are those of one. -/
def decompress? (bytes : Bytes) : Option Point :=
  let value := bytes.toNatLE
  let y := Fin.ofNat modulus (value % 2 ^ (255 : Nat))
  (rootOfQuotient? (y * y - 1) (coefficient * y * y + 1)).map fun root =>
    ofAffine (if value / 2 ^ (255 : Nat) % 2 = 1 then -root else root) y

end Point

end Edwards

end ShardNet.Crypto
