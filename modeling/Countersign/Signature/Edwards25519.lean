import Countersign.Data.Bytes

/-!
# The curve edwards25519

Points of `-x² + y² = 1 + d x² y²` over the integers modulo `p = 2^255 - 19`, in extended coordinates
`(x : y : z : t)` with `t = x y / z`. `Point.add` is complete, so one formula serves all points.
`compress` writes a point in 32 bytes and `decompress?` reads it back, taking any 32 bytes whose
number names a `y` on the curve, reduced or not.
-/

namespace Countersign.Edwards25519

/-- The modulus of the coordinates. -/
def p : Nat := Nat.pow 2 255 - 19

/-- The order of the base point. -/
def order : Nat := Nat.pow 2 252 + 27742317777372353535851937790883648493

/-! ## Arithmetic modulo `p` -/

/-- The low `k` bits of a number, lowest first. -/
def lowBits : Nat → Nat → List Bool
  | 0, _ => []
  | k + 1, n => (n % 2 == 1) :: lowBits k (n / 2)

def mul (a b : Nat) : Nat := a * b % p

def plus (a b : Nat) : Nat := (a + b) % p

def minus (a b : Nat) : Nat := (a + (p - b % p)) % p

/-- The power with an exponent below `2^255`. -/
def pow (b e : Nat) : Nat :=
  (lowBits 255 e).reverse.foldl (fun acc bit => if bit then mul (mul acc acc) b else mul acc acc) 1

/-- The inverse modulo `p`; zero for zero. -/
def inverse (a : Nat) : Nat := pow a (p - 2)

def sqrtMinusOne : Nat :=
  19681161376707505956807079304988542015446066515923890162744021073123829784752

/-- The coefficient `d = -121665 / 121666`. -/
def d : Nat := 37095705934669439343138083508754565189542113879843219016388785533085940283555

/-- The even square root of `u / v`, if there is one. -/
def sqrtRatio? (u v : Nat) : Option Nat :=
  let v3 := mul (mul v v) v
  let v7 := mul (mul v3 v3) v
  let r := mul (mul u v3) (pow (mul u v7) ((p - 5) / 8))
  let check := mul v (mul r r)
  let even (x : Nat) : Nat := if x % 2 = 1 then p - x else x
  if check = u then some (even r)
  else if check = minus 0 u then some (even (mul r sqrtMinusOne))
  else none

/-! ## Points -/

structure Point where
  (x y z t : Nat)
  deriving DecidableEq, Repr

namespace Point

def zero : Point := ⟨0, 1, 1, 0⟩

def base : Point :=
  let x := 15112221349535400772501151409588531511454012693041857206046113283949847762202
  let y := 46316835694926478169428394003475163141307993866256225615783033603165251855960
  ⟨x, y, 1, mul x y⟩

def add (a b : Point) : Point :=
  let e1 := mul (minus a.y a.x) (minus b.y b.x)
  let e2 := mul (plus a.y a.x) (plus b.y b.x)
  let c := mul (mul (mul a.t 2) d) b.t
  let f := mul (mul a.z 2) b.z
  let e := minus e2 e1
  let g := plus f c
  let h := plus e2 e1
  let k := minus f c
  ⟨mul e k, mul g h, mul k g, mul e h⟩

def double (a : Point) : Point :=
  let xx := mul a.x a.x
  let yy := mul a.y a.y
  let zz := mul 2 (mul a.z a.z)
  let h := plus xx yy
  let s := plus a.x a.y
  let e := minus h (mul s s)
  let g := minus xx yy
  let f := plus zz g
  ⟨mul e f, mul g h, mul f g, mul e h⟩

def neg (a : Point) : Point := ⟨minus 0 a.x, a.y, a.z, minus 0 a.t⟩

/-- The multiple by a number below `2^256`. -/
def smul (n : Nat) (a : Point) : Point :=
  (lowBits 256 n).reverse.foldl
    (fun acc bit => if bit then acc.double.add a else acc.double) zero

def doublings : Nat → Point → List Point
  | 0, _ => []
  | n + 1, a => a :: doublings n a.double

def baseDoublings : List Point := doublings 256 base

def baseMul (n : Nat) : Point :=
  ((lowBits 256 n).zip baseDoublings).foldl
    (fun acc step => if step.1 then acc.add step.2 else acc) zero

/-- Whether eight times the point is the neutral point. -/
def isSmallOrder (a : Point) : Bool :=
  let b := a.double.double.double
  b.x == 0 && b.y == b.z

/-- The number `y`, with the parity of `x` in the highest bit. -/
def compress (a : Point) : FixedBytes 32 :=
  let w := inverse a.z
  .ofNatLe 32 (mul a.y w + mul a.x w % 2 * Nat.pow 2 255)

/-- The point that 32 bytes name, if there is one. -/
def decompress? (bs : FixedBytes 32) : Option Point :=
  let n := ofLe bs.toList
  let y := n % Nat.pow 2 255 % p
  let yy := mul y y
  (sqrtRatio? (minus yy 1) (plus (mul d yy) 1)).map fun even =>
    let x := if n / Nat.pow 2 255 = 1 then minus 0 even else even
    ⟨x, y, 1, mul x y⟩

end Point

end Countersign.Edwards25519
