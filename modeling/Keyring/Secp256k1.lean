import Keyring.Word

/-!
# The curve secp256k1

The points of `y ^ 2 = x ^ 3 + 7` over the integers modulo `prime`, a group of order
`order`.  `Point.add` is the chord and tangent law.  Scalar multiplication runs on
Jacobian coordinates, where the point `(x, y, z)` stands for `(x / z ^ 2, y / z ^ 3)`
and no step divides; one division at the end goes back to a `Point`.
-/

namespace Keyring.Secp256k1

/-- The size of the coordinate field. -/
def prime : Nat :=
  0xfffffffffffffffffffffffffffffffffffffffffffffffffffffffefffffc2f

/-- The number of points. -/
def order : Nat :=
  0xfffffffffffffffffffffffffffffffebaaedce6af48a03bbfd25e8cd0364141

/-- Powers modulo `m` of exponents below `2 ^ bits`. -/
def powMod (m : Nat) : (bits : Nat) → (base exponent : Nat) → Nat
  | 0, _, _ => 1 % m
  | bits + 1, base, exponent =>
    let rest := powMod m bits (base * base % m) (exponent / 2)
    if exponent % 2 = 1 then base * rest % m else rest

/-- The inverse of `a` modulo the prime `m`, zero for zero. -/
def invMod (m a : Nat) : Nat :=
  powMod m 256 a (m - 2)

/-- The difference of two coordinates. -/
def sub (a b : Nat) : Nat :=
  (a + (prime - b % prime)) % prime

/-- The product of two coordinates. -/
def mul (a b : Nat) : Nat :=
  a * b % prime

/-- A point of the curve. -/
inductive Point
  | infinity
  | affine (x y : Nat)
  deriving DecidableEq, Repr

namespace Point

/-- The point every private key is a multiple of. -/
def generator : Point :=
  .affine 0x79be667ef9dcbbac55a06295ce870b07029bfcdb2dce28d959f2815b16f81798
    0x483ada7726a3c4655da4fbfc0e1108a8fd17b448a68554199c47d08ffb10d4b8

/-- Whether a point satisfies the equation of the curve. -/
def IsOnCurve : Point → Prop
  | infinity => True
  | affine x y => x < prime ∧ y < prime ∧ y * y % prime = (x * x % prime * x + 7) % prime

/-- The third point on the line of slope `slope` through `(x₁, y₁)` and a point with
first coordinate `x₂`, reflected. -/
def reflect (slope x₁ y₁ x₂ : Nat) : Point :=
  let x := sub (sub (mul slope slope) x₁) x₂
  affine x (sub (mul slope (sub x₁ x)) y₁)

/-- The sum of two points. -/
def add : Point → Point → Point
  | infinity, q => q
  | p, infinity => p
  | affine x₁ y₁, affine x₂ y₂ =>
    if x₁ = x₂ then
      if y₁ = y₂ ∧ y₁ ≠ 0 then
        reflect (mul (3 * x₁ * x₁) (invMod prime (2 * y₁))) x₁ y₁ x₁
      else infinity
    else
      reflect (mul (sub y₂ y₁) (invMod prime (sub x₂ x₁))) x₁ y₁ x₂

end Point

/-- A point in Jacobian coordinates; `z = 0` stands for the point at infinity. -/
structure Jacobian where
  x : Nat
  y : Nat
  z : Nat

namespace Jacobian

/-- The point at infinity. -/
def infinity : Jacobian := ⟨1, 1, 0⟩

def ofPoint : Point → Jacobian
  | .infinity => infinity
  | .affine x y => ⟨x, y, 1⟩

def toPoint (p : Jacobian) : Point :=
  if p.z % prime = 0 then .infinity
  else
    let i := invMod prime p.z
    let i2 := mul i i
    .affine (mul p.x i2) (mul p.y (mul i2 i))

/-- Twice a point. -/
def double (p : Jacobian) : Jacobian :=
  let a := mul p.x p.x
  let b := mul p.y p.y
  let c := mul b b
  let d := 4 * mul p.x b % prime
  let e := 3 * a % prime
  let x := sub (mul e e) (2 * d)
  ⟨x, sub (mul e (sub d x)) (8 * c), 2 * mul p.y p.z % prime⟩

/-- The sum of two points. -/
def add (p q : Jacobian) : Jacobian :=
  if p.z = 0 then q
  else if q.z = 0 then p
  else
    let pz2 := mul p.z p.z
    let qz2 := mul q.z q.z
    let u1 := mul p.x qz2
    let u2 := mul q.x pz2
    let s1 := mul p.y (mul qz2 q.z)
    let s2 := mul q.y (mul pz2 p.z)
    if u1 = u2 then
      if s1 = s2 then double p else infinity
    else
      let h := sub u2 u1
      let r := sub s2 s1
      let h2 := mul h h
      let h3 := mul h2 h
      let v := mul u1 h2
      let x := sub (sub (mul r r) h3) (2 * v)
      ⟨x, sub (mul r (sub v x)) (mul s1 h3), mul h (mul p.z q.z)⟩

/-- The multiple of `p` by a scalar below `2 ^ bits`. -/
def smul : (bits : Nat) → (k : Nat) → (p : Jacobian) → Jacobian
  | 0, _, _ => infinity
  | bits + 1, k, p =>
    let rest := smul bits (k / 2) (double p)
    if k % 2 = 1 then add p rest else rest

end Jacobian

namespace Point

/-- The multiple of a point by a scalar below `2 ^ 256`. -/
def smul (k : Nat) (p : Point) : Point :=
  (Jacobian.smul 256 k (.ofPoint p)).toPoint

/-- `a` times `p` plus `b` times `q`. -/
def combine (a : Nat) (p : Point) (b : Nat) (q : Point) : Point :=
  ((Jacobian.smul 256 a (.ofPoint p)).add (Jacobian.smul 256 b (.ofPoint q))).toPoint

/-- The point with first coordinate `x` whose second coordinate is odd or even as
`odd` says, if there is one. -/
def lift? (x : Nat) (odd : Bool) : Option Point :=
  let c := (x * x % prime * x + 7) % prime
  let y := powMod prime 256 c ((prime + 1) / 4)
  if prime ≤ x ∨ mul y y ≠ c then none
  else if (y % 2 == 1) == odd then some (affine x y)
  else some (affine x ((prime - y) % prime))

/-- The compressed form of a point: 33 bytes, for infinity one. -/
def compressed : Point → Bytes
  | infinity => [0]
  | affine x y => (if y % 2 = 1 then 3 else 2) :: Bytes.ofNat 32 x

/-- The uncompressed form of a point without its leading tag: both coordinates. -/
def coordinates : Point → Bytes
  | infinity => []
  | affine x y => Bytes.ofNat 32 x ++ Bytes.ofNat 32 y

/-- Reads a compressed point. -/
def ofCompressed? : Bytes → Option Point
  | tag :: rest =>
    if rest.length = 32 then
      if tag = 2 then lift? (Bytes.toNat rest) false
      else if tag = 3 then lift? (Bytes.toNat rest) true
      else none
    else none
  | [] => none

end Point

/-- A private key: a scalar that is neither zero nor out of range. -/
structure Secret where
  val : Nat
  pos : 0 < val
  lt : val < order
  deriving DecidableEq, Repr

namespace Secret

/-- The private key of a number, if it is one. -/
def ofNat? (k : Nat) : Option Secret :=
  if h : 0 < k ∧ k < order then some ⟨k, h.1, h.2⟩ else none

/-- The private key a word spells, if it is one. -/
def ofWord? (w : Word256) : Option Secret :=
  ofNat? w.toNat

/-- The private key that a byte string spells; it must have 32 bytes. -/
def ofBytes? (b : Bytes) : Option Secret :=
  if b.length = 32 then ofNat? (Bytes.toNat b) else none

/-- The 32 bytes of a private key. -/
def toBytes (k : Secret) : Bytes :=
  Bytes.ofNat 32 k.val

/-- A private key as a word. -/
def toWord (k : Secret) : Word256 :=
  BitVec.ofNat 256 k.val

/-- The public key of a private key. -/
def publicKey (k : Secret) : Point :=
  Point.generator.smul k.val

end Secret

end Keyring.Secp256k1
