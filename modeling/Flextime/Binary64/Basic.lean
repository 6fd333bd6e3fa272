/-! # Double-precision numbers

A finite number is a sign, a significand below `2 ^ 53` and an exponent. An operation takes the
exact fraction of its operands and rounds once, to the nearest number and at a tie to the even
significand, so every law of an operation is a law of fractions followed by `nearest`.
-/
namespace Flextime

def twoTo (k : Nat) : Nat := Nat.pow 2 k

def tenTo (k : Nat) : Nat := Nat.pow 10 k

theorem twoTo_pos (k : Nat) : 0 < twoTo k := Nat.pow_pos (by decide)

theorem tenTo_pos (k : Nat) : 0 < tenTo k := Nat.pow_pos (by decide)

/-- The quotient `n / d` to the nearest integer, a tie to the even one. -/
def divNearest (n : Int) (d : Nat) : Int :=
  let q := n / d
  let r := n % d
  if 2 * r < d then q
  else if (d : Int) < 2 * r then q + 1
  else if q % 2 = 0 then q
  else q + 1

theorem divNearest_cases (n : Int) (d : Nat) :
    divNearest n d = n / d ∧ 2 * (n % d) ≤ d ∧ (2 * (n % d) = d → n / d % 2 = 0) ∨
    divNearest n d = n / d + 1 ∧ (d : Int) ≤ 2 * (n % d) ∧
      (2 * (n % d) = d → (n / d + 1) % 2 = 0) := by
  unfold divNearest
  dsimp only
  split
  · left; omega
  · split
    · right; omega
    · split
      · left; omega
      · right; omega

theorem divNearest_near (n : Int) {d : Nat} (hd : 0 < d) :
    2 * (n - divNearest n d * d) ≤ d ∧ -(d : Int) ≤ 2 * (n - divNearest n d * d) := by
  have hn := Int.mul_ediv_add_emod n d
  have h0 := Int.emod_nonneg n (b := d) (by omega)
  have h1 := Int.emod_lt_of_pos n (b := d) (by omega)
  have hc := Int.mul_comm (d : Int) (n / d)
  rcases divNearest_cases n d with ⟨h, _, _⟩ | ⟨h, _, _⟩ <;> rw [h]
  · omega
  · rw [Int.add_mul]; omega

theorem divNearest_even (n : Int) {d : Nat} (hd : 0 < d)
    (ht : 2 * (n - divNearest n d * d) = d ∨ 2 * (n - divNearest n d * d) = -(d : Int)) :
    divNearest n d % 2 = 0 := by
  have hn := Int.mul_ediv_add_emod n d
  have h0 := Int.emod_nonneg n (b := d) (by omega)
  have h1 := Int.emod_lt_of_pos n (b := d) (by omega)
  have hc := Int.mul_comm (d : Int) (n / d)
  rcases divNearest_cases n d with ⟨h, hr, he⟩ | ⟨h, hr, he⟩
  · rw [h] at ht ⊢
    exact he (by omega)
  · rw [h, Int.add_mul] at ht
    rw [h]
    exact he (by omega)

/-- The exponent of the highest power of two that is at most `p / q`. -/
def floorLog2 (p q : Nat) : Int :=
  let k : Int := (p.log2 : Int) - q.log2
  if q * twoTo k.toNat ≤ p * twoTo (-k).toNat then k else k - 1

/-- Significands have 53 binary places. -/
def significandBound : Nat := 9007199254740992

/-- Significand and exponent in their only form: the exponent is the least one possible. -/
def Canonical (m : Nat) (e : Int) : Prop :=
  m < significandBound ∧ -1074 ≤ e ∧ e ≤ 971 ∧ (significandBound ≤ 2 * m ∨ e = -1074)

instance (m : Nat) (e : Int) : Decidable (Canonical m e) :=
  inferInstanceAs (Decidable (_ ∧ _ ∧ _ ∧ _))

/-- A number of the double-precision format; all undefined results are the one `nan`. -/
inductive Binary64 where
  | nan
  | infinite (negative : Bool)
  | finite (negative : Bool) (m : Nat) (e : Int) (canonical : Canonical m e)
deriving DecidableEq

namespace Binary64

theorem canonical_zero : Canonical 0 (-1074) := by decide

def zero (negative : Bool) : Binary64 := .finite negative 0 (-1074) canonical_zero

instance : Inhabited Binary64 := ⟨zero false⟩

/-- Past the largest exponent a magnitude is infinite. -/
def ofParts (negative : Bool) (m : Nat) (e : Int) : Binary64 :=
  if h : Canonical m e then .finite negative m e h else .infinite negative

/-- The number nearest to `p / q`. The quotient is cut to 53 binary places, fewer near zero, and a
significand that rounds up to `2 ^ 53` moves to the next exponent. -/
def nearest (negative : Bool) (p q : Nat) : Binary64 :=
  if p = 0 then zero negative
  else
    let e := max (-1074) (floorLog2 p q - 52)
    let m := (divNearest (p * twoTo (-e).toNat : Nat) (q * twoTo e.toNat)).toNat
    if m < significandBound then ofParts negative m e else ofParts negative (m / 2) (e + 1)

/-- The number nearest to `n / d`; zero takes the sign given. -/
def ofFraction (negativeZero : Bool) (n : Int) (d : Nat) : Binary64 :=
  if n = 0 then zero negativeZero else nearest (n < 0) n.natAbs d

def ofInt (n : Int) : Binary64 := ofFraction false n 1

/-- Numerator of a finite number over `denominator`, and 0 for the others. -/
def numerator : Binary64 → Int
  | .finite negative m e _ =>
    let n : Int := (m * twoTo e.toNat : Nat)
    if negative then -n else n
  | _ => 0

def denominator : Binary64 → Nat
  | .finite _ _ e _ => twoTo (-e).toNat
  | _ => 1

def isNegative : Binary64 → Bool
  | .nan => false
  | .infinite negative => negative
  | .finite negative _ _ _ => negative

def isFinite : Binary64 → Bool
  | .finite .. => true
  | _ => false

def isNaN : Binary64 → Bool
  | .nan => true
  | _ => false

def isZero (x : Binary64) : Bool := x.isFinite && x.numerator == 0

theorem denominator_pos (x : Binary64) : 0 < x.denominator := by
  cases x with
  | finite s m e h => exact twoTo_pos _
  | nan => decide
  | infinite s => exact Nat.one_pos

protected def neg : Binary64 → Binary64
  | .nan => .nan
  | .infinite s => .infinite !s
  | .finite s m e h => .finite (!s) m e h

protected def abs : Binary64 → Binary64
  | .nan => .nan
  | .infinite _ => .infinite false
  | .finite _ m e h => .finite false m e h

protected def add : Binary64 → Binary64 → Binary64
  | .nan, _ => .nan
  | _, .nan => .nan
  | .infinite s, .infinite t => if s = t then .infinite s else .nan
  | .infinite s, .finite .. => .infinite s
  | .finite .., .infinite t => .infinite t
  | x@(.finite s _ _ _), y@(.finite t _ _ _) =>
    ofFraction (s && t) (x.numerator * y.denominator + y.numerator * x.denominator)
      (x.denominator * y.denominator)

protected def sub (x y : Binary64) : Binary64 := x.add y.neg

protected def mul : Binary64 → Binary64 → Binary64
  | .nan, _ => .nan
  | _, .nan => .nan
  | .infinite s, .infinite t => .infinite (s ^^ t)
  | .infinite s, y@(.finite t _ _ _) => if y.isZero then .nan else .infinite (s ^^ t)
  | x@(.finite s _ _ _), .infinite t => if x.isZero then .nan else .infinite (s ^^ t)
  | x@(.finite s _ _ _), y@(.finite t _ _ _) =>
    ofFraction (s ^^ t) (x.numerator * y.numerator) (x.denominator * y.denominator)

protected def div : Binary64 → Binary64 → Binary64
  | .nan, _ => .nan
  | _, .nan => .nan
  | .infinite _, .infinite _ => .nan
  | .infinite s, .finite t _ _ _ => .infinite (s ^^ t)
  | .finite s _ _ _, .infinite t => zero (s ^^ t)
  | x@(.finite s _ _ _), y@(.finite t _ _ _) =>
    if y.isZero then (if x.isZero then .nan else .infinite (s ^^ t))
    else
      ofFraction (s ^^ t) (x.numerator * y.denominator * y.numerator.sign)
        (x.denominator * y.numerator.natAbs)

/-- Numerical order: false as soon as one side is `nan`; the two zeros are equal. -/
protected def lt : Binary64 → Binary64 → Bool
  | .nan, _ => false
  | _, .nan => false
  | .infinite s, .infinite t => s && !t
  | .infinite s, .finite .. => s
  | .finite .., .infinite t => !t
  | x@(.finite ..), y@(.finite ..) => x.numerator * y.denominator < y.numerator * x.denominator

protected def le : Binary64 → Binary64 → Bool
  | .nan, _ => false
  | _, .nan => false
  | .infinite s, .infinite t => s || !t
  | .infinite s, .finite .. => s
  | .finite .., .infinite t => !t
  | x@(.finite ..), y@(.finite ..) => x.numerator * y.denominator ≤ y.numerator * x.denominator

/-- Numerical equality: `nan` differs from itself. -/
protected def beq (x y : Binary64) : Bool := x.le y && y.le x

instance : Neg Binary64 := ⟨Binary64.neg⟩
instance : Add Binary64 := ⟨Binary64.add⟩
instance : Sub Binary64 := ⟨Binary64.sub⟩
instance : Mul Binary64 := ⟨Binary64.mul⟩
instance : Div Binary64 := ⟨Binary64.div⟩

/-- The integer part, towards zero; 0 for a number that is not finite. -/
def truncate (x : Binary64) : Int := x.numerator.tdiv x.denominator

/-- What `truncate` leaves; it is exact, and has the sign of `x`. -/
def fractionPart (x : Binary64) : Binary64 :=
  ofFraction x.isNegative (x.numerator.tmod x.denominator) x.denominator

end Binary64
end Flextime
