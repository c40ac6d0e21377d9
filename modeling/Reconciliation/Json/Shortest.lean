import Reconciliation.Json.Number

/-!
Doubles as decimal texts: the fewest digits that no other double is nearer to, in positional
notation from 0.00001 up to sixteen digits before the point and with a signed exponent elsewhere.
-/
namespace Reconciliation.Double

/-- The exponent of the leading decimal digit of `m * 2 ^ q`, for positive `m`. -/
def leadingExponent (m : Nat) (q : Int) : Int :=
  let scaled := m * Nat.pow 10 400 * Nat.pow 2 q.toNat / Nat.pow 2 (-q).toNat
  (Nat.toDigits 10 scaled).length - 401

/-- The two sides of `d * 10 ^ k` and `n * 2 ^ q`, brought to a common denominator. -/
def scaledSides (d : Nat) (k : Int) (n : Nat) (q : Int) : Nat × Nat :=
  (d * Nat.pow 10 k.toNat * Nat.pow 2 (-q).toNat, n * Nat.pow 2 q.toNat * Nat.pow 10 (-k).toNat)

/-- Whether `d * 10 ^ k` rounds to the double of magnitude `m * 2 ^ q`. -/
def roundsTo (d : Nat) (k : Int) (m : Nat) (q : Int) : Bool :=
  let below := if m = 4503599627370496 ∧ -1074 < q then 1 else 2
  let (low, low') := scaledSides d k (4 * m - below) (q - 2)
  let (high, high') := scaledSides d k (4 * m + 2) (q - 2)
  if m % 2 = 0 then low' ≤ low && high ≤ high' else low' < low && high < high'

/-- The decimal with the fewest digits, but at least `count`, that rounds to the double; of two with
one number of digits the nearer one, and of two that are equally near the even one. The search gives
up after `fuel` numbers of digits; seventeen digits always suffice. -/
def shortestFrom (m : Nat) (q lead : Int) : (fuel count : Nat) → Nat × Int
  | 0, count =>
    let k := lead - count + 1
    let (num, den) := scaledSides 1 k m q
    (den / num, k)
  | fuel + 1, count =>
    let k := lead - count + 1
    let (num, den) := scaledSides 1 k m q
    let d := den / num
    match roundsTo d k m q, roundsTo (d + 1) k m q with
    | true, true =>
      let twice := 2 * (den - d * num)
      if twice < num ∨ twice = num ∧ d % 2 = 0 then (d, k) else (d + 1, k)
    | true, false => (d, k)
    | false, true => (d + 1, k)
    | false, false => shortestFrom m q lead fuel (count + 1)

/-- Digits without trailing zeros, and the exponent of the last one that is left. -/
def dropZeros : (fuel : Nat) → Nat × Int → Nat × Int
  | 0, decimal => decimal
  | fuel + 1, (d, k) => if d ≠ 0 ∧ d % 10 = 0 then dropZeros fuel (d / 10, k + 1) else (d, k)

def exponentText (exponent : Int) : List Char :=
  (if 0 ≤ exponent then '+' else '-') :: Nat.toDigits 10 exponent.natAbs

/-- The text of the decimal `d * 10 ^ k`, for positive `d` that does not end in a zero. -/
def decimalText (d : Nat) (k : Int) : List Char :=
  let digits := Nat.toDigits 10 d
  let point := digits.length + k
  if 0 ≤ k ∧ point ≤ 16 then digits ++ List.replicate k.toNat '0' ++ ['.', '0']
  else if 0 < point ∧ point ≤ 16 then digits.take point.toNat ++ '.' :: digits.drop point.toNat
  else if -5 < point ∧ point ≤ 0 then ['0', '.'] ++ List.replicate (-point).toNat '0' ++ digits
  else
    match digits with
    | [only] => only :: 'e' :: exponentText (point - 1)
    | first :: rest => first :: '.' :: rest ++ 'e' :: exponentText (point - 1)
    | [] => []

/-- The shortest decimal text of the magnitude `m * 2 ^ q`. -/
def magnitudeText (m : Nat) (q : Int) : List Char :=
  if m = 0 then ['0', '.', '0']
  else
    let (d, k) := dropZeros 20 (shortestFrom m q (leadingExponent m q) 17 1)
    decimalText d k

def text (double : Double) : String :=
  let magnitude := magnitudeText double.significand double.scale
  String.ofList (if double.isNegative then '-' :: magnitude else magnitude)

end Reconciliation.Double
