import FundsTransfer.Binary64.Basic
import FundsTransfer.Text.Digits

/-!
# The text of a floating-point number

A number is written with the fewest digits that read back to it, in positional
notation whatever its size, and without a point when it is whole.  Of two candidates
with equally few digits the nearer one is taken, and the larger when both are equally
near.  So `1.0` is written `1`, and no text holds an exponent.

The search goes through the numbers of digits from one to seventeen.  With each it
tests the two neighbours of the value on that decimal grid by reading them back, so
what it finds reads back by construction.  Every binary number is a whole number of
10^-1074, so all of it is exact arithmetic on natural numbers, and if no grid had a
hit, the exact digits would be the answer.

Reading takes an optional sign, digits with an optional point, and an optional
exponent, or one of the names `inf`, `infinity` and `nan` in any case.
-/

namespace FundsTransfer.Binary64

open Text

/-! ## Writing -/

/-- A magnitude as a whole number of 10^-1074. -/
def decimalUnits (m : Magnitude) : Nat := m.units * Nat.pow 5 1074

/-- Whether `n * 10 ^ k` units of 10^-1074 read back to a magnitude. -/
def readsBack (m : Magnitude) (n k : Nat) : Bool :=
  decide (ofScaled false n ((k : Int) - 1074) = .finite false m)

/-- The neighbour of a value on the grid of `10 ^ k` that reads back to its magnitude, the
nearer one if both do, and the upper one if both are equally near. -/
def onGrid? (m : Magnitude) (value k : Nat) : Option Nat :=
  let below := value / Nat.pow 10 k
  match readsBack m below k, readsBack m (below + 1) k with
  | true, true => if 2 * (value % Nat.pow 10 k) < Nat.pow 10 k then some below else some (below + 1)
  | true, false => some below
  | false, true => some (below + 1)
  | false, false => none

/-- The first hit on the grids from `10 ^ k` downwards, as digits and the power of the grid. -/
def firstHit (m : Magnitude) (value : Nat) : (tries k : Nat) → Nat × Nat
  | 0, _ => (value, 0)
  | tries + 1, k =>
    match onGrid? m value k with
    | some n => (n, k)
    | none => firstHit m value tries (k - 1)

/-- A hit as digits and the power of ten they are taken to, `10` as one digit. -/
def ofHit (hit : Nat × Nat) : Nat × Int :=
  if hit.1 = 10 then (1, (hit.2 : Int) + 1 - 1074) else (hit.1, (hit.2 : Int) - 1074)

/-- The fewest digits that read back to a magnitude, and their power of ten. -/
def shortest (m : Magnitude) : Nat × Int :=
  ofHit (firstHit m (decimalUnits m) 17 ((digits (decimalUnits m)).length - 1))

/-- The digits `n * 10 ^ e` in positional notation. -/
def positional (n : Nat) : Int → List Char
  | .ofNat k => digits n ++ List.replicate k '0'
  | .negSucc k => pointed n (k + 1)

/-- The text of a finite magnitude. -/
def magnitudeText (m : Magnitude) : List Char :=
  if m.isZero then ['0'] else positional (shortest m).1 (shortest m).2

/-- The text of a number. -/
def text : Binary64 → List Char
  | .nan => ['N', 'a', 'N']
  | .infinite negative => (if negative then ['-'] else []) ++ ['i', 'n', 'f']
  | .finite negative m => (if negative then ['-'] else []) ++ magnitudeText m

/-- The text of a number as a string. -/
def toText (x : Binary64) : String := String.ofList x.text

/-! ## Reading -/

/-- The nearest number to `n * 10 ^ e`.  An exponent far outside the range is not worked out. -/
def ofDigits (negative : Bool) (n : Nat) (e : Int) : Binary64 :=
  if n = 0 then .finite negative .zero
  else
    let top := (digits n).length + e
    if 320 < top then .infinite negative
    else if top < -340 then .finite negative .zero
    else ofScaled negative n e

/-- The exponent behind its mark: digits with an optional sign. -/
def readExponent : List Char → Option Int
  | '-' :: ds => if ds.isEmpty || !ds.all Char.isDigit then none else some (-(digitsValue ds : Int))
  | '+' :: ds => if ds.isEmpty || !ds.all Char.isDigit then none else some (digitsValue ds)
  | ds => if ds.isEmpty || !ds.all Char.isDigit then none else some (digitsValue ds)

/-- A number in digits behind its sign. -/
def readDigits (negative : Bool) (s : List Char) : Option Binary64 :=
  let whole := s.takeWhile Char.isDigit
  let (fraction, rest) := match s.dropWhile Char.isDigit with
    | '.' :: r => (r.takeWhile Char.isDigit, r.dropWhile Char.isDigit)
    | r => ([], r)
  if whole.isEmpty && fraction.isEmpty then none
  else
    let exponent := match rest with
      | [] => some 0
      | c :: r => if c = 'e' || c = 'E' then readExponent r else none
    exponent.map fun e => ofDigits negative (digitsValue (whole ++ fraction)) (e - fraction.length)

/-- A number behind its sign. -/
def readUnsigned (negative : Bool) (s : List Char) : Option Binary64 :=
  match s.map Char.toLower with
  | ['n', 'a', 'n'] => some .nan
  | ['i', 'n', 'f'] => some (.infinite negative)
  | ['i', 'n', 'f', 'i', 'n', 'i', 't', 'y'] => some (.infinite negative)
  | _ => readDigits negative s

/-- The number that a text spells. -/
def ofText? : List Char → Option Binary64
  | '-' :: s => readUnsigned true s
  | '+' :: s => readUnsigned false s
  | s => readUnsigned false s

end FundsTransfer.Binary64
