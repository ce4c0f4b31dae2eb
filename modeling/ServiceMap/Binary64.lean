/-! Binary floating-point numbers of 64 bits, as exact values: the one nearest to a decimal, and the
shortest decimal that only it is nearest to. -/

namespace ServiceMap

inductive Binary64 where
  | nan
  | infinite (negative : Bool)
  /-- The value `mantissa * 2 ^ exponent`. -/
  | finite (negative : Bool) (mantissa : Nat) (exponent : Int)
  deriving DecidableEq, Repr

namespace Binary64

/-- A number `num / den`. -/
structure Ratio where
  num : Nat
  den : Nat

/-- `n * base ^ e`. -/
def scaled (n base : Nat) (e : Int) : Ratio :=
  if e < 0 then ⟨n, base.pow e.natAbs⟩ else ⟨n * base.pow e.natAbs, 1⟩

/-- `r * base ^ e`. -/
def Ratio.scale (r : Ratio) (base : Nat) (e : Int) : Ratio :=
  if e < 0 then ⟨r.num, r.den * base.pow e.natAbs⟩ else ⟨r.num * base.pow e.natAbs, r.den⟩

/-- The nearest natural number; of two, the even one. -/
def Ratio.round (r : Ratio) : Nat :=
  let q := r.num / r.den
  let twice := 2 * (r.num % r.den)
  if twice < r.den || (twice = r.den && q % 2 = 0) then q else q + 1

/-- One more than the greatest mantissa. -/
def mantissaEnd : Nat := Nat.pow 2 53

/-- The least mantissa that fills its bits. -/
def mantissaStart : Nat := Nat.pow 2 52

def leastExponent : Int := -1074

def greatestExponent : Int := 971

/-- The nearest binary to `r`, which is positive. A mantissa has 53 bits unless the exponent is the
least one. -/
def ofRatio (negative : Bool) (r : Ratio) : Binary64 :=
  let low : Int := (Nat.log2 r.num : Int) - Nat.log2 r.den - 53
  let fits (e : Int) : Bool :=
    let s := r.scale 2 (-e)
    s.num / s.den < mantissaEnd
  let e := max leastExponent (if fits low then low else low + 1)
  let m := (r.scale 2 (-e)).round
  let (m, e) := if m = mantissaEnd then (mantissaStart, e + 1) else (m, e)
  if e > greatestExponent then infinite negative else finite negative m e

/-- The nearest binary to `digits * 10 ^ e`. Far above or below all binaries the answer is known
without the power. -/
def ofDecimal (negative : Bool) (digits : Nat) (e : Int) : Binary64 :=
  let size : Int := (Nat.toDigits 10 digits).length + e
  if digits = 0 || size < -400 then finite negative 0 leastExponent
  else if size > 400 then infinite negative
  else ofRatio negative (scaled digits 10 e)

/-- Whether a decimal, `4 * d` given as `r`, reads back as the mantissa `m`: it lies at most half a
step away, and a quarter of one below the least mantissa of its exponent. -/
def readsBack (m : Nat) (e : Int) (r : Ratio) : Bool :=
  let lower := if m = mantissaStart && e > leastExponent then 4 * m - 1 else 4 * m - 2
  let upper := 4 * m + 2
  let inside (a b : Nat) : Bool := if m % 2 = 0 then a ≤ b else a < b
  inside (lower * r.den) r.num && inside r.num (upper * r.den)

/-- Places that a decimal is moved by so that its first digit can be counted. -/
def shift : Nat := 400

/-- The decimals `digits * 10 ^ place` with `n` digits around `m * 2 ^ e` that read back, the nearer
one first. -/
def withDigits (m : Nat) (e : Int) (n : Nat) : Option (Nat × Int) :=
  let v := scaled m 2 e
  let size : Int := (Nat.toDigits 10 (v.num * Nat.pow 10 shift / v.den)).length - shift
  let place := size - n
  let w := v.scale 10 (-place)
  let below := w.num / w.den
  let nearer := if 2 * (w.num % w.den) ≤ w.den then [below, below + 1] else [below + 1, below]
  (nearer.find? fun d => readsBack m e ((scaled (4 * d) 10 place).scale 2 (-e))).map (·, place)

/-- Seventeen digits always read back. -/
def shortest (m : Nat) (e : Int) : Nat × Int :=
  ((List.range 17).findSome? fun n => withDigits m e (n + 1)).getD (0, 0)

/-- `digits * 10 ^ place`, written out with a point. -/
def positional (digits : Nat) (place : Int) : String :=
  let ds := Nat.toDigits 10 digits
  if place ≥ 0 then String.ofList (ds ++ List.replicate place.natAbs '0') ++ ".0"
  else
    let fraction := place.natAbs
    let padded := List.replicate (fraction + 1 - ds.length) '0' ++ ds
    let whole := padded.length - fraction
    let tail := ((padded.drop whole).reverse.dropWhile (· = '0')).reverse
    String.ofList (padded.take whole) ++ "." ++ (if tail = [] then "0" else String.ofList tail)

def sign (negative : Bool) : String := if negative then "-" else ""

/-- All digits, whatever the size, and always a point. -/
def text : Binary64 → String
  | nan => "NaN"
  | infinite negative => sign negative ++ "inf"
  | finite negative 0 _ => sign negative ++ "0.0"
  | finite negative m e =>
    let (digits, place) := shortest m e
    sign negative ++ positional digits place

end Binary64
end ServiceMap
