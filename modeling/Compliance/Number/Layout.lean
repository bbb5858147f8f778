import Compliance.Number.Shortest

/-!
# Layouts of decimal numbers

One number has three written forms in this library: in result strings, in JSON
artifacts and in the canonical JSON that is digested.  They share their digits
and differ only in the decisions a `Layout` records.
-/

namespace Compliance.Number

/-- The decisions a written form of a number takes. -/
structure Layout where
  /-- The powers of ten of the leading digit written without an exponent;
  `none` is every power. -/
  positional : Option (Int × Int)
  /-- A whole number still gets a fraction. -/
  pointZero : Bool
  /-- The sign of zero is written. -/
  signedZero : Bool

namespace Layout

/-- Result strings never use an exponent. -/
def plain : Layout :=
  ⟨none, false, true⟩

/-- JSON artifacts keep a point, and switch to an exponent outside 1e-5 to 1e16. -/
def artifact : Layout :=
  ⟨some (-5, 15), true, true⟩

/-- Canonical JSON switches to an exponent outside 1e-6 to 1e21. -/
def canonical : Layout :=
  ⟨some (-6, 20), false, false⟩

def isPositional (l : Layout) (power : Int) : Bool :=
  match l.positional with
  | none => true
  | some (low, high) => low ≤ power && power ≤ high

/-- Digits placed around a point; `power` is the power of ten of the first. -/
def place (l : Layout) (ds : List Char) (power : Int) : List Char :=
  if power < 0 then
    '0' :: '.' :: (List.replicate (-power - 1).toNat '0' ++ ds)
  else
    let whole := power.toNat + 1
    if ds.length ≤ whole then
      ds ++ List.replicate (whole - ds.length) '0' ++
        (if l.pointZero then ['.', '0'] else [])
    else
      ds.take whole ++ '.' :: ds.drop whole

/-- Digits with one place before the point and an exponent. -/
def withExponent (ds : List Char) (power : Int) : List Char :=
  let fraction := match ds.drop 1 with
    | [] => []
    | rest => '.' :: rest
  ds.take 1 ++ fraction ++
    'e' :: (if power < 0 then '-' else '+') :: digits power.natAbs

def write (l : Layout) (d : Scientific) : List Char :=
  let ds := digits d.significand
  let power := d.exponent + ds.length - 1
  if l.isPositional power then l.place ds power else withExponent ds power

/-- The written form of a number that is finite; the others have names. -/
def render (l : Layout) (x : Binary64) : String :=
  if x.isNaN then "NaN"
  else
    let sign := x.isNegative && (l.signedZero || !x.isZero)
    let body :=
      if !x.isFinite then "inf".toList
      else if x.isZero then l.write ⟨0, 0⟩
      else l.write x.shortest
    String.ofList (if sign then '-' :: body else body)

end Layout

end Compliance.Number
