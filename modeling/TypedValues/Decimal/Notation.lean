import TypedValues.Decimal.Shortest

/-!
# The text of a real

Reals are written with the fewest digits that read back: positionally from one ten-thousandth up to
ten to the sixteenth, always with a digit after the point, and with an exponent beyond.
-/

namespace TypedValues.Decimal

/-- The significant digits and the place of the point, counted from the first digit. -/
def Scaled.figures (s : Scaled) : List Char × Int :=
  let all := Nat.toDigits 10 s.digits
  ((all.reverse.dropWhile (· == '0')).reverse, all.length + s.exponent)

/-- The digits with the point in place, zeros filled in on either side. -/
def positional (figures : List Char) (point : Int) : List Char :=
  if point ≤ 0 then
    '0' :: '.' :: List.replicate (-point).toNat '0' ++ figures
  else if figures.length ≤ point.toNat then
    figures ++ List.replicate (point.toNat - figures.length) '0' ++ ['.', '0']
  else
    figures.take point.toNat ++ '.' :: figures.drop point.toNat

/-- One digit before the point, and the power of ten that follows. -/
def scientific (figures : List Char) (point : Int) : List Char :=
  let mantissa := match figures with
    | [] => []
    | [d] => [d]
    | d :: rest => d :: '.' :: rest
  mantissa ++ 'e' :: (toString (point - 1)).toList

/-- The magnitude of a finite double. -/
def magnitudeText (x : Binary64) : List Char :=
  if x.isZero then ['0', '.', '0']
  else
    let (figures, point) := (shortest x).figures
    if -4 < point && point ≤ 16 then positional figures point else scientific figures point

def Binary64.text (x : Binary64) : String :=
  if x.isNaN then "NaN"
  else
    let magnitude := if x.isInfinite then ['i', 'n', 'f'] else magnitudeText x
    String.ofList (if x.isNegative then '-' :: magnitude else magnitude)

end TypedValues.Decimal
