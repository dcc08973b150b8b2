/-! # Decimal text with fixed places

A binary floating-point number is a whole number times a power of two, so its decimal text is
computed exactly: the number is scaled, divided once and rounded once.  `roundDiv` rounds to the
nearest whole number and sends a tie to the even one. -/

namespace GrammarComparison.Text

/-- The whole number nearest to `n / d`; of two equally near ones the even one. -/
def roundDiv (n d : Nat) : Nat :=
  match compare (2 * (n % d)) d with
  | .lt => n / d
  | .eq => n / d + n / d % 2
  | .gt => n / d + 1

/-- A finite number that is not negative, as a fraction: its mantissa of 53 bits times a power of
two, or fewer bits for the numbers next to zero. -/
def fraction (x : Float) : Nat × Nat :=
  let bits := x.toBits.toNat
  let exponent := (bits >>> 52) % 2048
  let mantissa := bits % (1 <<< 52)
  if exponent = 0 then (mantissa, 1 <<< 1074)
  else (((1 <<< 52) + mantissa) <<< (exponent - 1075), 1 <<< (1075 - exponent))

/-- The text of a finite number that is not negative, with `places` digits after the point. -/
def fixedPlaces (places : Nat) (x : Float) : String :=
  let (n, d) := fraction x
  let unit := Nat.pow 10 places
  let scaled := roundDiv (n * unit) d
  let tail := Nat.toDigits 10 (scaled % unit)
  String.ofList (Nat.toDigits 10 (scaled / unit) ++
    '.' :: List.replicate (places - tail.length) '0' ++ tail)

end GrammarComparison.Text
