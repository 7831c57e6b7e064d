/-!
# Fixed places

A finite double is a whole number times a power of two. `fixedPlaces` writes it in decimal with a
fixed number of places, rounding its exact value to nearest and a tie to the even neighbour.
-/

namespace ScenarioSampling.Text

/-- The quotient rounded to nearest, a tie to the even neighbour. -/
def divNearest (num den : Nat) : Nat :=
  let q := num / den
  let twice := 2 * (num % den)
  if twice < den then q else if den < twice then q + 1 else q + q % 2

/-- Writes `digits` with the last `places` of them behind the point. -/
def withPoint (places digits : Nat) : String :=
  let fraction := toString (digits % Nat.pow 10 places)
  let zeros := "".pushn '0' (places - fraction.length)
  s!"{digits / Nat.pow 10 places}.{zeros}{fraction}"

/-- Decimal text of the double with these bits; `places` is at least one. A result of zero has no
sign. -/
def fixedPlacesOfBits (places : Nat) (bits : Nat) : String :=
  let exponent := (bits >>> 52) % 0x800
  let fraction := bits % 0x10000000000000
  let negative := bits.testBit 63
  if exponent = 2047 then
    if fraction ≠ 0 then "NaN" else if negative then "-inf" else "inf"
  else
    let mantissa := if exponent = 0 then fraction else fraction + 0x10000000000000
    let power := if exponent = 0 then 1 else exponent
    let scaled := mantissa * Nat.pow 10 places
    let digits :=
      if 1075 ≤ power then scaled <<< (power - 1075) else divNearest scaled (1 <<< (1075 - power))
    let sign := if negative && digits != 0 then "-" else ""
    sign ++ withPoint places digits

/-- Decimal text of a double; `places` is at least one. -/
def fixedPlaces (places : Nat) (x : Float) : String := fixedPlacesOfBits places x.toBits.toNat

end ScenarioSampling.Text
