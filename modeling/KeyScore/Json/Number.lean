import KeyScore.Number.Shortest

/-!
# Numbers in JSON

A float is written with its shortest decimal. From 10^-5 up to below 10^16 it is written in
full, with at least one digit behind the point; outside that range in scientific form, the
exponent with its sign. Infinities and NaN have no number and are written `null`.
-/

namespace KeyScore.Json

def zeros (n : Nat) : String := String.ofList (List.replicate n '0')

/-- Digits with a point behind the first `n` of them. -/
def pointAfter (n : Nat) (digits : List Char) : String :=
  String.ofList (digits.take n) ++ "." ++ String.ofList (digits.drop n)

/-- A positive decimal as JSON text. -/
def decimalText (d : Number.Decimal) : String :=
  let digits := Nat.toDigits 10 d.digits
  let count := digits.length
  let magnitude := d.exponent + count - 1
  if -5 ≤ magnitude ∧ magnitude < 0 then
    "0." ++ zeros (-magnitude - 1).toNat ++ String.ofList digits
  else if 0 ≤ magnitude ∧ magnitude < 16 then
    let whole := magnitude.toNat + 1
    if count ≤ whole then String.ofList digits ++ zeros (whole - count) ++ ".0"
    else pointAfter whole digits
  else
    let mantissa := if count = 1 then String.ofList digits else pointAfter 1 digits
    mantissa ++ (if magnitude < 0 then "e-" else "e+") ++ toString magnitude.natAbs

/-- A float as JSON text. -/
def floatText (x : Float) : String :=
  match x.toModel.unpack with
  | .zero .positive => "0.0"
  | .zero .negative => "-0.0"
  | .finite .positive m e _ => decimalText (Number.shortestDecimal m e)
  | .finite .negative m e _ => "-" ++ decimalText (Number.shortestDecimal m e)
  | _ => "null"

end KeyScore.Json
