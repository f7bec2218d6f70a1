/-
# How a decimal is written

A decimal of moderate size is written by position, with at least one digit
on each side of the point; any other with one digit before the point, where
more follow, and an exponent with its sign.
-/
import SourceMetrics.Decimal.Shortest

namespace SourceMetrics.Decimal

/-- Where writing by position ends. -/
structure Style where
  /-- The point stands at most this many places before the first digit. -/
  leadingPlaces : Nat
  /-- The point stands at most this many places behind the first digit. -/
  integralPlaces : Nat

/-- The style of reports: by position from 0.00001 and below 10^16. -/
def Style.report : Style := ⟨4, 16⟩

namespace Digits

/-- A number of zeros. -/
def zeros (n : Nat) : String := String.ofList (List.replicate n '0')

/-- An exponent with its sign. -/
def signed (n : Int) : String := if n < 0 then s!"-{n.natAbs}" else s!"+{n.natAbs}"

/-- The text of a positive decimal. -/
def write (style : Style) (d : Digits) : String :=
  let text := toString d.digits
  let point : Int := text.length + d.exponent
  if 0 < point && point ≤ style.integralPlaces then
    if 0 ≤ d.exponent then text ++ zeros d.exponent.toNat ++ ".0"
    else
      String.ofList (text.toList.take point.toNat) ++ "." ++
        String.ofList (text.toList.drop point.toNat)
  else if point ≤ 0 && -(style.leadingPlaces : Int) ≤ point then
    "0." ++ zeros (-point).toNat ++ text
  else
    match text.toList with
    | [digit] => String.ofList [digit] ++ "e" ++ signed (point - 1)
    | first :: rest =>
      String.ofList [first] ++ "." ++ String.ofList rest ++ "e" ++ signed (point - 1)
    | [] => text

end Digits

/-- The text of a float in a report; what is no finite number has none. -/
def writeFloat? (x : Float) : Option String :=
  let bits := x.toBits.toNat
  let sign := if bits / twoTo 63 = 1 then "-" else ""
  let magnitude := bits % twoTo 63
  if 0x7ff0000000000000 ≤ magnitude then none
  else if magnitude = 0 then some (sign ++ "0.0")
  else some (sign ++ (Binary.ofBits magnitude).shortest.write .report)

end SourceMetrics.Decimal
