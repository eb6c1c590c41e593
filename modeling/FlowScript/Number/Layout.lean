import FlowScript.Number.Shortest

/-!
The texts of numbers: the plain one, which never uses an exponent, and the one of data files.
-/
namespace FlowScript

namespace Decimal

def digitChars (d : Decimal) : List Char := Nat.toDigits 10 d.digits

def zeros (n : Nat) : List Char := List.replicate n '0'

def positional (d : Decimal) : List Char :=
  let ds := d.digitChars
  if 0 ≤ d.exponent then ds ++ zeros d.exponent.toNat
  else
    let places := (-d.exponent).toNat
    if places < ds.length then ds.take (ds.length - places) ++ '.' :: ds.drop (ds.length - places)
    else '0' :: '.' :: zeros (places - ds.length) ++ ds

def scientific (d : Decimal) : List Char :=
  let ds := d.digitChars
  let power : Int := d.exponent + (ds.length : Int) - 1
  let fraction := if 1 < ds.length then '.' :: ds.drop 1 else []
  let sign := if power < 0 then '-' else '+'
  ds.take 1 ++ fraction ++ 'e' :: sign :: Nat.toDigits 10 power.natAbs

end Decimal

namespace Number

def withSign (negative : Bool) (cs : List Char) : List Char :=
  if negative then '-' :: cs else cs

/-- The plain text of a number. Both zeros are `0`. -/
def display (x : Float) : List Char :=
  if x.isNaN then "NaN".toList
  else if x.isInf then withSign (isNegative x) "Infinity".toList
  else if x == 0.0 then ['0']
  else withSign (isNegative x) ((magnitude x).shortest .upper).positional

def text (x : Float) : String := String.ofList (display x)

def wholeLimit : Float := 9.0e15

def firstPositional : Int := -5
def firstScientific : Int := 16

def dataText (x : Float) : String :=
  if x.isNaN || x.isInf then "null"
  else if x.floor == x && x.abs < wholeLimit then text x
  else
    let d := (magnitude x).shortest .even
    let power : Int := d.exponent + (d.digitChars.length : Int) - 1
    let body :=
      if power < firstPositional || firstScientific ≤ power then d.scientific
      else if 0 ≤ d.exponent then d.positional ++ ['.', '0']
      else d.positional
    String.ofList (withSign (isNegative x) body)

end Number
end FlowScript
