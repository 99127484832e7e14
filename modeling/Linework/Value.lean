import Linework.Text.Blank
import Linework.Decimal.Reader
import Linework.Decimal.Style
import Linework.Decimal.Remainder

/-!
# Script values

The values that a script computes with, and the conversions between them: to a number, to a text
and to a truth value. Addition joins texts, `==` converts before it compares, and the order
relations are partial because a number may be none.
-/

namespace Linework

/-- Something made by the host. Scripts see its text; two objects are the same only if their `id`
agrees. -/
structure HostObject where
  id : Nat
  text : String

/-- A script value. -/
inductive Value where
  | undefined
  | null
  | bool (b : Bool)
  | number (x : Float)
  | text (s : String)
  | object (o : HostObject)

instance : Inhabited Value := ⟨.undefined⟩

/-- Numbers in texts: always positional, integral ones without a point. -/
def displayStyle : Decimal.Style where
  positional := fun _ => true
  keepsPoint := false
  infinityWord := "Infinity"

/-- The text of a number in script output. -/
def displayNumber (x : Float) : String := displayStyle.write x

namespace Value

/-- The text of a value. -/
def display : Value → String
  | undefined => "undefined"
  | null => "null"
  | bool b => if b then "true" else "false"
  | number x => displayNumber x
  | text s => s
  | object o => o.text

/-- Only `undefined`, `null` and `false` count as false. -/
def isTruthy : Value → Bool
  | undefined | null | bool false => false
  | _ => true

/-- The number that a text stands for: blank is zero, and what cannot be read is not a number. -/
def textNumber (s : String) : Float :=
  match Text.trim s.toList with
  | [] => 0
  | cs => (Decimal.read? cs).getD Decimal.nan

/-- The number that a value stands for. -/
def toNumber : Value → Float
  | undefined | object _ => Decimal.nan
  | null => 0
  | bool b => if b then 1 else 0
  | number x => x
  | text s => textNumber s

/-- A numeric operation on two values. -/
def arith (f : Float → Float → Float) (a b : Value) : Value :=
  number (f a.toNumber b.toNumber)

/-- Joins texts as soon as one side is a text, and adds numbers otherwise. -/
def plus : Value → Value → Value
  | text s, b => text (s ++ b.display)
  | a, text t => text (a.display ++ t)
  | a, b => arith (· + ·) a b

/-- Difference of numbers. -/
def minus : Value → Value → Value := arith (· - ·)

/-- Product of numbers. -/
def times : Value → Value → Value := arith (· * ·)

/-- Quotient of numbers. -/
def dividedBy : Value → Value → Value := arith (· / ·)

/-- Power of numbers. -/
def power : Value → Value → Value := arith Float.pow

/-- Remainder of numbers. -/
def modulo : Value → Value → Value := arith Decimal.remainder

/-- Whether two values are of one kind and the same. An object is the same only as itself. -/
def same : Value → Value → Bool
  | undefined, undefined => true
  | null, null => true
  | bool a, bool b => a == b
  | number x, number y => x == y
  | text s, text t => s == t
  | object o, object p => o.id == p.id
  | _, _ => false

/-- The equality of scripts. `null` and `undefined` equal only each other, texts compare by their
characters, objects by identity and all else by number. -/
def alike : Value → Value → Bool
  | undefined, undefined | undefined, null | null, undefined | null, null => true
  | undefined, _ | null, _ | _, undefined | _, null => false
  | text s, text t => s == t
  | object o, object p => o.id == p.id
  | object _, _ | _, object _ => false
  | a, b => a.toNumber == b.toNumber

end Value

/-- The order of two numbers, none if one of them is not a number. -/
def compareNumbers? (x y : Float) : Option Ordering :=
  if x < y then some .lt
  else if x == y then some .eq
  else if y < x then some .gt
  else none

/-- The order of two texts by code points. -/
def compareTexts (s t : String) : Ordering :=
  if s < t then .lt else if s = t then .eq else .gt

/-- The order of two values: texts by code points, all else by number. -/
def Value.compare? : Value → Value → Option Ordering
  | .text s, .text t => some (compareTexts s t)
  | a, b => compareNumbers? a.toNumber b.toNumber

end Linework
