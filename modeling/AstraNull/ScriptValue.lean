import Mathlib
import AstraNull.ScriptText

/-!
# Conversions and comparisons of the language

The value operations the modelled services rely on: truth, strict equality,
conversion to text and to a number, and the integer predicates. Arrays and objects
have no identity here, so strict equality never holds between two of them; the
sources compare them only where they come from different documents.

A property read of `undefined` or `null` raises an exception unless it is an
optional read. Exceptions are the missing result of `Option`. Conversion of an
object is the default one; a member that replaces it is not modelled.
-/
namespace AstraNull.ScriptValue
open NumberText JsonText ScriptText

/-- The value of a finite number. -/
def rational : Number → ℚ
  | .zero => 0
  | .nonzero neg x => if neg then -x.value else x.value

/-- A number of the language. -/
inductive Numeric where
  | finite (n : Number)
  | infinite (neg : Bool)
  | nan
deriving DecidableEq

namespace Numeric

def isInteger : Numeric → Bool
  | finite n => (rational n).den = 1
  | _ => false

/-- `m < n`; false when either is not a number. -/
def lt : Numeric → Numeric → Bool
  | finite m,finite n => rational m < rational n
  | finite _,infinite neg => !neg
  | infinite neg,finite _ => neg
  | infinite m,infinite n => m && !n
  | _,_ => false

/-- `m === n` on numbers. -/
def same : Numeric → Numeric → Bool
  | nan,_ => false
  | m,n => m = n

def le (m n : Numeric) : Bool := lt m n || same m n

def truthy : Numeric → Bool
  | finite n => n ≠ .zero
  | infinite _ => true
  | nan => false

end Numeric

/-- The number nearest to a nonnegative rational. -/
def ofNonneg (v : ℚ) : Numeric :=
  match Number.ofDecimal false v with
  | some n => .finite n
  | none => .infinite false

/-- A natural number literal. -/
def natNumber (k : ℕ) : Numeric := ofNonneg k

/-- Sign, digits with an optional point, and an optional exponent. -/
def decimalValue (cs : List Char) : Option (Bool × ℚ) := do
  let (neg,cs) := match cs with
    | '-' :: r => (true,r)
    | '+' :: r => (false,r)
    | r => (false,r)
  let w := readDigits cs
  let f := match w.2 with
    | '.' :: r => readDigits r
    | r => ([],r)
  if w.1 = [] ∧ f.1 = [] then none
  else
    let e ← readExponent f.2
    if e.2 = [] then
      some (neg,Nat.ofDigitChars 10 (w.1++f.1) 0*10^(e.1.getD 0-f.1.length))
    else none

/-- Digits of a literal with a radix, at least one. -/
def radixValue (radix : ℕ) (cs : List Char) : Option ℕ :=
  if cs = [] then none
  else cs.foldlM (fun acc c => do
    let d ← hexValue c
    if d < radix then some (acc*radix+d) else none) 0

/-- `Number(text)`. -/
def numberOfString (s : JsString) : Numeric :=
  match chars (trim s) with
  | [] => .finite .zero
  | '0' :: 'x' :: cs => ((radixValue 16 cs).map natNumber).getD .nan
  | '0' :: 'X' :: cs => ((radixValue 16 cs).map natNumber).getD .nan
  | '0' :: 'o' :: cs => ((radixValue 8 cs).map natNumber).getD .nan
  | '0' :: 'O' :: cs => ((radixValue 8 cs).map natNumber).getD .nan
  | '0' :: 'b' :: cs => ((radixValue 2 cs).map natNumber).getD .nan
  | '0' :: 'B' :: cs => ((radixValue 2 cs).map natNumber).getD .nan
  | cs =>
      if cs = "Infinity".toList ∨ cs = "+Infinity".toList then .infinite false
      else if cs = "-Infinity".toList then .infinite true
      else match decimalValue cs with
        | none => .nan
        | some (neg,v) =>
            match Number.ofDecimal neg v with
            | some n => .finite n
            | none => .infinite neg

mutual

/-- `String(value)`. -/
def toStr : JsVal → JsString
  | .undefined => js "undefined"
  | .null => js "null"
  | .bool true => js "true"
  | .bool false => js "false"
  | .num n => n.text.map fun c => UInt16.ofNat c.toNat
  | .str s => s
  | .arr vs => (joinTexts vs).getD []
  | .obj _ => js "[object Object]"

/-- The elements joined by commas; undefined and null print as nothing. -/
def joinTexts : List JsVal → Option JsString
  | [] => none
  | v::vs =>
      let t := match v with
        | .undefined => []
        | .null => []
        | v => toStr v
      match joinTexts vs with
      | none => some t
      | some ts => some (t++44::ts)

end

/-- `Number(value)`. -/
def toNumber : JsVal → Numeric
  | .undefined => .nan
  | .null => .finite .zero
  | .bool b => natNumber b.toNat
  | .num n => .finite n
  | v => numberOfString (toStr v)

/-- `String(number)`. -/
def Numeric.text : Numeric → JsString
  | .finite n => toStr (.num n)
  | .infinite neg => js (if neg then "-Infinity" else "Infinity")
  | .nan => js "NaN"

def truthy : JsVal → Bool
  | .undefined => false
  | .null => false
  | .bool b => b
  | .num n => n ≠ .zero
  | .str s => s ≠ []
  | .arr _ => true
  | .obj _ => true

def nullish : JsVal → Bool
  | .undefined => true
  | .null => true
  | _ => false

/-- `typeof value === 'object'` for a value that is not null. -/
def isObject : JsVal → Bool
  | .arr _ => true
  | .obj _ => true
  | _ => false

/-- `value === literal` for a string literal. -/
def is (v : JsVal) (literal : String) : Bool :=
  match v with
  | .str s => s = js literal
  | _ => false

def isTrue : JsVal → Bool
  | .bool b => b
  | _ => false

def isFalse : JsVal → Bool
  | .bool b => !b
  | _ => false

/-- `v === w`. -/
def strictEq : JsVal → JsVal → Bool
  | .undefined,.undefined => true
  | .null,.null => true
  | .bool a,.bool b => a = b
  | .num m,.num n => m = n
  | .str s,.str t => s = t
  | _,_ => false

/-- Membership in a constant set of strings. -/
def oneOf (v : JsVal) (literals : List String) : Bool := literals.any (is v)

/-- `value === number`. -/
def sameNumber (v : JsVal) (n : Numeric) : Bool :=
  match v with
  | .num m => Numeric.same (.finite m) n
  | _ => false

/-- `Number.isInteger(value)`. -/
def isIntegerValue : JsVal → Bool
  | .num n => (rational n).den = 1
  | _ => false

def maxSafeInteger : ℚ := 2^53-1

/-- `Number.isSafeInteger(value)`. -/
def isSafeInteger : JsVal → Bool
  | .num n => decide ((rational n).den = 1) && decide (|rational n| ≤ maxSafeInteger)
  | _ => false

/-- `value > 0` for a number. -/
def positive : JsVal → Bool
  | .num n => 0 < rational n
  | _ => false

/-- `v ?? w`. -/
def orElse (v w : JsVal) : JsVal := if nullish v then w else v

/-- `v || w`. -/
def orFalsy (v w : JsVal) : JsVal := if truthy v then v else w

/-- Optional read `v?.name`. -/
def field (v : JsVal) (name : String) : JsVal := v.get (js name)

/-- Read `v.name`, an exception on `undefined` and `null`. -/
def read (v : JsVal) (name : String) : Option JsVal := if nullish v then none else some (field v name)

/-- `name in v` for an object. -/
def has (v : JsVal) (name : String) : Bool :=
  match v with
  | .obj kvs => kvs.any fun p => p.1 = js name
  | _ => false

/-- The elements of an array, nothing for any other value. -/
def elements : JsVal → List JsVal
  | .arr vs => vs
  | _ => []

def isArray : JsVal → Bool
  | .arr _ => true
  | _ => false

def slice (s : JsString) (n : ℕ) : JsString := s.take n

/-- `parts.join(separator)`. -/
def join (separator : String) (parts : List JsString) : JsString :=
  (parts.intersperse (js separator)).flatten

/-- Keep the units that satisfy a character class. -/
def keepOnly (s : JsString) (allowed : ℕ → Bool) : JsString := s.filter fun u => allowed u.toNat

def isAlphanumeric (n : ℕ) : Bool :=
  (48 ≤ n && n ≤ 57) || (65 ≤ n && n ≤ 90) || (97 ≤ n && n ≤ 122)

end AstraNull.ScriptValue
