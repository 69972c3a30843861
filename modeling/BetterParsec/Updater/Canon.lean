import BetterParsec.Library.Delimited

set_option autoImplicit false
set_option linter.all false

/-!
# Canonical JSON

`canonicalize` of `tools/updater/src/canon.rs` on the values of `serde_json`. A text
is the list of its characters, as they are pushed. A map gives its entries in an
order of its own; its keys are distinct.
-/

namespace BetterParsec

-- What `serde_json` keeps of a number; of a float only its text is ever used.
inductive Number where
  | posInt (value : UInt64)
  | negInt (value : Int) (range : -2 ^ 63 ≤ value ∧ value < 0)
  | float (text : String)
  deriving DecidableEq

def Number.asU64 : Number → Option UInt64
  | posInt value => some value
  | negInt _ _ | float _ => none

def Number.asI64 : Number → Option Int
  | posInt value => if value.toNat < 2 ^ 63 then some value.toNat else none
  | negInt value _ => some value
  | float _ => none

inductive Value where
  | null
  | bool (value : Bool)
  | number (number : Number)
  | string (text : String)
  | array (items : List Value)
  | object (entries : List (String × Value))

inductive CanonError where
  | serialize (message : String)
  | nonIntegerNumber (number : String)
  deriving DecidableEq

def decimal (value : Nat) : List Char := Nat.toDigits 10 value

def signedDecimal (value : Int) : List Char :=
  if value < 0 then '-' :: decimal value.natAbs else decimal value.natAbs

def Number.text : Number → String
  | posInt value => String.ofList (decimal value.toNat)
  | negInt value _ => String.ofList (signedDecimal value)
  | float text => text

-- `{:04x}`
def hexFour (value : Nat) : List Char := (Nat.toDigits 16 value).leftpad 4 '0'

def escape (c : Char) : List Char :=
  if c = '"' then ['\\', '"']
  else if c = '\\' then ['\\', '\\']
  else if c = '\x08' then ['\\', 'b']
  else if c = '\x0c' then ['\\', 'f']
  else if c = '\n' then ['\\', 'n']
  else if c = '\r' then ['\\', 'r']
  else if c = '\t' then ['\\', 't']
  else if c.toNat < 0x20 then '\\' :: 'u' :: hexFour c.toNat
  else [c]

def writeCanonicalString (text : String) : List Char :=
  '"' :: text.toList.flatMap escape ++ ['"']

-- The loops push a comma before every element but the first.
def commaSeparated : List (List Char) → List Char
  | [] => []
  | first :: rest => first ++ rest.flatMap (fun text => ',' :: text)

def writeNumber (number : Number) : Except CanonError (List Char) :=
  match number.asU64 with
  | some value => .ok (decimal value.toNat)
  | none =>
      match number.asI64 with
      | some value => .ok (signedDecimal value)
      | none => .error (.nonIntegerNumber number.text)

-- `str` compares by bytes, which is the order of the characters.
def ByKey {V : Type} (left right : String × V) : Prop := left.1 ≤ right.1

instance decidableByKey {V : Type} : DecidableRel (ByKey (V := V)) :=
  fun left right => inferInstanceAs (Decidable (left.1 ≤ right.1))

-- The members in the order of their keys; the first error ends the loop.
def collectMembers : List (String × Except CanonError (List Char)) →
    Except CanonError (List (List Char))
  | [] => .ok []
  | (key, written) :: rest => do
      let text ← written
      let texts ← collectMembers rest
      return (writeCanonicalString key ++ ':' :: text) :: texts

mutual

def writeCanonical : Value → Except CanonError (List Char)
  | .null => .ok ['n', 'u', 'l', 'l']
  | .bool value => .ok (if value then ['t', 'r', 'u', 'e'] else ['f', 'a', 'l', 's', 'e'])
  | .number number => writeNumber number
  | .string text => .ok (writeCanonicalString text)
  | .array items => do
      let texts ← writeItems items
      return '[' :: commaSeparated texts ++ [']']
  | .object entries => do
      let texts ← collectMembers ((writeMembers entries).insertionSort ByKey)
      return '\x7b' :: commaSeparated texts ++ ['\x7d']

def writeItems : List Value → Except CanonError (List (List Char))
  | [] => .ok []
  | item :: rest => do
      let text ← writeCanonical item
      let texts ← writeItems rest
      return text :: texts

def writeMembers : List (String × Value) → List (String × Except CanonError (List Char))
  | [] => []
  | (key, value) :: rest => (key, writeCanonical value) :: writeMembers rest

end

def canonicalize (value : Value) : Except CanonError String :=
  (writeCanonical value).map String.ofList

end BetterParsec
