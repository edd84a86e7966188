/-
The values on the stack of the script machine.

`describe` shows a value with its kind, for messages. `Value.ofCode` builds the value whose record does
not hold it as it is.
-/
import Storyboard.Number.Shortest
import Storyboard.Text.Quoted

namespace Storyboard

/-- What the script machine pushes and consumes. -/
inductive Value where
  | int32 (v : Int)
  | float32 (x : Number.Single)
  | bool (b : Bool)
  | null
  | uint16 (n : Nat)
  | text (t : Text)
deriving DecidableEq

namespace Value

/-- The kinds of values. -/
inductive Kind where
  | int32
  | float32
  | bool
  | null
  | uint16
  | text
deriving DecidableEq, Repr

def Kind.label : Kind → String
  | .int32 => "Int32"
  | .float32 => "Float32"
  | .bool => "Bool"
  | .null => "Null"
  | .uint16 => "UInt16"
  | .text => "String"

def kind : Value → Kind
  | int32 _ => .int32
  | float32 _ => .float32
  | bool _ => .bool
  | null => .null
  | uint16 _ => .uint16
  | text _ => .text

/-- A code is pushed modulo 2^16. -/
def ofCode (v : Int) : Value := uint16 (v % 0x10000).toNat

def int32? : Value → Option Int
  | int32 v => some v
  | _ => none

def uint16? : Value → Option Nat
  | uint16 n => some n
  | _ => none

/-- What a value holds, without its kind. -/
def content : Value → Text
  | int32 v => Number.integer v
  | float32 x => Number.shortestText x.widen
  | bool b => if b then ['T', 'r', 'u', 'e'] else ['F', 'a', 'l', 's', 'e']
  | null => ['n', 'u', 'l', 'l']
  | uint16 n => Number.decimal n
  | text t => Text.quoted t

/-- A value with its kind; null shows as one word. -/
def describe (v : Value) : String :=
  match v with
  | null => String.ofList v.content
  | _ => v.kind.label ++ "(" ++ String.ofList v.content ++ ")"

end Value
end Storyboard
