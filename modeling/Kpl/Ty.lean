namespace Kpl

inductive Ty where
  | int
  | char
  | array (size : UInt32) (element : Ty)
deriving DecidableEq, Repr

namespace Ty

def same : Ty → Ty → Bool
  | int, int => true
  | char, char => true
  | array m a, array n b => m = n && a.same b
  | _, _ => false

def duplicate : Ty → Ty
  | int => int
  | char => char
  | array size element => array size element.duplicate

def isBasic : Ty → Bool
  | int | char => true
  | array .. => false

def element? : Ty → Option Ty
  | array _ element => some element
  | _ => none

def text : Ty → String
  | int => "integer"
  | char => "char"
  | array size element => "array[" ++ toString size.toNat ++ "] of " ++ element.text

end Ty

inductive Constant where
  | int (value : Int32)
  | char (value : Char)
deriving DecidableEq, Repr

namespace Constant

def ty : Constant → Ty
  | int _ => .int
  | char _ => .char

/-- Unary minus. Characters have none, and neither has the least integer. -/
def negate? : Constant → Option Constant
  | int value => if value = Int32.minValue then none else some (int (-value))
  | char _ => none

def text : Constant → String
  | int value => toString value.toInt
  | char value => "'" ++ String.singleton value ++ "'"

end Constant

end Kpl
