import ModemLink.Bus.Fault
import ModemLink.Bus.Value

/-!
# Declared types

The types that interfaces declare for their properties and for the bodies of their replies. A
declared type accepts exactly its own values: a variant around a value is of another type, and so is
an integer of another width.
-/

namespace ModemLink.Bus

/-- The declared type of a value: its signature, and what the values of the type hold. -/
structure ValueType (α : Type) where
  signature : String
  read? : Value → Option α

namespace ValueType

def boolean : ValueType Bool where
  signature := "b"
  read?
    | .boolean b => some b
    | _ => none

def int32 : ValueType Int32 where
  signature := "i"
  read?
    | .int32 n => some n
    | _ => none

def uint32 : ValueType UInt32 where
  signature := "u"
  read?
    | .uint32 n => some n
    | _ => none

def uint64 : ValueType UInt64 where
  signature := "t"
  read?
    | .uint64 n => some n
    | _ => none

def string : ValueType String where
  signature := "s"
  read?
    | .string s => some s
    | _ => none

def path : ValueType String where
  signature := "o"
  read?
    | .path s => some s
    | _ => none

def strings : ValueType (List String) where
  signature := "as"
  read?
    | .strings items => some items
    | _ => none

def paths : ValueType (List String) where
  signature := "ao"
  read?
    | .paths items => some items
    | _ => none

def dictionary : ValueType (List (String × Value)) where
  signature := "a\x7bsv\x7d"
  read?
    | .dictionary entries => some entries
    | _ => none

def numbered : ValueType (List (UInt32 × Value)) where
  signature := "a\x7buv\x7d"
  read?
    | .numbered entries => some entries
    | _ => none

def dictionaries : ValueType (List (List (String × Value))) where
  signature := "aa\x7bsv\x7d"
  read?
    | .dictionaries items => some items
    | _ => none

def objects : ValueType (List (String × List (String × List (String × Value)))) where
  signature := "a\x7boa\x7bsa\x7bsv\x7d\x7d\x7d"
  read?
    | .objects items => some items
    | _ => none

end ValueType

/-- The declared type of a message body: its signature, and what the bodies of the type hold. -/
structure BodyType (α : Type) where
  signature : String
  read? : List Value → Option α

namespace BodyType

variable {α : Type}

/-- The body without arguments. -/
def nothing : BodyType Unit where
  signature := ""
  read?
    | [] => some ()
    | _ => none

/-- The body with one argument of a type. -/
def single (t : ValueType α) : BodyType α where
  signature := t.signature
  read?
    | [v] => t.read? v
    | _ => none

/-- What a body holds, or the fault that it is not of the declared type. -/
def read (t : BodyType α) (body : List Value) : Except Fault α :=
  match t.read? body with
  | some a => .ok a
  | none => .error (.mistyped (Value.bodySignature body) t.signature)

end BodyType

end ModemLink.Bus
