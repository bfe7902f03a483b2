import ModemLink.Property.Double

/-!
# Values on the message bus

The values that messages carry, and the signatures of their types.

* `Value.signature`, `Value.bodySignature`: the signatures of values and of message bodies.
* `Value.arguments`: the arguments in a message body.
-/

namespace ModemLink.Bus

/-- A value as a message carries it. An entry of a dictionary is a variant on the bus and stands
here by what it holds. -/
inductive Value
  | boolean (b : Bool)
  | byte (n : UInt8)
  | int16 (n : Int16)
  | uint16 (n : UInt16)
  | int32 (n : Int32)
  | uint32 (n : UInt32)
  | int64 (n : Int64)
  | uint64 (n : UInt64)
  | double (x : Double)
  | string (s : String)
  | path (s : String)
  | signatureText (s : String)
  /-- A file descriptor. -/
  | descriptor
  | variant (v : Value)
  | strings (items : List String)
  | numbers (items : List UInt32)
  | paths (items : List String)
  /-- A dictionary from names to values. -/
  | dictionary (entries : List (String × Value))
  /-- A dictionary from numbers to values. -/
  | numbered (entries : List (UInt32 × Value))
  | dictionaries (items : List (List (String × Value)))
  /-- The interfaces of one object, each with its properties. -/
  | interfaces (items : List (String × List (String × Value)))
  /-- The objects below a manager, each with its interfaces. -/
  | objects (items : List (String × List (String × List (String × Value))))
  | record (fields : List Value)
  /-- An array or a dictionary of any other type, by its signature. Nothing reads what it holds. -/
  | container (type : String)
deriving Inhabited

namespace Value

mutual

/-- The signature of the type of a value. -/
def signature : Value → String
  | boolean _ => "b"
  | byte _ => "y"
  | int16 _ => "n"
  | uint16 _ => "q"
  | int32 _ => "i"
  | uint32 _ => "u"
  | int64 _ => "x"
  | uint64 _ => "t"
  | double _ => "d"
  | string _ => "s"
  | path _ => "o"
  | signatureText _ => "g"
  | descriptor => "h"
  | variant _ => "v"
  | strings _ => "as"
  | numbers _ => "au"
  | paths _ => "ao"
  | dictionary _ => "a\x7bsv\x7d"
  | numbered _ => "a\x7buv\x7d"
  | dictionaries _ => "aa\x7bsv\x7d"
  | interfaces _ => "a\x7bsa\x7bsv\x7d\x7d"
  | objects _ => "a\x7boa\x7bsa\x7bsv\x7d\x7d\x7d"
  | record fields => "(" ++ signatures fields ++ ")"
  | container type => type

/-- The signatures of values, one after the other. -/
def signatures : List Value → String
  | [] => ""
  | v :: rest => v.signature ++ signatures rest

end

/-- The signature of a message body. Several values have the signature of a record of them. -/
def bodySignature : List Value → String
  | [] => ""
  | [v] => v.signature
  | values => (record values).signature

/-- The arguments in a message body. As the signatures agree, a body that is a record of several
fields has these fields as arguments. -/
def arguments : List Value → List Value
  | [record (a :: b :: rest)] => a :: b :: rest
  | body => body

end Value

end ModemLink.Bus
