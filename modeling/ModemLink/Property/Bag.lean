import ModemLink.Error
import ModemLink.Property.Entries

/-!
# Property bags

A record of the properties that were reported: a finite map from keys to properties. A key is absent
or has one property; a typed read tells the two kinds of failure apart.

* `Bag.find?`: the view of a bag; `find?_insert_self`, `find?_insert_of_ne` and `Bag.ext_find?` are
  the laws of it.
* `Bag.get`, `Bag.getOptional?`, `Bag.getD`: typed reads.
* `Bag.copyAs`: a typed copy of one property from another bag.
* `Bag.ofBus`: the properties of a dictionary on the bus, without the entries that have no property
  form.
-/

namespace ModemLink

/-- A finite map from keys to properties, listed in ascending order of the keys. -/
structure Bag where
  entries : List (String × Property)
  ascending : Entries.Ascending entries
deriving DecidableEq

namespace Bag

def empty : Bag := ⟨[], List.Pairwise.nil⟩

instance : EmptyCollection Bag := ⟨empty⟩
instance : Inhabited Bag := ⟨empty⟩

/-- The property under a key, if one was reported. -/
def find? (b : Bag) (key : String) : Option Property := Entries.find? key b.entries

/-- The bag with a property under a key, in place of what was there. -/
def insert (b : Bag) (key : String) (value : Property) : Bag :=
  ⟨Entries.put key value b.entries, Entries.ascending_put b.ascending key value⟩

@[simp] theorem find?_insert_self (b : Bag) (key : String) (value : Property) :
    (b.insert key value).find? key = some value := Entries.find?_put_self key value b.entries

theorem find?_insert_of_ne (b : Bag) {key other : String} (h : other ≠ key) (value : Property) :
    (b.insert key value).find? other = b.find? other := Entries.find?_put_of_ne h value b.entries

@[simp] theorem find?_empty (key : String) : (∅ : Bag).find? key = none := rfl

/-- Bags that agree under every key are equal. -/
theorem ext_find? {a b : Bag} (h : ∀ key, a.find? key = b.find? key) : a = b := by
  cases a with
  | mk l hl =>
    cases b with
    | mk m hm =>
      cases Entries.ext_find? hl hm h
      rfl

def contains (b : Bag) (key : String) : Bool := (b.find? key).isSome

/-- The keys in ascending order. -/
def keys (b : Bag) : List String := b.entries.map Prod.fst

def size (b : Bag) : Nat := b.entries.length

def isEmpty (b : Bag) : Bool := b.entries.isEmpty

/-- The bag that holds the given entries, the later of two with one key. -/
def ofList (entries : List (String × Property)) : Bag :=
  entries.foldl (fun b e => b.insert e.1 e.2) ∅

/-- Equality of bags, with floating point numbers compared as numbers. -/
def sameValues (a b : Bag) : Bool :=
  a.keys == b.keys &&
    (a.entries.zip b.entries).all fun p => p.1.2.sameValue p.2.2

/-- The bag between braces, with its keys in ascending order. -/
def text (b : Bag) : String :=
  "\x7b" ++ ", ".intercalate (b.entries.map fun e => e.1 ++ ": " ++ e.2.text) ++ "\x7d"

/-! ## Typed access -/

/-- The property under a key as a value of type `t`. -/
def get (b : Bag) (t : PropertyType) (key : String) : Except Error t.Carrier :=
  match b.find? key with
  | none => .error (.keyNotFound key)
  | some p =>
    match t.read? p with
    | some v => .ok v
    | none => .error (.typeMismatch key t p.kind)

/-- The property under a key as a value of type `t`, or nothing if the key is absent. -/
def getOptional? (b : Bag) (t : PropertyType) (key : String) : Except Error (Option t.Carrier) :=
  match b.find? key with
  | none => .ok none
  | some p =>
    match t.read? p with
    | some v => .ok (some v)
    | none => .error (.typeMismatch key t p.kind)

/-- The property under a key as a value of type `t`, or `default` if there is none of this type. -/
def getD (b : Bag) (t : PropertyType) (key : String) (default : t.Carrier) : t.Carrier :=
  match b.get t key with
  | .ok v => v
  | .error _ => default

/-- The property that a value of type `t` is held as, under a key. -/
def insertAs (b : Bag) (t : PropertyType) (key : String) (value : t.Carrier) : Bag :=
  b.insert key (t.write value)

/-- The bag `target` with the value of type `t` under `key` in `source` added under `newKey`, if
there is one, and whether there was. -/
def copyAs (target source : Bag) (t : PropertyType) (key newKey : String) :
    Except Error (Bag × Bool) := do
  match ← source.getOptional? t key with
  | some v => return (target.insertAs t newKey v, true)
  | none => return (target, false)

/-- The bag `target` with what `source` holds under `key`, if anything, as a value of type `t`. -/
def copy (target source : Bag) (t : PropertyType) (key : String) : Except Error Bag := do
  return (← target.copyAs source t key key).1

/-! ## Dictionaries on the bus -/

/-- The properties of a dictionary on the bus. Of several entries with one key the last that has a
property form counts. -/
def ofBus (entries : List (String × Bus.Value)) : Bag :=
  ofList (entries.filterMap fun e => (Property.ofBus? e.2).map fun p => (e.1, p))

end Bag

end ModemLink
