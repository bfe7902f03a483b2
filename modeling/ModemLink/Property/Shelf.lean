import ModemLink.Property.Bag

/-!
# Bags by name

Bags that are kept under names. A bag that was never written is empty.

* `Shelf.bag`: the view of a shelf.
* `Shelf.Write`: the ways in which a bag changes; `Shelf.write` is the effect of one.
-/

namespace ModemLink

/-- Bags under names. -/
structure Shelf where
  bags : List (String × Bag)

namespace Shelf

def empty : Shelf := ⟨[]⟩

/-- The bag under a name. -/
def bag (s : Shelf) (name : String) : Bag := (Entries.find? name s.bags).getD ∅

/-- The shelf with a bag under a name. -/
def set (s : Shelf) (name : String) (b : Bag) : Shelf := ⟨Entries.put name b s.bags⟩

/-- A change of one bag. -/
inductive Write
  | insert (key : String) (value : Property)
  | insertAs (key : String) (t : PropertyType) (value : t.Carrier)
  /-- Copies what another bag has under `key`, if anything, as a value of a type under `newKey`. -/
  | copyAs (source : String) (t : PropertyType) (key newKey : String)
  /-- Begins anew with what another bag holds. -/
  | assign (source : String)
  /-- Begins anew with the given entries. -/
  | ofList (entries : List (String × Property))
  /-- Begins anew with the entries of a dictionary on the bus. -/
  | ofBus (entries : List (String × Bus.Value))

/-- What a change gives. -/
inductive Answer
  /-- The property that was there before. -/
  | previous (p : Option Property)
  /-- Whether there was something to copy. -/
  | copied (r : Except Error Bool)
  | done
  /-- The bag after the change. -/
  | became (b : Bag)

/-- The effect and the answer of a change of the bag under a name. -/
def write (s : Shelf) (name : String) : Write → Shelf × Answer
  | .insert key value =>
    (s.set name ((s.bag name).insert key value), .previous ((s.bag name).find? key))
  | .insertAs key t value =>
    (s.set name ((s.bag name).insertAs t key value), .previous ((s.bag name).find? key))
  | .copyAs source t key newKey =>
    match (s.bag name).copyAs (s.bag source) t key newKey with
    | .ok (b, copied) => (s.set name b, .copied (.ok copied))
    | .error e => (s, .copied (.error e))
  | .assign source => (s.set name (s.bag source), .done)
  | .ofList entries => (s.set name (.ofList entries), .became (.ofList entries))
  | .ofBus entries => (s.set name (.ofBus entries), .became (.ofBus entries))

end Shelf

end ModemLink
