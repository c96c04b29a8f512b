import Reconciler.Resource.Set

/-!
# Sets that share references

A set made from another one has the very references of that set, so a body that is
refreshed in one of them is refreshed in all. A shelf numbers all references, and its named
sets hold numbers; what they mean is given by `Shelf.refs`.
-/

namespace Reconciler

/-- References by number, and named sets of numbers. -/
structure Shelf where
  all : List Ref := []
  sets : List (String × List Nat) := []
  deriving Inhabited

namespace Shelf

/-- The numbers in a set; none if there is no such set. -/
def numbers (shelf : Shelf) (name : String) : List Nat := (shelf.sets.lookup name).getD []

/-- The reference of a number. -/
def ref (shelf : Shelf) (number : Nat) : Ref := shelf.all.getD number default

/-- The references in a set. -/
def refs (shelf : Shelf) (name : String) : RefSet := (shelf.numbers name).map shelf.ref

/-- Give a name to a set, in place of any set that had it. -/
def define (shelf : Shelf) (name : String) (numbers : List Nat) : Shelf :=
  { shelf with sets := (name, numbers) :: shelf.sets.filter fun entry => entry.1 != name }

/-- Add new references to the end of a set. -/
def add (shelf : Shelf) (name : String) (refs : List Ref) : Shelf :=
  let start := shelf.all.length
  let numbers := shelf.numbers name ++ (List.range refs.length).map (start + ·)
  { shelf with all := shelf.all ++ refs }.define name numbers

/-- Define a set by the references of another one that pass a test. -/
def select (shelf : Shelf) (name into : String) (test : Ref → Bool) : Shelf :=
  shelf.define into ((shelf.numbers name).filter fun number => test (shelf.ref number))

/-- Define a set by what one set has and another has not. -/
def difference (shelf : Shelf) (name other into : String) : Shelf :=
  shelf.select name into fun ref => !RefSet.contains (shelf.refs other) ref

/-- Define a set by what two sets have in common. -/
def intersect (shelf : Shelf) (name other into : String) : Shelf :=
  shelf.select name into fun ref => RefSet.contains (shelf.refs other) ref

/-- Refresh the body of the reference at a position of a set. -/
def refresh (shelf : Shelf) (name : String) (index : Int) (body : Value) : Except Fault Shelf :=
  match (RefSet.position? (shelf.refs name) index).bind fun place =>
      (shelf.numbers name)[place]? with
  | some number => .ok { shelf with all := shelf.all.modify number fun ref => ref.refresh body }
  | none => .error .outOfRange

/-- The reference at a position of a set. -/
def at? (shelf : Shelf) (name : String) (index : Int) : Except Fault Ref :=
  match RefSet.at? (shelf.refs name) index with
  | some ref => .ok ref
  | none => .error .outOfRange

end Shelf

/-- The references up to and including the first one of a given name, and whether there is
one of that name. A visit that ends there has seen just these. -/
def RefSet.visitedUntil (name : Value) : RefSet → List Ref × Option Ref
  | [] => ([], none)
  | ref :: rest =>
    if ref.name.equal false name then ([ref], some ref)
    else
      let (seen, last) := visitedUntil name rest
      (ref :: seen, last)

end Reconciler
