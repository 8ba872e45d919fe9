import Std.Data.ExtTreeMap

namespace TableFlow

/-- A text, or the texts that an accumulator has collected. -/
inductive Value
  | text (s : String)
  | list (items : List String)
  deriving DecidableEq, Repr

namespace Value

def items : Value → List String
  | .text s => [s]
  | .list items => items

def render : Value → String
  | .text s => s
  | .list items => ",".intercalate items

end Value

@[ext]
structure Scope where
  bindings : Std.ExtTreeMap String Value

namespace Scope

def empty : Scope := ⟨∅⟩

def get? (s : Scope) (name : String) : Option Value := s.bindings[name]?

def set (s : Scope) (name : String) (value : Value) : Scope := ⟨s.bindings.insert name value⟩

def erase (s : Scope) (name : String) : Scope := ⟨s.bindings.erase name⟩

def toList (s : Scope) : List (String × Value) := s.bindings.toList

def size (s : Scope) : Nat := s.bindings.size

def ofPairs (pairs : List (String × Value)) : Scope := pairs.foldl (fun s p => s.set p.1 p.2) empty

def child (s : Scope) (accumulator : String) : Scope := s.erase accumulator

def collected (s : Scope) (accumulator : String) : List String :=
  ((s.get? accumulator).map Value.items).getD []

/-- The end of an iteration: if it has bound the accumulator, its items come after those held
here. -/
def absorb (s inner : Scope) (accumulator : String) : Scope :=
  match inner.get? accumulator with
  | none => s
  | some value => s.set accumulator (.list (s.collected accumulator ++ value.items))

theorem ext_get? {s t : Scope} (h : ∀ name, s.get? name = t.get? name) : s = t :=
  Scope.ext (Std.ExtTreeMap.ext_getElem? h)

@[simp] theorem get?_set (s : Scope) (name other : String) (value : Value) :
    (s.set name value).get? other = if other = name then some value else s.get? other := by
  simp only [get?, set, Std.ExtTreeMap.getElem?_insert, Std.LawfulEqCmp.compare_eq_iff_eq]
  grind

@[simp] theorem get?_erase (s : Scope) (name other : String) :
    (s.erase name).get? other = if other = name then none else s.get? other := by
  simp only [get?, erase, Std.ExtTreeMap.getElem?_erase, Std.LawfulEqCmp.compare_eq_iff_eq]
  grind

end Scope
end TableFlow
