/-! Things under names, at most one under each. -/

namespace Emitter

abbrev Table (α : Type) := List (String × α)

namespace Table

variable {α : Type}

def get? (t : Table α) (name : String) : Option α := t.lookup name

def erase (t : Table α) (name : String) : Table α := t.filter (·.1 != name)

def put (t : Table α) (name : String) (a : α) : Table α := (name, a) :: t.erase name

/-- In the order of the names. -/
def sorted (t : Table α) : List α :=
  (t.mergeSort fun a b => decide (a.1 ≤ b.1)).map (·.2)

theorem get?_erase (t : Table α) (a b : String) :
    (t.erase a).get? b = if b = a then none else t.get? b := by
  induction t with
  | nil => simp [erase, get?]
  | cons x t ih =>
    simp only [erase, get?, List.filter_cons] at *
    grind

theorem get?_put (t : Table α) (a b : String) (x : α) :
    (t.put a x).get? b = if b = a then some x else t.get? b := by
  have := get?_erase t a b
  simp only [put, get?, List.lookup_cons] at *
  grind

end Table

end Emitter
