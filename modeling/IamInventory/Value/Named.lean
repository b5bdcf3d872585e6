import IamInventory.Value.Order

/-!
# Values as names — things under names, in order

  A list or an object is no name; every other value is one. A name is found by what it denotes, so
  numbers of all kinds that are equal, the truth values among them, are one name. What is put under
  a name that is there already takes the place of what stands there; the name keeps its spelling.

* **`Named.find?`** — what stands under a name.
* **`Named.put`** — one more thing under a name.
-/

namespace IamInventory

/-- Whether a value can be a name. -/
def Value.isName : Value → Bool
  | .list _ => false
  | .object _ => false
  | _ => true

/-- Things under names, in the order in which the names came. -/
abbrev Named (α : Type) := List (Value × α)

namespace Named

variable {α : Type}

/-- **What stands under a name.** -/
def find? : Named α → Value → Option α
  | [], _ => none
  | e :: rest, name => if e.1.same name then some e.2 else Named.find? rest name

/-- **The things with one put under a name**: in place of the one there, else at the end. -/
def put : Named α → Value → α → Named α
  | [], name, a => [(name, a)]
  | e :: rest, name, a =>
    if e.1.same name then (e.1, a) :: rest else e :: Named.put rest name a

/-- The things that result from putting in pairs one after another. -/
def ofPairs (ps : List (Value × α)) : Named α := ps.foldl (fun es p => es.put p.1 p.2) []

/-- The names, in order. -/
def names (entries : Named α) : List Value := entries.map Prod.fst

theorem find?_append (entries more : Named α) (name : Value) :
    Named.find? (entries ++ more) name = (entries.find? name).or (more.find? name) := by
  induction entries with
  | nil => rfl
  | cons e rest ih => by_cases he : e.1.same name <;> simp [find?, he, ih]

theorem isSome_find? (entries : Named α) (name : Value) :
    (entries.find? name).isSome = entries.names.any (·.same name) := by
  induction entries with
  | nil => rfl
  | cons e rest ih =>
    rw [names] at ih ⊢
    by_cases he : e.1.same name <;> simp [find?, he, ih]

/-- What is put under a name that is not there comes last. -/
theorem put_of_find?_eq_none {entries : Named α} {name : Value} (h : entries.find? name = none)
    (a : α) : entries.put name a = entries ++ [(name, a)] := by
  induction entries with
  | nil => rfl
  | cons e rest ih => by_cases he : e.1.same name <;> simp_all [find?, put]

end Named

theorem Value.same_text (s t : String) : (Value.text s).same (.text t) = (s == t) := by
  simp only [Value.same]

end IamInventory
