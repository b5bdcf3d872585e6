import IamInventory.Listing.Window

/-!
# Paging — how a listing is to be asked for

  Options say how many items a page is to have, how many items are wanted in all, and with which
  token to take up a listing that was left before. They come as one of the arguments of a listing,
  and no call has them.

* **`Paging.place`** — the arguments with one placed among them.
* **`Paging.window`** — the window and the arguments of options.
-/

namespace IamInventory.Paging

/-- **The arguments with one placed among them**: null, or the text for no argument, takes it
    away. -/
def place (arguments : Members) (name : String) (v : Value) : Members :=
  if v.isNull || v.same (.text Token.noArgument) then arguments.erase name
  else arguments.set name v

/-- The name of the argument that holds the options of a listing. -/
def optionsName : String := "PaginationConfig"

/-- The integer of an option, if it is given. -/
def integerOf (options : Members) (name : String) : Except Fault (Option Int) :=
  let v := options.get name
  if v.isNull then .ok none else v.toInteger.map some

/-- **The window and the arguments** of options and of arguments without them. -/
def window (options : Value) (arguments : Members) : Except Fault (Window × Members) := do
  let options ← options.members
  let bound ← integerOf options "MaxItems"
  let size ← integerOf options "PageSize"
  let token := options.get "StartingToken"
  let start ← if token.isNull then .ok none else (Token.ofValue token).map some
  let arguments := start.elim arguments fun t =>
    t.arguments.foldl (fun arguments m => place arguments m.1 m.2) arguments
  let arguments := size.elim arguments fun n => arguments.set "MaxItems" (.int n)
  .ok (⟨start, bound⟩, arguments)

end IamInventory.Paging
