import IamInventory.Listing.Paging
import IamInventory.Session

/-!
# Listings — items that come in pages

  A page says whether there are more and with which marker to ask for them. Pages are asked for
  one at a time, each only after everything about the items of the one before it is done; whoever
  has enough items stops the listing, and no further page is asked for. The items need not be the
  main ones of the listing, but these have to be there in a form that can be counted.

* **`Listing.visit`** — the items one by one, as long as they are wanted.
* **`Listing.gather`** — what is made of all items.
* **`Listing.take`** — the first items.
-/

namespace IamInventory

/-- What is listed: by which action, under which name the items come, with which arguments, for
    which entity, and which part of it is wanted. -/
structure Listing where
  action : Action
  key : Value
  arguments : Members
  identifier : Value
  window : Window

/-- Whether more items are wanted. -/
inductive Demand where
  | more
  | enough
deriving DecidableEq, Repr

/-- The next page: its number, the arguments to ask for it with, the marker among them that came
    with the page before, and how many main items have been shown. -/
structure Page where
  number : Nat
  arguments : Members
  marker : Option Value
  shown : Int

namespace Listing

variable {σ α : Type}

/-- The whole listing of an action whose items come under a name. -/
def ofAction (action key : String) (arguments : Members) (identifier : Value) : Listing :=
  ⟨⟨action⟩, .text key, arguments, identifier, .whole⟩

/-- The items one by one, as long as they are wanted. -/
def visitItems (body : Value → Run σ Demand) : List Value → Run σ Demand
  | [] => pure .more
  | v :: vs => do
    match ← body v with
    | .more => visitItems body vs
    | .enough => pure .enough

/-- The items that a response holds; none if it does not name any. -/
def itemsOf (l : Listing) (response : Value) : Except Fault (List Value) := do
  (← response.memberUnder l.key (.list [])).items

/-- The marker of the next page, if a response says that there is one. -/
def nextMarker (response : Value) : Except Fault (Option Value) := do
  let truncated ← response.memberOr "IsTruncated" .null
  let marker ← response.memberOr "Marker" .null
  .ok (if truncated.truthy && marker.truthy then some marker else none)

/-- The failure of a page whose marker is the one of the page before it. -/
def repeated (l : Listing) (marker : Value) : Failure :=
  Trouble.failure
    ⟨"Error during pagination: The same next token was received twice: " ++
      (Value.object [("Marker", marker)]).quoted, .text ""⟩
    l.action l.identifier

/-- What comes after a page that has been shown and visited, if it is another page: none after the
    last one or where as many items as wanted have been shown, which leaves the listing. -/
def follow (l : Listing) (page : Page) (shown : Shown) : Except Fault (Option Page) :=
  if shown.isCut then .ok none
  else do
    match ← nextMarker shown.response with
    | none => .ok none
    | some marker =>
      if l.window.isFull shown then do
        (Token.ofMarker marker).check
        .ok none
      else if page.marker.any marker.same then .error (.failure (l.repeated marker))
      else
        let arguments := Paging.place page.arguments Token.markerName marker
        .ok (some ⟨page.number + 1, arguments, some marker, shown.count⟩)

/-- One page: asks for it, visits its items, and finds the next one. -/
def visitPage (l : Listing) (body : Value → Run σ Demand) (page : Page) :
    Run σ (Page ⊕ Demand) := do
  let response ← call l.action page.arguments l.identifier
  let shown ← Run.ofFault (l.window.view l.action page.marker page.shown response)
  let items ← Run.ofFault (l.itemsOf shown.response)
  Run.note .debug .listing
    (l.action.name ++ s!" page {page.number} returned {items.length} item(s)")
  match ← visitItems body items with
  | .enough => pure (.inr .enough)
  | .more =>
    match ← Run.ofFault (l.follow page shown) with
    | none => pure (.inr .more)
    | some next => pure (.inl next)

/-- **The items one by one, as long as they are wanted.** -/
def visit (l : Listing) (body : Value → Run σ Demand) : Run σ Demand := do
  if ← Run.isPaged l.action then
    Run.loop (l.visitPage body) ⟨1, l.arguments, none, 0⟩
  else
    let response ← call l.action l.arguments l.identifier
    visitItems body (← Run.ofFault (l.itemsOf response))

/-- What is made of all items, in order. -/
def gather (l : Listing) (make : Value → Run (List α) α) : Run σ (List α) := do
  let (result, made) ← Run.attempt [] (l.visit fun v => do
    let a ← make v
    Run.redraft (· ++ [a])
    pure .more)
  match result with
  | .ok _ => pure made
  | .error e => Run.fault e

/-- The first items, as many as are given, or all; the draft holds those that have come. -/
def take (l : Listing) (count : Option Nat) : Run (List Value) Demand :=
  if count = some 0 then pure .enough
  else l.visit fun v => do
    Run.redraft (· ++ [v])
    pure (if count = some (← Run.draft).length then .enough else .more)

end Listing

end IamInventory
