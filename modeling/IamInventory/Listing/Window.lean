import IamInventory.Listing.Token
import IamInventory.Service.Catalog

/-!
# Windows — the part of a listing that is wanted

  A window bounds how many of the main items of a listing are shown, over all its pages, and may
  take a listing up with a token, which leaves out the first items of the first page. A bound below
  zero leaves out items from the end of the page that reaches it. The items under further names are
  bounded by none of this, but where the first page starts late they have been shown before.

* **`Window.view`** — a response as it is shown, and how many items have been shown with it.
* **`Window.view_whole`** — the whole listing is shown as it comes.
-/

namespace IamInventory

/-! ## Parts of lists -/

/-- The items from an index on; an index below zero counts from the end. -/
def itemsFrom {α : Type} (i : Int) (xs : List α) : List α :=
  if 0 ≤ i then xs.drop i.toNat else xs.drop (xs.length - i.natAbs)

/-- The items up to an index; an index below zero counts from the end. -/
def itemsUpTo {α : Type} (i : Int) (xs : List α) : List α :=
  if 0 ≤ i then xs.take i.toNat else xs.take (xs.length - i.natAbs)

/-- A list, a text or bytes up to an index. -/
def Value.upTo (i : Int) : Value → Except Fault Value
  | .null => .ok (.list [])
  | .list vs => .ok (.list (itemsUpTo i vs))
  | .text s => .ok (.text (String.ofList (itemsUpTo i s.toList)))
  | .bytes bs => .ok (.bytes (itemsUpTo i bs))
  | _ => .error .mistyped

/-- A value as an index; null is none, and everything is there from the first item on. -/
def Value.index : Value → Except Fault Int
  | .null => .ok 0
  | .bool b => .ok (if b then 1 else 0)
  | .int n => .ok n
  | _ => .error .mistyped

/-- A list or a text from an index on, null in place of all else. -/
def Value.startingAt (v i : Value) : Except Fault Value :=
  match v with
  | .list vs => do .ok (.list (itemsFrom (← i.index) vs))
  | .text s => do .ok (.text (String.ofList (itemsFrom (← i.index) s.toList)))
  | _ => .ok .null

/-- What is left of items that have been shown before: a value of the same kind without any. -/
def Value.emptied : Value → Value
  | .list _ => .list []
  | .text _ => .text ""
  | .int _ => .int 0
  | .real _ => .int 0
  | .bool _ => .int 0
  | _ => .null

/-! ## Main items -/

namespace Action

/-- The main items that a response of a listing holds. -/
def mainItems (a : Action) : Value → Value
  | .object ms => Members.get ms (a.mainItems?.getD "")
  | _ => .null

/-- How many main items a response of a listing holds. -/
def countMain (a : Action) (response : Value) : Except Fault Nat :=
  match a.mainItems response with
  | .null => .ok 0
  | v => do .ok (← v.items).length

/-- A response of a listing with other main items. -/
def withMain (a : Action) (items : Value) : Value → Except Fault Value
  | .object ms => .ok (.object (Members.set ms (a.mainItems?.getD "") items))
  | _ => .error .mistyped

/-- A response of a listing without the items under further names. -/
def withoutFurther (a : Action) : Value → Value
  | .object ms => .object (a.furtherItems.foldl (fun ms name =>
      Members.set ms name (Members.get ms name).emptied) ms)
  | v => v

end Action

/-! ## Windows -/

/-- The part of a listing that is wanted: from where on, if it was left before, and how many of the
    main items at most. -/
structure Window where
  start : Option Token
  bound : Option Int

/-- A response as it is shown, how many items have been shown with it and before it, and whether
    the bound has been reached within it. -/
structure Shown where
  response : Value
  count : Int
  isCut : Bool

namespace Window

/-- The whole listing. -/
def whole : Window := ⟨none, none⟩

/-- The token of the page that was asked for with a marker; of the first page, if there is none. -/
def pageToken (w : Window) : Option Value → Token
  | some marker => .ofMarker marker
  | none => w.start.getD (.ofMarker .null)

/-- A response of the first page from where the window starts. -/
def fromStart (w : Window) (a : Action) (response : Value) : Except Fault Value :=
  match w.start with
  | none => .ok response
  | some t => do
    let items ← (a.mainItems response).startingAt t.shown
    .ok (a.withoutFurther (← a.withMain items response))

/-- **A response as it is shown**, to a call with a marker or to the first one, after some items
    have been shown. Where it is cut, the listing is left with the token of the page. -/
def view (w : Window) (a : Action) (marker : Option Value) (before : Int) (response : Value) :
    Except Fault Shown := do
  let response ← if marker.isNone then w.fromStart a response else .ok response
  let count ← a.countMain response
  let excess := (w.bound.map fun bound => before + count - bound).getD 0
  if 0 < excess then
    let kept := count - excess
    let response ← a.withMain (← (a.mainItems response).upTo kept) response
    let token ← (w.pageToken marker).after kept
    match token.check with
    | .error e => .error e
    | .ok _ => .ok ⟨response, before + count, true⟩
  else .ok ⟨response, before + count, false⟩

/-- Whether as many items as wanted have been shown. -/
def isFull (w : Window) (shown : Shown) : Bool := w.bound = some shown.count

/-- **The whole listing is shown as it comes**, if its items can be counted. -/
theorem view_whole (a : Action) (marker : Option Value) (before : Int) (response : Value) :
    whole.view a marker before response =
      (a.countMain response).map fun n => ⟨response, before + n, false⟩ := by
  cases marker <;> cases h : a.countMain response <;>
    simp [view, whole, fromStart, h, bind, Except.bind, Except.map]

end Window

end IamInventory
