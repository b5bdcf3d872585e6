import IamInventory.Proofs.Calling

/-!
# Listings — what going through a listing does, page by page

  A listing is gone through lazily: the next page is asked for only after all that there is to do
  about the items of the page before it has been done. So its effects are those of whole pages, one
  after another, each page being its call and then the effects of its items in order. Where the
  listing ends early, it ends within one more page.

  What is done about one item is told by a *story*, of any kind that fits the work; a listing is
  told by the stories of its items.

* **`Telling`** — how stories tell of work on a draft.
* **`Listing.Pages`** — pages that follow each other, up to the last one or to one still to come.
* **`Listing.Broken`** — the page within which a listing ends early.
* **`Listing.visit_does`** — what going through a listing does is pages, and maybe a broken one.
* **`Listing.gather_does`** — the same of a listing of which something is made.
* **`Listing.Gone.isLazy`** — before the call for a page there is nothing but whole pages.
-/

namespace IamInventory

variable {σ α β : Type}

/-- A page that has been gone through: the arguments that it was asked for with, the response, and
    the stories of its items. -/
structure PageRecord (α : Type) where
  arguments : Members
  response : Value
  stories : List α

/-- How stories tell of work on a draft: each of them knows its item, the effects of the work, and
    what the work makes of the draft. -/
structure Telling (σ α : Type) where
  item : α → Value
  effects : α → List Effect
  put : α → σ → σ

namespace Telling

/-- What the work of stories makes of a draft. -/
def tell (t : Telling σ α) (stories : List α) (d : σ) : σ :=
  stories.foldl (fun d a => t.put a d) d

/-- The effects of a page: its call, and then those of its items. -/
def pageEffects (t : Telling σ α) (l : Listing) (p : PageRecord α) : List Effect :=
  .asked l.action p.arguments (.response p.response) :: p.stories.flatMap t.effects

/-- Whether stories tell of all that can be done about an item after which more are wanted. -/
def Covers (t : Telling σ α) (body : Value → Run σ Demand) : Prop :=
  ∀ {v : Value} {d d' : σ} {l : List Effect}, (body v).Does d l (.ok .more) d' →
    ∃ a, t.item a = v ∧ t.effects a = l ∧ t.put a d = d'

theorem tell_append (t : Telling σ α) (as bs : List α) (d : σ) :
    t.tell (as ++ bs) d = t.tell bs (t.tell as d) := List.foldl_append

end Telling

namespace Listing

/-! ## Pages -/

/-- The items of a response to the call for a page, and what comes after the page once they have
    been gone through. A listing that does not come in pages has one of them. -/
def read (l : Listing) (paged : Bool) (page : Page) (response : Value) :
    Except Fault (List Value × Except Fault (Option Page)) :=
  if paged then do
    let shown ← l.window.view l.action page.marker page.shown response
    let items ← l.itemsOf shown.response
    .ok (items, l.follow page shown)
  else do .ok (← l.itemsOf response, .ok none)

/-- The page that a listing starts with. -/
def first (l : Listing) : Page := ⟨1, l.arguments, none, 0⟩

/-- **Pages that follow each other** from a page on, each with stories of all its items: up to the
    last page of the listing, or to a page that is still to come. -/
inductive Pages (l : Listing) (paged : Bool) (item : α → Value) :
    Page → List (PageRecord α) → Option Page → Prop where
  | here (page : Page) : Pages l paged item page [] (some page)
  | last {page : Page} {p : PageRecord α} : p.arguments = page.arguments →
      l.read paged page p.response = .ok (p.stories.map item, .ok none) →
      Pages l paged item page [p] none
  | turn {page next : Page} {p : PageRecord α} {ps : List (PageRecord α)} {stop : Option Page} :
      p.arguments = page.arguments →
      l.read paged page p.response = .ok (p.stories.map item, .ok (some next)) →
      Pages l paged item next ps stop → Pages l paged item page (p :: ps) stop

/-- **The page within which a listing ends early**, with its effects, the result and the draft: the
    call is refused, the response cannot be read, the listing is left at an item, or the next page
    cannot be found. -/
inductive Broken (l : Listing) (paged : Bool) (body : Value → Run σ Demand) (t : Telling σ α)
    (page : Page) (d : σ) : List Effect → Except Fault Demand → σ → Prop where
  | refused {a : Answer} {e : Fault} : a.told l.action l.identifier = .error e →
      Broken l paged body t page d [.asked l.action page.arguments a] (.error e) d
  | unread {v : Value} {e : Fault} : l.read paged page v = .error e →
      Broken l paged body t page d [.asked l.action page.arguments (.response v)] (.error e) d
  | left {v item : Value} {stories : List α} {rest : List Value} {next : Except Fault (Option Page)}
      {effects : List Effect} {r : Except Fault Demand} {d' : σ} :
      l.read paged page v = .ok (stories.map t.item ++ item :: rest, next) →
      (body item).Does (t.tell stories d) effects r d' → r ≠ .ok .more →
      Broken l paged body t page d
        (t.pageEffects l ⟨page.arguments, v, stories⟩ ++ effects) r d'
  | lost {v : Value} {stories : List α} {e : Fault} :
      l.read paged page v = .ok (stories.map t.item, .error e) →
      Broken l paged body t page d (t.pageEffects l ⟨page.arguments, v, stories⟩) (.error e)
        (t.tell stories d)

/-- **How a listing is gone through** from a page on, with its effects, its result and the draft:
    through pages up to the last one, or short of it through pages and within one more. -/
inductive Gone (l : Listing) (paged : Bool) (body : Value → Run σ Demand) (t : Telling σ α)
    (page : Page) (d : σ) :
    List (PageRecord α) → List Effect → Except Fault Demand → σ → Prop where
  | through {ps : List (PageRecord α)} : Pages l paged t.item page ps none →
      Gone l paged body t page d ps (ps.flatMap (t.pageEffects l)) (.ok .more)
        (t.tell (ps.flatMap PageRecord.stories) d)
  | short {ps : List (PageRecord α)} {stop : Page} {effects : List Effect}
      {r : Except Fault Demand} {d' : σ} : Pages l paged t.item page ps (some stop) →
      Broken l paged body t stop (t.tell (ps.flatMap PageRecord.stories) d) effects r d' →
      Gone l paged body t page d ps (ps.flatMap (t.pageEffects l) ++ effects) r d'

/-! ## What going through a listing does -/

section Does

variable {R : σ → σ → Prop} [IsPreorder σ R] {l : Listing} {body : Value → Run σ Demand}
  {t : Telling σ α} {d d' : σ} {effects : List Effect} {r : Except Fault Demand}

omit [IsPreorder σ R] in
/-- What going through items does: all of them are gone through, or those before the one at which
    they are left. -/
theorem visitItems_does (hb : ∀ v, (body v).Steady R) (ht : t.Covers body) {vs : List Value}
    (h : (visitItems body vs).Does d effects r d') :
    (∃ stories, vs = stories.map t.item ∧ r = .ok .more ∧ effects = stories.flatMap t.effects ∧
        d' = t.tell stories d) ∨
      ∃ stories v rest effects', vs = stories.map t.item ++ v :: rest ∧ r ≠ .ok .more ∧
        effects = stories.flatMap t.effects ++ effects' ∧
        (body v).Does (t.tell stories d) effects' r d' := by
  induction vs generalizing d effects with
  | nil =>
    obtain ⟨rfl, rfl, rfl⟩ := Run.Does.pure h
    exact Or.inl ⟨[], rfl, rfl, rfl, rfl⟩
  | cons v vs ih =>
    rw [visitItems] at h
    rcases h.bind (hb v).toLed with ⟨e, rfl, h₁⟩ | ⟨demand, d₁, l₁, l₂, rfl, h₁, h₂⟩
    · exact Or.inr ⟨[], v, vs, effects, rfl, nofun, rfl, h₁⟩
    · cases demand with
      | enough =>
        obtain ⟨rfl, rfl, rfl⟩ := Run.Does.pure h₂
        exact Or.inr ⟨[], v, vs, l₁, rfl, nofun, List.append_nil _, h₁⟩
      | more =>
        obtain ⟨a, rfl, rfl, rfl⟩ := ht h₁
        rcases ih h₂ with ⟨stories, rfl, rfl, rfl, rfl⟩ | ⟨stories, w, rest, l', rfl, hr, rfl, h₃⟩
        · exact Or.inl ⟨a :: stories, rfl, rfl, rfl, rfl⟩
        · exact Or.inr ⟨a :: stories, w, rest, l', rfl, hr, (List.append_assoc _ _ _).symm, h₃⟩

/-- What one page does: it is gone through and the next one is found, if there is one, or it is
    broken. -/
theorem visitPage_does (hb : ∀ v, (body v).Steady R) (ht : t.Covers body) {page : Page}
    {r : Except Fault (Page ⊕ Demand)} (h : (l.visitPage body page).Does d effects r d') :
    (∃ p : PageRecord α, ∃ next, p.arguments = page.arguments ∧
        l.read true page p.response = .ok (p.stories.map t.item, .ok next) ∧
        effects = t.pageEffects l p ∧ d' = t.tell p.stories d ∧
        r = .ok (next.elim (.inr .more) .inl)) ∨
      ∃ r', r = r'.map .inr ∧ Broken l true body t page d effects r' d' := by
  rw [visitPage] at h
  rcases h.bind (.call _ _ _) with ⟨e, rfl, hc⟩ | ⟨v, d₁, l₁, l₂, rfl, hc, hrest⟩
  · obtain ⟨a, rfl, he, rfl⟩ := hc.call
    exact Or.inr ⟨.error e, rfl, .refused he.symm⟩
  obtain ⟨a, rfl, he, rfl⟩ := hc.call
  obtain rfl := Answer.eq_response_of_told he.symm
  clear h
  rcases hrest.bind_ofFault with ⟨e, he, rfl, rfl, rfl⟩ | ⟨shown, hshown, hrest⟩
  · refine Or.inr ⟨.error e, rfl, .unread ?_⟩
    simp only [read, if_true, he, bind, Except.bind]
  rcases hrest.bind_ofFault with ⟨e, he, rfl, rfl, rfl⟩ | ⟨items, hitems, hrest⟩
  · refine Or.inr ⟨.error e, rfl, .unread ?_⟩
    simp only [read, if_true, hshown, he, bind, Except.bind]
  have hread : l.read true page v = .ok (items, l.follow page shown) := by
    simp only [read, if_true, hshown, hitems, bind, Except.bind]
  rcases hrest.bind_note.bind (Run.Steady.visitItems hb items).toLed with
    ⟨e, rfl, h₁⟩ | ⟨demand, d₁, l₁, l₂, rfl, h₁, h₂⟩
  · rcases visitItems_does hb ht h₁ with
      ⟨stories, -, hr, -, -⟩ | ⟨stories, w, rest, l', rfl, hr, rfl, h₂⟩
    · cases hr
    · exact Or.inr ⟨.error e, rfl, .left hread h₂ hr⟩
  · rcases visitItems_does hb ht h₁ with
      ⟨stories, rfl, hr, rfl, rfl⟩ | ⟨stories, w, rest, l', rfl, hr, rfl, h₃⟩
    · cases hr
      rcases h₂.bind_ofFault with ⟨e, he, rfl, rfl, rfl⟩ | ⟨next, hnext, h₃⟩
      · rw [he] at hread
        rw [List.append_nil]
        exact Or.inr ⟨.error e, rfl, .lost hread⟩
      · rw [hnext] at hread
        cases next with
        | none =>
          obtain ⟨rfl, rfl, rfl⟩ := h₃.pure
          rw [List.append_nil]
          exact Or.inl ⟨⟨_, v, stories⟩, none, rfl, hread, rfl, rfl, rfl⟩
        | some next =>
          obtain ⟨rfl, rfl, rfl⟩ := h₃.pure
          rw [List.append_nil]
          exact Or.inl ⟨⟨_, v, stories⟩, some next, rfl, hread, rfl, rfl, rfl⟩
    · cases demand with
      | more => exact absurd rfl hr
      | enough =>
        obtain ⟨rfl, rfl, rfl⟩ := h₂.pure
        rw [List.append_nil]
        exact Or.inr ⟨.ok .enough, rfl, .left hread h₃ hr⟩

/-- One more page in front of those that are gone through. -/
theorem Gone.cons {paged : Bool} {page next : Page} {p : PageRecord α} {ps : List (PageRecord α)}
    (hp : p.arguments = page.arguments)
    (hread : l.read paged page p.response = .ok (p.stories.map t.item, .ok (some next)))
    (h : Gone l paged body t next (t.tell p.stories d) ps effects r d') :
    Gone l paged body t page d (p :: ps) (t.pageEffects l p ++ effects) r d' := by
  cases h with
  | through hps =>
    rw [← Telling.tell_append]
    exact .through (.turn hp hread hps)
  | short hps hbroken =>
    rw [← Telling.tell_append] at hbroken
    rw [← List.append_assoc]
    exact .short (.turn hp hread hps) hbroken

theorem Gone.last {paged : Bool} {page : Page} {p : PageRecord α}
    (hp : p.arguments = page.arguments)
    (hread : l.read paged page p.response = .ok (p.stories.map t.item, .ok none)) :
    Gone l paged body t page d [p] (t.pageEffects l p) (.ok .more) (t.tell p.stories d) := by
  have h : Gone l paged body t page d [p] _ (.ok .more) _ := .through (.last hp hread)
  rwa [List.flatMap_singleton, List.flatMap_singleton] at h

theorem Gone.broken {paged : Bool} {page : Page} (h : Broken l paged body t page d effects r d') :
    Gone l paged body t page d [] effects r d' := .short (.here page) h

theorem turned_visitPage_does (hb : ∀ v, (body v).Steady R) (ht : t.Covers body) {page : Page}
    (h : Run.Turned (l.visitPage body) page d effects r d') :
    ∃ ps, Gone l true body t page d ps effects r d' := by
  -- every turn but the last one is a page that another one follows
  induction h with
  | ended h =>
    rcases visitPage_does hb ht h with ⟨p, next, hp, hread, rfl, rfl, hr⟩ | ⟨r', hr, hbroken⟩
    · cases next with
      | none =>
        cases hr
        exact ⟨[p], .last hp hread⟩
      | some next => cases hr
    · cases r' with
      | error e => cases hr
      | ok demand =>
        cases hr
        exact ⟨[], .broken hbroken⟩
  | broken h =>
    rcases visitPage_does hb ht h with ⟨p, next, -, -, -, -, hr⟩ | ⟨r', hr, hbroken⟩
    · cases hr
    · cases r' with
      | error e =>
        cases hr
        exact ⟨[], .broken hbroken⟩
      | ok demand => cases hr
  | turn h _ ih =>
    rcases visitPage_does hb ht h with ⟨p, next, hp, hread, rfl, rfl, hr⟩ | ⟨r', hr, -⟩
    · cases next with
      | none => cases hr
      | some next =>
        cases hr
        obtain ⟨ps, hps⟩ := ih
        exact ⟨p :: ps, .cons hp hread hps⟩
    · cases r' <;> cases hr

omit [IsPreorder σ R] in
/-- What going through a listing does that does not come in pages. -/
theorem visitOnce_does (hb : ∀ v, (body v).Steady R) (ht : t.Covers body)
    (h : (do
      let response ← call l.action l.arguments l.identifier
      visitItems body (← Run.ofFault (l.itemsOf response)) : Run σ Demand).Does d effects r d') :
    ∃ ps, Gone l false body t l.first d ps effects r d' := by
  rcases h.bind (.call _ _ _) with ⟨e, rfl, hc⟩ | ⟨v, d₁, l₁, l₂, rfl, hc, hrest⟩
  · obtain ⟨a, rfl, he, rfl⟩ := hc.call
    exact ⟨[], .broken (.refused he.symm)⟩
  obtain ⟨a, rfl, he, rfl⟩ := hc.call
  obtain rfl := Answer.eq_response_of_told he.symm
  rcases hrest.bind_ofFault with ⟨e, he, rfl, rfl, rfl⟩ | ⟨items, hitems, hrest⟩
  · refine ⟨[], .broken (.unread ?_)⟩
    simp only [read, Bool.false_eq_true, if_false, he, bind, Except.bind]
  have hread : l.read false l.first v = .ok (items, .ok none) := by
    simp only [read, Bool.false_eq_true, if_false, hitems, bind, Except.bind]
  rcases visitItems_does hb ht hrest with
    ⟨stories, rfl, rfl, rfl, rfl⟩ | ⟨stories, w, rest, l', rfl, hr, rfl, hleft⟩
  · exact ⟨[⟨l.arguments, v, stories⟩], .last rfl hread⟩
  · exact ⟨[], .broken (.left hread hleft hr)⟩

/-- **What going through a listing does**: pages, and where it ends early, one that is broken. -/
theorem visit_does (hb : ∀ v, (body v).Steady R) (ht : t.Covers body)
    (h : (l.visit body).Does d effects r d') :
    ∃ paged ps, Gone l paged body t l.first d ps effects r d' := by
  rw [visit] at h
  rcases h.bind (Run.Steady.isPaged (R := R) l.action).toLed with
    ⟨e, -, s, -, hr, -⟩ | ⟨paged, d₁, l₁, l₂, rfl, ⟨s, rfl, -, rfl⟩, hrest⟩
  · cases hr
  cases paged with
  | true =>
    obtain ⟨ps, hps⟩ := turned_visitPage_does hb ht (hrest.loop
      (fun page => (Run.Steady.visitPage hb page).toLed) (Run.productive_visitPage hb))
    exact ⟨true, ps, hps⟩
  | false =>
    obtain ⟨ps, hps⟩ := visitOnce_does hb ht hrest
    exact ⟨false, ps, hps⟩

/-- Whether all items are wanted, whatever is done about them. -/
def WantsAll (body : Value → Run σ Demand) : Prop :=
  ∀ {v : Value} {d d' : σ} {l : List Effect} {r : Except Fault Demand},
    (body v).Does d l r d' → r ≠ .ok .enough

/-- Where all items are wanted, a listing that ends early ends with a fault. -/
theorem Broken.isError (hw : WantsAll body) {paged : Bool} {page : Page}
    (h : Broken l paged body t page d effects r d') : ∃ e, r = .error e := by
  cases h with
  | refused => exact ⟨_, rfl⟩
  | unread => exact ⟨_, rfl⟩
  | lost => exact ⟨_, rfl⟩
  | left _ hitem hr =>
    cases r with
    | error e => exact ⟨e, rfl⟩
    | ok demand =>
      cases demand with
      | more => exact absurd rfl hr
      | enough => exact absurd rfl (hw hitem)

end Does

/-! ## What is made of all items -/

section Gather

variable {ρ : Type} {l : Listing} {make : Value → Run (List ρ) ρ} {item : α → Value}
  {story : α → List Effect} {result : α → ρ}

/-- How stories tell of things that are made one after another. -/
def gathering (item : α → Value) (story : α → List Effect) (result : α → ρ) :
    Telling (List ρ) α := ⟨item, story, fun a made => made ++ [result a]⟩

theorem tell_gathering (stories : List α) (made : List ρ) :
    (gathering item story result).tell stories made = made ++ stories.map result := by
  induction stories generalizing made with
  | nil => exact (List.append_nil made).symm
  | cons a stories ih =>
    have h := ih (made ++ [result a])
    rwa [List.append_assoc] at h

/-- Makes something of an item and puts it to what has been made before. -/
def keep (make : Value → Run (List ρ) ρ) (v : Value) : Run (List ρ) Demand := do
  let a ← make v
  Run.redraft (· ++ [a])
  pure .more

theorem steady_keep (hb : ∀ v, (make v).Steady fun _ _ => True) (v : Value) :
    (keep make v).Steady fun _ _ => True :=
  (hb v).bind fun _ => (Run.Steady.redraft fun _ => trivial).bind fun _ => .pure _

theorem covers_keep (hb : ∀ v, (make v).Steady fun _ _ => True)
    (hm : ∀ {v d effects x d'}, (make v).Does d effects (.ok x) d' →
      d' = d ∧ ∃ a, item a = v ∧ story a = effects ∧ result a = x) :
    (gathering item story result).Covers (keep make) := by
  intro v d d' effects h
  rw [keep] at h
  rcases h.bind (hb v).toLed with ⟨e, he, -⟩ | ⟨x, d₁, l₁, l₂, rfl, hmake, s, rfl, -, rfl⟩
  · cases he
  · obtain ⟨rfl, a, rfl, rfl, rfl⟩ := hm hmake
    exact ⟨a, rfl, (List.append_nil _).symm, rfl⟩

theorem wantsAll_keep (hb : ∀ v, (make v).Steady fun _ _ => True) : WantsAll (keep make) := by
  intro v d d' effects r h
  rw [keep] at h
  rcases h.bind (hb v).toLed with ⟨e, rfl, -⟩ | ⟨x, d₁, l₁, l₂, rfl, -, s, -, rfl, -⟩
  · exact nofun
  · exact nofun

/-- **What gathering from a listing does**: it leaves the draft alone, and what has been gathered is
    what has been made of the items of all pages. -/
theorem gather_does (hb : ∀ v, (make v).Steady fun _ _ => True)
    (hm : ∀ {v d effects x d'}, (make v).Does d effects (.ok x) d' →
      d' = d ∧ ∃ a, item a = v ∧ story a = effects ∧ result a = x)
    {d d' : σ} {effects : List Effect} {r : Except Fault (List ρ)}
    (h : (l.gather make).Does d effects r d') :
    d' = d ∧ ∀ made, r = .ok made → ∃ paged ps, Pages l paged item l.first ps none ∧
      effects = ps.flatMap ((gathering item story result).pageEffects l) ∧
      made = (ps.flatMap PageRecord.stories).map result := by
  obtain ⟨s, rfl, rfl, rfl⟩ := h
  have heq : l.gather make d s = ⟨(l.visit (keep make) [] s).result.map fun _ =>
      (l.visit (keep make) [] s).draft, d, (l.visit (keep make) [] s).left,
      (l.visit (keep make) [] s).trace⟩ := Run.gather_eq l make d s
  rw [heq]
  refine ⟨rfl, fun made hmade => ?_⟩
  have hvisit := Run.does_outcome (l.visit (keep make)) [] s
  cases hr : (l.visit (keep make) [] s).result with
  | error e =>
    rw [hr] at hmade
    cases hmade
  | ok demand =>
    rw [hr] at hmade hvisit
    cases hmade
    obtain ⟨paged, ps, hgone⟩ := visit_does (steady_keep hb) (covers_keep hb hm) hvisit
    generalize s.effects (l.visit (keep make) [] s).trace = effects at hgone ⊢
    generalize (l.visit (keep make) [] s).draft = made at hgone ⊢
    cases hgone with
    | through hps =>
      refine ⟨paged, ps, hps, rfl, ?_⟩
      rw [tell_gathering, List.nil_append]
    | short hps hbroken =>
      obtain ⟨e, he⟩ := hbroken.isError (wantsAll_keep hb)
      cases he

end Gather

/-! ## Items that are listed -/

/-- The items that come with an effect, if it is a call of the listing with a response. -/
def itemsWith (l : Listing) : Effect → List Value
  | .asked action _ (.response v) =>
    if action = l.action then (l.itemsOf v).toOption.getD [] else []
  | _ => []

/-- **The items that are listed** among effects, in the order in which they come. -/
def listed (l : Listing) (effects : List Effect) : List Value := effects.flatMap l.itemsWith

/-- Whether an effect is no call of the listing. -/
def isNested (l : Listing) : Effect → Bool
  | .asked action _ _ => action ≠ l.action
  | .paused _ => true

/-- The effects between the calls of the listing. -/
def nested (l : Listing) (effects : List Effect) : List Effect := effects.filter l.isNested

section Listed

variable {l : Listing} {paged : Bool} {page : Page} {t : Telling σ α} {effects : List Effect}

theorem listed_append (l : Listing) (effects more : List Effect) :
    l.listed (effects ++ more) = l.listed effects ++ l.listed more := List.flatMap_append

theorem nested_append (l : Listing) (effects more : List Effect) :
    l.nested (effects ++ more) = l.nested effects ++ l.nested more := List.filter_append _ _

/-- Whether no call of the listing is among effects. -/
def Apart (l : Listing) (effects : List Effect) : Prop :=
  ∀ c ∈ Effect.calls effects, c.1 ≠ l.action

theorem Apart.isNested (h : l.Apart effects) : ∀ e ∈ effects, l.isNested e := by
  intro e he
  cases e with
  | paused delay => rfl
  | asked action arguments a =>
    exact decide_eq_true (h (action, arguments) (List.mem_filterMap.mpr ⟨_, he, rfl⟩))

theorem Apart.nested_eq (h : l.Apart effects) : l.nested effects = effects :=
  List.filter_eq_self.mpr h.isNested

theorem Apart.listed_eq (h : l.Apart effects) : l.listed effects = [] := by
  refine List.flatMap_eq_nil_iff.mpr fun e he => ?_
  have hnested := h.isNested e he
  cases e with
  | paused delay => rfl
  | asked action arguments a =>
    cases a with
    | response v => exact if_neg (of_decide_eq_true hnested)
    | _ => rfl

theorem Apart.flatMap {stories : List α} {story : α → List Effect}
    (h : ∀ a ∈ stories, l.Apart (story a)) : l.Apart (stories.flatMap story) := by
  intro c hc
  rw [Effect.calls, List.mem_filterMap] at hc
  obtain ⟨e, he, hc⟩ := hc
  obtain ⟨a, ha, he⟩ := List.mem_flatMap.mp he
  exact h a ha c (List.mem_filterMap.mpr ⟨e, he, hc⟩)

/-- The pages of another listing are apart from a listing if what is done about their items is. -/
theorem Apart.pages {t : Telling σ α} {l' : Listing} (h : l'.action ≠ l.action)
    (ht : ∀ a, l.Apart (t.effects a)) (ps : List (PageRecord α)) :
    l.Apart (ps.flatMap (t.pageEffects l')) := by
  refine .flatMap fun p _ c hc => ?_
  rcases List.mem_cons.mp hc with rfl | hc
  · exact h
  · exact Apart.flatMap (fun a _ => ht a) c hc

/-- The items of a response are the ones that come with it, where the whole listing is wanted. -/
theorem itemsOf_of_read (hw : l.window = .whole) {response : Value} {items : List Value}
    {next : Except Fault (Option Page)} (h : l.read paged page response = .ok (items, next)) :
    l.itemsOf response = .ok items := by
  cases paged with
  | true =>
    simp only [read, if_true, hw, Window.view_whole] at h
    cases hc : l.action.countMain response with
    | error e =>
      rw [hc] at h
      cases h
    | ok n =>
      cases hi : l.itemsOf response with
      | error e => simp [hc, hi, bind, Except.bind, Except.map] at h
      | ok items' => simp_all [bind, Except.bind, Except.map]
  | false =>
    cases hi : l.itemsOf response with
    | error e => simp [read, hi, bind, Except.bind] at h
    | ok items' => simp_all [read, bind, Except.bind]

theorem itemsWith_of_told {arguments : Members} {a : Answer} {e : Fault}
    (h : a.told l.action l.identifier = .error e) :
    l.itemsWith (.asked l.action arguments a) = [] := by
  cases a with
  | response v => cases h
  | _ => rfl

theorem listed_pageEffects (hw : l.window = .whole) (ht : ∀ a, l.Apart (t.effects a))
    {p : PageRecord α} {items : List Value} {next : Except Fault (Option Page)}
    (h : l.read paged page p.response = .ok (items, next)) :
    l.listed (t.pageEffects l p) = items := by
  have hcall : l.itemsWith (.asked l.action p.arguments (.response p.response)) = items := by
    rw [itemsWith, if_pos rfl, itemsOf_of_read hw h]
    rfl
  have hstories : l.listed (p.stories.flatMap t.effects) = [] :=
    (Apart.flatMap fun a _ => ht a).listed_eq
  show l.itemsWith _ ++ l.listed (p.stories.flatMap t.effects) = items
  rw [hcall, hstories, List.append_nil]

theorem nested_pageEffects (ht : ∀ a, l.Apart (t.effects a)) (p : PageRecord α) :
    l.nested (t.pageEffects l p) = p.stories.flatMap t.effects := by
  have hcall : l.isNested (.asked l.action p.arguments (.response p.response)) = false :=
    decide_eq_false fun h => h rfl
  rw [nested, Telling.pageEffects, List.filter_cons_of_neg (by rw [hcall]; exact nofun)]
  exact (Apart.flatMap fun a _ => ht a).nested_eq

theorem nested_pages (ht : ∀ a, l.Apart (t.effects a)) (ps : List (PageRecord α)) :
    l.nested (ps.flatMap (t.pageEffects l)) =
      (ps.flatMap PageRecord.stories).flatMap t.effects := by
  induction ps with
  | nil => rfl
  | cons p ps ih =>
    rw [List.flatMap_cons, List.flatMap_cons, nested_append, nested_pageEffects ht, ih,
      List.flatMap_append]

/-- **The items of pages are the ones that their stories are about.** -/
theorem Pages.listed_eq (hw : l.window = .whole) (ht : ∀ a, l.Apart (t.effects a))
    {ps : List (PageRecord α)} {stop : Option Page} (h : Pages l paged t.item page ps stop) :
    l.listed (ps.flatMap (t.pageEffects l)) = (ps.flatMap PageRecord.stories).map t.item := by
  induction h with
  | here => rfl
  | last _ hread =>
    rw [List.flatMap_singleton, List.flatMap_singleton, listed_pageEffects hw ht hread]
  | turn _ hread _ ih =>
    rw [List.flatMap_cons, List.flatMap_cons, listed_append, listed_pageEffects hw ht hread, ih,
      List.map_append]

theorem unfailing_itemsOf (response : Value) : Unfailing (l.itemsOf response) := by
  refine Unfailing.bind ?_ fun _ _ => Unfailing.items _
  simp only [Value.memberUnder]
  split
  · exact Unfailing.memberOr _ _ _
  · refine (Unfailing.members _).bind fun _ _ => ?_
    split
    · exact .ok _
    · rintro f ⟨⟩

/-- A response that cannot be read is a fault that no report keeps. -/
theorem unfailing_read (hw : l.window = .whole) (response : Value) :
    Unfailing (l.read paged page response) := by
  cases paged with
  | false => exact (unfailing_itemsOf _).bind fun _ _ => .ok _
  | true =>
    have hview : Unfailing (l.window.view l.action page.marker page.shown response) := by
      rw [hw, Window.view_whole]
      refine Unfailing.map ?_
      rw [Action.countMain]
      split
      · exact .ok _
      · exact (Unfailing.items _).bind fun _ _ => .ok _
    exact hview.bind fun _ _ => (unfailing_itemsOf _).bind fun _ _ => .ok _

/-- **A page within which a listing fails**: the items up to some item are done with, and the
    failure is the one of this item, or it is the listing's own and no item is left. -/
theorem Broken.failed {body : Value → Run σ Demand} {d d' : σ} {f : Failure}
    (hw : l.window = .whole) (ht : ∀ a, l.Apart (t.effects a))
    (hb : ∀ v, (body v).CallsOnly (· ≠ l.action))
    (h : Broken l paged body t page d effects (.error (.failure f)) d') :
    ∃ stories rest inner, l.listed effects = stories.map t.item ++ rest ∧
      l.nested effects = stories.flatMap t.effects ++ inner ∧
      (rest = [] ∧ inner = [] ∧ d' = t.tell stories d ∨
        ∃ v more, rest = v :: more ∧
          (body v).Does (t.tell stories d) inner (.error (.failure f)) d') := by
  cases h with
  | @refused a _ ha =>
    refine ⟨[], [], [], ?_, ?_, Or.inl ⟨rfl, rfl, rfl⟩⟩
    · show l.itemsWith _ ++ [] = []
      rw [itemsWith_of_told ha, List.append_nil]
    · exact List.filter_cons_of_neg (by simp [Listing.isNested])
  | unread hread => exact absurd hread (unfailing_read hw _ f)
  | @left v item stories rest next effects _ _ hread hitem hr =>
    have hapart : l.Apart effects := (hb item).does hitem
    refine ⟨stories, item :: rest, effects, ?_, ?_, Or.inr ⟨item, rest, rfl, hitem⟩⟩
    · rw [listed_append, listed_pageEffects hw ht (p := ⟨_, v, stories⟩) hread, hapart.listed_eq,
        List.append_nil]
    · rw [nested_append, nested_pageEffects ht, hapart.nested_eq]
  | @lost v stories _ hread =>
    refine ⟨stories, [], [], ?_, ?_, Or.inl ⟨rfl, rfl, rfl⟩⟩
    · rw [listed_pageEffects hw ht (p := ⟨_, v, stories⟩) hread, List.append_nil]
    · rw [nested_pageEffects ht, List.append_nil]

/-- **A listing that fails**: the items up to some item are done with, and the failure is the one of
    this item, or it is the listing's own and no item is left. -/
theorem Gone.failed {body : Value → Run σ Demand} {d d' : σ} {f : Failure}
    (hw : l.window = .whole) (ht : ∀ a, l.Apart (t.effects a))
    (hb : ∀ v, (body v).CallsOnly (· ≠ l.action)) {ps : List (PageRecord α)}
    (h : Gone l paged body t page d ps effects (.error (.failure f)) d') :
    ∃ stories rest inner, l.listed effects = stories.map t.item ++ rest ∧
      l.nested effects = stories.flatMap t.effects ++ inner ∧
      (rest = [] ∧ inner = [] ∧ d' = t.tell stories d ∨
        ∃ v more, rest = v :: more ∧
          (body v).Does (t.tell stories d) inner (.error (.failure f)) d') := by
  cases h with
  | short hps hbroken =>
    obtain ⟨stories, rest, inner, hlisted, hnested, hend⟩ := hbroken.failed hw ht hb
    refine ⟨ps.flatMap PageRecord.stories ++ stories, rest, inner, ?_, ?_, ?_⟩
    · rw [listed_append, hps.listed_eq hw ht, hlisted, List.map_append, List.append_assoc]
    · rw [nested_append, nested_pages ht, hnested, List.flatMap_append, List.append_assoc]
    · rwa [Telling.tell_append]

/-- **Whether effects start with a whole listing** that stories tell of: its pages, one after
    another up to the last one, each with its call and then with what is done about its items. -/
def Drained (l : Listing) (t : Telling σ α) (stories : List α) (effects rest : List Effect) :
    Prop :=
  ∃ paged pages, Pages l paged t.item l.first pages none ∧
    stories = pages.flatMap PageRecord.stories ∧
    effects = pages.flatMap (t.pageEffects l) ++ rest

theorem Drained.listed_eq (hw : l.window = .whole) (ht : ∀ a, l.Apart (t.effects a))
    {stories : List α} {rest : List Effect} (hrest : l.Apart rest)
    (h : l.Drained t stories effects rest) : l.listed effects = stories.map t.item := by
  obtain ⟨paged, pages, hpages, rfl, rfl⟩ := h
  rw [listed_append, hpages.listed_eq hw ht, hrest.listed_eq, List.append_nil]

theorem Drained.nested_eq (ht : ∀ a, l.Apart (t.effects a)) {stories : List α} {rest : List Effect}
    (hrest : l.Apart rest) (h : l.Drained t stories effects rest) :
    l.nested effects = stories.flatMap t.effects ++ rest := by
  obtain ⟨paged, pages, -, rfl, rfl⟩ := h
  rw [nested_append, nested_pages ht, hrest.nested_eq]

/-- **A listing that is gone through to its end**, where all items are wanted. -/
theorem Gone.pages {body : Value → Run σ Demand} {d d' : σ} {demand : Demand}
    (hwants : WantsAll body) {ps : List (PageRecord α)}
    (h : Gone l paged body t page d ps effects (.ok demand) d') :
    Pages l paged t.item page ps none ∧ effects = ps.flatMap (t.pageEffects l) ∧
      d' = t.tell (ps.flatMap PageRecord.stories) d := by
  cases h with
  | through hps => exact ⟨hps, rfl, rfl⟩
  | short _ hbroken =>
    obtain ⟨e, he⟩ := hbroken.isError hwants
    cases he

end Listed

/-! ## What comes before a page -/

section Lazy

variable {l : Listing} {paged : Bool} {page : Page} {t : Telling σ α}
  {effects rest before after : List Effect} {arguments : Members} {a : Answer}

/-- **Whether a listing is lazy among effects**: what comes before a call of it is whole pages, with
    all that there is to do about their items done, and the call is the one for the page behind
    them. -/
def Lazy (l : Listing) (t : Telling σ α) (effects : List Effect) : Prop :=
  ∀ before arguments a after, effects = before ++ .asked l.action arguments a :: after →
    ∃ paged pages next, Pages l paged t.item l.first pages (some next) ∧
      next.arguments = arguments ∧ before = pages.flatMap (t.pageEffects l)

theorem Apart.not_call (h : l.Apart (before ++ .asked l.action arguments a :: after)) : False := by
  refine h (l.action, arguments) (List.mem_filterMap.mpr ⟨.asked l.action arguments a, ?_, rfl⟩) rfl
  exact List.mem_append_right _ List.mem_cons_self

/-- A call of the listing among effects comes behind those that are apart from it. -/
theorem Apart.split (h : l.Apart effects)
    (heq : effects ++ rest = before ++ .asked l.action arguments a :: after) :
    ∃ more, before = effects ++ more ∧ rest = more ++ .asked l.action arguments a :: after := by
  rcases List.append_eq_append_iff.mp heq with ⟨more, rfl, hrest⟩ | ⟨more, rfl, hrest⟩
  · exact ⟨more, rfl, hrest⟩
  · cases more with
    | nil =>
      refine ⟨[], ?_, hrest.symm⟩
      rw [List.append_nil, List.append_nil]
    | cons e more =>
      cases hrest
      exact h.not_call.elim

/-- A call of the listing among a page and more is the call of the page, or comes behind it. -/
theorem split_pageEffects (ht : ∀ a, l.Apart (t.effects a)) {p : PageRecord α}
    (heq : t.pageEffects l p ++ rest = before ++ .asked l.action arguments a :: after) :
    (before = [] ∧ arguments = p.arguments) ∨
      ∃ more, before = t.pageEffects l p ++ more ∧
        rest = more ++ .asked l.action arguments a :: after := by
  cases before with
  | nil =>
    cases heq
    exact Or.inl ⟨rfl, rfl⟩
  | cons e before =>
    obtain ⟨rfl, hstories⟩ := List.cons.inj heq
    obtain ⟨more, rfl, hrest⟩ := (Apart.flatMap fun a _ => ht a).split hstories
    exact Or.inr ⟨more, rfl, hrest⟩

/-- A call of the listing among pages and more is the one of a page, with whole pages before it, or
    comes behind all of them. -/
theorem Pages.split (ht : ∀ a, l.Apart (t.effects a)) {ps : List (PageRecord α)}
    {stop : Option Page} (h : Pages l paged t.item page ps stop)
    (heq : ps.flatMap (t.pageEffects l) ++ rest =
      before ++ .asked l.action arguments a :: after) :
    (∃ qs next, Pages l paged t.item page qs (some next) ∧ next.arguments = arguments ∧
        before = qs.flatMap (t.pageEffects l)) ∨
      ∃ more, before = ps.flatMap (t.pageEffects l) ++ more ∧
        rest = more ++ .asked l.action arguments a :: after := by
  induction h generalizing before with
  | here page => exact Or.inr ⟨before, rfl, heq⟩
  | @last page p hp hread =>
    rw [List.flatMap_singleton] at heq ⊢
    rcases split_pageEffects ht heq with ⟨rfl, rfl⟩ | hmore
    · exact Or.inl ⟨[], page, .here page, hp.symm, rfl⟩
    · exact Or.inr hmore
  | @turn page next p ps stop hp hread _ ih =>
    rw [List.flatMap_cons, List.append_assoc] at heq
    rcases split_pageEffects ht heq with ⟨rfl, rfl⟩ | ⟨more, rfl, hmore⟩
    · exact Or.inl ⟨[], page, .here page, hp.symm, rfl⟩
    · rcases ih hmore with ⟨qs, stop', hqs, harguments, rfl⟩ | ⟨more', rfl, hrest⟩
      · exact Or.inl ⟨p :: qs, stop', .turn hp hread hqs, harguments, rfl⟩
      · refine Or.inr ⟨more', ?_, hrest⟩
        rw [List.flatMap_cons, List.append_assoc]

/-- The call of a broken page is the first thing within it, and the only one of the listing. -/
theorem Broken.split {body : Value → Run σ Demand} {d d' : σ} {r : Except Fault Demand}
    (ht : ∀ a, l.Apart (t.effects a)) (hb : ∀ v, (body v).CallsOnly (· ≠ l.action))
    (h : Broken l paged body t page d effects r d')
    (heq : effects = before ++ .asked l.action arguments a :: after) :
    before = [] ∧ arguments = page.arguments := by
  -- behind the page there is nothing but what is called about an item
  have within {v : Value} {stories : List α} {rest : List Effect} (hrest : l.Apart rest)
      (heq : t.pageEffects l ⟨page.arguments, v, stories⟩ ++ rest =
        before ++ .asked l.action arguments a :: after) :
      before = [] ∧ arguments = page.arguments := by
    rcases split_pageEffects ht heq with h | ⟨more, -, hmore⟩
    · exact h
    · rw [hmore] at hrest
      exact hrest.not_call.elim
  have nothing : l.Apart [] := List.forall_mem_nil _
  cases h with
  | refused =>
    obtain ⟨rfl, h⟩ | ⟨rfl, h⟩ := List.singleton_eq_append_iff.mp heq
    · cases h
      exact ⟨rfl, rfl⟩
    · cases h
  | unread =>
    obtain ⟨rfl, h⟩ | ⟨rfl, h⟩ := List.singleton_eq_append_iff.mp heq
    · cases h
      exact ⟨rfl, rfl⟩
    · cases h
  | left _ hitem _ => exact within ((hb _).does hitem) heq
  | lost => exact within nothing (by rw [List.append_nil, heq])

/-- **Going through a listing is lazy.** -/
theorem Gone.isLazy {body : Value → Run σ Demand} {d d' : σ} {r : Except Fault Demand}
    (ht : ∀ a, l.Apart (t.effects a)) (hb : ∀ v, (body v).CallsOnly (· ≠ l.action))
    {ps : List (PageRecord α)} (h : Gone l paged body t l.first d ps effects r d') :
    l.Lazy t effects := by
  intro before arguments a after heq
  cases h with
  | through hps =>
    rw [← List.append_nil (ps.flatMap _)] at heq
    rcases hps.split ht heq with ⟨qs, next, hqs, harguments, hbefore⟩ | ⟨more, -, hmore⟩
    · exact ⟨paged, qs, next, hqs, harguments, hbefore⟩
    · cases more <;> cases hmore
  | short hps hbroken =>
    rcases hps.split ht heq with ⟨qs, next, hqs, harguments, hbefore⟩ | ⟨more, rfl, hmore⟩
    · exact ⟨paged, qs, next, hqs, harguments, hbefore⟩
    · obtain ⟨rfl, rfl⟩ := hbroken.split ht hb hmore
      exact ⟨paged, ps, _, hps, rfl, List.append_nil _⟩

end Lazy

end Listing

end IamInventory
