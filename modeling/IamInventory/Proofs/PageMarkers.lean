import Mathlib.Data.List.Chain
import IamInventory.Proofs.Interruption
import IamInventory.Proofs.Turns

/-!
# Page markers — which page of a job is asked for after another

  The results of a job come in pages, and a page that is not the last one names the marker of the
  next. Nothing but that marker is looked at: the next request carries it, whether or not it is the
  one that the page itself was asked for with. So two requests in a row carry the same marker where
  a page repeats its own, and only there; and a page that repeats its marker is asked for again as
  long as it keeps coming, its entries once more each time.

* **`LastAccessed.Paged`** — the requests for the pages after a page.
* **`LastAccessed.Orderly`** — requests each of which follows from the page before it.
* **`LastAccessed.attach_pages`** — the requests of the whole work on a report.
* **`LastAccessed.Serves`** — answers that bring the pages after a page, and
  **`LastAccessed.collect_of_serves`** — the entries of all of them.
* **`LastAccessed.collect_repeats`** — a page that repeats its marker.
-/

namespace IamInventory.LastAccessed

variable {σ : Type}

/-! ## Requests -/

/-- The arguments and the answer of an effect that is a request about a job. -/
def request? : Effect → Option (Members × Answer)
  | .asked action arguments a => if action = details then some (arguments, a) else none
  | .paused _ => none

/-- **The requests about jobs** among effects, with their answers. -/
def requests (l : List Effect) : List (Members × Answer) := l.filterMap request?

/-- The marker of a request, if it is one for a page after the first. -/
def askedMarker? (x : Members × Answer) : Option Value := x.1.get? "Marker"

/-- The marker of the next page that the answer to a request names, if it names one. -/
def namedMarker? (x : Members × Answer) : Option Value :=
  match x.2 with
  | .response v => (Listing.nextMarker v).toOption.join
  | _ => none

/-- **Whether a request follows from the one before it**, where both are for pages after the first:
    it is about the same job, and its marker is the one that the page before it names. -/
def Follows (x y : Members × Answer) : Prop :=
  (askedMarker? x).isSome → (askedMarker? y).isSome →
    y.1.get? "JobId" = x.1.get? "JobId" ∧ askedMarker? y = namedMarker? x

/-- **Whether a page repeats its marker**: it names the one that it was asked for with. -/
def repeats (x : Members × Answer) : Bool :=
  match askedMarker? x, namedMarker? x with
  | some marker, some marker' => marker'.same marker
  | _, _ => false

theorem requests_append (l k : List Effect) : requests (l ++ k) = requests l ++ requests k :=
  List.filterMap_append

theorem requests_asked (arguments : Members) (a : Answer) (l : List Effect) :
    requests (.asked details arguments a :: l) = (arguments, a) :: requests l := by
  have hrequest : request? (.asked details arguments a) = some (arguments, a) := by
    rw [request?, if_pos rfl]
  rw [requests, List.filterMap_cons_some hrequest]
  rfl

theorem requests_paused (delay : Number.Binary64) (l : List Effect) :
    requests (.paused delay :: l) = requests l := List.filterMap_cons_none rfl

/-! ## The pages of a job -/

/-- The arguments of a request for a page of a job. -/
def pageOf (job marker : Value) : Members := [("JobId", job), ("Marker", marker)]

/-- **The requests for the pages after a page**: none, or one that no page is the answer to, or one
    for a page and those for the pages after it. -/
inductive Paged (job : Job) : Value → List Effect → Prop
  | done (v : Value) : Paged job v []
  | last {v marker : Value} (a : Answer) (named : Listing.nextMarker v = .ok (some marker)) :
    Paged job v [.asked details (pageOf job.id marker) a]
  | more {v marker w : Value} {l : List Effect} (named : Listing.nextMarker v = .ok (some marker))
    (rest : Paged job w l) :
    Paged job v (.asked details (pageOf job.id marker) (.response w) :: l)

/-- **What asking for one page does**: there is none to ask for, or it is asked for with the marker
    that the page before names; where paging goes on, it goes on from the answer. -/
theorem nextPage_asks {job : Job} {sofar : Value × List Value} {d d' : σ} {l : List Effect}
    {r : Except Fault ((Value × List Value) ⊕ List Value)}
    (h : (nextPage job sofar).Does d l r d') :
    (l = [] ∧ ∀ next, r ≠ .ok (.inl next)) ∨
      ∃ marker a, Listing.nextMarker sofar.1 = .ok (some marker) ∧
        l = [.asked details (pageOf job.id marker) a] ∧
        ∀ next, r = .ok (.inl next) → a = .response next.1 := by
  rw [nextPage_eq] at h
  rcases h.bind_ofFault with ⟨e, -, rfl, rfl, -⟩ | ⟨marker, hmarker, h⟩
  · exact Or.inl ⟨rfl, fun next h => by cases h⟩
  cases marker with
  | none =>
    obtain ⟨rfl, rfl, -⟩ := h.pure
    exact Or.inl ⟨rfl, fun next h => by cases h⟩
  | some marker =>
    rcases h.bind_call with ⟨a, e, rfl, rfl, -⟩ | ⟨w, l', rfl, hgain⟩
    · exact Or.inr ⟨marker, a, hmarker, rfl, fun next h => by cases h⟩
    · rw [gain] at hgain
      rcases hgain.bind_ofFault with ⟨e, -, rfl, rfl, -⟩ | ⟨more, -, hgain⟩
      · exact Or.inr ⟨marker, _, hmarker, rfl, fun next h => by cases h⟩
      · obtain ⟨rfl, rfl, -⟩ := hgain.pure
        refine Or.inr ⟨marker, _, hmarker, rfl, fun next h => ?_⟩
        cases h
        rfl

/-- The pages after a page, from any entries on. -/
theorem turned_nextPage_asks {job : Job} {sofar : Value × List Value} {d d' : σ} {l : List Effect}
    {r : Except Fault (List Value)} (h : Run.Turned (nextPage job) sofar d l r d') :
    Paged job sofar.1 l := by
  -- a turn without another one asks for a page at most
  have final {sofar : Value × List Value} {d d' : σ} {l : List Effect}
      {r : Except Fault ((Value × List Value) ⊕ List Value)}
      (h : (nextPage job sofar).Does d l r d') : Paged job sofar.1 l := by
    rcases nextPage_asks h with ⟨rfl, -⟩ | ⟨marker, a, hmarker, rfl, -⟩
    · exact .done _
    · exact .last a hmarker
  induction h with
  | ended h => exact final h
  | broken h => exact final h
  | turn h _ ih =>
    rcases nextPage_asks h with ⟨-, hnext⟩ | ⟨marker, a, hmarker, rfl, hanswer⟩
    · exact absurd rfl (hnext _)
    · obtain rfl := hanswer _ rfl
      exact .more hmarker ih

theorem collect_asks {job : Job} {first : Value} {d d' : σ} {l : List Effect}
    {r : Except Fault (List Value)} (h : (collect job first).Does d l r d') :
    Paged job first l := by
  rw [collect] at h
  rcases h.bind_ofFault with ⟨e, -, -, rfl, -⟩ | ⟨entries, -, h⟩
  · exact .done first
  · exact turned_nextPage_asks (h.loop
      (fun sofar => (steady_nextPage (R := fun _ _ => True) job sofar).toLed)
      (productive_nextPage job))

theorem namedMarker?_of_nextMarker {v marker : Value} (arguments : Members)
    (h : Listing.nextMarker v = .ok (some marker)) :
    namedMarker? (arguments, .response v) = some marker := by
  show (Listing.nextMarker v).toOption.join = some marker
  rw [h]
  rfl

/-- **The requests for pages follow from each other**, and the first one from the page before. -/
theorem Paged.follows {job : Job} {v : Value} {l : List Effect} (h : Paged job v l) :
    (requests l).IsChain Follows ∧ ∀ y ∈ (requests l).head?, ∃ marker,
      Listing.nextMarker v = .ok (some marker) ∧ y.1 = pageOf job.id marker := by
  induction h with
  | done v => exact ⟨.nil, nofun⟩
  | @last v marker a named =>
    rw [requests_asked]
    refine ⟨.singleton _, ?_⟩
    rintro y ⟨⟩
    exact ⟨marker, named, rfl⟩
  | @more v marker w l named rest ih =>
    obtain ⟨hchain, hhead⟩ := ih
    rw [requests_asked]
    refine ⟨hchain.cons ?_, ?_⟩
    · intro y hy _ _
      obtain ⟨marker', named', hpage⟩ := hhead y hy
      rw [askedMarker?, hpage, namedMarker?_of_nextMarker _ named']
      exact ⟨rfl, rfl⟩
    · rintro y ⟨⟩
      exact ⟨marker, named, rfl⟩

/-! ## The work on a report -/

/-- **Requests each of which follows from the one before it**, and of which the first is not for a
    page after the first. -/
structure Orderly (l : List Effect) : Prop where
  chain : (requests l).IsChain Follows
  head : ∀ x ∈ (requests l).head?, askedMarker? x = none

theorem orderly_nil : Orderly [] := ⟨.nil, nofun⟩

/-- Nothing has to follow where the next request is not for a page after the first. -/
theorem follows_of_unmarked {x y : Members × Answer} (h : askedMarker? y = none) : Follows x y := by
  intro _ hy
  rw [h] at hy
  cases hy

theorem Orderly.append {l k : List Effect} (hl : Orderly l) (hk : Orderly k) :
    Orderly (l ++ k) where
  chain := by
    rw [requests_append]
    exact hl.chain.append hk.chain fun x _ y hy => follows_of_unmarked (hk.head y hy)
  head := by
    intro x hx
    rw [requests_append] at hx
    cases hrequests : requests l with
    | nil =>
      rw [hrequests] at hx
      exact hk.head x hx
    | cons y rest =>
      rw [hrequests] at hx
      exact hl.head x (hrequests ▸ hx)

/-- Requests none of which is for a page after the first. -/
theorem orderly_of_unmarked {l : List Effect} (h : ∀ x ∈ requests l, askedMarker? x = none) :
    Orderly l where
  chain := by
    have hpairs : (requests l).Pairwise Follows :=
      List.pairwise_of_forall_mem_list fun _ _ y hy => follows_of_unmarked (h y hy)
    exact hpairs.isChain
  head x hx := h x (List.mem_of_head? hx)

/-- A poll has no marker. -/
theorem unmarked_pollEffects (settings : Settings) (job : Job) (waiting : List Value) (a : Answer) :
    ∀ x ∈ requests (pollEffects settings job waiting a), askedMarker? x = none := by
  have hpoll (a : Answer) : askedMarker? ([("JobId", job.id)], a) = none := rfl
  rw [pollEffects]
  generalize settings.pollInterval = delay
  induction waiting generalizing delay with
  | nil =>
    intro x hx
    rw [waitEffects, List.nil_append, requests_asked] at hx
    rw [List.mem_singleton.mp hx]
    exact hpoll a
  | cons v waiting ih =>
    rw [waitEffects, List.cons_append, List.cons_append, requests_asked, requests_paused]
    exact List.forall_mem_cons.mpr ⟨hpoll _, ih _⟩

/-- A poll is a request. -/
theorem requests_pollEffects_ne_nil (settings : Settings) (job : Job) (waiting : List Value)
    (a : Answer) : requests (pollEffects settings job waiting a) ≠ [] := by
  rw [pollEffects, requests_append, requests_asked]
  exact List.append_ne_nil_of_right_ne_nil _ (List.cons_ne_nil _ _)

/-- The pages of a job come behind its polls. -/
theorem Paged.orderly {job : Job} {v : Value} {l k : List Effect} (h : Paged job v k)
    (hl : ∀ x ∈ requests l, askedMarker? x = none) (hne : requests l ≠ []) :
    Orderly (l ++ k) where
  chain := by
    rw [requests_append]
    refine (orderly_of_unmarked hl).chain.append h.follows.1 fun x hx y _ hmarked => ?_
    rw [hl x (List.mem_of_getLast? hx)] at hmarked
    cases hmarked
  head := by
    intro x hx
    rw [requests_append, List.head?_append_of_ne_nil _ hne] at hx
    exact hl x (List.mem_of_head? hx)

/-- **The requests for one job are orderly**: its polls, and then its pages. -/
theorem attachOne_orderly {settings : Settings} {job : Job} {d d' : Report} {l : List Effect}
    {r : Except Fault Unit} (h : (attachOne settings job).Does d l r d') : Orderly l := by
  rw [attachOne_eq] at h
  rcases h.bind (steady_await (R := fun _ _ => True) settings job).toLed with
    ⟨e, -, hawait⟩ | ⟨first, d₁, l₁, l₂, rfl, hawait, hpages⟩
  · obtain ⟨-, waiting, a, -, rfl, -⟩ := await_does hawait
    exact orderly_of_unmarked (unmarked_pollEffects settings job waiting a)
  · obtain ⟨-, waiting, a, -, rfl, -⟩ := await_does hawait
    have hpolls := unmarked_pollEffects settings job waiting a
    have hne := requests_pollEffects_ne_nil settings job waiting a
    rcases hpages.bind (steady_collect (R := fun _ _ => True) job first).toLed with
      ⟨e, -, hcollect⟩ | ⟨entries, d₂, l₃, l₄, rfl, hcollect, hrecord⟩
    · exact (collect_asks hcollect).orderly hpolls hne
    · rw [record_silent hrecord, List.append_nil]
      exact (collect_asks hcollect).orderly hpolls hne

/-- **So are those for jobs one after another.** -/
theorem each_orderly {settings : Settings} {jobs : List Job} {d d' : Report} {l : List Effect}
    {r : Except Fault Unit} (h : (Run.each jobs (attachOne settings)).Does d l r d') :
    Orderly l := by
  induction jobs generalizing d l with
  | nil =>
    obtain ⟨rfl, -, -⟩ := Run.Does.pure h
    exact orderly_nil
  | cons job jobs ih =>
    rcases Run.Does.bind (steady_attachOne settings job).toLed h with
      ⟨e, -, hfirst⟩ | ⟨_, d₁, l₁, l₂, rfl, hfirst, hrest⟩
    · exact attachOne_orderly hfirst
    · exact (attachOne_orderly hfirst).append (ih hrest)

/-- A submission is no request about a job. -/
theorem requests_of_generate {l : List Effect}
    (h : ∀ e ∈ l, ∃ i a, e = .asked generate [("Arn", i)] a) : requests l = [] := by
  refine List.filterMap_eq_nil_iff.mpr fun e he => ?_
  obtain ⟨i, a, rfl⟩ := h e he
  have hne : generate ≠ details := by decide
  rw [request?, if_neg hne]

/-- **The requests of the whole work on a report are orderly.** -/
theorem attach_orderly {settings : Settings} {r r' : Report} {l : List Effect}
    {res : Except Fault Unit} (h : (attach settings).Does r l res r') : Orderly l := by
  rcases attach_works h with ⟨-, -, hgenerate⟩ | ⟨ss, l', -, -, rfl, hwork⟩
  · refine orderly_of_unmarked ?_
    rw [requests_of_generate hgenerate]
    exact List.forall_mem_nil _
  · refine Orderly.append (orderly_of_unmarked ?_) (each_orderly hwork)
    have hgenerate : ∀ e ∈ ss.map Submission.effect, ∃ i a, e = .asked generate [("Arn", i)] a := by
      intro e he
      obtain ⟨submission, -, rfl⟩ := List.mem_map.mp he
      exact ⟨_, _, rfl⟩
    rw [requests_of_generate hgenerate]
    exact List.forall_mem_nil _

/-- **Pages are asked for by the markers of the pages before them.** Of two requests for pages of a
    report in a row, the second is about the same job, with the marker that the answer to the first
    names. Where no page repeats its marker, then, no two of them have the same one. -/
theorem attach_pages (settings : Settings) (report : Report) (s : Script) :
    (requests (s.effects (attach settings report s).trace)).IsChain Follows ∧
      ((∀ x ∈ requests (s.effects (attach settings report s).trace), repeats x = false) →
        (requests (s.effects (attach settings report s).trace)).IsChain fun x y =>
          ∀ marker ∈ askedMarker? x, ∀ marker' ∈ askedMarker? y, marker'.same marker = false) := by
  have hchain := (attach_orderly (Run.does_outcome (attach settings) report s)).chain
  refine ⟨hchain, fun hrepeats => ?_⟩
  refine hchain.imp_of_mem_imp fun x y hx _ hfollows marker hmarker marker' hmarker' => ?_
  obtain ⟨-, hnamed⟩ := hfollows (Option.isSome_of_mem hmarker) (Option.isSome_of_mem hmarker')
  have hx' := hrepeats x hx
  rw [repeats, hmarker, ← hnamed, hmarker'] at hx'
  exact hx'

/-- Answers to two jobs, the first one with three pages. -/
def turningScript : Script :=
  ⟨[(generate, [.response (.object [("JobId", .text "1")]),
      .response (.object [("JobId", .text "2")])]),
    (details, [inState "COMPLETED" [("IsTruncated", .bool true), ("Marker", .text "m")],
      inState "COMPLETED" [("IsTruncated", .bool true), ("Marker", .text "n")],
      inState "COMPLETED" [], inState "COMPLETED" []])], []⟩

/-- The two further pages of the first job are asked for with different markers. -/
theorem attach_pages_turning :
    (requests (turningScript.effects (attach .default sampleReport turningScript).trace)).length =
        4 ∧
      (∀ x ∈ requests (turningScript.effects (attach .default sampleReport turningScript).trace),
        repeats x = false) ∧
      (requests (turningScript.effects (attach .default sampleReport turningScript).trace)).IsChain
        fun x y => ∀ marker ∈ askedMarker? x, ∀ marker' ∈ askedMarker? y,
          marker'.same marker = false := by
  have hrepeats : ∀ x ∈ requests
      (turningScript.effects (attach .default sampleReport turningScript).trace),
      repeats x = false := by decide +kernel
  refine ⟨by decide +kernel, hrepeats, ?_⟩
  exact (attach_pages .default sampleReport turningScript).2 hrepeats

/-! ## Pages that come -/

section Pages

variable {job : Job} {s : Script} {i : Nat}

/-- **Answers that bring the pages after a page**, from one answer on: a page names the marker of
    the next one, and the next answer is that page, with its part of the entries; the last page
    names no marker. -/
inductive Serves (s : Script) : Nat → Value → List Value → List (List Value) → Prop
  | last {i : Nat} {v : Value} (named : Listing.nextMarker v = .ok none) : Serves s i v [] []
  | more {i : Nat} {v marker w : Value} {part : List Value} {markers : List Value}
    {parts : List (List Value)} (named : Listing.nextMarker v = .ok (some marker))
    (answered : s.nth details i = .response w) (held : entriesOf w = .ok part)
    (rest : Serves s (i + 1) w markers parts) : Serves s i v (marker :: markers) (part :: parts)

/-- One turn of paging, where the next page comes. -/
theorem nextPage_of_response {v marker w : Value} {more : List Value}
    (hmarker : Listing.nextMarker v = .ok (some marker))
    (hanswer : s.nth details i = .response w) (hmore : entriesOf w = .ok more) (job : Job)
    (entries : List Value) (d : σ) :
    nextPage job (v, entries) d (s.skip details i) =
      ⟨.ok (.inl (w, entries ++ more)), d, s.skip details (i + 1),
        [.called details (pageOf job.id marker)]⟩ := by
  have hcall : call details (pageOf job.id marker) job.identifier d (s.skip details i) =
      ⟨.ok w, d, s.skip details (i + 1), [.called details (pageOf job.id marker)]⟩ := by
    rw [call_skip, hanswer]
    rfl
  rw [nextPage_eq, hmarker]
  show (call details (pageOf job.id marker) job.identifier >>= gain entries : Run σ _) d
    (s.skip details i) = _
  rw [Run.bind_behind hcall, gain, hmore]
  rfl

/-- The turn of paging after the last page. -/
theorem nextPage_of_last {v : Value} (hmarker : Listing.nextMarker v = .ok none) (job : Job)
    (entries : List Value) (d : σ) (s : Script) :
    nextPage job (v, entries) d s = ⟨.ok (.inr entries), d, s, []⟩ := by
  rw [nextPage_eq, hmarker]
  rfl

/-- The events of asking for pages with their markers. -/
def pageCalls (job : Job) (markers : List Value) : Trace :=
  markers.map fun marker => .called details (pageOf job.id marker)

theorem calls_pageCalls (job : Job) (markers : List Value) :
    (pageCalls job markers).calls = markers.map fun marker => (details, pageOf job.id marker) := by
  rw [pageCalls, Trace.calls, List.filterMap_map]
  show markers.filterMap (fun marker => some (details, pageOf job.id marker)) = _
  rw [List.filterMap_eq_map']

/-- **Paging along pages that come** goes through all of them, each asked for with its marker. -/
theorem Serves.loop_eq {v : Value} {markers : List Value} {parts : List (List Value)}
    (h : Serves s i v markers parts) (job : Job) (entries : List Value) (d : σ) :
    Run.loop (nextPage job) (v, entries) d (s.skip details i) =
      ⟨.ok (entries ++ parts.flatten), d, s.skip details (i + parts.length),
        pageCalls job markers⟩ := by
  induction h generalizing entries with
  | @last i v named =>
    have hturn := nextPage_of_last named job entries d (s.skip details i)
    rw [Run.loop_of_done (congrArg Outcome.result hturn), hturn, List.flatten_nil, List.append_nil]
    rfl
  | @more i v marker w part markers parts named answered held rest ih =>
    have hturn := nextPage_of_response named answered held job entries d
    have hless : (s.skip details (i + 1)).size < (s.skip details i).size := by
      refine Script.size_skip_lt ?_
      rw [answered]
      exact response_ne_unscripted w
    rw [Run.loop_of_next (congrArg Outcome.result hturn) (by rw [hturn]; exact hless), hturn]
    show (Run.loop (nextPage job) (w, entries ++ part) d (s.skip details (i + 1))).behind _ = _
    have hcount : i + 1 + parts.length = i + (parts.length + 1) := by omega
    rw [ih, List.append_assoc, hcount]
    rfl

/-- **The entries of pages that come** are those of the first page and of all that come after it. -/
theorem collect_of_serves {first : Value} {part : List Value} {markers : List Value}
    {parts : List (List Value)} (hfirst : entriesOf first = .ok part)
    (h : Serves s 0 first markers parts) (job : Job) (d : σ) :
    collect job first d s = ⟨.ok (part ++ parts.flatten), d, s.skip details parts.length,
      pageCalls job markers⟩ := by
  have hloop := h.loop_eq job part d
  rw [Nat.zero_add] at hloop
  rw [collect, hfirst]
  exact hloop

/-! ## A page that repeats its marker -/

/-- A page that names its own marker comes again and again, until another one closes. -/
theorem serves_repeats {n : Nat} {page closing marker : Value} {es rest : List Value}
    (hmarker : Listing.nextMarker page = .ok (some marker)) (hes : entriesOf page = .ok es)
    (hclosing : Listing.nextMarker closing = .ok none) (hrest : entriesOf closing = .ok rest)
    (hpages : ∀ k < n, s.nth details (i + k) = .response page)
    (hlast : s.nth details (i + n) = .response closing) :
    Serves s i page (List.replicate (n + 1) marker) (List.replicate n es ++ [rest]) := by
  induction n generalizing i with
  | zero => exact .more hmarker hlast hrest (.last hclosing)
  | succ n ih =>
    have hshift (k : Nat) : i + 1 + k = i + (k + 1) := by omega
    refine .more hmarker (hpages 0 (Nat.succ_pos n)) hes (ih (fun k hk => ?_) ?_)
    · rw [hshift]
      exact hpages (k + 1) (Nat.succ_lt_succ hk)
    · rw [hshift]
      exact hlast

/-- **A page that names its own marker is followed as long as it comes**, and its entries are there
    as often. -/
theorem collect_repeats {n : Nat} {page closing marker : Value} {es rest : List Value}
    (hmarker : Listing.nextMarker page = .ok (some marker)) (hes : entriesOf page = .ok es)
    (hpages : ∀ i < n, s.nth details i = .response page)
    (hlast : s.nth details n = .response closing)
    (hclosing : Listing.nextMarker closing = .ok none) (hrest : entriesOf closing = .ok rest)
    (d : σ) :
    (collect job page d s).result = .ok (es ++ (List.replicate n es).flatten ++ rest) ∧
      (collect job page d s).trace.calls =
        List.replicate (n + 1) (details, pageOf job.id marker) := by
  have hserves : Serves s 0 page (List.replicate (n + 1) marker) (List.replicate n es ++ [rest]) :=
    serves_repeats hmarker hes hclosing hrest
      (fun k hk => by rw [Nat.zero_add]; exact hpages k hk) (by rwa [Nat.zero_add])
  rw [collect_of_serves hes hserves, List.flatten_append, List.flatten_singleton,
    ← List.append_assoc]
  refine ⟨rfl, ?_⟩
  show (pageCalls job _).calls = _
  rw [calls_pageCalls, List.map_replicate]

end Pages

end IamInventory.LastAccessed
