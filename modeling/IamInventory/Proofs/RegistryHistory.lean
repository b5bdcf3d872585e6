import Mathlib.Data.List.Nodup
import Mathlib.Data.List.TakeWhile
import IamInventory.Proofs.Histories
import IamInventory.Proofs.Spelling

/-!
# Histories of registries — the first thing under a name stays

  A name belongs to what is registered under it first, in whatever spelling. Later registrations
  under it change nothing: the same thing is handed back once more, and another thing is refused.
  A blank name is refused as well, when something is registered under it and when it is looked up.
  Looking up with a default excuses a name that is missing, but not one that is blank, although
  nothing is ever found under it.

* **`Registry.IsBlank`** — the names that have no spelling.
* **`Registry.register_eq_ok_iff`** — the registrations that are accepted.
* **`Registry.Tells`** — what a registry tells of them: names in order, and what came first.
* **`Registry.Step`** — a step, and **`Registry.ofSteps`** — the registry that a history comes to.
* **`Registry.history_first`** — names and things after every history.
* **`Registry.lookup_agrees`** — the ways to look up a name agree, but for blank names.
-/

namespace IamInventory

namespace Text

theorem lower_eq_empty_iff (s : String) : lower s = "" ↔ s = "" := by
  rw [lower, String.ofList_eq_empty_iff, ← String.toList_eq_nil_iff]
  cases s.toList with
  | nil => exact Iff.rfl
  | cons c cs =>
    constructor
    · intro h
      exact absurd (List.append_eq_nil_iff.mp h).1 (lowerChar_ne_nil [] c cs)
    · intro h
      cases h

/-- **Nothing is left of a text** without the blanks around it if it holds nothing but blanks. -/
theorem strip_eq_empty_iff (s : String) : strip s = "" ↔ ∀ c ∈ s.toList, isBlank c := by
  rw [strip, String.ofList_eq_empty_iff, trimBoth, List.reverse_eq_nil_iff,
    List.dropWhile_eq_nil_iff, ← List.dropWhile_eq_nil_iff (l := s.toList)]
  constructor
  · intro h
    cases hrest : s.toList.dropWhile isBlank with
    | nil => rfl
    | cons c rest =>
      -- what is left at the front starts with no blank, so that it is no blank altogether
      have hblank : isBlank c := h c (by rw [hrest]; simp)
      have hfirst : c ∈ (s.toList.dropWhile isBlank).head? := by rw [hrest]; rfl
      rw [head?_dropWhile hfirst] at hblank
      cases hblank
  · intro h c hc
    rw [h] at hc
    cases hc

end Text

namespace Registry

variable {ρ : Type}

/-! ## Blank names -/

/-- **Whether a name is blank**: it holds no character but blanks. -/
def IsBlank (name : String) : Prop := ∀ c ∈ name.toList, Text.isBlank c

theorem normal_eq_empty_iff (name : String) : normal name = "" ↔ IsBlank name := by
  rw [normal, Text.lower_eq_empty_iff, Text.strip_eq_empty_iff]
  rfl

/-- The fault of a blank name. -/
def blank : Fault := .invalid "Report name must be a non-empty string"

/-- The fault of a name that belongs to something else. -/
def taken (name : String) : Fault := .invalid ("Report '" ++ name ++ "' is already registered")

/-- The fault of a name that nothing is registered under. -/
def absent (name : String) : Fault := .missing (.text (normal name))

theorem key_of_isBlank {name : String} (h : IsBlank name) : key (.text name) = .error blank := by
  simp only [key, (normal_eq_empty_iff name).mpr h, if_true]
  rfl

theorem key_of_not_isBlank {name : String} (h : ¬ IsBlank name) :
    key (.text name) = .ok (.text (normal name)) := by
  simp only [key, mt (normal_eq_empty_iff name).mp h, if_false]

/-! ## Registering and looking up -/

section

variable {r r' : Registry ρ} {name : String} {x : ρ}

theorem get_of_isBlank (h : IsBlank name) : r.get (.text name) = .error blank := by
  rw [get, key_of_isBlank h]
  rfl

theorem get_of_not_isBlank (h : ¬ IsBlank name) :
    r.get (.text name) = (r.find? name).elim (.error (absent name)) .ok := by
  simp only [get, key_of_not_isBlank h, bind, Except.bind, find?]
  cases r.entries.find? (.text (normal name)) <;> rfl

variable [DecidableEq ρ]

theorem register_of_isBlank (h : IsBlank name) (x : ρ) :
    r.register (.text name) x = .error blank := by
  rw [register, key_of_isBlank h]
  rfl

theorem register_of_none (h : ¬ IsBlank name) (hfind : r.find? name = none) (x : ρ) :
    r.register (.text name) x = .ok ⟨r.entries ++ [(.text (normal name), x)]⟩ := by
  rw [find?] at hfind
  simp only [register, key_of_not_isBlank h, bind, Except.bind, hfind]

theorem register_of_same (h : ¬ IsBlank name) (hfind : r.find? name = some x) :
    r.register (.text name) x = .ok r := by
  rw [find?] at hfind
  simp only [register, key_of_not_isBlank h, bind, Except.bind, hfind, if_true]

theorem register_of_other {y : ρ} (h : ¬ IsBlank name) (hfind : r.find? name = some y)
    (hne : y ≠ x) : r.register (.text name) x = .error (taken name) := by
  rw [find?] at hfind
  simp only [register, key_of_not_isBlank h, bind, Except.bind, hfind, hne, if_false]
  rfl

/-- **A registration is accepted** under a name that is not blank, if nothing is registered under it
    or the same thing is. -/
theorem register_eq_ok_iff : r.register (.text name) x = .ok r' ↔ ¬ IsBlank name ∧
    ((r.find? name = none ∧ r' = ⟨r.entries ++ [(.text (normal name), x)]⟩) ∨
      (r.find? name = some x ∧ r' = r)) := by
  constructor
  · intro h
    by_cases hblank : IsBlank name
    · rw [register_of_isBlank hblank] at h
      cases h
    · refine ⟨hblank, ?_⟩
      cases hfind : r.find? name with
      | none =>
        rw [register_of_none hblank hfind] at h
        exact Or.inl ⟨rfl, (Except.ok.inj h).symm⟩
      | some y =>
        by_cases hxy : y = x
        · rw [hxy] at hfind ⊢
          rw [register_of_same hblank hfind] at h
          exact Or.inr ⟨rfl, (Except.ok.inj h).symm⟩
        · rw [register_of_other hblank hfind hxy] at h
          cases h
  · rintro ⟨hblank, ⟨hfind, rfl⟩ | ⟨hfind, rfl⟩⟩
    · exact register_of_none hblank hfind x
    · exact register_of_same hblank hfind

end

/-! ## First registrations -/

/-- The normal spellings of names, each once, in the order in which they come first. -/
def keys (registrations : List (String × ρ)) : List String :=
  (registrations.map fun p => normal p.1).eraseDups

/-- **What is registered first** under a name, in whatever spelling. -/
def first? (registrations : List (String × ρ)) (name : String) : Option ρ :=
  (registrations.find? fun p => normal p.1 == normal name).map Prod.snd

theorem first?_append (ps : List (String × ρ)) (name : String) (x : ρ) (other : String) :
    first? (ps ++ [(name, x)]) other =
      (first? ps other).or (if normal name = normal other then some x else none) := by
  rw [first?, first?, List.find?_append, Option.map_or]
  by_cases h : normal name = normal other <;> simp [h]

theorem first?_eq_none_iff {ps : List (String × ρ)} {name : String} :
    first? ps name = none ↔ normal name ∉ ps.map fun p => normal p.1 := by
  rw [first?, Option.map_eq_none_iff, List.find?_eq_none, List.mem_map]
  simp

theorem keys_append_of_none {ps : List (String × ρ)} {name : String} (h : first? ps name = none)
    (x : ρ) : keys (ps ++ [(name, x)]) = keys ps ++ [normal name] := by
  have hnew : [normal name].removeAll (ps.map fun p => normal p.1) = [normal name] := by
    simpa [List.removeAll] using first?_eq_none_iff.mp h
  rw [keys, List.map_append, List.eraseDups_append, List.map_singleton, hnew]
  rfl

theorem keys_append_of_some {ps : List (String × ρ)} {name : String} {x : ρ}
    (h : first? ps name = some x) (y : ρ) : keys (ps ++ [(name, y)]) = keys ps := by
  have hmem : normal name ∈ ps.map fun p => normal p.1 := by
    refine Decidable.byContradiction fun hmem => ?_
    rw [first?_eq_none_iff.mpr hmem] at h
    cases h
  have hold : [normal name].removeAll (ps.map fun p => normal p.1) = [] := by
    simpa [List.removeAll] using hmem
  rw [keys, List.map_append, List.eraseDups_append, List.map_singleton, hold]
  exact List.append_nil _

/-- **What a registry tells of registrations**: their names in order, each of them once, and what
    has been registered first under each of them. -/
structure Tells (r : Registry ρ) (registrations : List (String × ρ)) : Prop where
  names : r.names = (keys registrations).map .text
  nodup : (keys registrations).Nodup
  find? : ∀ name, r.find? name = first? registrations name
  spelled : ∀ p ∈ registrations, ¬ IsBlank p.1

theorem tells_empty : (empty : Registry ρ).Tells [] :=
  ⟨rfl, List.nodup_nil, fun _ => rfl, List.forall_mem_nil _⟩

namespace Tells

variable {r : Registry ρ} {ps : List (String × ρ)} {name : String} {x : ρ}

/-- **A new name** comes last, and no other name is found by it. -/
theorem snoc (hr : r.Tells ps) (hblank : ¬ IsBlank name) (hfind : r.find? name = none) :
    Tells ⟨r.entries ++ [(.text (normal name), x)]⟩ (ps ++ [(name, x)]) where
  names := by
    rw [keys_append_of_none (hr.find? name ▸ hfind), List.map_append, ← hr.names]
    exact List.map_append
  nodup := by
    rw [keys_append_of_none (hr.find? name ▸ hfind)]
    refine hr.nodup.append (List.nodup_singleton _) ?_
    rw [List.disjoint_singleton, keys, List.mem_eraseDups]
    exact first?_eq_none_iff.mp (hr.find? name ▸ hfind)
  find? := by
    intro other
    rw [first?_append, ← hr.find?, Registry.find?, Named.find?_append, Registry.find?]
    simp only [Named.find?, Value.same_text, beq_iff_eq]
  spelled := List.forall_mem_append.mpr ⟨hr.spelled, List.forall_mem_singleton.mpr hblank⟩

/-- **A name that is there** tells nothing new when the same thing is registered once more. -/
theorem again (hr : r.Tells ps) (hblank : ¬ IsBlank name) (hfind : r.find? name = some x) :
    r.Tells (ps ++ [(name, x)]) where
  names := by
    rw [keys_append_of_some (hr.find? name ▸ hfind)]
    exact hr.names
  nodup := by
    rw [keys_append_of_some (hr.find? name ▸ hfind)]
    exact hr.nodup
  find? := by
    intro other
    rw [first?_append, ← hr.find?]
    by_cases h : normal name = normal other
    · have hother : r.find? other = some x := by
        rw [Registry.find?, ← h]
        exact hfind
      rw [if_pos h, hother]
      rfl
    · rw [if_neg h, Option.or_none]
  spelled := List.forall_mem_append.mpr ⟨hr.spelled, List.forall_mem_singleton.mpr hblank⟩

/-- Nothing is found under a blank name. -/
theorem find?_of_isBlank (hr : r.Tells ps) (h : IsBlank name) : r.find? name = none := by
  rw [hr.find?, first?_eq_none_iff]
  intro hmem
  obtain ⟨p, hp, hspelling⟩ := List.mem_map.mp hmem
  refine hr.spelled p hp ((normal_eq_empty_iff p.1).mp ?_)
  rw [hspelling]
  exact (normal_eq_empty_iff name).mpr h

/-- **There is a thing to get** under a name if one is found there. -/
theorem get_eq_ok_iff (hr : r.Tells ps) : r.get (.text name) = .ok x ↔ r.find? name = some x := by
  by_cases hblank : IsBlank name
  · rw [get_of_isBlank hblank, hr.find?_of_isBlank hblank]
    exact ⟨nofun, nofun⟩
  · rw [get_of_not_isBlank hblank]
    cases r.find? name with
    | none => exact ⟨nofun, nofun⟩
    | some y => exact ⟨fun h => congrArg some (Except.ok.inj h),
        fun h => congrArg Except.ok (Option.some.inj h)⟩

end Tells

/-! ## Steps -/

/-- A step in the history of a registry: a registration, or one of the ways to look up a name. -/
inductive Step (ρ : Type) where
  | register (name : String) (x : ρ)
  | get (name : String)
  | getD (name : String) (default : ρ)
  | contains (name : String)

/-- What is handed back for a step: a thing, or whether there is one. -/
inductive Reply (ρ : Type) where
  | thing (x : ρ)
  | held (b : Bool)

/-- The registration that a step is. -/
def Step.registration? : Step ρ → Option (String × ρ)
  | .register name x => some (name, x)
  | .get _ => none
  | .getD _ _ => none
  | .contains _ => none

variable [DecidableEq ρ]

/-- **What is handed back for a step**, unless it is refused: what has been registered, or what has
    been looked up. -/
def reply (r : Registry ρ) : Step ρ → Except Fault (Reply ρ)
  | .register name x => (r.register (.text name) x).map fun _ => .thing x
  | .get name => (r.get (.text name)).map .thing
  | .getD name default => (r.getD (.text name) default).map .thing
  | .contains name => .ok (.held (r.contains (.text name)))

/-- **The registry after a step**, unless it is refused: looking up changes nothing. -/
def step (r : Registry ρ) (s : Step ρ) : Except Fault (Registry ρ) :=
  match s.registration? with
  | some p => r.register (.text p.1) p.2
  | none => (r.reply s).map fun _ => r

/-- **The registry that steps come to**, starting from the one without names. -/
def ofSteps (steps : List (Step ρ)) : Registry ρ := History.after step empty steps

/-- **The registrations that are accepted** on the way, in order. -/
def registered (steps : List (Step ρ)) : List (String × ρ) :=
  (History.accepted step empty steps).filterMap Step.registration?

/-- **A registry tells of one more step** after it. -/
theorem Tells.step {r r' : Registry ρ} {done : List (Step ρ)} {s : Step ρ}
    (hr : r.Tells (done.filterMap Step.registration?)) (h : r.step s = .ok r') :
    r'.Tells ((done ++ [s]).filterMap Step.registration?) := by
  rw [List.filterMap_append]
  rw [Registry.step] at h
  cases hs : s.registration? with
  | some p =>
    rw [hs] at h
    rw [List.filterMap_cons_some hs]
    obtain ⟨hblank, ⟨hfind, rfl⟩ | ⟨hfind, rfl⟩⟩ := register_eq_ok_iff.mp h
    · exact hr.snoc hblank hfind
    · exact hr.again hblank hfind
  | none =>
    rw [hs] at h
    rw [List.filterMap_cons_none hs]
    cases hreply : r.reply s with
    | error e =>
      rw [hreply] at h
      cases h
    | ok reply =>
      rw [hreply] at h
      cases h
      rw [List.filterMap_nil, List.append_nil]
      exact hr

/-- **A registry tells of the registrations that have been accepted** on the way to it. -/
theorem tells_ofSteps (steps : List (Step ρ)) : (ofSteps steps).Tells (registered steps) := by
  let P (r : Registry ρ) (done : List (Step ρ)) : Prop :=
    r.Tells (done.filterMap Step.registration?)
  exact History.tells (P := P) tells_empty (fun _ _ _ _ hr h => Tells.step hr h) steps

section

variable {steps : List (Step ρ)} {name : String} {x : ρ}

/-- A registration that is accepted hands back what it registers. -/
theorem accepted_of_register {r' : Registry ρ}
    (h : (ofSteps steps).register (.text name) x = .ok r') :
    (ofSteps steps).reply (.register name x) = .ok (.thing x) ∧
      ofSteps (steps ++ [.register name x]) = r' := by
  constructor
  · rw [reply, h]
    rfl
  · exact History.after_append_of_ok h

/-- A registration that is refused changes nothing. -/
theorem refused_of_register {e : Fault}
    (h : (ofSteps steps).register (.text name) x = .error e) :
    (ofSteps steps).reply (.register name x) = .error e ∧
      ofSteps (steps ++ [.register name x]) = ofSteps steps := by
  constructor
  · rw [reply, h]
    rfl
  · exact History.after_append_of_error h

end

/-- **A registry after every history.** Its names are the normal spellings of the accepted
    registrations, each once and in the order in which they came first, and under each of them
    stands what was registered first. A blank name is refused and changes nothing. Any other name
    can be registered if it is new, and then what is registered under it is found; what stands under
    a name already is handed back and changes nothing when it is registered once more, in whatever
    spelling; and another thing is refused and changes nothing. Names of one normal spelling are
    looked up alike, and one that is not blank is missing if nothing is registered under it, and
    only then. -/
theorem history_first (steps : List (Step ρ)) :
    (ofSteps steps).names = (keys (registered steps)).map .text ∧
    (keys (registered steps)).Nodup ∧
    (∀ name, ¬ IsBlank name → (ofSteps steps).get (.text name) =
      (first? (registered steps) name).elim (.error (absent name)) .ok) ∧
    (∀ name x, IsBlank name →
      (ofSteps steps).reply (.register name x) = .error blank ∧
        ofSteps (steps ++ [.register name x]) = ofSteps steps) ∧
    (∀ name x, ¬ IsBlank name →
      (first? (registered steps) name = none →
        (ofSteps steps).reply (.register name x) = .ok (.thing x) ∧
          (ofSteps (steps ++ [.register name x])).get (.text name) = .ok x) ∧
      (first? (registered steps) name = some x →
        (ofSteps steps).reply (.register name x) = .ok (.thing x) ∧
          ofSteps (steps ++ [.register name x]) = ofSteps steps) ∧
      (∀ y ≠ x, first? (registered steps) name = some y →
        (ofSteps steps).reply (.register name x) = .error (taken name) ∧
          ofSteps (steps ++ [.register name x]) = ofSteps steps)) ∧
    (∀ name other, ¬ IsBlank name → ¬ IsBlank other → normal name = normal other →
      (ofSteps steps).get (.text name) = (ofSteps steps).get (.text other) ∧
        (ofSteps steps).contains (.text name) = (ofSteps steps).contains (.text other)) ∧
    (∀ name, ¬ IsBlank name → ((ofSteps steps).get (.text name) = .error (absent name) ↔
      (ofSteps steps).contains (.text name) = false)) := by
  have htells := tells_ofSteps steps
  refine ⟨htells.names, htells.nodup, ?_, ?_, ?_, ?_, ?_⟩
  · intro name hblank
    rw [get_of_not_isBlank hblank, htells.find?]
  · intro name x hblank
    exact refused_of_register (register_of_isBlank hblank x)
  · intro name x hblank
    rw [← htells.find?]
    refine ⟨?_, ?_, ?_⟩
    · intro hfind
      obtain ⟨hreply, hafter⟩ := accepted_of_register (register_of_none hblank hfind x)
      refine ⟨hreply, ?_⟩
      rw [hafter, get_of_not_isBlank hblank, (htells.snoc hblank hfind).find?, first?_append,
        ← htells.find?, hfind, if_pos rfl]
      rfl
    · intro hfind
      exact accepted_of_register (register_of_same hblank hfind)
    · intro y hne hfind
      exact refused_of_register (register_of_other hblank hfind hne)
  · intro name other hname hother h
    have hfind : (ofSteps steps).find? name = (ofSteps steps).find? other := by
      rw [find?, h, find?]
    rw [get_of_not_isBlank hname, get_of_not_isBlank hother, contains, contains, hfind, absent,
      absent, h]
    exact ⟨rfl, rfl⟩
  · intro name hblank
    rw [get_of_not_isBlank hblank, contains]
    cases (ofSteps steps).find? name with
    | none => exact ⟨fun _ => rfl, fun _ => rfl⟩
    | some x => exact ⟨nofun, nofun⟩

/-- **The ways to look up a name agree**, after every history. A name is held if there is a thing
    to get, and only then, also where the name is blank; and what is got with a default is that
    thing. For a name that is not held it is the default, unless the name is blank: that one is
    refused, default or not. -/
theorem lookup_agrees (steps : List (Step ρ)) (name : String) (default : ρ) :
    ((ofSteps steps).contains (.text name) = true ↔
      ∃ x, (ofSteps steps).get (.text name) = .ok x) ∧
    (∀ x, (ofSteps steps).get (.text name) = .ok x →
      (ofSteps steps).getD (.text name) default = .ok x) ∧
    ((ofSteps steps).contains (.text name) = false →
      (¬ IsBlank name → (ofSteps steps).getD (.text name) default = .ok default) ∧
      (IsBlank name → (ofSteps steps).getD (.text name) default = .error blank)) := by
  have htells := tells_ofSteps steps
  refine ⟨?_, ?_, ?_⟩
  · rw [contains, Option.isSome_iff_exists]
    exact exists_congr fun x => htells.get_eq_ok_iff.symm
  · intro x hx
    rw [getD, hx]
  · intro h
    have hfind : (ofSteps steps).find? name = none := by
      rw [contains, Option.isSome_eq_false_iff, Option.isNone_iff_eq_none] at h
      exact h
    constructor
    · intro hblank
      rw [getD, get_of_not_isBlank hblank, hfind]
      rfl
    · intro hblank
      rw [getD, get_of_isBlank hblank]
      rfl

/-- A registry with one name. -/
def sampleSteps : List (Step Bool) := [.register "Roles" true]

/-- A name that is held in another spelling, one that is missing, and a blank one. -/
theorem lookup_agrees_roles :
    (ofSteps sampleSteps).getD (.text " ROLES ") false = .ok true ∧
    (ofSteps sampleSteps).getD (.text "role") false = .ok false ∧
    (ofSteps sampleSteps).contains (.text " ") = false ∧
    (ofSteps sampleSteps).getD (.text " ") false = .error blank := by
  have hfound : (ofSteps sampleSteps).find? " ROLES " = some true := by decide +kernel
  have hmissing : (ofSteps sampleSteps).contains (.text "role") = false := by decide +kernel
  have hblank : (ofSteps sampleSteps).contains (.text " ") = false := by decide +kernel
  have hspelled : normal "role" ≠ "" := by decide +kernel
  have hunspelled : normal " " = "" := by decide +kernel
  refine ⟨?_, ?_, hblank, ?_⟩
  · exact (lookup_agrees sampleSteps " ROLES " false).2.1 true
      ((tells_ofSteps sampleSteps).get_eq_ok_iff.mpr hfound)
  · exact ((lookup_agrees sampleSteps "role" false).2.2 hmissing).1
      (mt (normal_eq_empty_iff "role").mpr hspelled)
  · exact ((lookup_agrees sampleSteps " " false).2.2 hblank).2
      ((normal_eq_empty_iff " ").mp hunspelled)

end Registry

end IamInventory
