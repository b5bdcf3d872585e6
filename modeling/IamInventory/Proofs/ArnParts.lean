import Mathlib.Data.List.TakeWhile
import IamInventory.Arn

/-!
# Parts of names — what reading an ARN loses

  The text of an ARN is cut at its first five colons. A cut loses nothing but the colon, so that the
  parts give the text back; and where no part before the last one holds a colon, the cuts of their
  text are between them. So parts and texts correspond. The kind of the resource is what two more
  cuts leave of the last part, at the first slash and at the first colon: whichever of the two comes
  first, no longer part at the front is free of both.

* **`Arn.append_of_cut?`**, **`Arn.cut?_append`** — a cut stands at the first colon.
* **`Arn.IsProper`** — the parts that a text can have, and **`Arn.read?_eq_some_iff`** — the text of
  the parts is what is read.
* **`Arn.isLongestFront_resourceType`** — the kind of a resource.
* **`Arn.parse_exact`** — what has the parts of an ARN, and what is malformed.
-/

namespace IamInventory.Arn

/-- **A cut stands at the first colon.** -/
theorem append_of_cut? {cs before after : List Char} (h : cut? cs = some (before, after)) :
    ':' ∉ before ∧ cs = before ++ ':' :: after := by
  induction cs generalizing before with
  | nil => cases h
  | cons c cs ih =>
    rw [cut?] at h
    split at h
    · next hc =>
      obtain ⟨rfl, rfl⟩ := Prod.mk.inj (Option.some.inj h)
      exact ⟨List.not_mem_nil, by rw [hc, List.nil_append]⟩
    · next hc =>
      obtain ⟨⟨front, rest⟩, hcut, hparts⟩ := Option.map_eq_some_iff.mp h
      obtain ⟨rfl, rfl⟩ := Prod.mk.inj hparts
      obtain ⟨hfront, rfl⟩ := ih hcut
      exact ⟨List.not_mem_cons_of_ne_of_not_mem (Ne.symm hc) hfront, rfl⟩

theorem cut?_append {before : List Char} (h : ':' ∉ before) (after : List Char) :
    cut? (before ++ ':' :: after) = some (before, after) := by
  induction before with
  | nil => rfl
  | cons c before ih =>
    obtain ⟨hc, hbefore⟩ := not_or.mp (mt List.mem_cons.mpr h)
    rw [List.cons_append, cut?, if_neg (Ne.symm hc), ih hbefore]
    rfl

/-! ## Parts and texts -/

/-- The text of the parts, character by character. -/
theorem toList_text (a : Arn) :
    a.text.toList = "arn".toList ++ ':' :: (a.partition.toList ++ ':' :: (a.service.toList ++
      ':' :: (a.region.toList ++ ':' :: (a.account.toList ++ ':' :: a.resource.toList)))) := by
  rw [text]
  simp

/-- **Whether parts are those of an ARN**: none before the resource holds a colon, and neither the
    service nor the resource is empty. -/
structure IsProper (a : Arn) : Prop where
  partition : ':' ∉ a.partition.toList
  service : ':' ∉ a.service.toList
  region : ':' ∉ a.region.toList
  account : ':' ∉ a.account.toList
  service_ne : a.service ≠ ""
  resource_ne : a.resource ≠ ""

/-- The parts of the text of proper parts. -/
theorem IsProper.read?_text {a : Arn} (h : a.IsProper) : read? a.text = some a := by
  have hword : ':' ∉ "arn".toList := by decide
  have hservice : a.service.toList ≠ [] := mt String.toList_eq_nil_iff.mp h.service_ne
  have hresource : a.resource.toList ≠ [] := mt String.toList_eq_nil_iff.mp h.resource_ne
  simp only [read?, toList_text, cut?_append hword, cut?_append h.partition,
    cut?_append h.service, cut?_append h.region, cut?_append h.account, bind, Option.bind,
    String.ofList_toList]
  exact if_pos ⟨trivial, hservice, hresource⟩

/-- **The text of the parts of a text** is the text, and the parts are proper. -/
theorem read?_eq_some_iff {s : String} {a : Arn} : read? s = some a ↔ a.IsProper ∧ a.text = s := by
  constructor
  · intro h
    simp only [read?, bind, Option.bind_eq_some_iff, Prod.exists] at h
    obtain ⟨word, rest₁, h₁, partition, rest₂, h₂, service, rest₃, h₃, region, rest₄, h₄, account,
      resource, h₅, h⟩ := h
    obtain ⟨-, h₁⟩ := append_of_cut? h₁
    obtain ⟨hpartition, h₂⟩ := append_of_cut? h₂
    obtain ⟨hservice, h₃⟩ := append_of_cut? h₃
    obtain ⟨hregion, h₄⟩ := append_of_cut? h₄
    obtain ⟨haccount, h₅⟩ := append_of_cut? h₅
    split at h
    · next hword =>
      obtain ⟨hword, hservice', hresource⟩ := hword
      obtain rfl := Option.some.inj h
      constructor
      · refine ⟨?_, ?_, ?_, ?_, ?_, ?_⟩
        all_goals simpa
      · rw [← String.toList_inj, toList_text, h₁, h₂, h₃, h₄, h₅, hword]
        simp only [String.toList_ofList]
    · cases h
  · rintro ⟨hproper, rfl⟩
    exact hproper.read?_text

/-- **Proper parts are told apart by their text.** -/
theorem IsProper.eq_of_text_eq {a b : Arn} (ha : a.IsProper) (hb : b.IsProper)
    (h : a.text = b.text) : a = b := by
  have hread : read? a.text = some b := h ▸ hb.read?_text
  exact Option.some.inj (ha.read?_text.symm.trans hread)

/-- **What has the parts of an ARN** is the text of proper ones. -/
theorem parse_eq_ok_iff {v : Value} {a : Arn} :
    parse v = .ok a ↔ a.IsProper ∧ v = .text a.text := by
  cases v with
  | text s =>
    rw [parse]
    cases hread : read? s with
    | none =>
      constructor
      · intro h
        cases h
      · rintro ⟨hproper, h⟩
        obtain rfl : s = a.text := Value.text.inj h
        rw [hproper.read?_text] at hread
        cases hread
    | some b =>
      obtain ⟨hb, rfl⟩ := read?_eq_some_iff.mp hread
      constructor
      · intro h
        obtain rfl := Except.ok.inj h
        exact ⟨hb, rfl⟩
      · rintro ⟨ha, h⟩
        rw [hb.eq_of_text_eq ha (Value.text.inj h)]
  | _ => exact ⟨nofun, nofun⟩

/-- What has the parts of an ARN is the text of them. -/
theorem eq_text_of_parse {v : Value} {arn : Arn} (h : parse v = .ok arn) : v = .text arn.text :=
  (parse_eq_ok_iff.mp h).2

theorem parse_eq_error {v : Value} {f : Failure} (h : parse v = .error f) : f = malformed v := by
  cases v with
  | text s =>
    rw [parse] at h
    cases hread : read? s with
    | none =>
      rw [hread] at h
      exact (Except.error.inj h).symm
    | some a =>
      rw [hread] at h
      cases h
  | _ => exact (Except.error.inj h).symm

/-! ## The kind of a resource -/

/-- What stands in front of the first of a character; all there is, if the character is not
    there. -/
def before (separator : Char) (cs : List Char) : List Char := cs.takeWhile fun c => c ≠ separator

/-- **The longest part at the front** of characters all of which have a property. -/
structure IsLongestFront (p : Char → Bool) (front cs : List Char) : Prop where
  starts : front <+: cs
  holds : ∀ c ∈ front, p c
  longest : ∀ other, other <+: cs → (∀ c ∈ other, p c) → other <+: front

theorem isLongestFront_takeWhile (p : Char → Bool) (cs : List Char) :
    IsLongestFront p (cs.takeWhile p) cs where
  starts := List.takeWhile_prefix p
  holds := fun _ hc => List.mem_takeWhile_imp hc
  longest := by
    intro other
    induction other generalizing cs with
    | nil => exact fun _ _ => List.nil_prefix
    | cons c other ih =>
      intro hstarts hother
      obtain ⟨rest, rfl⟩ := hstarts
      obtain ⟨hc, hother⟩ := List.forall_mem_cons.mp hother
      rw [List.cons_append, List.takeWhile_cons_of_pos hc]
      exact List.cons_prefix_cons.mpr ⟨rfl, ih _ (List.prefix_append _ _) hother⟩

/-- **The kind of a resource** is what is left in front of the first slash, and then in front of the
    first colon. -/
theorem resourceType_eq_before (a : Arn) :
    a.resourceType.toList = before ':' (before '/' a.resource.toList) := by
  rw [resourceType, String.toList_ofList, before, before, List.takeWhile_takeWhile]
  congr 1
  funext c
  simp [and_comm]

theorem isLongestFront_resourceType (a : Arn) :
    IsLongestFront (fun c => c ≠ '/' ∧ c ≠ ':') a.resourceType.toList a.resource.toList := by
  rw [resourceType, String.toList_ofList]
  exact isLongestFront_takeWhile _ _

example : (Arn.mk "aws" "logs" "" "" "log-group:app/web").resourceType = "log-group" := by
  decide +kernel

/-! ## Reading -/

/-- **What has the parts of an ARN, and what is malformed.** A value has parts if it is a text
    that consists of the word `arn` and of proper ones, with colons between them, and these are the
    only ones that it consists of; the parts of a text give it back, whatever the resource holds.
    The kind of the resource is the longest part at its front without a slash and a colon, where
    cutting at the first slash and then at the first colon leads. Every other value, and every
    value that is no text, is malformed, and the failure names it. -/
theorem parse_exact (v : Value) :
    (∀ a : Arn, parse v = .ok a ↔ a.IsProper ∧ v = .text a.text) ∧
    (∀ a : Arn, a.text = "arn:" ++ a.partition ++ ":" ++ a.service ++ ":" ++ a.region ++ ":" ++
      a.account ++ ":" ++ a.resource) ∧
    (∀ a b : Arn, a.IsProper → b.IsProper → a.text = b.text → a = b) ∧
    (∀ a : Arn, IsLongestFront (fun c => c ≠ '/' ∧ c ≠ ':') a.resourceType.toList
        a.resource.toList ∧
      a.resourceType.toList = before ':' (before '/' a.resource.toList)) ∧
    ((¬ ∃ a : Arn, a.IsProper ∧ v = .text a.text) →
      ∃ f, parse v = .error f ∧ f.kind = .malformedArn ∧ f.identifier = .text v.shown) := by
  refine ⟨fun a => parse_eq_ok_iff, ?_, fun a b ha hb h => ha.eq_of_text_eq hb h, ?_, ?_⟩
  · intro a
    rw [← String.toList_inj, toList_text]
    simp
  · intro a
    exact ⟨isLongestFront_resourceType a, resourceType_eq_before a⟩
  · intro hnone
    cases hparse : parse v with
    | ok a => exact absurd ⟨a, parse_eq_ok_iff.mp hparse⟩ hnone
    | error f =>
      obtain rfl := parse_eq_error hparse
      exact ⟨malformed v, rfl, rfl, rfl⟩

end IamInventory.Arn
