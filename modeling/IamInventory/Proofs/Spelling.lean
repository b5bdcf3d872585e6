import IamInventory.Registry

/-!
# Spelling — a normal spelling is its own

  A name may be brought to its normal spelling more than once on the way to what is registered
  under it. Nothing comes of that: small letters are small letters of themselves, and no character
  becomes a blank by its small letter. Both are facts about the table of small letters, which is
  looked at row by row.

* **`Text.lower_lower`** — the small-letter form of a small-letter form.
* **`Registry.normal_normal`** — the normal spelling of a normal spelling.
-/

namespace IamInventory

namespace Text

/-! ## The table of small letters -/

/-- A row of the table: its first and last code point, the step between them, and the distance to
    the small letters. -/
abbrev CasingRow := Nat × Nat × Nat × Int

namespace CasingRow

/-- Whether a code point is one of a row. -/
def has (r : CasingRow) (n : Nat) : Bool := r.1 ≤ n && n ≤ r.2.1 && (n - r.1) % r.2.2.1 == 0

/-- The small letter of the first code point of a row. -/
def firstSmall (r : CasingRow) : Nat := ((r.1 : Int) + r.2.2.2).toNat

/-- The small letter of the last code point of a row. -/
def lastSmall (r : CasingRow) : Nat := ((r.2.1 : Int) + r.2.2.2).toNat

/-- Whether all code points of a row are an even distance apart. -/
def isEven (r : CasingRow) : Bool := r.2.2.1 == 2 || r.1 == r.2.1

/-- Whether no small letter of a row can be a code point of another one: it lies outside, or
    between the code points. -/
def isApart (r q : CasingRow) : Bool :=
  r.lastSmall < q.1 || q.2.1 < r.firstSmall ||
    (r.isEven && q.isEven && (r.firstSmall + q.1) % 2 == 1)

/-- Whether the small letters of a row are characters, and neither blanks nor the capital I with a
    dot. -/
def isPlain (r : CasingRow) : Bool :=
  (r.lastSmall < 0xD800 || (0xDFFF < r.firstSmall && r.lastSmall < 0x110000)) &&
    (r.lastSmall < 0x130 || 0x130 < r.firstSmall) &&
    blanks.all fun b => r.lastSmall < b.1 || b.2 < r.firstSmall

theorem isApart_lowering : (lowering.all fun r => lowering.all (isApart r)) = true := by
  decide +kernel

theorem isPlain_lowering : lowering.all isPlain = true := by decide +kernel

theorem distance_lowering : (lowering.all fun r => 0 ≤ (r.1 : Int) + r.2.2.2) = true := by
  decide +kernel

/-- **The small letters of a row**, from the first to the last one, and at even distances where the
    code points are. -/
theorem small_of_has {r : CasingRow} {n : Nat} (hr : r ∈ lowering) (h : r.has n) :
    r.firstSmall ≤ ((n : Int) + r.2.2.2).toNat ∧ ((n : Int) + r.2.2.2).toNat ≤ r.lastSmall ∧
      (r.isEven → (((n : Int) + r.2.2.2).toNat + r.firstSmall) % 2 = 0) := by
  have hdistance := List.all_eq_true.mp distance_lowering r hr
  simp only [has, Bool.and_eq_true, decide_eq_true_eq, beq_iff_eq] at h hdistance
  obtain ⟨⟨hfirst, hlast⟩, hstep⟩ := h
  simp only [firstSmall, lastSmall, isEven, Bool.or_eq_true, beq_iff_eq]
  refine ⟨by omega, by omega, fun heven => ?_⟩
  rcases heven with htwo | hone
  · rw [htwo] at hstep
    omega
  · omega

/-- A small letter of a row is no code point of a row that it is apart from. -/
theorem not_has_of_isApart {r q : CasingRow} {n : Nat} (h : r.isApart q)
    (hfirst : r.firstSmall ≤ n) (hlast : n ≤ r.lastSmall)
    (heven : r.isEven → (n + r.firstSmall) % 2 = 0) : q.has n = false := by
  refine Bool.eq_false_iff.mpr fun hhas => ?_
  simp only [has, Bool.and_eq_true, decide_eq_true_eq, beq_iff_eq] at hhas
  obtain ⟨⟨hle, hge⟩, hstep⟩ := hhas
  simp only [isApart, Bool.or_eq_true, Bool.and_eq_true, decide_eq_true_eq, beq_iff_eq] at h
  rcases h with (h | h) | ⟨⟨hr, hq⟩, hodd⟩
  · omega
  · omega
  · have hsame := heven hr
    simp only [isEven, Bool.or_eq_true, beq_iff_eq] at hq
    rcases hq with htwo | hone
    · rw [htwo] at hstep
      omega
    · omega

end CasingRow

/-- **The small letter of a code point** is the code point itself, or one of the small letters of a
    row. -/
theorem lowerCode_cases (n : Nat) :
    lowerCode n = n ∨
      ∃ r ∈ lowering, CasingRow.firstSmall r ≤ lowerCode n ∧
        lowerCode n ≤ CasingRow.lastSmall r ∧
        (CasingRow.isEven r → (lowerCode n + CasingRow.firstSmall r) % 2 = 0) := by
  have heq : lowerCode n = match lowering.find? (CasingRow.has · n) with
    | some r => ((n : Int) + r.2.2.2).toNat
    | none => n := rfl
  cases hfind : lowering.find? (CasingRow.has · n) with
  | none =>
    rw [hfind] at heq
    exact Or.inl heq
  | some r =>
    rw [hfind] at heq
    refine Or.inr ⟨r, List.mem_of_find?_eq_some hfind, ?_⟩
    rw [heq]
    have hhas : CasingRow.has r n = true := List.find?_some (p := (CasingRow.has · n)) hfind
    exact CasingRow.small_of_has (List.mem_of_find?_eq_some hfind) hhas

/-- A code point that no row has is its own small letter. -/
theorem lowerCode_of_not_has {n : Nat} (h : ∀ r ∈ lowering, CasingRow.has r n = false) :
    lowerCode n = n := by
  have hnone : lowering.find? (CasingRow.has · n) = none :=
    List.find?_eq_none.mpr fun r hr => Bool.eq_false_iff.mp (h r hr)
  show (match lowering.find? (CasingRow.has · n) with
    | some r => ((n : Int) + r.2.2.2).toNat
    | none => n) = n
  rw [hnone]

/-- **The small letter of a small letter is itself.** -/
theorem lowerCode_lowerCode (n : Nat) : lowerCode (lowerCode n) = lowerCode n := by
  rcases lowerCode_cases n with heq | ⟨r, hr, hfirst, hlast, heven⟩
  · rw [heq, heq]
  · refine lowerCode_of_not_has fun q hq => ?_
    have hapart := List.all_eq_true.mp (List.all_eq_true.mp CasingRow.isApart_lowering r hr) q hq
    exact CasingRow.not_has_of_isApart hapart hfirst hlast heven

/-- **A small letter that is not the code point itself** is a character, and neither a blank nor the
    capital I with a dot. -/
theorem lowerCode_plain (n : Nat) :
    lowerCode n = n ∨
      (lowerCode n).isValidChar ∧ lowerCode n ≠ 0x130 ∧ blanks.has (lowerCode n) = false := by
  rcases lowerCode_cases n with heq | ⟨r, hr, hfirst, hlast, -⟩
  · exact Or.inl heq
  · have hplain := List.all_eq_true.mp CasingRow.isPlain_lowering r hr
    simp only [CasingRow.isPlain, Bool.and_eq_true, Bool.or_eq_true, decide_eq_true_eq] at hplain
    obtain ⟨⟨hscalar, hdot⟩, hblanks⟩ := hplain
    refine Or.inr ⟨?_, by omega, Bool.eq_false_iff.mpr fun hhas => ?_⟩
    · show _ ∨ _
      omega
    · obtain ⟨b, hb, hle, hge⟩ := (CharSet.has_iff _ _).mp hhas
      have hout := List.all_eq_true.mp hblanks b hb
      simp only [Bool.or_eq_true, decide_eq_true_eq] at hout
      omega

/-! ## Small characters -/

/-- Whether a character is its own small letter. -/
def IsSmall (c : Char) : Prop := c ≠ 'İ' ∧ lowerCode c.toNat = c.toNat

theorem toNat_ofNat_lowerCode (c : Char) :
    (Char.ofNat (lowerCode c.toNat)).toNat = lowerCode c.toNat := by
  have hvalid : (lowerCode c.toNat).isValidChar := by
    rcases lowerCode_plain c.toNat with hself | ⟨hvalid, -⟩
    · rw [hself]
      exact c.valid
    · exact hvalid
  rw [Char.ofNat, dif_pos hvalid]
  rfl

/-- A character that is its own small letter stays as it is. -/
theorem lowerChar_of_isSmall {c : Char} (h : IsSmall c) (before after : List Char) :
    lowerChar before c after = [c] := by
  have hsigma : c ≠ 'Σ' := by
    rintro rfl
    have hcode : lowerCode 0x3A3 = 0x3C3 := by decide +kernel
    exact absurd (hcode.symm.trans h.2) (by decide)
  rw [lowerChar, if_neg h.1, if_neg hsigma, h.2, Char.ofNat_toNat]

/-- The characters that the two exceptions lead to are small letters, and no blanks. -/
theorem small_exceptions : ∀ d ∈ ['i', '\u0307', 'ς', 'σ'], IsSmall d ∧ isBlank d = false := by
  have hlowering : (lowering.all fun r => [0x69, 0x307, 0x3C2, 0x3C3].all fun n =>
      !CasingRow.has r n) = true := by decide +kernel
  have hlower {n : Nat} (hn : n ∈ [0x69, 0x307, 0x3C2, 0x3C3]) : lowerCode n = n := by
    refine lowerCode_of_not_has fun r hr => ?_
    have hhas := List.all_eq_true.mp (List.all_eq_true.mp hlowering r hr) n hn
    exact Bool.not_eq_true' _ ▸ hhas
  intro d hd
  simp only [List.mem_cons, List.not_mem_nil, or_false] at hd
  rcases hd with rfl | rfl | rfl | rfl <;>
    exact ⟨⟨by decide, hlower (by decide)⟩, by decide⟩

/-- **The small letters of a character are their own**, and none is a blank unless it is. -/
theorem small_of_mem_lowerChar {before after : List Char} {c d : Char}
    (h : d ∈ lowerChar before c after) : IsSmall d ∧ (isBlank c = false → isBlank d = false) := by
  rw [lowerChar] at h
  split at h
  · have hd : d ∈ ['i', '\u0307', 'ς', 'σ'] := List.mem_append_left ['ς', 'σ'] h
    obtain ⟨hsmall, hblank⟩ := small_exceptions d hd
    exact ⟨hsmall, fun _ => hblank⟩
  · next hdot =>
    split at h
    · have hd : d ∈ ['i', '\u0307', 'ς', 'σ'] := by
        split at h <;> simp [List.mem_singleton.mp h]
      obtain ⟨hsmall, hblank⟩ := small_exceptions d hd
      exact ⟨hsmall, fun _ => hblank⟩
    · obtain rfl := List.mem_singleton.mp h
      have hcode := toNat_ofNat_lowerCode c
      rcases lowerCode_plain c.toNat with hself | ⟨-, hplain, hblank⟩
      · rw [hself, Char.ofNat_toNat]
        exact ⟨⟨hdot, hself⟩, id⟩
      · refine ⟨⟨fun heq => hplain ?_, by rw [hcode, lowerCode_lowerCode]⟩, fun _ => ?_⟩
        · rw [← hcode, heq]
          rfl
        · rw [isBlank, CharSet.hasChar, hcode]
          exact hblank

theorem lowerChar_ne_nil (before : List Char) (c : Char) (after : List Char) :
    lowerChar before c after ≠ [] := by
  rw [lowerChar]
  split
  · simp
  · split <;> simp

theorem isSmall_of_mem_lowerChars {before cs : List Char} {d : Char}
    (h : d ∈ lowerChars before cs) : IsSmall d := by
  induction cs generalizing before with
  | nil => cases h
  | cons c cs ih =>
    rcases List.mem_append.mp h with h | h
    · exact (small_of_mem_lowerChar h).1
    · exact ih h

theorem lowerChars_of_isSmall {cs : List Char} (h : ∀ c ∈ cs, IsSmall c) (before : List Char) :
    lowerChars before cs = cs := by
  induction cs generalizing before with
  | nil => rfl
  | cons c cs ih =>
    obtain ⟨hc, hcs⟩ := List.forall_mem_cons.mp h
    rw [lowerChars, lowerChar_of_isSmall hc, ih hcs]
    rfl

/-- **The small-letter form of a small-letter form is itself.** -/
theorem lower_lower (s : String) : lower (lower s) = lower s := by
  have hchars : lowerChars [] (lowerChars [] s.toList) = lowerChars [] s.toList :=
    lowerChars_of_isSmall (fun _ h => isSmall_of_mem_lowerChars h) []
  rw [lower, lower, String.toList_ofList, hchars]

/-! ## Blanks -/

/-- Whether neither the first nor the last one of characters has a property. -/
structure IsTrimmed (p : Char → Bool) (cs : List Char) : Prop where
  head : ∀ c ∈ cs.head?, p c = false
  last : ∀ c ∈ cs.getLast?, p c = false

theorem head?_dropWhile {p : Char → Bool} {cs : List Char} {c : Char}
    (h : c ∈ (cs.dropWhile p).head?) : p c = false := by
  induction cs with
  | nil => cases h
  | cons d cs ih =>
    cases hd : p d with
    | true =>
      rw [List.dropWhile_cons_of_pos hd] at h
      exact ih h
    | false =>
      rw [List.dropWhile_cons_of_neg (Bool.eq_false_iff.mp hd)] at h
      cases h
      exact hd

theorem dropWhile_of_head? {p : Char → Bool} {cs : List Char}
    (h : ∀ c ∈ cs.head?, p c = false) : cs.dropWhile p = cs := by
  cases cs with
  | nil => rfl
  | cons c cs => exact List.dropWhile_cons_of_neg (Bool.eq_false_iff.mp (h c rfl))

theorem isTrimmed_trimBoth (p : Char → Bool) (cs : List Char) : IsTrimmed p (trimBoth p cs) := by
  constructor
  · intro c hc
    rw [trimBoth, List.head?_reverse] at hc
    -- what is dropped at the end leaves the first character as it is
    have hlast : c ∈ (cs.dropWhile p).reverse.getLast? := by
      rw [← List.takeWhile_append_dropWhile (p := p) (l := (cs.dropWhile p).reverse),
        List.getLast?_append, Option.mem_def.mp hc]
      rfl
    rw [List.getLast?_reverse] at hlast
    exact head?_dropWhile hlast
  · intro c hc
    rw [trimBoth, List.getLast?_reverse] at hc
    exact head?_dropWhile hc

theorem IsTrimmed.trimBoth_eq {p : Char → Bool} {cs : List Char} (h : IsTrimmed p cs) :
    trimBoth p cs = cs := by
  have hlast : ∀ c ∈ cs.reverse.head?, p c = false := by
    rw [List.head?_reverse]
    exact h.last
  rw [trimBoth, dropWhile_of_head? h.head, dropWhile_of_head? hlast, List.reverse_reverse]

/-- **Small letters leave no blank at an end** where there was none. -/
theorem IsTrimmed.lowerChars {before cs : List Char} (h : IsTrimmed isBlank cs) :
    IsTrimmed isBlank (lowerChars before cs) := by
  constructor
  · intro d hd
    cases cs with
    | nil => cases hd
    | cons c cs =>
      obtain ⟨x, xs, hx⟩ := List.exists_cons_of_ne_nil (lowerChar_ne_nil before c cs)
      have hmem : d ∈ lowerChar before c cs := by
        rw [Text.lowerChars, hx] at hd
        rw [hx]
        cases hd
        exact List.mem_cons_self
      exact (small_of_mem_lowerChar hmem).2 (h.head c rfl)
  · intro d hd
    replace h := h.last
    induction cs generalizing before with
    | nil => cases hd
    | cons c cs ih =>
      rw [Text.lowerChars, List.getLast?_append] at hd
      cases cs with
      | nil =>
        have hmem : d ∈ lowerChar before c [] := List.mem_of_getLast? hd
        exact (small_of_mem_lowerChar hmem).2 (h c rfl)
      | cons e cs =>
        have hne : Text.lowerChars (c :: before) (e :: cs) ≠ [] :=
          List.append_ne_nil_of_left_ne_nil (lowerChar_ne_nil _ e cs) _
        rw [List.getLast?_eq_some_getLast hne] at hd
        refine @ih (c :: before) ?_ ?_
        · rw [List.getLast?_eq_some_getLast hne]
          exact hd
        · rw [List.getLast?_cons_cons] at h
          exact h

end Text

/-- **The normal spelling of a normal spelling is itself.** -/
theorem Registry.normal_normal (name : String) : normal (normal name) = normal name := by
  have htrimmed : Text.IsTrimmed Text.isBlank (Text.lower (Text.strip name)).toList := by
    rw [Text.lower, String.toList_ofList, Text.strip, String.toList_ofList]
    exact (Text.isTrimmed_trimBoth _ _).lowerChars
  have hstrip : Text.strip (Text.lower (Text.strip name)) = Text.lower (Text.strip name) := by
    rw [Text.strip, htrimmed.trimBoth_eq, String.ofList_toList]
  rw [normal, normal, hstrip, Text.lower_lower]

end IamInventory
