import IamInventory.Json.Writer
import IamInventory.Proofs.Coding
import IamInventory.Proofs.JsonReading

/-!
# JSON text — what is written is read as it was

  The writer is one recursion over a value. What it writes is derived by the grammar, phrase by
  phrase and in every layout that puts only blanks between the tokens, and so it is read as the
  value that was written.

* **`Value.isExact`** — whether a value is told exactly by its text.
* **`Json.literal_writeString`** — a literal denotes its text, characters beyond the sixteen-bit
  code points as pairs of escapes.
* **`Json.numeral_integerChars`** — an integer denotes itself.
* **`Json.denotes_chars`** — so does every value that is told exactly.
* **`Json.readText_chars`** — a whole text is read as the value that was written.
-/

namespace IamInventory

open Number Text

mutual

/-- Whether a value is told exactly by its text: there are no floating-point numbers, timestamps or
    bytes in it, its integers have no more digits than can be read, and no object has a name
    twice. -/
def Value.isExact : Value → Bool
  | .null => true
  | .bool _ => true
  | .int n => decide ((Nat.toDigits 10 n.natAbs).length ≤ maxDigits)
  | .text _ => true
  | .list vs => areExact vs
  | .object ms => decide (Members.names ms).Nodup && holdExact ms
  | _ => false

/-- Whether all values of a list are told exactly. -/
def areExact : List Value → Bool
  | [] => true
  | v :: vs => v.isExact && areExact vs

/-- Whether all members' values are told exactly. -/
def holdExact : List (String × Value) → Bool
  | [] => true
  | (_, v) :: ms => v.isExact && holdExact ms

end

namespace Json

/-! ## String literals -/

/-- The code of a character is no half of a pair. -/
theorem not_half (c : Char) : isHighHalf c.toNat = false ∧ isLowHalf c.toNat = false := by
  have hc : c.toNat < 0xD800 ∨ 0xDFFF < c.toNat ∧ c.toNat < 0x110000 := c.valid
  constructor
  · simp only [isHighHalf, Bool.and_eq_false_iff, decide_eq_false_iff_not]
    omega
  · simp only [isLowHalf, Bool.and_eq_false_iff, decide_eq_false_iff_not]
    omega

/-- The sixteen-bit codes of a character: one, or the two halves of a pair. -/
def halves (c : Char) : List Nat :=
  if c.toNat < 0x10000 then [c.toNat]
  else [0xD800 + (c.toNat - 0x10000) / 0x400, 0xDC00 + (c.toNat - 0x10000) % 0x400]

/-- Joining the halves of a character gives its code. -/
theorem joined_halves (c : Char) (ns : List Nat) :
    joined (halves c ++ ns) = c.toNat :: joined ns := by
  rw [halves]
  split
  · exact joined_cons (not_half c).1 ns
  · next hc =>
    have hvalid : c.toNat < 0xD800 ∨ 0xDFFF < c.toNat ∧ c.toNat < 0x110000 := c.valid
    have hhigh : isHighHalf (0xD800 + (c.toNat - 0x10000) / 0x400) := by
      simp only [isHighHalf, Bool.and_eq_true, decide_eq_true_eq]
      omega
    have hlow : isLowHalf (0xDC00 + (c.toNat - 0x10000) % 0x400) := by
      simp only [isLowHalf, Bool.and_eq_true, decide_eq_true_eq]
      omega
    have hcode : 0x10000 + (0xD800 + (c.toNat - 0x10000) / 0x400 - 0xD800) * 0x400 +
        (0xDC00 + (c.toNat - 0x10000) % 0x400 - 0xDC00) = c.toNat := by omega
    rw [List.cons_append, List.cons_append, List.nil_append, joined, hhigh, hlow, Bool.and_self,
      if_pos rfl, hcode]

theorem joined_flatMap_halves (cs : List Char) :
    joined (cs.flatMap halves) = cs.map Char.toNat := by
  induction cs with
  | nil => rfl
  | cons c cs ih => rw [List.flatMap_cons, joined_halves, ih, List.map_cons]

/-- An escape by code names its code. -/
theorem units_codeEscape {n : Nat} (hn : n < 0x10000) {cs : List Char} {ns : List Nat}
    (h : Units cs ns) : Units (codeEscape n ++ cs) (n :: ns) := by
  have hcode : ((n / 16 / 16 / 16 % 16 * 16 + n / 16 / 16 % 16) * 16 + n / 16 % 16) * 16 + n % 16 =
      n := by omega
  have hunits := Units.code (hexDigit?_hexChar (n / 16 / 16 / 16)) (hexDigit?_hexChar (n / 16 / 16))
    (hexDigit?_hexChar (n / 16)) (hexDigit?_hexChar n) h
  rwa [hcode] at hunits

/-- **A character as it stands in a literal names its codes.** -/
theorem units_writeChar (c : Char) {cs : List Char} {ns : List Nat} (h : Units cs ns) :
    Units (writeChar c ++ cs) (halves c ++ ns) := by
  rw [writeChar]
  -- seven characters have an escape of their own
  iterate 7
    split
    · next hc =>
      subst hc
      exact .letter (by decide) h
  next hquote hslash _ _ _ _ _ =>
  rw [halves]
  split
  · next hc =>
    rw [if_pos (by omega)]
    exact .char hquote hslash hc.1 h
  split
  · next hc => exact units_codeEscape hc h
  · next hc =>
    have hvalid : c.toNat < 0xD800 ∨ 0xDFFF < c.toNat ∧ c.toNat < 0x110000 := c.valid
    rw [List.append_assoc]
    exact units_codeEscape (by omega) (units_codeEscape (by omega) h)

theorem units_writeChars (cs : List Char) : Units (cs.flatMap writeChar) (cs.flatMap halves) := by
  induction cs with
  | nil => exact .nil
  | cons c cs ih => exact units_writeChar c ih

/-- **The literal of a text denotes the text.** -/
theorem literal_writeString (s : String) : Literal (s.toList.flatMap writeChar) s := by
  refine ⟨_, units_writeChars s.toList, ?_⟩
  have hchar : codeChar ∘ Char.toNat = id := by
    funext c
    obtain ⟨hhigh, hlow⟩ := not_half c
    show codeChar c.toNat = c
    rw [codeChar, hhigh, hlow, Bool.or_false, if_neg Bool.false_ne_true, Char.ofNat_toNat]
  rw [joined_flatMap_halves, List.map_map, hchar, List.map_id, String.ofList_toList]

/-! ## Integers -/

theorem isDigit_toDigits (n : Nat) : ∀ c ∈ Nat.toDigits 10 n, c.isDigit := fun _ hc =>
  Nat.isDigit_of_mem_toDigits (by decide) (by decide) hc

/-- The digits of a number that is not zero start with another digit than zero. -/
theorem toDigits_head {n : Nat} (hn : 0 < n) : ∃ c cs, Nat.toDigits 10 n = c :: cs ∧ c ≠ '0' := by
  induction n using Nat.strongRecOn with
  | ind n ih =>
    by_cases h : n < 10
    · have table : ∀ m < 10, 0 < m → Nat.digitChar m ≠ '0' := by decide
      exact ⟨Nat.digitChar n, [], Nat.toDigits_of_lt_base h, table n h hn⟩
    · obtain ⟨c, cs, hcs, hc⟩ := ih (n / 10) (by omega) (by omega)
      refine ⟨c, cs ++ [Nat.digitChar (n % 10)], ?_, hc⟩
      rw [Nat.toDigits_of_base_le (by decide) (Nat.not_lt.mp h), hcs, List.cons_append]

/-- The digits of a number are the whole part of one. -/
theorem whole_toDigits (n : Nat) : Whole (Nat.toDigits 10 n) := by
  rcases Nat.eq_zero_or_pos n with rfl | hn
  · rw [Nat.toDigits_zero]
    exact .zero
  · have hdigits := isDigit_toDigits n
    obtain ⟨c, cs, hcs, hc⟩ := toDigits_head hn
    rw [hcs] at hdigits ⊢
    obtain ⟨hdigit, hdigits⟩ := List.forall_mem_cons.mp hdigits
    exact .positive hdigit hc hdigits

/-- **An integer of not too many digits denotes itself.** -/
theorem numeral_integerChars {n : Int} (hn : (Nat.toDigits 10 n.natAbs).length ≤ maxDigits) :
    Numeral (integerChars n) (.int n) := by
  have hvalue : signedDigits (decide (n < 0)) (Nat.toDigits 10 n.natAbs) = n := by
    rw [signedDigits, Nat.ofDigitChars_ten_toDigits]
    by_cases h : n < 0
    · rw [if_pos (decide_eq_true h)]
      omega
    · rw [if_neg (by simpa using h)]
      omega
  rw [integerChars]
  split
  · next h =>
    have hnumeral := Numeral.integer .present (whole_toDigits n.natAbs) hn
    rw [decide_eq_true h] at hvalue
    rwa [hvalue] at hnumeral
  · next h =>
    have hnumeral := Numeral.integer .absent (whole_toDigits n.natAbs) hn
    rw [decide_eq_false h] at hvalue
    rwa [hvalue] at hnumeral

/-! ## Values -/

/-- Whether a layout puts only blanks between the tokens. -/
def Layout.IsBlank (layout : Layout) : Prop :=
  (∀ depth, ∀ c ∈ layout.lineBreak depth, isSpace c) ∧ ∀ c ∈ layout.afterColon, isSpace c

theorem isBlank_compact : Layout.compact.IsBlank :=
  ⟨fun _ => List.forall_mem_nil _, List.forall_mem_nil _⟩

theorem isBlank_indented : Layout.indented.IsBlank := by
  constructor
  · intro depth c hc
    rcases List.mem_cons.mp hc with rfl | hc
    · rfl
    · rw [List.eq_of_mem_replicate hc]
      rfl
  · intro c hc
    rw [List.mem_singleton.mp hc]
    rfl

section Denotes

variable {layout : Layout} (hl : layout.IsBlank)

include hl

mutual

/-- **The text of a value that is told exactly denotes the value.** -/
theorem denotes_chars (v : Value) (hv : v.isExact) (depth : Nat) :
    Denotes (chars layout depth v) v := by
  cases v with
  | null => exact .null
  | bool b => exact .bool b
  | int n => exact .number (numeral_integerChars (of_decide_eq_true hv))
  | text s => exact .string (literal_writeString s)
  | list vs =>
    cases vs with
    | nil => exact .emptyList blanks_nil
    | cons w ws =>
      exact .list (denotes_itemsChars (w :: ws) hv (List.cons_ne_nil w ws) (depth + 1)
        (blanks_iff.mpr (hl.1 depth)))
  | object ms =>
    rw [Value.isExact, Bool.and_eq_true] at hv
    have hsettles : Members.Settles ms ms := Members.settles_of_nodup (of_decide_eq_true hv.1)
    cases ms with
    | nil => exact .emptyObject blanks_nil
    | cons m ms =>
      exact .object (denotes_membersChars (m :: ms) hv.2 (List.cons_ne_nil m ms) (depth + 1)
        (blanks_iff.mpr (hl.1 depth))) hsettles
  | real x => cases hv
  | time t => cases hv
  | bytes bs => cases hv

/-- The items of a list denote its values, with blanks behind the last one. -/
theorem denotes_itemsChars (vs : List Value) (h : areExact vs) (hne : vs ≠ []) (depth : Nat)
    {close : List Char} (hclose : Blanks close) :
    DenotesItems (itemsChars layout depth vs ++ close) vs := by
  cases vs with
  | nil => exact absurd rfl hne
  | cons v vs =>
    rw [areExact, Bool.and_eq_true] at h
    have hvalue := denotes_chars v h.1 depth
    have hbreak := blanks_iff.mpr (hl.1 depth)
    cases vs with
    | nil =>
      have hlast := DenotesItems.last (.mk hbreak hvalue hclose)
      rwa [itemsChars, List.isEmpty_nil, if_pos rfl, List.append_nil, List.append_assoc]
    | cons w ws =>
      have hrest := denotes_itemsChars (w :: ws) h.2 (List.cons_ne_nil w ws) depth hclose
      have hmore := DenotesItems.more (.mk hbreak hvalue blanks_nil) hrest
      rw [List.append_nil] at hmore
      rwa [itemsChars, List.isEmpty_cons, if_neg Bool.false_ne_true, List.append_assoc,
        List.cons_append]

/-- The members of an object denote its names and values, with blanks behind the last one. -/
theorem denotes_membersChars (ms : List (String × Value)) (h : holdExact ms) (hne : ms ≠ [])
    (depth : Nat) {close : List Char} (hclose : Blanks close) :
    DenotesMembers (membersChars layout depth ms ++ close) ms := by
  cases ms with
  | nil => exact absurd rfl hne
  | cons m ms =>
    obtain ⟨name, v⟩ := m
    rw [holdExact, Bool.and_eq_true] at h
    have hvalue := denotes_chars v h.1 depth
    -- one member, with blanks behind its value
    have hmember {after : List Char} (hafter : Blanks after) :
        DenotesMember (layout.lineBreak depth ++ (writeString name ++
          ':' :: (layout.afterColon ++ (chars layout depth v ++ after)))) (name, v) := by
      have h := DenotesMember.mk (blanks_iff.mpr (hl.1 depth)) (literal_writeString name) blanks_nil
        (.mk (blanks_iff.mpr hl.2) hvalue hafter)
      simpa only [writeString, List.cons_append, List.append_assoc, List.nil_append] using h
    cases ms with
    | nil =>
      have hlast := DenotesMembers.last (hmember hclose)
      simpa only [membersChars, List.isEmpty_nil, if_true, List.append_nil, List.append_assoc,
        List.cons_append] using hlast
    | cons m ms =>
      have hrest := denotes_membersChars (m :: ms) h.2 (List.cons_ne_nil m ms) depth hclose
      have hmore := DenotesMembers.more (hmember blanks_nil) hrest
      simpa only [membersChars, List.isEmpty_cons, Bool.false_eq_true, if_false, List.append_nil,
        List.append_assoc, List.cons_append] using hmore

end

/-- **The text of a value that is told exactly is read as the value.** -/
theorem readText_chars {v : Value} (hv : v.isExact) (depth : Nat) :
    readText (chars layout depth v) = .ok v := by
  have hpadded := Padded.behind (denotes_chars hl v hv depth) blanks_nil
  rw [List.append_nil] at hpadded
  exact readText_eq_ok_iff.mpr hpadded

end Denotes

end Json

end IamInventory
