import IamInventory.Json.Reader

/-!
# Steps of the JSON reader — one phrase at the front of a text

  Before anything is said about whole texts, what the reader does with the front of one: the blanks,
  a run of digits, and one layer of a list or of an object, given what the parts of it are read as.

* **`Json.EndsNumber`** — whether a text does not go on with a number that comes before it.
* **`Json.StartsValue`** — what the text of a value starts with.
* **`Json.readValue_list`**, **`Json.readItems_last`**, **`Json.readItems_more`** and their like for
  objects — one step of each part of the reader.
-/

namespace IamInventory.Json

open Number Text

/-! ## Where numbers end -/

/-- Whether a text does not go on with a number that comes before it. -/
def EndsNumber : List Char → Prop
  | [] => True
  | c :: _ => c.isDigit = false ∧ c ≠ '.' ∧ c ≠ 'e' ∧ c ≠ 'E'

theorem endsNumber_cons {c : Char} (h : c.isDigit = false ∧ c ≠ '.' ∧ c ≠ 'e' ∧ c ≠ 'E')
    (cs : List Char) : EndsNumber (c :: cs) := h

/-- Whether a text does not go on with a digit. -/
def EndsDigits : List Char → Prop
  | [] => True
  | c :: _ => c.isDigit = false

theorem EndsNumber.endsDigits {cs : List Char} (h : EndsNumber cs) : EndsDigits cs := by
  cases cs with
  | nil => trivial
  | cons c cs => exact h.1

theorem takeDigits_append {ds rest : List Char} (hds : ∀ c ∈ ds, c.isDigit)
    (hr : EndsDigits rest) : Scientific.takeDigits (ds ++ rest) = (ds, rest) := by
  have hhead : rest.takeWhile Char.isDigit = [] ∧ rest.dropWhile Char.isDigit = rest := by
    cases rest with
    | nil => exact ⟨rfl, rfl⟩
    | cons c cs => simp [show c.isDigit = false from hr]
  rw [Scientific.takeDigits, List.takeWhile_append_of_pos hds, List.dropWhile_append_of_pos hds,
    hhead.1, hhead.2, List.append_nil]

theorem takeFraction?_of_endsNumber {rest : List Char} (hr : EndsNumber rest) :
    takeFraction? rest = none := by
  simp only [takeFraction?]
  split
  · exact absurd rfl hr.2.1
  · rfl

theorem takePower?_of_endsNumber {rest : List Char} (hr : EndsNumber rest) :
    takePower? rest = none := by
  cases rest with
  | nil => rfl
  | cons c cs => rw [takePower?, if_neg (not_or.mpr ⟨hr.2.2.1, hr.2.2.2⟩)]

/-- A digit is no character that is none. -/
theorem ne_of_isDigit {c d : Char} (hc : c.isDigit) (hd : d.isDigit = false) : c ≠ d := by
  rintro rfl
  exact Bool.false_ne_true (hd.symm.trans hc)

theorem beq_false_of_isDigit {c d : Char} (hc : c.isDigit) (hd : d.isDigit = false) :
    (d == c) = false := beq_false_of_ne (ne_of_isDigit hc hd).symm

/-! ## Blanks -/

theorem isSpace_cases {c : Char} (h : isSpace c) : c = ' ' ∨ c = '\t' ∨ c = '\n' ∨ c = '\r' := by
  simpa only [isSpace, Bool.or_eq_true, decide_eq_true_eq, or_assoc] using h

theorem skipSpace_append {bs : List Char} (h : ∀ c ∈ bs, isSpace c) (cs : List Char) :
    skipSpace (bs ++ cs) = skipSpace cs := List.dropWhile_append_of_pos h

theorem skipSpace_cons {c : Char} (h : isSpace c = false) (cs : List Char) :
    skipSpace (c :: cs) = c :: cs := by
  rw [skipSpace, List.dropWhile_cons_of_neg (by rw [h]; exact Bool.false_ne_true)]

/-- Blanks end a number, and so does what they leave to end it. -/
theorem endsNumber_append {bs cs : List Char} (h : ∀ c ∈ bs, isSpace c) (hcs : EndsNumber cs) :
    EndsNumber (bs ++ cs) := by
  cases bs with
  | nil => exact hcs
  | cons b bs =>
    rcases isSpace_cases (h b List.mem_cons_self) with rfl | rfl | rfl | rfl <;>
      exact endsNumber_cons (by decide) _

/-- What a value's text starts with: no blank, no closing bracket or brace, no byte order mark. -/
def StartsValue (c : Char) : Prop :=
  isSpace c = false ∧ c ≠ ']' ∧ c ≠ '\x7d' ∧ c ≠ '\uFEFF'

instance (c : Char) : Decidable (StartsValue c) := inferInstanceAs (Decidable (_ ∧ _))

theorem startsValue_of_isDigit {c : Char} (h : c.isDigit) : StartsValue c := by
  have ne {d : Char} (hd : d.isDigit = false) : c ≠ d := ne_of_isDigit h hd
  refine ⟨?_, ne rfl, ne rfl, ne rfl⟩
  simp only [isSpace, ne (d := ' ') rfl, ne (d := '\t') rfl, ne (d := '\n') rfl,
    ne (d := '\r') rfl, decide_false, Bool.or_self]

/-! ## Words and numbers -/

/-- No word that is a value starts as a number does. -/
theorem find?_words_of_isDigit {c : Char} (hc : c.isDigit) {cs text : List Char}
    (h : text = c :: cs ∨ text = '-' :: c :: cs) :
    (words.find? fun w => w.1.isPrefixOf text) = none := by
  rcases h with rfl | rfl
  · simp [words, List.isPrefixOf, beq_false_of_isDigit hc]
  · simp [words, List.isPrefixOf, beq_false_of_isDigit hc]

/-- A word that is a value is read as the value. -/
theorem readValue_word {w : List Char × Value} (h : w ∈ words) (n : Nat) (rest : List Char) :
    readValue (n + 1) (w.1 ++ rest) = .ok (w.2, rest) := by
  simp only [words, List.mem_cons, List.not_mem_nil, or_false] at h
  rcases h with rfl | rfl | rfl | rfl | rfl | rfl <;>
    simp [readValue, readPlain, words, List.isPrefixOf]

/-- A text that starts neither a string nor a list nor an object is read as such. -/
theorem readValue_plain {c : Char} (h : c ≠ '"' ∧ c ≠ '[' ∧ c ≠ '\x7b') (n : Nat)
    (cs : List Char) : readValue (n + 1) (c :: cs) = readPlain (c :: cs) := by
  rw [readValue, if_neg h.1, if_neg h.2.1, if_neg h.2.2]

/-! ## Lists and objects -/

/-- A list that is not empty is its items. -/
theorem readValue_list {n : Nat} {cs inside : List Char} (h : skipSpace cs = inside)
    (hne : ∀ rest, inside ≠ ']' :: rest) :
    readValue (n + 1) ('[' :: cs) = (readItems n inside).map fun p => (.list p.1, p.2) := by
  subst h
  rw [readValue, if_neg (by decide), if_pos rfl]
  split
  · next rest heq => exact absurd heq (hne rest)
  · cases readItems n (skipSpace cs) <;> rfl

/-- An object that is not empty is what results from putting in its members. -/
theorem readValue_object {n : Nat} {cs inside : List Char} (h : skipSpace cs = inside)
    (hne : ∀ rest, inside ≠ '\x7d' :: rest) :
    readValue (n + 1) ('\x7b' :: cs) =
      (readMembers n inside).map fun p => (.object (Members.ofPairs p.1), p.2) := by
  subst h
  rw [readValue, if_neg (by decide), if_neg (by decide), if_pos rfl]
  split
  · next rest heq => exact absurd heq (hne rest)
  · cases readMembers n (skipSpace cs) <;> rfl

/-- The last item of a list. -/
theorem readItems_last {n : Nat} {cs rest rest' : List Char} {v : Value}
    (hv : readValue n cs = .ok (v, rest)) (hr : skipSpace rest = ']' :: rest') :
    readItems (n + 1) cs = .ok ([v], rest') := by
  rw [readItems, hv]
  simp only [bind, Except.bind, hr]

/-- An item of a list that another one follows. -/
theorem readItems_more {n : Nat} {cs rest rest' : List Char} {v : Value}
    (hv : readValue n cs = .ok (v, rest)) (hr : skipSpace rest = ',' :: rest') :
    readItems (n + 1) cs = (readItems n (skipSpace rest')).map fun p => (v :: p.1, p.2) := by
  rw [readItems, hv]
  simp only [bind, Except.bind, hr]
  cases readItems n (skipSpace rest') <;> rfl

section Members

variable {n : Nat} {cs afterName afterColon rest rest' : List Char} {name : String} {v : Value}

/-- The last member of an object. -/
theorem readMembers_last (hname : ∀ opening, readString opening [] cs = .ok (name, afterName))
    (hcolon : skipSpace afterName = ':' :: afterColon)
    (hv : readValue n (skipSpace afterColon) = .ok (v, rest))
    (hr : skipSpace rest = '\x7d' :: rest') :
    readMembers (n + 1) ('"' :: cs) = .ok ([(name, v)], rest') := by
  rw [readMembers]
  simp only [hname, bind, Except.bind, hcolon, hv, hr]

/-- A member of an object that another one follows. -/
theorem readMembers_more (hname : ∀ opening, readString opening [] cs = .ok (name, afterName))
    (hcolon : skipSpace afterName = ':' :: afterColon)
    (hv : readValue n (skipSpace afterColon) = .ok (v, rest))
    (hr : skipSpace rest = ',' :: rest') :
    readMembers (n + 1) ('"' :: cs) =
      (readMembers n (skipSpace rest')).map fun p => ((name, v) :: p.1, p.2) := by
  rw [readMembers]
  simp only [hname, bind, Except.bind, hcolon, hv, hr]
  cases readMembers n (skipSpace rest') <;> rfl

end Members

end IamInventory.Json
