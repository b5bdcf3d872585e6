import Mathlib.Data.List.Induction
import IamInventory.Json.Reader

/-!
# The grammar of JSON — which texts denote which values

  The grammar is told by relations between texts and values, one for each phrase, and knows nothing
  of a reader: no place in a text, no text left over, no order in which to try things. It is the
  grammar of the standard with the names of the numbers that are not finite besides, and with a
  limit on the digits of an integer.

* **`Json.Numeral`**, **`Json.Literal`** — numbers and strings.
* **`Members.Settles`** — what pairs of names and values come to where a name comes twice.
* **`Json.Denotes`** — values, and **`Json.Padded`** — values between blanks, as whole texts are.
* **`Members.settles_ofPairs`**, **`Members.eq_ofPairs_of_settles`** — putting pairs in one after
  another is the one thing that they come to.
-/

namespace IamInventory

open Number Text

namespace Json

/-! ## Blanks and numbers -/

/-- Spaces, tabs, line feeds and carriage returns, or nothing. -/
def Blanks (cs : List Char) : Prop := ∀ c ∈ cs, c = ' ' ∨ c = '\t' ∨ c = '\n' ∨ c = '\r'

/-- Decimal digits, at least one. -/
def Digits (cs : List Char) : Prop := cs ≠ [] ∧ ∀ c ∈ cs, c.isDigit

/-- A minus sign, or nothing. -/
inductive Minus : List Char → Bool → Prop where
  | absent : Minus [] false
  | present : Minus ['-'] true

/-- The whole part of a number: a zero, or digits that start with another one. -/
inductive Whole : List Char → Prop where
  | zero : Whole ['0']
  | positive {c : Char} {ds : List Char} :
      c.isDigit → c ≠ '0' → (∀ d ∈ ds, d.isDigit) → Whole (c :: ds)

/-- The fraction of a number with its digits, or nothing. -/
inductive Fraction : List Char → List Char → Prop where
  | absent : Fraction [] []
  | present {ds : List Char} : Digits ds → Fraction ('.' :: ds) ds

/-- The power of ten of a number, or nothing. -/
inductive Power : List Char → Int → Prop where
  | absent : Power [] 0
  | plain {e : Char} {ds : List Char} :
      e = 'e' ∨ e = 'E' → Digits ds → Power (e :: ds) (signedDigits false ds)
  | plus {e : Char} {ds : List Char} :
      e = 'e' ∨ e = 'E' → Digits ds → Power (e :: '+' :: ds) (signedDigits false ds)
  | minus {e : Char} {ds : List Char} :
      e = 'e' ∨ e = 'E' → Digits ds → Power (e :: '-' :: ds) (signedDigits true ds)

/-- **A text is a number**: an integer of at most 4300 digits, or a floating-point number if it has
    a fraction or a power of ten. -/
inductive Numeral : List Char → Value → Prop where
  | integer {m ds : List Char} {negative : Bool} :
      Minus m negative → Whole ds → ds.length ≤ 4300 →
      Numeral (m ++ ds) (.int (signedDigits negative ds))
  | real {m ds f places p : List Char} {negative : Bool} {power : Int} :
      Minus m negative → Whole ds → Fraction f places → Power p power → f ++ p ≠ [] →
      Numeral (m ++ (ds ++ (f ++ p)))
        (.real (Scientific.value ⟨negative, ds ++ places, power - places.length⟩))

/-! ## Strings -/

/-- The letters that stand for a character after a backslash. -/
def letters : List (Char × Char) :=
  [('"', '"'), ('\\', '\\'), ('/', '/'), ('b', '\x08'), ('f', '\x0c'), ('n', '\n'), ('r', '\r'),
   ('t', '\t')]

/-- What stands between two quotation marks, and the sixteen-bit codes or code points that it
    names. -/
inductive Units : List Char → List Nat → Prop where
  | nil : Units [] []
  | char {c : Char} {cs : List Char} {ns : List Nat} :
      c ≠ '"' → c ≠ '\\' → 0x20 ≤ c.toNat → Units cs ns → Units (c :: cs) (c.toNat :: ns)
  | letter {e x : Char} {cs : List Char} {ns : List Nat} :
      (e, x) ∈ letters → Units cs ns → Units ('\\' :: e :: cs) (x.toNat :: ns)
  | code {h₁ h₂ h₃ h₄ : Char} {i j k l : Nat} {cs : List Char} {ns : List Nat} :
      hexDigit? h₁ = some i → hexDigit? h₂ = some j → hexDigit? h₃ = some k →
      hexDigit? h₄ = some l → Units cs ns →
      Units ('\\' :: 'u' :: h₁ :: h₂ :: h₃ :: h₄ :: cs) ((((i * 16 + j) * 16 + k) * 16 + l) :: ns)

/-- Codes with the two halves of every pair made the code point of the pair. -/
def joined : List Nat → List Nat
  | high :: low :: ns =>
    if isHighHalf high && isLowHalf low then
      (0x10000 + (high - 0xD800) * 0x400 + (low - 0xDC00)) :: joined ns
    else high :: joined (low :: ns)
  | ns => ns

/-- **What stands between two quotation marks is a text.** A half without its partner is no
    character; the replacement character stands for it. -/
def Literal (cs : List Char) (s : String) : Prop :=
  ∃ ns, Units cs ns ∧ s = String.ofList ((joined ns).map codeChar)

end Json

/-- **What pairs of names and values come to as members**: every name is there once, at its first
    place and with its last value. -/
structure Members.Settles (ps : List (String × Value)) (ms : Members) : Prop where
  first : ms.names = (Members.names ps).eraseDups
  last : ∀ m ∈ ms, ps.reverse.find? (fun p => p.1 = m.1) = some m

namespace Json

/-! ## Values -/

mutual

/-- **A text denotes a value.** -/
inductive Denotes : List Char → Value → Prop where
  | null : Denotes "null".toList .null
  | bool (b : Bool) : Denotes (if b then "true".toList else "false".toList) (.bool b)
  | nan : Denotes "NaN".toList (.real .nan)
  | infinity (negative : Bool) :
      Denotes (if negative then "-Infinity".toList else "Infinity".toList)
        (.real (.infinite negative))
  | number {cs : List Char} {v : Value} : Numeral cs v → Denotes cs v
  | string {cs : List Char} {s : String} : Literal cs s → Denotes ('"' :: (cs ++ ['"'])) (.text s)
  | emptyList {bs : List Char} : Blanks bs → Denotes ('[' :: (bs ++ [']'])) (.list [])
  | list {cs : List Char} {vs : List Value} :
      DenotesItems cs vs → Denotes ('[' :: (cs ++ [']'])) (.list vs)
  | emptyObject {bs : List Char} : Blanks bs → Denotes ('\x7b' :: (bs ++ ['\x7d'])) (.object [])
  | object {cs : List Char} {ps ms : Members} :
      DenotesMembers cs ps → Members.Settles ps ms →
      Denotes ('\x7b' :: (cs ++ ['\x7d'])) (.object ms)

/-- **A text is a value between blanks.** -/
inductive Padded : List Char → Value → Prop where
  | mk {as cs bs : List Char} {v : Value} :
      Blanks as → Denotes cs v → Blanks bs → Padded (as ++ (cs ++ bs)) v

/-- A text is values with commas between them, at least one. -/
inductive DenotesItems : List Char → List Value → Prop where
  | last {cs : List Char} {v : Value} : Padded cs v → DenotesItems cs [v]
  | more {cs rest : List Char} {v : Value} {vs : List Value} :
      Padded cs v → DenotesItems rest vs → DenotesItems (cs ++ ',' :: rest) (v :: vs)

/-- A text is a name between blanks, a colon, and a value between blanks. -/
inductive DenotesMember : List Char → String × Value → Prop where
  | mk {as key bs cs : List Char} {name : String} {v : Value} :
      Blanks as → Literal key name → Blanks bs → Padded cs v →
      DenotesMember (as ++ '"' :: (key ++ '"' :: (bs ++ ':' :: cs))) (name, v)

/-- A text is members with commas between them, at least one. -/
inductive DenotesMembers : List Char → Members → Prop where
  | last {cs : List Char} {p : String × Value} : DenotesMember cs p → DenotesMembers cs [p]
  | more {cs rest : List Char} {p : String × Value} {ps : Members} :
      DenotesMember cs p → DenotesMembers rest ps → DenotesMembers (cs ++ ',' :: rest) (p :: ps)

end

end Json

/-! ## Members -/

namespace Members

theorem names_set (ms : Members) (name : String) (v : Value) :
    names (set ms name v) = if name ∈ names ms then names ms else names ms ++ [name] := by
  induction ms with
  | nil => rfl
  | cons m ms ih =>
    by_cases hm : m.1 = name
    · simp [set, names, hm]
    · have cons (m : String × Value) (ms : Members) : names (m :: ms) = m.1 :: names ms := rfl
      rw [set, if_neg hm, cons, cons, ih]
      simp only [List.mem_cons, or_iff_right (Ne.symm hm)]
      split <;> rfl

theorem mem_set {ms : Members} (h : (names ms).Nodup) {name : String} {v : Value}
    {m : String × Value} (hm : m ∈ set ms name v) : m = (name, v) ∨ m ∈ ms ∧ name ≠ m.1 := by
  induction ms with
  | nil => exact Or.inl (List.mem_singleton.mp hm)
  | cons x ms ih =>
    obtain ⟨hx, hms⟩ := List.nodup_cons.mp h
    rw [set] at hm
    split at hm
    · next hname =>
      rcases List.mem_cons.mp hm with rfl | hm
      · exact Or.inl rfl
      · refine Or.inr ⟨List.mem_cons_of_mem x hm, fun hne => hx ?_⟩
        rw [hname, hne]
        exact List.mem_map_of_mem hm
    · next hname =>
      rcases List.mem_cons.mp hm with rfl | hm
      · exact Or.inr ⟨List.mem_cons_self, Ne.symm hname⟩
      · rcases ih hms hm with h | ⟨h, hne⟩
        · exact Or.inl h
        · exact Or.inr ⟨List.mem_cons_of_mem x h, hne⟩

/-- **Putting in pairs one after another is what they come to.** -/
theorem settles_ofPairs (ps : List (String × Value)) :
    Settles ps (ofPairs ps) ∧ (names (ofPairs ps)).Nodup := by
  -- the induction is on the last pair, which is put in last
  induction ps using List.reverseRecOn with
  | nil => exact ⟨⟨rfl, List.forall_mem_nil _⟩, List.nodup_nil⟩
  | append_singleton ps p ih =>
    obtain ⟨⟨hfirst, hlast⟩, hnodup⟩ := ih
    have hset : ofPairs (ps ++ [p]) = set (ofPairs ps) p.1 p.2 := by
      rw [ofPairs, List.foldl_append]
      rfl
    have hmem : p.1 ∈ names (ofPairs ps) ↔ p.1 ∈ names ps := by
      rw [hfirst, List.mem_eraseDups]
    have hnames : names (ps ++ [p]) = names ps ++ [p.1] := List.map_append
    rw [hset]
    refine ⟨⟨?_, ?_⟩, ?_⟩
    · rw [names_set, hnames, List.eraseDups_append, ← hfirst]
      by_cases h : p.1 ∈ names ps
      · simp [hmem, h, List.removeAll]
      · simp [hmem, h, List.removeAll, List.eraseDups_cons]
    · intro m hm
      rw [List.reverse_append, List.reverse_singleton, List.singleton_append, List.find?_cons]
      rcases mem_set hnodup hm with rfl | ⟨hm, hne⟩
      · simp
      · simp only [hne, decide_false]
        exact hlast m hm
    · rw [names_set]
      split
      · exact hnodup
      · next h =>
        refine List.nodup_append.mpr
          ⟨hnodup, List.pairwise_singleton _ _, fun a ha b hb hab => h ?_⟩
        rw [← List.mem_singleton.mp hb, ← hab]
        exact ha

theorem set_of_new {ms : Members} {name : String} (h : name ∉ names ms) (v : Value) :
    set ms name v = ms ++ [(name, v)] := by
  induction ms with
  | nil => rfl
  | cons m ms ih =>
    obtain ⟨hm, hms⟩ := List.ne_and_not_mem_of_not_mem_cons h
    rw [set, if_neg (Ne.symm hm), ih hms, List.cons_append]

/-- **Members of which no name comes twice are what results from putting them in.** -/
theorem ofPairs_of_nodup {ms : Members} (h : (names ms).Nodup) : ofPairs ms = ms := by
  -- what has been put in stays in front
  have step (ms : Members) : ∀ done : Members, (names (done ++ ms)).Nodup →
      ms.foldl (fun ms p => set ms p.1 p.2) done = done ++ ms := by
    induction ms with
    | nil => exact fun done _ => (List.append_nil done).symm
    | cons m ms ih =>
      intro done hdone
      have hnew : m.1 ∉ names done := by
        intro hm
        rw [names, List.map_append, List.map_cons] at hdone
        exact (List.nodup_append.mp hdone).2.2 m.1 hm m.1 List.mem_cons_self rfl
      have hnext : done ++ m :: ms = (done ++ [m]) ++ ms := by
        rw [List.append_assoc, List.singleton_append]
      rw [List.foldl_cons, set_of_new hnew, hnext]
      exact ih (done ++ [m]) (hnext ▸ hdone)
  exact step ms [] h

/-- Members of which no name comes twice come to themselves. -/
theorem settles_of_nodup {ms : Members} (h : (names ms).Nodup) : Settles ms ms := by
  have hsettles := (settles_ofPairs ms).1
  rwa [ofPairs_of_nodup h] at hsettles

/-- **What pairs come to is determined.** -/
theorem eq_ofPairs_of_settles {ps : List (String × Value)} {ms : Members} (h : Settles ps ms) :
    ms = ofPairs ps := by
  -- a member is told by its name, and both have the same names in the same order
  have told {ms : Members} (h : Settles ps ms) :
      ms = (names ms).map fun name => (ps.reverse.find? fun p => p.1 = name).getD ("", .null) := by
    rw [names, List.map_map]
    refine (List.map_id ms).symm.trans (List.map_congr_left fun m hm => ?_)
    simp only [Function.comp, h.last m hm]
    rfl
  have hpairs := (settles_ofPairs ps).1
  rw [told h, told hpairs, h.first, hpairs.first]

end Members

end IamInventory
