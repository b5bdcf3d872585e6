import IamInventory.Proofs.JsonGrammar
import IamInventory.Proofs.JsonSteps

/-!
# Reading JSON — the reader finds what the grammar derives, and nothing else

  The reader takes phrases off the front of a text. Both directions are told for one phrase with
  anything behind it: what has been taken off is derived by the grammar, and what the grammar
  derives is taken off as a whole. The second one needs that what is behind a number does not go on
  with it, which holds wherever the grammar lets a number end.

* **`Json.readNumber?_numeral`**, **`Json.numeral_of_readNumber?`** — numbers.
* **`Json.readString_units`**, **`Json.units_of_readString`** — strings.
* **`Json.takesOff`**, **`Json.finds`** — values, items and members, in any number of steps.
* **`Json.readText_eq_ok_iff`** — a whole text is read as a value exactly if the grammar derives it.
-/

namespace IamInventory.Json

open Number Text

/-! ## Blanks -/

theorem blanks_iff {cs : List Char} : Blanks cs ↔ ∀ c ∈ cs, isSpace c := by
  simp only [Blanks, isSpace, Bool.or_eq_true, decide_eq_true_eq, or_assoc]

/-- The text from the first token on comes after blanks. -/
theorem skipSpace_spec (cs : List Char) : ∃ bs, Blanks bs ∧ cs = bs ++ skipSpace cs :=
  ⟨cs.takeWhile isSpace, blanks_iff.mpr (List.all_eq_true.mp List.all_takeWhile),
    List.takeWhile_append_dropWhile.symm⟩

theorem skipSpace_blanks {bs : List Char} (h : Blanks bs) (cs : List Char) :
    skipSpace (bs ++ cs) = skipSpace cs := skipSpace_append (blanks_iff.mp h) cs

theorem blanks_nil : Blanks [] := List.forall_mem_nil _

theorem Blanks.append {as bs : List Char} (ha : Blanks as) (hb : Blanks bs) : Blanks (as ++ bs) :=
  List.forall_mem_append.mpr ⟨ha, hb⟩

/-! ## Numbers that have been read -/

theorem minus_takeMinus (text : List Char) :
    ∃ m, Minus m (takeMinus text).1 ∧ text = m ++ (takeMinus text).2 := by
  simp only [takeMinus]
  split
  · exact ⟨_, .present, rfl⟩
  · exact ⟨_, .absent, rfl⟩

theorem takeDigits_spec (cs : List Char) :
    (∀ c ∈ (Scientific.takeDigits cs).1, c.isDigit) ∧
      cs = (Scientific.takeDigits cs).1 ++ (Scientific.takeDigits cs).2 :=
  ⟨List.all_eq_true.mp List.all_takeWhile, List.takeWhile_append_dropWhile.symm⟩

theorem whole_of_takeWhole? {cs ds rest : List Char} (h : takeWhole? cs = some (ds, rest)) :
    Whole ds ∧ cs = ds ++ rest := by
  cases cs with
  | nil => cases h
  | cons c cs =>
    rw [takeWhole?] at h
    split at h
    · next hc =>
      cases h
      exact ⟨hc ▸ .zero, rfl⟩
    · next hc =>
      split at h
      · next hd =>
        obtain ⟨hds, hsplit⟩ := takeDigits_spec (c :: cs)
        have hfirst : (Scientific.takeDigits (c :: cs)).1 = c :: cs.takeWhile Char.isDigit :=
          List.takeWhile_cons_of_pos hd
        rw [Option.some.inj h] at hds hsplit hfirst
        obtain rfl : ds = c :: cs.takeWhile Char.isDigit := hfirst
        exact ⟨.positive hd hc fun d hd => hds d (List.mem_cons_of_mem c hd), hsplit⟩
      · cases h

/-- A fraction that has been taken off, or nothing. -/
theorem fraction_takeFraction? (cs : List Char) :
    ∃ f, Fraction f (((takeFraction? cs).map Prod.fst).getD []) ∧
      cs = f ++ ((takeFraction? cs).map Prod.snd).getD cs ∧
      (f = [] ↔ (takeFraction? cs).isNone) := by
  rcases h : takeFraction? cs with _ | ⟨ds, rest⟩
  · exact ⟨[], .absent, rfl, by simp⟩
  · simp only [takeFraction?] at h
    split at h
    · next cs =>
      obtain ⟨hds, hsplit⟩ := takeDigits_spec cs
      split at h
      · cases h
      · next hne =>
        obtain ⟨rfl, rfl⟩ := Prod.mk.inj (Option.some.inj h)
        exact ⟨_, .present ⟨hne, hds⟩, congrArg _ hsplit, by simp⟩
    · cases h

/-- A power of ten that has been taken off, or nothing. -/
theorem power_takePower? (cs : List Char) :
    ∃ p, Power p (((takePower? cs).map Prod.fst).getD 0) ∧
      cs = p ++ ((takePower? cs).map Prod.snd).getD cs ∧ (p = [] ↔ (takePower? cs).isNone) := by
  rcases h : takePower? cs with _ | ⟨power, rest⟩
  · exact ⟨[], .absent, rfl, by simp⟩
  · cases cs with
    | nil => cases h
    | cons e cs =>
      rw [takePower?] at h
      split at h
      · next he =>
        obtain ⟨hds, hsplit⟩ := takeDigits_spec (takeSign cs).2
        dsimp only at h
        split at h
        · cases h
        · next hne =>
          obtain ⟨rfl, rfl⟩ := Prod.mk.inj (Option.some.inj h)
          -- the sign is a minus, a plus, or none
          generalize hsign : takeSign cs = sign at hds hsplit hne ⊢
          simp only [takeSign] at hsign
          split at hsign
          · subst hsign
            exact ⟨_, .minus he ⟨hne, hds⟩, congrArg (fun l => e :: '-' :: l) hsplit, by simp⟩
          · subst hsign
            exact ⟨_, .plus he ⟨hne, hds⟩, congrArg (fun l => e :: '+' :: l) hsplit, by simp⟩
          · subst hsign
            exact ⟨_, .plain he ⟨hne, hds⟩, congrArg (e :: ·) hsplit, by simp⟩
      · cases h

/-- **A number that has been read is one.** -/
theorem numeral_of_readNumber? {text rest : List Char} {v : Value}
    (h : readNumber? text = some (.ok (v, rest))) :
    ∃ front, Numeral front v ∧ text = front ++ rest := by
  obtain ⟨m, hm, htext⟩ := minus_takeMinus text
  simp only [readNumber?, Option.bind_eq_bind, Option.bind_eq_some_iff] at h
  obtain ⟨⟨ds, after⟩, hwhole, h⟩ := h
  obtain ⟨hds, hsplit⟩ := whole_of_takeWhole? hwhole
  obtain ⟨f, hf, hafter, hfnone⟩ := fraction_takeFraction? after
  obtain ⟨p, hp, hrest, hpnone⟩ :=
    power_takePower? (((takeFraction? after).map Prod.snd).getD after)
  split at h
  -- neither a fraction nor a power: an integer, unless it has too many digits
  · split at h
    · cases h
    · next hlength =>
      cases h
      refine ⟨m ++ ds, .integer hm hds (Nat.not_lt.mp hlength), ?_⟩
      rw [htext, hsplit, List.append_assoc]
  · next hsome =>
    cases h
    refine ⟨_, .real hm hds hf hp ?_, ?_⟩
    · rw [Ne, List.append_eq_nil_iff, hfnone, hpnone]
      exact hsome
    · rw [List.append_assoc, List.append_assoc, List.append_assoc, ← hrest, ← hafter, ← hsplit,
        ← htext]

/-! ## Numbers that are to be read -/

theorem Whole.start {ds : List Char} (h : Whole ds) : ∃ c cs, ds = c :: cs ∧ c.isDigit := by
  cases h with
  | zero => exact ⟨'0', [], rfl, rfl⟩
  | positive hc _ _ => exact ⟨_, _, rfl, hc⟩

theorem Digits.start {ds : List Char} (h : Digits ds) : ∃ c cs, ds = c :: cs ∧ c.isDigit := by
  obtain ⟨c, cs, rfl⟩ := List.exists_cons_of_ne_nil h.1
  exact ⟨c, cs, rfl, h.2 c List.mem_cons_self⟩

theorem takeMinus_append {m ds rest : List Char} {negative : Bool} (hm : Minus m negative)
    (hds : Whole ds) : takeMinus (m ++ (ds ++ rest)) = (negative, ds ++ rest) := by
  obtain ⟨c, cs, rfl, hc⟩ := hds.start
  cases hm with
  | present => rfl
  | absent =>
    simp only [List.nil_append, List.cons_append, takeMinus]
    split
    · next heq =>
      cases heq
      exact absurd hc (by decide)
    · rfl

theorem takeWhole?_append {ds rest : List Char} (h : Whole ds) (hr : EndsDigits rest) :
    takeWhole? (ds ++ rest) = some (ds, rest) := by
  cases h with
  | zero => rfl
  | positive hc hzero hds =>
    have htake := takeDigits_append (List.forall_mem_cons.mpr ⟨hc, hds⟩) hr
    rw [List.cons_append] at htake ⊢
    rw [takeWhole?, if_neg hzero, if_pos hc, htake]

theorem takeFraction?_append {f places rest : List Char} (h : Fraction f places)
    (hr : EndsDigits rest) (hdot : ∀ cs, rest ≠ '.' :: cs) :
    ((takeFraction? (f ++ rest)).map Prod.fst).getD [] = places ∧
      ((takeFraction? (f ++ rest)).map Prod.snd).getD (f ++ rest) = rest ∧
      ((takeFraction? (f ++ rest)).isNone ↔ f = []) := by
  cases h with
  | absent =>
    have hnone : takeFraction? rest = none := takeFraction?.eq_2 rest hdot
    simp [hnone]
  | present hds =>
    have hsome : takeFraction? ('.' :: (places ++ rest)) = some (places, rest) := by
      simp only [takeFraction?, takeDigits_append hds.2 hr, if_neg hds.1]
    simp [hsome]

theorem takePower?_append {p rest : List Char} {power : Int} (h : Power p power)
    (hr : EndsNumber rest) :
    ((takePower? (p ++ rest)).map Prod.fst).getD 0 = power ∧
      ((takePower? (p ++ rest)).map Prod.snd).getD (p ++ rest) = rest ∧
      ((takePower? (p ++ rest)).isNone ↔ p = []) := by
  -- the letter, a sign that is known, and digits
  have hsome {e : Char} {ds : List Char} {negative : Bool} (he : e = 'e' ∨ e = 'E')
      (hds : Digits ds) (cs : List Char) (hsign : takeSign cs = (negative, ds ++ rest)) :
      takePower? (e :: cs) = some (signedDigits negative ds, rest) := by
    simp only [takePower?, he, if_true, hsign, takeDigits_append hds.2 hr.endsDigits,
      if_neg hds.1]
  cases h with
  | absent => simp [takePower?_of_endsNumber hr]
  | plus he hds => simp [hsome he hds ('+' :: (_ ++ rest)) rfl]
  | minus he hds => simp [hsome he hds ('-' :: (_ ++ rest)) rfl]
  | @plain e ds he hds =>
    have hsign : takeSign (ds ++ rest) = (false, ds ++ rest) := by
      obtain ⟨c, cs, rfl, hc⟩ := hds.start
      simp only [List.cons_append, takeSign]
      split
      · next heq =>
        cases heq
        exact absurd hc (by decide)
      · next heq =>
        cases heq
        exact absurd hc (by decide)
      · rfl
    simp [hsome he hds _ hsign]

/-- A power of ten, and what does not go on with a number, is no digit and no point. -/
theorem Power.ends {p rest : List Char} {power : Int} (h : Power p power) (hr : EndsNumber rest) :
    EndsDigits (p ++ rest) ∧ ∀ cs, p ++ rest ≠ '.' :: cs := by
  have letter {e : Char} (he : e = 'e' ∨ e = 'E') (cs : List Char) :
      EndsDigits (e :: cs) ∧ ∀ ds, e :: cs ≠ '.' :: ds := by
    rcases he with rfl | rfl
    · exact ⟨rfl, fun ds h => by cases h⟩
    · exact ⟨rfl, fun ds h => by cases h⟩
  cases h with
  | absent =>
    refine ⟨hr.endsDigits, fun cs h => ?_⟩
    obtain rfl : rest = '.' :: cs := h
    exact hr.2.1 rfl
  | plain he => exact letter he _
  | plus he => exact letter he _
  | minus he => exact letter he _

theorem Fraction.ends {f places rest : List Char} (h : Fraction f places) (hr : EndsDigits rest) :
    EndsDigits (f ++ rest) := by
  cases h with
  | absent => exact hr
  | present => rfl

/-- **A number is read as a whole**, if what is behind it does not go on with it. -/
theorem readNumber?_numeral {cs rest : List Char} {v : Value} (h : Numeral cs v)
    (hr : EndsNumber rest) : readNumber? (cs ++ rest) = some (.ok (v, rest)) := by
  cases h with
  | integer hm hds hlength =>
    simp only [readNumber?, List.append_assoc, takeMinus_append hm hds,
      takeWhole?_append hds hr.endsDigits, takeFraction?_of_endsNumber hr,
      takePower?_of_endsNumber hr, Nat.not_lt.mpr hlength, maxDigits, Option.bind_eq_bind,
      Option.bind_some, Option.map_none, Option.getD_none, Option.isNone_none, and_self, if_true,
      if_false]
  | @real m ds f places p negative power hm hds hf hp hne =>
    obtain ⟨hdigits, hdot⟩ := hp.ends hr
    obtain ⟨hplaces, hafter, hfraction⟩ := takeFraction?_append hf hdigits hdot
    obtain ⟨hvalue, hrest, hpower⟩ := takePower?_append hp hr
    simp only [readNumber?, List.append_assoc, takeMinus_append hm hds,
      takeWhole?_append hds (hf.ends hdigits), Option.bind_eq_bind, Option.bind_some, hplaces,
      hafter, hvalue, hrest, hfraction, hpower]
    rw [if_neg fun h => hne (List.append_eq_nil_iff.mpr h)]

/-! ## Strings -/

theorem escaped?_eq_some_iff {e x : Char} : escaped? e = some x ↔ (e, x) ∈ letters := by
  constructor
  · intro h
    rw [escaped?] at h
    split at h
    · next he =>
      cases h
      rcases he with rfl | rfl | rfl <;> decide
    iterate 5
      split at h
      · next he =>
        cases h
        subst he
        decide
    · cases h
  · intro h
    simp only [letters, List.mem_cons, Prod.mk.injEq, List.not_mem_nil, or_false] at h
    rcases h with ⟨rfl, rfl⟩ | ⟨rfl, rfl⟩ | ⟨rfl, rfl⟩ | ⟨rfl, rfl⟩ | ⟨rfl, rfl⟩ | ⟨rfl, rfl⟩ |
      ⟨rfl, rfl⟩ | ⟨rfl, rfl⟩ <;> rfl

theorem code?_eq_some_iff {h₁ h₂ h₃ h₄ : Char} {n : Nat} : code? h₁ h₂ h₃ h₄ = some n ↔
    ∃ i j k l, hexDigit? h₁ = some i ∧ hexDigit? h₂ = some j ∧ hexDigit? h₃ = some k ∧
      hexDigit? h₄ = some l ∧ ((i * 16 + j) * 16 + k) * 16 + l = n := by
  simp only [code?, Option.bind_eq_bind, Option.bind_eq_some_iff, Option.some.injEq]
  grind

theorem joined_cons {n : Nat} (h : isHighHalf n = false) (ns : List Nat) :
    joined (n :: ns) = n :: joined ns := by
  cases ns with
  | nil => rfl
  | cons m ns => rw [joined, h, Bool.false_and, if_neg Bool.false_ne_true]

/-- Codes put after others, with the halves of pairs joined, are joined codes. -/
theorem reverse_foldl_pushCode (n : Nat) (codes ns : List Nat) :
    (ns.foldl pushCode (n :: codes)).reverse = codes.reverse ++ joined (n :: ns) := by
  induction ns generalizing n codes with
  | nil => simp [joined]
  | cons m ns ih =>
    rw [List.foldl_cons, pushCode, joined]
    split
    · -- the code point of a pair is beyond the halves
      have hpair : isHighHalf (0x10000 + (n - 0xD800) * 0x400 + (m - 0xDC00)) = false := by
        simp only [isHighHalf, Bool.and_eq_false_iff, decide_eq_false_iff_not]
        omega
      rw [ih, joined_cons hpair]
    · rw [ih, List.reverse_cons, List.append_assoc, List.singleton_append]

theorem codesText_foldl_pushCode (ns : List Nat) :
    codesText (ns.foldl pushCode []) = String.ofList ((joined ns).map codeChar) := by
  cases ns with
  | nil => rfl
  | cons n ns =>
    rw [codesText, List.foldl_cons, pushCode, reverse_foldl_pushCode, List.reverse_nil,
      List.nil_append]

/-- **What has been read up to a closing mark stands between quotation marks.** -/
theorem units_of_readString {opening : Nat} {codes : List Nat} {cs rest : List Char} {s : String}
    (h : readString opening codes cs = .ok (s, rest)) :
    ∃ front ns, Units front ns ∧ cs = front ++ '"' :: rest ∧
      s = codesText (ns.foldl pushCode codes) := by
  fun_induction readString opening codes cs with
  | case2 codes cs =>
    cases h
    exact ⟨[], [], .nil, rfl, rfl⟩
  | case5 codes h₁ h₂ h₃ h₄ cs n hcode _ _ ih =>
    obtain ⟨i, j, k, l, hi, hj, hk, hl, rfl⟩ := code?_eq_some_iff.mp hcode
    obtain ⟨front, ns, hunits, rfl, rfl⟩ := ih h
    exact ⟨_, _, .code hi hj hk hl hunits, rfl, rfl⟩
  | case8 codes e cs _ x hx _ ih =>
    obtain ⟨front, ns, hunits, rfl, rfl⟩ := ih h
    exact ⟨_, _, .letter (escaped?_eq_some_iff.mp hx) hunits, rfl, rfl⟩
  | case11 codes c cs hquote hslash hc ih =>
    obtain ⟨front, ns, hunits, rfl, rfl⟩ := ih h
    exact ⟨_, _, .char hquote hslash (Nat.not_lt.mp hc) hunits, rfl, rfl⟩
  | _ => cases h

/-- **What stands between quotation marks is read up to the closing one.** -/
theorem readString_units {front : List Char} {ns : List Nat} (h : Units front ns) (opening : Nat)
    (codes : List Nat) (rest : List Char) :
    readString opening codes (front ++ '"' :: rest) =
      .ok (codesText (ns.foldl pushCode codes), rest) := by
  induction h generalizing codes with
  | nil =>
    rw [List.nil_append, readString.eq_def]
    rfl
  | char hquote hslash hc _ ih =>
    rw [List.cons_append, readString.eq_def]
    simp only [hquote, hslash, if_false, Nat.not_lt.mpr hc, ih, List.foldl_cons]
  | @letter e x cs ns hletter _ ih =>
    have hu : e ≠ 'u' := by
      rintro rfl
      cases escaped?_eq_some_iff.mpr hletter
    rw [List.cons_append, List.cons_append, readString.eq_def]
    simp only [Char.reduceEq, if_false, if_true, hu, escaped?_eq_some_iff.mpr hletter, ih,
      List.foldl_cons]
  | @code _ _ _ _ _ _ _ _ cs ns hi hj hk hl _ ih =>
    have hcode := code?_eq_some_iff.mpr ⟨_, _, _, _, hi, hj, hk, hl, rfl⟩
    have hmore : (cs ++ '"' :: rest).isEmpty = false := by simp
    simp only [List.cons_append]
    rw [readString.eq_def]
    simp only [Char.reduceEq, if_false, if_true, hcode, hmore, Bool.false_eq_true, ih,
      List.foldl_cons]

/-! ## Values that are neither strings nor lists nor objects -/

theorem denotes_of_mem_words {w : List Char × Value} (h : w ∈ words) : Denotes w.1 w.2 := by
  simp only [words, List.mem_cons, List.not_mem_nil, or_false] at h
  rcases h with rfl | rfl | rfl | rfl | rfl | rfl
  · exact .null
  · exact .bool true
  · exact .bool false
  · exact .nan
  · exact .infinity false
  · exact .infinity true

theorem denotes_of_readPlain {cs rest : List Char} {v : Value}
    (h : readPlain cs = .ok (v, rest)) : ∃ front, cs = front ++ rest ∧ Denotes front v := by
  rw [readPlain] at h
  split at h
  · next w hw =>
    cases h
    have hfront : w.1.isPrefixOf cs :=
      List.find?_some (p := fun w : List Char × Value => w.1.isPrefixOf cs) hw
    obtain ⟨rest, rfl⟩ := List.isPrefixOf_iff_prefix.mp hfront
    refine ⟨w.1, ?_, denotes_of_mem_words (List.mem_of_find?_eq_some hw)⟩
    rw [List.drop_left]
  · rcases hnumber : readNumber? cs with _ | result
    · rw [hnumber] at h
      cases h
    · rw [hnumber] at h
      obtain rfl : result = _ := h
      obtain ⟨front, hfront, hcs⟩ := numeral_of_readNumber? hnumber
      exact ⟨front, hcs, .number hfront⟩

/-- A number starts with a digit, maybe after a minus sign. -/
theorem Numeral.start {cs : List Char} {v : Value} (h : Numeral cs v) :
    ∃ c ds, c.isDigit ∧ (cs = c :: ds ∨ cs = '-' :: c :: ds) := by
  have front {m ds : List Char} {negative : Bool} (hm : Minus m negative) (hds : Whole ds)
      (rest : List Char) : ∃ c cs, c.isDigit ∧
        (m ++ (ds ++ rest) = c :: cs ∨ m ++ (ds ++ rest) = '-' :: c :: cs) := by
    obtain ⟨c, cs, rfl, hc⟩ := hds.start
    cases hm with
    | absent => exact ⟨c, cs ++ rest, hc, Or.inl rfl⟩
    | present => exact ⟨c, cs ++ rest, hc, Or.inr rfl⟩
  cases h with
  | @integer m ds negative hm hds _ => simpa using front hm hds []
  | real hm hds _ _ _ => exact front hm hds _

theorem readPlain_numeral {cs rest : List Char} {v : Value} (h : Numeral cs v)
    (hr : EndsNumber rest) : readPlain (cs ++ rest) = .ok (v, rest) := by
  have hwords : (words.find? fun w => w.1.isPrefixOf (cs ++ rest)) = none := by
    obtain ⟨c, ds, hc, hcs | hcs⟩ := h.start
    · exact find?_words_of_isDigit hc (Or.inl (congrArg (· ++ rest) hcs))
    · exact find?_words_of_isDigit hc (Or.inr (congrArg (· ++ rest) hcs))
  rw [readPlain, hwords, readNumber?_numeral h hr]
  rfl

/-! ## What has been read -/

theorem Padded.behind {cs bs : List Char} {v : Value} (h : Denotes cs v) (hbs : Blanks bs) :
    Padded (cs ++ bs) v := .mk blanks_nil h hbs

theorem Padded.prepend {as cs : List Char} {v : Value} (h : Padded cs v) (has : Blanks as) :
    Padded (as ++ cs) v := by
  obtain @⟨bs, cs, ds, v, hbs, hcs, hds⟩ := h
  rw [← List.append_assoc]
  exact .mk (has.append hbs) hcs hds

theorem DenotesItems.prepend {as cs : List Char} {vs : List Value} (h : DenotesItems cs vs)
    (has : Blanks as) : DenotesItems (as ++ cs) vs := by
  cases h with
  | last hv => exact .last (hv.prepend has)
  | more hv hvs =>
    rw [← List.append_assoc]
    exact .more (hv.prepend has) hvs

theorem DenotesMember.prepend {as cs : List Char} {p : String × Value} (h : DenotesMember cs p)
    (has : Blanks as) : DenotesMember (as ++ cs) p := by
  obtain @⟨bs, key, ds, cs, name, v, hbs, hkey, hds, hv⟩ := h
  rw [← List.append_assoc]
  exact .mk (has.append hbs) hkey hds hv

theorem DenotesMembers.prepend {as cs : List Char} {ps : Members} (h : DenotesMembers cs ps)
    (has : Blanks as) : DenotesMembers (as ++ cs) ps := by
  cases h with
  | last hp => exact .last (hp.prepend has)
  | more hp hps =>
    rw [← List.append_assoc]
    exact .more (hp.prepend has) hps

/-- What a number of steps takes off the front of a text is what the grammar derives: a value, the
    items of a list with its bracket, and the members of an object with its brace. -/
structure TakesOff (n : Nat) : Prop where
  value : ∀ {cs rest : List Char} {v : Value}, readValue n cs = .ok (v, rest) →
    ∃ front, cs = front ++ rest ∧ Denotes front v
  items : ∀ {cs rest : List Char} {vs : List Value}, readItems n cs = .ok (vs, rest) →
    ∃ front, cs = front ++ ']' :: rest ∧ DenotesItems front vs
  members : ∀ {cs rest : List Char} {ps : Members}, readMembers n cs = .ok (ps, rest) →
    ∃ front, cs = front ++ '\x7d' :: rest ∧ DenotesMembers front ps

theorem bind_eq_ok_iff {ε α β : Type} {x : Except ε α} {f : α → Except ε β} {b : β} :
    (x >>= f) = .ok b ↔ ∃ a, x = .ok a ∧ f a = .ok b := by
  cases x <;> simp [bind, Except.bind]

theorem takesOff_items {n : Nat} (h : TakesOff n) {cs rest : List Char} {vs : List Value}
    (hread : readItems (n + 1) cs = .ok (vs, rest)) :
    ∃ front, cs = front ++ ']' :: rest ∧ DenotesItems front vs := by
  rw [readItems] at hread
  obtain ⟨⟨v, after⟩, hv, hclose⟩ := bind_eq_ok_iff.mp hread
  obtain ⟨front, hcs, hfront⟩ := h.value hv
  obtain ⟨bs, hbs, hafter⟩ := skipSpace_spec after
  have hpadded : Padded (front ++ bs) v := .behind hfront hbs
  dsimp only at hclose
  split at hclose
  · next heq =>
    cases hclose
    refine ⟨_, ?_, .last hpadded⟩
    rw [hcs, List.append_assoc, ← heq, ← hafter]
  · next more heq =>
    obtain ⟨⟨vs, rest⟩, hvs, hclose⟩ := bind_eq_ok_iff.mp hclose
    cases hclose
    obtain ⟨items, hmore, hitems⟩ := h.items hvs
    obtain ⟨as, has, hbefore⟩ := skipSpace_spec more
    refine ⟨_, ?_, .more hpadded (hitems.prepend has)⟩
    rw [hcs, hafter, heq, hbefore, hmore]
    simp only [List.append_assoc, List.cons_append]
  · cases hclose

theorem takesOff_members {n : Nat} (h : TakesOff n) {cs rest : List Char} {ps : Members}
    (hread : readMembers (n + 1) cs = .ok (ps, rest)) :
    ∃ front, cs = front ++ '\x7d' :: rest ∧ DenotesMembers front ps := by
  rw [readMembers.eq_def] at hread
  dsimp only at hread
  split at hread
  · next inside =>
    obtain ⟨⟨name, afterName⟩, hname, hcolon⟩ := bind_eq_ok_iff.mp hread
    obtain ⟨key, ns, hunits, hinside, rfl⟩ := units_of_readString hname
    obtain ⟨bs, hbs, hafterName⟩ := skipSpace_spec afterName
    dsimp only at hcolon
    split at hcolon
    · next afterColon hcolonEq =>
      obtain ⟨⟨v, after⟩, hv, hclose⟩ := bind_eq_ok_iff.mp hcolon
      obtain ⟨as, has, hafterColon⟩ := skipSpace_spec afterColon
      obtain ⟨front, hfrontEq, hfront⟩ := h.value hv
      obtain ⟨ds, hds, hafter⟩ := skipSpace_spec after
      -- the name, the colon and the value with the blanks around them
      have hmember : DenotesMember ([] ++ '"' :: (key ++ '"' :: (bs ++ ':' ::
          (as ++ (front ++ ds))))) (_, v) :=
        .mk blanks_nil ⟨ns, hunits, codesText_foldl_pushCode ns⟩ hbs (.mk has hfront hds)
      have hsplit : '"' :: inside = ([] ++ '"' :: (key ++ '"' :: (bs ++ ':' ::
          (as ++ (front ++ ds))))) ++ skipSpace after := by
        rw [hinside, hafterName, hcolonEq, hafterColon, hfrontEq]
        conv_lhs => rw [hafter]
        simp only [List.append_assoc, List.cons_append, List.nil_append]
      dsimp only at hclose
      split at hclose
      · next heq =>
        cases hclose
        exact ⟨_, heq ▸ hsplit, .last hmember⟩
      · next more heq =>
        obtain ⟨⟨ps, rest⟩, hps, hclose⟩ := bind_eq_ok_iff.mp hclose
        cases hclose
        obtain ⟨members, hmore, hmembers⟩ := h.members hps
        obtain ⟨cs, hcs, hbefore⟩ := skipSpace_spec more
        refine ⟨_, ?_, .more hmember (hmembers.prepend hcs)⟩
        rw [hsplit, heq, hbefore, hmore]
        simp only [List.append_assoc, List.cons_append]
      · cases hclose
    · cases hcolon
  · cases hread

theorem takesOff_value {n : Nat} (h : TakesOff n) {cs rest : List Char} {v : Value}
    (hread : readValue (n + 1) cs = .ok (v, rest)) :
    ∃ front, cs = front ++ rest ∧ Denotes front v := by
  cases cs with
  | nil => cases hread
  | cons c cs =>
    rw [readValue] at hread
    split at hread
    · next hc =>
      subst hc
      obtain ⟨⟨s, after⟩, hs, hread⟩ := bind_eq_ok_iff.mp hread
      cases hread
      obtain ⟨front, ns, hunits, rfl, rfl⟩ := units_of_readString hs
      refine ⟨'"' :: (front ++ ['"']), by simp, .string ⟨ns, hunits, codesText_foldl_pushCode ns⟩⟩
    split at hread
    · next hc =>
      subst hc
      obtain ⟨bs, hbs, hcs⟩ := skipSpace_spec cs
      split at hread
      · next rest heq =>
        cases hread
        refine ⟨'[' :: (bs ++ [']']), ?_, .emptyList hbs⟩
        rw [hcs, heq]
        simp
      · obtain ⟨⟨vs, after⟩, hvs, hread⟩ := bind_eq_ok_iff.mp hread
        cases hread
        obtain ⟨front, hinside, hitems⟩ := h.items hvs
        refine ⟨'[' :: ((bs ++ front) ++ [']']), ?_, .list (hitems.prepend hbs)⟩
        rw [hcs, hinside]
        simp
    split at hread
    · next hc =>
      subst hc
      obtain ⟨bs, hbs, hcs⟩ := skipSpace_spec cs
      split at hread
      · next rest heq =>
        cases hread
        refine ⟨'\x7b' :: (bs ++ ['\x7d']), ?_, .emptyObject hbs⟩
        rw [hcs, heq]
        simp
      · obtain ⟨⟨ps, after⟩, hps, hread⟩ := bind_eq_ok_iff.mp hread
        cases hread
        obtain ⟨front, hinside, hmembers⟩ := h.members hps
        refine ⟨'\x7b' :: ((bs ++ front) ++ ['\x7d']), ?_,
          .object (hmembers.prepend hbs) (Members.settles_ofPairs ps).1⟩
        rw [hcs, hinside]
        simp
    · exact denotes_of_readPlain hread

/-- **What has been taken off is derived**, in any number of steps. -/
theorem takesOff (n : Nat) : TakesOff n := by
  induction n with
  | zero => exact ⟨nofun, nofun, nofun⟩
  | succ n ih => exact ⟨takesOff_value ih, takesOff_items ih, takesOff_members ih⟩

/-! ## What is to be read -/

/-- A text that denotes a value starts as a value does. -/
theorem Denotes.start {cs : List Char} {v : Value} (h : Denotes cs v) :
    ∃ c ds, cs = c :: ds ∧ StartsValue c := by
  cases h with
  | null => exact ⟨'n', _, rfl, by decide⟩
  | bool b => cases b <;> exact ⟨_, _, rfl, by decide⟩
  | nan => exact ⟨'N', _, rfl, by decide⟩
  | infinity negative => cases negative <;> exact ⟨_, _, rfl, by decide⟩
  | number h =>
    obtain ⟨c, ds, hc, rfl | rfl⟩ := h.start
    · exact ⟨c, ds, rfl, startsValue_of_isDigit hc⟩
    · exact ⟨'-', _, rfl, by decide⟩
  | string => exact ⟨'"', _, rfl, by decide⟩
  | emptyList => exact ⟨'[', _, rfl, by decide⟩
  | list => exact ⟨'[', _, rfl, by decide⟩
  | emptyObject => exact ⟨'\x7b', _, rfl, by decide⟩
  | object => exact ⟨'\x7b', _, rfl, by decide⟩

theorem Padded.start {cs : List Char} {v : Value} (h : Padded cs v) (rest : List Char) :
    ∃ c ds, skipSpace (cs ++ rest) = c :: ds ∧ StartsValue c := by
  obtain @⟨as, cs, bs, v, has, hcs, -⟩ := h
  obtain ⟨c, ds, rfl, hc⟩ := hcs.start
  rw [List.append_assoc, skipSpace_blanks has, List.cons_append, List.cons_append,
    skipSpace_cons hc.1]
  exact ⟨c, _, rfl, hc⟩

theorem DenotesItems.start {cs : List Char} {vs : List Value} (h : DenotesItems cs vs)
    (rest : List Char) : ∃ c ds, skipSpace (cs ++ rest) = c :: ds ∧ StartsValue c := by
  cases h with
  | last hv => exact hv.start rest
  | more hv =>
    rw [List.append_assoc]
    exact hv.start _

theorem DenotesMembers.start {cs : List Char} {ps : Members} (h : DenotesMembers cs ps)
    (rest : List Char) : ∃ ds, skipSpace (cs ++ rest) = '"' :: ds := by
  have start {cs : List Char} {p : String × Value} (h : DenotesMember cs p) (rest : List Char) :
      ∃ ds, skipSpace (cs ++ rest) = '"' :: ds := by
    obtain @⟨as, key, bs, cs, name, v, has, -, -, -⟩ := h
    rw [List.append_assoc, skipSpace_blanks has, List.cons_append, skipSpace_cons rfl]
    exact ⟨_, rfl⟩
  cases h with
  | last hp => exact start hp rest
  | more hp =>
    rw [List.append_assoc]
    exact start hp _

theorem length_pos_of_skipSpace {cs : List Char} {c : Char} {ds : List Char}
    (h : skipSpace (cs ++ []) = c :: ds) : 0 < cs.length := by
  cases cs with
  | nil => cases h
  | cons c cs => exact Nat.succ_pos _

/-- What the grammar derives is read in a number of steps, if there are two steps for each of its
    characters: a value, the items of a list up to its bracket, and the members of an object up to
    its brace. -/
structure Finds (n : Nat) : Prop where
  value : ∀ {cs rest : List Char} {v : Value}, Denotes cs v → EndsNumber rest →
    2 * cs.length ≤ n + 1 → readValue n (cs ++ rest) = .ok (v, rest)
  items : ∀ {cs : List Char} {vs : List Value}, DenotesItems cs vs → ∀ rest : List Char,
    2 * cs.length ≤ n → readItems n (skipSpace (cs ++ ']' :: rest)) = .ok (vs, rest)
  members : ∀ {cs : List Char} {ps : Members}, DenotesMembers cs ps → ∀ rest : List Char,
    2 * cs.length ≤ n → readMembers n (skipSpace (cs ++ '\x7d' :: rest)) = .ok (ps, rest)

/-- A value between blanks is read up to the mark behind it. -/
theorem Finds.padded {n : Nat} (h : Finds n) {cs : List Char} {v : Value} (hv : Padded cs v)
    (hn : 2 * cs.length ≤ n + 1) {mark : Char} (hmark : mark = ',' ∨ mark = ']' ∨ mark = '\x7d')
    (rest : List Char) : ∃ after, readValue n (skipSpace (cs ++ mark :: rest)) = .ok (v, after) ∧
      skipSpace after = mark :: rest := by
  obtain @⟨as, cs, bs, v, has, hcs, hbs⟩ := hv
  obtain ⟨hspace, hend⟩ : isSpace mark = false ∧ EndsNumber (mark :: rest) := by
    rcases hmark with rfl | rfl | rfl <;> exact ⟨rfl, endsNumber_cons (by decide) rest⟩
  obtain ⟨c, ds, rfl, hc⟩ := hcs.start
  refine ⟨bs ++ mark :: rest, ?_, ?_⟩
  · rw [List.append_assoc, skipSpace_blanks has, List.append_assoc, List.cons_append,
      skipSpace_cons hc.1, ← List.cons_append]
    refine h.value hcs (endsNumber_append (blanks_iff.mp hbs) hend) ?_
    simp only [List.length_append] at hn
    omega
  · rw [skipSpace_blanks hbs, skipSpace_cons hspace]

theorem finds_items {n : Nat} (h : Finds n) {cs : List Char} {vs : List Value}
    (hvs : DenotesItems cs vs) (rest : List Char) (hn : 2 * cs.length ≤ n + 1) :
    readItems (n + 1) (skipSpace (cs ++ ']' :: rest)) = .ok (vs, rest) := by
  cases hvs with
  | last hv =>
    obtain ⟨after, hread, hafter⟩ := h.padded hv hn (Or.inr (Or.inl rfl)) rest
    exact readItems_last hread hafter
  | @more cs more v vs hv hvs =>
    rw [List.length_append, List.length_cons] at hn
    rw [List.append_assoc, List.cons_append]
    obtain ⟨after, hread, hafter⟩ :=
      h.padded hv (by omega) (Or.inl rfl) (more ++ ']' :: rest)
    rw [readItems_more hread hafter, h.items hvs rest (by omega)]
    rfl

theorem finds_members {n : Nat} (h : Finds n) {cs : List Char} {ps : Members}
    (hps : DenotesMembers cs ps) (rest : List Char) (hn : 2 * cs.length ≤ n + 1) :
    readMembers (n + 1) (skipSpace (cs ++ '\x7d' :: rest)) = .ok (ps, rest) := by
  -- up to its value, a member is read in the same way wherever it stands
  have name {as key bs : List Char} {name : String} (has : Blanks as) (hkey : Literal key name)
      (hbs : Blanks bs) (more : List Char) :
      ∃ inside afterName, skipSpace (as ++ '"' :: (key ++ '"' :: (bs ++ ':' :: more))) =
          '"' :: inside ∧ skipSpace afterName = ':' :: more ∧
        ∀ opening, readString opening [] inside = .ok (name, afterName) := by
    obtain ⟨ns, hunits, rfl⟩ := hkey
    refine ⟨key ++ '"' :: (bs ++ ':' :: more), bs ++ ':' :: more, ?_, ?_, fun opening => ?_⟩
    · rw [skipSpace_blanks has, skipSpace_cons rfl]
    · rw [skipSpace_blanks hbs, skipSpace_cons rfl]
    · rw [readString_units hunits, codesText_foldl_pushCode]
  cases hps with
  | last hp =>
    obtain @⟨as, key, bs, cs, s, v, has, hkey, hbs, hv⟩ := hp
    simp only [List.length_append, List.length_cons] at hn
    simp only [List.append_assoc, List.cons_append]
    obtain ⟨inside, afterName, hinside, hcolon, hname⟩ := name has hkey hbs (cs ++ '\x7d' :: rest)
    obtain ⟨after, hread, hafter⟩ := h.padded hv (by omega) (Or.inr (Or.inr rfl)) rest
    rw [hinside, readMembers_last hname hcolon hread hafter]
  | @more _ more _ ps hp hps =>
    obtain @⟨as, key, bs, cs, s, v, has, hkey, hbs, hv⟩ := hp
    simp only [List.length_append, List.length_cons] at hn
    simp only [List.append_assoc, List.cons_append]
    obtain ⟨inside, afterName, hinside, hcolon, hname⟩ :=
      name has hkey hbs (cs ++ ',' :: (more ++ '\x7d' :: rest))
    obtain ⟨after, hread, hafter⟩ :=
      h.padded hv (by omega) (Or.inl rfl) (more ++ '\x7d' :: rest)
    rw [hinside, readMembers_more hname hcolon hread hafter, h.members hps rest (by omega)]
    rfl

theorem finds_value {n : Nat} (h : Finds n) {cs rest : List Char} {v : Value}
    (hv : Denotes cs v) (hr : EndsNumber rest) (hn : 2 * cs.length ≤ n + 1 + 1) :
    readValue (n + 1) (cs ++ rest) = .ok (v, rest) := by
  cases hv with
  | null => exact readValue_word (w := ("null".toList, .null)) (by simp [words]) n rest
  | bool b =>
    cases b
    · exact readValue_word (w := ("false".toList, .bool false)) (by simp [words]) n rest
    · exact readValue_word (w := ("true".toList, .bool true)) (by simp [words]) n rest
  | nan => exact readValue_word (w := ("NaN".toList, .real .nan)) (by simp [words]) n rest
  | infinity negative =>
    cases negative
    · exact readValue_word (w := ("Infinity".toList, .real (.infinite false))) (by simp [words]) n
        rest
    · exact readValue_word (w := ("-Infinity".toList, .real (.infinite true))) (by simp [words]) n
        rest
  | number hv =>
    rw [← readPlain_numeral hv hr]
    obtain ⟨c, ds, hc, rfl | rfl⟩ := hv.start
    · exact readValue_plain ⟨ne_of_isDigit hc rfl, ne_of_isDigit hc rfl, ne_of_isDigit hc rfl⟩ n _
    · exact readValue_plain (by decide) n _
  | @string cs s hs =>
    obtain ⟨ns, hunits, rfl⟩ := hs
    rw [List.cons_append, List.append_assoc, List.singleton_append, readValue, if_pos rfl,
      readString_units hunits, codesText_foldl_pushCode]
    rfl
  | @emptyList bs hbs =>
    have hclose : skipSpace (bs ++ ']' :: rest) = ']' :: rest := by
      rw [skipSpace_blanks hbs, skipSpace_cons rfl]
    rw [List.cons_append, List.append_assoc, List.singleton_append, readValue,
      if_neg (by decide), if_pos rfl, hclose]
    rfl
  | @list cs vs hvs =>
    obtain ⟨c, ds, hstart, hc⟩ := hvs.start (']' :: rest)
    rw [List.cons_append, List.append_assoc, List.singleton_append,
      readValue_list hstart (fun rest he => hc.2.1 (List.cons.inj he).1), ← hstart,
      h.items hvs rest (by simp at hn; omega)]
    rfl
  | @emptyObject bs hbs =>
    have hclose : skipSpace (bs ++ '\x7d' :: rest) = '\x7d' :: rest := by
      rw [skipSpace_blanks hbs, skipSpace_cons rfl]
    rw [List.cons_append, List.append_assoc, List.singleton_append, readValue,
      if_neg (by decide), if_neg (by decide), if_pos rfl, hclose]
    rfl
  | @object cs ps ms hps hms =>
    obtain ⟨ds, hstart⟩ := hps.start ('\x7d' :: rest)
    have hne (rest : List Char) : '"' :: ds ≠ '\x7d' :: rest := by
      intro he
      cases he
    rw [List.cons_append, List.append_assoc, List.singleton_append,
      readValue_object hstart hne, ← hstart, h.members hps rest (by simp at hn; omega),
      Members.eq_ofPairs_of_settles hms]
    rfl

/-- **What is derived is read**, in any number of steps. -/
theorem finds (n : Nat) : Finds n := by
  induction n with
  -- nothing that is derived is empty, so that nothing has to be read in no steps
  | zero =>
    refine ⟨?_, ?_, ?_⟩
    · intro cs rest v hv _ hn
      obtain ⟨c, ds, rfl, -⟩ := hv.start
      rw [List.length_cons] at hn
      omega
    · intro cs vs hvs rest hn
      obtain ⟨c, ds, hcs, -⟩ := hvs.start []
      have := length_pos_of_skipSpace hcs
      omega
    · intro cs ps hps rest hn
      obtain ⟨ds, hcs⟩ := hps.start []
      have := length_pos_of_skipSpace hcs
      omega
  | succ n ih => exact ⟨finds_value ih, finds_items ih, finds_members ih⟩

/-! ## Whole texts -/

/-- **A text is read as a value exactly if it is the value between blanks.** -/
theorem readText_eq_ok_iff {cs : List Char} {v : Value} : readText cs = .ok v ↔ Padded cs v := by
  constructor
  · intro h
    rw [readText] at h
    split at h
    · cases h
    · obtain ⟨⟨v, rest⟩, hread, hrest⟩ := bind_eq_ok_iff.mp h
      obtain ⟨as, has, hcs⟩ := skipSpace_spec cs
      obtain ⟨front, hfrontEq, hfront⟩ := (takesOff _).value hread
      obtain ⟨bs, hbs, hend⟩ := skipSpace_spec rest
      dsimp only at hrest
      split at hrest
      · next heq =>
        cases hrest
        rw [heq, List.append_nil] at hend
        rw [hcs, hfrontEq, hend]
        exact .mk has hfront hbs
      · cases hrest
  · rintro @⟨as, cs, bs, v, has, hcs, hbs⟩
    obtain ⟨c, ds, rfl, hc⟩ := hcs.start
    have hmark : (as ++ (c :: ds ++ bs)).head? ≠ some '\uFEFF' := by
      cases as with
      | nil => exact fun he => hc.2.2.2 (Option.some.inj he)
      | cons a as =>
        rcases has a List.mem_cons_self with rfl | rfl | rfl | rfl <;> exact nofun
    have hskip : skipSpace (as ++ (c :: ds ++ bs)) = c :: ds ++ bs := by
      rw [skipSpace_blanks has, List.cons_append, skipSpace_cons hc.1]
    have hend : EndsNumber bs := by
      rw [← List.append_nil bs]
      exact endsNumber_append (blanks_iff.mp hbs) trivial
    have hblank : skipSpace bs = [] := by
      rw [← List.append_nil bs]
      exact skipSpace_blanks hbs []
    rw [readText, if_neg hmark, hskip, (finds _).value hcs hend (by simp; omega)]
    simp only [bind, Except.bind, hblank]

end IamInventory.Json
