import IamInventory.Policy
import IamInventory.Proofs.JsonReading
import IamInventory.Proofs.Utf8Reading

/-!
# Unescaping — the bytes of a percent-coded text, in one pass

  The reader takes a percent-coded text run by run, and every run of ASCII characters has to be
  characters of its own. In one pass it is simpler: an escape is a byte, every other character is
  its bytes, and all the bytes together have to be characters. It comes to the same, for a character
  that has begun in a run cannot go on with what stands behind the run, and no escape reaches beyond
  its run.

* **`Percent.octets`** — the bytes of a text, in one pass.
* **`Percent.unescape_eq_ok_iff`** — reading run by run is reading these bytes.
* **`Percent.IsStray`** — a percent sign that starts no escape, and
  **`Percent.firstMalformed_of_isStray`** — the first of these is the one that is found.
* **`Policy.decode_octets`** — what becomes of an encoded document.
-/

namespace IamInventory.Text.Percent

/-! ## Bytes in one pass -/

/-- **The bytes of a percent-coded text**: a percent sign and two hexadecimal digits are a byte, and
    every other character is its bytes in UTF-8. -/
def octets : List Char → List UInt8
  | '%' :: a :: b :: cs =>
    match hexDigit? a, hexDigit? b with
    | some x, some y => UInt8.ofNat (16 * x + y) :: octets cs
    | _, _ => String.utf8EncodeChar '%' ++ octets (a :: b :: cs)
  | c :: cs => String.utf8EncodeChar c ++ octets cs
  | [] => []

theorem octets_escape {a b : Char} {x y : Nat} (ha : hexDigit? a = some x)
    (hb : hexDigit? b = some y) (cs : List Char) :
    octets ('%' :: a :: b :: cs) = UInt8.ofNat (16 * x + y) :: octets cs := by
  simp only [octets, ha, hb]

/-- A character that starts no escape is its bytes. -/
theorem octets_literal {c : Char} {cs : List Char} (h : c = '%' → ¬ startsWithByte cs) :
    octets (c :: cs) = String.utf8EncodeChar c ++ octets cs := by
  rw [octets.eq_def]
  split
  · next a b rest hcs =>
    obtain ⟨rfl, rfl⟩ := List.cons.inj hcs
    split
    · next x y hx hy =>
      refine absurd ?_ (h rfl)
      simp only [startsWithByte, hx, hy, Option.isSome_some, Bool.and_self]
    · rfl
  · next d rest _ hcs =>
    obtain ⟨rfl, rfl⟩ := List.cons.inj hcs
    rfl
  · next hcs => cases hcs

theorem runBytes_escape {a b : Char} {x y : Nat} (ha : hexDigit? a = some x)
    (hb : hexDigit? b = some y) (cs : List Char) :
    runBytes ('%' :: a :: b :: cs) = UInt8.ofNat (16 * x + y) :: runBytes cs := by
  simp only [runBytes, ha, hb]

/-- A character of a run that starts no escape is its byte. -/
theorem runBytes_literal {c : Char} {cs : List Char} (h : c = '%' → ¬ startsWithByte cs) :
    runBytes (c :: cs) = UInt8.ofNat c.toNat :: runBytes cs := by
  rw [runBytes.eq_def]
  split
  · next a b rest hcs =>
    obtain ⟨rfl, rfl⟩ := List.cons.inj hcs
    split
    · next x y hx hy =>
      refine absurd ?_ (h rfl)
      simp only [startsWithByte, hx, hy, Option.isSome_some, Bool.and_self]
    · rfl
  · next d rest _ hcs =>
    obtain ⟨rfl, rfl⟩ := List.cons.inj hcs
    rfl
  · next hcs => cases hcs

/-- **A text is empty, or it starts with an escape, or with a character that starts none.** -/
theorem start_cases (cs : List Char) :
    cs = [] ∨
      (∃ a b x y rest, cs = '%' :: a :: b :: rest ∧ hexDigit? a = some x ∧ hexDigit? b = some y) ∨
      ∃ c rest, cs = c :: rest ∧ (c = '%' → ¬ startsWithByte rest) := by
  cases cs with
  | nil => exact Or.inl rfl
  | cons c rest =>
    by_cases h : c = '%' ∧ startsWithByte rest = true
    · obtain ⟨rfl, hstart⟩ := h
      rw [startsWithByte.eq_def] at hstart
      split at hstart
      · next a b more =>
        rw [Bool.and_eq_true] at hstart
        obtain ⟨x, hx⟩ := Option.isSome_iff_exists.mp hstart.1
        obtain ⟨y, hy⟩ := Option.isSome_iff_exists.mp hstart.2
        exact Or.inr (Or.inl ⟨a, b, x, y, more, rfl, hx, hy⟩)
      · cases hstart
    · exact Or.inr (Or.inr ⟨c, rest, rfl, fun hc hs => h ⟨hc, hs⟩⟩)

theorem encodeChar_of_ascii {c : Char} (h : c.toNat < 0x80) :
    String.utf8EncodeChar c = [UInt8.ofNat c.toNat] := by
  have hc : Char.ofNat c.toNat = c := Char.ofNat_toNat c
  have hb : (UInt8.ofNat c.toNat).toNat = c.toNat := Utf8.toNat_ofNat (by omega)
  have hlt : (UInt8.ofNat c.toNat).toNat < 0x80 := by omega
  have hencode := Utf8.encodeChar_one hlt
  rwa [hb, hc] at hencode

/-- The bytes of a run of ASCII characters. -/
theorem octets_of_ascii {cs : List Char} (h : ∀ c ∈ cs, c.toNat < 0x80) :
    octets cs = runBytes cs := by
  induction hn : cs.length using Nat.strongRecOn generalizing cs with
  | ind n ih =>
    rcases start_cases cs with rfl | ⟨a, b, x, y, rest, rfl, hx, hy⟩ | ⟨c, rest, rfl, hc⟩
    · rfl
    · have hrest : ∀ c ∈ rest, c.toNat < 0x80 := fun c hc => h c
        (List.mem_cons_of_mem _ (List.mem_cons_of_mem _ (List.mem_cons_of_mem _ hc)))
      have hlt : rest.length < n := by
        rw [← hn, List.length_cons, List.length_cons, List.length_cons]
        omega
      rw [octets_escape hx hy, runBytes_escape hx hy, ih _ hlt hrest rfl]
    · obtain ⟨hfirst, hrest⟩ := List.forall_mem_cons.mp h
      have hlt : rest.length < n := by
        rw [← hn, List.length_cons]
        exact Nat.lt_succ_self _
      rw [octets_literal hc, runBytes_literal hc, encodeChar_of_ascii hfirst, ih _ hlt hrest rfl]
      rfl

/-- A character that is not ASCII is no hexadecimal digit and no percent sign. -/
theorem hexDigit?_of_not_ascii {c : Char} (h : ¬ c.toNat < 0x80) : hexDigit? c = none := by
  have hle {d : Char} (hd : d.toNat < 0x80) : ¬ c ≤ d := by
    intro hcd
    have : c.toNat ≤ d.toNat := hcd
    omega
  rw [hexDigit?, if_neg fun hc => hle (by decide) hc.2, if_neg fun hc => hle (by decide) hc.2,
    if_neg fun hc => hle (by decide) hc.2]

/-- An escape does not reach to a character that is not ASCII. -/
theorem startsWithByte_append {c : Char} (h : ¬ c.toNat < 0x80) {run cs : List Char}
    (hs : startsWithByte (run ++ c :: cs)) : startsWithByte run := by
  have hc := hexDigit?_of_not_ascii h
  match run with
  | [] =>
    rw [List.nil_append, startsWithByte.eq_def] at hs
    split at hs
    · next a b rest hrun =>
      obtain ⟨rfl, rfl⟩ := List.cons.inj hrun
      simp [hc] at hs
    · cases hs
  | [a] => simp [startsWithByte, hc] at hs
  | a :: b :: rest => exact hs

/-- **The bytes before and after a character that is not ASCII** are those of the texts before and
    after it. -/
theorem octets_append {c : Char} (h : ¬ c.toNat < 0x80) (run cs : List Char) :
    octets (run ++ c :: cs) = octets run ++ (String.utf8EncodeChar c ++ octets cs) := by
  induction hn : run.length using Nat.strongRecOn generalizing run with
  | ind n ih =>
    rcases start_cases run with rfl | ⟨a, b, x, y, rest, rfl, hx, hy⟩ | ⟨d, rest, rfl, hd⟩
    · have hne : c = '%' → ¬ startsWithByte cs := by
        rintro rfl
        exact absurd (by decide) h
      exact octets_literal hne
    · have hlt : rest.length < n := by
        rw [← hn, List.length_cons, List.length_cons, List.length_cons]
        omega
      show octets ('%' :: a :: b :: (rest ++ c :: cs)) = _
      rw [octets_escape hx hy, octets_escape hx hy, ih _ hlt _ rfl]
      rfl
    · have hlt : rest.length < n := by
        rw [← hn, List.length_cons]
        exact Nat.lt_succ_self _
      have hd' : d = '%' → ¬ startsWithByte (rest ++ c :: cs) :=
        fun hp hs => hd hp (startsWithByte_append h hs)
      rw [List.cons_append, octets_literal hd, octets_literal hd', ih _ hlt _ rfl,
        List.append_assoc]

/-! ## Reading run by run -/

/-- **Reading on from within a run** comes to characters if all bytes from the start of the run on
    are written for them. -/
theorem unescapeFrom_eq_ok_iff {run done cs t : List Char} (hrun : ∀ c ∈ run, c.toNat < 0x80) :
    unescapeFrom run done cs = .ok t ↔
      ∃ u, t = done.reverse ++ u ∧ Utf8.encode u = octets (run.reverse ++ cs) := by
  have hbytes {run : List Char} (hrun : ∀ c ∈ run, c.toNat < 0x80) :
      runBytes run.reverse = octets run.reverse :=
    (octets_of_ascii fun c hc => hrun c (List.mem_reverse.mp hc)).symm
  induction cs generalizing run done with
  | nil =>
    rw [unescapeFrom, Json.bind_eq_ok_iff, List.append_nil, hbytes hrun]
    refine exists_congr fun u => ?_
    rw [Utf8.decode_eq_ok_iff, and_comm, Except.ok.injEq]
    exact and_congr_left fun _ => eq_comm
  | cons c cs ih =>
    by_cases hc : c.toNat < 0x80
    · have hnext : unescapeFrom (c :: run) done cs = .ok t ↔ _ :=
        ih (List.forall_mem_cons.mpr ⟨hc, hrun⟩)
      rw [unescapeFrom, if_pos hc, hnext, List.reverse_cons, List.append_assoc,
        List.singleton_append]
    · rw [unescapeFrom, if_neg hc, Json.bind_eq_ok_iff, octets_append hc, hbytes hrun]
      -- a new run starts behind the character
      have hnext (read : List Char) : unescapeFrom [] (c :: (read.reverse ++ done)) cs = .ok t ↔
          ∃ u, t = done.reverse ++ (read ++ c :: u) ∧ Utf8.encode u = octets cs := by
        have h : unescapeFrom [] (c :: (read.reverse ++ done)) cs = .ok t ↔ _ :=
          ih (List.forall_mem_nil _)
        rw [h]
        simp only [List.reverse_cons, List.reverse_append, List.reverse_reverse, List.append_assoc,
          List.singleton_append, List.reverse_nil, List.nil_append]
      constructor
      · rintro ⟨read, hread, hrest⟩
        obtain ⟨u, rfl, hu⟩ := (hnext read).mp hrest
        exact ⟨_, rfl, Utf8.encode_eq_append_iff.mpr
          ⟨read, u, rfl, Utf8.decode_eq_ok_iff.mp hread, hu⟩⟩
      · rintro ⟨v, rfl, hv⟩
        obtain ⟨read, u, rfl, hread, hu⟩ := Utf8.encode_eq_append_iff.mp hv
        exact ⟨read, Utf8.decode_eq_ok_iff.mpr hread, (hnext read).mpr ⟨u, rfl, hu⟩⟩

/-- **Reading run by run comes to characters if all bytes of the text are written for them.** -/
theorem unescape_eq_ok_iff {cs t : List Char} :
    unescape cs = .ok t ↔ Utf8.encode t = octets cs := by
  rw [unescape, unescapeFrom_eq_ok_iff (List.forall_mem_nil _)]
  constructor
  · rintro ⟨u, rfl, hu⟩
    exact hu
  · exact fun h => ⟨t, rfl, h⟩

/-- A character may be escaped here and stand for itself there. -/
example : octets "%C3%a9=é".toList = Utf8.encode "é=é".toList := by decide

/-! ## Stray percent signs -/

/-- **Whether a percent sign stands at an index that two hexadecimal digits do not follow.** -/
def IsStray (cs : List Char) (i : Nat) : Prop :=
  cs[i]? = some '%' ∧ ¬ ∃ a b, cs[i + 1]? = some a ∧ cs[i + 2]? = some b ∧
    (hexDigit? a).isSome ∧ (hexDigit? b).isSome

theorem startsWithByte_iff (cs : List Char) :
    startsWithByte cs ↔ ∃ a b, cs[0]? = some a ∧ cs[1]? = some b ∧
      (hexDigit? a).isSome ∧ (hexDigit? b).isSome := by
  match cs with
  | [] => simp [startsWithByte]
  | [a] => simp [startsWithByte]
  | a :: b :: cs => simp [startsWithByte]

theorem isStray_zero (c : Char) (cs : List Char) :
    IsStray (c :: cs) 0 ↔ c = '%' ∧ ¬ startsWithByte cs := by
  rw [startsWithByte_iff, IsStray, List.getElem?_cons_zero, Option.some.injEq]
  rfl

theorem isStray_succ (c : Char) (cs : List Char) (i : Nat) :
    IsStray (c :: cs) (i + 1) ↔ IsStray cs i := Iff.rfl

/-- The search goes past a character that is no stray percent sign. -/
theorem firstMalformed_of_not_stray {c : Char} {cs : List Char} (h : ¬ IsStray (c :: cs) 0)
    (offset : Nat) : firstMalformed offset (c :: cs) = firstMalformed (offset + 1) cs := by
  rw [firstMalformed, if_neg]
  rintro ⟨hc, hs⟩
  rw [Bool.not_eq_true'] at hs
  exact h ((isStray_zero c cs).mpr ⟨hc, Bool.eq_false_iff.mp hs⟩)

/-- **The first stray percent sign is found.** -/
theorem firstMalformed_of_isStray {cs : List Char} {i : Nat} (h : IsStray cs i)
    (hfirst : ∀ j < i, ¬ IsStray cs j) (offset : Nat) :
    firstMalformed offset cs = some (offset + i, (cs.drop i).take 3) := by
  induction cs generalizing i offset with
  | nil => cases h.1
  | cons c cs ih =>
    cases i with
    | zero =>
      obtain ⟨hc, hs⟩ := (isStray_zero c cs).mp h
      rw [firstMalformed, if_pos ⟨hc, by rw [Bool.not_eq_true', Bool.eq_false_iff]; exact hs⟩]
      rfl
    | succ i =>
      rw [firstMalformed_of_not_stray (hfirst 0 (Nat.succ_pos i)),
        ih ((isStray_succ c cs i).mp h) (fun j hj => hfirst (j + 1) (Nat.succ_lt_succ hj)),
        Nat.add_assoc, Nat.add_comm 1 i]
      rfl

theorem firstMalformed_of_none {cs : List Char} (h : ∀ i, ¬ IsStray cs i) (offset : Nat) :
    firstMalformed offset cs = none := by
  induction cs generalizing offset with
  | nil => rfl
  | cons c cs ih =>
    rw [firstMalformed_of_not_stray (h 0), ih fun i => h (i + 1)]

end IamInventory.Text.Percent

/-! ## Encoded documents -/

namespace IamInventory.Policy

open Text

/-- The failure of a document that cannot be decoded, in words. -/
def refusal (identifier : Value) (words : String) : Failure :=
  ⟨.decoding, .text words, .text "decode policy document", identifier⟩

theorem decode_of_flaw {s : String} {flaw : Flaw} (h : decodeText s = .error flaw)
    (identifier : Value) :
    decode (.text s) identifier = .error (refusal identifier flaw.message) := by
  rw [decode, decodeRaw, h]
  rfl

/-- A text without stray percent signs is read run by run. -/
theorem decodeText_of_none {s : String} (h : ∀ i, ¬ Percent.IsStray s.toList i) :
    decodeText s = (Percent.unescape s.toList).mapError .bytes >>= fun cs =>
      (Json.readText cs).mapError (.json cs) := by
  rw [decodeText, unescape, Percent.firstMalformed_of_none h]

/-- A text whose bytes are characters is read as the JSON text of these characters. -/
theorem decode_of_encode {s : String} (h : ∀ i, ¬ Percent.IsStray s.toList i) {t : List Char}
    (ht : Utf8.encode t = Percent.octets s.toList) (identifier : Value) :
    decode (.text s) identifier = (Json.readText t).mapError fun flaw =>
      refusal identifier ("invalid JSON: " ++ flaw.message t) := by
  have htext : decodeText s = (Json.readText t).mapError (.json t) := by
    rw [decodeText_of_none h, Percent.unescape_eq_ok_iff.mpr ht]
    rfl
  rw [decode, decodeRaw, htext]
  cases Json.readText t <;> rfl

/-- **What becomes of an encoded document.** A stray percent sign is refused, the first one with its
    offset. Without one, the bytes of the text decide: if they are no characters, the text is
    refused, and otherwise it comes to what the JSON text of these characters comes to. So it does
    not matter which characters are escaped, and in which case the digits are. -/
theorem decode_octets (s : String) (identifier : Value) :
    (∀ i, Percent.IsStray s.toList i → (∀ j < i, ¬ Percent.IsStray s.toList j) →
      decode (.text s) identifier = .error (refusal identifier
        s!"malformed percent-encoding at offset {i}: {String.ofList
          (quotedChars ((s.toList.drop i).take 3))}")) ∧
    ((∀ i, ¬ Percent.IsStray s.toList i) →
      ((∀ t, Utf8.encode t ≠ Percent.octets s.toList) → ∃ m : Utf8.Malformed,
        decode (.text s) identifier =
          .error (refusal identifier ("invalid percent-encoding: " ++ m.message))) ∧
      (∀ t, Utf8.encode t = Percent.octets s.toList →
        decode (.text s) identifier = (Json.readText t).mapError fun flaw =>
          refusal identifier ("invalid JSON: " ++ flaw.message t)) ∧
      ∀ s' : String, (∀ i, ¬ Percent.IsStray s'.toList i) →
        Percent.octets s'.toList = Percent.octets s.toList →
        (∃ t, Utf8.encode t = Percent.octets s.toList) →
        decode (.text s') identifier = decode (.text s) identifier) := by
  constructor
  · intro i hi hfirst
    have htext : decodeText s = .error (.escape i ((s.toList.drop i).take 3)) := by
      rw [decodeText, unescape, Percent.firstMalformed_of_isStray hi hfirst, Nat.zero_add]
      rfl
    exact decode_of_flaw htext identifier
  intro hnone
  refine ⟨?_, ?_, ?_⟩
  · intro hno
    cases hread : Percent.unescape s.toList with
    | ok t => exact absurd (Percent.unescape_eq_ok_iff.mp hread) (hno t)
    | error m =>
      have htext : decodeText s = .error (.bytes m) := by
        rw [decodeText_of_none hnone, hread]
        rfl
      exact ⟨m, decode_of_flaw htext identifier⟩
  · intro t ht
    exact decode_of_encode hnone ht identifier
  · rintro s' hnone' hsame ⟨t, ht⟩
    rw [decode_of_encode hnone ht, decode_of_encode hnone' (hsame ▸ ht)]

end IamInventory.Policy
