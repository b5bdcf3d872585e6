import IamInventory.Proofs.Coding

/-!
# Reading UTF-8 — which bytes are characters

  The reader refuses every byte that no character continues with, so that what it accepts is what
  is written for the characters that it gives, and nothing else. Where the bytes of a character
  stand among others, the bytes before them are characters if all of them are: what has begun
  before cannot go on with a byte that only begins a character.

* **`Utf8.decode_eq_ok_iff`** — the reader accepts what is written, and nothing else.
* **`Utf8.encode_eq_append_iff`** — characters on both sides of a character.
-/

namespace IamInventory.Text.Utf8

/-! ## The bytes of characters by their code points -/

theorem toNat_val_ofNat {v : Nat} (h : v < 0xD800 ∨ 0xDFFF < v ∧ v < 0x110000) :
    (Char.ofNat v).val.toNat = v := by
  have hv : v.isValidChar := h
  rw [Char.ofNat, dif_pos hv]
  rfl

/-- A byte is told by its number. -/
theorem ofNat_eq_of_toNat {b : UInt8} {n : Nat} (h : n = b.toNat) : UInt8.ofNat n = b := by
  rw [h, UInt8.ofNat_toNat]

theorem encodeChar_one {b₁ : UInt8} (h₁ : b₁.toNat < 0x80) :
    String.utf8EncodeChar (Char.ofNat b₁.toNat) = [b₁] := by
  have hv : (Char.ofNat b₁.toNat).val.toNat = b₁.toNat := toNat_val_ofNat (by omega)
  unfold String.utf8EncodeChar
  simp only [hv]
  rw [if_pos (by omega), UInt8.ofNat_toNat]

/-- Two bytes in their ranges are a character. -/
theorem encodeChar_two {b₁ b₂ : UInt8} {v : Nat} (hv : v = b₁.toNat % 32 * 64 + b₂.toNat % 64)
    (h₁ : 0xC2 ≤ b₁.toNat ∧ b₁.toNat ≤ 0xDF) (h₂ : 0x80 ≤ b₂.toNat ∧ b₂.toNat ≤ 0xBF) :
    String.utf8EncodeChar (Char.ofNat v) = [b₁, b₂] := by
  have hval : (Char.ofNat v).val.toNat = v := toNat_val_ofNat (by omega)
  unfold String.utf8EncodeChar
  simp only [hval]
  rw [if_neg (by omega), if_pos (by omega)]
  rw [ofNat_eq_of_toNat (b := b₁) (by omega), ofNat_eq_of_toNat (b := b₂) (by omega)]

/-- Three bytes in their ranges are a character, unless two would do or it is half of a pair. -/
theorem encodeChar_three {b₁ b₂ b₃ : UInt8} {v : Nat}
    (hv : v = (b₁.toNat % 16 * 64 + b₂.toNat % 64) * 64 + b₃.toNat % 64)
    (h₁ : 0xE0 ≤ b₁.toNat ∧ b₁.toNat ≤ 0xEF) (h₂ : 0x80 ≤ b₂.toNat ∧ b₂.toNat ≤ 0xBF)
    (hlow : b₁.toNat = 0xE0 → 0xA0 ≤ b₂.toNat) (hhigh : b₁.toNat = 0xED → b₂.toNat ≤ 0x9F)
    (h₃ : 0x80 ≤ b₃.toNat ∧ b₃.toNat ≤ 0xBF) :
    String.utf8EncodeChar (Char.ofNat v) = [b₁, b₂, b₃] := by
  have hval : (Char.ofNat v).val.toNat = v := toNat_val_ofNat (by omega)
  unfold String.utf8EncodeChar
  simp only [hval]
  rw [if_neg (by omega), if_neg (by omega), if_pos (by omega)]
  rw [ofNat_eq_of_toNat (b := b₁) (by omega), ofNat_eq_of_toNat (b := b₂) (by omega),
    ofNat_eq_of_toNat (b := b₃) (by omega)]

/-- Four bytes in their ranges are a character, unless three would do or it is beyond the last
    one. -/
theorem encodeChar_four {b₁ b₂ b₃ b₄ : UInt8} {v : Nat}
    (hv : v = ((b₁.toNat % 8 * 64 + b₂.toNat % 64) * 64 + b₃.toNat % 64) * 64 + b₄.toNat % 64)
    (h₁ : 0xF0 ≤ b₁.toNat ∧ b₁.toNat ≤ 0xF4) (h₂ : 0x80 ≤ b₂.toNat ∧ b₂.toNat ≤ 0xBF)
    (hlow : b₁.toNat = 0xF0 → 0x90 ≤ b₂.toNat) (hhigh : b₁.toNat = 0xF4 → b₂.toNat ≤ 0x8F)
    (h₃ : 0x80 ≤ b₃.toNat ∧ b₃.toNat ≤ 0xBF) (h₄ : 0x80 ≤ b₄.toNat ∧ b₄.toNat ≤ 0xBF) :
    String.utf8EncodeChar (Char.ofNat v) = [b₁, b₂, b₃, b₄] := by
  have hval : (Char.ofNat v).val.toNat = v := toNat_val_ofNat (by omega)
  unfold String.utf8EncodeChar
  simp only [hval]
  rw [if_neg (by omega), if_neg (by omega), if_neg (by omega)]
  rw [ofNat_eq_of_toNat (b := b₁) (by omega), ofNat_eq_of_toNat (b := b₂) (by omega),
    ofNat_eq_of_toNat (b := b₃) (by omega), ofNat_eq_of_toNat (b := b₄) (by omega)]

/-! ## What the reader accepts -/

/-- **A character that has begun goes on** with a byte in its range. -/
theorem exists_next {offset : Nat} {p : Pending} {done t : List Char} {bs : List UInt8}
    (h : decodeFrom offset (some p) done bs = .ok t) :
    ∃ b rest, bs = b :: rest ∧ p.least.toNat ≤ b.toNat ∧ b.toNat ≤ p.greatest.toNat ∧
      (if p.owed = 1 then
        decodeFrom (offset + 1) none (Char.ofNat (p.push b).code :: done) rest = .ok t
      else decodeFrom (offset + 1) (some (p.push b)) done rest = .ok t) := by
  cases bs with
  | nil => cases h
  | cons b rest =>
    rw [decodeFrom] at h
    split at h
    · next hrange =>
      refine ⟨b, rest, rfl, UInt8.le_iff_toNat_le.mp hrange.1,
        UInt8.le_iff_toNat_le.mp hrange.2, ?_⟩
      by_cases howed : p.owed = 1
      · rwa [if_pos howed] at h ⊢
      · rwa [if_neg howed] at h ⊢
    · cases h

/-- A later byte that is owed is one of those that no character begins with. -/
def IsLater (b : UInt8) : Prop := 0x80 ≤ b.toNat ∧ b.toNat ≤ 0xBF

/-- The last byte of a character. -/
theorem exists_last {offset start code : Nat} {bytes : List UInt8} {least greatest : UInt8}
    {done t : List Char} {bs : List UInt8}
    (h : decodeFrom offset (some ⟨start, bytes, code, 1, least, greatest⟩) done bs = .ok t) :
    ∃ b rest, bs = b :: rest ∧ least.toNat ≤ b.toNat ∧ b.toNat ≤ greatest.toNat ∧
      decodeFrom (offset + 1) none (Char.ofNat (code * 64 + b.toNat % 64) :: done) rest =
        .ok t := by
  obtain ⟨b, rest, hb, hl, hg, hrest⟩ := exists_next h
  exact ⟨b, rest, hb, hl, hg, hrest⟩

/-- The last two bytes of a character. -/
theorem exists_last_two {offset start code : Nat} {bytes : List UInt8} {least greatest : UInt8}
    {done t : List Char} {bs : List UInt8}
    (h : decodeFrom offset (some ⟨start, bytes, code, 2, least, greatest⟩) done bs = .ok t) :
    ∃ b₂ b₃ rest, bs = b₂ :: b₃ :: rest ∧ (least.toNat ≤ b₂.toNat ∧ b₂.toNat ≤ greatest.toNat) ∧
      IsLater b₃ ∧ decodeFrom (offset + 2) none
        (Char.ofNat ((code * 64 + b₂.toNat % 64) * 64 + b₃.toNat % 64) :: done) rest = .ok t := by
  obtain ⟨b₂, rest, rfl, hl, hg, hrest⟩ := exists_next h
  obtain ⟨b₃, rest, rfl, hl', hg', hrest⟩ := exists_last hrest
  exact ⟨b₂, b₃, rest, rfl, ⟨hl, hg⟩, ⟨hl', hg'⟩, hrest⟩

/-- The last three bytes of a character. -/
theorem exists_last_three {offset start code : Nat} {bytes : List UInt8} {least greatest : UInt8}
    {done t : List Char} {bs : List UInt8}
    (h : decodeFrom offset (some ⟨start, bytes, code, 3, least, greatest⟩) done bs = .ok t) :
    ∃ b₂ b₃ b₄ rest, bs = b₂ :: b₃ :: b₄ :: rest ∧
      (least.toNat ≤ b₂.toNat ∧ b₂.toNat ≤ greatest.toNat) ∧ IsLater b₃ ∧ IsLater b₄ ∧
      decodeFrom (offset + 3) none
        (Char.ofNat (((code * 64 + b₂.toNat % 64) * 64 + b₃.toNat % 64) * 64 + b₄.toNat % 64) ::
          done) rest = .ok t := by
  obtain ⟨b₂, rest, rfl, hl, hg, hrest⟩ := exists_next h
  obtain ⟨b₃, b₄, rest, rfl, h₃, h₄, hrest⟩ := exists_last_two hrest
  exact ⟨b₂, b₃, b₄, rest, rfl, ⟨hl, hg⟩, h₃, h₄, hrest⟩

section Characters

variable {offset start : Nat} {done t : List Char} {b least greatest : UInt8} {bs : List UInt8}

/-- Bytes begin with a character of three bytes: in all kinds the second one is a later byte, and
    then there are the two exceptions. -/
theorem exists_character_three (hr : 0xE0 ≤ b.toNat ∧ b.toNat ≤ 0xEF)
    (hleast : 0x80 ≤ least.toNat) (hgreatest : greatest.toNat ≤ 0xBF)
    (hlow : b.toNat = 0xE0 → 0xA0 ≤ least.toNat) (hhigh : b.toNat = 0xED → greatest.toNat ≤ 0x9F)
    (h : decodeFrom offset (some ⟨start, [b], b.toNat % 16, 2, least, greatest⟩) done bs = .ok t) :
    ∃ c rest, b :: bs = String.utf8EncodeChar c ++ rest ∧
      ∃ offset', decodeFrom offset' none (c :: done) rest = .ok t := by
  obtain ⟨b₂, b₃, rest, rfl, h₂, h₃, hrest⟩ := exists_last_two h
  refine ⟨_, rest, ?_, _, hrest⟩
  rw [encodeChar_three rfl hr ⟨by omega, by omega⟩ (by omega) (by omega) h₃]
  rfl

/-- Bytes begin with a character of four bytes, of which the second one has two exceptions, too. -/
theorem exists_character_four (hr : 0xF0 ≤ b.toNat ∧ b.toNat ≤ 0xF4)
    (hleast : 0x80 ≤ least.toNat) (hgreatest : greatest.toNat ≤ 0xBF)
    (hlow : b.toNat = 0xF0 → 0x90 ≤ least.toNat) (hhigh : b.toNat = 0xF4 → greatest.toNat ≤ 0x8F)
    (h : decodeFrom offset (some ⟨start, [b], b.toNat % 8, 3, least, greatest⟩) done bs = .ok t) :
    ∃ c rest, b :: bs = String.utf8EncodeChar c ++ rest ∧
      ∃ offset', decodeFrom offset' none (c :: done) rest = .ok t := by
  obtain ⟨b₂, b₃, b₄, rest, rfl, h₂, h₃, h₄, hrest⟩ := exists_last_three h
  refine ⟨_, rest, ?_, _, hrest⟩
  rw [encodeChar_four rfl hr ⟨by omega, by omega⟩ (by omega) (by omega) h₃ h₄]
  rfl

end Characters

/-- **Bytes that begin with no ASCII character begin with another character**, if the reader accepts
    them. -/
theorem exists_character {offset : Nat} {done t : List Char} {b : UInt8} {bs : List UInt8}
    (hb : 0x80 ≤ b.toNat) (h : decodeFrom offset none done (b :: bs) = .ok t) :
    ∃ c rest, b :: bs = String.utf8EncodeChar c ++ rest ∧
      ∃ offset', decodeFrom offset' none (c :: done) rest = .ok t := by
  have hlt : ¬ b < 0x80 := by
    rw [UInt8.lt_iff_toNat_lt]
    exact Nat.not_lt.mpr hb
  rw [decodeFrom, if_neg hlt, lead?_eq] at h
  -- one case for each kind of lead byte
  split at h
  · cases h
  next p hp =>
  split at hp
  · next hr =>
    cases hp
    obtain ⟨b₂, rest, rfl, hl, hg, hrest⟩ := exists_last h
    refine ⟨_, rest, ?_, _, hrest⟩
    rw [encodeChar_two rfl hr ⟨hl, hg⟩]
    rfl
  have hA0 : (0xA0 : UInt8).toNat = 0xA0 := rfl
  have hBF : (0xBF : UInt8).toNat = 0xBF := rfl
  have h80 : (0x80 : UInt8).toNat = 0x80 := rfl
  have h9F : (0x9F : UInt8).toNat = 0x9F := rfl
  have h90 : (0x90 : UInt8).toNat = 0x90 := rfl
  have h8F : (0x8F : UInt8).toNat = 0x8F := rfl
  split at hp
  · cases hp
    exact exists_character_three (by omega) (by omega) (by omega) (by omega) (by omega) h
  split at hp
  · cases hp
    exact exists_character_three (by omega) (by omega) (by omega) (by omega) (by omega) h
  split at hp
  · cases hp
    exact exists_character_three (by omega) (by omega) (by omega) (by omega) (by omega) h
  split at hp
  · cases hp
    exact exists_character_four (by omega) (by omega) (by omega) (by omega) (by omega) h
  split at hp
  · cases hp
    exact exists_character_four (by omega) (by omega) (by omega) (by omega) (by omega) h
  split at hp
  · cases hp
    exact exists_character_four (by omega) (by omega) (by omega) (by omega) (by omega) h
  · cases hp

/-- What the reader accepts is what is written for the characters that it gives. -/
theorem encode_of_decodeFrom {offset : Nat} {done t : List Char} {bs : List UInt8}
    (h : decodeFrom offset none done bs = .ok t) :
    ∃ cs, t = done.reverse ++ cs ∧ encode cs = bs := by
  -- the induction is on how many bytes there are, since a character takes some of them
  induction hn : bs.length using Nat.strongRecOn generalizing bs offset done with
  | ind n ih =>
    cases bs with
    | nil =>
      cases h
      exact ⟨[], (List.append_nil _).symm, rfl⟩
    | cons b bs =>
      have next {c : Char} {rest : List UInt8} {offset' : Nat}
          (hbs : b :: bs = String.utf8EncodeChar c ++ rest)
          (h : decodeFrom offset' none (c :: done) rest = .ok t) :
          ∃ cs, t = done.reverse ++ cs ∧ encode cs = b :: bs := by
        have hlt : rest.length < n := by
          have hpos : 0 < (String.utf8EncodeChar c).length :=
            List.length_pos_iff.mpr String.utf8EncodeChar_ne_nil
          rw [← hn, hbs, List.length_append]
          omega
        obtain ⟨cs, rfl, hcs⟩ := ih _ hlt h rfl
        refine ⟨c :: cs, ?_, ?_⟩
        · rw [List.reverse_cons, List.append_assoc, List.singleton_append]
        · rw [hbs, encode, List.flatMap_cons, ← hcs, encode]
      by_cases hb : b.toNat < 0x80
      · rw [decodeFrom, if_pos (UInt8.lt_iff_toNat_lt.mpr hb)] at h
        refine next ?_ h
        rw [encodeChar_one hb]
        rfl
      · obtain ⟨c, rest, hbs, offset', h⟩ := exists_character (Nat.not_lt.mp hb) h
        exact next hbs h

/-- **The reader accepts what is written for characters, and nothing else.** -/
theorem decode_eq_ok_iff {bs : List UInt8} {cs : List Char} :
    decode bs = .ok cs ↔ encode cs = bs := by
  constructor
  · intro h
    obtain ⟨cs', rfl, hcs⟩ := encode_of_decodeFrom h
    exact hcs
  · rintro rfl
    exact decode_encode cs

theorem encode_append (cs ds : List Char) : encode (cs ++ ds) = encode cs ++ encode ds :=
  List.flatMap_append

/-! ## Characters among others -/

/-- Characters that are written as bytes of which one only begins a character can be parted before
    it. -/
theorem exists_parted {cs : List Char} {before after : List UInt8} {b : UInt8}
    (hb : b.IsUTF8FirstByte) (h : encode cs = before ++ b :: after) :
    ∃ ds es, cs = ds ++ es ∧ encode ds = before ∧ encode es = b :: after := by
  induction cs generalizing before with
  | nil => exact absurd h.symm (List.append_ne_nil_of_right_ne_nil _ (List.cons_ne_nil _ _))
  | cons c cs ih =>
    rw [encode, List.flatMap_cons] at h
    rcases List.append_eq_append_iff.mp h with ⟨rest, rfl, hrest⟩ | ⟨rest, hc, hrest⟩
    · obtain ⟨ds, es, rfl, rfl, hes⟩ := ih hrest
      exact ⟨c :: ds, es, rfl, List.flatMap_cons, hes⟩
    · by_cases hbefore : before = []
      · subst hbefore
        refine ⟨[], c :: cs, rfl, rfl, ?_⟩
        rw [encode, List.flatMap_cons]
        exact h
      cases rest with
      | nil =>
        rw [List.append_nil] at hc
        rw [List.nil_append] at hrest
        exact ⟨[c], cs, rfl, (List.flatMap_singleton _ _).trans hc, hrest.symm⟩
      | cons x rest =>
        -- the byte would be a later one of the first character
        obtain rfl : b = x := (List.cons.inj hrest).1
        have hi : before.length < (String.utf8EncodeChar c).length := by
          rw [hc, List.length_append, List.length_cons]
          omega
        have hget : (String.utf8EncodeChar c)[before.length] = b := by
          simp only [hc, List.getElem_append_right (Nat.le_refl _), Nat.sub_self,
            List.getElem_cons_zero]
        have hzero : before.length = 0 := by
          rw [← hget] at hb
          exact UInt8.isUTF8FirstByte_getElem_utf8EncodeChar.mp hb
        exact absurd (List.length_eq_zero_iff.mp hzero) hbefore

/-- **Characters on both sides of a character**: what is written for it can only be the character
    itself, and what stands before it and after it are characters, too. -/
theorem encode_eq_append_iff {cs : List Char} {c : Char} {before after : List UInt8} :
    encode cs = before ++ (String.utf8EncodeChar c ++ after) ↔
      ∃ ds es, cs = ds ++ c :: es ∧ encode ds = before ∧ encode es = after := by
  constructor
  · intro h
    obtain ⟨b, rest, hc⟩ := List.exists_cons_of_ne_nil (String.utf8EncodeChar_ne_nil (c := c))
    have hb : b.IsUTF8FirstByte := by
      have hfirst := UInt8.isUTF8FirstByte_getElem_zero_utf8EncodeChar (c := c)
      simpa only [hc, List.getElem_cons_zero] using hfirst
    have hsplit : encode cs = before ++ b :: (rest ++ after) := by
      rw [h, hc, List.cons_append]
    obtain ⟨ds, es, rfl, hds, hes⟩ := exists_parted hb hsplit
    rw [← List.cons_append, ← hc] at hes
    -- read again, the second part begins with the character
    have hread : decode (String.utf8EncodeChar c ++ after) = .ok es := hes ▸ decode_encode es
    rw [decode, decodeFrom_encodeChar] at hread
    obtain ⟨es', rfl, hes'⟩ := encode_of_decodeFrom hread
    exact ⟨ds, es', rfl, hds, hes'⟩
  · rintro ⟨ds, es, rfl, rfl, rfl⟩
    rw [encode_append, encode, encode, encode, List.flatMap_cons]

end IamInventory.Text.Utf8
