import IamInventory.Text.Percent

/-!
# Coding — characters to bytes to percent coding, and back

  Three steps turn characters into a text of unreserved marks: each character becomes bytes, and
  each byte becomes itself or an escape. The reader undoes them in the opposite order, and it has
  a state at both: the character that has begun, and the run of ASCII characters.

* **`Utf8.decode_encode`** — the bytes of characters are read as the characters.
* **`Percent.runBytes_escapeBytes`** — the escapes of bytes are read as the bytes.
* **`Percent.unescape_escape`** — both together; and `Percent.firstMalformed_escape` says that
  every percent sign that is written starts an escape.
-/

namespace IamInventory.Text

/-! ## Hexadecimal digits -/

theorem hexDigit?_hexChar (n : Nat) : hexDigit? (hexChar n) = some (n % 16) := by
  have table : ∀ m < 16, hexDigit? (if m < 10 then Char.ofNat (48 + m) else Char.ofNat (87 + m)) =
      some m := by decide
  exact table (n % 16) (Nat.mod_lt n (by decide))

namespace Percent

theorem hexDigit?_upperHexChar (n : Nat) : hexDigit? (upperHexChar n) = some (n % 16) := by
  have table : ∀ m < 16, hexDigit? (if m < 10 then Char.ofNat (48 + m) else Char.ofNat (55 + m)) =
      some m := by decide
  exact table (n % 16) (Nat.mod_lt n (by decide))

theorem upperHexChar_toNat_lt (n : Nat) : (upperHexChar n).toNat < 0x80 := by
  have table : ∀ m < 16, (if m < 10 then Char.ofNat (48 + m) else Char.ofNat (55 + m)).toNat <
      0x80 := by decide
  exact table (n % 16) (Nat.mod_lt n (by decide))

end Percent

/-! ## Characters and bytes -/

namespace Utf8

theorem toNat_ofNat {n : Nat} (h : n < 256) : (UInt8.ofNat n).toNat = n := by
  rw [UInt8.toNat_ofNat']
  exact Nat.mod_eq_of_lt h

/-- What a lead byte promises, told by its number. -/
theorem lead?_eq (offset : Nat) (b : UInt8) :
    lead? offset b =
      if 0xC2 ≤ b.toNat ∧ b.toNat ≤ 0xDF then some ⟨offset, [b], b.toNat % 32, 1, 0x80, 0xBF⟩
      else if b.toNat = 0xE0 then some ⟨offset, [b], b.toNat % 16, 2, 0xA0, 0xBF⟩
      else if b.toNat = 0xED then some ⟨offset, [b], b.toNat % 16, 2, 0x80, 0x9F⟩
      else if 0xE1 ≤ b.toNat ∧ b.toNat ≤ 0xEF then
        some ⟨offset, [b], b.toNat % 16, 2, 0x80, 0xBF⟩
      else if b.toNat = 0xF0 then some ⟨offset, [b], b.toNat % 8, 3, 0x90, 0xBF⟩
      else if 0xF1 ≤ b.toNat ∧ b.toNat ≤ 0xF3 then
        some ⟨offset, [b], b.toNat % 8, 3, 0x80, 0xBF⟩
      else if b.toNat = 0xF4 then some ⟨offset, [b], b.toNat % 8, 3, 0x80, 0x8F⟩
      else none := by
  simp only [lead?, UInt8.le_iff_toNat_le, ← UInt8.toNat_inj]
  rfl

/-- A byte in its range that is not the last one owed. -/
theorem decodeFrom_more {start code owed : Nat} {bytes : List UInt8} {least greatest b : UInt8}
    (ho : owed ≠ 1) (hl : least.toNat ≤ b.toNat) (hg : b.toNat ≤ greatest.toNat) (offset : Nat)
    (done : List Char) (bs : List UInt8) :
    decodeFrom offset (some ⟨start, bytes, code, owed, least, greatest⟩) done (b :: bs) =
      decodeFrom (offset + 1)
        (some ⟨start, bytes ++ [b], code * 64 + b.toNat % 64, owed - 1, 0x80, 0xBF⟩) done bs := by
  rw [decodeFrom, if_pos ⟨UInt8.le_iff_toNat_le.mpr hl, UInt8.le_iff_toNat_le.mpr hg⟩, if_neg ho]
  rfl

/-- A byte in its range that is the last one owed. -/
theorem decodeFrom_last {start code : Nat} {bytes : List UInt8} {least greatest b : UInt8}
    (hl : least.toNat ≤ b.toNat) (hg : b.toNat ≤ greatest.toNat) (offset : Nat)
    (done : List Char) (bs : List UInt8) :
    decodeFrom offset (some ⟨start, bytes, code, 1, least, greatest⟩) done (b :: bs) =
      decodeFrom (offset + 1) none (Char.ofNat (code * 64 + b.toNat % 64) :: done) bs := by
  rw [decodeFrom, if_pos ⟨UInt8.le_iff_toNat_le.mpr hl, UInt8.le_iff_toNat_le.mpr hg⟩, if_pos rfl]
  rfl

/-- A later byte of a character is in the range of all of them. -/
theorem follows_range {b : UInt8} {n : Nat} (h : b.toNat = n % 0x40 + 0x80) :
    (0x80 : UInt8).toNat ≤ b.toNat ∧ b.toNat ≤ (0xBF : UInt8).toNat := by
  rw [h]
  constructor
  · exact Nat.le_add_left _ _
  · show n % 0x40 + 0x80 ≤ 0xBF
    omega

/-- A lead byte promises a character. -/
theorem decodeFrom_lead {offset : Nat} {b : UInt8} {p : Pending} (h : lead? offset b = some p)
    (hb : 0x80 ≤ b.toNat) (done : List Char) (bs : List UInt8) :
    decodeFrom offset none done (b :: bs) = decodeFrom (offset + 1) (some p) done bs := by
  have hlt : ¬ b < 0x80 := by
    rw [UInt8.lt_iff_toNat_lt]
    exact Nat.not_lt.mpr hb
  rw [decodeFrom, if_neg hlt]
  simp only [h]

/-- The bytes of a character of two bytes. -/
theorem decodeFrom_two {v : Nat} (hv : 0x80 ≤ v) (hv' : v ≤ 0x7FF) (offset : Nat)
    (done : List Char) (bs : List UInt8) :
    decodeFrom offset none done
        (UInt8.ofNat (v / 64 % 0x20 + 0xC0) :: UInt8.ofNat (v % 0x40 + 0x80) :: bs) =
      decodeFrom (offset + 2) none (Char.ofNat v :: done) bs := by
  have h₁ : (UInt8.ofNat (v / 64 % 0x20 + 0xC0)).toNat = v / 64 % 0x20 + 0xC0 :=
    toNat_ofNat (by omega)
  have h₂ : (UInt8.ofNat (v % 0x40 + 0x80)).toNat = v % 0x40 + 0x80 := toNat_ofNat (by omega)
  -- what follows looks at the bytes only by their numbers
  generalize UInt8.ofNat (v / 64 % 0x20 + 0xC0) = b₁ at h₁ ⊢
  generalize UInt8.ofNat (v % 0x40 + 0x80) = b₂ at h₂ ⊢
  have hlead : lead? offset b₁ = some ⟨offset, [b₁], b₁.toNat % 32, 1, 0x80, 0xBF⟩ := by
    rw [lead?_eq, if_pos (by omega)]
  have hcode : b₁.toNat % 32 * 64 + b₂.toNat % 64 = v := by omega
  rw [decodeFrom_lead hlead (by omega), decodeFrom_last (follows_range h₂).1 (follows_range h₂).2,
    hcode]

/-- What the first byte of a character of three bytes promises. -/
theorem lead?_three {b : UInt8} {n m : Nat} (hb : b.toNat = n + 0xE0) (hn : n < 16)
    (hlow : n = 0 → 0x20 ≤ m) (hhigh : n = 13 → m < 0x20) (hm : m < 0x40) (offset : Nat) :
    ∃ least greatest : UInt8, lead? offset b = some ⟨offset, [b], n, 2, least, greatest⟩ ∧
      least.toNat ≤ m + 0x80 ∧ m + 0x80 ≤ greatest.toNat := by
  have hcode : b.toNat % 16 = n := by omega
  -- after E0 the next byte starts late, for else the character would fit in two bytes
  by_cases h₀ : n = 0
  · refine ⟨0xA0, 0xBF, ?_, ?_, ?_⟩
    · rw [lead?_eq, if_neg (by omega), if_pos (by omega), hcode]
    · have := hlow h₀
      show 0xA0 ≤ m + 0x80
      omega
    · show m + 0x80 ≤ 0xBF
      omega
  -- after ED it ends early, before the halves of pairs
  · by_cases h₁ : n = 13
    · refine ⟨0x80, 0x9F, ?_, ?_, ?_⟩
      · rw [lead?_eq, if_neg (by omega), if_neg (by omega), if_pos (by omega), hcode]
      · show 0x80 ≤ m + 0x80
        omega
      · have := hhigh h₁
        show m + 0x80 ≤ 0x9F
        omega
    · refine ⟨0x80, 0xBF, ?_, ?_, ?_⟩
      · rw [lead?_eq, if_neg (by omega), if_neg (by omega), if_neg (by omega), if_pos (by omega),
          hcode]
      · show 0x80 ≤ m + 0x80
        omega
      · show m + 0x80 ≤ 0xBF
        omega

/-- The bytes of a character of three bytes. -/
theorem decodeFrom_three {v : Nat} (hv : 0x800 ≤ v) (hv' : v ≤ 0xFFFF)
    (hs : v < 0xD800 ∨ 0xDFFF < v) (offset : Nat) (done : List Char) (bs : List UInt8) :
    decodeFrom offset none done
        (UInt8.ofNat (v / 4096 % 0x10 + 0xE0) :: UInt8.ofNat (v / 64 % 0x40 + 0x80) ::
          UInt8.ofNat (v % 0x40 + 0x80) :: bs) =
      decodeFrom (offset + 3) none (Char.ofNat v :: done) bs := by
  have h₁ : (UInt8.ofNat (v / 4096 % 0x10 + 0xE0)).toNat = v / 4096 % 0x10 + 0xE0 :=
    toNat_ofNat (by omega)
  have h₂ : (UInt8.ofNat (v / 64 % 0x40 + 0x80)).toNat = v / 64 % 0x40 + 0x80 :=
    toNat_ofNat (by omega)
  have h₃ : (UInt8.ofNat (v % 0x40 + 0x80)).toNat = v % 0x40 + 0x80 := toNat_ofNat (by omega)
  generalize UInt8.ofNat (v / 4096 % 0x10 + 0xE0) = b₁ at h₁ ⊢
  generalize UInt8.ofNat (v / 64 % 0x40 + 0x80) = b₂ at h₂ ⊢
  generalize UInt8.ofNat (v % 0x40 + 0x80) = b₃ at h₃ ⊢
  obtain ⟨least, greatest, hlead, hl, hg⟩ :=
    lead?_three h₁ (by omega) (by omega) (by omega) (by omega : v / 64 % 0x40 < 0x40) offset
  have hcode : (v / 4096 % 0x10 * 64 + b₂.toNat % 64) * 64 + b₃.toNat % 64 = v := by omega
  rw [decodeFrom_lead hlead (by omega), decodeFrom_more (by decide) (by omega) (by omega),
    decodeFrom_last (follows_range h₃).1 (follows_range h₃).2, hcode]

/-- What the first byte of a character of four bytes promises. -/
theorem lead?_four {b : UInt8} {n m : Nat} (hb : b.toNat = n + 0xF0) (hn : n < 5)
    (hlow : n = 0 → 0x10 ≤ m) (hhigh : n = 4 → m < 0x10) (hm : m < 0x40) (offset : Nat) :
    ∃ least greatest : UInt8, lead? offset b = some ⟨offset, [b], n, 3, least, greatest⟩ ∧
      least.toNat ≤ m + 0x80 ∧ m + 0x80 ≤ greatest.toNat := by
  have hcode : b.toNat % 8 = n := by omega
  -- after F0 the next byte starts late, for else the character would fit in three bytes
  by_cases h₀ : n = 0
  · refine ⟨0x90, 0xBF, ?_, ?_, ?_⟩
    · rw [lead?_eq, if_neg (by omega), if_neg (by omega), if_neg (by omega), if_neg (by omega),
        if_pos (by omega), hcode]
    · have := hlow h₀
      show 0x90 ≤ m + 0x80
      omega
    · show m + 0x80 ≤ 0xBF
      omega
  -- after F4 it ends early, at the last code point
  · by_cases h₁ : n = 4
    · refine ⟨0x80, 0x8F, ?_, ?_, ?_⟩
      · rw [lead?_eq, if_neg (by omega), if_neg (by omega), if_neg (by omega), if_neg (by omega),
          if_neg (by omega), if_neg (by omega), if_pos (by omega), hcode]
      · show 0x80 ≤ m + 0x80
        omega
      · have := hhigh h₁
        show m + 0x80 ≤ 0x8F
        omega
    · refine ⟨0x80, 0xBF, ?_, ?_, ?_⟩
      · rw [lead?_eq, if_neg (by omega), if_neg (by omega), if_neg (by omega), if_neg (by omega),
          if_neg (by omega), if_pos (by omega), hcode]
      · show 0x80 ≤ m + 0x80
        omega
      · show m + 0x80 ≤ 0xBF
        omega

/-- The bytes of a character of four bytes. -/
theorem decodeFrom_four {v : Nat} (hv : 0x10000 ≤ v) (hv' : v < 0x110000) (offset : Nat)
    (done : List Char) (bs : List UInt8) :
    decodeFrom offset none done
        (UInt8.ofNat (v / 262144 % 0x08 + 0xF0) :: UInt8.ofNat (v / 4096 % 0x40 + 0x80) ::
          UInt8.ofNat (v / 64 % 0x40 + 0x80) :: UInt8.ofNat (v % 0x40 + 0x80) :: bs) =
      decodeFrom (offset + 4) none (Char.ofNat v :: done) bs := by
  have h₁ : (UInt8.ofNat (v / 262144 % 0x08 + 0xF0)).toNat = v / 262144 % 0x08 + 0xF0 :=
    toNat_ofNat (by omega)
  have h₂ : (UInt8.ofNat (v / 4096 % 0x40 + 0x80)).toNat = v / 4096 % 0x40 + 0x80 :=
    toNat_ofNat (by omega)
  have h₃ : (UInt8.ofNat (v / 64 % 0x40 + 0x80)).toNat = v / 64 % 0x40 + 0x80 :=
    toNat_ofNat (by omega)
  have h₄ : (UInt8.ofNat (v % 0x40 + 0x80)).toNat = v % 0x40 + 0x80 := toNat_ofNat (by omega)
  generalize UInt8.ofNat (v / 262144 % 0x08 + 0xF0) = b₁ at h₁ ⊢
  generalize UInt8.ofNat (v / 4096 % 0x40 + 0x80) = b₂ at h₂ ⊢
  generalize UInt8.ofNat (v / 64 % 0x40 + 0x80) = b₃ at h₃ ⊢
  generalize UInt8.ofNat (v % 0x40 + 0x80) = b₄ at h₄ ⊢
  obtain ⟨least, greatest, hlead, hl, hg⟩ :=
    lead?_four h₁ (by omega) (by omega) (by omega) (by omega : v / 4096 % 0x40 < 0x40) offset
  have hcode : ((v / 262144 % 0x08 * 64 + b₂.toNat % 64) * 64 + b₃.toNat % 64) * 64 +
      b₄.toNat % 64 = v := by omega
  rw [decodeFrom_lead hlead (by omega), decodeFrom_more (by decide) (by omega) (by omega),
    decodeFrom_more (by decide) (follows_range h₃).1 (follows_range h₃).2,
    decodeFrom_last (follows_range h₄).1 (follows_range h₄).2, hcode]

/-- A character of one byte. -/
theorem decodeFrom_one {v : Nat} (hv : v ≤ 0x7F) (offset : Nat) (done : List Char)
    (bs : List UInt8) :
    decodeFrom offset none done (UInt8.ofNat v :: bs) =
      decodeFrom (offset + 1) none (Char.ofNat v :: done) bs := by
  have h : (UInt8.ofNat v).toNat = v := toNat_ofNat (by omega)
  have hlt : UInt8.ofNat v < 0x80 := by
    rw [UInt8.lt_iff_toNat_lt, h]
    exact Nat.lt_succ_of_le hv
  rw [decodeFrom, if_pos hlt, h]

/-- **The bytes of a character are read as the character.** -/
theorem decodeFrom_encodeChar (c : Char) (offset : Nat) (done : List Char) (bs : List UInt8) :
    decodeFrom offset none done (String.utf8EncodeChar c ++ bs) =
      decodeFrom (offset + (String.utf8EncodeChar c).length) none (c :: done) bs := by
  have hc : Char.ofNat c.val.toNat = c := Char.ofNat_toNat c
  have hvalid : c.val.toNat < 0xD800 ∨ 0xDFFF < c.val.toNat ∧ c.val.toNat < 0x110000 := c.valid
  -- one case for each number of bytes
  unfold String.utf8EncodeChar
  dsimp only
  split
  · next h => simpa [hc] using decodeFrom_one h offset done bs
  · next h₁ =>
    split
    · next h => simpa [hc] using decodeFrom_two (by omega) h offset done bs
    · next h₂ =>
      split
      · next h => simpa [hc] using decodeFrom_three (by omega) h (by omega) offset done bs
      · next h₃ => simpa [hc] using
            decodeFrom_four (v := c.val.toNat) (by omega) (by omega) offset done bs

theorem decodeFrom_encode (cs : List Char) (offset : Nat) (done : List Char) :
    decodeFrom offset none done (encode cs) = .ok (done.reverse ++ cs) := by
  induction cs generalizing offset done with
  | nil =>
    rw [List.append_nil]
    rfl
  | cons c cs ih =>
    rw [encode, List.flatMap_cons, decodeFrom_encodeChar]
    refine (ih _ _).trans ?_
    rw [List.reverse_cons, List.append_assoc, List.singleton_append]

/-- **The bytes of characters are read as the characters.** -/
theorem decode_encode (cs : List Char) : decode (encode cs) = .ok cs := decodeFrom_encode cs 0 []

end Utf8

/-! ## Bytes and escapes -/

namespace Percent

/-- A byte that is written as itself is no percent sign, and it is ASCII. -/
theorem unreserved_spec {b : UInt8} (h : isUnreserved b) : b.toNat ≠ 0x25 ∧ b.toNat < 0x80 := by
  simp only [isUnreserved, Bool.or_eq_true, Bool.and_eq_true, decide_eq_true_eq, beq_iff_eq,
    UInt8.le_iff_toNat_le, ← UInt8.toNat_inj, UInt8.reduceToNat] at h
  omega

theorem toNat_ofNat_byte (b : UInt8) : (Char.ofNat b.toNat).toNat = b.toNat := by
  have hb : b.toNat < 256 := b.toNat_lt
  have hv : b.toNat.isValidChar := Or.inl (by omega)
  rw [Char.ofNat, dif_pos hv]
  rfl

theorem ofNat_byte_ne_percent {b : UInt8} (h : isUnreserved b) : Char.ofNat b.toNat ≠ '%' := by
  intro he
  refine (unreserved_spec h).1 ?_
  rw [← toNat_ofNat_byte b, he]
  rfl

theorem upperHexChar_ne_percent (n : Nat) : upperHexChar n ≠ '%' := by
  intro he
  have := hexDigit?_upperHexChar n
  rw [he] at this
  cases this

theorem runBytes_of_ne {c : Char} (h : c ≠ '%') (cs : List Char) :
    runBytes (c :: cs) = UInt8.ofNat c.toNat :: runBytes cs := by
  rw [runBytes]
  rintro a b rest rfl
  exact absurd rfl h

/-- The escape of a byte is read as the byte. -/
theorem runBytes_escapeByte (b : UInt8) (cs : List Char) :
    runBytes (escapeByte b ++ cs) = b :: runBytes cs := by
  rw [escapeByte]
  split
  · next h =>
    rw [List.singleton_append, runBytes_of_ne (ofNat_byte_ne_percent h), toNat_ofNat_byte,
      UInt8.ofNat_toNat]
  · have hb : b.toNat < 256 := b.toNat_lt
    have hvalue : 16 * (b.toNat / 16 % 16) + b.toNat % 16 = b.toNat := by omega
    show runBytes ('%' :: upperHexChar (b.toNat / 16) :: upperHexChar b.toNat :: cs) = _
    simp only [runBytes, hexDigit?_upperHexChar, hvalue, UInt8.ofNat_toNat]

/-- **The escapes of bytes are read as the bytes.** -/
theorem runBytes_escapeBytes (bs : List UInt8) : runBytes (bs.flatMap escapeByte) = bs := by
  induction bs with
  | nil => rfl
  | cons b bs ih => rw [List.flatMap_cons, runBytes_escapeByte, ih]

theorem ascii_escapeByte (b : UInt8) : ∀ c ∈ escapeByte b, c.toNat < 0x80 := by
  intro c hc
  rw [escapeByte] at hc
  split at hc
  · next h =>
    rw [List.mem_singleton.mp hc, toNat_ofNat_byte]
    exact (unreserved_spec h).2
  · rcases List.mem_cons.mp hc with rfl | hc
    · decide
    · rcases List.mem_cons.mp hc with rfl | hc
      · exact upperHexChar_toNat_lt _
      · rw [List.mem_singleton.mp hc]
        exact upperHexChar_toNat_lt _

/-- A text that is ASCII is one run to its end. -/
theorem unescapeFrom_of_ascii {cs : List Char} (h : ∀ c ∈ cs, c.toNat < 0x80)
    (run done : List Char) :
    unescapeFrom run done cs =
      (Utf8.decode (runBytes (run.reverse ++ cs))).map (done.reverse ++ ·) := by
  induction cs generalizing run with
  | nil =>
    rw [unescapeFrom, List.append_nil]
    cases Utf8.decode (runBytes run.reverse) <;> rfl
  | cons c cs ih =>
    rw [unescapeFrom, if_pos (h c List.mem_cons_self),
      ih (fun d hd => h d (List.mem_cons_of_mem _ hd)), List.reverse_cons, List.append_assoc,
      List.singleton_append]

/-- **What is written in percent coding is read as it was.** -/
theorem unescape_escape (cs : List Char) : unescape (escape cs) = .ok cs := by
  have hascii : ∀ c ∈ escape cs, c.toNat < 0x80 := by
    intro c hc
    obtain ⟨b, -, hb⟩ := List.mem_flatMap.mp hc
    exact ascii_escapeByte b c hb
  rw [unescape, unescapeFrom_of_ascii hascii, List.reverse_nil, List.nil_append, escape,
    runBytes_escapeBytes, Utf8.decode_encode]
  rfl

theorem firstMalformed_of_ne {c : Char} (h : c ≠ '%') (offset : Nat) (cs : List Char) :
    firstMalformed offset (c :: cs) = firstMalformed (offset + 1) cs := by
  rw [firstMalformed, if_neg fun hc => h hc.1]

/-- **Every percent sign that is written starts an escape.** -/
theorem firstMalformed_escape (cs : List Char) (offset : Nat) :
    firstMalformed offset (escape cs) = none := by
  rw [escape]
  induction Utf8.encode cs generalizing offset with
  | nil => rfl
  | cons b bs ih =>
    rw [List.flatMap_cons]
    by_cases h : isUnreserved b
    · rw [escapeByte, if_pos h, List.singleton_append,
        firstMalformed_of_ne (ofNat_byte_ne_percent h), ih]
    · rw [escapeByte, if_neg h]
      -- no digit of an escape is a percent sign, so that the search goes past both of them
      have hstarts : startsWithByte (upperHexChar (b.toNat / 16) :: upperHexChar b.toNat ::
          bs.flatMap escapeByte) := by
        simp only [startsWithByte, hexDigit?_upperHexChar, Option.isSome_some, Bool.and_self]
      show firstMalformed offset ('%' :: upperHexChar (b.toNat / 16) :: upperHexChar b.toNat ::
        bs.flatMap escapeByte) = none
      rw [firstMalformed, if_neg (by simp [hstarts]),
        firstMalformed_of_ne (upperHexChar_ne_percent _),
        firstMalformed_of_ne (upperHexChar_ne_percent _), ih]

end Percent

end IamInventory.Text
