import ScriptBlocks.Proofs.Text.Utf8

/-!
# Reading bytes back

Bytes are read as a text exactly when they are the bytes of that text (`Utf8.decode_eq_ok_iff`).
The bounds that the first byte of a character sets for the second one leave just the code points
that take so many bytes, and no surrogate.
-/

namespace ScriptBlocks.Utf8

/-! ### One character -/

/-- The bytes of a code point. -/
def encodeCode (v : Nat) : List UInt8 :=
  if v ≤ 0x7f then [.ofNat v]
  else if v ≤ 0x7ff then [.ofNat (v / 64 % 0x20 + 0xc0), .ofNat (v % 0x40 + 0x80)]
  else if v ≤ 0xffff then
    [.ofNat (v / 4096 % 0x10 + 0xe0), .ofNat (v / 64 % 0x40 + 0x80), .ofNat (v % 0x40 + 0x80)]
  else
    [.ofNat (v / 262144 % 0x08 + 0xf0), .ofNat (v / 4096 % 0x40 + 0x80),
      .ofNat (v / 64 % 0x40 + 0x80), .ofNat (v % 0x40 + 0x80)]

theorem utf8EncodeChar_eq (c : Char) : String.utf8EncodeChar c = encodeCode c.toNat := rfl

section

variable {b : UInt8} {bytes left : List UInt8} {lead : Lead} {bits seen rest code : Nat}
  {low high : UInt8}

theorem continueChar_zero :
    continueChar bits seen low high 0 bytes = .ok (code, left) ↔ bits = code ∧ bytes = left := by
  simp [continueChar]

theorem continueChar_succ :
    continueChar bits seen low high (rest + 1) bytes = .ok (code, left) ↔
      ∃ b more, bytes = b :: more ∧ low.toNat ≤ b.toNat ∧ b.toNat ≤ high.toNat ∧
        continueChar (bits * 64 + (b.toNat - 0x80)) (seen + 1) 0x80 0xBF rest more =
          .ok (code, left) := by
  cases bytes with
  | nil => simp [continueChar]
  | cons b bytes =>
    by_cases h : low ≤ b ∧ b ≤ high
    · simp only [continueChar, Bool.and_eq_true, decide_eq_true_eq, if_pos h]
      constructor
      · intro hok
        exact ⟨b, bytes, rfl, UInt8.le_iff_toNat_le.1 h.1, UInt8.le_iff_toNat_le.1 h.2, hok⟩
      · rintro ⟨b', more, hcons, -, -, hok⟩
        cases hcons
        exact hok
    · simp only [continueChar, Bool.and_eq_true, decide_eq_true_eq, if_neg h]
      constructor
      · intro hok
        cases hok
      · rintro ⟨b', more, hcons, hlow, hhigh, -⟩
        cases hcons
        exact absurd ⟨UInt8.le_iff_toNat_le.2 hlow, UInt8.le_iff_toNat_le.2 hhigh⟩ h

/-! ### First bytes -/

theorem ite_toNat_le {p : Prop} [Decidable p] {m n : UInt8} {k : Nat} (h : n ≤ m) :
    (if p then m else n).toNat ≤ k ↔ n.toNat ≤ k ∧ (p → m.toNat ≤ k) := by
  have hnm := UInt8.le_iff_toNat_le.1 h
  by_cases hp : p
  · rw [if_pos hp]
    exact ⟨fun hm => ⟨Nat.le_trans hnm hm, fun _ => hm⟩, fun hboth => hboth.2 hp⟩
  · simp [hp]

theorem le_ite_toNat {p : Prop} [Decidable p] {m n : UInt8} {k : Nat} (h : m ≤ n) :
    k ≤ (if p then m else n).toNat ↔ k ≤ n.toNat ∧ (p → k ≤ m.toNat) := by
  have hmn := UInt8.le_iff_toNat_le.1 h
  by_cases hp : p
  · rw [if_pos hp]
    exact ⟨fun hm => ⟨Nat.le_trans hm hmn, fun _ => hm⟩, fun hboth => hboth.2 hp⟩
  · simp [hp]

theorem lead?_one (h : b.toNat < 0x80) : lead? b = some { rest := 0, bits := b.toNat } := by
  rw [lead?, if_pos (UInt8.lt_iff_toNat_lt.2 h)]

/-- The first byte by its number, past those that are characters of their own. -/
theorem lead?_eq (h : 0x80 ≤ b.toNat) : lead? b =
    if b.toNat < 0xC2 then none
    else if b.toNat < 0xE0 then some { rest := 1, bits := b.toNat - 0xC0 }
    else if b.toNat = 0xE0 then some { rest := 2, bits := 0, low := 0xA0 }
    else if b.toNat = 0xED then some { rest := 2, bits := 0xD, high := 0x9F }
    else if b.toNat < 0xF0 then some { rest := 2, bits := b.toNat - 0xE0 }
    else if b.toNat = 0xF0 then some { rest := 3, bits := 0, low := 0x90 }
    else if b.toNat < 0xF4 then some { rest := 3, bits := b.toNat - 0xF0 }
    else if b.toNat = 0xF4 then some { rest := 3, bits := 4, high := 0x8F }
    else none := by
  rw [lead?, if_neg fun hlt => Nat.not_lt.2 h (UInt8.lt_iff_toNat_lt.1 hlt)]
  simp only [UInt8.lt_iff_toNat_lt, ← UInt8.toNat_inj]
  rfl

theorem lead?_none (h : 0x80 ≤ b.toNat ∧ b.toNat < 0xC2 ∨ 0xF4 < b.toNat) : lead? b = none := by
  rw [lead?_eq (by omega)]
  repeat' split
  all_goals first | rfl | omega

theorem lead?_two (h : 0xC2 ≤ b.toNat ∧ b.toNat < 0xE0) :
    lead? b = some { rest := 1, bits := b.toNat - 0xC0 } := by
  rw [lead?_eq (by omega), if_neg (by omega), if_pos h.2]

/-- The least second byte keeps out what two bytes can write, and the greatest one surrogates. -/
theorem lead?_three (h : 0xE0 ≤ b.toNat ∧ b.toNat < 0xF0) : lead? b =
    some { rest := 2, bits := b.toNat - 0xE0, low := if b.toNat = 0xE0 then 0xA0 else 0x80,
           high := if b.toNat = 0xED then 0x9F else 0xBF } := by
  rw [lead?_eq (by omega), if_neg (by omega), if_neg (by omega)]
  by_cases he : b.toNat = 0xE0
  · simp [he]
  · by_cases hd : b.toNat = 0xED
    · simp [hd]
    · simp [he, hd, h.2]

/-- The least second byte keeps out what three bytes can write, and the greatest one what is past
the last code point. -/
theorem lead?_four (h : 0xF0 ≤ b.toNat ∧ b.toNat ≤ 0xF4) : lead? b =
    some { rest := 3, bits := b.toNat - 0xF0, low := if b.toNat = 0xF0 then 0x90 else 0x80,
           high := if b.toNat = 0xF4 then 0x8F else 0xBF } := by
  rw [lead?_eq (by omega), if_neg (by omega), if_neg (by omega), if_neg (by omega),
    if_neg (by omega), if_neg (by omega)]
  by_cases h0 : b.toNat = 0xF0
  · simp [h0]
  · by_cases h4 : b.toNat = 0xF4
    · simp [h4]
    · simp [h0, h4, show b.toNat < 0xF4 by omega]

/-! ### Bytes of a code point -/

theorem ofNat_eq {n : Nat} (h : n % 256 = b.toNat) : UInt8.ofNat n = b :=
  UInt8.toNat_inj.1 ((UInt8.toNat_ofNat').trans h)

variable {b₁ b₂ b₃ : UInt8}

theorem encodeCode_two (hb : 0xC2 ≤ b.toNat ∧ b.toNat < 0xE0)
    (hb₁ : 0x80 ≤ b₁.toNat ∧ b₁.toNat ≤ 0xBF)
    (hcode : (b.toNat - 0xC0) * 64 + (b₁.toNat - 0x80) = code) :
    code.isValidChar ∧ encodeCode code = [b, b₁] := by
  refine ⟨Or.inl (by omega), ?_⟩
  rw [encodeCode, if_neg (by omega), if_pos (by omega), ofNat_eq (b := b) (by omega),
    ofNat_eq (b := b₁) (by omega)]

theorem encodeCode_three (hb : 0xE0 ≤ b.toNat ∧ b.toNat < 0xF0)
    (hb₁ : 0x80 ≤ b₁.toNat ∧ b₁.toNat ≤ 0xBF) (hb₂ : 0x80 ≤ b₂.toNat ∧ b₂.toNat ≤ 0xBF)
    (hlow : b.toNat = 0xE0 → 0xA0 ≤ b₁.toNat) (hhigh : b.toNat = 0xED → b₁.toNat ≤ 0x9F)
    (hcode : ((b.toNat - 0xE0) * 64 + (b₁.toNat - 0x80)) * 64 + (b₂.toNat - 0x80) = code) :
    code.isValidChar ∧ encodeCode code = [b, b₁, b₂] := by
  refine ⟨by unfold Nat.isValidChar; omega, ?_⟩
  rw [encodeCode, if_neg (by omega), if_neg (by omega), if_pos (by omega),
    ofNat_eq (b := b) (by omega), ofNat_eq (b := b₁) (by omega), ofNat_eq (b := b₂) (by omega)]

theorem encodeCode_four (hb : 0xF0 ≤ b.toNat ∧ b.toNat ≤ 0xF4)
    (hb₁ : 0x80 ≤ b₁.toNat ∧ b₁.toNat ≤ 0xBF) (hb₂ : 0x80 ≤ b₂.toNat ∧ b₂.toNat ≤ 0xBF)
    (hb₃ : 0x80 ≤ b₃.toNat ∧ b₃.toNat ≤ 0xBF)
    (hlow : b.toNat = 0xF0 → 0x90 ≤ b₁.toNat) (hhigh : b.toNat = 0xF4 → b₁.toNat ≤ 0x8F)
    (hcode : (((b.toNat - 0xF0) * 64 + (b₁.toNat - 0x80)) * 64 + (b₂.toNat - 0x80)) * 64 +
      (b₃.toNat - 0x80) = code) :
    code.isValidChar ∧ encodeCode code = [b, b₁, b₂, b₃] := by
  refine ⟨by unfold Nat.isValidChar; omega, ?_⟩
  rw [encodeCode, if_neg (by omega), if_neg (by omega), if_neg (by omega),
    ofNat_eq (b := b) (by omega), ofNat_eq (b := b₁) (by omega), ofNat_eq (b := b₂) (by omega),
    ofNat_eq (b := b₃) (by omega)]

/-- What is read after a first byte stands for the code point whose bytes were read. -/
theorem eq_encodeCode_of_continueChar (hlead : lead? b = some lead)
    (h : continueChar lead.bits 1 lead.low lead.high lead.rest bytes = .ok (code, left)) :
    code.isValidChar ∧ b :: bytes = encodeCode code ++ left := by
  -- The cases are the ranges of the first byte, one for each length of a character.
  by_cases h1 : b.toNat < 0x80
  · rw [lead?_one h1] at hlead
    cases hlead
    obtain ⟨hcode, rfl⟩ := continueChar_zero.1 h
    have hcode : b.toNat = code := hcode
    refine ⟨Or.inl (by omega), ?_⟩
    rw [encodeCode, if_pos (by omega), ofNat_eq (b := b) (by omega)]
    rfl
  by_cases hnone : b.toNat < 0xC2 ∨ 0xF4 < b.toNat
  · rw [lead?_none (by omega)] at hlead
    cases hlead
  by_cases h2 : b.toNat < 0xE0
  · rw [lead?_two (by omega)] at hlead
    cases hlead
    simp only [continueChar_succ, continueChar_zero] at h
    obtain ⟨b₁, _, rfl, hlow, hhigh, hcode, rfl⟩ := h
    have hread : code.isValidChar ∧ encodeCode code = [b, b₁] :=
      encodeCode_two (by omega) ⟨hlow, hhigh⟩ hcode
    exact ⟨hread.1, by rw [hread.2]; rfl⟩
  by_cases h3 : b.toNat < 0xF0
  · rw [lead?_three (by omega)] at hlead
    cases hlead
    simp only [continueChar_succ, continueChar_zero] at h
    obtain ⟨b₁, _, rfl, hlow, hhigh, b₂, _, rfl, hlow₂, hhigh₂, hcode, rfl⟩ := h
    obtain ⟨hlow, hover⟩ := (ite_toNat_le (by decide)).1 hlow
    obtain ⟨hhigh, hsurrogate⟩ := (le_ite_toNat (by decide)).1 hhigh
    have hread : code.isValidChar ∧ encodeCode code = [b, b₁, b₂] :=
      encodeCode_three (by omega) ⟨hlow, hhigh⟩ ⟨hlow₂, hhigh₂⟩ hover hsurrogate hcode
    exact ⟨hread.1, by rw [hread.2]; rfl⟩
  · rw [lead?_four (by omega)] at hlead
    cases hlead
    simp only [continueChar_succ, continueChar_zero] at h
    obtain ⟨b₁, _, rfl, hlow, hhigh, b₂, _, rfl, hlow₂, hhigh₂, b₃, _, rfl, hlow₃, hhigh₃,
      hcode, rfl⟩ := h
    obtain ⟨hlow, hover⟩ := (ite_toNat_le (by decide)).1 hlow
    obtain ⟨hhigh, hpast⟩ := (le_ite_toNat (by decide)).1 hhigh
    have hread : code.isValidChar ∧ encodeCode code = [b, b₁, b₂, b₃] :=
      encodeCode_four (by omega) ⟨hlow, hhigh⟩ ⟨hlow₂, hhigh₂⟩ ⟨hlow₃, hhigh₃⟩ hover hpast hcode
    exact ⟨hread.1, by rw [hread.2]; rfl⟩

/-- A byte of a number within the bounds is read. -/
theorem continueChar_ofNat {n : Nat} (hlow : low.toNat ≤ n) (hhigh : n ≤ high.toNat) :
    continueChar bits seen low high (rest + 1) (UInt8.ofNat n :: bytes) =
      continueChar (bits * 64 + (n - 0x80)) (seen + 1) 0x80 0xBF rest bytes := by
  have hn : (UInt8.ofNat n).toNat = n := by
    have := UInt8.toNat_lt high
    rw [UInt8.toNat_ofNat', Nat.mod_eq_of_lt (by omega)]
  have hbounds : low ≤ UInt8.ofNat n ∧ UInt8.ofNat n ≤ high := by
    rw [UInt8.le_iff_toNat_le, UInt8.le_iff_toNat_le, hn]
    exact ⟨hlow, hhigh⟩
  simp only [continueChar, Bool.and_eq_true, decide_eq_true_eq, if_pos hbounds, hn]

theorem continueChar_following {n : Nat} (h : 0x80 ≤ n ∧ n ≤ 0xBF) :
    continueChar bits seen 0x80 0xBF (rest + 1) (UInt8.ofNat n :: bytes) =
      continueChar (bits * 64 + (n - 0x80)) (seen + 1) 0x80 0xBF rest bytes :=
  continueChar_ofNat h.1 h.2

/-- The bytes of a code point are read back as this code point, whatever comes after them. -/
theorem exists_lead_of_isValidChar (h : code.isValidChar) :
    ∃ b more lead, encodeCode code = b :: more ∧ lead? b = some lead ∧
      ∀ left, continueChar lead.bits 1 lead.low lead.high lead.rest (more ++ left) =
        .ok (code, left) := by
  have hmod (n : Nat) : (UInt8.ofNat n).toNat = n % 256 := UInt8.toNat_ofNat'
  unfold Nat.isValidChar at h
  by_cases h1 : code ≤ 0x7f
  · rw [encodeCode, if_pos h1]
    have hb := hmod code
    refine ⟨_, _, _, rfl, lead?_one (by omega), fun left => continueChar_zero.2 ⟨?_, rfl⟩⟩
    rw [hb, Nat.mod_eq_of_lt (by omega)]
  by_cases h2 : code ≤ 0x7ff
  · rw [encodeCode, if_neg h1, if_pos h2]
    have hb := hmod (code / 64 % 0x20 + 0xc0)
    refine ⟨_, _, _, rfl, lead?_two (by omega), fun left => ?_⟩
    refine (continueChar_following (by omega)).trans (continueChar_zero.2 ⟨?_, rfl⟩)
    dsimp only
    omega
  by_cases h3 : code ≤ 0xffff
  · rw [encodeCode, if_neg h1, if_neg h2, if_pos h3]
    have hb := hmod (code / 4096 % 0x10 + 0xe0)
    refine ⟨_, _, _, rfl, lead?_three (by omega), fun left => ?_⟩
    refine (continueChar_ofNat ?low ?high).trans
      ((continueChar_following (by omega)).trans (continueChar_zero.2 ⟨?code, rfl⟩))
    case low =>
      exact (ite_toNat_le (by decide)).2 ⟨Nat.le_add_left _ _, fun he => by show 0xA0 ≤ _; omega⟩
    case high =>
      exact (le_ite_toNat (by decide)).2
        ⟨by show _ ≤ 0xBF; omega, fun hd => by show _ ≤ 0x9F; omega⟩
    case code =>
      dsimp only
      omega
  · rw [encodeCode, if_neg h1, if_neg h2, if_neg h3]
    have hb := hmod (code / 262144 % 0x08 + 0xf0)
    refine ⟨_, _, _, rfl, lead?_four (by omega), fun left => ?_⟩
    refine (continueChar_ofNat ?low ?high).trans ((continueChar_following (by omega)).trans
      ((continueChar_following (by omega)).trans (continueChar_zero.2 ⟨?code, rfl⟩)))
    case low =>
      exact (ite_toNat_le (by decide)).2 ⟨Nat.le_add_left _ _, fun h0 => by show 0x90 ≤ _; omega⟩
    case high =>
      exact (le_ite_toNat (by decide)).2
        ⟨by show _ ≤ 0xBF; omega, fun h4 => by show _ ≤ 0x8F; omega⟩
    case code =>
      dsimp only
      omega

end

/-! ### A text -/

theorem decodeOnto_cons {done : List Char} {start : Nat} {b : UInt8} {lead : Lead} {code : Nat}
    {bytes left : List UInt8} (hlead : lead? b = some lead)
    (hread : continueChar lead.bits 1 lead.low lead.high lead.rest bytes = .ok (code, left)) :
    decodeOnto done start (b :: bytes) =
      decodeOnto (Char.ofNat code :: done) (start + lead.rest + 1) left := by
  rw [decodeOnto]
  simp only [hlead]
  split
  · rename_i herror
    rw [hread] at herror
    cases herror
  · rename_i hok
    rw [hread] at hok
    cases hok
    rfl

theorem utf8EncodeChar_ofNat {code : Nat} (h : code.isValidChar) :
    String.utf8EncodeChar (Char.ofNat code) = encodeCode code := by
  rw [utf8EncodeChar_eq, Char.ofNat, dif_pos h]
  rfl

theorem decodeOnto_encode (done : List Char) (start : Nat) (s : List Char) :
    decodeOnto done start (encode s) = .ok (done.reverse ++ s) := by
  induction s generalizing done start with
  | nil => rw [encode, List.flatMap_nil, decodeOnto, List.append_nil]
  | cons c s ih =>
    have hvalid : c.toNat.isValidChar := c.valid
    obtain ⟨b, more, lead, hencode, hlead, hread⟩ := exists_lead_of_isValidChar hvalid
    rw [encode, List.flatMap_cons, utf8EncodeChar_eq, hencode, List.cons_append,
      decodeOnto_cons hlead (hread _), Char.ofNat_toNat, ← encode, ih, List.reverse_cons,
      List.append_assoc, List.singleton_append]

theorem exists_eq_encode_of_decodeOnto {done s : List Char} {start : Nat} {bytes : List UInt8}
    (h : decodeOnto done start bytes = .ok s) : ∃ t, s = done.reverse ++ t ∧ bytes = encode t := by
  fun_induction decodeOnto done start bytes with
  | case1 done start =>
    cases h
    exact ⟨[], (List.append_nil _).symm, rfl⟩
  | case2 | case3 => cases h
  | case4 done start b bytes lead hlead code left hread ih =>
    obtain ⟨hvalid, hbytes⟩ := eq_encodeCode_of_continueChar hlead hread
    obtain ⟨t, rfl, rfl⟩ := ih h
    refine ⟨Char.ofNat code :: t, ?_, ?_⟩
    · rw [List.reverse_cons, List.append_assoc, List.singleton_append]
    · rw [hbytes, encode, encode, List.flatMap_cons, utf8EncodeChar_ofNat hvalid]

/-- Bytes are read as a text exactly when they are its bytes. -/
theorem decode_eq_ok_iff {bytes : List UInt8} {s : List Char} :
    decode bytes = .ok s ↔ bytes = encode s := by
  constructor
  · intro h
    obtain ⟨t, rfl, hbytes⟩ := exists_eq_encode_of_decodeOnto h
    exact hbytes
  · rintro rfl
    exact decodeOnto_encode [] 0 s

end ScriptBlocks.Utf8
