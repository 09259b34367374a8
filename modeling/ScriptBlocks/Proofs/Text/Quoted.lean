import Mathlib.Algebra.Group.Nat.Defs
import ScriptBlocks.Text.Quoted

/-!
# Quoted text can be read back

Each character of a quoted text can be told from how it is written there
(`Text.readChar_quotedChar`), and none is written with the quote first.  So quoted text says by
itself which text it stands for and where it ends (`Text.quoted_append_inj`).
-/

namespace ScriptBlocks.Text

/-! ### Hexadecimal digits -/

/-- The value of a hexadecimal digit. -/
def digitValue (c : Char) : Nat := if c.toNat < 0x3a then c.toNat - 0x30 else c.toNat - 0x57

/-- The number that hexadecimal digits write. -/
def hexValue (s : List Char) : Nat := s.foldl (fun n c => 16 * n + digitValue c) 0

theorem digitValue_hexDigit {n : Nat} (h : n < 16) : digitValue (hexDigit n) = n := by
  have hall : ∀ m, m < 16 → digitValue (hexDigit m) = m := by decide
  exact hall n h

theorem hexValue_hexDigits (width n : Nat) : hexValue (hexDigits width n) = n % 16 ^ width := by
  induction width generalizing n with
  | zero => rw [Nat.pow_zero, Nat.mod_one]; rfl
  | succ width ih =>
    have hdigit := digitValue_hexDigit (Nat.mod_lt n (by decide : 0 < 16))
    have hrest := ih (n / 16)
    unfold hexValue at hrest ⊢
    rw [hexDigits, List.foldl_append, List.foldl_cons, List.foldl_nil, hrest, hdigit, Nat.pow_succ,
      Nat.mul_comm (16 ^ width), Nat.mod_mul, Nat.add_comm]

theorem length_hexDigits (width n : Nat) : (hexDigits width n).length = width := by
  induction width generalizing n with
  | zero => rfl
  | succ width ih => rw [hexDigits, List.length_append, ih, List.length_singleton]

/-! ### One character -/

/-- The character of the code point in the first `width` digits, and the text after them. -/
def readCode (width : Nat) (s : List Char) : Char × List Char :=
  (Char.ofNat (hexValue (s.take width)), s.drop width)

/-- The character that a quoted text has first, and the text after it. -/
def readChar : List Char → Option (Char × List Char)
  | [] => none
  | '\\' :: 'n' :: s => some ('\n', s)
  | '\\' :: 'r' :: s => some ('\r', s)
  | '\\' :: 't' :: s => some ('\t', s)
  | '\\' :: 'x' :: s => some (readCode 2 s)
  | '\\' :: 'u' :: s => some (readCode 4 s)
  | '\\' :: 'U' :: s => some (readCode 8 s)
  | '\\' :: c :: s => some (c, s)
  | c :: s => some (c, s)

theorem readCode_hexDigits {width : Nat} {c : Char} {s : List Char} (h : c.toNat < 16 ^ width) :
    readCode width (hexDigits width c.toNat ++ s) = (c, s) := by
  have hlength := length_hexDigits width c.toNat
  rw [readCode, List.take_left' hlength, List.drop_left' hlength, hexValue_hexDigits,
    Nat.mod_eq_of_lt h, Char.ofNat_toNat]

theorem readChar_quotedChar {quote c : Char} {s : List Char} (hq : quote = '\'' ∨ quote = '"') :
    readChar (quotedChar quote c ++ s) = some (c, s) := by
  unfold quotedChar
  split
  · next h =>
    rcases h with rfl | rfl
    · rcases hq with rfl | rfl <;> rfl
    · rfl
  · next h =>
    have hc : c ≠ '\\' := fun hc => h (Or.inr hc)
    split
    · next h => rw [h]; rfl
    · split
      · next h => rw [h]; rfl
      · split
        · next h => rw [h]; rfl
        · split
          · simp [readChar, hc]
          · split
            · next h => exact congrArg some (readCode_hexDigits h)
            · split
              · next h => exact congrArg some (readCode_hexDigits h)
              · exact congrArg some (readCode_hexDigits c.val.toNat_lt)

/-! ### The whole text -/

theorem head?_quotedChar {quote c : Char} (hq : quote = '\'' ∨ quote = '"') :
    (quotedChar quote c).head? ≠ some quote := by
  have hslash : quote ≠ '\\' := by rcases hq with rfl | rfl <;> decide
  unfold quotedChar
  split
  · simpa using hslash.symm
  · next h =>
    have hc : c ≠ quote := fun hc => h (Or.inl hc)
    repeat' split
    all_goals simp [hc, hslash.symm]

theorem quotedChar_ne_nil (quote c : Char) : quotedChar quote c ≠ [] := by
  unfold quotedChar
  repeat' split
  all_goals exact List.cons_ne_nil _ _

theorem flatMap_quotedChar_inj {quote : Char} (hq : quote = '\'' ∨ quote = '"')
    {s s' t t' : List Char}
    (h : s.flatMap (quotedChar quote) ++ quote :: t = s'.flatMap (quotedChar quote) ++ quote :: t') :
    s = s' ∧ t = t' := by
  have hend : ∀ (c : Char) (u v w : List Char),
      quote :: u ≠ (quotedChar quote c ++ v) ++ w := by
    intro c u v w heq
    have hhead := congrArg List.head? heq
    obtain ⟨d, rest, hd⟩ := List.exists_cons_of_ne_nil (quotedChar_ne_nil quote c)
    rw [hd] at hhead
    apply head?_quotedChar (c := c) hq
    rw [hd]
    exact hhead.symm
  induction s generalizing s' with
  | nil =>
    cases s' with
    | nil => exact ⟨rfl, (List.cons.inj h).2⟩
    | cons c' s' => exact absurd h (hend c' t _ _)
  | cons c s ih =>
    cases s' with
    | nil => exact absurd h.symm (hend c t' _ _)
    | cons c' s' =>
      rw [List.flatMap_cons, List.flatMap_cons, List.append_assoc, List.append_assoc] at h
      have hread := congrArg readChar h
      rw [readChar_quotedChar hq, readChar_quotedChar hq] at hread
      obtain ⟨rfl, hrest⟩ := Prod.mk.inj (Option.some.inj hread)
      obtain ⟨rfl, rfl⟩ := ih hrest
      exact ⟨rfl, rfl⟩

theorem quoteFor_eq (s : List Char) : quoteFor s = '\'' ∨ quoteFor s = '"' := by
  unfold quoteFor
  split
  · exact Or.inr rfl
  · exact Or.inl rfl

/-- Quoted text says which text it stands for, whatever follows it. -/
theorem quoted_append_inj {s s' : String} {t t' : List Char}
    (h : (quoted s).toList ++ t = (quoted s').toList ++ t') : s = s' ∧ t = t' := by
  simp only [quoted, String.toList_ofList, List.cons_append, List.append_assoc,
    List.nil_append] at h
  obtain ⟨hquote, hrest⟩ := List.cons.inj h
  rw [← hquote] at hrest
  obtain ⟨hs, ht⟩ := flatMap_quotedChar_inj (quoteFor_eq s.toList) hrest
  exact ⟨String.toList_inj.1 hs, ht⟩

end ScriptBlocks.Text
