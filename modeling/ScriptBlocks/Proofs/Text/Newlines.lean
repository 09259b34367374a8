import ScriptBlocks.Proofs.Text.Decoding
import ScriptBlocks.Text.Lines

/-!
# Unified newlines

A text with unified newlines comes apart as the text itself does: wherever it is cut, the text can
be cut such that the newlines of the two parts are unified apart from each other
(`Text.exists_append_of_unifyNewlines`).  What unifying takes away is one byte for each carriage
return with a line feed after it (`Text.size_unifyNewlines_add`), and these pairs can be counted in
the bytes as well as in the text (`Utf8.countPairs_encode`).  Cut into lines, a text that holds no
end of a line is a line of its own before any line feed (`Text.lines_append_lineFeed`).
-/

namespace ScriptBlocks

namespace Text

/-! ### Pairs -/

section

variable {α : Type} [BEq α] [LawfulBEq α] {a b x : α} {s t : List α}

/-- The number of places where `a` stands right before `b`. -/
def countPairs (a b : α) (s : List α) : Nat := (s.zip s.tail).count (a, b)

theorem countPairs_cons_of_not (h : ¬ (x = a ∧ s.head? = some b)) :
    countPairs a b (x :: s) = countPairs a b s := by
  cases s with
  | nil => rfl
  | cons y s =>
    apply List.count_cons_of_ne
    intro heq
    cases heq
    exact h ⟨rfl, rfl⟩

theorem countPairs_cons_self (h : s.head? = some b) :
    countPairs a b (a :: s) = countPairs a b s + 1 := by
  cases s with
  | nil => cases h
  | cons y s =>
    cases h
    exact List.count_cons_self

theorem countPairs_append_of_notMem (h : a ∉ s) : countPairs a b (s ++ t) = countPairs a b t := by
  induction s with
  | nil => rfl
  | cons x s ih =>
    rw [List.mem_cons, not_or] at h
    rw [List.cons_append, countPairs_cons_of_not fun hx => h.1 hx.1.symm, ih h.2]

theorem countPairs_le_append (a b : α) (s t : List α) :
    countPairs a b s ≤ countPairs a b (s ++ t) := by
  induction s with
  | nil => exact Nat.zero_le _
  | cons x s ih =>
    rw [List.cons_append]
    by_cases h : x = a ∧ s.head? = some b
    · obtain ⟨rfl, hs⟩ := h
      rw [countPairs_cons_self hs, countPairs_cons_self (by rw [List.head?_append, hs]; rfl)]
      exact Nat.succ_le_succ ih
    · rw [countPairs_cons_of_not h]
      apply Nat.le_trans ih
      by_cases h' : x = a ∧ (s ++ t).head? = some b
      · rw [h'.1, countPairs_cons_self h'.2]
        exact Nat.le_succ _
      · exact Nat.le_of_eq (countPairs_cons_of_not h').symm

end

/-! ### Unifying -/

section

variable {c : Char} {s t raw : List Char}

/-- A text is read a pair or a character at a time. -/
@[elab_as_elim]
theorem newlineInduction {motive : List Char → Prop} (nil : motive [])
    (pair : ∀ s, motive s → motive ('\r' :: '\n' :: s))
    (cons : ∀ c s, ¬ (c = '\r' ∧ s.head? = some '\n') → motive s → motive (c :: s))
    (s : List Char) : motive s := by
  induction ([] : List Char), s using unifyNewlinesOnto.induct with
  | case1 => exact nil
  | case2 _ s ih => exact pair s ih
  | case3 _ c s h ih =>
    apply cons c s _ ih
    rintro ⟨rfl, hs⟩
    cases s with
    | nil => cases hs
    | cons d s =>
      cases hs
      exact h s rfl rfl

theorem unifyNewlinesOnto_cons (h : ¬ (c = '\r' ∧ s.head? = some '\n')) (done : List Char) :
    unifyNewlinesOnto done (c :: s) =
      unifyNewlinesOnto ((if c = '\r' then '\n' else c) :: done) s := by
  rw [unifyNewlinesOnto]
  rintro t rfl rfl
  exact h ⟨rfl, rfl⟩

theorem unifyNewlinesOnto_append (done before s : List Char) :
    unifyNewlinesOnto (done ++ before) s = before.reverse ++ unifyNewlinesOnto done s := by
  induction s using newlineInduction generalizing done with
  | nil => exact List.reverse_append
  | pair s ih => exact ih ('\n' :: done)
  | cons c s h ih =>
    rw [unifyNewlinesOnto_cons h, unifyNewlinesOnto_cons h]
    exact ih (_ :: done)

theorem unifyNewlines_pair (s : List Char) :
    unifyNewlines ('\r' :: '\n' :: s) = '\n' :: unifyNewlines s :=
  unifyNewlinesOnto_append [] ['\n'] s

theorem unifyNewlines_cons (h : ¬ (c = '\r' ∧ s.head? = some '\n')) :
    unifyNewlines (c :: s) = (if c = '\r' then '\n' else c) :: unifyNewlines s := by
  rw [unifyNewlines, unifyNewlinesOnto_cons h]
  exact unifyNewlinesOnto_append [] [_] s

theorem unifyNewlines_eq_self (h : '\r' ∉ s) : unifyNewlines s = s := by
  induction s using newlineInduction with
  | nil => rfl
  | pair s => simp at h
  | cons c s hc ih =>
    rw [List.mem_cons, not_or] at h
    rw [unifyNewlines_cons hc, if_neg (Ne.symm h.1), ih h.2]

/-- Where a text with unified newlines is cut, the text itself can be cut. -/
theorem exists_append_of_unifyNewlines (h : unifyNewlines raw = s ++ t) :
    ∃ u v, raw = u ++ v ∧ unifyNewlines u = s ∧ unifyNewlines v = t := by
  induction raw using newlineInduction generalizing s with
  | nil =>
    obtain ⟨rfl, rfl⟩ := List.append_eq_nil_iff.1 h.symm
    exact ⟨[], [], rfl, rfl, rfl⟩
  | pair raw ih =>
    cases s with
    | nil => exact ⟨[], _, rfl, rfl, h⟩
    | cons d s =>
      rw [unifyNewlines_pair, List.cons_append, List.cons.injEq] at h
      obtain ⟨rfl, h⟩ := h
      obtain ⟨u, v, rfl, rfl, rfl⟩ := ih h
      exact ⟨'\r' :: '\n' :: u, v, rfl, unifyNewlines_pair u, rfl⟩
  | cons c raw hc ih =>
    cases s with
    | nil => exact ⟨[], _, rfl, rfl, h⟩
    | cons d s =>
      rw [unifyNewlines_cons hc, List.cons_append, List.cons.injEq] at h
      obtain ⟨rfl, h⟩ := h
      obtain ⟨u, v, rfl, rfl, rfl⟩ := ih h
      refine ⟨c :: u, v, rfl, unifyNewlines_cons ?_, rfl⟩
      -- The part before the cut has the first character of the text, if it has any.
      rintro ⟨hcr, hu⟩
      exact hc ⟨hcr, by rw [List.head?_append, hu]; rfl⟩

/-- A text is what its newlines are unified to, if this has no newline. -/
theorem eq_of_unifyNewlines_eq (ht : '\n' ∉ t) (h : unifyNewlines raw = t) : raw = t := by
  induction raw using newlineInduction generalizing t with
  | nil => exact h
  | pair raw ih =>
    rw [unifyNewlines_pair] at h
    exact absurd (h ▸ List.mem_cons_self) ht
  | cons c raw hc ih =>
    rw [unifyNewlines_cons hc] at h
    subst h
    rw [List.mem_cons, not_or] at ht
    by_cases hcr : c = '\r'
    · simp [hcr] at ht
    · rw [if_neg hcr, ← ih ht.2 rfl]

theorem unifyNewlines_append (h : '\r' ∉ s) (t : List Char) :
    unifyNewlines (s ++ t) = s ++ unifyNewlines t := by
  induction s with
  | nil => rfl
  | cons c s ih =>
    simp only [List.mem_cons, not_or] at h
    rw [List.cons_append, unifyNewlines_cons fun hc => h.1 hc.1.symm, if_neg (Ne.symm h.1), ih h.2,
      List.cons_append]

/-- What unifying newlines takes away is the bytes of the line feeds after carriage returns. -/
theorem size_unifyNewlines_add (s : List Char) :
    Utf8.size (unifyNewlines s) + countPairs '\r' '\n' s = Utf8.size s := by
  induction s using newlineInduction with
  | nil => rfl
  | pair s ih =>
    rw [unifyNewlines_pair, countPairs_cons_self rfl, countPairs_cons_of_not (by simp),
      Utf8.size_cons, Utf8.size_cons, Utf8.size_cons, ← ih]
    show 1 + _ + _ = 1 + (1 + _)
    omega
  | cons c s hc ih =>
    rw [unifyNewlines_cons hc, countPairs_cons_of_not hc, Utf8.size_cons, Utf8.size_cons, ← ih,
      Nat.add_assoc]
    by_cases hcr : c = '\r'
    · rw [hcr]
      rfl
    · rw [if_neg hcr]

end

/-! ### Lines -/

/-- The text has no character at which a line ends. -/
def OnOneLine (s : List Char) : Prop := ∀ c ∈ s, isLineBoundary c = false

instance (s : List Char) : Decidable (OnOneLine s) :=
  decidable_of_iff (s.all (!isLineBoundary ·) = true) (by simp [OnOneLine])

section

variable {c : Char} {s t : List Char}

theorem OnOneLine.append (hs : OnOneLine s) (ht : OnOneLine t) : OnOneLine (s ++ t) :=
  List.forall_mem_append.2 ⟨hs, ht⟩

theorem OnOneLine.notMem (h : OnOneLine s) (hc : isLineBoundary c = true) : c ∉ s :=
  fun hmem => by simp [h c hmem] at hc

theorem linesFrom_cons (h : isLineBoundary c = false) (line s : List Char) :
    linesFrom line (c :: s) = linesFrom (c :: line) s := by
  conv_lhs => unfold linesFrom
  split
  · next heq => cases heq
  · next heq =>
    cases heq
    cases h
  · next heq =>
    cases heq
    simp [h]

theorem linesFrom_lineFeed (line s : List Char) :
    linesFrom line ('\n' :: s) = line.reverse :: lines s := rfl

theorem linesFrom_append (h : OnOneLine s) (line t : List Char) :
    linesFrom line (s ++ t) = linesFrom (s.reverse ++ line) t := by
  induction s generalizing line with
  | nil => rfl
  | cons c s ih =>
    have hc : isLineBoundary c = false := h c List.mem_cons_self
    rw [List.cons_append, linesFrom_cons hc, ih fun d hd => h d (List.mem_cons_of_mem c hd)]
    simp

theorem lines_append_lineFeed (h : OnOneLine s) (t : List Char) :
    lines (s ++ '\n' :: t) = s :: lines t := by
  rw [lines, linesFrom_append h, linesFrom_lineFeed]
  simp [lines]

end

end Text

/-! ### Pairs in bytes -/

namespace Utf8

section

variable {a b c : Char} {s : List Char}

theorem utf8EncodeChar_of_lt (h : c.toNat < 0x80) :
    String.utf8EncodeChar c = [UInt8.ofNat c.toNat] := by
  rw [utf8EncodeChar_eq, encodeCode, if_pos (by omega)]

/-- A character that is not of ASCII has no byte of ASCII. -/
theorem le_of_mem_utf8EncodeChar {byte : UInt8} (h : 0x80 ≤ c.toNat)
    (hbyte : byte ∈ String.utf8EncodeChar c) : 0x80 ≤ byte.toNat := by
  have hc : c.toNat.isValidChar := c.valid
  unfold Nat.isValidChar at hc
  rw [utf8EncodeChar_eq, encodeCode, if_neg (by omega)] at hbyte
  split at hbyte
  · simp only [List.mem_cons, List.not_mem_nil, or_false] at hbyte
    rcases hbyte with rfl | rfl <;> rw [UInt8.toNat_ofNat'] <;> omega
  split at hbyte
  · simp only [List.mem_cons, List.not_mem_nil, or_false] at hbyte
    rcases hbyte with rfl | rfl | rfl <;> rw [UInt8.toNat_ofNat'] <;> omega
  · simp only [List.mem_cons, List.not_mem_nil, or_false] at hbyte
    rcases hbyte with rfl | rfl | rfl | rfl <;> rw [UInt8.toNat_ofNat'] <;> omega

/-- The byte of an ASCII character is in the bytes of no other character. -/
theorem mem_utf8EncodeChar_iff (ha : a.toNat < 0x80) :
    UInt8.ofNat a.toNat ∈ String.utf8EncodeChar c ↔ c = a := by
  have hbyte (n : Nat) (hn : n < 0x80) : (UInt8.ofNat n).toNat = n := by
    rw [UInt8.toNat_ofNat', Nat.mod_eq_of_lt (by omega)]
  constructor
  · intro hmem
    by_cases hc : c.toNat < 0x80
    · rw [utf8EncodeChar_of_lt hc, List.mem_singleton] at hmem
      have := congrArg UInt8.toNat hmem
      rw [hbyte _ ha, hbyte _ hc] at this
      exact Char.toNat_inj.1 this.symm
    · have := le_of_mem_utf8EncodeChar (Nat.not_lt.1 hc) hmem
      rw [hbyte _ ha] at this
      omega
  · rintro rfl
    rw [utf8EncodeChar_of_lt ha]
    exact List.mem_singleton_self _

theorem head?_encode (hb : b.toNat < 0x80) :
    (encode s).head? = some (UInt8.ofNat b.toNat) ↔ s.head? = some b := by
  cases s with
  | nil => simp [encode]
  | cons c s =>
    have hcons : encode (c :: s) = String.utf8EncodeChar c ++ encode s := rfl
    rw [hcons, List.head?_cons, Option.some_inj]
    constructor
    · intro hhead
      rw [List.head?_append, Option.or_eq_some_iff] at hhead
      rcases hhead with hhead | ⟨hnil, -⟩
      · exact (mem_utf8EncodeChar_iff hb).1 (List.mem_of_mem_head? hhead)
      · exact absurd (List.head?_eq_none_iff.1 hnil) String.utf8EncodeChar_ne_nil
    · rintro rfl
      rw [utf8EncodeChar_of_lt hb]
      rfl

theorem countPairs_encode (ha : a.toNat < 0x80) (hb : b.toNat < 0x80) (s : List Char) :
    Text.countPairs (UInt8.ofNat a.toNat) (UInt8.ofNat b.toNat) (encode s) =
      Text.countPairs a b s := by
  induction s with
  | nil => rfl
  | cons c s ih =>
    have hcons : encode (c :: s) = String.utf8EncodeChar c ++ encode s := rfl
    rw [hcons]
    by_cases hca : c = a
    · subst hca
      rw [utf8EncodeChar_of_lt ha, List.singleton_append]
      by_cases hs : s.head? = some b
      · rw [Text.countPairs_cons_self hs, Text.countPairs_cons_self ((head?_encode hb).2 hs), ih]
      · rw [Text.countPairs_cons_of_not fun h => hs h.2,
          Text.countPairs_cons_of_not fun h => hs ((head?_encode hb).1 h.2), ih]
    · rw [Text.countPairs_append_of_notMem (mt (mem_utf8EncodeChar_iff ha).1 hca),
        Text.countPairs_cons_of_not fun h => hca h.1, ih]

end

end Utf8

end ScriptBlocks
