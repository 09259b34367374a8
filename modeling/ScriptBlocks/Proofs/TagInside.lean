import ScriptBlocks.Proofs.ClosingAngle
import ScriptBlocks.Proofs.Document

/-!
# The inside of a tag

What stands between `<script` and the angle that closes the tag has a grammar: it is a row of
pieces, each of them a character that is neither a quote nor `>`, or a quoted part
(`Tag.IsInside`).  The search for the closing angle, which knows only which quote is open, finds
the one `>` with such an inside before it (`Tag.closingAngle?_eq_some_iff`).  From a negative
position it reads the end of the text and then the whole of it (`Tag.Ahead`).
-/

namespace ScriptBlocks.Tag

open Text

/-! ### The grammar -/

/-- A piece of the inside of a tag. -/
inductive Piece where
  /-- A character that neither closes the tag nor opens a quoted part. -/
  | plain (c : Char) (ne_angle : c ≠ '>') (ne_double : c ≠ '"') (ne_single : c ≠ '\'')
  /-- A quoted part, which holds anything but the quote that ends it. -/
  | quoted (quote : Quote) (inside : List Char) (no_quote : quote.char ∉ inside)

def Piece.render : Piece → List Char
  | plain c _ _ _ => [c]
  | quoted quote inside _ => quote.char :: (inside ++ [quote.char])

/-- The text is a row of pieces. -/
def IsInside (s : List Char) : Prop := ∃ pieces : List Piece, s = pieces.flatMap Piece.render

/-- The tag whose name ends at `pos` is closed by the angle at index `i`. -/
structure ClosesAt (text : List Char) (pos i : Nat) : Prop where
  le : pos ≤ i
  angle : text[i]? = some '>'
  inside : IsInside (slice text pos i)

section

variable {text s : List Char} {pos i j n : Nat} {c : Char}

theorem isInside_nil : IsInside [] := ⟨[], rfl⟩

theorem IsInside.cons (piece : Piece) (h : IsInside s) : IsInside (piece.render ++ s) := by
  obtain ⟨pieces, rfl⟩ := h
  exact ⟨piece :: pieces, by rw [List.flatMap_cons]⟩

/-- The text is what may follow inside a tag while a quote is open, if one is. -/
def Continues (s : List Char) : Option Quote → Prop
  | none => IsInside s
  | some quote => ∃ u t, s = u ++ quote.char :: t ∧ quote.char ∉ u ∧ IsInside t

theorem Continues.cons_quote {quote : Quote} (h : Continues s (some quote)) :
    IsInside (quote.char :: s) := by
  obtain ⟨u, t, rfl, hu, ht⟩ := h
  have := ht.cons (.quoted quote u hu)
  simpa [Piece.render] using this

theorem Continues.cons_of_ne {quote : Quote} (hc : c ≠ quote.char) (h : Continues s (some quote)) :
    Continues (c :: s) (some quote) := by
  obtain ⟨u, t, rfl, hu, ht⟩ := h
  exact ⟨c :: u, t, rfl, by simp [hu, Ne.symm hc], ht⟩

/-! ### The search -/

theorem closingAngleFrom?_plain (ha : c ≠ '>') (hd : c ≠ '"') (hs : c ≠ '\'') :
    closingAngleFrom? none i (c :: s) = closingAngleFrom? none (i + 1) s := by
  simp [closingAngleFrom?, ha, hd, hs]

theorem closingAngleFrom?_quote (quote : Quote) :
    closingAngleFrom? none i (quote.char :: s) =
      closingAngleFrom? (some quote.char) (i + 1) s := by
  cases quote <;> simp [closingAngleFrom?, Quote.char]

/-- The search passes over the inside of a tag. -/
theorem closingAngleFrom?_inside (h : IsInside s) :
    closingAngleFrom? none i (s ++ '>' :: text) = some (i + s.length) := by
  obtain ⟨pieces, rfl⟩ := h
  induction pieces generalizing i with
  | nil => rfl
  | cons piece pieces ih =>
    rw [List.flatMap_cons, List.append_assoc, List.length_append]
    cases piece with
    | plain c ha hd hs =>
      simp only [Piece.render, List.singleton_append, List.length_singleton]
      rw [closingAngleFrom?_plain ha hd hs, ih, Nat.add_assoc]
    | quoted quote u hu =>
      simp only [Piece.render, List.cons_append, List.append_assoc, List.nil_append,
        List.length_cons, List.length_append, List.length_nil]
      rw [closingAngleFrom?_quote, closingAngleFrom?_quoted hu, ih]
      congr 1
      omega

/-- What the search has passed over when it ends is the inside of a tag, or the rest of one where
it began with an open quote. -/
theorem continues_take {quote : Option Quote}
    (h : closingAngleFrom? (quote.map Quote.char) i s = some (i + j)) :
    Continues (s.take j) quote := by
  induction s generalizing quote i j with
  | nil => cases h
  | cons c s ih =>
    -- Unless `c` is the closing angle, the search goes on after it, with a quote open or not.
    have hstep : ∀ next : Option Quote,
        closingAngleFrom? (next.map Quote.char) (i + 1) s = some (i + j) →
          ∃ k, (c :: s).take j = c :: s.take k ∧ Continues (s.take k) next := by
      intro next hnext
      have := (bounds_of_closingAngleFrom? hnext).1
      obtain ⟨k, rfl⟩ : ∃ k, j = k + 1 := ⟨j - 1, by omega⟩
      exact ⟨k, List.take_succ_cons, ih (i := i + 1) (by rw [hnext]; congr 1; omega)⟩
    cases quote with
    | some quote =>
      simp only [Option.map_some, closingAngleFrom?] at h
      by_cases hc : c = quote.char
      · obtain ⟨k, htake, hk⟩ := hstep none (by simpa [hc] using h)
        rw [htake, hc]
        exact ⟨[], _, rfl, List.not_mem_nil, hk⟩
      · obtain ⟨k, htake, hk⟩ := hstep (some quote) (by simpa [hc] using h)
        rw [htake]
        exact hk.cons_of_ne hc
    | none =>
      by_cases ha : c = '>'
      · have hj : i = i + j := by simpa [closingAngleFrom?, ha] using h
        obtain rfl : j = 0 := by omega
        exact isInside_nil
      · by_cases hq : ∃ quote : Quote, c = quote.char
        · obtain ⟨quote, rfl⟩ := hq
          obtain ⟨k, htake, hk⟩ := hstep (some quote) (by rw [← h]; exact
            (closingAngleFrom?_quote quote).symm)
          rw [htake]
          exact hk.cons_quote
        · have hd : c ≠ '"' := fun hd => hq ⟨.double, hd⟩
          have hs : c ≠ '\'' := fun hs => hq ⟨.single, hs⟩
          obtain ⟨k, htake, hk⟩ := hstep none (by rw [← h]; exact
            (closingAngleFrom?_plain ha hd hs).symm)
          rw [htake]
          exact IsInside.cons (.plain c ha hd hs) hk

/-- The closing angle is the `>` with the inside of a tag before it. -/
theorem closingAngle?_eq_some_iff : closingAngle? text pos = some i ↔ ClosesAt text pos i := by
  constructor
  · intro h
    have hle := (bounds_of_closingAngle? h).1
    refine ⟨hle, getElem?_closingAngle? h, ?_⟩
    have hopen : closingAngleFrom? ((none : Option Quote).map Quote.char) pos (text.drop pos) =
        some (pos + (i - pos)) := by rw [Nat.add_sub_cancel' hle]; exact h
    exact continues_take hopen
  · rintro ⟨hle, hangle, hinside⟩
    obtain ⟨hi, hget⟩ := List.getElem?_eq_some_iff.1 hangle
    have hdrop : text.drop pos = slice text pos i ++ '>' :: text.drop (i + 1) := by
      rw [← hget, ← List.drop_eq_getElem_cons hi]
      have := List.take_append_drop (i - pos) (text.drop pos)
      rw [List.drop_drop, Nat.add_sub_cancel' hle] at this
      exact this.symm
    rw [closingAngle?, hdrop, closingAngleFrom?_inside hinside, length_slice (by omega)]
    congr 1
    omega

theorem closingAngle?_eq_none_iff : closingAngle? text pos = none ↔ ¬ ∃ i, ClosesAt text pos i := by
  simp only [← closingAngle?_eq_some_iff, ← Option.isSome_iff_exists, Option.not_isSome_iff_eq_none]

theorem ClosesAt.unique (hi : ClosesAt text pos i) (hj : ClosesAt text pos j) : i = j := by
  rw [← closingAngle?_eq_some_iff] at hi hj
  exact Option.some.inj (hi.symm.trans hj)

end

/-! ### Any integer as a position -/

/-- What is read from a position on, one position after the other, up to the end of the text. -/
inductive Ahead (text : List Char) : Int → List Char → Prop
  | nil {pos : Int} {n : Nat} : indexOf text pos = .ok n → text[n]? = none → Ahead text pos []
  | cons {pos : Int} {n : Nat} {c : Char} {s : List Char} :
    indexOf text pos = .ok n → text[n]? = some c → Ahead text (pos + 1) s → Ahead text pos (c :: s)

section

variable {text s : List Char} {pos : Int} {n : Nat}

theorem indexOf_natCast (text : List Char) (n : Nat) : indexOf text n = .ok n := by
  simp [indexOf]

theorem indexOf_sub_length (h : n < text.length) : indexOf text (n - text.length) = .ok n := by
  rw [indexOf, if_neg (by omega), if_neg (by omega)]
  congr 1
  omega

theorem indexOf_eq_error (h : pos < -text.length) : indexOf text pos = .error ⟨pos⟩ := by
  rw [indexOf, if_neg (by omega), if_pos (by omega)]

theorem ahead_natCast (text : List Char) (n : Nat) : Ahead text n (text.drop n) := by
  induction hs : text.drop n generalizing n with
  | nil =>
    exact .nil (indexOf_natCast text n) (List.getElem?_eq_none (List.drop_eq_nil_iff.1 hs))
  | cons c s ih =>
    have hc : text[n]? = some c := by rw [← List.head?_drop, hs, List.head?_cons]
    refine .cons (indexOf_natCast text n) hc ?_
    exact_mod_cast ih (n + 1) (by rw [← List.tail_drop, hs, List.tail_cons])

/-- From a negative position the end of the text is read and then the whole of it. -/
theorem ahead_sub_length (h : n ≤ text.length) :
    Ahead text (n - text.length) (text.drop n ++ text) := by
  induction hs : text.drop n generalizing n with
  | nil =>
    obtain rfl : n = text.length := Nat.le_antisymm h (List.drop_eq_nil_iff.1 hs)
    rw [Int.sub_self, List.nil_append]
    exact ahead_natCast text 0
  | cons c s ih =>
    have hc : text[n]? = some c := by rw [← List.head?_drop, hs, List.head?_cons]
    have hn := (List.getElem?_eq_some_iff.1 hc).1
    refine .cons (indexOf_sub_length hn) hc ?_
    have := ih (n := n + 1) hn (by rw [← List.tail_drop, hs, List.tail_cons])
    rwa [show (n : Int) - text.length + 1 = (n + 1 : Nat) - text.length by omega]

theorem closingAngleFromSigned?_eq_none {quote : Option Char} (hn : indexOf text pos = .ok n)
    (hc : text[n]? = none) : closingAngleFromSigned? text quote pos = .ok none := by
  rw [closingAngleFromSigned?]
  split
  · next he => rw [hn] at he; cases he
  · next m hm =>
    obtain rfl : n = m := Except.ok.inj (hn.symm.trans hm)
    split
    · rfl
    · next he => rw [hc] at he; cases he

theorem closingAngleFromSigned?_eq {quote : Option Char} {c : Char} (hn : indexOf text pos = .ok n)
    (hc : text[n]? = some c) :
    closingAngleFromSigned? text quote pos =
      match quote with
      | some q => closingAngleFromSigned? text (if c = q then none else some q) (pos + 1)
      | none =>
        if c = '>' then .ok (some pos)
        else closingAngleFromSigned? text (if c = '"' ∨ c = '\'' then some c else none) (pos + 1) := by
  rw [closingAngleFromSigned?]
  split
  · next he => rw [hn] at he; cases he
  · next m hm =>
    obtain rfl : n = m := Except.ok.inj (hn.symm.trans hm)
    split
    · next he => rw [hc] at he; cases he
    · next d hd =>
      obtain rfl : c = d := Option.some.inj (hc.symm.trans hd)
      rfl

/-- The search from a position on goes through what is ahead of it. -/
theorem Ahead.closingAngle_eq (h : Ahead text pos s) (quote : Option Char) :
    closingAngleFromSigned? text quote pos =
      .ok ((closingAngleFrom? quote 0 s).map fun j : Nat => (j : Int) + pos) := by
  induction h generalizing quote with
  | nil hn hc => exact closingAngleFromSigned?_eq_none hn hc
  | @cons pos n c s hn hc _ ih =>
    have hshift : ∀ next, closingAngleFromSigned? text next (pos + 1) =
        .ok ((closingAngleFrom? next (0 + 1) s).map fun j : Nat => (j : Int) + pos) := by
      intro next
      rw [ih, Nat.add_comm 0 1, closingAngleFrom?_add, Option.map_map]
      congr 2
      funext j
      simp only [Function.comp_apply]
      omega
    rw [closingAngleFromSigned?_eq hn hc, closingAngleFrom?.eq_def]
    cases quote with
    | some q => exact hshift _
    | none =>
      by_cases ha : c = '>'
      · simp [ha]
      · simp only [if_neg ha]
        exact hshift _

theorem closingAngleSigned?_natCast (text : List Char) (n : Nat) :
    closingAngleSigned? text n = .ok ((closingAngle? text n).map Int.ofNat) := by
  have hshift : closingAngleFrom? none n (text.drop n) =
      (closingAngleFrom? none 0 (text.drop n)).map (n + ·) := by
    rw [← closingAngleFrom?_add, Nat.add_zero]
  rw [closingAngleSigned?, (ahead_natCast text n).closingAngle_eq, closingAngle?, hshift,
    Option.map_map]
  congr 2
  funext j
  simp only [Function.comp_apply, Int.ofNat_eq_natCast]
  omega

/-- From any position the angle is found that closes the tag, by the grammar of its inside.  From a
negative position it is the one in the text with its own end before it, and a position before the
start is refused. -/
theorem closingAngleSigned?_grammar (text : List Char) (pos : Int) :
    (0 ≤ pos →
      (∀ i : Int, closingAngleSigned? text pos = .ok (some i) ↔
        0 ≤ i ∧ ClosesAt text pos.toNat i.toNat) ∧
      (∀ i j, ClosesAt text pos.toNat i → ClosesAt text pos.toNat j → i = j) ∧
      (closingAngleSigned? text pos = .ok none ↔ ¬ ∃ i, ClosesAt text pos.toNat i)) ∧
    (-text.length ≤ pos → pos < 0 →
      closingAngleSigned? text pos =
        (closingAngleSigned? (text.drop (text.length + pos).toNat ++ text) 0).map
          (Option.map (· + pos))) ∧
    (pos < -text.length → closingAngleSigned? text pos = .error ⟨pos⟩) := by
  refine ⟨fun h => ?_, fun hle hneg => ?_, fun h => ?_⟩
  · obtain ⟨n, rfl⟩ := Int.eq_ofNat_of_zero_le h
    simp only [closingAngleSigned?_natCast, Int.toNat_natCast, ← closingAngle?_eq_none_iff]
    refine ⟨fun i => ?_, fun i j => ClosesAt.unique, ?_⟩
    · rw [← closingAngle?_eq_some_iff]
      constructor
      · intro h
        obtain ⟨j, hj, rfl⟩ := Option.map_eq_some_iff.1 (Except.ok.inj h)
        exact ⟨Int.natCast_nonneg j, hj⟩
      · rintro ⟨hi, h⟩
        rw [h, Option.map_some, Int.ofNat_eq_natCast, Int.toNat_of_nonneg hi]
    · rw [Except.ok.injEq, Option.map_eq_none_iff]
  · obtain ⟨n, hn⟩ := Int.eq_ofNat_of_zero_le (show 0 ≤ text.length + pos by omega)
    obtain rfl : pos = n - text.length := by omega
    have hzero := closingAngleSigned?_natCast (text.drop n ++ text) 0
    rw [Int.natCast_zero] at hzero
    rw [hn, Int.toNat_natCast, hzero, closingAngleSigned?,
      (ahead_sub_length (by omega)).closingAngle_eq, Except.map, Option.map_map]
    rfl
  · rw [closingAngleSigned?, closingAngleFromSigned?]
    split
    · next e he =>
      rw [indexOf_eq_error h] at he
      rw [Except.error.inj he]
    · next he =>
      rw [indexOf_eq_error h] at he
      cases he

/-- A quoted angle and one that closes the tag. -/
def quotedAngle : List Char := ['\'', '>', '\'', '>']

theorem closingAngleSigned?_grammar_quotedAngle :
    ClosesAt quotedAngle 0 3 ∧ closingAngleSigned? quotedAngle (-2) = .ok (some 1) ∧
      closingAngleSigned? quotedAngle (-5) = .error ⟨-5⟩ := by
  have hstart : closingAngleSigned? quotedAngle 0 = .ok (some 3) :=
    closingAngleSigned?_natCast quotedAngle 0
  -- With its own end before it the text has a quoted angle first.
  have haround : closingAngleSigned? ['\'', '>', '\'', '>', '\'', '>'] 0 = .ok (some 3) :=
    closingAngleSigned?_natCast _ 0
  refine ⟨?_, ?_, ?_⟩
  · exact (((closingAngleSigned?_grammar quotedAngle 0).1 (by decide)).1 3 |>.1 hstart).2
  · have hbefore := (closingAngleSigned?_grammar quotedAngle (-2)).2.1 (by decide) (by decide)
    rw [hbefore]
    exact congrArg (Except.map (Option.map (· + (-2)))) haround
  · exact (closingAngleSigned?_grammar quotedAngle (-5)).2.2 (by decide)

end

end ScriptBlocks.Tag
