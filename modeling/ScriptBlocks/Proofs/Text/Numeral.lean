import Mathlib.Algebra.Group.Nat.Defs
import Mathlib.Data.List.DropRight
import ScriptBlocks.Text.Numeral

/-!
# Integers written and read back

An integer that is read has no more digits than are read (`Numeral.natAbs_lt_of_readInt?`), and such
an integer is read back from its decimal digits with a minus sign before them if it is negative
(`Numeral.readInt?_repr`).
-/

namespace ScriptBlocks.Text.Numeral

variable {s : List Char} {ds : List Nat} {c : Char} {d n : Nat}

/-! ### What is read -/

theorem lt_of_digitValue? (h : digitValue? c = some d) : d < 10 := by
  obtain ⟨first, hfind, rfl⟩ := Option.map_eq_some_iff.1 h
  have := List.find?_some hfind
  simp only [Bool.and_eq_true, decide_eq_true_eq] at this
  omega

theorem forall_lt_of_moreDigits? (h : moreDigits? s = some ds) : ∀ d ∈ ds, d < 10 := by
  fun_induction moreDigits? s generalizing ds with
  | case1 =>
    cases h
    simp
  | case2 c s ih | case3 c s _ ih =>
    simp only [Option.bind_eq_bind, Option.bind_eq_some_iff, Option.pure_def,
      Option.some.injEq] at h
    obtain ⟨d, hd, more, hmore, rfl⟩ := h
    exact List.forall_mem_cons.2 ⟨lt_of_digitValue? hd, ih hmore⟩

theorem forall_lt_of_digits? (h : digits? s = some ds) : ∀ d ∈ ds, d < 10 := by
  cases s with
  | nil => cases h
  | cons c s =>
    simp only [digits?, Option.bind_eq_bind, Option.bind_eq_some_iff, Option.pure_def,
      Option.some.injEq] at h
    obtain ⟨d, hd, more, hmore, rfl⟩ := h
    exact List.forall_mem_cons.2 ⟨lt_of_digitValue? hd, forall_lt_of_moreDigits? hmore⟩

theorem value_concat (ds : List Nat) (d : Nat) : value (ds ++ [d]) = 10 * value ds + d := by
  simp [value]

theorem value_lt (h : ∀ d ∈ ds, d < 10) : value ds < 10 ^ ds.length := by
  induction ds using List.reverseRecOn with
  | nil => simp [value]
  | append_singleton ds d ih =>
    rw [List.forall_mem_append, List.forall_mem_singleton] at h
    have := ih h.1
    rw [value_concat, List.length_append, List.length_singleton, Nat.pow_succ]
    omega

theorem lt_of_readNat? (h : readNat? s = some n) : n < 10 ^ maxDigits := by
  simp only [readNat?, Option.bind_eq_bind, Option.bind_eq_some_iff] at h
  obtain ⟨ds, hds, hn⟩ := h
  split at hn
  · cases hn
  next hle =>
    cases hn
    exact (value_lt (forall_lt_of_digits? hds)).trans_le
      (Nat.pow_le_pow_right (by decide) (Nat.not_lt.1 hle))

/-- An integer that is read has no more digits than are read. -/
theorem natAbs_lt_of_readInt? {s : String} {n : Int} (h : readInt? s = some n) :
    n.natAbs < 10 ^ maxDigits := by
  unfold readInt? at h
  split at h
  all_goals
    simp only [Option.map_eq_some_iff, Option.bind_eq_bind, Option.bind_eq_some_iff,
      Option.pure_def, Option.some.injEq] at h
    obtain ⟨_, ⟨m, hm, rfl⟩, rfl⟩ := h
    simpa using lt_of_readNat? hm

/-! ### What is written -/

/-- The value of an ASCII digit. -/
def asciiValue (c : Char) : Nat := c.toNat - '0'.toNat

theorem digitValue?_of_isDigit (h : c.isDigit) : digitValue? c = some (asciiValue c) := by
  have hdigit : '0'.toNat ≤ c.toNat ∧ c.toNat < '0'.toNat + 10 := by
    rw [Char.isDigit_iff_toNat] at h
    exact ⟨h.1, Nat.lt_succ_of_le h.2⟩
  have hfind : decimalZeros.find? (fun z => z ≤ c.toNat && c.toNat < z + 10) = some '0'.toNat := by
    unfold decimalZeros
    apply List.find?_cons_of_pos
    simpa using hdigit
  rw [digitValue?, hfind]
  rfl

theorem moreDigits?_of_isDigit (h : ∀ c ∈ s, c.isDigit) :
    moreDigits? s = some (s.map asciiValue) := by
  fun_induction moreDigits? s with
  | case1 => rfl
  | case2 c s ih => exact absurd (h '_' List.mem_cons_self) (by decide)
  | case3 c s _ ih =>
    rw [digitValue?_of_isDigit (h c List.mem_cons_self),
      ih fun d hd => h d (List.mem_cons_of_mem c hd)]
    rfl

theorem digits?_of_isDigit (hne : s ≠ []) (h : ∀ c ∈ s, c.isDigit) :
    digits? s = some (s.map asciiValue) := by
  obtain ⟨c, s, rfl⟩ := List.exists_cons_of_ne_nil hne
  rw [digits?, digitValue?_of_isDigit (h c List.mem_cons_self),
    moreDigits?_of_isDigit fun d hd => h d (List.mem_cons_of_mem c hd)]
  rfl

theorem value_map_asciiValue (s : List Char) : value (s.map asciiValue) = Nat.ofDigitChars 10 s 0 :=
  List.foldl_map

theorem isDigit_of_mem_decimal (h : c ∈ Nat.toDigits 10 n) : c.isDigit :=
  Nat.isDigit_of_mem_toDigits (by decide) (by decide) h

theorem readNat?_toDigits (h : n < 10 ^ maxDigits) : readNat? (Nat.toDigits 10 n) = some n := by
  have hlength : ¬ maxDigits < (Nat.toDigits 10 n).length :=
    Nat.not_lt.2 ((Nat.length_toDigits_le_iff (by decide) (by decide)).2 h)
  rw [readNat?, digits?_of_isDigit Nat.toDigits_ne_nil fun _ => isDigit_of_mem_decimal]
  simp only [Option.bind_eq_bind, Option.bind_some, List.length_map, if_neg hlength,
    value_map_asciiValue, Nat.ofDigitChars_toDigits (b := 10) (by decide) (by decide)]

theorem isMargin_of_isDigit (h : c.isDigit) : isMargin c = false := by
  rw [Char.isDigit_iff_toNat, show '0'.toNat = 48 from rfl, show '9'.toNat = 57 from rfl] at h
  have hblank : isBlank c = false := by
    simp [isBlank, inRanges, blankRanges]
    omega
  rw [isMargin, hblank, Bool.false_and]

theorem withoutMargins_eq_self (h : ∀ c ∈ s, isMargin c = false) : withoutMargins s = s := by
  have hstart : s.dropWhile isMargin = s :=
    List.dropWhile_eq_self_iff.2 fun _ => by simp [h]
  have hstop : s.rdropWhile isMargin = s :=
    List.rdropWhile_eq_self_iff.2 fun hne => by simp [h _ (List.getLast_mem hne)]
  rw [withoutMargins, hstart]
  exact hstop

theorem withoutMargins_toDigits (n : Nat) :
    withoutMargins (Nat.toDigits 10 n) = Nat.toDigits 10 n :=
  withoutMargins_eq_self fun _ hc => isMargin_of_isDigit (isDigit_of_mem_decimal hc)

theorem withoutMargins_minus (n : Nat) :
    withoutMargins ('-' :: Nat.toDigits 10 n) = '-' :: Nat.toDigits 10 n :=
  withoutMargins_eq_self <| List.forall_mem_cons.2
    ⟨by decide, fun _ hc => isMargin_of_isDigit (isDigit_of_mem_decimal hc)⟩

theorem readInt?_of_minus {t : String} (h : withoutMargins t.toList = '-' :: s)
    (hs : readNat? s = some n) : readInt? t = some (-(n : Int)) := by
  unfold readInt?
  rw [h]
  simp [hs]

theorem readInt?_of_digit {t : String} (h : withoutMargins t.toList = c :: s) (hc : c.isDigit)
    (hs : readNat? (c :: s) = some n) : readInt? t = some n := by
  have hminus : c ≠ '-' := by
    rintro rfl
    cases hc
  have hplus : c ≠ '+' := by
    rintro rfl
    cases hc
  unfold readInt?
  rw [h]
  simp [hminus, hplus, hs]

/-- An integer is read back from its decimal digits. -/
theorem readInt?_repr {n : Int} (h : n.natAbs < 10 ^ maxDigits) : readInt? n.repr = some n := by
  rw [Int.repr_eq_if]
  split
  · next hn =>
    obtain ⟨m, rfl⟩ := Int.eq_ofNat_of_zero_le hn
    have hread : readNat? (Nat.toDigits 10 m) = some m := readNat?_toDigits h
    have hdigits : withoutMargins (m : Int).toNat.repr.toList = Nat.toDigits 10 m := by
      rw [Int.toNat_natCast, Nat.toList_repr, withoutMargins_toDigits]
    obtain ⟨c, s, hs⟩ := List.exists_cons_of_ne_nil (Nat.toDigits_ne_nil (n := m) (b := 10))
    have hc : c.isDigit := isDigit_of_mem_decimal (hs ▸ List.mem_cons_self)
    rw [hs] at hread hdigits
    exact readInt?_of_digit hdigits hc hread
  · next hn =>
    have hread : readNat? (Nat.toDigits 10 n.natAbs) = some n.natAbs := readNat?_toDigits h
    have hdigits : withoutMargins ("-" ++ (-n).toNat.repr).toList =
        '-' :: Nat.toDigits 10 n.natAbs := by
      rw [String.toList_append, Nat.toList_repr, show (-n).toNat = n.natAbs by omega]
      exact withoutMargins_minus _
    rw [readInt?_of_minus hdigits hread]
    congr 1
    omega

end ScriptBlocks.Text.Numeral
