import ScriptBlocks.Proofs.Text.Search
import ScriptBlocks.Tag

/-!
# Comments from left to right

`Comment.spans` pairs the openings and closings of comments from left to right over a whole text.
The search for a tag knows no spans: it looks back from a `<script` to the last opening before it.
Both agree on what a comment hides, since each hides a `<script` exactly when that stands between
some `<!--` and the first `-->` from there (`Comment.Encloses`).  So the search for a tag finds the
first `<script` that no comment covers (`Tag.isFirst_startFrom?`).
-/

namespace ScriptBlocks

open Text

namespace Comment

/-- The comments of a text from index `pos` on, each with its first index and the index just past
it: a `<!--` goes with the first `-->` from it, and the next comment begins after that one.  An
opening with no closing begins no comment. -/
def spans (text : List Char) (pos : Nat) : List (Nat × Nat) :=
  match _hc : find? opening text pos with
  | none => []
  | some c =>
    match _he : find? closing text c with
    | none => []
    | some e => (c, e + closing.length) :: spans text (e + closing.length)
termination_by text.length - pos
decreasing_by
  have := le_of_find?_eq_some _hc
  have := le_of_find?_eq_some _he
  have := add_length_le_of_find?_eq_some (by decide) _he
  have : 0 < closing.length := by decide
  omega

/-- The index lies in a comment of the text. -/
def Covers (text : List Char) (i : Nat) : Prop :=
  ∃ span ∈ spans text 0, span.1 ≤ i ∧ i < span.2

/-- The index lies between a `<!--` and the first `-->` from it. -/
def Encloses (text : List Char) (i : Nat) : Prop :=
  ∃ c e, Occurs opening text c ∧ find? closing text c = some e ∧ c < i ∧ i < e

section

variable {text p : List Char} {pos c e i : Nat}

/-- The first closing from an opening is also the first one from any index between the two. -/
theorem find?_closing_of_le {d : Nat} (h : find? closing text c = some e) (hcd : c ≤ d)
    (hde : d ≤ e) : find? closing text d = some e := by
  obtain ⟨-, he, hfirst⟩ := find?_eq_iff.1 h
  exact find?_eq_iff.2 ⟨hde, he, fun k hk => hfirst k (Nat.le_trans hcd hk)⟩

theorem of_mem_spans {span : Nat × Nat} (h : span ∈ spans text pos) :
    ∃ e, Occurs opening text span.1 ∧ find? closing text span.1 = some e ∧
      span.2 = e + closing.length := by
  fun_induction spans text pos with
  | case1 => cases h
  | case2 => cases h
  | case3 pos c hc e he ih =>
    rcases List.mem_cons.1 h with rfl | h
    · exact ⟨e, occurs_of_find?_eq_some hc, he, rfl⟩
    · exact ih h

/-- From any index up to its opening, a comment around `i` is met by a span that contains `i`. -/
theorem exists_span (hc : Occurs opening text c) (he : find? closing text c = some e)
    (hci : c < i) (hie : i < e) (hpos : pos ≤ c) :
    ∃ span ∈ spans text pos, span.1 ≤ i ∧ i < span.2 := by
  fun_induction spans text pos with
  | case1 pos hnone => exact absurd hc (find?_eq_iff.1 hnone c hpos)
  | case2 pos c₀ hc₀ hnone =>
    have hle : c₀ ≤ c := Nat.not_lt.1 fun h => (find?_eq_iff.1 hc₀).2.2 c hpos h hc
    exact absurd (occurs_of_find?_eq_some he)
      (find?_eq_iff.1 hnone e (Nat.le_trans hle (le_of_find?_eq_some he)))
  | case3 pos c₀ hc₀ e₀ he₀ ih =>
    have hle : c₀ ≤ c := Nat.not_lt.1 fun h => (find?_eq_iff.1 hc₀).2.2 c hpos h hc
    by_cases hi : i < e₀ + closing.length
    · exact ⟨_, List.mem_cons_self, Nat.le_trans hle (Nat.le_of_lt hci), hi⟩
    · -- A comment that began in the span would end with it, and `i` would lie before the end.
      have hlt : e₀ < c := by
        refine Nat.not_le.1 fun hce => ?_
        obtain rfl : e₀ = e := by
          have := find?_closing_of_le he₀ hle hce
          rw [he] at this
          exact (Option.some.inj this).symm
        exact hi (Nat.lt_add_right _ hie)
      have hpast : e₀ + closing.length ≤ c :=
        (occurs_of_find?_eq_some he₀).add_length_le_of_le hc (by decide) (Nat.le_of_lt hlt)
      obtain ⟨span, hmem, hspan⟩ := ih hpast
      exact ⟨span, List.mem_cons_of_mem _ hmem, hspan⟩

/-- An opening before a `<` ends before it. -/
theorem opening_add_length_le (hc : Occurs opening text c) (hi : Occurs ('<' :: p) text i)
    (hci : c < i) : c + opening.length ≤ i :=
  hc.add_length_le_of_lt hi (by decide) hci

theorem closing_add_length_le (he : Occurs closing text e) (hi : Occurs ('<' :: p) text i)
    (hei : e ≤ i) : e + closing.length ≤ i :=
  he.add_length_le_of_le hi (by decide) hei

theorem of_closingAround?_eq_some (h : closingAround? text i = some e) :
    ∃ c, Occurs opening text c ∧ find? closing text c = some e ∧ c < i ∧ i < e := by
  unfold closingAround? at h
  split at h
  · cases h
  · next c hc =>
    obtain ⟨he, hie⟩ := Option.filter_eq_some_iff.1 h
    obtain ⟨hocc, hle⟩ := (occurs_take (by decide)).1 ((findLast?_eq_some_iff (by decide)).1 hc).1
    have : 0 < opening.length := by decide
    exact ⟨c, hocc, he, by omega, of_decide_eq_true hie⟩

/-- Looking back from a `<` to the last opening before it is enough to tell whether any comment is
open there. -/
theorem closingAround?_eq_none_iff (hi : Occurs ('<' :: p) text i) :
    closingAround? text i = none ↔ ¬ Encloses text i := by
  constructor
  · rintro h ⟨c, e, hc, he, hci, hie⟩
    have hc' : Occurs opening (text.take i) c :=
      (occurs_take (by decide)).2 ⟨hc, opening_add_length_le hc hi hci⟩
    unfold closingAround? at h
    split at h
    · next hnone => exact (findLast?_eq_none_iff (by decide)).1 hnone c hc'
    · next d hd =>
      obtain ⟨hd', hlast⟩ := (findLast?_eq_some_iff (by decide)).1 hd
      have hcd : c ≤ d := Nat.not_lt.1 fun hlt => hlast c hlt hc'
      have hdi := ((occurs_take (by decide)).1 hd').2
      rw [find?_closing_of_le he hcd (by omega), Option.filter_some] at h
      simp [hie] at h
  · intro h
    rcases hc : closingAround? text i with _ | e
    · rfl
    · obtain ⟨c, hc, he, hci, hie⟩ := of_closingAround?_eq_some hc
      exact absurd ⟨c, e, hc, he, hci, hie⟩ h

end

end Comment

namespace Tag

/-- A `<script` stands at the index, and no comment covers it. -/
def StartsAt (text : List Char) (i : Nat) : Prop :=
  Occurs opening text i ∧ ¬ Comment.Covers text i

section

variable {text : List Char} {pos i : Nat}

theorem not_occurs_comment_opening (hi : Occurs opening text i) :
    ¬ Occurs Comment.opening text i := fun h => by
  have h1 : text[i + 1]? = some 's' := hi.getElem? (by decide)
  have h2 : text[i + 1]? = some '!' := h.getElem? (by decide)
  rw [h1] at h2
  cases h2

/-- A comment covers a `<script` where the `<script` lies between a `<!--` and the first `-->`
from it. -/
theorem covers_iff_encloses (hi : Occurs opening text i) :
    Comment.Covers text i ↔ Comment.Encloses text i := by
  constructor
  · rintro ⟨span, hmem, hle, hlt⟩
    obtain ⟨e, hc, he, hspan⟩ := Comment.of_mem_spans hmem
    refine ⟨span.1, e, hc, he, ?_, ?_⟩
    · refine Nat.lt_of_le_of_ne hle fun h => not_occurs_comment_opening hi ?_
      rw [← h]
      exact hc
    · refine Nat.not_le.1 fun hei => ?_
      have := Comment.closing_add_length_le (occurs_of_find?_eq_some he) hi hei
      omega
  · rintro ⟨c, e, hc, he, hci, hie⟩
    exact Comment.exists_span hc he hci hie (Nat.zero_le c)

theorem startsAt_iff : StartsAt text i ↔ Occurs opening text i ∧ ¬ Comment.Encloses text i :=
  and_congr_right fun hi => not_congr (covers_iff_encloses hi)

/-- No tag starts between a `<script` inside a comment and the end of that comment. -/
theorem not_startsAt_of_closingAround? {e j : Nat} (h : Comment.closingAround? text i = some e)
    (hij : i ≤ j) (hj : j < e + Comment.closing.length) : ¬ StartsAt text j := by
  intro hs
  obtain ⟨hocc, hout⟩ := startsAt_iff.1 hs
  obtain ⟨c, hc, he, hci, -⟩ := Comment.of_closingAround?_eq_some h
  refine hout ⟨c, e, hc, he, Nat.lt_of_lt_of_le hci hij, Nat.not_le.1 fun hej => ?_⟩
  have := Comment.closing_add_length_le (occurs_of_find?_eq_some he) hocc hej
  omega

/-- The search for a tag finds the first `<script` that no comment covers. -/
theorem isFirst_startFrom? (text : List Char) (pos : Nat) :
    IsFirst (StartsAt text) pos (startFrom? text pos) := by
  fun_induction startFrom? text pos with
  | case1 pos hnone => exact fun j hj hs => find?_eq_iff.1 hnone j hj hs.1
  | case2 pos i hi hnone =>
    obtain ⟨hle, hocc, hfirst⟩ := find?_eq_iff.1 hi
    exact ⟨hle, startsAt_iff.2 ⟨hocc, (Comment.closingAround?_eq_none_iff hocc).1 hnone⟩,
      fun j hj hji hs => hfirst j hj hji hs.1⟩
  | case3 pos i hi e he ih =>
    obtain ⟨hle, -, hfirst⟩ := find?_eq_iff.1 hi
    have hie := (Comment.bounds_of_closingAround? he).1
    refine IsFirst.of_le (by omega) (fun j hj hje hs => ?_) ih
    rcases Nat.lt_or_ge j i with hji | hij
    · exact hfirst j hj hji hs.1
    · exact not_startsAt_of_closingAround? he hij hje hs

theorem startFrom?_eq_iff {o : Option Nat} :
    startFrom? text pos = o ↔ IsFirst (StartsAt text) pos o :=
  ⟨fun h => h ▸ isFirst_startFrom? text pos, fun h => (isFirst_startFrom? text pos).unique h⟩

end

/-! ### Any integer as a position -/

theorem searchStart_eq (text : List Char) (pos : Int) :
    (searchStart text pos : Int) = if pos < 0 then max 0 (text.length + pos) else pos := by
  unfold searchStart
  split <;> omega

theorem searchStart_natCast (text : List Char) (n : Nat) : searchStart text n = n := by
  rw [searchStart, if_neg (by omega), Int.toNat_natCast]

theorem startSigned?_eq_iff {text : List Char} {pos : Int} {o : Option Nat} :
    startSigned? text pos = o ↔ IsFirst (StartsAt text) (searchStart text pos) o :=
  startFrom?_eq_iff

/-- From any position the first `<script` is found that no comment of the whole text covers.  So a
jump past the end of a comment skips no such `<script`, and what is found does not depend on where
the search began. -/
theorem isFirst_startSigned? (text : List Char) (pos : Int) :
    (searchStart text pos : Int) = (if pos < 0 then max 0 (text.length + pos) else pos) ∧
    (∀ o, startSigned? text pos = o ↔ IsFirst (StartsAt text) (searchStart text pos) o) ∧
    (∀ i e j, Comment.closingAround? text i = some e → i ≤ j → j < e + Comment.closing.length →
      ¬ StartsAt text j) ∧
    (∀ i, StartsAt text i ↔ ∃ start : Int, startSigned? text start = some i) ∧
    (∀ i, startSigned? text pos = some i →
      ∀ later : Int, searchStart text pos ≤ searchStart text later → searchStart text later ≤ i →
        startSigned? text later = some i) := by
  refine ⟨searchStart_eq text pos, fun o => startSigned?_eq_iff, fun i e j h hij hj =>
    not_startsAt_of_closingAround? h hij hj, fun i => ⟨fun h => ⟨i, ?_⟩, ?_⟩, ?_⟩
  · rw [startSigned?_eq_iff, searchStart_natCast]
    exact ⟨Nat.le_refl i, h, fun j hij hji => absurd hji (Nat.not_lt.2 hij)⟩
  · rintro ⟨start, h⟩
    exact (startSigned?_eq_iff.1 h).2.1
  · intro i h later hle hi
    obtain ⟨-, hs, hfirst⟩ := startSigned?_eq_iff.1 h
    exact startSigned?_eq_iff.2 ⟨hi, hs, fun j hj => hfirst j (Nat.le_trans hle hj)⟩

/-- A tag in a comment and one after it. -/
def hiddenTag : List Char := "<!--<script--><script".toList

theorem isFirst_startSigned?_hiddenTag :
    IsFirst (StartsAt hiddenTag) (searchStart hiddenTag (-20)) (some 14) ∧
      ¬ StartsAt hiddenTag 4 ∧ StartsAt hiddenTag 14 ∧ startSigned? hiddenTag 14 = some 14 := by
  have hfound : startSigned? hiddenTag (-20) = some 14 := by with_unfolding_all decide
  obtain ⟨-, hfirst, hskip, hvisible, hlater⟩ := isFirst_startSigned? hiddenTag (-20)
  refine ⟨(hfirst (some 14)).1 hfound, ?_, (hvisible 14).2 ⟨-20, hfound⟩, ?_⟩
  · exact hskip 4 11 4 (by decide) (by decide) (by decide)
  · exact hlater 14 hfound 14 (by decide) (by decide)

end Tag

end ScriptBlocks
