import ScriptBlocks.Proofs.Composition

/-!
# More text after a document

More text after a document whose comments are closed takes back none of its scripts, wherever the
document was cut (`parse_prefix_append`).  The scan of the longer text comes to the tags of the
document one after the other and finds what the scan of the document found there
(`Scan.fate_append`).  They part only at a tag that gives no script in the document: one at which
its scan stops (`Scan.scriptAt_of_stop`), or a `<script` at its very end (`Scan.fate_at_end`).
-/

namespace ScriptBlocks

open Text

variable {s t : List Char} {resolve : Resolver} {tag i : Nat}

/-- A `<script` that ends inside the document stays a tag, or stays in its comment. -/
theorem Tag.startsAt_append_of_le (hs : Comment.Closed s) (hi : i + opening.length ≤ s.length) :
    StartsAt (s ++ t) i ↔ StartsAt s i := by
  rw [startsAt_iff, startsAt_iff, occurs_append_of_le hi]
  exact and_congr_right fun hocc => not_congr (Comment.encloses_append_iff hs hocc)

namespace Scan

theorem fate_at_end (h : tag + Tag.opening.length = s.length) :
    fate s resolve tag = .lookAlike := by
  apply HasFate.eq
  apply HasFate.lookAlike
  rw [Tag.nameEndsAt, h, List.getElem?_length]
  rfl

/-- No tag starts at or after the end of a text. -/
theorem visits_length : visits s resolve s.length = [] := by
  apply visits_of_none
  rw [Tag.startFrom?_eq_iff]
  intro i hi hstarts
  have := hstarts.1.add_length_le (by decide)
  have : 0 < Tag.opening.length := by decide
  omega

/-- By induction on the tags that the scan of the document comes to: the scan of the longer text
comes to the same tag next, and goes on from the same index unless the document gives no more
scripts. -/
theorem scripts_visits_prefix (hs : Comment.Closed s) (pos : Nat) :
    (visits s resolve pos).filterMap (scriptAt s resolve) <+:
      (visits (s ++ t) resolve pos).filterMap (scriptAt (s ++ t) resolve) := by
  fun_induction visits s resolve pos with
  | case1 => exact List.nil_prefix
  | case2 pos tag _ hstop =>
    rw [List.filterMap_cons, scriptAt_of_stop hstop]
    exact List.nil_prefix
  | case3 pos tag htag next hnext ih =>
    have hfirst := Tag.startFrom?_eq_iff.1 htag
    have hle := hfirst.2.1.1.add_length_le (by decide)
    have hstart : Tag.startFrom? (s ++ t) pos = some tag := by
      apply Tag.startFrom?_eq_iff.2
      apply hfirst.congr_some
      intro j hj
      exact (Tag.startsAt_append_of_le hs (by omega)).symm
    by_cases hend : tag + Tag.opening.length = s.length
    · -- Whatever the longer text makes of this tag, the document has no script left.
      have hfate : fate s resolve tag = .lookAlike := fate_at_end hend
      have hnext' : next = s.length := by
        rw [after?, hfate] at hnext
        cases hnext
        exact hend
      rw [List.filterMap_cons, scriptAt, hfate, hnext', visits_length]
      exact List.nil_prefix
    · have hlt : tag + Tag.opening.length < s.length := by omega
      have hafter : after? (s ++ t) resolve tag = some next := by
        rw [after?, fate_append hnext hlt]
        exact hnext
      rw [visits_of_some hstart, hafter]
      show _ <+: List.filterMap _ (tag :: visits (s ++ t) resolve next)
      rw [List.filterMap_cons, List.filterMap_cons, scriptAt_append hnext hlt]
      cases scriptAt s resolve tag with
      | none => exact ih
      | some script => exact (List.prefix_cons_inj script).2 ih

end Scan

/-- Appending text never takes back a script: when every comment of a text is closed in it, its
scripts are the first ones of any longer text, with the same ranges. -/
theorem parse_prefix_append {text : String} (more : String) (resolve : Resolver)
    (hclosed : Comment.Closed text.toList) :
    parse text resolve <+: parse (text ++ more) resolve ∧
      (parse text resolve).map Script.stop <+: (parse (text ++ more) resolve).map Script.stop := by
  have h : parse text resolve <+: parse (text ++ more) resolve := by
    rw [parse_eq, parse_eq, String.toList_append]
    exact Scan.scripts_visits_prefix hclosed 0
  exact ⟨h, h.map Script.stop⟩

/-- A document of ASCII characters that ends inside a quoted attribute. -/
def cutInQuote : String := "<!-- <script> --><script>a</script><script lang='t"

theorem parse_prefix_cutInQuote :
    parse cutInQuote <+: parse (cutInQuote ++ "s'>é</script>") ∧
      (parse cutInQuote).map (·.sourceText) = ["a"] ∧
      (parse (cutInQuote ++ "s'>é</script>")).map (·.sourceText) = ["a", "é"] :=
  ⟨(parse_prefix_append _ _ (by decide)).1, by with_unfolding_all decide,
    by with_unfolding_all decide⟩

end ScriptBlocks
