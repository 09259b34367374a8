import ScriptBlocks.Proofs.Text.Blank
import ScriptBlocks.Proofs.Text.Search
import ScriptBlocks.Tag

/-!
# The language that a tag names

A `lang` attribute with a quoted value names what stands between its quotes
(`Tag.language_lang_quoted`): trimming drops the blank before the attribute but not the quote at
its end, and the first `lang` is the name of the attribute, whatever the value holds.
-/

namespace ScriptBlocks

open Text

/-! ### Quoted values -/

namespace Tag

variable {q : Char} {token s : List Char}

theorem isBlank_quote (hq : q = '"' ∨ q = '\'') : isBlank q = false := by
  rcases hq with rfl | rfl <;> decide

theorem tokenOrDefault_of_ne_nil (h : token ≠ []) : tokenOrDefault token = String.ofList token := by
  rw [tokenOrDefault, if_neg (by simpa using h)]

theorem valueToken_quote (hq : q = '"' ∨ q = '\'') (s : List Char) :
    valueToken (q :: s) =
      if q ∈ s then tokenOrDefault (s.takeWhile (· != q)) else defaultLanguage := by
  rw [valueToken, if_pos hq]
  simp only [List.contains_iff_mem]

/-- A quoted value names the token up to the next quote of its kind. -/
theorem valueToken_quoted (hq : q = '"' ∨ q = '\'') (hne : token ≠ []) (h : q ∉ token) :
    valueToken (q :: (token ++ q :: s)) = String.ofList token := by
  have hmem : q ∈ token ++ q :: s := List.mem_append_right token List.mem_cons_self
  rw [valueToken_quote hq, if_pos hmem, takeWhile_bne_append h, tokenOrDefault_of_ne_nil hne]

theorem language_lang_quoted (hq : q = '"' ∨ q = '\'') (hne : token ≠ []) (h : q ∉ token) :
    language ([' ', 'l', 'a', 'n', 'g', '='] ++ [q] ++ token ++ [q]) = String.ofList token := by
  have htrim : trim ([' ', 'l', 'a', 'n', 'g', '='] ++ [q] ++ token ++ [q]) =
      ['l', 'a', 'n', 'g', '='] ++ [q] ++ token ++ [q] :=
    trimEnd_concat (s := ['l', 'a', 'n', 'g', '='] ++ [q] ++ token) (isBlank_quote hq)
  have hfind : find? ['l', 'a', 'n', 'g'] (['l', 'a', 'n', 'g', '='] ++ [q] ++ token ++ [q]) 0 =
      some 0 := rfl
  have hvalue : trimStart ((['l', 'a', 'n', 'g', '='] ++ [q] ++ token ++ [q]).drop (0 + 4)) =
      '=' :: (q :: (token ++ [q])) := rfl
  unfold language
  simp only [htrim, hfind, hvalue]
  rw [trimStart_cons (isBlank_quote hq), valueToken_quoted hq hne h]

end Tag

end ScriptBlocks
