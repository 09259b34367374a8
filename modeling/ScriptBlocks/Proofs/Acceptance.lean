import ScriptBlocks.Proofs.Offsets

/-!
# What a resolver decides

A resolver decides where blocks are cut by the tokens that it accepts, and by nothing else: under
two resolvers that accept the same tokens each tag has the same fate but for the type found
(`Scan.Fate.Alike`), so that both scans visit the same tags.  The types that a scan gives out are
those found for the accepted tokens, in their order (`Scan.types_scripts_prefix`).
-/

namespace ScriptBlocks

open Text

/-- Whether the resolver has a type for the token. -/
def Resolver.accepts (resolve : Resolver) (token : String) : Bool := (resolve token).type?.isSome

/-- The script without its type: its text and its range. -/
def Script.cut (s : Script) : String × Int × Int := (s.sourceText, s.start, s.stop)

namespace Scan

/-- The fates differ in the type found, if in anything. -/
inductive Fate.Alike : Fate → Fate → Prop where
  | lookAlike : Alike .lookAlike .lookAlike
  | unterminated : Alike .unterminated .unterminated
  | dropped (token : String) (angle : Nat) : Alike (.dropped token angle) (.dropped token angle)
  | unclosed (token : String) : Alike (.unclosed token) (.unclosed token)
  | block (token : String) (found found' : SourceType) (angle stop : Nat) :
      Alike (.block token found angle stop) (.block token found' angle stop)

section

variable {text : List Char} {resolve resolve' : Resolver} {tag pos : Nat} {f f' : Fate}

theorem type?_eq_none_of_accepts {token : String}
    (h : resolve.accepts token = resolve'.accepts token) (hnone : (resolve token).type? = none) :
    (resolve' token).type? = none := by
  simpa [Resolver.accepts, hnone] using h

theorem exists_type?_of_accepts {token : String} {found : SourceType}
    (h : resolve.accepts token = resolve'.accepts token)
    (hfound : (resolve token).type? = some found) :
    ∃ found', (resolve' token).type? = some found' := by
  apply Option.isSome_iff_exists.1
  simpa [Resolver.accepts, hfound] using h.symm

theorem alike_fate (h : ∀ token, resolve.accepts token = resolve'.accepts token) (tag : Nat) :
    (fate text resolve tag).Alike (fate text resolve' tag) := by
  have hf := hasFate_fate text resolve tag
  generalize fate text resolve tag = f at hf
  cases hf with
  | lookAlike hname =>
    rw [(HasFate.lookAlike hname : HasFate text resolve' tag _).eq]
    exact .lookAlike
  | unterminated hname hangle =>
    rw [(HasFate.unterminated hname hangle : HasFate text resolve' tag _).eq]
    exact .unterminated
  | dropped hname hangle htype =>
    have htype' := type?_eq_none_of_accepts (h _) htype
    rw [(HasFate.dropped hname hangle htype').eq]
    exact .dropped _ _
  | unclosed hname hangle htype hstop =>
    obtain ⟨found', htype'⟩ := exists_type?_of_accepts (h _) htype
    rw [(HasFate.unclosed hname hangle htype' hstop).eq]
    exact .unclosed _
  | block hname hangle htype hstop =>
    obtain ⟨found', htype'⟩ := exists_type?_of_accepts (h _) htype
    rw [(HasFate.block hname hangle htype' hstop).eq]
    exact .block _ _ _ _ _

/-! ### What alike fates share -/

theorem Fate.Alike.next?_eq (h : f.Alike f') : f.next? tag = f'.next? tag := by
  cases h <;> rfl

theorem Fate.Alike.asked_eq (h : f.Alike f') : f.asked = f'.asked := by
  cases h <;> rfl

theorem Fate.Alike.message?_eq (h : f.Alike f') : f.message? tag = f'.message? tag := by
  cases h <;> rfl

theorem Fate.Alike.cut_eq (h : f.Alike f') :
    (f.script? text).map Script.cut = (f'.script? text).map Script.cut := by
  cases h <;> rfl

theorem visits_congr (h : ∀ token, resolve.accepts token = resolve'.accepts token) (pos : Nat) :
    visits text resolve pos = visits text resolve' pos := by
  have hafter : ∀ tag, after? text resolve tag = after? text resolve' tag :=
    fun tag => (alike_fate h tag).next?_eq
  fun_induction visits text resolve pos with
  | case1 pos hnone => rw [visits_of_none hnone]
  | case2 pos tag htag hstop =>
    rw [visits_of_some htag, ← hafter, hstop]
    rfl
  | case3 pos tag htag next hnext ih =>
    rw [visits_of_some htag, ← hafter, hnext, ih]
    rfl

/-! ### The types of scripts -/

/-- The type that a script with this token has, if the resolver accepts the token. -/
def typeOf? (resolve : Resolver) (token : String) : Option SourceType :=
  (resolve token).type?.map (typeFor token)

/-- The accepted tokens of a scan are those of its scripts, in their order, but for a last one
whose body does not end. -/
theorem types_scripts_prefix (text : List Char) (resolve : Resolver) (pos : Nat) :
    ((visits text resolve pos).filterMap (scriptAt text resolve)).map (some ·.sourceType) <+:
      (((visits text resolve pos).filterMap fun tag =>
        (fate text resolve tag).asked).filter resolve.accepts).map (typeOf? resolve) := by
  fun_induction visits text resolve pos with
  | case1 => exact List.nil_prefix
  | case2 pos tag _ hstop =>
    rw [List.filterMap_cons, scriptAt_of_stop hstop]
    exact List.nil_prefix
  | case3 pos tag _ next hnext ih =>
    have hf := hasFate_fate text resolve tag
    rw [after?] at hnext
    generalize hfate : fate text resolve tag = f at hf hnext
    cases hf with
    | lookAlike =>
      rw [List.filterMap_cons_none (by rw [scriptAt, hfate]; rfl),
        List.filterMap_cons_none (by rw [hfate]; rfl)]
      exact ih
    | unterminated => cases hnext
    | dropped _ _ htype =>
      rw [List.filterMap_cons_none (by rw [scriptAt, hfate]; rfl),
        List.filterMap_cons_some (by rw [hfate]; rfl),
        List.filter_cons_of_neg (by simp [Resolver.accepts, htype])]
      exact ih
    | unclosed => cases hnext
    | @block angle _ found _ _ htype =>
      have htypeOf : typeOf? resolve (Tag.token text tag angle) =
          some (typeFor (Tag.token text tag angle) found) := by
        rw [typeOf?, htype]
        rfl
      rw [List.filterMap_cons_some (by rw [scriptAt, hfate]; rfl),
        List.filterMap_cons_some (by rw [hfate]; rfl),
        List.filter_cons_of_pos (by simp [Resolver.accepts, htype]), List.map_cons, List.map_cons,
        htypeOf]
      simp only [List.prefix_cons_inj]
      exact ih

end

end Scan

/-- The type of each script is the one found for the accepted token of the same number: its
language and its kind, and its variant too if the token has an `x`. -/
def TypedInOrder (text : String) (resolve : Resolver) : Prop :=
  ∀ (k : Nat) (s : Script), (parse text resolve)[k]? = some s → ∃ token found,
    ((Scan.asked (Scan.passes text.toList resolve {})).filter resolve.accepts)[k]? = some token ∧
      (resolve token).type? = some found ∧
      s.sourceType.language = found.language ∧ s.sourceType.moduleKind = found.moduleKind ∧
      s.sourceType.variant = if 'x' ∈ token.toList then found.variant else .standard

theorem typedInOrder (text : String) (resolve : Resolver) : TypedInOrder text resolve := by
  intro k s hs
  have hprefix := Scan.types_scripts_prefix text.toList resolve 0
  rw [← parse_eq, ← Scan.asked_passes] at hprefix
  have hk : ((parse text resolve).map (some ·.sourceType))[k]? = some (some s.sourceType) := by
    rw [List.getElem?_map, hs]
    rfl
  obtain ⟨hlt, hget⟩ := List.getElem?_eq_some_iff.1 hk
  have htype := List.prefix_iff_getElem?.1 hprefix k hlt
  rw [hget, List.getElem?_map] at htype
  obtain ⟨token, htoken, htype⟩ := Option.map_eq_some_iff.1 htype
  obtain ⟨found, hfound, htype⟩ := Option.map_eq_some_iff.1 htype
  refine ⟨token, found, htoken, hfound, ?_⟩
  rw [← htype, Scan.typeFor_eq]
  by_cases hx : 'x' ∈ token.toList
  · rw [if_pos hx, if_pos hx]
    exact ⟨rfl, rfl, rfl⟩
  · rw [if_neg hx, if_neg hx]
    exact ⟨rfl, rfl, rfl⟩

/-- What a resolver finds for a token has no part in where blocks are cut: under two resolvers that
accept the same tokens, however they refuse the others, a document is asked about, logged and cut
alike, and under each of them the types of the scripts are its own. -/
theorem parse_cut_congr {text : String} {resolve resolve' : Resolver}
    (h : ∀ token, resolve.accepts token = resolve'.accepts token) :
    let passes := Scan.passes text.toList resolve {}
    let passes' := Scan.passes text.toList resolve' {}
    Scan.asked passes = Scan.asked passes' ∧ Scan.messages passes = Scan.messages passes' ∧
      (parse text resolve).map Script.cut = (parse text resolve').map Script.cut ∧
      TypedInOrder text resolve ∧ TypedInOrder text resolve' := by
  have halike : ∀ tag, (Scan.fate text.toList resolve tag).Alike
      (Scan.fate text.toList resolve' tag) := Scan.alike_fate h
  refine ⟨?_, ?_, ?_, typedInOrder text resolve, typedInOrder text resolve'⟩
  · rw [Scan.asked_passes, Scan.asked_passes, Scan.visits_congr h]
    exact congrArg (List.filterMap · _) (funext fun tag => (halike tag).asked_eq)
  · rw [Scan.messages_passes, Scan.messages_passes, Scan.visits_congr h]
    exact congrArg (List.filterMap · _) (funext fun tag => (halike tag).message?_eq)
  · rw [parse_eq, parse_eq, Scan.visits_congr h, List.map_filterMap, List.map_filterMap]
    exact congrArg (List.filterMap · _) (funext fun tag => (halike tag).cut_eq)

/-- A resolver that finds a type of its own for each known token, and withholds the others. -/
def Resolver.custom : Resolver := fun token =>
  if (SourceType.ofToken? token).isSome then
    .found ⟨.other "wxs", .script, if 'x' ∈ token.toList then .jsx else .other "plain"⟩
  else .withheld

theorem accepts_custom (token : String) :
    Resolver.known.accepts token = Resolver.custom.accepts token := by
  unfold Resolver.accepts Resolver.known Resolver.custom SourceType.ofToken
  cases SourceType.ofToken? token <;> rfl

/-- A document with an unknown token between two known ones, the second of which has an `x`. -/
def unknownBetween : String :=
  "<script lang=ts>a</script><script lang=zz>b</script><script lang=tsx>é</script>"

theorem parse_cut_congr_custom :
    (∀ token, Resolver.known.accepts token = Resolver.custom.accepts token) ∧
      (parse unknownBetween).map Script.cut =
        (parse unknownBetween Resolver.custom).map Script.cut ∧
      (parse unknownBetween Resolver.custom).map (·.sourceType) =
        [⟨.other "wxs", .script, .standard⟩, ⟨.other "wxs", .script, .jsx⟩] :=
  ⟨accepts_custom, (parse_cut_congr accepts_custom).2.2.1, by with_unfolding_all decide⟩

end ScriptBlocks
