import Mathlib.Data.List.Forall2
import ScriptBlocks.Proofs.Ranges
import ScriptBlocks.Proofs.Text.Quoted

/-!
# What a scan shows of its tags

A scan shows one event for each tag that it visits, a message or a script, in the order of the
tags (`Scan.forall₂_events`).  The event tells the fate of its tag, and only a fate that stops the
scan is told as stopping.  So the calls of the resolver can be counted in what a scan shows, and
the rejected ones are read off its log (`Scan.accounted_passes`).
-/

namespace ScriptBlocks

open Text

namespace Scan

/-! ### Events -/

/-- What a scan shows at a tag. -/
inductive Event where
  | logged (message : String)
  | given (script : Script)
  deriving DecidableEq, Repr

def Event.message? : Event → Option String
  | logged message => some message
  | given _ => none

def Event.script? : Event → Option Script
  | logged _ => none
  | given script => some script

/-- What a pass shows. -/
def Pass.events (pass : Pass) : List Event :=
  pass.message?.toList.map .logged ++ pass.outcome.script?.toList.map .given

/-- The messages and the scripts of passes, as they come one after the other. -/
def events (passes : List Pass) : List Event := passes.flatMap Pass.events

/-- What becomes of the tag at index `tag` is told by the event. -/
inductive Tells (text : List Char) (resolve : Resolver) (tag : Nat) : Event → Prop where
  | lookAlike (h : fate text resolve tag = .lookAlike) :
      Tells text resolve tag (.logged s!"skipping look-alike tag at {tag}")
  | unterminated (h : fate text resolve tag = .unterminated) :
      Tells text resolve tag (.logged s!"unterminated <script tag at {tag}; stopping")
  | dropped {token : String} {angle : Nat} (h : fate text resolve tag = .dropped token angle) :
      Tells text resolve tag
        (.logged s!"unknown script lang {quoted token} at {tag}; block dropped")
  | unclosed {token : String} (h : fate text resolve tag = .unclosed token) :
      Tells text resolve tag (.logged s!"no </script> after tag at {tag}; stopping")
  | script {token : String} {found : SourceType} {angle stop : Nat} {s : Script}
      (h : fate text resolve tag = .block token found angle stop)
      (hs : LiesAt text tag angle stop s) : Tells text resolve tag (.given s)

/-! ### Messages -/

/-- The message says that the scan stops. -/
def saysStopping (message : String) : Bool := "; stopping".toList.isSuffixOf message.toList

/-- The message says that a block is dropped. -/
def saysDropped (message : String) : Bool := "; block dropped".toList.isSuffixOf message.toList

/-- The message says that no `</script>` follows a tag. -/
def saysUnclosed (message : String) : Bool := "no </script>".toList.isPrefixOf message.toList

/-- The message says that a block with this token is dropped. -/
def NamesDropped (message token : String) : Prop :=
  ∃ tag : Nat, message = s!"unknown script lang {quoted token} at {tag}; block dropped"

theorem NamesDropped.unique {message token token' : String} (h : NamesDropped message token)
    (h' : NamesDropped message token') : token = token' := by
  obtain ⟨tag, rfl⟩ := h
  obtain ⟨tag', h'⟩ := h'
  have hlist := congrArg String.toList h'
  simp only [String.toList_append, List.append_assoc] at hlist
  exact (quoted_append_inj (List.append_cancel_left hlist)).1

/-- A text that ends with a number does not end with a text that has no digit at its end. -/
theorem not_suffix_number {p s : List Char} {c : Char} (hc : c.isDigit = false) (n : Nat) :
    ¬ p ++ [c] <:+ s ++ (toString n).toList := by
  have hdigits : (toString n).toList = Nat.toDigits 10 n := Nat.toList_repr
  have hne : Nat.toDigits 10 n ≠ [] := Nat.toDigits_ne_nil
  rintro ⟨r, hr⟩
  have hlast := congrArg List.getLast? hr
  rw [← List.append_assoc, List.getLast?_concat, hdigits, List.getLast?_append,
    List.getLast?_eq_some_getLast hne] at hlast
  have hc' : c = (Nat.toDigits 10 n).getLast hne := Option.some.inj hlast
  have hdigit := Nat.isDigit_of_mem_toDigits (by decide) (by decide) (List.getLast_mem hne)
  rw [← hc', hc] at hdigit
  cases hdigit

theorem not_suffix_append {p q s : List Char} (hpq : ¬ p <:+ q) (hqp : ¬ q <:+ p) :
    ¬ p <:+ s ++ q := fun h =>
  (List.suffix_or_suffix_of_suffix h (List.suffix_append s q)).elim hpq hqp

theorem isSuffixOf_eq_false {p s : List Char} (h : ¬ p <:+ s) : p.isSuffixOf s = false :=
  Bool.eq_false_iff.2 fun h' => h (List.isSuffixOf_iff_suffix.1 h')

/-! ### The messages of fates -/

theorem saysStopping_append (m : String) : saysStopping (m ++ "; stopping") = true := by
  rw [saysStopping, List.isSuffixOf_iff_suffix, String.toList_append]
  exact List.suffix_append _ _

theorem saysDropped_append (m : String) : saysDropped (m ++ "; block dropped") = true := by
  rw [saysDropped, List.isSuffixOf_iff_suffix, String.toList_append]
  exact List.suffix_append _ _

theorem saysDropped_stopping (m : String) : saysDropped (m ++ "; stopping") = false := by
  apply isSuffixOf_eq_false
  rw [String.toList_append]
  exact not_suffix_append (by decide) (by decide)

theorem saysStopping_dropped (m : String) : saysStopping (m ++ "; block dropped") = false := by
  apply isSuffixOf_eq_false
  rw [String.toList_append]
  exact not_suffix_append (by decide) (by decide)

theorem saysStopping_number (m : String) (n : Nat) : saysStopping (m ++ toString n) = false := by
  apply isSuffixOf_eq_false
  rw [String.toList_append]
  exact not_suffix_number (p := "; stoppin".toList) (by decide : 'g'.isDigit = false) n

theorem saysDropped_number (m : String) (n : Nat) : saysDropped (m ++ toString n) = false := by
  apply isSuffixOf_eq_false
  rw [String.toList_append]
  exact not_suffix_number (p := "; block droppe".toList) (by decide : 'd'.isDigit = false) n

section

variable {text : List Char} {resolve : Resolver} {tag : Nat}

theorem message?_lookAlike (tag : Nat) : Fate.lookAlike.message? tag =
    some ("skipping look-alike tag at " ++ toString tag) := rfl

theorem message?_unterminated (tag : Nat) : Fate.unterminated.message? tag =
    some ("unterminated <script tag at " ++ toString tag ++ "; stopping") := rfl

theorem message?_dropped (token : String) (angle tag : Nat) :
    (Fate.dropped token angle).message? tag = some ("unknown script lang " ++ quoted token ++
      " at " ++ toString tag ++ "; block dropped") := rfl

theorem message?_unclosed (token : String) (tag : Nat) : (Fate.unclosed token).message? tag =
    some ("no </script> after tag at " ++ toString tag ++ "; stopping") := by
  have hhead : "no " ++ String.ofList bodyEnd ++ " after tag at " =
      "no </script> after tag at " := by decide
  rw [← hhead]
  rfl

/-- A message says that the scan stops exactly when it does. -/
theorem any_saysStopping (f : Fate) (tag : Nat) :
    (f.message? tag).any saysStopping = (f.next? tag).isNone := by
  cases f with
  | lookAlike =>
    rw [message?_lookAlike, Option.any_some, saysStopping_number]
    rfl
  | unterminated =>
    rw [message?_unterminated, Option.any_some, saysStopping_append]
    rfl
  | dropped =>
    rw [message?_dropped, Option.any_some, saysStopping_dropped]
    rfl
  | unclosed =>
    rw [message?_unclosed, Option.any_some, saysStopping_append]
    rfl
  | block => rfl

/-- Whether the block of a tag with this fate is dropped. -/
def Fate.isDropped : Fate → Bool
  | dropped _ _ => true
  | _ => false

/-- Whether the body of a tag with this fate does not end. -/
def Fate.isUnclosed : Fate → Bool
  | unclosed _ => true
  | _ => false

theorem any_saysDropped (f : Fate) (tag : Nat) :
    (f.message? tag).any saysDropped = f.isDropped := by
  cases f with
  | lookAlike =>
    rw [message?_lookAlike, Option.any_some, saysDropped_number]
    rfl
  | unterminated =>
    rw [message?_unterminated, Option.any_some, saysDropped_stopping]
    rfl
  | dropped =>
    rw [message?_dropped, Option.any_some, saysDropped_append]
    rfl
  | unclosed =>
    rw [message?_unclosed, Option.any_some, saysDropped_stopping]
    rfl
  | block => rfl

theorem any_saysUnclosed (f : Fate) (tag : Nat) :
    (f.message? tag).any saysUnclosed = f.isUnclosed := by
  cases f <;>
    simp [Fate.message?, Fate.pass, Pass.message?, Fate.isUnclosed, saysUnclosed, toString,
      List.isPrefixOf, bodyEnd]

/-! ### One event for each tag -/

/-- What the scan shows at the tag when it visits it. -/
def eventsAt (text : List Char) (resolve : Resolver) (tag : Nat) : List Event :=
  ((fate text resolve tag).message? tag).toList.map .logged ++
    (scriptAt text resolve tag).toList.map .given

theorem events_passes (text : List Char) (resolve : Resolver) :
    events (passes text resolve {}) = (visits text resolve 0).flatMap (eventsAt text resolve) := by
  unfold events
  rw [List.flatMap_def, List.flatMap_def]
  congr 1
  refine map_passes (fun p tag hp ht => ?_) (counted_start text)
  rw [Pass.events, message?_pass, script?_pass hp ht]
  rfl

theorem exists_eventsAt (text : List Char) (resolve : Resolver) (tag : Nat) :
    ∃ e, eventsAt text resolve tag = [e] ∧ Tells text resolve tag e := by
  rcases hfate : fate text resolve tag with _ | _ | ⟨token, angle⟩ | token |
    ⟨token, found, angle, stop⟩
  · refine ⟨_, ?_, .lookAlike hfate⟩
    rw [eventsAt, scriptAt, hfate, message?_lookAlike]
    rfl
  · refine ⟨_, ?_, .unterminated hfate⟩
    rw [eventsAt, scriptAt, hfate, message?_unterminated]
    rfl
  · refine ⟨_, ?_, .dropped hfate⟩
    rw [eventsAt, scriptAt, hfate, message?_dropped]
    rfl
  · refine ⟨_, ?_, .unclosed hfate⟩
    rw [eventsAt, scriptAt, hfate, message?_unclosed]
    rfl
  · have hs : scriptAt text resolve tag = some _ := congrArg (Fate.script? text) hfate
    obtain ⟨_, _, _, _, hfate', hlies⟩ := exists_liesAt hs
    refine ⟨_, ?_, .script hfate' hlies⟩
    rw [eventsAt, hs, hfate]
    rfl

/-- Each tag is told by one event, in the order of the tags. -/
theorem forall₂_events (text : List Char) (resolve : Resolver) (tags : List Nat) :
    List.Forall₂ (Tells text resolve) tags (tags.flatMap (eventsAt text resolve)) := by
  induction tags with
  | nil => exact .nil
  | cons tag tags ih =>
    obtain ⟨e, he, htells⟩ := exists_eventsAt text resolve tag
    rw [List.flatMap_cons, he]
    exact .cons htells ih

theorem message?_of_eventsAt {m : String} (h : eventsAt text resolve tag = [.logged m]) :
    (fate text resolve tag).message? tag = some m := by
  unfold eventsAt at h
  cases hm : (fate text resolve tag).message? tag with
  | none =>
    rw [hm] at h
    cases hs : scriptAt text resolve tag <;> rw [hs] at h <;> cases h
  | some m' =>
    rw [hm] at h
    obtain ⟨hhead, -⟩ := List.cons.inj h
    cases hhead
    rfl

/-- No event comes after a message that the scan stops. -/
theorem eq_nil_of_saysStopping {pos : Nat} {earlier later : List Event} {m : String}
    (h : (visits text resolve pos).flatMap (eventsAt text resolve) = earlier ++ .logged m :: later)
    (hm : saysStopping m = true) : later = [] := by
  fun_induction visits text resolve pos generalizing earlier with
  | case1 => cases earlier <;> cases h
  | case2 pos tag =>
    obtain ⟨e, he, -⟩ := exists_eventsAt text resolve tag
    rw [List.flatMap_cons, he] at h
    cases earlier with
    | nil => exact (List.cons.inj h).2.symm
    | cons first earlier => exact absurd (List.cons.inj h).2 (by simp)
  | case3 pos tag _ next hnext ih =>
    obtain ⟨e, he, -⟩ := exists_eventsAt text resolve tag
    rw [List.flatMap_cons, he] at h
    cases earlier with
    | nil =>
      rw [(List.cons.inj h).1] at he
      have hstop := any_saysStopping (fate text resolve tag) tag
      rw [message?_of_eventsAt he, Option.any_some, hm, ← after?, hnext] at hstop
      cases hstop
    | cons first earlier => exact ih (List.cons.inj h).2

/-! ### Counting calls -/

/-- The messages with a property are counted by the tags that log one. -/
theorem countP_messages (text : List Char) (resolve : Resolver) (p : String → Bool)
    (tags : List Nat) : (tags.filterMap fun tag => (fate text resolve tag).message? tag).countP p =
      tags.countP fun tag => ((fate text resolve tag).message? tag).any p := by
  rw [List.countP_filterMap]
  congr 1
  funext tag
  cases (fate text resolve tag).message? tag <;> rfl

/-- The resolver was asked once for each script, each dropped block and each body that does not
end. -/
theorem length_asked (text : List Char) (resolve : Resolver) (tags : List Nat) :
    (tags.filterMap fun tag => (fate text resolve tag).asked).length =
      (tags.filterMap (scriptAt text resolve)).length +
        (tags.filterMap fun tag => (fate text resolve tag).message? tag).countP saysDropped +
        (tags.filterMap fun tag => (fate text resolve tag).message? tag).countP saysUnclosed := by
  simp only [countP_messages, any_saysDropped, any_saysUnclosed,
    List.length_filterMap_eq_countP]
  induction tags with
  | nil => rfl
  | cons tag tags ih =>
    simp only [List.countP_cons, ih, scriptAt]
    cases fate text resolve tag <;>
      simp [Fate.asked, Fate.script?, Fate.isDropped, Fate.isUnclosed] <;> omega

/-- At most one message says that no `</script>` follows a tag. -/
theorem countP_saysUnclosed_le (text : List Char) (resolve : Resolver) (pos : Nat) :
    ((visits text resolve pos).filterMap fun tag =>
      (fate text resolve tag).message? tag).countP saysUnclosed ≤ 1 := by
  simp only [countP_messages, any_saysUnclosed]
  fun_induction visits text resolve pos with
  | case1 => exact Nat.zero_le 1
  | case2 pos tag => exact List.countP_le_length
  | case3 pos tag _ next hnext ih =>
    have hgoes : (fate text resolve tag).isUnclosed = false := by
      rw [after?] at hnext
      cases hfate : fate text resolve tag <;> rw [hfate] at hnext <;> first | rfl | cases hnext
    rw [List.countP_cons_of_neg (by rw [hgoes]; decide)]
    exact ih

/-! ### Rejected calls -/

theorem forall₂_filterMap {α β γ : Type} {R : β → γ → Prop} {f : α → Option β} {g : α → Option γ}
    (h : ∀ a, Option.Rel R (f a) (g a)) (l : List α) :
    List.Forall₂ R (l.filterMap f) (l.filterMap g) := by
  induction l with
  | nil => exact .nil
  | cons a l ih =>
    have hrel := h a
    rw [List.filterMap_cons, List.filterMap_cons]
    generalize f a = x at hrel ⊢
    generalize g a = y at hrel ⊢
    cases hrel with
    | none => exact ih
    | some hr => exact .cons hr ih

theorem filter_saysDropped (f : Fate) (tag : Nat) : (f.message? tag).filter saysDropped =
    if f.isDropped then f.message? tag else none := by
  have h := any_saysDropped f tag
  cases hm : f.message? tag with
  | none => simp
  | some m =>
    rw [hm, Option.any_some] at h
    rw [Option.filter_some, h]

/-- The messages that a block is dropped name the tokens that the resolver rejected. -/
theorem forall₂_namesDropped (text : List Char) (resolve : Resolver) (tags : List Nat) :
    List.Forall₂ NamesDropped
      ((tags.filterMap fun tag => (fate text resolve tag).message? tag).filter saysDropped)
      ((tags.filterMap fun tag => (fate text resolve tag).asked).filter
        fun token => (resolve token).type?.isNone) := by
  rw [List.filter_filterMap, List.filter_filterMap]
  refine forall₂_filterMap (fun tag => ?_) tags
  have hf := hasFate_fate text resolve tag
  generalize fate text resolve tag = f at hf
  rw [filter_saysDropped]
  cases hf with
  | lookAlike => exact .none
  | unterminated => exact .none
  | dropped _ _ htype =>
    rw [Fate.asked, Option.filter_some, htype]
    exact .some ⟨tag, rfl⟩
  | unclosed _ _ htype =>
    rw [Fate.asked, Option.filter_some, htype]
    exact .none
  | block _ _ htype =>
    rw [Fate.asked, Option.filter_some, htype]
    exact .none

end

/-! ### The account of a scan -/

/-- The account of a scan: what it shows of the tags that it visits, and what can be read off it. -/
structure Accounted (text : List Char) (resolve : Resolver) (passes : List Pass) : Prop where
  /-- The events are the messages and the scripts. -/
  shown : (events passes).filterMap Event.message? = messages passes ∧
    (events passes).filterMap Event.script? = scripts passes
  /-- Each event tells of its own tag. -/
  tells : List.Forall₂ (Tells text resolve) (passes.map (·.tag)) (events passes)
  /-- The tags are in no comment. -/
  startsAt : ∀ pass ∈ passes, Tag.StartsAt text pass.tag
  /-- The tags come in their order in the text. -/
  increasing : (passes.map (·.tag)).Pairwise (· < ·)
  /-- No event comes after a message that the scan stops. -/
  stops_last : ∀ earlier later m, events passes = earlier ++ .logged m :: later →
    saysStopping m = true → later = []
  /-- Each call is that of a script, of a dropped block or of a body that does not end. -/
  calls : (asked passes).length = (scripts passes).length +
    (messages passes).countP saysDropped + (messages passes).countP saysUnclosed
  /-- At most one body does not end. -/
  unclosed_le_one : (messages passes).countP saysUnclosed ≤ 1
  /-- The dropped blocks are those of the tokens that the resolver rejects. -/
  rejected : List.Forall₂ NamesDropped ((messages passes).filter saysDropped)
    ((asked passes).filter fun token => (resolve token).type?.isNone)
  /-- A message that a block is dropped names one token. -/
  names_unique : ∀ m token token', NamesDropped m token → NamesDropped m token' → token = token'

theorem tags_passes (text : List Char) (resolve : Resolver) :
    (passes text resolve {}).map (·.tag) = visits text resolve 0 := by
  rw [map_passes (fun _ _ _ _ => tag_pass _) (counted_start text)]
  exact List.map_id _

theorem Pass.filterMap_events (pass : Pass) :
    pass.events.filterMap Event.message? = pass.message?.toList ∧
      pass.events.filterMap Event.script? = pass.outcome.script?.toList := by
  unfold Pass.events
  cases pass.message? <;> cases pass.outcome.script? <;> exact ⟨rfl, rfl⟩

theorem filterMap_events (passes : List Pass) :
    (events passes).filterMap Event.message? = messages passes ∧
      (events passes).filterMap Event.script? = scripts passes := by
  unfold events messages scripts
  rw [List.filterMap_flatMap, List.filterMap_flatMap, List.filterMap_eq_flatMap_toList,
    List.filterMap_eq_flatMap_toList]
  constructor
  · exact congrArg (List.flatMap · _) (funext fun pass => pass.filterMap_events.1)
  · exact congrArg (List.flatMap · _) (funext fun pass => pass.filterMap_events.2)

/-- Every tag that a scan visits is accounted for once in what the scan shows. -/
theorem accounted_passes (text : List Char) (resolve : Resolver) :
    Accounted text resolve (passes text resolve {}) := by
  constructor
  · exact filterMap_events _
  · rw [tags_passes, events_passes]
    exact forall₂_events text resolve _
  · intro pass hpass
    have hmem := List.mem_map_of_mem (f := (·.tag)) hpass
    rw [tags_passes] at hmem
    exact startsAt_of_mem_visits hmem
  · rw [tags_passes]
    exact pairwise_visits text resolve 0
  · intro earlier later m hevents
    rw [events_passes] at hevents
    exact eq_nil_of_saysStopping hevents
  · rw [asked_passes, scripts_passes, messages_passes]
    exact length_asked text resolve _
  · rw [messages_passes]
    exact countP_saysUnclosed_le text resolve 0
  · rw [messages_passes, asked_passes]
    exact forall₂_namesDropped text resolve _
  · intro m token token'
    exact NamesDropped.unique

example : events (passes "<script-x><script lang=zz><script>a</script><script>".toList
    Resolver.known {}) =
    [.logged "skipping look-alike tag at 0",
      .logged "unknown script lang 'zz' at 10; block dropped",
      .given ⟨"a", { }, 34, true⟩,
      .logged "no </script> after tag at 44; stopping"] := by
  with_unfolding_all decide

end Scan

end ScriptBlocks
