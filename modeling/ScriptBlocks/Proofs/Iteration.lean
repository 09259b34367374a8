import ScriptBlocks.Session

/-!
# Iterators and eager parsing

An iterator is told by the passes that its scan has left (`Session.left`).  A request for its next
script takes the passes up to the first one that gives a script (`Scan.turn`) and leaves the
others (`Scan.afterTurn`); a request to close it leaves none; and no other request touches it
(`Session.left_answer`).  So the replies of an iterator follow from its own requests alone, and
together they are those of a single parse (`Session.iterate_refines_parse`).
-/

namespace ScriptBlocks

namespace Scan

/-! ### Turns -/

/-- The passes up to the first one that gives a script, that one included. -/
def turn : List Pass → List Pass
  | [] => []
  | pass :: rest => if pass.outcome.script?.isSome then [pass] else pass :: turn rest

/-- The passes after the first one that gives a script. -/
def afterTurn : List Pass → List Pass
  | [] => []
  | pass :: rest => if pass.outcome.script?.isSome then rest else afterTurn rest

/-- The passes after those of the first `k` turns. -/
def afterTurns : Nat → List Pass → List Pass
  | 0, passes => passes
  | k + 1, passes => afterTurns k (afterTurn passes)

section

variable {text : List Char} {resolve : Resolver} {p next : Position} {pass : Pass}
  {rest : List Pass} {found : Script}

theorem turn_of_script (h : pass.outcome.script? = some found) : turn (pass :: rest) = [pass] :=
  if_pos (by rw [h]; rfl)

theorem turn_of_none (h : pass.outcome.script? = none) : turn (pass :: rest) = pass :: turn rest :=
  if_neg (by rw [h]; exact Bool.false_ne_true)

theorem afterTurn_of_script (h : pass.outcome.script? = some found) :
    afterTurn (pass :: rest) = rest :=
  if_pos (by rw [h]; rfl)

theorem afterTurn_of_none (h : pass.outcome.script? = none) :
    afterTurn (pass :: rest) = afterTurn rest :=
  if_neg (by rw [h]; exact Bool.false_ne_true)

theorem scripts_of_script (h : pass.outcome.script? = some found) :
    scripts (pass :: rest) = found :: scripts rest :=
  List.filterMap_cons_some h

theorem scripts_of_none (h : pass.outcome.script? = none) : scripts (pass :: rest) = scripts rest :=
  List.filterMap_cons_none h

theorem turn_append_afterTurn (passes : List Pass) : turn passes ++ afterTurn passes = passes := by
  induction passes with
  | nil => rfl
  | cons pass rest ih =>
    cases hs : pass.outcome.script? with
    | none => rw [turn_of_none hs, afterTurn_of_none hs, List.cons_append, ih]
    | some => rw [turn_of_script hs, afterTurn_of_script hs, List.singleton_append]

theorem scripts_afterTurn (passes : List Pass) :
    scripts (afterTurn passes) = (scripts passes).tail := by
  induction passes with
  | nil => rfl
  | cons pass rest ih =>
    cases hs : pass.outcome.script? with
    | none => rw [afterTurn_of_none hs, ih, scripts_of_none hs]
    | some => rw [afterTurn_of_script hs, scripts_of_script hs, List.tail_cons]

theorem scripts_afterTurns (k : Nat) (passes : List Pass) :
    scripts (afterTurns k passes) = (scripts passes).drop k := by
  induction k generalizing passes with
  | zero => rfl
  | succ k ih => rw [afterTurns, ih, scripts_afterTurn, List.drop_tail]

theorem afterTurn_eq_nil {passes : List Pass} (h : scripts passes = []) :
    afterTurn passes = [] := by
  induction passes with
  | nil => rfl
  | cons pass rest ih =>
    cases hs : pass.outcome.script? with
    | none => rw [afterTurn_of_none hs, ih (by rwa [scripts_of_none hs] at h)]
    | some =>
      rw [scripts_of_script hs] at h
      cases h

theorem afterTurns_nil (k : Nat) : afterTurns k [] = [] := by
  induction k with
  | zero => rfl
  | succ k ih => exact ih

/-- After more turns than there are scripts no pass is left. -/
theorem afterTurns_eq_nil {k : Nat} {passes : List Pass} (h : (scripts passes).length < k) :
    afterTurns k passes = [] := by
  induction k generalizing passes with
  | zero => omega
  | succ k ih =>
    rw [afterTurns]
    by_cases hnone : scripts passes = []
    · rw [afterTurn_eq_nil hnone, afterTurns_nil]
    · apply ih
      have := List.length_pos_iff.2 hnone
      rw [scripts_afterTurn, List.length_tail]
      omega

/-! ### Advances -/

theorem asked_cons (pass : Pass) (rest : List Pass) :
    asked (pass :: rest) = pass.asked.toList ++ asked rest := by
  cases h : pass.asked <;> simp [asked, h]

theorem messages_cons (pass : Pass) (rest : List Pass) :
    messages (pass :: rest) = pass.message?.toList ++ messages rest := by
  cases h : pass.message? <;> simp [messages, h]

theorem passes_of_none (h : step text resolve p = none) : passes text resolve p = [] := by
  rw [passes]
  split
  · rfl
  · next hstep => rw [h] at hstep; cases hstep

theorem passes_of_some (h : step text resolve p = some pass) : passes text resolve p =
    pass :: (pass.outcome.next?.map (passes text resolve)).getD [] := by
  rw [passes]
  split
  · next hstep => rw [h] at hstep; cases hstep
  · next pass' hstep =>
    rw [h] at hstep
    cases hstep
    split
    · next hn => rw [hn]; rfl
    · next hn => rw [hn]; rfl

/-- The passes that the scan of an iterator has left. -/
def left (text : List Char) (resolve : Resolver) (it : Iterator) : List Pass :=
  (it.map (passes text resolve)).getD []

/-- What an advance comes to, told by the passes that were left before it. -/
structure Advance.Takes (text : List Char) (resolve : Resolver) (before : List Pass)
    (a : Advance) : Prop where
  asked_eq : a.asked = Scan.asked (turn before)
  messages_eq : a.messages = Scan.messages (turn before)
  script_eq : a.result.map (·.1) = (scripts before).head?
  left_eq : left text resolve (a.result.map (·.2)) = afterTurn before

/-- A pass without a script only adds to what the advance asks and logs. -/
theorem Advance.Takes.after {before : List Pass} {a : Advance} (h : a.Takes text resolve before)
    (hs : pass.outcome.script? = none) : (a.after pass).Takes text resolve (pass :: before) := by
  constructor
  · rw [turn_of_none hs, asked_cons, ← h.asked_eq]
    rfl
  · rw [turn_of_none hs, messages_cons, ← h.messages_eq]
    rfl
  · rw [scripts_of_none hs]
    exact h.script_eq
  · rw [afterTurn_of_none hs]
    exact h.left_eq

theorem script?_eq_none_of_stop {outcome : Outcome} (h : outcome.next? = none) :
    outcome.script? = none := by
  cases outcome with
  | lookAlike => rfl
  | unterminated => rfl
  | dropped => rfl
  | unclosed => rfl
  | block => cases h

/-- An advance takes one turn of the passes that are left. -/
theorem takes_advance (text : List Char) (resolve : Resolver) (p : Position) :
    (advance text resolve p).Takes text resolve (passes text resolve p) := by
  fun_induction advance text resolve p with
  | case1 p hstep =>
    rw [passes_of_none hstep]
    exact ⟨rfl, rfl, rfl, rfl⟩
  | case2 p pass hstep hnext =>
    rw [passes_of_some hstep, hnext]
    have hempty : ({} : Advance).Takes text resolve [] := ⟨rfl, rfl, rfl, rfl⟩
    exact hempty.after (script?_eq_none_of_stop hnext)
  | case3 p pass hstep next hnext script hscript =>
    rw [passes_of_some hstep, hnext]
    show Advance.Takes text resolve (pass :: passes text resolve next) _
    constructor
    · rw [turn_of_script hscript, asked_cons]
      rfl
    · rw [turn_of_script hscript, messages_cons]
      rfl
    · rw [scripts_of_script hscript]
      rfl
    · simp [afterTurn_of_script hscript, left, Advance.after]
  | case4 p pass hstep next hnext hscript ih =>
    rw [passes_of_some hstep, hnext]
    exact ih.after hscript

end

end Scan

namespace Session

/-! ### Requests one after the other -/

/-- The session once it has answered the requests. -/
def after (s : Session) : List Request → Session
  | [] => s
  | r :: rs => (s.answer r).2.after rs

/-- Whether a request is made to iterator number `i`. -/
def Request.isTo (i : Nat) : Request → Bool
  | next j => j == i
  | close j => j == i
  | iterate => false
  | parse => false

/-- The replies to those of the requests that are made to iterator number `i`. -/
def repliesTo (i : Nat) (s : Session) (rs : List Request) : List Reply :=
  ((rs.zip (s.answers rs)).filter fun pair => pair.1.isTo i).map (·.2)

/-- The passes that iterator number `i` has left. -/
def left (s : Session) (i : Nat) : List Scan.Pass :=
  Scan.left s.text s.resolve s.iterators[i]?.join

section

variable {s s' : Session} {r : Request} {rs : List Request} {i : Nat}

theorem answers_append (s : Session) (rs rs' : List Request) :
    s.answers (rs ++ rs') = s.answers rs ++ (s.after rs).answers rs' := by
  induction rs generalizing s with
  | nil => rfl
  | cons r rs ih => exact congrArg (List.cons (s.answer r).1) (ih (s.answer r).2)

theorem text_answer (s : Session) (r : Request) :
    (s.answer r).2.text = s.text ∧ (s.answer r).2.resolve = s.resolve := by
  cases r with
  | iterate => exact ⟨rfl, rfl⟩
  | next i =>
    simp only [answer]
    split <;> exact ⟨rfl, rfl⟩
  | close i => exact ⟨rfl, rfl⟩
  | parse => exact ⟨rfl, rfl⟩

theorem text_after (s : Session) (rs : List Request) :
    (s.after rs).text = s.text ∧ (s.after rs).resolve = s.resolve := by
  induction rs generalizing s with
  | nil => exact ⟨rfl, rfl⟩
  | cons r rs ih =>
    obtain ⟨htext, hresolve⟩ := ih (s.answer r).2
    exact ⟨htext.trans (text_answer s r).1, hresolve.trans (text_answer s r).2⟩

theorem length_le_answer (s : Session) (r : Request) :
    s.iterators.length ≤ (s.answer r).2.iterators.length := by
  cases r with
  | iterate => simp [answer]
  | next i =>
    simp only [answer]
    split <;> simp
  | close i => simp [answer]
  | parse => exact Nat.le_refl _

/-! ### What one request does to an iterator -/

theorem left_iterate (s : Session) :
    (s.answer .iterate).2.left s.iterators.length = Scan.passes s.text s.resolve {} := by
  simp [left, answer, Scan.left]

/-- The reply to a request for the next script, from the passes that the iterator has left. -/
theorem answer_next (s : Session) (i : Nat) : (s.answer (.next i)).1 =
    { answer := .script (Scan.scripts (s.left i)).head?
      asked := Scan.asked (Scan.turn (s.left i))
      messages := Scan.messages (Scan.turn (s.left i)) } := by
  rw [left, answer]
  split
  · next hnone => rw [hnone]; rfl
  · next p hsome =>
    have h := Scan.takes_advance s.text s.resolve p
    rw [hsome]
    simp only [h.asked_eq, h.messages_eq, h.script_eq]
    rfl

theorem left_next (s : Session) (i : Nat) :
    (s.answer (.next i)).2.left i = Scan.afterTurn (s.left i) := by
  rw [left, left, answer]
  split
  · next hnone => rw [hnone]; rfl
  · next p hsome =>
    have hlt : i < s.iterators.length := by
      refine Nat.lt_of_not_le fun hle => ?_
      rw [List.getElem?_eq_none hle] at hsome
      cases hsome
    have h := Scan.takes_advance s.text s.resolve p
    simp only [List.getElem?_set_self hlt]
    rw [hsome]
    exact h.left_eq

theorem left_close (s : Session) (i : Nat) : (s.answer (.close i)).2.left i = [] := by
  rw [left, answer]
  simp only [List.getElem?_set]
  split
  · split <;> rfl
  · contradiction

/-- A request that is not made to an iterator leaves it as it is. -/
theorem left_answer (hr : r.isTo i = false) (hi : i < s.iterators.length) :
    (s.answer r).2.left i = s.left i := by
  cases r with
  | iterate => simp only [left, answer, List.getElem?_append_left hi]
  | next j =>
    have hji : j ≠ i := by simpa [Request.isTo] using hr
    simp only [answer]
    split
    · rfl
    · simp only [left, List.getElem?_set_ne hji]
  | close j =>
    have hji : j ≠ i := by simpa [Request.isTo] using hr
    simp only [left, answer, List.getElem?_set_ne hji]
  | parse => rfl

theorem Request.isTo_iff : r.isTo i = true ↔ r = .next i ∨ r = .close i := by
  cases r <;> simp [isTo]

theorem Request.isTo_eq_false (hnext : r ≠ .next i) (hclose : .close i ≠ r) : r.isTo i = false := by
  rw [Bool.eq_false_iff, ne_eq, isTo_iff, not_or]
  exact ⟨hnext, hclose.symm⟩

/-- What an iterator replies to its own requests depends on the passes that it has left. -/
theorem answer_congr (hr : r.isTo i = true) (hleft : s.left i = s'.left i) :
    (s.answer r).1 = (s'.answer r).1 ∧ (s.answer r).2.left i = (s'.answer r).2.left i := by
  rcases Request.isTo_iff.1 hr with rfl | rfl
  · rw [answer_next, answer_next, left_next, left_next, hleft]
    exact ⟨rfl, rfl⟩
  · rw [left_close, left_close]
    exact ⟨rfl, rfl⟩

/-! ### Runs -/

theorem repliesTo_cons (i : Nat) (s : Session) (r : Request) (rs : List Request) :
    repliesTo i s (r :: rs) = if r.isTo i then (s.answer r).1 :: repliesTo i (s.answer r).2 rs
      else repliesTo i (s.answer r).2 rs := by
  cases h : r.isTo i <;> simp [repliesTo, answers, h]

/-- Requests to others change nothing in the replies of an iterator. -/
theorem repliesTo_eq_answers (hi : i < s.iterators.length) (hleft : s.left i = s'.left i) :
    repliesTo i s rs = s'.answers (rs.filter (·.isTo i)) := by
  induction rs generalizing s s' with
  | nil => rfl
  | cons r rs ih =>
    have hi' := Nat.lt_of_lt_of_le hi (length_le_answer s r)
    rw [repliesTo_cons, List.filter_cons]
    by_cases hr : r.isTo i = true
    · obtain ⟨hreply, hnext⟩ := answer_congr hr hleft
      rw [if_pos hr, if_pos hr, hreply, ih hi' hnext]
      rfl
    · rw [if_neg hr, if_neg hr]
      apply ih hi'
      rw [left_answer (Bool.eq_false_iff.2 hr) hi, hleft]

/-- An iterator that is not closed has left what its turns have not taken. -/
theorem left_after (hi : i < s.iterators.length) (hclose : .close i ∉ rs) :
    (s.after rs).left i = Scan.afterTurns (rs.count (.next i)) (s.left i) := by
  induction rs generalizing s with
  | nil => rfl
  | cons r rs ih =>
    have hi' := Nat.lt_of_lt_of_le hi (length_le_answer s r)
    rw [List.mem_cons, not_or] at hclose
    rw [after, ih hi' hclose.2]
    by_cases hr : r = .next i
    · rw [hr, left_next, List.count_cons_self]
      rfl
    · have hother := Request.isTo_eq_false hr hclose.1
      rw [left_answer hother hi, List.count_cons_of_ne hr]

theorem left_after_of_nil (hi : i < s.iterators.length) (hleft : s.left i = []) :
    (s.after rs).left i = [] := by
  induction rs generalizing s with
  | nil => exact hleft
  | cons r rs ih =>
    apply ih (Nat.lt_of_lt_of_le hi (length_le_answer s r))
    by_cases hr : r.isTo i = true
    · rcases Request.isTo_iff.1 hr with rfl | rfl
      · rw [left_next, hleft]
        rfl
      · exact left_close s i
    · rw [left_answer (Bool.eq_false_iff.2 hr) hi, hleft]

/-- A closed iterator has nothing left. -/
theorem left_after_of_close (hi : i < s.iterators.length) (hclose : .close i ∈ rs) :
    (s.after rs).left i = [] := by
  induction rs generalizing s with
  | nil => cases hclose
  | cons r rs ih =>
    have hi' := Nat.lt_of_lt_of_le hi (length_le_answer s r)
    rw [after]
    rcases List.mem_cons.1 hclose with rfl | hclose
    · exact left_after_of_nil hi' (left_close s i)
    · exact ih hi' hclose

/-- What the replies of an iterator add up to, together with what its scan would still come to. -/
theorem flatMap_repliesTo {f : Reply → List String} {g : List Scan.Pass → List String}
    (hg : ∀ passes passes', g (passes ++ passes') = g passes ++ g passes')
    (hf : ∀ s : Session, f (s.answer (.next i)).1 = g (Scan.turn (s.left i)))
    (hi : i < s.iterators.length) (hclose : .close i ∉ rs) :
    (repliesTo i s rs).flatMap f ++ g ((s.after rs).left i) = g (s.left i) := by
  induction rs generalizing s with
  | nil => rfl
  | cons r rs ih =>
    have hi' := Nat.lt_of_lt_of_le hi (length_le_answer s r)
    rw [List.mem_cons, not_or] at hclose
    have hrest := ih hi' hclose.2
    rw [repliesTo_cons, after]
    by_cases hr : r = .next i
    · subst hr
      rw [if_pos (by simp [Request.isTo]), List.flatMap_cons, List.append_assoc, hrest, hf,
        left_next, ← hg, Scan.turn_append_afterTurn]
    · have hother := Request.isTo_eq_false hr hclose.1
      rw [if_neg (Bool.eq_false_iff.1 hother), hrest, left_answer hother hi]

end

/-! ### Lazy and eager -/

/-- What holds of iterator number `i` of a session that has just opened it, whatever the session
is asked for from then on. -/
structure Refines (opened : Session) (i : Nat) (text : String) (resolve : Resolver) : Prop where
  /-- The next script is the next one of the document, and it takes the passes after the script
  before it, up to its own. -/
  next_reply : ∀ rest, Request.close i ∉ rest →
    ((opened.after rest).answer (.next i)).1 =
      let passes := Scan.afterTurns (rest.count (.next i)) (Scan.passes text.toList resolve {})
      { answer := .script (parse text resolve)[rest.count (.next i)]?
        asked := Scan.asked (Scan.turn passes)
        messages := Scan.messages (Scan.turn passes) }
  /-- An iterator that is closed or exhausted gives nothing, asks nothing and logs nothing. -/
  ended : ∀ rest, Request.close i ∈ rest ∨ (parse text resolve).length < rest.count (.next i) →
    ((opened.after rest).answer (.next i)).1 = { answer := .script none }
  /-- Run to its end, an iterator asks and logs what a parse does. -/
  exhausted : ∀ rest, Request.close i ∉ rest →
    (parse text resolve).length < rest.count (.next i) →
      (repliesTo i opened rest).flatMap (·.asked) =
          Scan.asked (Scan.passes text.toList resolve {}) ∧
        (repliesTo i opened rest).flatMap (·.messages) =
          Scan.messages (Scan.passes text.toList resolve {})
  /-- A parse gives all scripts at any time. -/
  parse_reply : ∀ rest, ((opened.after rest).answer .parse).1 =
    { answer := .scripts (parse text resolve)
      asked := Scan.asked (Scan.passes text.toList resolve {})
      messages := Scan.messages (Scan.passes text.toList resolve {}) }
  /-- The iterator replies as if no one else had asked for anything. -/
  alone : ∀ rest, repliesTo i opened rest = opened.answers (rest.filter (·.isTo i))

/-- An iterator on which a whole scan is left refines a parse. -/
theorem refines_of_left {opened : Session} {i : Nat} {text : String} {resolve : Resolver}
    (htext : opened.text = text.toList) (hresolve : opened.resolve = resolve)
    (hi : i < opened.iterators.length)
    (hleft : opened.left i = Scan.passes text.toList resolve {}) :
    opened.Refines i text resolve := by
  have hlength : ∀ rest : List Request, (parse text resolve).length < rest.count (.next i) →
      Scan.afterTurns (rest.count (.next i)) (opened.left i) = [] := by
    intro rest hlt
    apply Scan.afterTurns_eq_nil
    rw [hleft]
    exact hlt
  constructor
  · intro rest hclose
    rw [answer_next, left_after hi hclose, Scan.scripts_afterTurns, List.head?_drop, hleft]
    rfl
  · intro rest hended
    have hnil : (opened.after rest).left i = [] := by
      by_cases hclose : Request.close i ∈ rest
      · exact left_after_of_close hi hclose
      · rw [left_after hi hclose]
        exact hlength rest (hended.resolve_left hclose)
    rw [answer_next, hnil]
    rfl
  · intro rest hclose hlt
    have hasked := flatMap_repliesTo (f := (·.asked)) (g := Scan.asked)
      (fun _ _ => List.filterMap_append) (fun s => by rw [answer_next]) hi hclose
    have hmessages := flatMap_repliesTo (f := (·.messages)) (g := Scan.messages)
      (fun _ _ => List.filterMap_append) (fun s => by rw [answer_next]) hi hclose
    rw [left_after hi hclose, hlength rest hlt, hleft] at hasked hmessages
    exact ⟨by simpa [Scan.asked] using hasked, by simpa [Scan.messages] using hmessages⟩
  · intro rest
    obtain ⟨htext', hresolve'⟩ := text_after opened rest
    rw [answer, htext', hresolve', htext, hresolve]
    rfl
  · intro rest
    exact repliesTo_eq_answers hi rfl

/-- Iterators refine parsing under any interleaving: whatever a session has been asked for before,
opening an iterator asks the resolver nothing, and the iterator gives the scripts of the document
one by one, asking and logging for each only what leads up to it. -/
theorem iterate_refines_parse (text : String) (resolve : Resolver) (before : List Request) :
    let start : Session := { text := text.toList, resolve := resolve }
    let number := (start.after before).iterators.length
    let opened := ((start.after before).answer .iterate).2
    (∀ rest, start.answers (before ++ .iterate :: rest) =
        start.answers before ++ { answer := .iterator number } :: opened.answers rest) ∧
      opened.Refines number text resolve := by
  intro start number opened
  obtain ⟨htext, hresolve⟩ := text_after start before
  refine ⟨fun rest => answers_append start before (.iterate :: rest),
    refines_of_left htext hresolve ?_ ?_⟩
  · simp [number, opened, answer]
  · rw [left_iterate, htext, hresolve]

/-- A document with a dropped block before each of its two scripts. -/
def droppedBetween : String :=
  "<script lang=aa></script><script>a</script><script lang=bb></script><script lang=ts>é</script>"

/-- What is asked for between the two scripts of the second iterator. -/
def interleaved : List Request := [.next 1, .next 0, .parse, .close 0, .iterate, .next 2]

theorem iterate_refines_parse_interleaved :
    let start : Session := { text := droppedBetween.toList, resolve := Resolver.known }
    let opened := ((start.after [.iterate, .next 0]).answer .iterate).2
    Request.close 1 ∉ interleaved ∧
      ((opened.after interleaved).answer (.next 1)).1 =
        { answer := .script (some ⟨"é", SourceType.ts, 84, true⟩)
          asked := ["bb", "ts"]
          messages := ["unknown script lang 'bb' at 43; block dropped"] } := by
  have hclose : Request.close 1 ∉ interleaved := by decide
  have h := (iterate_refines_parse droppedBetween Resolver.known [.iterate, .next 0]).2
  exact ⟨hclose, (h.next_reply interleaved hclose).trans (by with_unfolding_all decide)⟩

end Session

end ScriptBlocks
