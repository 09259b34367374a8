import ScriptBlocks.Script
import ScriptBlocks.Tag

/-!
# Scanning a document

A scan goes through a document tag by tag.  Each pass, `Scan.step`, finds the next tag, asks the
resolver for the type of its language where it comes to that, and says what became of the tag
(`Outcome`) and where the scan goes on.  `Scan.passes` is the whole scan, from which the scripts,
the tokens asked for and the log are read off; `Scan.advance` runs it up to the next script only.

A scan counts bytes lazily: `Position` holds, beside the cursor, an index up to which the bytes of
the document have been counted, and only a script that is given out moves that index on.
-/

namespace ScriptBlocks

/-- What ends the body of a block. -/
def bodyEnd : List Char := ['<', '/', 's', 'c', 'r', 'i', 'p', 't', '>']

namespace Scan

/-- Where a scan stands. -/
structure Position where
  /-- The index at which the search for the next tag begins. -/
  cursor : Nat := 0
  /-- The index up to which bytes have been counted. -/
  seenChars : Nat := 0
  /-- The number of bytes before that index. -/
  seenBytes : Nat := 0
  deriving DecidableEq, Repr

/-- What became of a tag. -/
inductive Outcome where
  /-- The tag has a longer name than `<script`; the scan goes on after these letters. -/
  | lookAlike (next : Position)
  /-- The tag has no closing angle; the scan stops. -/
  | unterminated
  /-- The language of the tag has no type; the scan goes on in what would have been its body. -/
  | dropped (token : String) (next : Position)
  /-- The body does not end; the scan stops. -/
  | unclosed
  /-- The tag begins a block, which gives a script; the scan goes on after the block. -/
  | block (script : Script) (next : Position)
  deriving DecidableEq, Repr

/-- Where the scan goes on, unless it stops. -/
def Outcome.next? : Outcome → Option Position
  | lookAlike next => some next
  | unterminated => none
  | dropped _ next => some next
  | unclosed => none
  | block _ next => some next

/-- The script that is given out, if any. -/
def Outcome.script? : Outcome → Option Script
  | block script _ => some script
  | _ => none

/-- One pass of a scan. -/
structure Pass where
  tag : Nat
  /-- The token that the resolver was asked for, if it was asked. -/
  asked : Option String
  outcome : Outcome
  deriving DecidableEq, Repr

/-- What a pass logs; one that gives out a script logs nothing. -/
def Pass.message? (pass : Pass) : Option String :=
  match pass.outcome with
  | .lookAlike _ => some s!"skipping look-alike tag at {pass.tag}"
  | .unterminated => some s!"unterminated <script tag at {pass.tag}; stopping"
  | .dropped token _ =>
    some s!"unknown script lang {Text.quoted token} at {pass.tag}; block dropped"
  | .unclosed =>
    some s!"no {String.ofList bodyEnd} after tag at {pass.tag}; stopping"
  | .block _ _ => none

/-- Whether every character of the text is ASCII, so that bytes and characters count alike. -/
def isAscii (text : List Char) : Bool := text.all fun c => c.toNat < 0x80

/-- The byte at which index `i` lies, with the position that has counted up to it.  In an ASCII
text there is nothing to count. -/
def byteAt (text : List Char) (p : Position) (i : Nat) : Nat × Position :=
  if isAscii text then (i, p)
  else
    let bytes := p.seenBytes + Utf8.size (Text.slice text p.seenChars i)
    (bytes, { p with seenChars := i, seenBytes := bytes })

/-- The type of a script: what the resolver found for the token, in the standard variant unless
the token has an `x`. -/
def typeFor (token : String) (found : SourceType) : SourceType :=
  found.withStandard (!token.toList.contains 'x')

/-- What becomes of a tag whose language is `token`, of type `found`, and whose body starts at
index `i`. -/
def body (text : List Char) (p : Position) (token : String) (found : SourceType) (i : Nat) :
    Outcome :=
  match Text.find? bodyEnd text i with
  | none => .unclosed
  | some j =>
    let (start, counted) := byteAt text p i
    .block ⟨String.ofList (Text.slice text i j), typeFor token found, start, true⟩
      { counted with cursor := j + bodyEnd.length }

/-- What becomes of the tag at index `tag`, whose name ends at index `nameEnd` if it is `<script`. -/
def visit (text : List Char) (resolve : Resolver) (p : Position) (tag nameEnd : Nat) : Pass :=
  if Tag.nameEndsAt text nameEnd then
    match Tag.closingAngle? text nameEnd with
    | none => ⟨tag, none, .unterminated⟩
    | some angle =>
      let token := Tag.language (Text.slice text nameEnd angle)
      match (resolve token).type? with
      | none => ⟨tag, some token, .dropped token { p with cursor := angle + 1 }⟩
      | some found => ⟨tag, some token, body text p token found (angle + 1)⟩
  else ⟨tag, none, .lookAlike { p with cursor := nameEnd }⟩

/-- The next pass of a scan, or `none` if there is no further tag. -/
def step (text : List Char) (resolve : Resolver) (p : Position) : Option Pass :=
  (Tag.startFrom? text p.cursor).map fun tag =>
    visit text resolve p tag (tag + Tag.opening.length)

/-! ### Every pass moves on -/

theorem cursor_of_body {text : List Char} {p next : Position} {token : String}
    {found : SourceType} {i : Nat} (h : (body text p token found i).next? = some next) :
    i + bodyEnd.length ≤ next.cursor ∧ next.cursor ≤ text.length := by
  unfold body at h
  split at h
  · cases h
  · next j hj =>
    cases h
    have := Text.le_of_find?_eq_some hj
    have := Text.add_length_le_of_find?_eq_some (by decide) hj
    exact ⟨by simp only; omega, by simp only; omega⟩

theorem cursor_of_visit {text : List Char} {resolve : Resolver} {p next : Position}
    {tag nameEnd : Nat} (hn : nameEnd ≤ text.length)
    (h : (visit text resolve p tag nameEnd).outcome.next? = some next) :
    nameEnd ≤ next.cursor ∧ next.cursor ≤ text.length := by
  unfold visit at h
  split at h
  · split at h
    · cases h
    · next angle ha =>
      have := Tag.bounds_of_closingAngle? ha
      simp only at h
      split at h
      · cases h
        exact ⟨by simp only; omega, by simp only; omega⟩
      · have := cursor_of_body h
        omega
  · cases h
    exact ⟨Nat.le_refl _, hn⟩

/-- A pass that does not stop the scan moves the cursor on by the length of `<script` at least,
and not past the end of the text. -/
theorem cursor_of_step {text : List Char} {resolve : Resolver} {p next : Position} {pass : Pass}
    (h : step text resolve p = some pass) (hn : pass.outcome.next? = some next) :
    p.cursor + Tag.opening.length ≤ next.cursor ∧ next.cursor ≤ text.length := by
  obtain ⟨tag, ht, rfl⟩ := Option.map_eq_some_iff.1 h
  have hb := Tag.bounds_of_startFrom? ht
  have := cursor_of_visit hb.2 hn
  omega

theorem remaining_lt_of_step {text : List Char} {resolve : Resolver} {p next : Position}
    {pass : Pass} (h : step text resolve p = some pass) (hn : pass.outcome.next? = some next) :
    text.length - next.cursor < text.length - p.cursor := by
  have := cursor_of_step h hn
  have : 0 < Tag.opening.length := by decide
  omega

/-! ### The whole scan -/

/-- The passes of a scan from `p` to its end. -/
def passes (text : List Char) (resolve : Resolver) (p : Position) : List Pass :=
  match _h : step text resolve p with
  | none => []
  | some pass =>
    match _hn : pass.outcome.next? with
    | none => [pass]
    | some next => pass :: passes text resolve next
termination_by text.length - p.cursor
decreasing_by exact remaining_lt_of_step _h _hn

def scripts (passes : List Pass) : List Script := passes.filterMap (·.outcome.script?)

def asked (passes : List Pass) : List String := passes.filterMap (·.asked)

def messages (passes : List Pass) : List String := passes.filterMap (·.message?)

/-! ### One script at a time -/

/-- What a scan comes to when it is run up to the next script. -/
structure Advance where
  /-- The tokens that the resolver was asked for. -/
  asked : List String := []
  messages : List String := []
  /-- The next script and where the scan then stands, or `none` at the end of the scan. -/
  result : Option (Script × Position) := none
  deriving DecidableEq, Repr

/-- Puts what a pass asked and logged before an advance. -/
def Advance.after (pass : Pass) (a : Advance) : Advance :=
  { a with
    asked := pass.asked.toList ++ a.asked
    messages := pass.message?.toList ++ a.messages }

/-- Runs a scan from `p` up to the next script. -/
def advance (text : List Char) (resolve : Resolver) (p : Position) : Advance :=
  match _h : step text resolve p with
  | none => {}
  | some pass =>
    match _hn : pass.outcome.next? with
    | none => Advance.after pass {}
    | some next =>
      match pass.outcome.script? with
      | some script => Advance.after pass { result := some (script, next) }
      | none => Advance.after pass (advance text resolve next)
termination_by text.length - p.cursor
decreasing_by exact remaining_lt_of_step _h _hn

end Scan

/-- The scripts of a document, in their order. -/
def parse (text : String) (resolve : Resolver := Resolver.known) : List Script :=
  Scan.scripts (Scan.passes text.toList resolve {})

end ScriptBlocks
