import ScriptBlocks.Scan

/-!
# Sessions

A session reads one document through any number of iterators.  An iterator is a scan that runs
only as far as it is asked to: it stands at a position, and each request for its next script runs
it up to there.  `Session.answer` gives, with each answer, the tokens that the resolver was asked
for and the messages logged on its account.
-/

namespace ScriptBlocks

/-- An iterator: where its scan stands, or `none` once it is exhausted or closed. -/
abbrev Iterator := Option Scan.Position

/-- A document with the iterators that read it. -/
structure Session where
  text : List Char
  /-- The resolver that every scan of the document asks. -/
  resolve : Resolver
  /-- The iterators, by number. -/
  iterators : List Iterator := []

namespace Session

/-- What a session can be asked for. -/
inductive Request where
  /-- A new iterator. -/
  | iterate
  /-- The next script of an iterator. -/
  | next (iterator : Nat)
  /-- An end to an iterator. -/
  | close (iterator : Nat)
  | parse
  deriving DecidableEq, Repr

/-- What a session answers. -/
inductive Answer where
  | iterator (number : Nat)
  /-- The next script, or `none` at the end. -/
  | script (script : Option Script)
  /-- The iterator is closed. -/
  | closed
  | scripts (scripts : List Script)
  deriving DecidableEq, Repr

/-- An answer with what it took. -/
structure Reply where
  answer : Answer
  /-- The tokens that the resolver was asked for. -/
  asked : List String := []
  messages : List String := []
  deriving DecidableEq, Repr

/-- Answers one request. -/
def answer (s : Session) : Request → Reply × Session
  | .iterate =>
    ({ answer := .iterator s.iterators.length }, { s with iterators := s.iterators ++ [some {}] })
  | .next i =>
    match s.iterators[i]?.join with
    | none => ({ answer := .script none }, s)
    | some p =>
      let a := Scan.advance s.text s.resolve p
      ({ answer := .script (a.result.map (·.1)), asked := a.asked, messages := a.messages },
        { s with iterators := s.iterators.set i (a.result.map (·.2)) })
  | .close i => ({ answer := .closed }, { s with iterators := s.iterators.set i none })
  | .parse =>
    let passes := Scan.passes s.text s.resolve {}
    ({ answer := .scripts (Scan.scripts passes), asked := Scan.asked passes,
       messages := Scan.messages passes }, s)

/-- Answers requests one after the other. -/
def answers (s : Session) : List Request → List Reply
  | [] => []
  | r :: rs =>
    let (reply, s) := s.answer r
    reply :: s.answers rs

end Session

end ScriptBlocks
