/-!
# Lines

Two things end lines here.  A file read as text has each carriage return, with the line feed after
it if there is one, turned into one line feed: `unifyNewlines`.  A text cut into lines is cut at
every line boundary, of which there are more than the line feed: `lines`.
-/

namespace ScriptBlocks.Text

/-- Appends the text, with its newlines unified, to `done`, which is in reverse order. -/
def unifyNewlinesOnto (done : List Char) : List Char → List Char
  | [] => done.reverse
  | '\r' :: '\n' :: s => unifyNewlinesOnto ('\n' :: done) s
  | c :: s => unifyNewlinesOnto ((if c = '\r' then '\n' else c) :: done) s

/-- The text with every carriage return, and the line feed after it if any, made one line feed. -/
def unifyNewlines (s : List Char) : List Char := unifyNewlinesOnto [] s

/-- Whether a line ends at the character: line feed, vertical tab, form feed, carriage return,
the separators of files, groups and records, next line, line separator, paragraph separator. -/
def isLineBoundary (c : Char) : Bool :=
  c = '\n' || c = '\x0b' || c = '\x0c' || c = '\r' || c = '\x1c' || c = '\x1d' || c = '\x1e' ||
    c = '\u0085' || c = '\u2028' || c = '\u2029'

/-- The lines of a text of which `line`, in reverse order, has been read as the start of the
current line.  A carriage return and a line feed after it are one boundary, and a text that ends
at a boundary has no empty last line. -/
def linesFrom (line : List Char) : List Char → List (List Char)
  | [] => if line.isEmpty then [] else [line.reverse]
  | '\r' :: '\n' :: s => line.reverse :: linesFrom [] s
  | c :: s =>
    if isLineBoundary c then line.reverse :: linesFrom [] s else linesFrom (c :: line) s

/-- The lines of a text, without their boundaries. -/
def lines (s : List Char) : List (List Char) := linesFrom [] s

end ScriptBlocks.Text
