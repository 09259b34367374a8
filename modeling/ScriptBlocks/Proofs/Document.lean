import ScriptBlocks.Proofs.Composition

/-!
# Documents by their parts

A `Document` is written as a list of parts: script blocks with fillers before, between and after
them, where a filler is plain text with comments in it.  Each part carries what it must not hold in
order to be told from its neighbours: a plain text has no marker in it, a comment does not end
before its end, and so on.  `Document.render` writes a document down, and `Document.scripts` lists
the scripts that its blocks stand for.
-/

namespace ScriptBlocks

/-! ### Fillers -/

/-- Text with no `<script` and no `<!--` in it. -/
structure Plain where
  chars : List Char
  no_tag : ¬ Tag.opening <:+: chars
  no_comment : ¬ Comment.opening <:+: chars

/-- A comment; its inside may hold anything that does not end it. -/
structure Note where
  /-- What stands between the `<!--` and the `-->`. -/
  inside : List Char
  no_closing : ¬ Comment.closing <:+: '-' :: '-' :: inside

def Note.render (note : Note) : List Char :=
  Comment.opening ++ note.inside ++ Comment.closing

/-- Plain text with comments in it. -/
structure Filler where
  /-- The text before the first comment. -/
  first : Plain
  /-- The comments, each with the text after it. -/
  rest : List (Note × Plain)

/-- The comments and the texts after them as they are written. -/
def renderNotes (notes : List (Note × Plain)) : List Char :=
  notes.flatMap fun part => part.1.render ++ part.2.chars

def Filler.render (filler : Filler) : List Char :=
  filler.first.chars ++ renderNotes filler.rest

/-! ### Blocks -/

/-- The quotes around an attribute value. -/
inductive Quote where
  | single
  | double
  deriving DecidableEq, Repr

def Quote.char : Quote → Char
  | single => '\''
  | double => '"'

theorem Quote.char_eq (quote : Quote) : quote.char = '"' ∨ quote.char = '\'' := by
  cases quote with
  | single => exact Or.inr rfl
  | double => exact Or.inl rfl

/-- What an opening tag says of its language. -/
inductive Attribute where
  /-- Nothing; the language is the default one. -/
  | none
  /-- The token of the language, between quotes of the given kind. -/
  | lang (quote : Quote) (token : List Char) (ne_nil : token ≠ []) (no_quote : quote.char ∉ token)
      (no_comment : ¬ Comment.opening <:+: token)

def Attribute.render : Attribute → List Char
  | none => []
  | lang quote token _ _ _ =>
    [' ', 'l', 'a', 'n', 'g', '='] ++ [quote.char] ++ token ++ [quote.char]

def Attribute.token : Attribute → String
  | none => Tag.defaultLanguage
  | lang _ token _ _ _ => String.ofList token

/-- A script block.  The body of a block whose language has no type is scanned like any other
text, so that no tag may stand in it. -/
structure Block (resolve : Resolver) where
  /-- What the opening tag says of the language. -/
  lang : Attribute
  body : List Char
  no_end : ¬ bodyEnd <:+: body
  no_comment : ¬ Comment.opening <:+: body
  no_tag : (resolve lang.token).type? = .none → ¬ Tag.opening <:+: body

section

variable {resolve : Resolver}

/-- The opening tag of the block. -/
def Block.head (block : Block resolve) : List Char :=
  Tag.opening ++ block.lang.render ++ ['>']

def Block.render (block : Block resolve) : List Char :=
  block.head ++ block.body ++ bodyEnd

/-- The script that the block stands for when `before` precedes it, if its language has a type. -/
def Block.script? (before : List Char) (block : Block resolve) : Option Script :=
  (resolve block.lang.token).type?.map fun found =>
    { sourceText := String.ofList block.body
      sourceType :=
        if 'x' ∈ block.lang.token.toList then found else { found with variant := .standard }
      start := Utf8.size (before ++ block.head) }

/-- The blocks and fillers as they are written. -/
def renderBlocks (blocks : List (Block resolve × Filler)) : List Char :=
  blocks.flatMap fun part => part.1.render ++ part.2.render

/-- The scripts that blocks stand for when `before` precedes them. -/
def scriptsAfter (before : List Char) : List (Block resolve × Filler) → List Script
  | [] => []
  | (block, filler) :: rest =>
    (block.script? before).toList ++ scriptsAfter (before ++ block.render ++ filler.render) rest

end

/-! ### Documents -/

/-- Blocks with fillers before, between and after them. -/
structure Document (resolve : Resolver) where
  first : Filler
  /-- The blocks, each with the filler after it. -/
  rest : List (Block resolve × Filler)

def Document.render {resolve : Resolver} (document : Document resolve) : List Char :=
  document.first.render ++ renderBlocks document.rest

/-- The scripts of the document: those of the blocks whose language has a type, in their order. -/
def Document.scripts {resolve : Resolver} (document : Document resolve) : List Script :=
  scriptsAfter document.first.render document.rest

end ScriptBlocks
