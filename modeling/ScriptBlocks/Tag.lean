import ScriptBlocks.Comment
import ScriptBlocks.Text.Blank

/-!
# Script tags

The parts of an opening tag `<script … >` and how they are found: the start of the next tag that
stands in no comment (`Tag.startFrom?`), whether the name of the tag ends after `<script`
(`Tag.nameEndsAt`), the angle that closes the tag (`Tag.closingAngle?`) and the language token
named inside it (`Tag.language`).

The scan of a document asks about positions inside it.  The forms that end in `Signed` take any
integer: a negative position counts from the end of the text.
-/

namespace ScriptBlocks.Tag

open Text

/-- What begins a script tag. -/
def opening : List Char := ['<', 's', 'c', 'r', 'i', 'p', 't']

/-- The token of a tag that names no language. -/
def defaultLanguage : String := "mjs"

/-! ### The start of a tag -/

/-- The first index at or after `pos` where `<script` stands in no comment. -/
def startFrom? (text : List Char) (pos : Nat) : Option Nat :=
  match _hi : find? opening text pos with
  | none => none
  | some i =>
    match _he : Comment.closingAround? text i with
    | none => some i
    | some e => startFrom? text (e + Comment.closing.length)
termination_by text.length - pos
decreasing_by
  have := le_of_find?_eq_some _hi
  have := Comment.bounds_of_closingAround? _he
  have : 0 < Comment.closing.length := by decide
  omega

/-- A tag starts at or after the index asked for and its `<script` ends inside the text. -/
theorem bounds_of_startFrom? {text : List Char} {pos i : Nat} (h : startFrom? text pos = some i) :
    pos ≤ i ∧ i + opening.length ≤ text.length := by
  fun_induction startFrom? text pos with
  | case1 => cases h
  | case2 pos j hj he =>
    cases h
    exact ⟨le_of_find?_eq_some hj, add_length_le_of_find?_eq_some (by decide) hj⟩
  | case3 pos j hj e he ih =>
    have hle := le_of_find?_eq_some hj
    have hlt := Comment.bounds_of_closingAround? he
    have := ih h
    omega

/-! ### The name of a tag -/

/-- Whether the name of a tag ends before this character. -/
def endsName (c : Char) : Bool := c = '>' || c = ' '

/-- Whether the name of a tag ends at index `pos`. -/
def nameEndsAt (text : List Char) (pos : Nat) : Bool := text[pos]?.any endsName

/-! ### The closing angle -/

/-- The index of the first `>` outside quotes, counting the head of the text as index `i`; `quote`
is the quote that is open.  A quoted part runs to the next quote of the same kind. -/
def closingAngleFrom? (quote : Option Char) (i : Nat) : List Char → Option Nat
  | [] => none
  | c :: s =>
    match quote with
    | some q => closingAngleFrom? (if c = q then none else some q) (i + 1) s
    | none =>
      if c = '>' then some i
      else closingAngleFrom? (if c = '"' ∨ c = '\'' then some c else none) (i + 1) s

/-- The index of the first `>` outside quotes at or after `pos`. -/
def closingAngle? (text : List Char) (pos : Nat) : Option Nat :=
  closingAngleFrom? none pos (text.drop pos)

theorem bounds_of_closingAngleFrom? {s : List Char} {quote : Option Char} {i j : Nat}
    (h : closingAngleFrom? quote i s = some j) : i ≤ j ∧ j < i + s.length := by
  induction s generalizing quote i with
  | nil => cases h
  | cons c s ih =>
    simp only [closingAngleFrom?] at h
    simp only [List.length_cons]
    split at h
    · have := ih h
      omega
    · split at h
      · cases h
        omega
      · have := ih h
        omega

/-- The closing angle lies at or after the index asked for and inside the text. -/
theorem bounds_of_closingAngle? {text : List Char} {pos j : Nat}
    (h : closingAngle? text pos = some j) : pos ≤ j ∧ j < text.length := by
  have hb := bounds_of_closingAngleFrom? h
  simp only [List.length_drop] at hb
  omega

/-! ### The language -/

/-- A token, or the default language for the empty one. -/
def tokenOrDefault (s : List Char) : String :=
  if s.isEmpty then defaultLanguage else String.ofList s

/-- The token at the start of an attribute value: up to the closing quote of a quoted value, else
up to the first blank or `>`.  A missing or unclosed value names the default language. -/
def valueToken (s : List Char) : String :=
  match s with
  | [] => defaultLanguage
  | c :: rest =>
    if c = '"' ∨ c = '\'' then
      if rest.contains c then tokenOrDefault (rest.takeWhile (· != c)) else defaultLanguage
    else tokenOrDefault (s.takeWhile fun c => !isBlank c && c != '>')

/-- The language token in the inside of a tag: the value of what follows the first `lang`, be it
an attribute of that name or the end of a longer one.  Anything else than `=` and a value after it
names the default language. -/
def language (inside : List Char) : String :=
  let inside := trim inside
  match find? ['l', 'a', 'n', 'g'] inside 0 with
  | none => defaultLanguage
  | some i =>
    match trimStart (inside.drop (i + 4)) with
    | '=' :: value => valueToken (trimStart value)
    | _ => defaultLanguage

/-! ### Any integer as a position -/

/-- The refusal of a position that lies before the start of a text. -/
structure BeforeStart where
  position : Int
  deriving DecidableEq, Repr

/-- The least position that fits in a machine word of 64 bits. -/
def leastPosition : Int := -0x8000000000000000

/-- The refusal in words; a position too low for a machine word is refused as such. -/
def BeforeStart.message (e : BeforeStart) : String :=
  if e.position < leastPosition then "cannot fit 'int' into an index-sized integer"
  else "string index out of range"

/-- Where a search from `pos` begins: a negative position counts from the end of the text, and one
before the start is the start. -/
def searchStart (text : List Char) (pos : Int) : Nat :=
  if pos < 0 then (text.length + pos).toNat else pos.toNat

/-- The first index from `pos` on where `<script` stands in no comment. -/
def startSigned? (text : List Char) (pos : Int) : Option Nat :=
  startFrom? text (searchStart text pos)

/-- The index at which a position lies. -/
def indexOf (text : List Char) (pos : Int) : Except BeforeStart Nat :=
  if 0 ≤ pos then .ok pos.toNat
  else if text.length + pos < 0 then .error ⟨pos⟩
  else .ok (text.length + pos).toNat

theorem lt_length_of_indexOf {text : List Char} {pos : Int} {n : Nat}
    (h : indexOf text pos = .ok n) (hn : n < text.length) : pos < text.length := by
  unfold indexOf at h
  split at h
  · cases h
    omega
  · omega

/-- Whether the name of a tag ends at `pos`. -/
def nameEndsAtSigned (text : List Char) (pos : Int) : Except BeforeStart Bool :=
  (indexOf text pos).map (nameEndsAt text)

/-- The first position from `pos` on with a `>` outside quotes; `quote` is the quote that is open.
Each position in turn is looked up on its own, so that from a negative one the search runs through
the end of the text and then through the whole of it. -/
def closingAngleFromSigned? (text : List Char) (quote : Option Char) (pos : Int) :
    Except BeforeStart (Option Int) :=
  match _hn : indexOf text pos with
  | .error e => .error e
  | .ok n =>
    match _hc : text[n]? with
    | none => .ok none
    | some c =>
      match quote with
      | some q => closingAngleFromSigned? text (if c = q then none else some q) (pos + 1)
      | none =>
        if c = '>' then .ok (some pos)
        else closingAngleFromSigned? text (if c = '"' ∨ c = '\'' then some c else none) (pos + 1)
termination_by (text.length - pos).toNat
decreasing_by
  all_goals
    have := lt_length_of_indexOf _hn (List.getElem?_eq_some_iff.1 _hc).1
    omega

/-- The first position from `pos` on with a `>` outside quotes. -/
def closingAngleSigned? (text : List Char) (pos : Int) : Except BeforeStart (Option Int) :=
  closingAngleFromSigned? text none pos

end ScriptBlocks.Tag
