import ScriptBlocks.Text.Quoted

/-!
# Source types

A source type says in which dialect a script is written: its language, whether it is a module or a
plain script, and whether markup may stand in its expressions.  `SourceType.ofToken?` knows the
dialects that documents name by short tokens such as `ts`; a `Resolver` is any such mapping from
tokens to types.
-/

namespace ScriptBlocks

/-- The language of a script. -/
inductive Language where
  | javascript
  | typescript
  /-- Declarations of types only. -/
  | typescriptDefinition
  /-- A language that only a resolver knows, by its name. -/
  | other (name : String)
  deriving DecidableEq, Repr

/-- How a script takes part in a program. -/
inductive ModuleKind where
  | module
  | script
  /-- A kind that only a resolver knows, by its name. -/
  | other (name : String)
  deriving DecidableEq, Repr

/-- Which variant of its language a script is written in. -/
inductive Variant where
  | standard
  /-- With markup in expressions. -/
  | jsx
  /-- A variant that only a resolver knows, by its name. -/
  | other (name : String)
  deriving DecidableEq, Repr

namespace Language

def name : Language → String
  | javascript => "javascript"
  | typescript => "typescript"
  | typescriptDefinition => "typescript_definition"
  | other name => name

def ofName (s : String) : Language :=
  if s = "javascript" then javascript
  else if s = "typescript" then typescript
  else if s = "typescript_definition" then typescriptDefinition
  else other s

theorem name_ofName (s : String) : (ofName s).name = s := by
  simp only [ofName]
  repeat' split
  all_goals simp_all [name]

end Language

namespace ModuleKind

def name : ModuleKind → String
  | module => "module"
  | script => "script"
  | other name => name

def ofName (s : String) : ModuleKind :=
  if s = "module" then module else if s = "script" then script else other s

theorem name_ofName (s : String) : (ofName s).name = s := by
  simp only [ofName]
  repeat' split
  all_goals simp_all [name]

end ModuleKind

namespace Variant

def name : Variant → String
  | standard => "standard"
  | jsx => "jsx"
  | other name => name

def ofName (s : String) : Variant :=
  if s = "standard" then standard else if s = "jsx" then jsx else other s

theorem name_ofName (s : String) : (ofName s).name = s := by
  simp only [ofName]
  repeat' split
  all_goals simp_all [name]

end Variant

/-- The dialect of a script; a plain module in the standard variant unless told otherwise. -/
structure SourceType where
  language : Language := .javascript
  moduleKind : ModuleKind := .module
  variant : Variant := .standard
  deriving DecidableEq, Repr

namespace SourceType

/-! ### The common dialects -/

/-- A module. -/
def mjs : SourceType := {}

/-- A plain script. -/
def cjs : SourceType := { moduleKind := .script }

/-- A module with markup. -/
def jsx : SourceType := { variant := .jsx }

/-- A typed module. -/
def ts : SourceType := { language := .typescript }

/-- A typed module with markup. -/
def tsx : SourceType := { language := .typescript, variant := .jsx }

/-- A typed module that is marked as one. -/
def mts : SourceType := ts

/-- A typed plain script. -/
def cts : SourceType := { language := .typescript, moduleKind := .script }

/-- Type declarations of a module. -/
def dts : SourceType := { language := .typescriptDefinition }

/-! ### What a type is -/

/-- Whether the language is untyped. -/
def isJavascript (t : SourceType) : Bool := t.language = .javascript

/-- Whether the language is typed, declarations included. -/
def isTypescript (t : SourceType) : Bool :=
  t.language = .typescript || t.language = .typescriptDefinition

/-- Whether the script holds declarations of types only. -/
def isTypescriptDefinition (t : SourceType) : Bool := t.language = .typescriptDefinition

/-- Whether markup may stand in expressions. -/
def isJsx (t : SourceType) : Bool := t.variant = .jsx

def isModule (t : SourceType) : Bool := t.moduleKind = .module

def isScript (t : SourceType) : Bool := t.moduleKind = .script

/-- The type in the standard variant, if `yes`. -/
def withStandard (t : SourceType) (yes : Bool) : SourceType :=
  if yes then { t with variant := .standard } else t

/-- The type in the variant with markup, if `yes`. -/
def withJsx (t : SourceType) (yes : Bool) : SourceType :=
  if yes then { t with variant := .jsx } else t

/-- The type in short: the language, a mark for markup, the module kind. -/
def label (t : SourceType) : String :=
  t.language.name ++ (if t.isJsx then "+jsx" else "") ++ "/" ++ t.moduleKind.name

/-! ### Tokens -/

/-- The known tokens and their types, in the order in which they are listed.  A token of the
untyped language stands for the variant with markup, since such files commonly hold some. -/
def registry : List (String × SourceType) :=
  [("js", jsx), ("mjs", jsx), ("cjs", { cjs with variant := .jsx }), ("jsx", jsx),
   ("ts", ts), ("mts", mts), ("cts", cts), ("tsx", tsx),
   ("d.ts", dts), ("d.mts", dts), ("d.cts", { dts with moduleKind := .script })]

def knownTokens : List String := registry.map (·.1)

/-- The type that a token stands for, if the token is known. -/
def ofToken? (token : String) : Option SourceType := registry.lookup token

end SourceType

/-- The refusal of a token that names no known dialect. -/
structure UnknownToken where
  token : String
  deriving DecidableEq, Repr

def UnknownToken.message (e : UnknownToken) : String :=
  "Unknown script language: " ++ Text.quoted e.token

/-- The type that a token stands for, or its refusal. -/
def SourceType.ofToken (token : String) : Except UnknownToken SourceType :=
  match ofToken? token with
  | some t => .ok t
  | none => .error ⟨token⟩

/-- What a resolver answers for a token. -/
inductive Resolution where
  | found (type : SourceType)
  /-- The token is known and stands for no type. -/
  | withheld
  | unknown (refusal : UnknownToken)
  deriving DecidableEq, Repr

/-- The type that was found, if any. -/
def Resolution.type? : Resolution → Option SourceType
  | found type => some type
  | withheld => none
  | unknown _ => none

/-- A mapping from tokens to source types. -/
abbrev Resolver := String → Resolution

/-- The resolver of the known tokens. -/
def Resolver.known : Resolver := fun token =>
  match SourceType.ofToken token with
  | .ok t => .found t
  | .error e => .unknown e

end ScriptBlocks
