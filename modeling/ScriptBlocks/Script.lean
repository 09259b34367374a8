import ScriptBlocks.Json
import ScriptBlocks.SourceType
import ScriptBlocks.Text.Utf8

/-!
# Scripts

A script is the body of a block, cut out of a document: its text, its type, and the range of bytes
that it takes in the document.
-/

namespace ScriptBlocks

/-- A script cut out of a document. -/
structure Script where
  sourceText : String
  sourceType : SourceType
  /-- The byte of the document at which the script starts. -/
  start : Int
  /-- Whether the script is a part of a document, as one that was cut out of it is. -/
  isPartial : Bool := true
  deriving DecidableEq, Repr

/-- The byte of the document just past the script. -/
def Script.stop (s : Script) : Int := s.start + Utf8.size s.sourceText.toList

/-! ### In JSON -/

def SourceType.toJson (t : SourceType) : Json :=
  .object [("language", .text t.language.name), ("module_kind", .text t.moduleKind.name),
    ("variant", .text t.variant.name)]

def Script.toJson (s : Script) : Json :=
  .object [("source_text", .text s.sourceText), ("source_type", s.sourceType.toJson),
    ("start", .integer s.start), ("end", .integer s.stop)]

end ScriptBlocks
