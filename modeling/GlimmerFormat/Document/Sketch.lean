import GlimmerFormat.Document.Paragraph

/-!
# Sketches of documents

A sketch is an expression over documents.  It calls builders, or it spells a document out, so
that nothing is spliced, dropped or left out.
-/

namespace GlimmerFormat

/-- An expression over documents. -/
inductive Sketch where
  | empty
  | str (s : String)
  | newline (flat : String)
  | hardline
  /-- A concatenation that is built. -/
  | concat (parts : List Sketch)
  | group (part : Sketch)
  | indent (part : Sketch)
  | align (amount : Int) (part : Sketch)
  | join (separator : Sketch) (parts : List Sketch)
  | fill (parts : List Sketch)
  | ifBreak (broken flat : Sketch)
  | paragraph (text : String)
  /-- A text that is spelt out, even if it is empty. -/
  | spelledText (s : String)
  | spelledConcat (parts : List Sketch)
  | spelledGroup (part : Sketch)
  | spelledIndent (part : Sketch)
  | spelledAlign (amount : Int) (part : Sketch)
  | spelledFill (parts : List Sketch)
  | spelledIfBreak (broken flat : Sketch)
deriving Inhabited

namespace Sketch

mutual

/-- What a sketch stands for. -/
def build : Sketch → Part
  | .empty => .doc .empty
  | .str s => .str s
  | .newline flat => .doc (.newline flat)
  | .hardline => .doc .hardline
  | .concat parts => .doc (.ofList ((buildAll parts).map Part.document))
  | .group part => .doc part.build.document.grouped
  | .indent part => .doc part.build.document.indented
  | .align amount part => .doc (part.build.document.aligned amount)
  | .join separator parts =>
    .doc (.joined separator.build.document ((buildAll parts).map Part.document))
  | .fill parts => .doc (.fill ((buildAll parts).map Part.document))
  | .ifBreak broken flat => .doc (.ifBreak broken.build.document flat.build.document)
  | .paragraph text => .doc (.paragraph text)
  | .spelledText s => .doc (.text s)
  | .spelledConcat parts => .doc (.concat ((buildAll parts).map Part.verbatim))
  | .spelledGroup part => .doc (.group part.build.verbatim)
  | .spelledIndent part => .doc (.indent part.build.verbatim)
  | .spelledAlign amount part => .doc (.align amount part.build.verbatim)
  | .spelledFill parts => .doc (.fill ((buildAll parts).map Part.verbatim))
  | .spelledIfBreak broken flat => .doc (.ifBreak broken.build.verbatim flat.build.verbatim)

/-- What several sketches stand for, in order. -/
def buildAll : List Sketch → List Part
  | [] => []
  | e :: es => e.build :: buildAll es

end

/-- The document of a whole sketch; a string by itself is a text. -/
def document (e : Sketch) : Document :=
  e.build.verbatim

end Sketch

end GlimmerFormat
