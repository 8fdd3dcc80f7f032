import Worksheet.Yaml.Complaint

/-!
The tokens of a document. Block collections are told from their indentation, so that their starts
and ends are tokens without characters of their own.
-/
namespace Worksheet.Yaml

inductive TokenKind where
  /-- The version that a document is written for; only its first part counts. -/
  | version (major : Nat)
  /-- What a handle in front of a tag stands for. -/
  | handle (name stem : String)
  /-- Any other directive. -/
  | directive
  | documentStart
  | documentEnd
  | textEnd
  | sequenceStart
  | mappingStart
  | blockEnd
  | flowSequenceStart
  | flowSequenceEnd
  | flowMappingStart
  | flowMappingEnd
  | key
  | value
  | entry
  | separator
  | anchor (name : String)
  /-- The node of an anchor once more. -/
  | reference (name : String)
  | tag (handle : Option String) (suffix : String)
  | scalar (text : String) (plain : Bool)
  deriving DecidableEq

/-- The name of a token in complaints. -/
def TokenKind.name : TokenKind → String
  | .version _ | .handle .. | .directive => "<directive>"
  | .documentStart => "<document start>"
  | .documentEnd => "<document end>"
  | .textEnd => "<stream end>"
  | .sequenceStart => "<block sequence start>"
  | .mappingStart => "<block mapping start>"
  | .blockEnd => "<block end>"
  | .flowSequenceStart => "["
  | .flowSequenceEnd => "]"
  | .flowMappingStart => "\x7b"
  | .flowMappingEnd => "\x7d"
  | .key => "?"
  | .value => ":"
  | .entry => "-"
  | .separator => ","
  | .anchor _ => "<anchor>"
  | .reference _ => "<alias>"
  | .tag .. => "<tag>"
  | .scalar .. => "<scalar>"

structure Token where
  kind : TokenKind
  start : Mark
  stop : Mark

end Worksheet.Yaml
