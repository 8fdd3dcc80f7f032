import Worksheet.Text.Lower

/-!
Words with a capital in front and small letters behind it. In front most letters have their upper
case; digraphs have a form of their own, and some letters stay as they are.
-/
namespace Worksheet.Text

/-- The runs whose form in front of a word is not their upper case. -/
def titleRuns : List CaseRun :=
  [ ⟨452, 452, 1, 1⟩, ⟨453, 453, 1, 0⟩, ⟨454, 454, 1, -1⟩, ⟨455, 455, 1, 1⟩, ⟨456, 456, 1, 0⟩,
    ⟨457, 457, 1, -1⟩, ⟨458, 458, 1, 1⟩, ⟨459, 459, 1, 0⟩, ⟨460, 460, 1, -1⟩, ⟨497, 497, 1, 1⟩,
    ⟨498, 498, 1, 0⟩, ⟨499, 499, 1, -1⟩, ⟨4304, 4346, 1, 0⟩, ⟨4349, 4351, 1, 0⟩, ⟨8064, 8071, 1, 8⟩,
    ⟨8072, 8079, 1, 0⟩, ⟨8080, 8087, 1, 8⟩, ⟨8088, 8095, 1, 0⟩, ⟨8096, 8103, 1, 8⟩,
    ⟨8104, 8111, 1, 0⟩, ⟨8115, 8115, 1, 9⟩, ⟨8124, 8124, 1, 0⟩, ⟨8131, 8131, 1, 9⟩,
    ⟨8140, 8140, 1, 0⟩, ⟨8179, 8179, 1, 9⟩, ⟨8188, 8188, 1, 0⟩ ]

/-- Letters whose form in front of a word is longer than one character and not their upper case. -/
def titleExpansions : List (Nat × List Nat) :=
  [ (223, [83, 115]), (1415, [1333, 1410]), (8114, [8122, 837]), (8116, [902, 837]),
    (8119, [913, 834, 837]), (8130, [8138, 837]), (8132, [905, 837]), (8135, [919, 834, 837]),
    (8178, [8186, 837]), (8180, [911, 837]), (8183, [937, 834, 837]), (64256, [70, 102]),
    (64257, [70, 105]), (64258, [70, 108]), (64259, [70, 102, 105]), (64260, [70, 102, 108]),
    (64261, [83, 116]), (64262, [83, 116]), (64275, [1348, 1398]), (64276, [1348, 1381]),
    (64277, [1348, 1387]), (64278, [1358, 1398]), (64279, [1348, 1389]) ]

/-- A character in front of a word. -/
def titleChar (c : Char) : List Char :=
  match titleRuns.findSome? (·.counterpart? c.toNat) with
  | some n => [Char.ofNat n]
  | none => match titleExpansions.lookup c.toNat with
    | some ns => ns.map Char.ofNat
    | none => upperChar c

/-- The rest of a text, each word with a capital; what stands before it is reversed. -/
def titledFrom (before : List Char) : List Char → List Char
  | [] => []
  | c :: rest =>
    (if before.head?.any isCased then lowerBetween before c rest else titleChar c) ++
      titledFrom (c :: before) rest

def titled (cs : List Char) : List Char := titledFrom [] cs

end Worksheet.Text
