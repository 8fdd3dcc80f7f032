import Worksheet.Date.Reading
import Worksheet.Display.Figure
import Worksheet.Text.Letter
import Worksheet.Text.Split
import Worksheet.Text.Title

/-!
The regions that the program brings with it. A locale is named by a language and a territory, with
an underscore between them and in any case; a script, a variant, a character set and a modifier may
be named too. A name that is not known as it stands is read with other names of its parts and with
the script and the territory that its language usually goes with.
-/
namespace Worksheet.Display

open Text

/-- A part of a short date: numbers padded to a width, the year without its century, or a mark. -/
inductive DatePart where
  | day (width : Nat)
  | month (width : Nat)
  | year
  | shortYear
  | mark (text : String)

def DatePart.render (d : Date) : DatePart → List Char
  | .day width => padded width d.day
  | .month width => padded width d.month
  | .year => natDigits d.year
  | .shortYear => padded 2 (d.year % 100)
  | .mark text => text.toList

namespace Locale

def dateFrom (parts : List DatePart) (d : Date) : String :=
  String.ofList (parts.flatMap (DatePart.render d))

/-- The symbols of some currencies; all others are written by their code. -/
def symbolAmong (symbols : List (String × String)) (code : String) : String :=
  (symbols.lookup code).getD code

def turkish : Locale where
  decimalMark := ","
  groupMark := "."
  percent := .around "%" ""
  money := .around "¤" ""
  shortDate := dateFrom [.day 1, .mark ".", .month 2, .mark ".", .year]
  symbol := symbolAmong [("TRY", "₺"), ("USD", "$"), ("EUR", "€"), ("JPY", "¥"), ("GBP", "£")]

def american : Locale where
  decimalMark := "."
  groupMark := ","
  percent := .around "" "%"
  money := .around "¤" ""
  shortDate := dateFrom [.month 1, .mark "/", .day 1, .mark "/", .shortYear]
  symbol := symbolAmong [("USD", "$"), ("EUR", "€"), ("JPY", "¥"), ("GBP", "£")]

def german : Locale where
  decimalMark := ","
  groupMark := "."
  percent := .around "" "\u00a0%"
  money := .around "" "\u00a0¤"
  shortDate := dateFrom [.day 2, .mark ".", .month 2, .mark ".", .shortYear]
  symbol := symbolAmong [("USD", "$"), ("EUR", "€"), ("JPY", "¥"), ("GBP", "£")]

def french : Locale where
  decimalMark := ","
  groupMark := "\u202f"
  percent := .around "" "\u00a0%"
  money := .around "" "\u00a0¤"
  shortDate := dateFrom [.day 2, .mark "/", .month 2, .mark "/", .year]
  symbol := symbolAmong [("USD", "$US"), ("EUR", "€"), ("GBP", "£GB")]

def indian : Locale where
  decimalMark := "."
  groupMark := ","
  grouping := ⟨3, 2⟩
  percent := .around "" "%"
  money := .around "¤" ""
  shortDate := dateFrom [.day 2, .mark "/", .month 2, .mark "/", .shortYear]
  symbol := symbolAmong [("USD", "$"), ("EUR", "€"), ("JPY", "JP¥"), ("GBP", "£")]

def japanese : Locale where
  decimalMark := "."
  groupMark := ","
  percent := .around "" "%"
  money := .around "¤" ""
  shortDate := dateFrom [.year, .mark "/", .month 2, .mark "/", .day 2]
  symbol := symbolAmong [("USD", "$"), ("EUR", "€"), ("JPY", "\uffe5"), ("GBP", "£")]

/-- The minus of an amount stands behind its currency. -/
def swiss : Locale where
  decimalMark := "."
  groupMark := "’"
  percent := .around "" "%"
  money := ⟨⟨"¤\u00a0", ""⟩, ⟨"¤-", ""⟩⟩
  shortDate := dateFrom [.day 2, .mark ".", .month 2, .mark ".", .shortYear]
  symbol := symbolAmong [("USD", "$"), ("JPY", "¥"), ("GBP", "£")]

/-- Groups so long that no number has two of them. -/
def ungrouped : Grouping := ⟨1000, 1000⟩

/-- For machines rather than people: no groups and more places. -/
def portable : Locale where
  decimalMark := "."
  groupMark := ","
  grouping := ungrouped
  places := 6
  percent := .around "" "%"
  money := .around "¤\u00a0" ""
  shortDate := american.shortDate
  symbol := american.symbol

/-- The regions by language and territory, and the home region of a language alone. -/
def known : List (String × Locale) :=
  [ ("tr_TR", turkish), ("en_US", american), ("de_DE", german), ("fr_FR", french),
    ("en_IN", indian), ("ja_JP", japanese), ("de_CH", swiss), ("en_US_POSIX", portable),
    ("tr", turkish), ("en", american), ("de", german), ("fr", french), ("ja", japanese) ]

end Locale

/-- The parts of a locale's name. -/
structure LocaleName where
  language : String
  script : Option String := none
  territory : Option String := none
  variant : Option String := none
  modifier : Option String := none

namespace LocaleName

/-- Four letters in front are a script. -/
def takeScript : List (List Char) → Option (List Char) × List (List Char)
  | part :: rest =>
    if part.length == 4 && part.all isLetter then (some (titled part), rest)
    else (none, part :: rest)
  | [] => (none, [])

/-- Two letters or three digits in front are a territory. -/
def takeTerritory : List (List Char) → Option (List Char) × List (List Char)
  | part :: rest =>
    if part.length == 2 && part.all isLetter then (some (upper part), rest)
    else if part.length == 3 && part.all isDigit then (some part, rest)
    else (none, part :: rest)
  | [] => (none, [])

/-- Whether a part may be a variant. -/
def isVariant (part : List Char) : Bool :=
  (part.length == 4 && part.head?.any isDigit) || (5 ≤ part.length && part.head?.any isLetter)

/-- Read a name: the parts must come in their order and none may be left over. -/
def read (s : String) : Except Fault LocaleName :=
  let body := s.toList.takeWhile (· != '@')
  let modifier := s.toList.drop (body.length + 1)
  let named := body.takeWhile (· != '.')
  let language := lower ((splitAt '_' named).headD [])
  if language.isEmpty || !language.all isLetter then
    .error (.localeLetters (String.ofList language))
  else
    let (script, parts) := takeScript (splitAt '_' named).tail
    let (territory, parts) := takeTerritory parts
    let name (variant : Option (List Char)) : LocaleName :=
      ⟨String.ofList language, script.map String.ofList, territory.map String.ofList,
        variant.map String.ofList, if modifier.isEmpty then none else some (String.ofList modifier)⟩
    match parts with
    | [] => .ok (name none)
    | [part] =>
      if isVariant part then .ok (name (some (upper part)))
      else .error (.localeShape (String.ofList named))
    | _ => .error (.localeShape (String.ofList named))

/-- The name without its modifier in its usual spelling. -/
def key (n : LocaleName) : String :=
  "_".intercalate (n.language :: n.script.toList ++ n.territory.toList ++ n.variant.toList)

/-- The whole name in its usual spelling. -/
def text (n : LocaleName) : String :=
  n.key ++
    match n.modifier with
    | none => ""
    | some m => "@" ++ m

/-- Longer codes of the languages known here. -/
def languageAliases : List (String × String) :=
  [ ("tur", "tr"), ("eng", "en"), ("deu", "de"), ("ger", "de"), ("fra", "fr"), ("fre", "fr"),
    ("jpn", "ja") ]

/-- Numbers and former codes of the territories known here. -/
def territoryAliases : List (String × String) :=
  [ ("792", "TR"), ("840", "US"), ("276", "DE"), ("278", "DE"), ("280", "DE"), ("DD", "DE"),
    ("250", "FR"), ("249", "FR"), ("FX", "FR"), ("356", "IN"), ("392", "JP"), ("756", "CH") ]

def renamed (aliases : List (String × String)) (s : String) : String := (aliases.lookup s).getD s

/-- The name with the usual codes for its parts; the code of an unknown territory or script says
nothing. -/
def canonical (n : LocaleName) : LocaleName :=
  { n with
    language := renamed languageAliases n.language
    territory := (n.territory.map (renamed territoryAliases)).filter (· != "ZZ")
    script := n.script.filter (· != "Zzzz") }

/-- The full names that short ones most likely stand for. -/
def likely : List (String × LocaleName) :=
  [ ("tr", ⟨"tr", "Latn", "TR", none, none⟩), ("en", ⟨"en", "Latn", "US", none, none⟩),
    ("de", ⟨"de", "Latn", "DE", none, none⟩), ("fr", ⟨"fr", "Latn", "FR", none, none⟩),
    ("ja", ⟨"ja", "Jpan", "JP", none, none⟩), ("und", ⟨"en", "Latn", "US", none, none⟩),
    ("und_TR", ⟨"tr", "Latn", "TR", none, none⟩), ("und_DE", ⟨"de", "Latn", "DE", none, none⟩),
    ("und_CH", ⟨"de", "Latn", "CH", none, none⟩), ("und_FR", ⟨"fr", "Latn", "FR", none, none⟩),
    ("und_JP", ⟨"ja", "Jpan", "JP", none, none⟩), ("und_Jpan", ⟨"ja", "Jpan", "JP", none, none⟩) ]

/-- The name without script, variant and modifier. -/
def region (n : LocaleName) : LocaleName := { language := n.language, territory := n.territory }

/-- The names to look for, one after the other: the name itself, what it most likely stands for, and
what its language most likely stands for in its own territory. -/
def candidates (n : LocaleName) : List LocaleName :=
  let c := n.canonical
  let whole := (likely.lookup c.key).toList
  let ofLanguage := ((likely.lookup c.language).map fun l =>
    { l with territory := c.territory }).toList
  n :: (whole ++ ofLanguage).flatMap fun m => [m, m.region]

end LocaleName

namespace Locale

/-- The locale of a name, if it is known. -/
def find (s : String) : Except Fault Locale := do
  let name ← LocaleName.read s
  match name.candidates.findSome? fun n => known.lookup n.key with
  | some l => return l
  | none => throw (.unknownLocale name.text)

/-- The locale that a host sets, or the portable one; only texts name a locale. -/
def ofValue (v : Value) : Except Fault Locale :=
  if !v.isGiven then .ok portable
  else match v with
    | .text s => find s
    | v => do
      let shown ← v.literal
      throw (.localeType shown)

end Locale

/-- The currencies whose amounts are whole. -/
def wholeCurrencies : List String :=
  ["ADP", "AFN", "ALL", "BIF", "BYR", "CLP", "DJF", "ESP", "GNF", "IQD", "IRR", "ISK", "ITL",
    "JPY", "KMF", "KPW", "KRW", "LAK", "LBP", "LUF", "MGA", "MGF", "MMK", "MRO", "PYG", "RSD",
    "RWF", "SLL", "SOS", "STD", "SYP", "TMM", "TRL", "UGX", "UYI", "VND", "VUV", "XAF", "XOF",
    "XPF", "YER", "ZMK", "ZWD"]

/-- The places of an amount in a currency. -/
def currencyPlaces (code : String) : Nat :=
  if wholeCurrencies.contains code then 0
  else if ["BHD", "JOD", "KWD", "LYD", "OMR", "TND"].contains code then 3
  else if ["CLF", "UYW"].contains code then 4
  else 2

/-- The day that a text speaks of. -/
def readDay (today : Date) (s : String) : Except DayFault Date :=
  match Date.read today s with
  | .ok (some d) => .ok d
  | .ok none => .error .value
  | .error f => .error (.other f)

/-- What the program shows values with, unless a host brings more. -/
def regional : Library where
  locale := Locale.ofValue
  places := currencyPlaces
  day := readDay

end Worksheet.Display
