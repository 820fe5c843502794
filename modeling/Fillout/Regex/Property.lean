import Fillout.Regex.CharSet
import Fillout.Unicode.Age
import Fillout.Unicode.BinaryProperty
import Fillout.Unicode.Segmentation

set_option autoImplicit false

/-! # Properties in expressions

What stands between the braces of `\p` names a set of characters: a property that a character has or
lacks, a general category, a script, or a property with one of its values, as in `script=Greek`. A
value may also be excluded, as in `script!=Greek`. Names are compared in a loose form.
-/

namespace Fillout

namespace Regex

/-- A name of a property without case, blanks, hyphens, underscores and a leading "is". -/
def looseName (name : Text) : Text :=
  let bare := if (name.take 2).map Char.toLower = ['i', 's'] then name.drop 2 else name
  let counts (c : Char) : Bool := c != ' ' && c != '_' && c != '-' && c.toNat < 0x80
  let norm := (bare.filter counts).map Char.toLower
  if bare.length < name.length ∧ norm = ['c'] then ['i', 's', 'c'] else norm

/-- The long names of the general categories and of their groups, in loose form, with the first
letters of the abbreviations they stand for. -/
def categoryNames : List (String × String) :=
  [ ("letter", "L"), ("mark", "M"), ("combiningmark", "M"), ("number", "N"), ("punctuation", "P"),
    ("punct", "P"), ("symbol", "S"), ("separator", "Z"), ("other", "C"),
    ("uppercaseletter", "Lu"), ("lowercaseletter", "Ll"), ("titlecaseletter", "Lt"),
    ("modifierletter", "Lm"), ("otherletter", "Lo"), ("nonspacingmark", "Mn"),
    ("spacingmark", "Mc"), ("enclosingmark", "Me"), ("decimalnumber", "Nd"), ("digit", "Nd"),
    ("letternumber", "Nl"), ("othernumber", "No"), ("connectorpunctuation", "Pc"),
    ("dashpunctuation", "Pd"), ("openpunctuation", "Ps"), ("closepunctuation", "Pe"),
    ("initialpunctuation", "Pi"), ("finalpunctuation", "Pf"), ("otherpunctuation", "Po"),
    ("mathsymbol", "Sm"), ("currencysymbol", "Sc"), ("modifiersymbol", "Sk"),
    ("othersymbol", "So"), ("spaceseparator", "Zs"), ("lineseparator", "Zl"),
    ("paragraphseparator", "Zp"), ("control", "Cc"), ("cntrl", "Cc"), ("format", "Cf"),
    ("privateuse", "Co"), ("unassigned", "Cn") ]

/-- The categories whose abbreviation starts with the given letters. -/
def categoriesOf (letters : Text) : CharSet :=
  Unicode.Category.codeSet fun k => letters.isPrefixOf k.abbreviation

/-- The general category, or group of categories, of a loose name. -/
def categorySet? (name : Text) : Option CharSet :=
  if name = "any".toList then some .all
  else if name = "assigned".toList then some (categoriesOf ['C', 'n']).compl
  else if name = "ascii".toList then some .ascii
  else if name = "lc".toList ∨ name = "casedletter".toList then
    some (Unicode.Category.setOf [.uppercaseLetter, .lowercaseLetter, .titlecaseLetter])
  else
    match categoryNames.find? (·.1.toList = name) with
    | some (_, letters) => some (categoriesOf letters.toList)
    | none =>
        let letters := name.zipIdx.map fun (c, i) => if i = 0 then c.toUpper else c
        if letters ≠ ['C', 's'] ∧ letters.length ≤ 2 ∧ letters ≠ [] ∧
            Unicode.Category.all.any (letters.isPrefixOf ·.abbreviation) then
          some (categoriesOf letters)
        else none

/-- The script of a loose name. -/
def scriptSet? (name : Text) : Option CharSet :=
  (Unicode.Script.code? name).map Unicode.Script.codeSet

/-- The characters with a property that goes by one name: a binary property, a general category or a
script. -/
def namedSet? (name : Text) : Option CharSet :=
  (Unicode.binaryProperty? name).or ((categorySet? name).or (scriptSet? name))

/-- The characters for which a property has a value. -/
def valuedSet? (property value : Text) : Option CharSet :=
  let isNamed (names : List String) : Bool := names.any (·.toList = property)
  if isNamed ["gc", "generalcategory"] then categorySet? value
  else if isNamed ["sc", "script"] then scriptSet? value
  else if isNamed ["scx", "scriptextensions"] then
    (Unicode.Script.code? value).map Unicode.Script.extendedSet
  else if isNamed ["age"] then (Unicode.Age.version? value).map Unicode.Age.codeSet
  else if isNamed ["gcb", "graphemeclusterbreak"] then Unicode.Segmentation.graphemeBreak? value
  else if isNamed ["wb", "wordbreak"] then Unicode.Segmentation.wordBreak? value
  else if isNamed ["sb", "sentencebreak"] then Unicode.Segmentation.sentenceBreak? value
  else none

/-- The characters that the text between braces stands for, and whether it is the others that are
meant. -/
def propertySet? (content : Text) : Option (Bool × CharSet) :=
  let valued (parts : Text × Text) (differs : Bool) : Option (Bool × CharSet) :=
    (valuedSet? (looseName parts.1) (looseName parts.2)).map fun s => (differs, CharSet.tidy s)
  if content.length = 1 then (namedSet? (looseName content)).map fun s => (false, CharSet.tidy s)
  else
    match Text.cut? ['!', '='] content with
    | some parts => valued parts true
    | none =>
        match (Text.cut? [':'] content).or (Text.cut? ['='] content) with
        | some parts => valued parts false
        | none => (namedSet? (looseName content)).map fun s => (false, CharSet.tidy s)

end Regex

end Fillout
