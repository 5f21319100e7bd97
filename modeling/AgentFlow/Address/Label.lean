import AgentFlow.Address.Letters
import AgentFlow.Address.Punycode
import AgentFlow.Text.Case

/-!
# Labels of hosts

A host is a row of labels between dots. A label has only letters of hosts (`isHostLetter`), it is
written as shortly as it can be, hyphens do not stand at its ends or at its third and fourth place,
and it does not mix directions of writing. Some characters may stand in a label only next to others.

* `isLabel`: whether characters are a label.
* `asciiHost?`: a host with letters beyond ASCII, written in ASCII.
* `isReadable`: whether the labels of a host in ASCII spell labels.
-/

namespace AgentFlow.Address

/-! ## Directions -/

/-- The direction of a character of a label. -/
inductive Direction where
  | leftToRight
  | rightToLeft
  | latinNumber
  | arabicNumber
  | mark
  | neutral
  deriving DecidableEq

/-- Whether a character is one of the Arabic digits. -/
def isArabicDigit (c : Char) : Bool := 0x660 ≤ c.toNat && c.toNat ≤ 0x669

/-- Whether a character is one of the Arabic digits of the east. -/
def isEasternDigit (c : Char) : Bool := 0x6F0 ≤ c.toNat && c.toNat ≤ 0x6F9

/-- Whether a character is one of the two joiners. -/
def isJoiner (c : Char) : Bool := c == '\u200C' || c == '\u200D'

/-- Whether a character is one of the two strokes of Hebrew. -/
def isHebrewStroke (c : Char) : Bool := c == '\u05F3' || c == '\u05F4'

/-- The direction of a character. -/
def direction (c : Char) : Direction :=
  let n := c.toNat
  if c.isDigit || isEasternDigit c then .latinNumber
  else if isArabicDigit c || (0x10D30 ≤ n && n ≤ 0x10D39) then .arabicNumber
  else if isMark c then .mark
  else if isRightToLeft c || isHebrewStroke c then .rightToLeft
  else if isNeutral c || isJoiner c || c == '\u00B7' || c == '\u0375' || c == '\u30FB' then .neutral
  else .leftToRight

/-- Whether the directions of a label go together. A label with a letter from right to left begins
with one, has none from left to right, ends in a letter or a number, and has numbers of one kind. -/
def isDirected (cs : List Char) : Bool :=
  let ds := cs.map direction
  if ds.contains .rightToLeft || ds.contains .arabicNumber then
    ds.head? == some .rightToLeft && !ds.contains .leftToRight
      && !(ds.contains .latinNumber && ds.contains .arabicNumber)
      && (ds.reverse.find? (· != .mark)) != some .neutral
  else true

/-! ## Letters next to others -/

/-- Whether a letter is Greek. -/
def isGreek (c : Char) : Bool :=
  inRanges [(0x370, 0x3E1), (0x3F0, 0x3FF), (0x1D26, 0x1D2A), (0x1F00, 0x1FFF), (0xAB65, 0xAB65)]
    c.toNat

/-- Whether a letter is Hebrew. -/
def isHebrew (c : Char) : Bool := inRanges [(0x591, 0x5F4), (0xFB1D, 0xFB4F)] c.toNat

/-- Whether a letter is one that Japanese is written in. -/
def isJapanese (c : Char) : Bool :=
  inRanges
    [(0x3005, 0x3007), (0x303C, 0x303C), (0x3041, 0x3096), (0x309D, 0x309E), (0x30A1, 0x30FA),
      (0x30FD, 0x30FE), (0x31F0, 0x31FF), (0x3400, 0x4DBF), (0x4E00, 0x9FFF), (0xFA0E, 0xFA29),
      (0x16FF0, 0x16FF1), (0x1AFF0, 0x1B167), (0x20000, 0x3134A)] c.toNat

/-- Whether an Arabic letter is joined with the one behind it. -/
def joinsNext (c : Char) : Bool :=
  inRanges
    [(0x620, 0x620), (0x626, 0x626), (0x628, 0x628), (0x62A, 0x62E), (0x633, 0x63F),
      (0x641, 0x647), (0x649, 0x64A), (0x66E, 0x66F), (0x678, 0x687), (0x69A, 0x6BF),
      (0x6C1, 0x6C2), (0x6CC, 0x6CC), (0x6CE, 0x6CE), (0x6D0, 0x6D1), (0x6FA, 0x6FC),
      (0x6FF, 0x6FF)] c.toNat

/-- Whether an Arabic letter is joined with the one in front of it. -/
def joinsPrevious (c : Char) : Bool :=
  joinsNext c
    || inRanges
      [(0x622, 0x625), (0x627, 0x627), (0x629, 0x629), (0x62F, 0x632), (0x648, 0x648),
        (0x671, 0x673), (0x675, 0x677), (0x688, 0x699), (0x6C0, 0x6C0), (0x6C3, 0x6CB),
        (0x6CD, 0x6CD), (0x6CF, 0x6CF), (0x6D2, 0x6D3), (0x6D5, 0x6D5), (0x6EE, 0x6EF)] c.toNat

/-- Whether the first of some characters that is no mark satisfies `p`. -/
def firstLetter (p : Char → Bool) (cs : List Char) : Bool :=
  ((cs.find? fun c => !isMark c).map p).getD false

/-- Whether a character may stand between others: `before` has those in front of it, the nearest
first, and `after` those behind. -/
def isAllowed (before : List Char) (c : Char) (after : List Char) : Bool :=
  let others := before.reverse ++ after
  if isHostLetter c then true
  else if isJoiner c then
    before.head?.any isVirama
      || (c == '\u200C' && firstLetter joinsNext before && firstLetter joinsPrevious after)
  else if c == '\u00B7' then before.head? == some 'l' && after.head? == some 'l'
  else if c == '\u0375' then after.head?.any isGreek
  else if isHebrewStroke c then before.head?.any isHebrew
  else if c == '\u30FB' then others.any isJapanese
  else if isArabicDigit c then !others.any isEasternDigit
  else if isEasternDigit c then !others.any isArabicDigit
  else false

/-- Whether all characters may stand where they do. -/
def areAllowed (before : List Char) : List Char → Bool
  | [] => true
  | c :: after => isAllowed before c after && areAllowed (c :: before) after

/-- Whether no letter is followed by a mark that would be written as one with it. -/
def isComposed : List Char → Bool
  | c :: d :: rest => !composes c d && isComposed (d :: rest)
  | _ => true

/-! ## Labels -/

/-- Whether hyphens stand only where they may. -/
def isHyphenated (cs : List Char) : Bool :=
  (cs.drop 2).take 2 != ['-', '-'] && cs.head? != some '-' && cs.getLast? != some '-'

/-- Whether characters are a label. -/
def isLabel (cs : List Char) : Bool :=
  !cs.isEmpty && isComposed cs && isHyphenated cs && !cs.head?.any isMark && areAllowed [] cs
    && isDirected cs

/-- What follows the mark of a label that is written in ASCII though it has other letters. -/
def encoded? (cs : List Char) : Option (List Char) :=
  if "xn--".toList.isPrefixOf cs then some (cs.drop 4) else none

/-- Whether characters of ASCII spell a label. -/
def spellsLabel (cs : List Char) : Bool :=
  match encoded? cs with
  | none => isLabel cs
  | some t =>
    t.getLast? != some '-' && !t.isEmpty
      && ((Punycode.decode? t).bind fun ns => Text.chars? (ns.filterMap CodePoint.ofNat?)).any
        isLabel

/-- A label in ASCII. -/
def asciiLabel? (cs : List Char) : Option (List Char) :=
  let isAscii := cs.all Punycode.isBasic
  let written := if isAscii then cs else "xn--".toList ++ Punycode.encode cs
  if (if isAscii then spellsLabel cs else isLabel cs) && written.length ≤ 63 then some written
  else none

/-- The characters that stand for a dot between labels. -/
def isDot (c : Char) : Bool := c == '.' || c == '\u3002' || c == '\uFF0E' || c == '\uFF61'

/-- The labels of a host. One dot at its end is left out. -/
def labelsOf (cs : List Char) : List (List Char) :=
  let labels := Text.splitOn '.' (cs.map fun c => if isDot c then '.' else c)
  if labels.getLast? == some [] then labels.dropLast else labels

/-- Whether the labels of a host in ASCII spell labels. -/
def isReadable (cs : List Char) : Bool :=
  !(labelsOf cs).isEmpty && (labelsOf cs).all spellsLabel

/-- A host with letters beyond ASCII, written in ASCII. -/
def asciiHost? (cs : List Char) : Option (List Char) := do
  let labels ← (labelsOf cs).mapM asciiLabel?
  let host := ['.'].intercalate labels
  if host.length ≤ 253 then
    return host ++ (if cs.getLast?.any isDot then ['.'] else [])
  else none

example : asciiHost? "bücher。de".toList = some "xn--bcher-kva.de".toList := by decide +kernel

example : asciiHost? "☃".toList = none := by decide +kernel

end AgentFlow.Address
