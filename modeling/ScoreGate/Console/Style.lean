import ScoreGate.Fault

/-!
# Styles

A style is a list of words: attributes, which `not` switches off, a colour, a background after `on`, and a target after
`link`.  Two texts that describe the same style have the same usual form; a text that describes none is its own name.

* `Style.ofWords`: the style that words describe.
* `Style.text`: the usual form of a style.
* `styleName`: the name under which a tag is opened and closed.
-/

namespace ScoreGate

/-! ### Attributes -/

/-- What a style does to the look of a text, its colours apart. -/
inductive Attribute where
  | bold
  | dim
  | italic
  | underline
  | blink
  | fastBlink
  | reverse
  | conceal
  | strike
  | doubleUnderline
  | frame
  | encircle
  | overline
  deriving DecidableEq, Repr

namespace Attribute

/-- All attributes, in the order of the usual form. -/
def all : List Attribute := [
  .bold, .dim, .italic, .underline, .blink, .fastBlink, .reverse, .conceal, .strike, .doubleUnderline, .frame,
  .encircle, .overline]

def name : Attribute → String
  | .bold => "bold"
  | .dim => "dim"
  | .italic => "italic"
  | .underline => "underline"
  | .blink => "blink"
  | .fastBlink => "blink2"
  | .reverse => "reverse"
  | .conceal => "conceal"
  | .strike => "strike"
  | .doubleUnderline => "underline2"
  | .frame => "frame"
  | .encircle => "encircle"
  | .overline => "overline"

def shortName? : Attribute → Option String
  | .bold => some "b"
  | .dim => some "d"
  | .italic => some "i"
  | .underline => some "u"
  | .reverse => some "r"
  | .conceal => some "c"
  | .strike => some "s"
  | .doubleUnderline => some "uu"
  | .overline => some "o"
  | _ => none

def ofName? (word : List Char) : Option Attribute :=
  all.find? fun a => a.name.toList = word || a.shortName?.any (·.toList = word)

end Attribute

/-! ### Colours -/

def colorNames : List String := [
  "aquamarine1", "aquamarine3", "black", "blue", "blue1", "blue3", "blue_violet", "bright_black", "bright_blue",
  "bright_cyan", "bright_green", "bright_magenta", "bright_red", "bright_white", "bright_yellow", "cadet_blue",
  "chartreuse1", "chartreuse2", "chartreuse3", "chartreuse4", "cornflower_blue", "cornsilk1", "cyan", "cyan1",
  "cyan2", "cyan3", "dark_blue", "dark_cyan", "dark_goldenrod", "dark_green", "dark_khaki", "dark_magenta",
  "dark_olive_green1", "dark_olive_green2", "dark_olive_green3", "dark_orange", "dark_orange3", "dark_red",
  "dark_sea_green", "dark_sea_green1", "dark_sea_green2", "dark_sea_green3", "dark_sea_green4", "dark_slate_gray1",
  "dark_slate_gray2", "dark_slate_gray3", "dark_turquoise", "dark_violet", "deep_pink1", "deep_pink2", "deep_pink3",
  "deep_pink4", "deep_sky_blue1", "deep_sky_blue2", "deep_sky_blue3", "deep_sky_blue4", "dodger_blue1",
  "dodger_blue2", "dodger_blue3", "gold1", "gold3", "green", "green1", "green3", "green4", "green_yellow",
  "honeydew2", "hot_pink", "hot_pink2", "hot_pink3", "indian_red", "indian_red1", "khaki1", "khaki3", "light_coral",
  "light_cyan1", "light_cyan3", "light_goldenrod1", "light_goldenrod2", "light_goldenrod3", "light_green",
  "light_pink1", "light_pink3", "light_pink4", "light_salmon1", "light_salmon3", "light_sea_green",
  "light_sky_blue1", "light_sky_blue3", "light_slate_blue", "light_slate_gray", "light_slate_grey",
  "light_steel_blue", "light_steel_blue1", "light_steel_blue3", "light_yellow3", "magenta", "magenta1", "magenta2",
  "magenta3", "medium_orchid", "medium_orchid1", "medium_orchid3", "medium_purple", "medium_purple1",
  "medium_purple2", "medium_purple3", "medium_purple4", "medium_spring_green", "medium_turquoise",
  "medium_violet_red", "misty_rose1", "misty_rose3", "navajo_white1", "navajo_white3", "navy_blue", "orange1",
  "orange3", "orange4", "orange_red1", "orchid", "orchid1", "orchid2", "pale_green1", "pale_green3",
  "pale_turquoise1", "pale_turquoise4", "pale_violet_red1", "pink1", "pink3", "plum1", "plum2", "plum3", "plum4",
  "purple", "purple3", "purple4", "red", "red1", "red3", "rosy_brown", "royal_blue1", "salmon1", "sandy_brown",
  "sea_green1", "sea_green2", "sea_green3", "sky_blue1", "sky_blue2", "sky_blue3", "slate_blue1", "slate_blue3",
  "spring_green1", "spring_green2", "spring_green3", "spring_green4", "steel_blue", "steel_blue1", "steel_blue3",
  "tan", "thistle1", "thistle3", "turquoise2", "turquoise4", "violet", "wheat1", "wheat4", "white", "yellow",
  "yellow1", "yellow2", "yellow3", "yellow4"]

/-- The shades of grey that have a name, in hundredths of white. -/
def greyLevels : List Nat := [
  0, 3, 7, 11, 15, 19, 23, 27, 30, 35, 37, 39, 42, 46, 50, 53, 54, 58, 62, 63, 66, 69, 70, 74, 78, 82, 84, 85, 89, 93,
  100]

/-- Whether a word in small letters names a colour. -/
def namesColor (word : List Char) : Bool :=
  word = "default".toList || colorNames.any (·.toList = word) ||
    greyLevels.any fun n =>
      word = ("grey" ++ toString n).toList || word = ("gray" ++ toString n).toList

/-- The largest number of a colour, and the largest part of one. -/
def maxColor : Nat := 255

/-- What stands between a word with its opening parenthesis and a closing one at the end. -/
def argumentOf? (word : String) (cs : List Char) : Option (List Char) :=
  if word.toList.isPrefixOf cs && cs.getLast? = some ')' then some (cs.drop word.length).dropLast else none

/-- The number written by digits of any script. -/
def digitNumber (ds : List Char) : Nat := ds.foldl (fun n d => n * 10 + (digitValue? d).getD 0) 0

/-- Whether a word in small letters is a colour: a name, six hexadecimal digits, a number, or three parts.  A part
without digits is a fault. -/
def isColor (word : List Char) : Except Fault Bool :=
  if namesColor word then .ok true
  else
    match word with
    | '#' :: ds => .ok (ds.length = 6 && ds.all fun c => c.isDigit || ('a' ≤ c && c ≤ 'f'))
    | _ =>
        match argumentOf? "color(" word, argumentOf? "rgb(" word with
        | some ds, _ => .ok (1 ≤ ds.length && ds.length ≤ 3 && ds.all Char.isDigit && digitNumber ds ≤ maxColor)
        | none, some cs =>
            let parts := splitOn ',' cs
            if cs.isEmpty || !cs.all (fun c => c = ',' || (digitValue? c).isSome) || parts.length ≠ 3 then .ok false
            else if parts.any List.isEmpty then .error (.badValue (.notInteger ""))
            else .ok (parts.all (digitNumber · ≤ maxColor))
        | none, none => .ok false

/-! ### Styles -/

structure Style where
  /-- the attributes that are switched on or off, the last one first -/
  attributes : List (Attribute × Bool)
  color : Option (List Char)
  background : Option (List Char)
  link : Option (List Char)

/-- The words of a text, without the blanks between them. -/
def styleWords : List Char → List (List Char)
  | [] => []
  | c :: cs =>
      if isBlank c then styleWords cs
      else
        match cs with
        | [] => [[c]]
        | d :: _ =>
            if isBlank d then [c] :: styleWords cs
            else
              match styleWords cs with
              | [] => [[c]]
              | w :: ws => (c :: w) :: ws

namespace Style

def plain : Style := ⟨[], none, none, none⟩

/-- The style that words describe, if they describe one. -/
def ofWords : Style → List (List Char) → Except Fault (Option Style)
  | s, [] => .ok (some s)
  | s, w :: ws =>
      let word := lowercase w
      if word = "on".toList then
        match ws with
        | [] => .ok none
        | c :: rest => do
            if ← isColor (lowercase c) then ofWords { s with background := some (lowercase c) } rest else return none
      else if word = "not".toList then
        match ws with
        | [] => .ok none
        | a :: rest =>
            match Attribute.ofName? a with
            | some a => ofWords { s with attributes := (a, false) :: s.attributes } rest
            | none => .ok none
      else if word = "link".toList then
        match ws with
        | [] => .ok none
        | target :: rest => ofWords { s with link := some target } rest
      else
        match Attribute.ofName? word with
        | some a => ofWords { s with attributes := (a, true) :: s.attributes } ws
        | none => do
            if ← isColor word then ofWords { s with color := some word } ws else return none

def words (s : Style) : List (List Char) :=
  (Attribute.all.flatMap fun a =>
    match s.attributes.find? (·.1 = a) with
    | some (_, true) => [a.name.toList]
    | some (_, false) => ["not".toList, a.name.toList]
    | none => []) ++
  s.color.toList ++
  (s.background.map fun c => ["on".toList, c]).getD [] ++
  (s.link.map fun t => ["link".toList, t]).getD []

/-- The usual form of a style. -/
def text (s : Style) : List Char :=
  match s.words with
  | [] => "none".toList
  | ws => joinWith [' '] ws

end Style

/-- The name under which a tag is opened and closed. -/
def styleName (cs : List Char) : Except Fault (List Char) := do
  if strip cs = "none".toList then return strip cs
  match ← Style.ofWords .plain (styleWords cs) with
  | some s => return s.text
  | none => return lowercase (strip cs)

end ScoreGate
