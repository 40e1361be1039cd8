import LineShell.Text.Extender
import LineShell.Text.Hidden
/-!
Texts and lists of texts in double quotes, as log records and complaints show them.
-/

namespace LineShell.Text

/-- The two half-width voicing marks, which follow a character but take a place of their own. -/
def voicingMarks : CharRanges := [(0xFF9E, 0xFF9F)]

/-- Whether a character cannot be seen on its own: it is hidden, or drawn onto the one before. -/
def isUnclear (c : Char) : Bool :=
  isHidden c || isExtender c && !voicingMarks.holds c

/-- One character between double quotes. An unclear one is shown by its code point. -/
def quotedChar (c : Char) : String :=
  match c with
  | '"' => "\\\""
  | '\\' => "\\\\"
  | '\t' => "\\t"
  | '\r' => "\\r"
  | '\n' => "\\n"
  | '\x00' => "\\0"
  | c =>
    if isUnclear c then "\\u\x7b" ++ String.ofList (Nat.toDigits 16 c.toNat) ++ "\x7d"
    else c.toString

def quoted (text : String) : String :=
  "\"" ++ String.join (text.toList.map quotedChar) ++ "\""

def quotedList (texts : List String) : String :=
  "[" ++ ", ".intercalate (texts.map quoted) ++ "]"

end LineShell.Text
