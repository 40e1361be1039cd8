/-!
Bytes and the text they encode.
-/

namespace LineShell

abbrev Bytes := List UInt8

namespace Bytes

def ofText (text : String) : Bytes :=
  text.toByteArray.data.toList

/-- The text that bytes encode, if they are valid UTF-8. -/
def toText? (bytes : Bytes) : Option String :=
  String.fromUTF8? ⟨bytes.toArray⟩

@[simp] theorem toText?_ofText (text : String) : toText? (ofText text) = some text := by
  have bytes : (⟨(ofText text).toArray⟩ : ByteArray) = text.toByteArray := by
    simp [ofText]
  rw [toText?, bytes, String.fromUTF8?, dif_pos text.isValidUTF8]
  rfl

theorem ofText_of_toText? {bytes : Bytes} {text : String} (valid : toText? bytes = some text) :
    ofText text = bytes := by
  unfold toText? String.fromUTF8? at valid
  split at valid
  · rw [← Option.some.inj valid]
    simp [ofText, String.fromUTF8]
  · contradiction

/-- How many bytes follow the first one of a character; none also after one that begins no
character. -/
def followers (first : UInt8) : Nat :=
  if 0xC2 ≤ first && first ≤ 0xDF then 1
  else if 0xE0 ≤ first && first ≤ 0xEF then 2
  else if 0xF0 ≤ first && first ≤ 0xF4 then 3
  else 0

/-- Whether a byte can be one after the second of a character. -/
def isContinuation (byte : UInt8) : Bool :=
  0x80 ≤ byte && byte ≤ 0xBF

/-- Whether a byte can be the second of a character. Some first bytes leave fewer of them, so that
no character is longer than it must be, a surrogate, or beyond the last code point. -/
def canBeSecond (first second : UInt8) : Bool :=
  isContinuation second &&
    (first != 0xE0 || 0xA0 ≤ second) && (first != 0xED || second ≤ 0x9F) &&
    (first != 0xF0 || 0x90 ≤ second) && (first != 0xF4 || second ≤ 0x8F)

/-- How many of the next bytes go on with the character that a byte begins. -/
def continued (first : UInt8) : Bytes → Nat
  | [] => 0
  | second :: later =>
    if followers first = 0 || !canBeSecond first second then 0
    else 1 + ((later.take (followers first - 1)).takeWhile isContinuation).length

def replacement : Char := '\ufffd'

/-- The characters that bytes encode. A stretch that begins one and does not end it, or a byte that
begins none, is replaced. -/
def lenientChars : Bytes → List Char
  | [] => []
  | first :: rest =>
    let count := continued first rest
    ((toText? (first :: rest.take count)).elim [replacement] String.toList) ++
      lenientChars (rest.drop count)
termination_by bytes => bytes.length

/-- The text that bytes encode, with a replacement for what is not valid UTF-8. -/
def toLenientText (bytes : Bytes) : String :=
  (toText? bytes).getD (String.ofList (lenientChars bytes))

@[simp] theorem toLenientText_ofText (text : String) : toLenientText (ofText text) = text := by
  simp [toLenientText]

def isNewline (byte : UInt8) : Bool :=
  byte == 10

end Bytes

end LineShell
