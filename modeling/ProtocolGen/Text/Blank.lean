/-!
# Blanks, words and lines

Which characters separate words, and the operations that only depend on that: trimming, splitting
into words, and joining. The class is that of Unicode's white space together with the four
information separators.
-/

set_option autoImplicit false

namespace ProtocolGen.Text

/-- Characters that separate words and are trimmed at either end of a text. -/
def isBlank (char : Char) : Bool :=
  let code := char.toNat
  (0x09 ≤ code && code ≤ 0x0D) || (0x1C ≤ code && code ≤ 0x20) || code == 0x85 || code == 0xA0 ||
    code == 0x1680 || (0x2000 ≤ code && code ≤ 0x200A) || code == 0x2028 || code == 0x2029 ||
    code == 0x202F || code == 0x205F || code == 0x3000

def dropEndWhile {α : Type} (inClass : α → Bool) (list : List α) : List α :=
  (list.reverse.dropWhile inClass).reverse

def trimEnd (chars : List Char) : List Char := dropEndWhile isBlank chars

def trim (chars : List Char) : List Char := trimEnd (chars.dropWhile isBlank)

/-- The words of a text, given the word that its first characters continue. -/
def wordsFrom (word : List Char) : List Char → List (List Char)
  | [] => if word.isEmpty then [] else [word.reverse]
  | char :: rest =>
    if isBlank char then
      if word.isEmpty then wordsFrom [] rest else word.reverse :: wordsFrom [] rest
    else
      wordsFrom (char :: word) rest

/-- The maximal runs of characters that are not blank, in order. -/
def words (chars : List Char) : List (List Char) := wordsFrom [] chars

def joinWith (separator : List Char) : List (List Char) → List Char
  | [] => []
  | [piece] => piece
  | piece :: pieces => piece ++ separator ++ joinWith separator pieces

/-- The rest of a list after a start of it, when it has that start. -/
def afterStart? {α : Type} [DecidableEq α] : List α → List α → Option (List α)
  | [], rest => some rest
  | _ :: _, [] => none
  | expected :: start, head :: rest => if expected = head then afterStart? start rest else none

/-- Pieces between occurrences of a separator found from left to right, given the piece that the
first characters continue and how many characters of a found separator are still to be skipped. -/
def splitFrom (separator piece : List Char) : Nat → List Char → List (List Char)
  | _, [] => [piece.reverse]
  | skip + 1, _ :: rest => splitFrom separator piece skip rest
  | 0, char :: rest =>
    if (afterStart? separator (char :: rest)).isSome then
      piece.reverse :: splitFrom separator [] (separator.length - 1) rest
    else
      splitFrom separator (char :: piece) 0 rest

/-- Pieces between occurrences of a nonempty separator, found from left to right without overlap. -/
def splitOn (separator chars : List Char) : List (List Char) := splitFrom separator [] 0 chars

/-- Each occurrence of a nonempty pattern, found from left to right without overlap, exchanged for
a replacement. -/
def replaceAll (pattern replacement chars : List Char) : List Char :=
  joinWith replacement (splitOn pattern chars)

/-- Line ends unified in the rest of a text, after the reversed characters done so far. -/
def unifyLineEndsFrom (done : List Char) : List Char → List Char
  | [] => done.reverse
  | '\r' :: '\n' :: rest => unifyLineEndsFrom ('\n' :: done) rest
  | '\r' :: rest => unifyLineEndsFrom ('\n' :: done) rest
  | char :: rest => unifyLineEndsFrom (char :: done) rest

/-- Line ends of text files: a carriage return, alone or with the line feed after it, counts as one
line feed. -/
def unifyLineEnds (chars : List Char) : List Char := unifyLineEndsFrom [] chars

def lowerAscii (char : Char) : Char := if char.isUpper then Char.ofNat (char.toNat + 32) else char

def upperAscii (char : Char) : Char := if char.isLower then Char.ofNat (char.toNat - 32) else char

end ProtocolGen.Text
