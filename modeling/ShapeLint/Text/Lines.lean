import ShapeLint.Text.Blank

/-!
# Lines of a text

A diagnostic shows a line of the text it is about, and a rule is summarised by the first line of its
message. There a line ends at any of the characters that Unicode gives as a line boundary, a
carriage return and a line feed together counting once. Text blocks and positions, on the other
hand, know only the line feed.
-/

namespace ShapeLint.Text

/-- The characters that end a line on their own. -/
def isLineBreak (c : Char) : Bool :=
  let n := c.toNat
  (0xA ≤ n && n ≤ 0xD) || (0x1C ≤ n && n ≤ 0x1E) || n == 0x85 || n == 0x2028 || n == 0x2029

/-- The lines of a text without their ends; `current` holds, reversed, what is read of the line at
hand. An end of line at the end of the text starts no further line. -/
def lines.go : List Char → List Char → List (List Char)
  | [], [] => []
  | [], current => [current.reverse]
  | '\r' :: '\n' :: rest, current => current.reverse :: lines.go rest []
  | c :: rest, current =>
    if isLineBreak c then current.reverse :: lines.go rest [] else lines.go rest (c :: current)

/-- The lines of a text without their ends. -/
def lines (s : List Char) : List (List Char) :=
  lines.go s []

/-- The text of the line with a number counted from one, empty where there is none. A number of zero
stands for an unknown line. -/
def lineAt (s : List Char) (number : Nat) : List Char :=
  if number = 0 then [] else (lines s).getD (number - 1) []

/-- The lines of a text with their ends; `current` holds, reversed, what is read of the line at
hand. -/
def endedLines.go : List Char → List Char → List (List Char)
  | [], [] => []
  | [], current => [current.reverse]
  | '\r' :: '\n' :: rest, current => (current.reverse ++ ['\r', '\n']) :: endedLines.go rest []
  | c :: rest, current =>
    if isLineBreak c then (c :: current).reverse :: endedLines.go rest []
      else endedLines.go rest (c :: current)

/-- The lines of a text with their ends: together they are the text. -/
def endedLines (s : List Char) : List (List Char) :=
  endedLines.go s []

/-- A text with something put in front of each line that is not blank. -/
def indented (lead : List Char) (s : List Char) : List Char :=
  (endedLines s).flatMap fun line => if line.all isSpace then line else lead ++ line

/-- The pieces between the line feeds of a text: always at least one. -/
def splitFeeds : List Char → List (List Char)
  | [] => [[]]
  | c :: rest =>
    if c = '\n' then [] :: splitFeeds rest
    else
      match splitFeeds rest with
      | [] => [[c]]
      | piece :: pieces => (c :: piece) :: pieces

/-- Pieces put together with a line feed between them. -/
def joinFeeds : List (List Char) → List Char
  | [] => []
  | [piece] => piece
  | piece :: pieces => piece ++ '\n' :: joinFeeds pieces

end ShapeLint.Text
