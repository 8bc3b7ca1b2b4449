import ShapeLint.Text.Position

/-!
# Spans

Where something stands in a file or in a pattern: a file name, which may be empty, and a first and a
last position. A line of zero means that the place is not known. An end that is not given is the
start.
-/

namespace ShapeLint

/-- A range of positions in a file or a pattern: from a line and a column up to a line and the
column that it ends before. The file is empty where there is none, and a line or a column is zero
where it is not known. -/
structure Span where
  file : String := ""
  line : Nat := 0
  column : Nat := 0
  endLine : Nat := 0
  endColumn : Nat := 0
deriving DecidableEq, Inhabited

namespace Span

/-- A span whose missing end, given as zero, is its start. -/
def of (file : String) (line column endLine endColumn : Nat) : Span :=
  { file, line, column
    endLine := if endLine = 0 then line else endLine
    endColumn := if endColumn = 0 then column else endColumn }

/-- The span between two positions. -/
def between (first last : Text.Position) : Span :=
  of "" first.line first.column last.line last.column

/-- The span of the one character at an offset of a text. -/
def atOffset (s : List Char) (offset : Nat) (file : String := "") : Span :=
  let p := Text.position s offset
  of file p.line p.column 0 0

/-- The span between two offsets of a text. -/
def ofOffsets (s : List Char) (start stop : Nat) : Span :=
  between (Text.position s start) (Text.position s stop)

/-- From the start of one span to the end of another. The file is left out, and is set when the span
is put into one. -/
def join (first last : Span) : Span :=
  of "" first.line first.column last.endLine last.endColumn

/-- The same span in another file. -/
def inFile (s : Span) (file : String) : Span :=
  of file s.line s.column s.endLine s.endColumn

/-- The span as it starts a diagnostic: file, line and column, as far as they are known. -/
def text (s : Span) : String :=
  let file := if s.file = "" then [] else [s.file]
  let place :=
    if s.line = 0 then [] else if s.column = 0 then [toString s.line]
      else [toString s.line, toString s.column]
  match file ++ place with
  | [] => "<unknown location>"
  | parts => ":".intercalate parts

end Span

end ShapeLint
