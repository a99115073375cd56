import GraphViews.Text.Unicode
/-!
Quoted texts.

`quoted s` writes a text between double quotes so that every character can be seen: the
quote, the backslash, NUL, tab, carriage return and line feed get a backslash escape;
combining characters and characters that are not printable are written `\u{hex}` with
lowercase hex digits and no leading zeros; every other character stands for itself.
-/

namespace GraphViews.Text

/-- Lowercase hex digits of a natural number, without leading zeros. -/
def hexText (n : Nat) : String := String.ofList (Nat.toDigits 16 n)

/-- The escaped form of one character between the quote marks `mark`: the mark itself and the
backslash are escaped, as are the control characters, and characters that are not printable
or that extend a grapheme are written by their code point. -/
def escapeChar (mark : Char) (c : Char) : String :=
  match c with
  | '\x00' => "\\0"
  | '\t' => "\\t"
  | '\r' => "\\r"
  | '\n' => "\\n"
  | '\\' => "\\\\"
  | _ =>
    if c == mark then "\\" ++ String.singleton c
    else if isGraphemeExtend c || !isPrintable c then "\\u\x7b" ++ hexText c.toNat ++ "\x7d"
    else String.singleton c

/-- A text between double quotes, escaped character by character. -/
def quoted (s : String) : String :=
  "\"" ++ String.join (s.toList.map (escapeChar '"')) ++ "\""

/-- A character between single quotes, escaped. -/
def quotedChar (c : Char) : String := "'" ++ escapeChar '\'' c ++ "'"

end GraphViews.Text
