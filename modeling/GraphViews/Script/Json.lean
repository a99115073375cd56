import GraphViews.Script.Doc
/-!
Documents as JSON text.

`Doc.parse` reads one JSON text and `Doc.render` writes the compact form. Reading keeps what
the document type keeps: object keys in the order written (a repeated key replaces the
value in its first place), integers apart from decimals, and the sign of a decimal zero.
Strings take the escapes of the JSON grammar, a surrogate pair of `\u` escapes giving one
character.

The reader is total: it consumes at least one character between two nested calls, so fuel
of twice the length of the text, and two more, is enough.
-/

namespace GraphViews.Script

namespace Json

/-- Drops the blanks the grammar allows between tokens. -/
def skipBlank (cs : List Char) : List Char :=
  cs.dropWhile fun c => c == ' ' || c == '\t' || c == '\n' || c == '\r'

/-- The leading decimal digits and what follows them. -/
def spanDigits (cs : List Char) : List Char × List Char :=
  (cs.takeWhile Char.isDigit, cs.dropWhile Char.isDigit)

/-- The natural number of decimal digits. -/
def digitsValue (ds : List Char) : Nat :=
  ds.foldl (fun n c => 10 * n + (c.toNat - '0'.toNat)) 0

/-- The value of a hexadecimal digit. -/
def hexValue (c : Char) : Option Nat :=
  if c.isDigit then some (c.toNat - '0'.toNat)
  else if 'a' ≤ c && c ≤ 'f' then some (c.toNat - 'a'.toNat + 10)
  else if 'A' ≤ c && c ≤ 'F' then some (c.toNat - 'A'.toNat + 10)
  else none

/-- The code unit of four hexadecimal digits. -/
def unitValue (a b c d : Char) : Option Nat := do
  return (((← hexValue a) * 16 + (← hexValue b)) * 16 + (← hexValue c)) * 16 + (← hexValue d)

/-- The character of a one-letter escape. -/
def escaped : Char → Option Char
  | '"' => some '"'
  | '\\' => some '\\'
  | '/' => some '/'
  | 'b' => some (Char.ofNat 8)
  | 'f' => some (Char.ofNat 12)
  | 'n' => some '\n'
  | 'r' => some '\r'
  | 't' => some '\t'
  | _ => none

/-- Reads the rest of a string after its opening quote; `acc` holds the characters read so
far, last first. -/
def readString (acc : List Char) : List Char → Except String (String × List Char)
  | [] => .error "unterminated string"
  | '"' :: rest => .ok (String.ofList acc.reverse, rest)
  | '\\' :: 'u' :: a :: b :: c :: d :: rest =>
    match unitValue a b c d with
    | none => .error "bad unicode escape"
    | some hi =>
      if 0xD800 ≤ hi && hi < 0xDC00 then
        match _hr : rest with
        | '\\' :: 'u' :: e :: f :: g :: h :: rest' =>
          match unitValue e f g h with
          | some lo =>
            if 0xDC00 ≤ lo && lo < 0xE000 then
              readString (Char.ofNat (0x10000 + (hi - 0xD800) * 0x400 + (lo - 0xDC00)) :: acc) rest'
            else readString (Char.ofNat 0xFFFD :: acc) rest
          | none => .error "bad unicode escape"
        | _ => readString (Char.ofNat 0xFFFD :: acc) rest
      else if 0xDC00 ≤ hi && hi < 0xE000 then readString (Char.ofNat 0xFFFD :: acc) rest
      else readString (Char.ofNat hi :: acc) rest
  | '\\' :: e :: rest =>
    match escaped e with
    | some c => readString (c :: acc) rest
    | none => .error "bad escape"
  | c :: rest => readString (c :: acc) rest
termination_by cs => cs.length
decreasing_by all_goals simp_all <;> omega

/-- Reads an optional sign mark. -/
def readSign (cs : List Char) : Bool × List Char :=
  match cs with
  | '-' :: rest => (true, rest)
  | '+' :: rest => (false, rest)
  | _ => (false, cs)

/-- Reads a number: an integer unless it has a fraction or an exponent. -/
def readNumber (cs : List Char) : Except String (Doc × List Char) := do
  let (negative, cs) := match cs with
    | '-' :: rest => (true, rest)
    | _ => (false, cs)
  let (whole, cs) := spanDigits cs
  if whole.isEmpty then throw "expected a value"
  let (fraction, cs) ← match cs with
    | '.' :: rest =>
      let (f, rest) := spanDigits rest
      if f.isEmpty then throw "expected digits after the point" else pure (some f, rest)
    | _ => pure (none, cs)
  let (exponent, cs) ← match cs with
    | c :: rest =>
      if c == 'e' || c == 'E' then
        let (down, rest) := readSign rest
        let (ds, rest) := spanDigits rest
        if ds.isEmpty then throw "expected exponent digits"
        let e : Int := digitsValue ds
        pure (some (if down then -e else e), rest)
      else pure (none, cs)
    | [] => pure (none, cs)
  match fraction, exponent with
  | none, none =>
    let n : Int := digitsValue whole
    return (.int (if negative then -n else n), cs)
  | _, _ =>
    let f := fraction.getD []
    return (.real negative (digitsValue (whole ++ f)) (exponent.getD 0 - f.length), cs)

/-- Puts an object field: a repeated key replaces the value in its first place. -/
def putField (fields : List (String × Doc)) (k : String) (v : Doc) : List (String × Doc) :=
  if fields.any (·.1 == k) then fields.map fun p => if p.1 == k then (k, v) else p
  else fields ++ [(k, v)]

mutual

/-- Reads one value. -/
def readValue : Nat → List Char → Except String (Doc × List Char)
  | 0, _ => .error "document nested too deeply"
  | fuel + 1, cs =>
    match skipBlank cs with
    | '{' :: rest => readFields fuel [] rest
    | '[' :: rest => readItems fuel #[] rest
    | '"' :: rest => (readString [] rest).map fun (s, r) => (.str s, r)
    | 't' :: 'r' :: 'u' :: 'e' :: rest => .ok (.bool true, rest)
    | 'f' :: 'a' :: 'l' :: 's' :: 'e' :: rest => .ok (.bool false, rest)
    | 'n' :: 'u' :: 'l' :: 'l' :: rest => .ok (.null, rest)
    | cs => readNumber cs

/-- Reads the rest of an array; `acc` holds the items read so far. -/
def readItems : Nat → Array Doc → List Char → Except String (Doc × List Char)
  | 0, _, _ => .error "document nested too deeply"
  | fuel + 1, acc, cs =>
    match skipBlank cs with
    | ']' :: rest => if acc.isEmpty then .ok (.arr [], rest) else .error "expected a value"
    | cs => do
      let (v, rest) ← readValue fuel cs
      match skipBlank rest with
      | ',' :: rest => readItems fuel (acc.push v) rest
      | ']' :: rest => return (.arr (acc.push v).toList, rest)
      | _ => throw "expected a comma or a closing bracket"

/-- Reads the rest of an object; `acc` holds the fields read so far. -/
def readFields : Nat → List (String × Doc) → List Char → Except String (Doc × List Char)
  | 0, _, _ => .error "document nested too deeply"
  | fuel + 1, acc, cs =>
    match skipBlank cs with
    | '}' :: rest => if acc.isEmpty then .ok (.obj [], rest) else .error "expected a key"
    | '"' :: rest => do
      let (k, rest) ← readString [] rest
      let ':' :: rest := skipBlank rest | throw "expected a colon"
      let (v, rest) ← readValue fuel rest
      let acc := putField acc k v
      match skipBlank rest with
      | ',' :: rest => readFields fuel acc rest
      | '}' :: rest => return (.obj acc, rest)
      | _ => throw "expected a comma or a closing brace"
    | _ => .error "expected a key"

end

end Json

namespace Doc

/-- Reads one JSON text, blanks around it allowed. -/
def parse (text : String) : Except String Doc := do
  let cs := text.toList
  let (d, rest) ← Json.readValue (2 * cs.length + 2) cs
  if (Json.skipBlank rest).isEmpty then return d else throw "trailing characters"

/-- A string as a JSON string literal: quotes, backslashes and control characters escaped. -/
def quote (s : String) : String :=
  let hex (n : Nat) : Char := "0123456789abcdef".toList.getD n '0'
  let escape (c : Char) : String :=
    match c with
    | '"' => "\\\""
    | '\\' => "\\\\"
    | '\n' => "\\n"
    | '\r' => "\\r"
    | '\t' => "\\t"
    | c =>
      if c.toNat < 0x20 then String.ofList ['\\', 'u', '0', '0', hex (c.toNat / 16), hex (c.toNat % 16)]
      else c.toString
  "\"" ++ String.join (s.toList.map escape) ++ "\""

/-- The compact JSON text of a document. -/
def render : Doc → String
  | null => "null"
  | bool b => toString b
  | int i => toString i
  | real negative digits exponent =>
    (if negative then "-" else "") ++ toString digits ++ "e" ++ toString exponent
  | str s => quote s
  | arr items => "[" ++ ",".intercalate (renderItems items) ++ "]"
  | obj fields => "\x7b" ++ ",".intercalate (renderFields fields) ++ "\x7d"
where
  renderItems : List Doc → List String
    | [] => []
    | d :: ds => render d :: renderItems ds
  renderFields : List (String × Doc) → List String
    | [] => []
    | (k, d) :: fs => (quote k ++ ":" ++ render d) :: renderFields fs

end Doc

end GraphViews.Script
