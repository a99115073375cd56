import GraphViews.Text.Unicode
/-!
Full case mapping.

`upperText` and `lowerText` map every character of a text to its full upper or lower case
form, which may be longer than one character (`ß` becomes `SS`, `İ` becomes `i̇`). Capital
sigma becomes the final form `ς` at the end of a word, that is when a cased letter precedes
it and none follows, skipping case-ignorable characters on both sides.

The tables cover the Latin, Greek, Cyrillic, Armenian and Georgian scripts, the Latin and
Greek extensions, letterlike forms, Roman numerals, circled letters, full-width forms and
Deseret; other characters map to themselves.
-/

namespace GraphViews.Text

/-- A code point shifted by an offset when it lies in a range and has the given parity
(`none`: any parity). -/
structure CaseRule where
  lo : Nat
  hi : Nat
  parity : Option Nat
  offset : Int

/-- The first rule that applies to a code point. -/
def CaseRule.find? (rules : List CaseRule) (n : Nat) : Option Int :=
  (rules.find? (fun r => r.lo ≤ n && n ≤ r.hi &&
    (match r.parity with | none => true | some p => n % 2 == p))).map (·.offset)

/-- Simple upper case shifts. -/
def upperRules : List CaseRule :=
  [⟨0x61, 0x7A, none, -32⟩, ⟨0xE0, 0xF6, none, -32⟩, ⟨0xF8, 0xFE, none, -32⟩,
   ⟨0x100, 0x12F, some 1, -1⟩, ⟨0x132, 0x137, some 1, -1⟩, ⟨0x139, 0x148, some 0, -1⟩,
   ⟨0x14A, 0x177, some 1, -1⟩, ⟨0x17A, 0x17E, some 0, -1⟩, ⟨0x182, 0x185, some 1, -1⟩,
   ⟨0x1A0, 0x1A5, some 1, -1⟩, ⟨0x1CD, 0x1DC, some 0, -1⟩, ⟨0x1DE, 0x1EF, some 1, -1⟩,
   ⟨0x1F8, 0x21F, some 1, -1⟩, ⟨0x222, 0x233, some 1, -1⟩, ⟨0x246, 0x24F, some 1, -1⟩,
   ⟨0x370, 0x373, some 1, -1⟩, ⟨0x377, 0x377, none, -1⟩, ⟨0x37B, 0x37D, none, 130⟩,
   ⟨0x3AD, 0x3AF, none, -37⟩, ⟨0x3B1, 0x3C1, none, -32⟩, ⟨0x3C3, 0x3CB, none, -32⟩,
   ⟨0x3CD, 0x3CE, none, -63⟩, ⟨0x3D8, 0x3EF, some 1, -1⟩, ⟨0x430, 0x44F, none, -32⟩,
   ⟨0x450, 0x45F, none, -80⟩, ⟨0x460, 0x481, some 1, -1⟩, ⟨0x48A, 0x4BF, some 1, -1⟩,
   ⟨0x4C1, 0x4CE, some 0, -1⟩, ⟨0x4D0, 0x52F, some 1, -1⟩, ⟨0x561, 0x586, none, -48⟩,
   ⟨0x10D0, 0x10FA, none, 3008⟩, ⟨0x10FD, 0x10FF, none, 3008⟩, ⟨0x1E00, 0x1E95, some 1, -1⟩,
   ⟨0x1EA0, 0x1EFF, some 1, -1⟩, ⟨0x1F00, 0x1F07, none, 8⟩, ⟨0x1F10, 0x1F15, none, 8⟩,
   ⟨0x1F20, 0x1F27, none, 8⟩, ⟨0x1F30, 0x1F37, none, 8⟩, ⟨0x1F40, 0x1F45, none, 8⟩,
   ⟨0x1F51, 0x1F57, some 1, 8⟩, ⟨0x1F60, 0x1F67, none, 8⟩, ⟨0x1F70, 0x1F71, none, 74⟩,
   ⟨0x1F72, 0x1F75, none, 86⟩, ⟨0x1F76, 0x1F77, none, 100⟩, ⟨0x1F78, 0x1F79, none, 128⟩,
   ⟨0x1F7A, 0x1F7B, none, 112⟩, ⟨0x1F7C, 0x1F7D, none, 126⟩, ⟨0x1FB0, 0x1FB1, none, 8⟩,
   ⟨0x1FD0, 0x1FD1, none, 8⟩, ⟨0x1FE0, 0x1FE1, none, 8⟩, ⟨0x1FE5, 0x1FE5, none, 7⟩,
   ⟨0x2170, 0x217F, none, -16⟩, ⟨0x24D0, 0x24E9, none, -26⟩, ⟨0x2C30, 0x2C5F, none, -48⟩,
   ⟨0x2D00, 0x2D25, none, -7264⟩, ⟨0x2D27, 0x2D27, none, -7264⟩, ⟨0x2D2D, 0x2D2D, none, -7264⟩,
   ⟨0xA640, 0xA66D, some 1, -1⟩, ⟨0xA680, 0xA69B, some 1, -1⟩, ⟨0xA722, 0xA72F, some 1, -1⟩,
   ⟨0xA732, 0xA76F, some 1, -1⟩, ⟨0xFF41, 0xFF5A, none, -32⟩, ⟨0x10428, 0x1044F, none, -40⟩]

/-- Simple lower case shifts. -/
def lowerRules : List CaseRule :=
  [⟨0x41, 0x5A, none, 32⟩, ⟨0xC0, 0xD6, none, 32⟩, ⟨0xD8, 0xDE, none, 32⟩,
   ⟨0x100, 0x12F, some 0, 1⟩, ⟨0x132, 0x137, some 0, 1⟩, ⟨0x139, 0x148, some 1, 1⟩,
   ⟨0x14A, 0x177, some 0, 1⟩, ⟨0x179, 0x17E, some 1, 1⟩, ⟨0x182, 0x185, some 0, 1⟩,
   ⟨0x1A0, 0x1A5, some 0, 1⟩, ⟨0x1CD, 0x1DC, some 1, 1⟩, ⟨0x1DE, 0x1EF, some 0, 1⟩,
   ⟨0x1F8, 0x21F, some 0, 1⟩, ⟨0x222, 0x233, some 0, 1⟩, ⟨0x246, 0x24F, some 0, 1⟩,
   ⟨0x370, 0x373, some 0, 1⟩, ⟨0x376, 0x376, none, 1⟩, ⟨0x388, 0x38A, none, 37⟩,
   ⟨0x38E, 0x38F, none, 63⟩, ⟨0x391, 0x3A1, none, 32⟩, ⟨0x3A3, 0x3AB, none, 32⟩,
   ⟨0x3D8, 0x3EF, some 0, 1⟩, ⟨0x3FD, 0x3FF, none, -130⟩, ⟨0x400, 0x40F, none, 80⟩,
   ⟨0x410, 0x42F, none, 32⟩, ⟨0x460, 0x481, some 0, 1⟩, ⟨0x48A, 0x4BF, some 0, 1⟩,
   ⟨0x4C1, 0x4CE, some 1, 1⟩, ⟨0x4D0, 0x52F, some 0, 1⟩, ⟨0x531, 0x556, none, 48⟩,
   ⟨0x10A0, 0x10C5, none, 7264⟩, ⟨0x10C7, 0x10C7, none, 7264⟩, ⟨0x10CD, 0x10CD, none, 7264⟩,
   ⟨0x1C90, 0x1CBA, none, -3008⟩, ⟨0x1CBD, 0x1CBF, none, -3008⟩, ⟨0x1E00, 0x1E95, some 0, 1⟩,
   ⟨0x1EA0, 0x1EFF, some 0, 1⟩, ⟨0x1F08, 0x1F0F, none, -8⟩, ⟨0x1F18, 0x1F1D, none, -8⟩,
   ⟨0x1F28, 0x1F2F, none, -8⟩, ⟨0x1F38, 0x1F3F, none, -8⟩, ⟨0x1F48, 0x1F4D, none, -8⟩,
   ⟨0x1F59, 0x1F5F, some 1, -8⟩, ⟨0x1F68, 0x1F6F, none, -8⟩, ⟨0x1FB8, 0x1FB9, none, -8⟩,
   ⟨0x1FBA, 0x1FBB, none, -74⟩, ⟨0x1FC8, 0x1FCB, none, -86⟩, ⟨0x1FD8, 0x1FD9, none, -8⟩,
   ⟨0x1FDA, 0x1FDB, none, -100⟩, ⟨0x1FE8, 0x1FE9, none, -8⟩, ⟨0x1FEA, 0x1FEB, none, -112⟩,
   ⟨0x1FEC, 0x1FEC, none, -7⟩, ⟨0x1FF8, 0x1FF9, none, -128⟩, ⟨0x1FFA, 0x1FFB, none, -126⟩,
   ⟨0x2160, 0x216F, none, 16⟩, ⟨0x24B6, 0x24CF, none, 26⟩, ⟨0x2C00, 0x2C2F, none, 48⟩,
   ⟨0xA640, 0xA66D, some 0, 1⟩, ⟨0xA680, 0xA69B, some 0, 1⟩, ⟨0xA722, 0xA72F, some 0, 1⟩,
   ⟨0xA732, 0xA76F, some 0, 1⟩, ⟨0xFF21, 0xFF3A, none, 32⟩, ⟨0x10400, 0x10427, none, 40⟩]

/-- Upper case forms that are not a simple shift. -/
def upperSpecial : List (Nat × List Nat) :=
  [(0xB5, [0x39C]), (0xDF, [0x53, 0x53]), (0xFF, [0x178]), (0x131, [0x49]),
   (0x149, [0x2BC, 0x4E]), (0x17F, [0x53]), (0x180, [0x243]), (0x188, [0x187]),
   (0x18C, [0x18B]), (0x192, [0x191]), (0x195, [0x1F6]), (0x199, [0x198]), (0x19A, [0x23D]),
   (0x19E, [0x220]), (0x1A8, [0x1A7]), (0x1AD, [0x1AC]), (0x1B0, [0x1AF]), (0x1B4, [0x1B3]),
   (0x1B6, [0x1B5]), (0x1B9, [0x1B8]), (0x1BD, [0x1BC]), (0x1BF, [0x1F7]), (0x1C5, [0x1C4]),
   (0x1C6, [0x1C4]), (0x1C8, [0x1C7]), (0x1C9, [0x1C7]), (0x1CB, [0x1CA]), (0x1CC, [0x1CA]),
   (0x1DD, [0x18E]), (0x1F0, [0x4A, 0x30C]), (0x1F2, [0x1F1]), (0x1F3, [0x1F1]),
   (0x1F5, [0x1F4]), (0x23C, [0x23B]), (0x242, [0x241]), (0x250, [0x2C6F]), (0x251, [0x2C6D]),
   (0x253, [0x181]), (0x254, [0x186]), (0x256, [0x189]), (0x257, [0x18A]), (0x259, [0x18F]),
   (0x25B, [0x190]), (0x260, [0x193]), (0x263, [0x194]), (0x268, [0x197]), (0x269, [0x196]),
   (0x26F, [0x19C]), (0x272, [0x19D]), (0x275, [0x19F]), (0x280, [0x1A6]), (0x283, [0x1A9]),
   (0x288, [0x1AE]), (0x289, [0x244]), (0x28A, [0x1B1]), (0x28B, [0x1B2]), (0x28C, [0x245]),
   (0x292, [0x1B7]), (0x390, [0x399, 0x308, 0x301]), (0x3AC, [0x386]),
   (0x3B0, [0x3A5, 0x308, 0x301]), (0x3C2, [0x3A3]), (0x3CC, [0x38C]), (0x3D0, [0x392]),
   (0x3D1, [0x398]), (0x3D5, [0x3A6]), (0x3D6, [0x3A0]), (0x3D7, [0x3CF]), (0x3F0, [0x39A]),
   (0x3F1, [0x3A1]), (0x3F2, [0x3F9]), (0x3F3, [0x37F]), (0x3F5, [0x395]), (0x3F8, [0x3F7]),
   (0x3FB, [0x3FA]), (0x4CF, [0x4C0]), (0x587, [0x535, 0x552]), (0x1E96, [0x48, 0x331]),
   (0x1E97, [0x54, 0x308]), (0x1E98, [0x57, 0x30A]), (0x1E99, [0x59, 0x30A]),
   (0x1E9A, [0x41, 0x2BE]), (0x1E9B, [0x1E60]), (0x2C65, [0x23A]), (0x2C66, [0x23E]),
   (0xFB00, [0x46, 0x46]), (0xFB01, [0x46, 0x49]), (0xFB02, [0x46, 0x4C]),
   (0xFB03, [0x46, 0x46, 0x49]), (0xFB04, [0x46, 0x46, 0x4C]), (0xFB05, [0x53, 0x54]),
   (0xFB06, [0x53, 0x54])]

/-- Lower case forms that are not a simple shift. -/
def lowerSpecial : List (Nat × List Nat) :=
  [(0x130, [0x69, 0x307]), (0x178, [0xFF]), (0x181, [0x253]), (0x186, [0x254]),
   (0x187, [0x188]), (0x189, [0x256]), (0x18A, [0x257]), (0x18B, [0x18C]), (0x18E, [0x1DD]),
   (0x18F, [0x259]), (0x190, [0x25B]), (0x191, [0x192]), (0x193, [0x260]), (0x194, [0x263]),
   (0x196, [0x269]), (0x197, [0x268]), (0x198, [0x199]), (0x19C, [0x26F]), (0x19D, [0x272]),
   (0x19F, [0x275]), (0x1A6, [0x280]), (0x1A7, [0x1A8]), (0x1A9, [0x283]), (0x1AC, [0x1AD]),
   (0x1AE, [0x288]), (0x1AF, [0x1B0]), (0x1B1, [0x28A]), (0x1B2, [0x28B]), (0x1B3, [0x1B4]),
   (0x1B5, [0x1B6]), (0x1B7, [0x292]), (0x1B8, [0x1B9]), (0x1BC, [0x1BD]), (0x1C4, [0x1C6]),
   (0x1C5, [0x1C6]), (0x1C7, [0x1C9]), (0x1C8, [0x1C9]), (0x1CA, [0x1CC]), (0x1CB, [0x1CC]),
   (0x1F1, [0x1F3]), (0x1F2, [0x1F3]), (0x1F4, [0x1F5]), (0x1F6, [0x195]), (0x1F7, [0x1BF]),
   (0x220, [0x19E]), (0x23A, [0x2C65]), (0x23B, [0x23C]), (0x23D, [0x19A]), (0x23E, [0x2C66]),
   (0x241, [0x242]), (0x243, [0x180]), (0x244, [0x289]), (0x245, [0x28C]), (0x37F, [0x3F3]),
   (0x386, [0x3AC]), (0x38C, [0x3CC]), (0x3CF, [0x3D7]), (0x3F4, [0x3B8]), (0x3F7, [0x3F8]),
   (0x3F9, [0x3F2]), (0x3FA, [0x3FB]), (0x4C0, [0x4CF]), (0x1E9E, [0xDF]), (0x2126, [0x3C9]),
   (0x212A, [0x6B]), (0x212B, [0xE5]), (0x2C6D, [0x251]), (0x2C6F, [0x250])]

/-- The code points of a case mapping: a special form, else a shift, else the character. -/
def mapCase (special : List (Nat × List Nat)) (rules : List CaseRule) (c : Char) : List Char :=
  match special.lookup c.toNat with
  | some ns => ns.map Char.ofNat
  | none =>
    match CaseRule.find? rules c.toNat with
    | some d => [Char.ofNat (c.toNat + d).toNat]
    | none => [c]

/-- The full upper case form of a character. -/
def upperChar (c : Char) : List Char := mapCase upperSpecial upperRules c

/-- The full lower case form of a character, sigma taken as not final. -/
def lowerChar (c : Char) : List Char := mapCase lowerSpecial lowerRules c

/-- A letter with case: it changes under one of the two mappings. -/
def isCased (c : Char) : Bool := upperChar c != [c] || lowerChar c != [c] || c.toNat == 0x1E9E

/-- Characters that case context skips: marks, formats, modifier letters and symbols, and
the apostrophes, periods and colons that may stand inside a word. -/
def isCaseIgnorable (c : Char) : Bool :=
  isGraphemeExtend c ||
  [0x27, 0x2E, 0x3A, 0x5E, 0x60, 0xA8, 0xAD, 0xAF, 0xB4, 0xB7, 0xB8, 0x2018, 0x2019, 0x2024,
   0x2027].contains c.toNat ||
  inRanges [(0x2B0, 0x2FF), (0x200B, 0x200F), (0x202A, 0x202E), (0x2060, 0x2064)] c

/-- The first character after skipping case-ignorable ones is cased. -/
def casedAfterIgnorable (cs : List Char) : Bool :=
  match cs.dropWhile isCaseIgnorable with
  | c :: _ => isCased c
  | [] => false

/-- Lowers a character list; `before` holds the characters already passed, nearest first. -/
def lowerList : List Char → List Char → List Char
  | _, [] => []
  | before, c :: rest =>
    let here :=
      if c.toNat == 0x3A3 then
        if casedAfterIgnorable before && !casedAfterIgnorable rest then ['ς'] else ['σ']
      else lowerChar c
    here ++ lowerList (c :: before) rest

/-- The full upper case form of a text. -/
def upperText (s : String) : String := String.ofList (s.toList.flatMap upperChar)

/-- The full lower case form of a text, with the final form of sigma at the end of words. -/
def lowerText (s : String) : String := String.ofList (lowerList [] s.toList)

end GraphViews.Text
