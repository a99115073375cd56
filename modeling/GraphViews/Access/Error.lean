import GraphViews.Scalar.Coerce
/-!
Errors of reading and writing properties.
-/

namespace GraphViews

/-- Why a property access failed. -/
inductive AccessError where
  | notReadable (property : String)
  | notWritable (property : String)
  | wrongShape (property expected found : String)
  | unsupported (property operation : String)
  | indexOutOfBounds (property : String) (index size : Nat)
  | conversion (e : ConversionError)
deriving Inhabited

namespace AccessError

def message : AccessError → String
  | notReadable p => "property " ++ Text.quoted p ++ " is not readable"
  | notWritable p => "property " ++ Text.quoted p ++ " is not writable"
  | wrongShape p e f => "property " ++ Text.quoted p ++ " expected " ++ e ++ " but found " ++ f
  | unsupported p op => op ++ " is not supported by property " ++ Text.quoted p
  | indexOutOfBounds p i n =>
    "index " ++ toString i ++ " out of bounds for property " ++ Text.quoted p ++ " (size: " ++
      toString n ++ ")"
  | conversion e => e.message

def kindName : AccessError → String
  | notReadable .. => "NotReadable"
  | notWritable .. => "NotWritable"
  | wrongShape .. => "WrongShape"
  | unsupported .. => "Unsupported"
  | indexOutOfBounds .. => "IndexOutOfBounds"
  | conversion .. => "Conversion"

end AccessError

end GraphViews
