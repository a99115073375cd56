/-!
Error codes.

Every failure of the library belongs to one of nine families, each with a stable code from
`V001` to `V009`.
-/

namespace GraphViews

/-- The families of failures. -/
inductive ErrorCode where
  /-- V001: template configuration -/
  | configuration
  /-- V002: malformed event stream -/
  | malformedStream
  /-- V003: unknown property in the view -/
  | unknownProperty
  /-- V004: value conversion -/
  | conversion
  /-- V005: accessor failure -/
  | access
  /-- V006: association management -/
  | association
  /-- V007: instantiation or reference resolution -/
  | instantiation
  /-- V008: subtype resolution -/
  | subtype
  /-- V009: meta or splice handler failure -/
  | handler
deriving Repr, DecidableEq

namespace ErrorCode

/-- Every family, in order of their codes. -/
def all : List ErrorCode :=
  [configuration, malformedStream, unknownProperty, conversion, access, association,
   instantiation, subtype, handler]

/-- The stable code of a family. -/
def code : ErrorCode → String
  | configuration => "V001"
  | malformedStream => "V002"
  | unknownProperty => "V003"
  | conversion => "V004"
  | access => "V005"
  | association => "V006"
  | instantiation => "V007"
  | subtype => "V008"
  | handler => "V009"

/-- The name of a family. -/
def name : ErrorCode → String
  | configuration => "Configuration"
  | malformedStream => "MalformedStream"
  | unknownProperty => "UnknownProperty"
  | conversion => "Conversion"
  | access => "Access"
  | association => "Association"
  | instantiation => "Instantiation"
  | subtype => "Subtype"
  | handler => "Handler"

end ErrorCode

end GraphViews
