import GraphViews.Access.Error
import GraphViews.Event.Stream
import GraphViews.ErrorCode
/-!
Errors of generating and applying views.

A `ViewErrorKind` says what went wrong; a `ViewError` adds where: the view path of the
frames open when it arose and the model types of those frames. The message of an error is
the message of its kind followed by ` (at <path>)`.

A conversion failure reached through an accessor keeps the message of an access failure but
belongs to the conversion family.
-/

namespace GraphViews

/-- What went wrong while generating or applying a view. -/
inductive ViewErrorKind where
  | stream (e : StreamError)
  | unknownProperty (name : String)
  | conversion (e : ConversionError)
  | access (e : AccessError)
  | unsupportedAssociation (descriptor : String)
  | managerCapability (descriptor expected : String)
  | instantiation (modelType reason : String)
  | noReferenceResolver (modelType : String)
  | unresolvedReference (modelType : String)
  | undefinedDiscriminator (base value : String)
  | ambiguousDiscriminator (base value : String)
  | typeMismatch (expected found : String)
  | handler (message : String)
deriving Inhabited

namespace ViewErrorKind

/-- The family of an error. -/
def code : ViewErrorKind → ErrorCode
  | stream _ => .malformedStream
  | unknownProperty _ => .unknownProperty
  | conversion _ | access (.conversion _) => .conversion
  | access _ => .access
  | unsupportedAssociation _ | managerCapability .. => .association
  | instantiation .. | noReferenceResolver _ | unresolvedReference _ => .instantiation
  | undefinedDiscriminator .. | ambiguousDiscriminator .. | typeMismatch .. => .subtype
  | handler _ => .handler

def message : ViewErrorKind → String
  | stream e => "[V002] malformed view: " ++ e.message
  | unknownProperty n => "[V003] unknown property " ++ Text.quoted n
  | conversion e => "[V004] conversion failed: " ++ e.message
  | access e => "[V005] " ++ e.message
  | unsupportedAssociation d => "[V006] no association manager supports " ++ d
  | managerCapability d e => "[V006] manager for " ++ d ++ " does not provide " ++ e ++ " access"
  | instantiation t r => "[V007] cannot instantiate " ++ t ++ ": " ++ r
  | noReferenceResolver t => "[V007] no reference resolver supports " ++ t
  | unresolvedReference t => "[V007] reference to " ++ t ++ " could not be resolved"
  | undefinedDiscriminator b v =>
    "[V008] discriminator " ++ Text.quoted v ++ " does not identify " ++ b ++
      " or one of its subtypes"
  | ambiguousDiscriminator b v =>
    "[V008] discriminator " ++ Text.quoted v ++ " matches more than one subtype of " ++ b
  | typeMismatch e f => "[V008] expected an instance of " ++ e ++ " but found " ++ f
  | handler m => "[V009] handler failed: " ++ m

def kindName : ViewErrorKind → String
  | stream _ => "Stream"
  | unknownProperty _ => "UnknownProperty"
  | conversion _ => "Conversion"
  | access _ => "Access"
  | unsupportedAssociation _ => "UnsupportedAssociation"
  | managerCapability .. => "ManagerCapability"
  | instantiation .. => "Instantiation"
  | noReferenceResolver _ => "NoReferenceResolver"
  | unresolvedReference _ => "UnresolvedReference"
  | undefinedDiscriminator .. => "UndefinedDiscriminator"
  | ambiguousDiscriminator .. => "AmbiguousDiscriminator"
  | typeMismatch .. => "TypeMismatch"
  | handler _ => "Handler"

end ViewErrorKind

/-- An error with the place it arose. -/
structure ViewError where
  kind : ViewErrorKind
  path : String
  modelPath : List String
deriving Inhabited

def ViewError.message (e : ViewError) : String := e.kind.message ++ " (at " ++ e.path ++ ")"

end GraphViews
