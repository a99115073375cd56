import GraphViews.Template.Kind
import GraphViews.Model.Type
/-!
Errors of building templates. Every one of them is a configuration error, `V001`.
-/

namespace GraphViews

/-- Why a template cannot be built. -/
inductive TemplateError where
  | unknownProperty (owner property : String)
  | unsupportedAccessMode (owner property : String) (requested supported : AccessModes)
  | missingAccessor (node : String) (kind : NodeKind)
  | shapeMismatch (property : String) (dataType : DataType) (kind : NodeKind)
  | missingModelType (node : String) (kind : NodeKind)
  | notASubtype (parent subtype : String)
  | ambiguousSubtype (parent subtype sibling : String)
  | missingDiscriminator (parent : String)
  | duplicateName (parent name : String)
  | unsupportedKeyKind (keyKind : ScalarKind) (kind : NodeKind)
  | invalidComposition (reason : String)
deriving Inhabited

namespace TemplateError

def message (e : TemplateError) : String :=
  "[V001] " ++
    match e with
    | unknownProperty o p => "type " ++ o ++ " has no property " ++ Text.quoted p
    | unsupportedAccessMode o p r s =>
      "property " ++ Text.quoted p ++ " of " ++ o ++ " supports " ++ s.text ++
        " access, but " ++ r.text ++ " was requested"
    | missingAccessor n k => k.debugText ++ " node " ++ Text.quoted n ++ " has no accessor"
    | shapeMismatch p t k =>
      "property " ++ Text.quoted p ++ " of type " ++ t.debugText ++ " cannot back a " ++
        k.debugText ++ " node"
    | missingModelType n k => k.debugText ++ " node " ++ Text.quoted n ++ " has no model type"
    | notASubtype p s => "subtype " ++ s ++ " does not extend " ++ p
    | ambiguousSubtype p s sib =>
      "subtype " ++ s ++ " of " ++ p ++ " is ambiguous with sibling " ++ sib
    | missingDiscriminator p => p ++ " has subtype branches but no discriminator"
    | duplicateName p n => "duplicate property name " ++ Text.quoted n ++ " in " ++ p
    | unsupportedKeyKind kk k =>
      "map key kind " ++ kk.text ++ " is not supported by a " ++ k.debugText ++ " node"
    | invalidComposition r => "invalid composition: " ++ r

def kindName : TemplateError → String
  | unknownProperty .. => "UnknownProperty"
  | unsupportedAccessMode .. => "UnsupportedAccessMode"
  | missingAccessor .. => "MissingAccessor"
  | shapeMismatch .. => "ShapeMismatch"
  | missingModelType .. => "MissingModelType"
  | notASubtype .. => "NotASubtype"
  | ambiguousSubtype .. => "AmbiguousSubtype"
  | missingDiscriminator .. => "MissingDiscriminator"
  | duplicateName .. => "DuplicateName"
  | unsupportedKeyKind .. => "UnsupportedKeyKind"
  | invalidComposition .. => "InvalidComposition"

end TemplateError

end GraphViews
