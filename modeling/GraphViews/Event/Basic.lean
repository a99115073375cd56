import GraphViews.Scalar.Basic
/-!
View events.

A view is a finite sequence of events. Structure is carried by begin/end pairs of one family
(object or array); scalars travel in VALUE, META and DISCRIMINATOR events. An event may carry
a name, an explicit namespace, and a scalar.

The text of an event is its kind, then ` ns:` for a namespace (or a single space before a
name), the name, and ` = ` with the scalar: texts quoted, every other scalar by its display
text. The text of a view puts one event on a line, indented two spaces per open container;
an end event is indented like its begin.
-/

namespace GraphViews

/-- Kinds of events. -/
inductive EventKind where
  | beginObject
  | endObject
  | beginArray
  | endArray
  | value
  | metadata
  | discriminator
deriving Repr, DecidableEq, Inhabited

namespace EventKind

def isBegin : EventKind → Bool
  | beginObject | beginArray => true
  | _ => false

def isEnd : EventKind → Bool
  | endObject | endArray => true
  | _ => false

/-- The end event that closes a begin event, and the other way round. -/
def complement : EventKind → Option EventKind
  | beginObject => some endObject
  | endObject => some beginObject
  | beginArray => some endArray
  | endArray => some beginArray
  | _ => none

/-- The name of a kind, as it appears in texts and messages. -/
def text : EventKind → String
  | beginObject => "BEGIN_OBJECT"
  | endObject => "END_OBJECT"
  | beginArray => "BEGIN_ARRAY"
  | endArray => "END_ARRAY"
  | value => "VALUE"
  | metadata => "META"
  | discriminator => "DISCRIMINATOR"

end EventKind

/-- One view event. -/
structure Event where
  kind : EventKind
  name : Option String := none
  ns : Option String := none
  value : Option Scalar := none
deriving Inhabited

namespace Event

/-- A begin-object event. -/
def beginObject (name : Option String) (ns : Option String := none) : Event :=
  ⟨.beginObject, name, ns, none⟩

/-- A begin-array event. -/
def beginArray (name : Option String) (ns : Option String := none) : Event :=
  ⟨.beginArray, name, ns, none⟩

/-- The end of an object; ends carry no name. -/
def endObject : Event := ⟨.endObject, none, none, none⟩

/-- The end of an array. -/
def endArray : Event := ⟨.endArray, none, none, none⟩

/-- A VALUE event. -/
def valueOf (name : Option String) (ns : Option String) (v : Scalar) : Event :=
  ⟨.value, name, ns, some v⟩

/-- A VALUE event carrying null. -/
def isNullValue (e : Event) : Bool :=
  e.kind == .value && (match e.value with | none => true | some v => v.isNull)

/-- Equality of events, scalars compared as scalars. -/
def beq (a b : Event) : Bool :=
  a.kind == b.kind && a.name == b.name && a.ns == b.ns && a.value == b.value

instance : BEq Event := ⟨Event.beq⟩

/-- The text of an event. -/
def text (e : Event) : String :=
  let nsPart := match e.ns with
    | some ns => " " ++ ns ++ ":"
    | none => if e.name.isSome then " " else ""
  let valuePart := match e.value with
    | some (.string s) => " = " ++ Text.quoted s
    | some v => " = " ++ v.text
    | none => ""
  e.kind.text ++ nsPart ++ e.name.getD "" ++ valuePart

end Event

/-- A view: an ordered sequence of events. -/
abbrev View := Array Event

/-- The lines of a view's text, each indented by the depth of the event. -/
def viewLines : Nat → List Event → List String
  | _, [] => []
  | depth, e :: rest =>
    let depth := if e.kind.isEnd then depth - 1 else depth
    let line := String.ofList (List.replicate (2 * depth) ' ') ++ e.text
    line :: viewLines (if e.kind.isBegin then depth + 1 else depth) rest

/-- The text of a view: one indented line per event, each ended by a line feed. -/
def viewText (v : View) : String :=
  String.join ((viewLines 0 v.toList).map (· ++ "\n"))

end GraphViews
