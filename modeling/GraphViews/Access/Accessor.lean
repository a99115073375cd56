import GraphViews.Access.Error
import GraphViews.Model.Store
import GraphViews.Convert
/-!
Accessors: how a template node reads and writes the property it is bound to.

* `root` reads the value it is given and writes nothing;
* `field` reads and writes a slot of an object, in the modes the declaration allows;
* `computed` runs the getter and setter of a computed property;
* `converting` passes non-null scalars through a converter, toward the view on reading and
  toward the model on writing;
* `coercing` shows a text as the array of its parts between a separator, and joins an array
  back into one text on writing.

Reads and writes run in `Access`, which threads the store and keeps every write made
before an error.
-/

namespace GraphViews

/-- Store effects that can fail with an access error. -/
abbrev Access := EStateM AccessError Store

namespace Access

/-- Lifts a conversion result. -/
def convert {α : Type} : Except ConversionError α → Access α
  | .ok a => pure a
  | .error e => throw (.conversion e)

/-- Runs a store update that also returns a result. -/
def step {α : Type} (f : Store → Store × α) : Access α :=
  modifyGetThe Store fun s => let (s, a) := f s; (a, s)

/-- The object behind a value, or a shape error naming the property. -/
def expectObject (property : String) : Value → Access Handle
  | .object h => pure h
  | v => throw (.wrongShape property "object" v.shapeName)

end Access

/-- Splits a text at every occurrence of a separator. -/
def splitAt (sep : Char) (s : String) : List String :=
  (s.toList.foldr (fun c (cur, done) =>
      if c == sep then ([], String.ofList cur :: done) else (c :: cur, done)) ([], [])) |>
    fun (cur, done) => String.ofList cur :: done

namespace Delimited

/-- The name of the coercion in errors. -/
def name : String := "delimited"

/-- A text as the strings between the separators; the empty text has no parts. -/
def toArray (sep : Char) : Value → Except ConversionError (List Value)
  | .scalar (.string s) => .ok (if s.isEmpty then [] else (splitAt sep s).map (.scalar ∘ .string))
  | v => .error (.coercion name v.shapeName)

/-- The display texts of non-null scalars joined by the separator. -/
def ofArray (sep : Char) (xs : List Value) : Except ConversionError Value := do
  let parts ← xs.mapM fun
    | .scalar s => if s.isNull then .error (.coercion name "null") else pure s.text
    | v => .error (.coercion name v.shapeName)
  pure (.scalar (.string ((String.singleton sep).intercalate parts)))

end Delimited

namespace Getter

/-- The wrapping sum of an integer slot over the objects among the values. -/
def sumOf (s : Store) (f : String) (xs : List Value) : Int64 :=
  xs.foldl (fun acc v =>
    match v with
    | .object h => match s.field h f with
      | .scalar (.int i) => acc + i
      | _ => acc
    | _ => acc) 0

/-- Runs a getter on an object. -/
def read (g : Getter) (s : Store) (h : Handle) : Value :=
  match g with
  | field x => s.field h x
  | upper x => match s.field h x with
    | .scalar (.string t) => .scalar (.string (Text.upperText t))
    | v => v
  | count x => .scalar (.int (Int64.ofNat ((s.length? (s.field h x)).getD 0)))
  | sum l f => match s.field h l with
    | .list k | .set k => .scalar (.int (sumOf s f (s.items k)))
    | .array xs => .scalar (.int (sumOf s f xs))
    | _ => .scalar (.int 0)

end Getter

/-- Runs a setter on an object. -/
def Setter.write (st : Setter) (s : Store) (h : Handle) (v : Value) : Store :=
  match st with
  | .field x => s.setField h x v
  | .upper x => s.setField h x (match v with
    | .scalar (.string t) => .scalar (.string (Text.upperText t))
    | v => v)
  | .ignore => s

/-- An accessor. -/
inductive Accessor where
  | root (dataType : DataType)
  | field (name : String) (dataType : DataType) (modes : AccessModes)
  | computed (name : String) (dataType : DataType) (getter : Option Getter) (setter : Option Setter)
  | converting (delegate : Accessor) (converter : Converter)
  | coercing (delegate : Accessor) (separator : Char)
deriving Inhabited

namespace Accessor

/-- The accessor of a declaration: a field, or the computed property's getter and setter. -/
def ofDecl (d : PropertyDecl) : Accessor :=
  match d.storage with
  | .field => field d.name d.dataType d.modes
  | .computed g s => computed d.name d.dataType g s

/-- The property name; the root has the empty name. -/
def name : Accessor → String
  | root _ => ""
  | field n _ _ => n
  | computed n _ _ _ => n
  | converting d _ => d.name
  | coercing d _ => d.name

def dataType : Accessor → DataType
  | root t => t
  | field _ t _ => t
  | computed _ t _ _ => t
  | converting d _ => d.dataType
  | coercing _ _ => .array

def modes : Accessor → AccessModes
  | root _ => .readOnly
  | field _ _ m => m
  | computed _ _ g s => ⟨g.isSome, s.isSome⟩
  | converting d _ => d.modes
  | coercing d _ => d.modes

/-- The debug text of an accessor. -/
def debugText : Accessor → String
  | root t => "RootAccessor \x7b data_type: " ++ t.debugText ++ " \x7d"
  | field n t m =>
    "FieldAccessor \x7b name: " ++ Text.quoted n ++ ", data_type: " ++ t.debugText ++
      ", modes: " ++ m.debugText ++ " \x7d"
  | a@(computed n t _ _) =>
    "PropertyAccessor \x7b name: " ++ Text.quoted n ++ ", data_type: " ++ t.debugText ++
      ", modes: " ++ a.modes.debugText ++ " \x7d"
  | converting d _ => "ConvertingAccessor \x7b delegate: " ++ d.debugText ++ ", .. \x7d"
  | coercing d c =>
    "CoercingAccessor \x7b delegate: " ++ d.debugText ++
      ", coercion: DelimitedCoercion \x7b separator: " ++ Text.quotedChar c ++ " \x7d \x7d"

/-- Reads the property of a value. -/
def get : Accessor → Value → Access Value
  | root _, v => pure v
  | field n _ m, v => do
    unless m.read do throw (.notReadable n)
    let h ← Access.expectObject n v
    return (← getThe Store).field h n
  | computed n _ g _, v => do
    let some g := g | throw (.notReadable n)
    let h ← Access.expectObject n v
    return g.read (← getThe Store) h
  | converting d c, v => do
    match ← d.get v with
    | .scalar x => if x.isNull then pure (.scalar x) else
        return .scalar (← Access.convert (c.toViewValue x))
    | w => pure w
  | coercing d sep, v => do
    let w ← d.get v
    if w.isNull then return .null
    return .array (← Access.convert (Delimited.toArray sep w))

/-- Writes the property of a value. -/
def set : Accessor → Value → Value → Access Unit
  | root _, _, _ => throw (.notWritable "<root>")
  | field n _ m, target, v => do
    unless m.write do throw (.notWritable n)
    let h ← Access.expectObject n target
    modify fun s => s.setField h n v
  | computed n _ _ st, target, v => do
    let some st := st | throw (.notWritable n)
    let h ← Access.expectObject n target
    modify fun s => st.write s h v
  | converting d c, target, v => do
    let v ← match v with
      | .scalar x => if x.isNull then pure v else
          pure (.scalar (← Access.convert (c.toModelValue x)))
      | w => pure w
    d.set target v
  | coercing d sep, target, v => do
    let w ← match v with
      | .array xs => Access.convert (Delimited.ofArray sep xs)
      | v => if v.isNull then pure Value.null else
          throw (.conversion (.coercion Delimited.name v.shapeName))
    d.set target w

end Accessor

end GraphViews
