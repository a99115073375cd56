import GraphViews.Script.Fault
import GraphViews.Access.Accessor
/-!
Type declarations in requests, and the `type_info` request.

A request declares its types in order, a supertype before its subtypes. A property is
`[name, type]`, `[name, type, modes]`, or an object: with `get` or `set` a computed property,
otherwise a field with optional modes.
-/

namespace GraphViews.Script

/-- The declared types of a request, looked up by name, first match. -/
abbrev Types := List ModelType

/-- The type of a name. -/
def findType (types : Types) (name : String) : Outcome ModelType :=
  match types.find? (·.name == name) with
  | some t => .ok t
  | none => refuse ("unknown type " ++ q name)

/-- A data type named in a declaration: a scalar kind, a shape, or `map:<kind>`. -/
def readDataType (s : String) : Outcome DataType :=
  match s with
  | "object" => .ok .object
  | "list" => .ok .list
  | "set" => .ok .set
  | "array" => .ok .array
  | "any" => .ok .any
  | _ =>
    if s.startsWith "map:" then .map <$> readKind (.str (s.drop 4).toString)
    else .scalar <$> readKind (.str s)

/-- Modes `rw`, `r`, `w` or `none`. -/
def readModes (d : Doc) : Outcome AccessModes :=
  match d with
  | .str "rw" => .ok .readWrite
  | .str "r" => .ok .readOnly
  | .str "w" => .ok .writeOnly
  | .str "none" => .ok .none
  | .str s => refuse ("unknown modes " ++ q s)
  | _ => refuse "missing argument modes"

/-- Splits a text at its colons. -/
def colonParts (s : String) : List String := splitAt ':' s

def readGetter (d : Doc) : Outcome (Option Getter) :=
  match d with
  | .null => .ok none
  | .str s =>
    match colonParts s with
    | ["field", x] => .ok (some (.field x))
    | ["upper", x] => .ok (some (.upper x))
    | ["count", x] => .ok (some (.count x))
    | ["sum", l, f] => .ok (some (.sum l f))
    | _ => refuse ("unknown getter " ++ q s)
  | _ => refuse "unknown getter"

def readSetter (d : Doc) : Outcome (Option Setter) :=
  match d with
  | .null => .ok none
  | .str "ignore" => .ok (some .ignore)
  | .str s =>
    match colonParts s with
    | ["field", x] => .ok (some (.field x))
    | ["upper", x] => .ok (some (.upper x))
    | _ => refuse ("unknown setter " ++ q s)
  | _ => refuse "unknown setter"

/-- A property declaration. -/
def readProperty (d : Doc) : Outcome PropertyDecl := do
  let shapeFault : Outcome PropertyDecl := refuse "property must be [name, type, modes?] or an object"
  match d with
  | .arr [.str n, .str t] => return PropertyDecl.field n (← readDataType t)
  | .arr [.str n, .str t, m] => return { PropertyDecl.field n (← readDataType t) with modes := ← readModes m }
  | .obj _ =>
    let some n := d.str? "name" | shapeFault
    let some t := d.str? "type" | shapeFault
    let dt ← readDataType t
    if (d.get? "get").isSome || (d.get? "set").isSome then
      return PropertyDecl.computed n dt (← readGetter (d.field "get")) (← readSetter (d.field "set"))
    match d.get? "modes" with
    | some m => return { PropertyDecl.field n dt with modes := ← readModes m }
    | none => return PropertyDecl.field n dt
  | _ => shapeFault

/-- The declared types, in order; each may extend one declared before it. -/
def readTypes (d : Doc) : Outcome Types :=
  let step (types : Types) (t : Doc) : Outcome Types := do
    let some name := t.str? "name" | refuse "missing argument name"
    let supertype ← match t.str? "extends" with
      | some s => some <$> findType types s
      | none => pure none
    let props ← (t.field "props").items.mapM readProperty
    return types ++ [{ name, supertype, isAbstract := t.flag "abstract", props }]
  d.items.foldlM step []

/-- `type_info`: what each declared type declares, sees and extends. -/
def typeInfoRequest (req : Doc) : Outcome Doc := do
  let types ← readTypes (req.field "types")
  let lookups := (req.field "lookup").items.filterMap Doc.asStr?
  let debug := req.flag "debug"
  let entries := types.map fun t =>
    let props := t.properties
    let base : List (String × Doc) :=
      [("name", .str t.name), ("abstract", .bool t.isAbstract),
       ("lineage", Doc.strs t.lineage),
       ("subtype_of", Doc.strs ((types.filter t.isSubtypeOf).map (·.name))),
       ("properties", .arr (props.map fun p =>
          .arr [.str p.name, .str p.dataType.debugText, .str p.modes.text, .bool p.isField])),
       ("lookup", .obj (lookups.map fun n =>
          (n, Doc.opt ((t.property? n).map (.str ·.dataType.debugText)))))]
    let extra : List (String × Doc) :=
      if debug then
        [("debug", .str t.debugText), ("display", .str t.name),
         ("decls", .arr (props.map fun p => .arr [.str p.name, .str p.debugText]))]
      else []
    Doc.obj (base ++ extra)
  let distinct := (types.map (·.name)).eraseDups.length
  return .obj ([("types", .arr entries)] ++ (if debug then [("distinct", .nat distinct)] else []))

end GraphViews.Script
