import GraphViews.Script.Values
/-!
Contexts in requests.

`{"options": {...}, "converters": [...], "registries": [...], "factories": [...],
"managers": [...], "listener": {...}, "listeners": [...], "recorder": bool?}`. The options
start from a base (`default`, `new` or `lenient`); the collaborators are added in the order
listed, then the extra listeners, then the recorder unless `recorder` is false.
-/

namespace GraphViews.Script

/-- Options from a base and the fields that change it. -/
def readOptions (d : Doc) : Outcome Options := do
  let base ← match d.str? "base" with
    | none | some "default" | some "new" => pure ({} : Options)
    | some "lenient" => pure Options.lenient
    | some b => refuse ("unknown options base " ++ q b)
  let o := match d.get? "ignore_unknown" with
    | some (.bool b) => { base with ignoreUnknown := b }
    | _ => base
  let o := match d.get? "omit_nulls" with
    | some (.bool b) => { o with omitNulls := b }
    | _ => o
  let o := match (d.field "max_depth").asNat? with
    | some n => { o with maxDepth := n }
    | none => o
  return o

/-- The settings of the recorder. -/
def readRecorder (d : Doc) : Recorder :=
  { veto := (d.field "veto").items.filterMap Doc.asStr?,
    visits := d.flag "visits",
    extractUpper := d.flag "extract_upper",
    unchanged := (d.field "unchanged").items.filterMap Doc.asStr?,
    keepNull := match d.str? "keep_null" with
      | some "all" => .all
      | some "objects" => .objects
      | _ => .never }

/-- A registry with its objects; with `report`, its size is journaled. -/
def readRegistry (types : Types) (d : Doc) : Setup Registry := do
  let t ← Setup.ofOutcome (findType types ((d.str? "type").getD ""))
  let key := (d.str? "key").getD ""
  let objects ← (d.field "objects").items.mapM fun o => do
    match ← readValue types o with
    | .object h => pure [h]
    | _ => pure []
  let objects := objects.flatten
  if d.flag "report" then
    let entry := "registry " ++ t.name ++ "." ++ key ++ " len=" ++ toString objects.length ++
      " empty=" ++ toString objects.isEmpty
    modify fun s => { s with journal := s.journal.push entry }
  return { type := t, key, objects, probe := d.flag "probe", refuse := d.flag "fail" }

def readFactory (types : Types) (d : Doc) : Outcome ObjectFactory := do
  let make ← match d.str? "make" with
    | some u => some <$> findType types u
    | none => pure none
  return { typeName := (d.str? "for").getD "", make }

/-- A listener named in `listeners`; a counter gets a fresh identity. -/
def readListener (d : Doc) : Setup Listener := do
  match d with
  | .str "counter" => return .counter (← modifyGet RunState.freshId)
  | .str "plain" => return .plain
  | .str s => Setup.ofOutcome (refuse ("unknown listener " ++ q s))
  | _ => Setup.ofOutcome (refuse "unknown listener")

/-- A context from its spec and options. -/
def readContextWith (types : Types) (options : Options) (d : Doc) : Setup Context := do
  let converters ← Setup.ofOutcome ((d.field "converters").items.mapM readConverter)
  let resolvers ← (d.field "registries").items.mapM (readRegistry types)
  let factories ← Setup.ofOutcome ((d.field "factories").items.mapM (readFactory types))
  let managers ← (d.field "managers").items.mapM readManager
  let extra ← (d.field "listeners").items.mapM readListener
  let recorder := match d.get? "recorder" with
    | some (.bool false) => []
    | _ => [Listener.recorder (readRecorder (d.field "listener"))]
  return { options, converters, resolvers, factories, managers, listeners := extra ++ recorder }

/-- A context from its spec. -/
def readContext (types : Types) (d : Doc) : Setup Context := do
  let options ← Setup.ofOutcome (readOptions (d.field "options"))
  readContextWith types options d

/-- The first counting listener of a context. -/
def counterOf (ctx : Context) : Option Nat :=
  ctx.listeners.findSome? fun
    | .counter id => some id
    | _ => none

end GraphViews.Script
