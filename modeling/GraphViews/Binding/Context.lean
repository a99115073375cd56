import GraphViews.Template.Node
import GraphViews.Binding.Staged
/-!
The context of a generation or application: options, the frames of the scope being walked,
and the collaborators the library leaves to its user.

Frames give errors their place. The view path joins `/name` for named frames and `/index`
for indexed ones, outermost first; anonymous frames add nothing, and the empty path is `/`.
The model path lists the types of the typed frames, outermost first.
-/

namespace GraphViews

/-- Options of a run. -/
structure Options where
  ignoreUnknown : Bool := false
  omitNulls : Bool := false
  maxDepth : Nat := 256
deriving Inhabited

/-- The ignore-unknown option set: unknown properties are skipped. -/
def Options.lenient : Options := { ignoreUnknown := true }

def Options.debugText (o : Options) : String :=
  "ViewOptions \x7b ignore_unknown_properties: " ++ toString o.ignoreUnknown ++
    ", omit_null_values: " ++ toString o.omitNulls ++ ", max_depth: " ++ toString o.maxDepth ++
    " \x7d"

/-- One level of the scope. -/
structure Frame where
  name : Option String := none
  index : Option Nat := none
  modelType : Option ModelType := none
  model : Value := .null
  attributes : List (String × Value) := []
deriving Inhabited

namespace Frame

def named (name : Option String) (t : Option ModelType := none) : Frame := { name, modelType := t }

def indexed (i : Nat) (t : Option ModelType := none) : Frame := { index := some i, modelType := t }

/-- A frame named by the display text of a key. -/
def keyed (k : Scalar) (t : Option ModelType := none) : Frame := { name := some k.text, modelType := t }

/-- What the frame adds to the view path. -/
def step (f : Frame) : String :=
  match f.name, f.index with
  | some n, _ => "/" ++ n
  | none, some i => "/" ++ toString i
  | none, none => ""

end Frame

/-- When the recorder keeps a property unchanged instead of writing a null. -/
inductive KeepNull where
  | never
  | all
  | objects
deriving DecidableEq, Inhabited

/-- Settings of the recording listener. -/
structure Recorder where
  veto : List String := []
  visits : Bool := false
  extractUpper : Bool := false
  unchanged : List String := []
  keepNull : KeepNull := .never
deriving Inhabited

/-- A listener of a run. -/
inductive Listener where
  /-- counts created and discarded objects under its identity -/
  | counter (id : Nat)
  /-- overrides nothing -/
  | plain
  /-- logs what happens and steers values -/
  | recorder (r : Recorder)
deriving Inhabited

/-- Makes objects of one type name: a new object of `make`, or a refusal without it. -/
structure ObjectFactory where
  typeName : String
  make : Option ModelType := none
deriving Inhabited

/-- Objects of a type, found by the scalar of a key property. With `probe`, every lookup is
journaled first, and with `refuse` it then fails. -/
structure Registry where
  type : ModelType
  key : String
  objects : List Handle := []
  probe : Bool := false
  refuse : Bool := false
deriving Inhabited

/-- The context of a run. Frames are innermost first. -/
structure Context where
  options : Options := {}
  frames : List Frame := []
  converters : List Converter := []
  resolvers : List Registry := []
  managers : List ManagerFactory := []
  factories : List ObjectFactory := []
  listeners : List Listener := []
deriving Inhabited

namespace Context

def push (c : Context) (f : Frame) : Context := { c with frames := f :: c.frames }

def depth (c : Context) : Nat := c.frames.length

/-- Removes the innermost frame and returns it. -/
def pop (c : Context) : Option Frame × Context :=
  match c.frames with
  | f :: fs => (some f, { c with frames := fs })
  | [] => (none, c)

/-- Sets an attribute of the innermost frame; without a frame nothing changes. -/
def putAttribute (c : Context) (name : String) (v : Value) : Context :=
  match c.frames with
  | f :: fs => { c with frames := { f with attributes := writeSlot f.attributes name v } :: fs }
  | [] => c

/-- An attribute, looked up from the innermost frame outwards. -/
def attribute? (c : Context) (name : String) : Option Value :=
  c.frames.findSome? fun f => f.attributes.lookup name

def viewPath (c : Context) : String :=
  let p := String.join (c.frames.reverse.map Frame.step)
  if p.isEmpty then "/" else p

def modelPath (c : Context) : List String :=
  c.frames.reverse.filterMap fun f => f.modelType.map (·.name)

/-- An error at the current place. -/
def error (c : Context) (k : ViewErrorKind) : ViewError := ⟨k, c.viewPath, c.modelPath⟩

/-- The first converter that handles a kind. -/
def converterFor (c : Context) (k : ScalarKind) : Option Converter := c.converters.find? (·.supports k)

def debugText (c : Context) : String :=
  "ViewContext \x7b options: " ++ c.options.debugText ++ ", path: " ++ Text.quoted c.viewPath ++
    ", converters: " ++ toString c.converters.length ++ ", resolvers: " ++
    toString c.resolvers.length ++ ", managers: " ++ toString c.managers.length ++
    ", factories: " ++ toString c.factories.length ++ ", listeners: " ++
    toString c.listeners.length ++ " \x7d"

/-- Passes a value read from the model through every listener. -/
def didExtractValue (ctx : Context) (v : Scalar) : Scalar :=
  let step (v : Scalar) (l : Listener) : Scalar :=
    match l, v with
    | .recorder r, .string s => if r.extractUpper then .string (Text.upperText s) else v
    | _, _ => v
  ctx.listeners.foldl step v

/-- Passes a value about to be written through every listener; none leaves the property
unchanged. -/
def willInjectValue (ctx : Context) (n : Node) (v : Scalar) : Option Scalar :=
  let step (v : Scalar) (l : Listener) : Option Scalar :=
    match l with
    | .recorder r =>
      if (n.name.map r.unchanged.contains).getD false then none
      else if v.isNull && r.keepNull == .all then none
      else if v.isNull && r.keepNull == .objects && n.kind != .value then none
      else some v
    | _ => some v
  ctx.listeners.foldlM step v

end Context

end GraphViews
