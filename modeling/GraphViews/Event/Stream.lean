import GraphViews.Event.Basic
/-!
Checked writing and reading of views.

Both sides keep the stack of open containers. A begin is refused when the stack is already
as deep as the limit; an end must close the innermost open begin of its family; and a view
must end with nothing open. The reader also gives every event the namespace it inherits:
its own, else that of the innermost open container that has one.

A failed step keeps what it did before failing: an end that does not close the innermost
container has popped it already, and neither side records the refused event. The writer's
`push` therefore returns the writer after the step together with the outcome, and the
reader runs in `EStateM`, whose errors carry the state.
-/

namespace GraphViews

/-- A structural error in an event stream. -/
inductive StreamError where
  | unexpectedEnd (context : String)
  | unexpectedEvent (expected : String) (found : EventKind)
  | mismatchedEnd (opened : EventKind) (found : EventKind)
  | unmatchedEnd (found : EventKind)
  | unterminated (openCount : Nat)
  | trailingEvents (count : Nat)
  | anonymousProperty (found : EventKind)
  | depthExceeded (max : Nat)
deriving Repr, Inhabited

namespace StreamError

/-- The message of a stream error. -/
def message : StreamError → String
  | unexpectedEnd c => "unexpected end of view while reading " ++ c
  | unexpectedEvent x f => "expected " ++ x ++ " but found " ++ f.text
  | mismatchedEnd o f => f.text ++ " does not close " ++ o.text
  | unmatchedEnd f => f.text ++ " has no matching begin"
  | unterminated n => "view ended with " ++ Number.digitText n ++ " unclosed container(s)"
  | trailingEvents n => Number.digitText n ++ " trailing event(s) after the root"
  | anonymousProperty f => "anonymous " ++ f.text ++ " inside an object"
  | depthExceeded m => "nesting depth exceeds maximum " ++ Number.digitText m

/-- The name of the kind of error. -/
def kindName : StreamError → String
  | unexpectedEnd .. => "UnexpectedEnd"
  | unexpectedEvent .. => "UnexpectedEvent"
  | mismatchedEnd .. => "MismatchedEnd"
  | unmatchedEnd .. => "UnmatchedEnd"
  | unterminated .. => "Unterminated"
  | trailingEvents .. => "TrailingEvents"
  | anonymousProperty .. => "AnonymousProperty"
  | depthExceeded .. => "DepthExceeded"

end StreamError

-- ============================================================ writing

/-- Collects events into a view, checking begin/end pairing. -/
structure Writer where
  events : Array Event := #[]
  /-- open containers, innermost first -/
  stack : List EventKind := []
  maxDepth : Nat
deriving Inhabited

namespace Writer

/-- Appends an event: the writer after the step, and whether the event was accepted. -/
def step (w : Writer) (e : Event) : Writer × Except StreamError Unit :=
  if e.kind.isBegin then
    if w.stack.length ≥ w.maxDepth then (w, .error (.depthExceeded w.maxDepth))
    else ({ w with events := w.events.push e, stack := e.kind :: w.stack }, .ok ())
  else if e.kind.isEnd then
    match w.stack with
    | [] => (w, .error (.unmatchedEnd e.kind))
    | o :: rest =>
      if o.complement != some e.kind then ({ w with stack := rest }, .error (.mismatchedEnd o e.kind))
      else ({ w with events := w.events.push e, stack := rest }, .ok ())
  else ({ w with events := w.events.push e }, .ok ())

/-- Appends an event, failing as `step` does. -/
def push (w : Writer) (e : Event) : Except StreamError Writer :=
  let (w', r) := w.step e
  r.map (fun _ => w')

/-- The number of open containers. -/
def depth (w : Writer) : Nat := w.stack.length

/-- The view written, if nothing is left open. -/
def finish (w : Writer) : Except StreamError View :=
  if w.stack.isEmpty then .ok w.events else .error (.unterminated w.stack.length)

end Writer

-- ============================================================ reading

/-- A position in a view, with the open containers and their namespaces. -/
structure Cursor where
  events : View
  pos : Nat := 0
  /-- open containers with their effective namespaces, innermost first -/
  stack : List (EventKind × Option String) := []
  maxDepth : Nat
deriving Inhabited

/-- Reading a view: a cursor that keeps its state across errors. -/
abbrev Reading := EStateM StreamError Cursor

namespace Cursor

/-- All events consumed. -/
def isEmpty (c : Cursor) : Bool := c.pos ≥ c.events.size

def depth (c : Cursor) : Nat := c.stack.length

/-- The next event, not consumed. -/
def peek (c : Cursor) : Option Event := c.events[c.pos]?

/-- The effective namespace of the innermost open container. -/
def innerNamespace (c : Cursor) : Option String :=
  match c.stack with
  | (_, ns) :: _ => ns
  | [] => none

/-- The namespace of an event read at the current position. -/
def effectiveNamespace (c : Cursor) (e : Event) : Option String :=
  e.ns.orElse (fun _ => c.innerNamespace)

end Cursor

/-- Consumes the next event; `context` names what was being read when the view ends. -/
def Reading.next (context : String) : Reading Event := do
  let c ← get
  match c.events[c.pos]? with
  | none => throw (.unexpectedEnd context)
  | some e =>
    if e.kind.isBegin then
      if c.stack.length ≥ c.maxDepth then throw (.depthExceeded c.maxDepth)
      set { c with pos := c.pos + 1, stack := (e.kind, c.effectiveNamespace e) :: c.stack }
      return e
    else if e.kind.isEnd then
      match c.stack with
      | [] => throw (.unmatchedEnd e.kind)
      | (o, _) :: rest =>
        if o.complement != some e.kind then
          set { c with stack := rest }
          throw (.mismatchedEnd o e.kind)
        else
          set { c with pos := c.pos + 1, stack := rest }
          return e
    else
      set { c with pos := c.pos + 1 }
      return e

/-- Consumes the next event, which must be of the given kind; `expected` names it. -/
def Reading.expect (kind : EventKind) (expected : String) : Reading Event := do
  let e ← Reading.next expected
  if e.kind != kind then throw (.unexpectedEvent expected e.kind)
  return e

/-- Consumes events while more than `start` containers are open, at most `fuel` of them. -/
def Reading.closeTo (start : Nat) (context : String) : Nat → Reading Unit
  | 0 => pure ()
  | fuel + 1 => do
    if (← get).stack.length > start then
      let _ ← Reading.next context
      Reading.closeTo start context fuel

/-- Consumes the next event and, if it begins a container, everything up to and including
the matching end. -/
def Reading.skip (context : String) : Reading Unit := do
  let c ← get
  let first ← Reading.next context
  if first.kind.isBegin then
    Reading.closeTo c.stack.length context c.events.size

/-- Like `skip`, returning the events consumed. -/
def Reading.subtree (context : String) : Reading View := do
  let from_ := (← get).pos
  Reading.skip context
  let c ← get
  return c.events.extract from_ c.pos

/-- Checks that the view is balanced and fully consumed. -/
def Reading.finish : Reading Unit := do
  let c ← get
  if !c.stack.isEmpty then throw (.unterminated c.stack.length)
  if c.pos < c.events.size then throw (.trailingEvents (c.events.size - c.pos))

end GraphViews
