import ShapeSchema.Schema.Cache
import ShapeSchema.Settings
import ShapeSchema.Shape.Substitution

/-!
Sessions: builders that answer one request after another and keep derived schemas in between. A
builder has a cache of its own, shares one with others, or has none.
-/

namespace ShapeSchema

/-- A builder: what its structs admit, and which cache of the session it uses. -/
structure Builder where
  strict : Bool
  cache? : Option Nat
deriving DecidableEq

inductive Request where
  /-- Derive a schema, after parameters are replaced. -/
  | build (root : Shape) (constraints : Constraints) (bindings : Bindings)
  /-- Forget what is kept. -/
  | clear

inductive Reply where
  | schema (doc : Document)
  | refused (error : SchemaError)
  | cleared

def Reply.ofResult : Except SchemaError Document → Reply
  | .ok doc => schema doc
  | .error error => refused error

structure Session where
  builders : List Builder
  caches : List Cache

/-- Whether a node belongs to a graph and not only to one that extends it. -/
def Graph.owns (graph : Graph) : Shape → Bool
  | .declared index => index < graph.declarations.size
  | .newtype label .. | .generic label _ | .optional label _ | .array label _ | .set label _
  | .fixedArray label .. | .map label .. => label < graph.labels
  | _ => true

namespace Session

/-- Builders that share one cache, whatever their settings say. -/
def shared (settings : List DeriveSettings) : Session where
  builders := settings.map fun s => ⟨s.strictObjects, some 0⟩
  caches := [.empty]

/-- Builders with a cache of their own each, unless their settings refuse one. -/
def separate (settings : List DeriveSettings) : Session where
  builders := settings.mapIdx fun index s =>
    ⟨s.strictObjects, if s.cacheEnabled then some index else none⟩
  caches := settings.map fun _ => .empty

def cacheOf? (session : Session) (builder : Builder) : Option Cache :=
  builder.cache?.bind (session.caches[·]?)

/-- The session with another cache for a builder, if it has one. -/
def withCache (session : Session) (builder : Builder) (cache? : Option Cache) : Session :=
  match builder.cache?, cache? with
  | some index, some cache => { session with caches := session.caches.set index cache }
  | _, _ => session

def retain (session : Session) (alive : Shape → Bool) : Session :=
  { session with caches := session.caches.map (·.retain alive) }

/-- What a builder answers to a request over a graph, and the session afterwards. -/
def answer (session : Session) (graph : Graph) (builder : Builder) : Request → Reply × Session
  | .build root constraints bindings =>
    let (shape, graph) := graph.substitute bindings root
    let context : Context := ⟨graph, builder.strict⟩
    let (result, cache?) := context.deriveWith (session.cacheOf? builder) shape constraints
    (.ofResult result, session.withCache builder cache?)
  | .clear => (.cleared, session.withCache builder (some .empty))

/-- Answers a request over a graph that may have more nodes than a lasting one, and drops what is
kept of nodes that do not last. -/
def serve (session : Session) (lasting graph : Graph) (builder : Builder) (request : Request) :
    Reply × Session :=
  let (reply, next) := session.answer graph builder request
  (reply, next.retain lasting.owns)

/-- The answers to requests over one graph, in order, and the session afterwards. -/
def run (graph : Graph) : (session : Session) → List (Builder × Request) → List Reply × Session
  | session, [] => ([], session)
  | session, (builder, request) :: rest =>
    let (reply, next) := session.serve graph graph builder request
    let (replies, final) := run graph next rest
    (reply :: replies, final)

end Session

/-- The schema of a shape with constraints, after parameters are replaced, under given settings. -/
def Graph.derive (graph : Graph) (settings : DeriveSettings) (root : Shape) (c : Constraints)
    (bindings : Bindings) : Except SchemaError Document :=
  let (shape, graph) := graph.substitute bindings root
  let context : Context := ⟨graph, settings.strictObjects⟩
  if settings.cacheEnabled then (context.deriveWith (some .empty) shape c).1
  else context.derive? shape c

end ShapeSchema
