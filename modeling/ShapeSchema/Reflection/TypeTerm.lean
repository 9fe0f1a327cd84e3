import ShapeSchema.Reflection.TypeExpr

/-!
Type expressions as they are written, and their evaluation. What has been subscribed once is not
made anew: later expressions with the same parts are the earlier one, also where they would differ
in the order of a union or in the way in which a number is written. Unions look their members up
among each other, so their members must not contain values for which that is not possible.
-/

namespace ShapeSchema

/-- A type expression as it is written. The labels in its refinements do not matter. -/
inductive TypeTerm where
  | none
  | ellipsis
  | named (head : TypeHead)
  | applied (head : TypeHead) (arguments : List TypeTerm)
  | optional (inner : TypeTerm)
  | union (members : List TypeTerm)
  /-- Type expressions with bars between them. -/
  | bars (members : List TypeTerm)
  | literal (values : List Json)
  | parameter (name : String)
  | annotated (base : TypeTerm) (refinements : List Refinement)
deriving Inhabited

inductive EvaluationError where
  | undefinedName (name : String)
  | unhashable (type : String)
deriving DecidableEq

inductive Subscription where
  | container (head : TypeHead) (arguments : List TypeExpr)
  | union (members : List TypeExpr)
  | annotated (base : TypeExpr) (refinements : List Refinement)

namespace Subscription

def same : Subscription → Subscription → Bool
  | container head arguments, container other others =>
    head = other && TypeExpr.sameAll arguments others
  | union members, union others => TypeExpr.sameAll members others
  | annotated base refinements, annotated other others =>
    (TypeExpr.annotated base refinements).same (.annotated other others)
  | _, _ => false

def unhashable? : Subscription → Option String
  | container _ parts | union parts => TypeExpr.unhashableAmong? parts
  | annotated base refinements => (TypeExpr.annotated base refinements).unhashable?

def make : Subscription → Except EvaluationError TypeExpr
  | container head arguments => .ok (.applyTo head arguments)
  | union members =>
    match TypeExpr.unhashableAmong? members with
    | some type => .error (.unhashable type)
    | none => .ok (.unionOf .named members)
  | annotated base refinements => .ok (.refine base refinements)

end Subscription

/-- What has been evaluated so far: the subscriptions with their results, and the next label of a
refinement. -/
structure Evaluated where
  results : List (Subscription × TypeExpr)
  nextLabel : Nat

namespace Evaluated

def nothing : Evaluated := ⟨[], 0⟩

end Evaluated

abbrev Evaluation := StateT Evaluated (Except EvaluationError)

namespace Evaluation

/-- The result of a subscription: that of an earlier one with the same parts, if there is one. -/
def subscribe (subscription : Subscription) : Evaluation TypeExpr := do
  match (← get).results.find? fun (earlier, _) => earlier.same subscription with
  | some (_, result) => return result
  | none =>
    let result ← subscription.make
    if subscription.unhashable?.isNone then
      modify fun state => { state with results := (subscription, result) :: state.results }
    return result

/-- Type expressions with a bar between them. Plain ones make a union of a style of its own, which
is not looked up among earlier ones. -/
def join (a b : TypeExpr) : Evaluation TypeExpr :=
  match TypeExpr.barStyle a b with
  | .bars => return .unionOf .bars [a, b]
  | .named => subscribe (.union [a, b])

def label (refinements : List Refinement) : Evaluation (List Refinement) :=
  refinements.mapM fun refinement =>
    modifyGet fun state =>
      (refinement.withLabel state.nextLabel, { state with nextLabel := state.nextLabel + 1 })

/-- A head that is named, if the name of a declared class is defined. -/
def lookUp (isDefined : String → Bool) : TypeHead → Evaluation TypeHead
  | .declared name => if isDefined name then return .declared name else throw (.undefinedName name)
  | head => return head

end Evaluation

namespace TypeTerm

open Evaluation

mutual
def evaluate (isDefined : String → Bool) : TypeTerm → Evaluation TypeExpr
  | none => return .none
  | ellipsis => return .ellipsis
  | named head => return .named (← lookUp isDefined head)
  | applied head arguments => do
    let head ← lookUp isDefined head
    let arguments ← evaluateAll isDefined arguments
    match head with
    | .standard _ => return .applyTo head arguments
    | head => subscribe (.container head arguments)
  | optional inner => do subscribe (.union [← evaluate isDefined inner, .noneType])
  | union members => do subscribe (.union (← evaluateAll isDefined members))
  | bars [] => return .union .bars []
  | bars (first :: rest) => do evaluateBars isDefined (← evaluate isDefined first) rest
  | literal values => return .literalOf values
  | parameter name => return .parameter name
  | annotated base refinements => do
    let base ← evaluate isDefined base
    subscribe (.annotated base (← label refinements))

def evaluateAll (isDefined : String → Bool) : List TypeTerm → Evaluation (List TypeExpr)
  | [] => return []
  | first :: rest => do
    let value ← evaluate isDefined first
    return value :: (← evaluateAll isDefined rest)

/-- The value of type expressions with bars between them, given that of what stands before. -/
def evaluateBars (isDefined : String → Bool) (before : TypeExpr) :
    List TypeTerm → Evaluation TypeExpr
  | [] => return before
  | next :: rest => do
    let joined ← join before (← evaluate isDefined next)
    evaluateBars isDefined joined rest
end

end TypeTerm
end ShapeSchema
