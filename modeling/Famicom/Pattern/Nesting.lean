import Famicom.Pattern.Problem
import Famicom.Pattern.Tree

/-!
# Nesting

How deep the parts of a pattern may stand within each other.  Each sequence, choice, repetition,
group and class is one step deeper than what holds it; the first part beyond the limit is a fault.
-/

namespace Famicom.Pattern

/-- The depth inside of a part, unless it is beyond the limit. -/
def deeper (depth : Nat) (span : Span) : Except Problem Nat :=
  if depth < nestingLimit then .ok (depth + 1) else .error ⟨.nesting, span, none⟩

mutual

def ClassTree.checkNesting (depth : Nat) : ClassTree → Except Problem Unit
  | .brackets span _ inside => do
    let depth ← deeper depth span
    inside.checkNesting depth
  | .union span members => do
    let depth ← deeper depth span
    checkMembers depth members
  | .operation _ left right => do
    let depth ← deeper depth ⟨left.span.start, right.span.stop⟩
    left.checkNesting depth
    right.checkNesting depth
  | .nothing _ | .literal _ | .range _ _ | .named _ _ _ | .shorthand _ _ _ | .property _ _ =>
    .ok ()

def checkMembers (depth : Nat) : List ClassTree → Except Problem Unit
  | [] => .ok ()
  | member :: rest => do
    member.checkNesting depth
    checkMembers depth rest

end

mutual

def Tree.checkNesting (depth : Nat) : Tree → Except Problem Unit
  | .brackets span _ inside => do
    let depth ← deeper depth span
    inside.checkNesting depth
  | .repetition span body _ _ => do
    let depth ← deeper depth span
    body.checkNesting depth
  | .group span _ body => do
    let depth ← deeper depth span
    body.checkNesting depth
  | .sequence span items => do
    let depth ← deeper depth span
    checkItems depth items
  | .choice span items => do
    let depth ← deeper depth span
    checkItems depth items
  | .empty _ | .flags _ _ | .element _ => .ok ()

def checkItems (depth : Nat) : List Tree → Except Problem Unit
  | [] => .ok ()
  | item :: rest => do
    item.checkNesting depth
    checkItems depth rest

end

end Famicom.Pattern
