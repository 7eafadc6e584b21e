import Refute.Script.Generator

namespace Refute.Script

namespace Operator

def names : List (String × Operator) :=
  [("add", add), ("sub", sub), ("mul", mul), ("div", div), ("mod", mod), ("neg", neg),
    ("abs", abs), ("min", min), ("max", max), ("eq", eq), ("ne", ne), ("lt", lt), ("le", le),
    ("gt", gt), ("ge", ge), ("not", not), ("list", list), ("tuple", tuple), ("len", len),
    ("at", .at), ("sum", sum), ("sorted", sorted), ("rev", rev), ("cat", cat), ("str", str)]

end Operator

namespace Quantifier

def names : List (String × Quantifier) :=
  [("all", all), ("any", any), ("each", each), ("filter", filter)]

end Quantifier

namespace Term

mutual

def ofWritten? : Value → Option Term
  | .list (.text name :: args) =>
    match name, args with
    | "v", [.text x] => some (var x)
    | "if", [c, x, y] => do return ite (← ofWritten? c) (← ofWritten? x) (← ofWritten? y)
    | "and", args => do return and (← allOfWritten? args)
    | "or", args => do return or (← allOfWritten? args)
    | "raise", [kind, argument] => do
      return raise (← ofWritten? kind) (← ofWritten? argument)
    | "draw", [lo, hi] => do return draw (← ofWritten? lo) (← ofWritten? hi) none
    | "draw", [lo, hi, t] => do
      return draw (← ofWritten? lo) (← ofWritten? hi) (some (← ofWritten? t))
    | "reject", [] => some reject
    | name, args =>
      match Operator.names.lookup name with
      | some op => do return apply op (← allOfWritten? args)
      | none =>
        match Quantifier.names.lookup name, args with
        | some q, [collection, .text x, body] => do
          return quantify q (← ofWritten? collection) x (← ofWritten? body)
        | _, _ => none
  | .list _ => none
  | .tuple _ => none
  | v => some (value v)

def allOfWritten? : List Value → Option (List Term)
  | [] => some []
  | v :: vs => do return (← ofWritten? v) :: (← allOfWritten? vs)

end

/-- A fault is written as a kind and what it says, or none. -/
def faultOfWritten? : List Value → Option Fault
  | [kind, argument] => some (raised kind argument)
  | _ => none

end Term

namespace BoundsTerm

def ofWritten? : Value → Option BoundsTerm
  | .list [.text "new", lo, hi] => do
    return make (← Term.ofWritten? lo) (← Term.ofWritten? hi) none
  | .list [.text "new", lo, hi, t] => do
    return make (← Term.ofWritten? lo) (← Term.ofWritten? hi) (some (← Term.ofWritten? t))
  | .list [.text "between", lo, hi] => do
    return between (← Term.ofWritten? lo) (← Term.ofWritten? hi)
  | .list [.text "none"] => some any
  | .list [.text "01"] => some bit
  | _ => none

end BoundsTerm

namespace Generator

/-- Generators that are made from terms alone. -/
def ofTerms? (name : String) (args : List Value) : Option Generator :=
  match name, args with
  | "const", [e] => do return const (← Term.ofWritten? e)
  | "counter", [n] => do return counter (← Term.ofWritten? n)
  | "range_nsp", [lo, hi] => do
    return rangeTargetless (← Term.ofWritten? lo) (← Term.ofWritten? hi)
  | "pick", [.list es] => do return pick false (← Term.allOfWritten? es)
  | "pick_nsp", [.list es] => do return pick true (← Term.allOfWritten? es)
  | "bool", [] => some bool
  | "draw", [b] => do return draw (← BoundsTerm.ofWritten? b)
  | name, lo :: hi :: target => do
    guard (name = "range" || name = "long_range")
    let lo ← Term.ofWritten? lo
    let hi ← Term.ofWritten? hi
    match target with
    | [] => return range lo hi none
    | [t] => return range lo hi (some (← Term.ofWritten? t))
    | _ => none
  | _, _ => none

mutual

def ofWritten? : Value → Option Generator
  | .list (.text name :: args) =>
    match name, args with
    | "one_of", gs => do return oneOf (← allOfWritten? gs)
    | "freq", [.list choices] => do
      let (weights, gens) ← weightedOfWritten? choices
      return frequency false weights gens
    | "freq_nsp", [.list choices] => do
      let (weights, gens) ← weightedOfWritten? choices
      return frequency true weights gens
    | "lists", [g, sizes] => do return lists (← ofWritten? g) (← ofWritten? sizes)
    | "tuples", gs => do return tuples (← allOfWritten? gs)
    | "map", [g, f] => do return map (← ofWritten? g) (← Term.ofWritten? f)
    | "map2", [g, f] => do return map2 (← ofWritten? g) (← Term.ofWritten? f)
    | "map3", [g, f] => do return map3 (← ofWritten? g) (← Term.ofWritten? f)
    | "mutate", [g, f] => do return mutate (← ofWritten? g) (← Term.ofWritten? f)
    | "flat_map", [g, .text x, h] => do return flatMap (← ofWritten? g) x (← ofWritten? h)
    | "zip", [g, h, f] => do
      return zip (← ofWritten? g) (← ofWritten? h) (← Term.ofWritten? f)
    | "zip3", [g, h, i, f] => do
      return zip3 (← ofWritten? g) (← ofWritten? h) (← ofWritten? i) (← Term.ofWritten? f)
    | "assuming", [g, f] => do return assuming (← ofWritten? g) (← Term.ofWritten? f)
    | "mix", [g, h] => do return mix (← ofWritten? g) (← ofWritten? h) none
    | "mix", [g, h, w] => do
      return mix (← ofWritten? g) (← ofWritten? h) (some (← Term.ofWritten? w))
    | "optional", [g, percent] => do return optional (← ofWritten? g) (← Term.ofWritten? percent)
    | "described", [g, f] => do return described (← ofWritten? g) (← Term.ofWritten? f)
    | name, args => ofTerms? name args
  | _ => none

def allOfWritten? : List Value → Option (List Generator)
  | [] => some []
  | v :: vs => do return (← ofWritten? v) :: (← allOfWritten? vs)

def weightedOfWritten? : List Value → Option (List Term × List Generator)
  | [] => some ([], [])
  | .list [weight, g] :: choices => do
    let weight ← Term.ofWritten? weight
    let g ← ofWritten? g
    let (weights, gens) ← weightedOfWritten? choices
    return (weight :: weights, g :: gens)
  | _ => none

end

end Generator

end Refute.Script
