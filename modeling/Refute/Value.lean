import Refute.Text.Quoted

namespace Refute

/-- How a value is written where its generator has nothing to add. -/
class Display (α : Type) where
  display : α → String

export Display (display)

/-- What users' code hands over and is told. Inside lists and tuples texts are quoted. -/
inductive Value where
  | none
  | bool (b : Bool)
  | int (n : Int)
  | text (s : String)
  | list (items : List Value)
  | tuple (items : List Value)
deriving Inhabited

namespace Value

instance : Coe String Value := ⟨text⟩

mutual

/-- Equal in kind and content. -/
def same : Value → Value → Bool
  | none, none => true
  | bool a, bool b => a == b
  | int a, int b => a == b
  | text a, text b => a == b
  | list as, list bs => sameItems as bs
  | tuple as, tuple bs => sameItems as bs
  | _, _ => false

def sameItems : List Value → List Value → Bool
  | [], [] => true
  | a :: as, b :: bs => same a b && sameItems as bs
  | _, _ => false

end

mutual

theorem same_iff : ∀ {a b : Value}, same a b ↔ a = b
  | none, b => by cases b <;> simp [same]
  | bool _, b => by cases b <;> simp [same]
  | int _, b => by cases b <;> simp [same]
  | text _, b => by cases b <;> simp [same]
  | list as, b => by cases b <;> simp [same, @sameItems_iff as _]
  | tuple as, b => by cases b <;> simp [same, @sameItems_iff as _]

theorem sameItems_iff : ∀ {as bs : List Value}, sameItems as bs ↔ as = bs
  | [], bs => by cases bs <;> simp [sameItems]
  | a :: as, bs => by
    cases bs <;> simp [sameItems, @same_iff a _, @sameItems_iff as _]

end

instance : DecidableEq Value := fun _ _ =>
  decidable_of_iff _ same_iff

/-- Truth values count as the numbers zero and one. -/
def number? : Value → Option Int
  | bool b => some (if b then 1 else 0)
  | int n => some n
  | _ => Option.none

mutual

/-- Equal as states: truth values are numbers. -/
def agrees : Value → Value → Bool
  | none, none => true
  | text a, text b => a == b
  | list as, list bs => agreeItems as bs
  | tuple as, tuple bs => agreeItems as bs
  | bool a, bool b => a == b
  | bool a, int b => (if a then 1 else 0) == b
  | int a, bool b => a == (if b then 1 else 0)
  | int a, int b => a == b
  | _, _ => false

def agreeItems : List Value → List Value → Bool
  | [], [] => true
  | a :: as, b :: bs => agrees a b && agreeItems as bs
  | _, _ => false

end

instance : BEq Value := ⟨agrees⟩

mutual

/-- With numbers in place of truth values, at every depth. -/
def counted : Value → Value
  | bool b => int (if b then 1 else 0)
  | list items => list (countedItems items)
  | tuple items => tuple (countedItems items)
  | other => other

def countedItems : List Value → List Value
  | [] => []
  | item :: items => counted item :: countedItems items

end

mutual

theorem agrees_iff : ∀ {a b : Value}, agrees a b ↔ a.counted = b.counted
  | none, b => by cases b <;> simp [agrees, counted]
  | bool a, b => by
    cases b with
    | bool b => cases a <;> cases b <;> simp [agrees, counted]
    | _ => simp [agrees, counted]
  | int _, b => by cases b <;> simp [agrees, counted]
  | text _, b => by cases b <;> simp [agrees, counted]
  | list as, b => by cases b <;> simp [agrees, counted, @agreeItems_iff as _]
  | tuple as, b => by cases b <;> simp [agrees, counted, @agreeItems_iff as _]

theorem agreeItems_iff : ∀ {as bs : List Value},
    agreeItems as bs ↔ countedItems as = countedItems bs
  | [], bs => by cases bs <;> simp [agreeItems, countedItems]
  | a :: as, bs => by
    cases bs <;> simp [agreeItems, countedItems, @agrees_iff a _, @agreeItems_iff as _]

end

instance : EquivBEq Value where
  rfl := agrees_iff.mpr rfl
  symm h := agrees_iff.mpr (agrees_iff.mp h).symm
  trans h h' := agrees_iff.mpr ((agrees_iff.mp h).trans (agrees_iff.mp h'))

mutual

/-- Numbers by size, texts by code points, lists and tuples by their first difference; values of
different kinds are not ordered among each other. -/
def order? : Value → Value → Option Ordering
  | text a, text b => some (compare a b)
  | list as, list bs => orderItems? as bs
  | tuple as, tuple bs => orderItems? as bs
  | a, b => do return compare (← a.number?) (← b.number?)

def orderItems? : List Value → List Value → Option Ordering
  | [], [] => some .eq
  | [], _ :: _ => some .lt
  | _ :: _, [] => some .gt
  | a :: as, b :: bs => if agrees a b then orderItems? as bs else order? a b

end

/-- Not greater, as far as the two are ordered. -/
def le (a b : Value) : Bool :=
  a.order? b ≠ some .gt

/-- Zero and what is empty count as false. -/
def isTrue : Value → Bool
  | none => false
  | bool b => b
  | int n => n ≠ 0
  | text s => !s.isEmpty
  | list items => !items.isEmpty
  | tuple items => !items.isEmpty

mutual

def quoted : Value → String
  | none => "None"
  | bool b => if b then "True" else "False"
  | int n => toString n
  | text s => Text.quoted s
  | list items => "[" ++ ", ".intercalate (quotedItems items) ++ "]"
  | tuple items =>
    match quotedItems items with
    | [only] => "(" ++ only ++ ",)"
    | texts => "(" ++ ", ".intercalate texts ++ ")"

def quotedItems : List Value → List String
  | [] => []
  | item :: items => quoted item :: quotedItems items

end

/-- A text stands for itself; all else is written as within a list. -/
def render : Value → String
  | text s => s
  | other => other.quoted

instance : Display Value := ⟨render⟩

instance : Display Int := ⟨fun n => toString n⟩

/-- What lists, tuples and, letter by letter, texts hold. -/
def items? : Value → Option (List Value)
  | list items => some items
  | tuple items => some items
  | text s => some (s.toList.map fun c => text (String.singleton c))
  | _ => Option.none

/-- Numbers are added; what holds items goes before its like. -/
def plus? : Value → Value → Option Value
  | text s, text t => some (text (s ++ t))
  | list xs, list ys => some (list (xs ++ ys))
  | tuple xs, tuple ys => some (tuple (xs ++ ys))
  | x, y => do return int ((← x.number?) + (← y.number?))

/-- So many copies of a list, tuple or text, one after another. -/
def copies? (count : Nat) : Value → Option Value
  | text s => some (text (String.join (List.replicate count s)))
  | list xs => some (list (List.replicate count xs).flatten)
  | tuple xs => some (tuple (List.replicate count xs).flatten)
  | _ => Option.none

/-- Numbers are multiplied; a number and what holds items make copies. -/
def times? (x y : Value) : Option Value :=
  match x.number?, y.number? with
  | some m, some n => some (int (m * n))
  | some m, Option.none => y.copies? m.toNat
  | Option.none, some n => x.copies? n.toNat
  | Option.none, Option.none => Option.none

def container : Value → String
  | text _ => "string"
  | tuple _ => "tuple"
  | _ => "list"

end Value

end Refute
