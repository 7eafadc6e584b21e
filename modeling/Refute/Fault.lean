import Refute.Value
import Refute.Xorshift

namespace Refute

/-- Settings no run can use. -/
inductive Misconfiguration where
  | examples (count : Int)
  | shrinkCycles (count : Int)
  | attempts (count : Int)
  | minSteps (count : Int)
  | maxSteps (count : Int)
  /-- Neither the number of examples nor the time is limited. -/
  | unlimited
  | stepsReversed (max min : Int)
  | notAnInteger (name raw : String)
  | unknownProfile (name scope : String)
deriving DecidableEq

namespace Misconfiguration

def text : Misconfiguration → String
  | examples count => s!"Examples must be positive or -1, got: {count}"
  | shrinkCycles count => s!"Shrink cycles cannot be negative, got: {count}"
  | attempts count => s!"Generate attempts cannot be negative, got: {count}"
  | minSteps count => s!"Minimum stateful steps cannot be negative, got: {count}"
  | maxSteps count => s!"Maximum stateful steps cannot be negative, got: {count}"
  | unlimited => "Unlimited examples require a positive testing time"
  | stepsReversed max min => s!"Maximum stateful steps {max} is below minimum {min}"
  | notAnInteger name raw => s!"{name} must be an integer, got: " ++ Text.quoted raw
  | unknownProfile name scope => s!"No profile {name} registered for class {scope}"

end Misconfiguration

/-- What can go wrong, by cause. -/
inductive Fault where
  /-- Too many rejected values in one generation. -/
  | exhausted (rejected : Nat)
  | boundsReversed (lo hi : Int)
  | boundsTooWide (lo hi : Int)
  | rangeReversed (lo hi : Int)
  | halfBounded
  /-- No fault that is raised: a draw goes on for ever. -/
  | unreachableRange (lo hi : Int) (endless : Xorshift.Unreachable lo hi)
  | truncation (length : Nat) (wanted : Int)
  | unencodable (value : Int)
  | nothingToPick
  | nothingToWeigh
  | noPositiveWeight
  | noArguments
  /-- A theory without a machine is checked as if it had one. -/
  | noMachine
  /-- What is no step is run or asked as if it were one. -/
  | noStep
  /-- A source is asked to return to a place without a view that marks one. -/
  | noMark
  /-- What is no text is to be shown in a style. -/
  | noText
  | notFalsified
  | profileExists (name scope : String)
  | misconfigured (reason : Misconfiguration)
  | noWorkers
  | timeout (seconds : String)
  | uncountableTimeout
  | negativeTimeout
  | infiniteTime
  | timeNotANumber
  | divisionByZero
  | outOfRange (container : String)
  /-- No word, so no place in any list. -/
  | noPlace
  | illTyped
  /-- Raised by a property, a model or another part that users supply. -/
  | raised (kind : String) (argument : Option Value)
  /-- Raised by the last actions after an earlier fault, and seen in its place. -/
  | during (earlier later : Fault)
deriving DecidableEq

namespace Fault

def kind : Fault → String
  | exhausted _ => "AttemptsExhaustedError"
  | misconfigured _ => "ConfigurationError"
  | divisionByZero => "ZeroDivisionError"
  | outOfRange _ => "IndexError"
  | noPlace => "IndexError"
  | unencodable _ => "struct.error"
  | illTyped => "TypeError"
  | noMachine => "AttributeError"
  | noStep => "AttributeError"
  | noMark => "AttributeError"
  | noText => "AttributeError"
  | uncountableTimeout => "OverflowError"
  | infiniteTime => "OverflowError"
  | raised kind _ => kind
  | during _ later => later.kind
  | _ => "ValueError"

/-- What a fault has to say, normally a text. -/
def argument : Fault → Option Value
  | exhausted _ => "Gave up trying to find values matching assumptions"
  | boundsReversed lo hi => s!"Constraint minimum {lo} exceeds maximum {hi}"
  | boundsTooWide lo hi => s!"Constraint bounds {lo}..{hi} exceed the 64-bit range"
  | rangeReversed lo hi => s!"Invalid range {lo} to {hi}"
  | halfBounded => "Both bounds must be supplied for a bounded draw"
  | unreachableRange lo hi _ => s!"No draw reaches {lo} to {hi}"
  | truncation length wanted => s!"Cannot truncate trace of {length} draws to {wanted}"
  | unencodable value => s!"{value} is outside the 64-bit range"
  | nothingToPick => "Cannot pick from an empty sequence"
  | nothingToWeigh => "List of generators must not be empty"
  | noPositiveWeight => "At least one generator must have a positive weight"
  | noArguments => "At least one generator is required"
  | noMachine => "object is not bound to a machine"
  | noStep => "object is not a step"
  | noMark => "object has no mark"
  | noText => "object is not a text"
  | notFalsified => "No falsifying value was found"
  | profileExists name scope => s!"Profile {name} already exists for class {scope}"
  | misconfigured reason => reason.text
  | noWorkers => "max_workers must be greater than 0"
  | timeout seconds => s!"Timeout must be positive, got: {seconds}"
  | uncountableTimeout => "timeout value is too large"
  | negativeTimeout => "timeout value must be a non-negative number"
  | infiniteTime => "cannot convert float infinity to integer"
  | timeNotANumber => "cannot convert float NaN to integer"
  | divisionByZero => "division by zero"
  | outOfRange container => s!"{container} index out of range"
  | noPlace => "cannot fit 'int' into an index-sized integer"
  | illTyped => "unsupported operand"
  | raised _ argument => argument
  | during _ later => later.argument

/-- Key errors quote their text; a fault that says nothing has an empty message. -/
def message (fault : Fault) : String :=
  match fault.argument with
  | none => ""
  | some v => if fault.kind = "KeyError" then v.quoted else v.render

/-- The fault as the call that would build it. -/
def render (fault : Fault) : String :=
  match fault.argument with
  | none => fault.kind ++ "()"
  | some v => fault.kind ++ "(" ++ v.quoted ++ ")"

def isExhausted : Fault → Bool
  | exhausted _ => true
  | during _ later => later.isExhausted
  | _ => false

/-- Comes of a draw that goes on for ever. Nothing that handles faults gets to see it. -/
def isEndless : Fault → Bool
  | unreachableRange _ _ _ => true
  | during _ later => later.isEndless
  | _ => false

theorem not_exhausted_of_endless {fault : Fault} (h : fault.isEndless = true) :
    fault.isExhausted = false := by
  induction fault with
  | during _ _ _ ih => exact ih h
  | unreachableRange => rfl
  | _ => cases h

end Fault

namespace Value

/-- For places where nothing but a text will do. -/
def needText : Value → Except Fault String
  | text s => .ok s
  | _ => .error .illTyped

mutual

/-- Lists can be changed, and so can tuples with lists in them. -/
def isFixed : Value → Bool
  | list _ => false
  | tuple items => areFixed items
  | _ => true

def areFixed : List Value → Bool
  | [] => true
  | item :: items => item.isFixed && areFixed items

end

/-- For sets, which hold nothing that can be changed. -/
def needFixed (v : Value) : Except Fault Value :=
  if v.isFixed then .ok v else .error .illTyped

/-- Texts with commas between them. -/
def listed (values : List Value) : Except Fault String := do
  return ", ".intercalate (← values.mapM needText)

end Value

end Refute
