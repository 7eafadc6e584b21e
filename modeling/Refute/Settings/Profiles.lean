import Refute.Settings.Basic

namespace Refute

/-- A class is a scope of its own beside a text of the same name. -/
inductive Scope where
  | text (name : String)
  | number (n : Int)
  | ofClass (name : String)
deriving DecidableEq

namespace Scope

def render : Scope → String
  | text name => name
  | number n => toString n
  | ofClass name => name

end Scope

abbrev Profile (μ : Type) := Settings μ → Except Fault (Settings μ)

/-- Named changes of settings, each registered once under a scope and a name. -/
structure Profiles (μ : Type) where
  entries : List ((Scope × String) × Profile μ)

namespace Profiles

def defaultName : String := "default"

def empty : Profiles μ :=
  ⟨[]⟩

def get? (p : Profiles μ) (scope : Scope) (name : String) : Option (Profile μ) :=
  p.entries.lookup (scope, name)

def register (p : Profiles μ) (scope : Scope) (name : String) (profile : Profile μ) :
    Except Fault (Profiles μ) :=
  match p.get? scope name with
  | some _ => .error (.profileExists name scope.render)
  | none => .ok ⟨((scope, name), profile) :: p.entries⟩

def apply (p : Profiles μ) (scope : Scope) (name : String) : Profile μ := fun settings =>
  match p.get? scope name with
  | some profile => profile settings
  | none => .error (.misconfigured (.unknownProfile name scope.render))

/-- Without a default profile the settings stay as they are. -/
def applyDefault (p : Profiles μ) (scope : Scope) : Profile μ := fun settings =>
  match p.get? scope defaultName with
  | some profile => profile settings
  | none => .ok settings

end Profiles

end Refute
