import ShapeSchema.Shape.Kind

/-!
The settings of a derivation and of the command line, with their defaults.
-/

namespace ShapeSchema

/-- The kinds that a plain whole number can stand for. -/
inductive IntKind where
  | i32 | i64
deriving DecidableEq, Inhabited

/-- The scalar kind that a plain whole number stands for. -/
def IntKind.kind : IntKind → PrimitiveKind
  | i32 => .i32
  | i64 => .i64

structure DeriveSettings where
  /-- Whether structs refuse further properties unless they ask for them. -/
  strictObjects : Bool
  /-- Whether derived schemas are kept for reuse. -/
  cacheEnabled : Bool
  /-- What a plain whole number stands for. -/
  defaultIntKind : IntKind
deriving DecidableEq

/-- Strict objects, a cache, and 64 bits for whole numbers. -/
def DeriveSettings.default : DeriveSettings := ⟨true, true, .i64⟩

instance : Inhabited DeriveSettings := ⟨.default⟩

inductive ValidationLevel where
  | off | strict | moderate
deriving DecidableEq, Inhabited

inductive ValidationAction where
  | error | warn
deriving DecidableEq, Inhabited

/-- The least severe message that is logged. -/
inductive LogLevel where
  | debug | info | warning | error
deriving DecidableEq, Inhabited

namespace ValidationLevel

def all : List ValidationLevel := [off, strict, moderate]

def name : ValidationLevel → String
  | off => "off"
  | strict => "strict"
  | moderate => "moderate"

end ValidationLevel

namespace ValidationAction

def all : List ValidationAction := [error, warn]

def name : ValidationAction → String
  | error => "error"
  | warn => "warn"

end ValidationAction

namespace LogLevel

def all : List LogLevel := [debug, info, warning, error]

def name : LogLevel → String
  | debug => "DEBUG"
  | info => "INFO"
  | warning => "WARNING"
  | error => "ERROR"

end LogLevel

namespace IntKind

def all : List IntKind := [i32, i64]

def name (kind : IntKind) : String :=
  kind.kind.name

end IntKind

structure OutputSettings where
  /-- The blanks of one level; zero asks for one line. -/
  indent : Int
  wrapValidator : Bool
  validationLevel : ValidationLevel
  validationAction : ValidationAction
deriving DecidableEq

/-- Two blanks, no wrapping, and strict validation that refuses documents. -/
def OutputSettings.default : OutputSettings := ⟨2, false, .strict, .error⟩

instance : Inhabited OutputSettings := ⟨.default⟩

structure Settings where
  derive : DeriveSettings
  output : OutputSettings
  logLevel : LogLevel
deriving DecidableEq

def Settings.default : Settings := ⟨.default, .default, .warning⟩

instance : Inhabited Settings := ⟨.default⟩

end ShapeSchema
