/-!
# Events

What the library reports while it works, for those who ask to have it recorded.
-/

namespace CallGuard

/-- How much attention an event asks for. -/
inductive Level where
  | trace | debug | warn
  deriving DecidableEq

/-- The name of a level. -/
def Level.text : Level → String
  | trace => "trace"
  | debug => "debug"
  | warn => "warn"

/-- Something that happened. -/
inductive Event where
  /-- A value was matched against a descriptor. -/
  | decided (descriptor valueType : String) (matched : Bool)
  /-- A callable was put under a contract with so many parameters. -/
  | guarding (function : String) (params : Nat) (result : String)
  /-- A contract was derived for a callable that a function returned. -/
  | derived (function returned : String) (params : Nat)
  /-- The methods of a class were put under contracts. -/
  | applied (cls : String) (methods : Nat)
  | argumentRefused (function parameter expected actual : String)
  | resultRefused (function expected actual : String)
  deriving DecidableEq

namespace Event

/-- The level of an event. -/
def level : Event → Level
  | decided .. => .trace
  | guarding .. | derived .. | applied .. => .debug
  | argumentRefused .. | resultRefused .. => .warn

/-- The headline of an event. -/
def message : Event → String
  | decided .. => "Matcher decision"
  | guarding .. => "Wrapping callable with contract"
  | derived .. => "Deriving contract for returned callable"
  | applied .. => "Applied contracts to class"
  | argumentRefused .. => "Argument rejected by contract"
  | resultRefused .. => "Return value rejected by contract"

end Event

end CallGuard
