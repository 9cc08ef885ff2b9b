/-
# Exception objects

An exception object names its type, carries a message and may have been caused by another
exception, its inner exception. Following the inner exceptions one obtains the chain of
causes, which always ends.
-/

namespace ManagedHost

/-- An exception object. -/
inductive Exception where
  /-- An exception without a cause. -/
  | plain (typeName message : String)
  /-- An exception caused by another one. -/
  | caused (typeName message : String) (inner : Exception)
deriving Repr, DecidableEq, Inhabited

namespace Exception

/-- The full name of the exception's type. -/
def typeName : Exception → String
  | plain t _ | caused t _ _ => t

/-- The message of the exception itself, without its causes. -/
def message : Exception → String
  | plain _ m | caused _ m _ => m

/-- The exception that caused this one. -/
def inner? : Exception → Option Exception
  | plain _ _ => none
  | caused _ _ e => some e

/-- An exception with an optional cause. -/
def of (typeName message : String) : Option Exception → Exception
  | none => plain typeName message
  | some e => caused typeName message e

/-- The exception followed by its causes, outermost first. -/
def chain : Exception → List Exception
  | e@(plain _ _) => [e]
  | e@(caused _ _ i) => e :: i.chain

/-- Whether the exception has exactly the type with this name. -/
def is (e : Exception) (typeName : String) : Bool :=
  e.typeName == typeName

/-- The exception as text: type and message of every link of the chain. -/
def text : Exception → String
  | plain t m => s!"{t}: {m}"
  | caused t m e => s!"{t}: {m} ---> {e.text}"

@[simp] theorem typeName_of (t m : String) (i : Option Exception) : (of t m i).typeName = t := by
  cases i <;> rfl

@[simp] theorem message_of (t m : String) (i : Option Exception) : (of t m i).message = m := by
  cases i <;> rfl

@[simp] theorem inner?_of (t m : String) (i : Option Exception) : (of t m i).inner? = i := by
  cases i <;> rfl

end Exception

end ManagedHost
