/-
Module: CallAtlas.Record.Call
Purpose: The record of a call site.
Main definitions: CallType, Call, callId
-/
import CallAtlas.Record.Function

namespace CallAtlas

/-- What a call was found to reach. -/
inductive CallType where
  /-- A function of the same run. -/
  | direct
  /-- Anything else. -/
  | external
deriving Repr, DecidableEq, Inhabited

namespace CallType

/-- The word a call type is written as. -/
def name : CallType → String
  | direct => "direct"
  | external => "external"

/-- The call type that is written as a given word. -/
def ofName? (word : String) : Option CallType := [direct, external].find? fun k => k.name = word

end CallType

/-- A call in the body of a function.  Callee id and type are open until the call is resolved. -/
structure Call where
  id : String
  callerId : String
  calleeName : String
  calleeId : Option String
  callType : Option CallType
  filePath : String
  line : Nat
  isConditional : Bool
  isLoop : Bool
deriving Repr, DecidableEq, Inhabited

/-- The id of the call with a given number in a file. -/
def callId (filePath : String) (number : Nat) : String := filePath ++ "#call" ++ toString number

/-- The last name of the chain that is called. -/
def Call.shortName (call : Call) : String := lastSegment call.calleeName

end CallAtlas
