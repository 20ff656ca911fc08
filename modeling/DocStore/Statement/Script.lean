import DocStore.Statement.Program

/-! # Scripted execution

A script answers statements from a list of prepared responses and records what it was sent. It
shows which statements an operation sends, and how the operation treats each answer. -/
set_option autoImplicit false

namespace DocStore

inductive ScriptedResponse where
  | error (text : String)
  | rows (rows : List (List Json))
  | affected (count : Nat)

structure RecordedCall where
  text : String
  params : List Json

structure Script where
  responses : List ScriptedResponse
  calls : List RecordedCall := []

namespace Script

def outputOf : ScriptedResponse → Except Error QueryOutput
  | .error text => .error (.engine (.reported text))
  | .rows rows => .ok { rows }
  | .affected count => .ok { affected := count }

/-- Records a statement and takes the next response; when none is left the answer is empty. -/
def sendText (text : String) (params : List Json) (s : Script) :
    Except Error QueryOutput × Script :=
  let calls := s.calls ++ [{ text, params }]
  match s.responses with
  | [] => (.ok {}, { s with calls })
  | r :: responses => (outputOf r, { responses, calls })

def sendTextEach (text : String) (batch : List (List Json)) (s : Script) :
    Except Error Nat × Script :=
  executeEach (sendText text) batch s

def executor : Executor Script where
  execute s params st := sendText s.text params st
  executeMany s batch st := sendTextEach s.text batch st

end Script
end DocStore
