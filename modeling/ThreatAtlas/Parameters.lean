import ThreatAtlas.Value.Access

/-!
# Parameters

An operation that is called by its name takes arguments by name or in order. A parameter without a usual
value must be given, and nothing may be given that is no parameter.
-/

namespace ThreatAtlas

structure Parameter where
  name : String
  /-- What holds when nothing is given. -/
  usual : Option Value := none

instance : Coe String Parameter := ⟨fun name => { name }⟩

namespace Parameter

def valueIn (given : Fields) (p : Parameter) : Except Failure (String × Value) :=
  match given.lookup p.name <|> p.usual with
  | some v => .ok (p.name, v)
  | none => Value.fail .arguments

def bind (parameters : List Parameter) (given : Fields) : Except Failure Fields :=
  if given.all fun (name, _) => parameters.any (·.name == name) then
    parameters.mapM (valueIn given)
  else Value.fail .arguments

def bindInOrder (parameters : List Parameter) (given : List Value) : Except Failure (List Value) := do
  if parameters.length < given.length then Value.fail .arguments
  else return (← bind parameters ((parameters.map (·.name)).zip given)).map (·.2)

end Parameter

end ThreatAtlas
