import OptionHost.Fault
import OptionHost.Value.Entries

/-!
# Calls by position and by name

How the arguments of a call meet the parameters of the function called. Named arguments are
looked at first, in order; then the number of arguments given by position; then what is missing.
-/

namespace OptionHost

/-- The parameters of a function, all of the positional ones required. -/
structure Signature where
  callee : String
  positional : List String
  /-- Parameters that can only be given by name, all of them optional. -/
  named : List String
  lenient : Bool

namespace Signature

def assigned (name : String) (bound : List (String × Value)) : Bool :=
  bound.any fun b => b.1 == name

def bindNamed (s : Signature) (bound : List (String × Value)) (key value : Value) :
    Except Fault (List (String × Value)) :=
  match key with
  | .text name =>
    if assigned name bound then .error (.wrongType (.repeatedArgument s.callee name))
    else if s.positional.contains name || s.named.contains name || s.lenient then
      .ok (bound ++ [(name, value)])
    else .error (.wrongType (.unexpectedKeyword s.callee name))
  | _ => .error (.wrongType .keywordsNotText)

def surplus (s : Signature) (given named : Nat) : TypeCause :=
  let count := s.positional.length
  if named == 0 then .surplusArguments s.callee count count given
  else
    .stated (s!"{s.callee}() takes {count} positional " ++ TypeCause.plural count "argument" ++
      s!" but {given} positional " ++ TypeCause.plural given "argument" ++
      s!" (and {named} keyword-only " ++ TypeCause.plural named "argument" ++ ") were given")

/-- The arguments of a call by the names of their parameters. -/
def bind (s : Signature) (args : List Value) (kwargs : Entries) :
    Except Fault (List (String × Value)) := do
  if kwargs.any fun e => !e.1.isText then throw (.wrongType .keywordsNotText)
  let bound ← kwargs.foldlM (fun bound e => s.bindNamed bound e.1 e.2) (s.positional.zip args)
  if s.positional.length < args.length then
    throw (.wrongType (s.surplus args.length (s.named.countP fun n => assigned n bound)))
  match s.positional.filter fun name => !assigned name bound with
  | [] => return bound
  | missing => throw (.wrongType (.missingArguments s.callee missing))

end Signature

end OptionHost
