import OptionHost.Value.Basic

/-!
# Scripts in structured form

A small language that both interpreters share: expressions, assignments, branches, loops over
finite lists, and handlers for failures, which only one of the interpreters has.
-/

namespace OptionHost.Script

inductive Expression where
  | literal (v : Value)
  | name (n : String)
  | call (function : String) (args : List Expression) (named : List (String × Expression))
  | list (items : List Expression)
  | negation (e : Expression)
  | conditional (test yes no : Expression)
  | equal (a b : Expression)
  | sum (a b : Expression)
  /-- The first operand if it counts as false, else the second. -/
  | both (a b : Expression)
  /-- The first operand if it counts as true, else the second. -/
  | either (a b : Expression)
  | item (container index : Expression)
  deriving Inhabited

inductive Statement where
  | perform (e : Expression)
  | assign (name : String) (e : Expression)
  | branch (test : Expression) (yes no : List Statement)
  | loop (name : String) (items : Expression) (body : List Statement)
  /-- Where the body fails, the text of the failure gets a name and the handler runs. -/
  | attempt (body handler : List Statement) (name : Option String)
  /-- A line that no interpreter can read, and what stands in it. -/
  | garbled (text : String)
  deriving Inhabited

abbrev Program := List Statement

mutual

def Expression.names : Expression → List String
  | .literal _ => []
  | .name n => [n]
  | .call f args named => f :: (namesOfAll args ++ namesOfNamed named)
  | .list items => namesOfAll items
  | .negation e => e.names
  | .conditional test yes no => test.names ++ yes.names ++ no.names
  | .equal a b => a.names ++ b.names
  | .sum a b => a.names ++ b.names
  | .both a b => a.names ++ b.names
  | .either a b => a.names ++ b.names
  | .item c i => c.names ++ i.names
termination_by structural e => e

def namesOfAll : List Expression → List String
  | [] => []
  | e :: rest => e.names ++ namesOfAll rest
termination_by structural e => e

def namesOfNamed : List (String × Expression) → List String
  | [] => []
  | e :: rest => namesOfArgument e ++ namesOfNamed rest
termination_by structural e => e

def namesOfArgument : String × Expression → List String
  | (_, e) => e.names
termination_by structural e => e

end

mutual

/-- The names that a statement uses and those that it gives a value to. -/
def Statement.names : Statement → List String × List String
  | .perform e => (e.names, [])
  | .assign n e => (e.names, [n])
  | .branch test yes no =>
    let (yesUsed, yesGiven) := namesOfBlock yes
    let (noUsed, noGiven) := namesOfBlock no
    (test.names ++ yesUsed ++ noUsed, yesGiven ++ noGiven)
  | .loop n items body =>
    let (used, given) := namesOfBlock body
    (items.names ++ used, n :: given)
  | .attempt body handler name =>
    let (bodyUsed, bodyGiven) := namesOfBlock body
    let (used, given) := namesOfBlock handler
    (bodyUsed ++ used, bodyGiven ++ name.toList ++ given)
  | .garbled _ => ([], [])
termination_by structural s => s

def namesOfBlock : List Statement → List String × List String
  | [] => ([], [])
  | s :: rest =>
    let (used, given) := s.names
    let (restUsed, restGiven) := namesOfBlock rest
    (used ++ restUsed, given ++ restGiven)
termination_by structural s => s

end

mutual

/-- The first line of a statement that cannot be read, given whether failures can be
handled. -/
def Statement.flaw? (handles : Bool) : Statement → Option String
  | .perform _ => none
  | .assign .. => none
  | .branch _ yes no => (flawOfBlock? handles yes).or (flawOfBlock? handles no)
  | .loop _ _ body => flawOfBlock? handles body
  | .attempt body handler _ =>
    if handles then (flawOfBlock? handles body).or (flawOfBlock? handles handler)
    else some "try:"
  | .garbled text => some (") # " ++ text)
termination_by structural s => s

def flawOfBlock? (handles : Bool) : List Statement → Option String
  | [] => none
  | s :: rest => (s.flaw? handles).or (flawOfBlock? handles rest)
termination_by structural s => s

end

end OptionHost.Script
