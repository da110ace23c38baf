/-! # Arguments

    Arguments are options and positional arguments.  An option is a word behind two dashes or a
    letter behind one.  Its value is the next argument, unless that looks like an option, or stands
    behind `=`.  Letters can be put together behind one dash.  Behind `--` there are no options.

    The first argument that cannot be read decides: a request for help behind it is not seen. -/

namespace ModelCatalog.CommandLine

/-- Whether an option has a value. -/
inductive Arity where
  | flag
  | value
  /-- A value may follow, otherwise there is a default. -/
  | optional (default : String)
  deriving DecidableEq, Repr

structure Spec where
  long : String
  short : Option Char := none
  arity : Arity := .flag
  /-- Whether it may come several times. -/
  isRepeatable : Bool := false
  /-- Whether its value may be empty. -/
  allowsEmpty : Bool := true
  deriving Repr

/-- Why the arguments are no command. -/
inductive Refusal where
  /-- The user asks for help or the version. -/
  | help
  | usage
  deriving DecidableEq, Repr

/-- The arguments of a command, or those before it. -/
structure Arguments where
  /-- The options with their values. -/
  given : List (String × String) := []
  positional : List String := []
  deriving Repr

namespace Arguments

def has (a : Arguments) (long : String) : Bool := a.given.any (·.1 == long)

def value? (a : Arguments) (long : String) : Option String := a.given.lookup long

def add (a : Arguments) (spec : Spec) (value : String) : Except Refusal Arguments :=
  if spec.long == "help" || spec.long == "version" then .error .help
  else if a.has spec.long && !spec.isRepeatable then .error .usage
  else if value == "" && !spec.allowsEmpty then .error .usage
  else .ok { a with given := a.given ++ [(spec.long, value)] }

/-- Adds the flags of a cluster of letters. -/
def addCluster (specs : List Spec) : Arguments → List Char → Except Refusal Arguments
  | a, [] => .ok a
  | a, c :: rest =>
    match specs.find? (·.short == some c) with
    | some spec => do addCluster specs (← a.add spec "") rest
    | none => .error .usage

end Arguments

/-- Whether an argument can be the value of the option before it. -/
def isValue (arg : String) : Bool := arg.toList.head? != some '-' || arg == "-"

/-- A long option at `=`. -/
def splitLong (arg : List Char) : String × Option String :=
  let name := arg.takeWhile (· != '=')
  match arg.dropWhile (· != '=') with
  | [] => (.ofList name, none)
  | _ :: value => (.ofList name, some (.ofList value))

/-- The value of a long option, from what stands behind its `=` and from the next argument, and
    whether the next argument is used up. -/
def longValue (arity : Arity) (written next : Option String) : Except Refusal (String × Bool) :=
  match arity, written, next.filter isValue with
  | .flag, none, _ => .ok ("", false)
  | .flag, some _, _ => .error .usage
  | _, some value, _ => .ok (value, false)
  | _, none, some value => .ok (value, true)
  | .optional default, none, none => .ok (default, false)
  | .value, none, none => .error .usage

/-- Reads arguments.  Before the command, the first positional argument ends them, and the rest is
    given back; behind it there is one positional argument at most, as long as options are read. -/
def readArguments (specs : List Spec) (beforeCommand : Bool) :
    Arguments → List String → Except Refusal (Arguments × List String)
  | a, [] => .ok (a, [])
  | a, arg :: rest =>
    match arg.toList with
    | ['-', '-'] =>
      if beforeCommand then .error .usage
      else .ok ({ a with positional := a.positional ++ rest }, [])
    | '-' :: '-' :: text => do
      let (name, written) := splitLong text
      let some spec := specs.find? (·.long == name) | throw .usage
      let (value, usesNext) ← longValue spec.arity written rest.head?
      let a ← a.add spec value
      match rest with
      | [] => return (a, [])
      | next :: rest =>
        if usesNext then readArguments specs beforeCommand a rest
        else readArguments specs beforeCommand a (next :: rest)
    | '-' :: c :: letters => do
      readArguments specs beforeCommand (← a.addCluster specs (c :: letters)) rest
    | _ =>
      if beforeCommand then .ok (a, arg :: rest)
      else if !a.positional.isEmpty then .error .usage
      else readArguments specs beforeCommand { a with positional := a.positional ++ [arg] } rest
  termination_by _ args => args.length
  decreasing_by all_goals (simp only [List.length_cons]; omega)

end ModelCatalog.CommandLine
