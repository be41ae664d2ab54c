import LineShell.Outer.Script.Options

/-! What a shell is started for: a file of commands, commands that are an argument, or the commands
that it is given to read. -/

namespace LineShell.Script

/-- Where the commands of a script stand. -/
inductive Source where
  | file (path : Text)
  | text (commands : Text)
  | input
  deriving DecidableEq, Repr

structure Startup where
  options : Options
  source : Source
  name : Text
  parameters : List Text
  deriving DecidableEq, Repr

/-- What the arguments of a shell ask for. -/
def Startup.ofArguments (called : Text) (arguments : List Text) : Except Text Startup :=
  match Options.read [] true arguments with
  | .error m => .error m
  | .ok r =>
    let options := r.options
    match r.commands, r.rest with
    | true, [] => .error "-c requires an argument"
    | true, [t] => .ok { options, source := .text t, name := called, parameters := [] }
    | true, t :: name :: parameters => .ok { options, source := .text t, name, parameters }
    | false, [] => .ok { options, source := .input, name := called, parameters := [] }
    | false, path :: rest =>
      if options.contains 's' then
        .ok { options, source := .input, name := called, parameters := path :: rest }
      else .ok { options, source := .file path, name := path, parameters := rest }

end LineShell.Script
