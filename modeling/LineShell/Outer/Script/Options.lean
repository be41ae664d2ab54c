import LineShell.Text.Basic

/-! The options of a script: letters that are turned on and off by the arguments of the shell that
runs it, and by `set`. -/

namespace LineShell.Script

/-- The letters of the options that are on. -/
abbrev Options := List Char

namespace Options

/-- All options with their names, in the order in which they are shown. -/
def known : List (Char × String) :=
  [('e', "errexit"), ('f', "noglob"), ('I', "ignoreeof"), ('i', "interactive"), ('m', "monitor"),
   ('n', "noexec"), ('s', "stdin"), ('x', "xtrace"), ('v', "verbose"), ('V', "vi"), ('E', "emacs"),
   ('C', "noclobber"), ('a', "allexport"), ('b', "notify"), ('u', "nounset")]

/-- The options as they are shown. -/
def shown (o : Options) : Text :=
  (known.map (·.1)).filter o.contains

def turn (o : Options) (on : Bool) (c : Char) : Options :=
  if on then c :: o else o.filter (· ≠ c)

/-- What is known of arguments whose options are read one after another. -/
structure Reader where
  options : Options
  /-- Whether the commands themselves are an argument. -/
  commands : Bool := false
  /-- Whether two dashes have ended the options. -/
  ended : Bool := false
  rest : List Text

/-- Reads one letter. The arguments of a shell have two letters more than those of `set`. -/
def Reader.letter (atStart on : Bool) (r : Reader) (c : Char) : Except Text Reader :=
  if atStart && c = 'c' then .ok { r with commands := true }
  else if atStart && c = 'l' then .ok r
  else if c = 'o' then
    match r.rest with
    | [] => .ok r
    | name :: rest =>
      match known.find? fun (_, n) => n.toList = name with
      | some (c, _) => .ok { r with options := r.options.turn on c, rest }
      | none => .error ("Illegal option -o " ++ name)
  else if known.any (·.1 = c) then .ok { r with options := r.options.turn on c }
  else .error ("Illegal option -" ++ [c])

/-- Reads the options at the front. Each step takes an argument. -/
def Reader.run (atStart : Bool) : Nat → Reader → Except Text Reader
  | 0, r => .ok r
  | n + 1, r =>
    match r.rest with
    | ['-'] :: rest => .ok { r with rest }
    | ['-', '-'] :: rest => .ok { r with rest, ended := true }
    | ('-' :: letters) :: rest =>
      match letters.foldlM (Reader.letter atStart true) { r with rest } with
      | .ok r => r.run atStart n
      | .error m => .error m
    | ('+' :: letters) :: rest =>
      match letters.foldlM (Reader.letter atStart false) { r with rest } with
      | .ok r => r.run atStart n
      | .error m => .error m
    | _ => .ok r

/-- Reads the options at the front of arguments. -/
def read (o : Options) (atStart : Bool) (arguments : List Text) : Except Text Reader :=
  Reader.run atStart (arguments.length + 1) { options := o, rest := arguments }

end Options

end LineShell.Script
