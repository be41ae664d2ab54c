import LineShell.Text.Basic

/-! The language of script files: words with parameters in them, and the commands made of words. -/

namespace LineShell.Script

/-- A part of a word. Unquoted parts are split into fields once their value is known. A parameter is
kept with all that stands between its braces. -/
inductive Part where
  | literal (quoted : Bool) (text : Text)
  | parameter (quoted : Bool) (name : Text)
  | arithmetic (quoted : Bool) (expression : Text)
  | output (quoted : Bool) (commands : Text)
  deriving DecidableEq, Repr

abbrev Word := List Part

namespace Word

/-- The text of a word that has no parameters and no quotes in it. -/
def plain? (w : Word) : Option Text :=
  (w.mapM fun (p : Part) =>
    match p with
    | .literal false t => some t
    | _ => none).map List.flatten

/-- The text of a word with its quotes gone and nothing expanded. -/
def bare (w : Word) : Text :=
  w.flatMap fun (p : Part) =>
    match p with
    | .literal _ t => t
    | .parameter _ t => '$' :: t
    | .arithmetic _ t => "$((".toList ++ t ++ "))".toList
    | .output _ t => "$(".toList ++ t ++ ")".toList

end Word

/-- Where a descriptor of a command leads to. -/
inductive Redirect where
  | write (descriptor : Nat) (append : Bool) (target : Word)
  | duplicate (descriptor : Nat) (source : Word)
  | read (source : Word)
  /-- The input is a text that stands in the script. -/
  | document (body : Word)
  deriving DecidableEq, Repr

/-- Whether the input is another one. -/
def Redirect.reads : Redirect → Bool
  | .read _ => true
  | .document _ => true
  | _ => false

inductive Statement where
  | nothing
  | simple (line : Nat) (assignments : List (Text × Word)) (words : List Word)
      (redirects : List Redirect)
  | sequence (first second : Statement)
  | whenDone (first second : Statement)
  | unlessDone (first second : Statement)
  | negated (body : Statement)
  | background (body : Statement)
  | piped (first second : Statement)
  | conditional (test yes no : Statement)
  /-- The body is repeated as long as the test comes out as told. -/
  | repeated (asLong : Bool) (test body : Statement)
  | each (name : Text) (items : Option (List Word)) (body : Statement)
  | choice (subject : Word) (arms : Statement)
  | arm (patterns : List Word) (body others : Statement)
  /-- The body runs in a process of its own. -/
  | apart (body : Statement)
  | redirected (line : Nat) (body : Statement) (redirects : List Redirect)
  | function (name : Text) (body : Statement)
  deriving DecidableEq, Repr

/-- What is wrong with a script, and the line that has been reached there. -/
structure Fault where
  line : Nat
  message : Text
  deriving DecidableEq, Repr

end LineShell.Script
