import LineShell.Line.Token
import LineShell.LineError

/-! The redirection of a line, told apart from its words. A line may send its output to one file;
what else the operators could ask for is refused, and of several offences the leftmost counts. -/

namespace LineShell.Line

/-- Where the output of a line goes. Nothing is ever read from a file instead of the terminal, so
there is no target for input. -/
structure Redirection where
  output : Option Text := none
  append : Bool := false
  input : Option Text := none
  deriving DecidableEq, Repr

/-- What becomes of an operator: an output operator is carried out, and appends or not. -/
inductive Standing where
  | output (append : Bool)
  | planned
  | refused
  deriving DecidableEq, Repr

def standing : Operator → Standing
  | .overwrite => .output false
  | .append => .output true
  | .input | .errors | .both => .planned
  | .duplicateOutput | .duplicateInput | .readWrite | .hereDocument => .refused

/-- The words and the redirection of tokens, after an output operator if `seen` holds one. -/
def resolveAfter (seen : Option Operator) :
    List Token → Except LineError (List Text × Redirection)
  | [] => .ok ([], {})
  | .word w :: rest =>
    match resolveAfter seen rest with
    | .ok (words, redirection) => .ok (w :: words, redirection)
    | .error e => .error e
  | .operator op :: rest =>
    match standing op with
    | .planned => .error (.notImplemented op.text)
    | .refused => .error (.unsupported op.text)
    | .output append =>
      match rest with
      | .word target :: rest =>
        match seen with
        | some first => .error (.duplicate first.text op.text)
        | none =>
          match resolveAfter (some op) rest with
          | .ok (words, _) => .ok (words, { output := some target, append })
          | .error e => .error e
      | _ => .error (.missingTarget op.text)

/-- The words and the redirection of tokens. -/
def resolve (tokens : List Token) : Except LineError (List Text × Redirection) :=
  resolveAfter none tokens

end LineShell.Line
