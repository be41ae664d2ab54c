import LineShell.Files.Path

/-! Environment variables: what they say about the user, the home directory, the places where
programs are, and colours. -/

namespace LineShell

/-- Variables by name. The first one of a name counts. -/
abbrev Variables := List (Text × Text)

namespace Variables

def get? (v : Variables) (name : Text) : Option Text :=
  List.lookup name v

/-- The home directory that a variable tells; an empty value is none. -/
def home? (v : Variables) : Option Path :=
  (v.get? "HOME").filter (!·.isEmpty)

/-- The name of the user. -/
def user (v : Variables) : Text :=
  ((v.get? "USER").or (v.get? "USERNAME")).getD "user"

/-- The name of the host, if a variable tells it. -/
def host? (v : Variables) : Option Text :=
  (v.get? "HOSTNAME").or (v.get? "COMPUTERNAME")

/-- Whether colours are wished for where the output is not a terminal. -/
def wantsColours (v : Variables) : Bool :=
  (v.get? "CLICOLOR_FORCE").any (· ≠ ['0'])

end Variables

end LineShell
