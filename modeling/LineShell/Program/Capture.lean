import LineShell.Files.Errno
import LineShell.Program.Status

/-! Watching a program whose output is captured. Each of the two streams that it writes to has a
reader, which sends the whole text of the stream once the stream is closed. The watcher waits for
the program's end first, and then for what the readers send, both no longer than the program is
given time. A program that has not ended by then is killed, and its end is waited for once more,
however long that takes. -/

namespace LineShell.Program

/-- The two streams that a program writes to. -/
inductive Stream where
  | out
  | err
  deriving DecidableEq, Repr

/-- What a watcher can be told of a program. -/
inductive Event where
  | exits (status : Status)
  | delivers (stream : Stream) (text : Text)
  | expires
  /-- The system does not let the program's end be waited for. -/
  | fails (cause : IoError)
  deriving DecidableEq, Repr

/-- What a watcher is about: it waits for the program's end, or for that of a program that it has
killed, or for so many texts more, or it has settled how the run ended, if that could be told. -/
inductive Phase where
  | waiting
  | ending
  | receiving (status : Status) (pending : Nat) (out err : Text)
  | settled (run : Except IoError Captured)
  deriving Repr

/-- The readers that are started for a program. -/
def readerCount : Nat := 2

/-- A watcher, and what there is for it to see. -/
structure Watch where
  phase : Phase := .waiting
  /-- How the program ended, once it has. -/
  status : Option Status := none
  /-- Why its end cannot be waited for, if it cannot. -/
  failure : Option IoError := none
  /-- The readers that have not sent their text yet. -/
  readers : Nat := readerCount
  /-- The texts that were sent and are not taken in yet, the first one first. -/
  sent : List (Stream × Text) := []
  /-- Whether the time is over. -/
  expired : Bool := false
  /-- Whether the watcher has had the program killed. Nobody looks whether that could be done. -/
  killed : Bool := false
  deriving Repr

/-- The most turns that a watcher takes from a phase on. -/
def Phase.turns : Phase → Nat
  | .waiting => readerCount + 2
  | .ending => 1
  | .receiving _ pending _ _ => pending + 1
  | .settled _ => 0

namespace Watch

/-- Something has happened, whether or not the watcher looks. -/
def note (w : Watch) : Event → Watch
  | .exits status => { w with status := w.status.or (some status) }
  | .delivers stream text =>
    { w with readers := w.readers - 1, sent := w.sent ++ [(stream, text)] }
  | .expires => { w with expired := true }
  | .fails cause => { w with failure := w.failure.or (some cause) }

/-- The watcher waits no longer. A program whose end it was waiting for is killed first. -/
def giveUp (w : Watch) : Watch :=
  match w.phase with
  | .waiting => { w with phase := .ending, killed := true }
  | _ => { w with phase := .settled (.ok .timedOut) }

/-- The watcher's next turn; none while there is nothing to see, or once the run is settled. What
the program wrote as output stands before what it wrote as errors. -/
def turn? (w : Watch) : Option Watch :=
  match w.phase with
  | .waiting =>
    match w.failure, w.status with
    | some cause, _ => some { w with phase := .settled (.error cause) }
    | none, some status => some { w with phase := .receiving status readerCount [] [] }
    | none, none => if w.expired then some w.giveUp else none
  | .ending =>
    -- how the program ended, and whether that could be told, is not looked at any more
    if w.status.isSome || w.failure.isSome then some { w with phase := .settled (.ok .timedOut) }
    else none
  | .receiving status 0 out err =>
    some { w with phase := .settled (.ok (.exited status (out ++ err))) }
  | .receiving status (pending + 1) out err =>
    match w.sent with
    | (.out, text) :: sent => some { w with phase := .receiving status pending text err, sent }
    | (.err, text) :: sent => some { w with phase := .receiving status pending out text, sent }
    | [] =>
      -- nobody is left who could send anything
      if w.readers = 0 then some { w with phase := .settled (.ok (.exited status (out ++ err))) }
      else if w.expired then some w.giveUp
      else none
  | .settled _ => none

/-- The watcher after at most so many turns. -/
def act : Nat → Watch → Watch
  | 0, w => w
  | n + 1, w => w.turn?.elim w (act n)

/-- A watcher that looks at once: something happens, and it takes all the turns that it can. -/
def see (w : Watch) (e : Event) : Watch :=
  (w.note e).act w.phase.turns

/-- How the run ended, once that is settled. -/
def verdict? (w : Watch) : Option (Except IoError Captured) :=
  match w.phase with
  | .settled run => some run
  | _ => none

end Watch

/-- How a run ended by all that was seen of it. -/
def captured? (events : List Event) : Option (Except IoError Captured) :=
  (events.foldl Watch.see {}).verdict?

/-- All that was seen of a run, until it was settled. -/
structure Watched where
  events : List Event
  settles : (captured? events).isSome

/-- How the run ended. -/
def Watched.run (w : Watched) : Except IoError Captured :=
  (captured? w.events).get w.settles

/-- A program that writes nothing and exits. -/
instance : Inhabited Watched :=
  ⟨[.exits (.exited 0), .delivers .out [], .delivers .err []], rfl⟩

end LineShell.Program
