import LineShell.Files.Tree
import LineShell.Program.Capture
import LineShell.Variables

/-! The system as far as it runs programs. It is a parameter of the shell: what a program does to
files, what it writes, how it ends and when is for the system to say. -/

namespace LineShell.Program

/-- A program to be started. -/
structure Launch where
  program : Path
  arguments : List Text
  cwd : Path
  environment : Variables
  clock : Time
  /-- What the program can read. -/
  input : Text.Bytes
  /-- Whether what it writes goes to a terminal. -/
  terminal : Bool
  /-- How long the program is watched, in milliseconds, where it is watched; otherwise it runs to
  its end. -/
  limit : Option Nat

/-- What is known of a program that was started. -/
structure Report where
  /-- The files as the program leaves them. -/
  tree : FileTree
  /-- How it ended, and what it wrote, if it was not watched. -/
  status : Status
  out : Text.Bytes
  err : Text.Bytes
  /-- What was seen of it in the course of time, if it was watched. -/
  watched : Watched
  /-- How many bytes it has read. -/
  taken : Nat
  /-- Whether Ctrl+C arrived before it was done with. -/
  interrupt : Bool

/-- Starts a program, if that can be done. -/
abbrev Host := FileTree → Launch → Except IoError Report

end LineShell.Program
