import SizeSurvey.Text.Digit
import SizeSurvey.Text.Split
/-!
# Signals

Signals are numbers that processes send to each other. Most of them end a process that has made no
arrangements, and some are passed over.
-/
namespace SizeSurvey.Shell.Signal

def interrupt : Nat := 2

def quit : Nat := 3

def kill : Nat := 9

def pipe : Nat := 13

def last : Nat := 64

/-- The names of the first signals; one that has none goes by its number. -/
def firstNames : List String :=
  ["HUP", "INT", "QUIT", "ILL", "TRAP", "ABRT", "BUS", "FPE", "KILL", "USR1", "SEGV", "USR2", "PIPE",
    "ALRM", "TERM", "16", "CHLD", "CONT", "STOP", "TSTP", "TTIN", "TTOU", "URG", "XCPU", "XFSZ",
    "VTALRM", "PROF", "WINCH", "IO", "PWR", "SYS", "32", "33"]

def name (signal : Nat) : String :=
  match signal with
  | 0 => "EXIT"
  | n + 1 =>
    match firstNames[n]? with
    | some name => name
    | none =>
      if signal = 34 then "RTMIN"
      else if signal = last then "RTMAX"
      else if signal < 50 then "RTMIN+" ++ Text.decimal (signal - 34)
      else "RTMAX-" ++ Text.decimal (last - signal)

def ofWord? (smallest : Nat) (word : List Char) : Option Nat :=
  match Text.readDecimal? word with
  | some number => if smallest ≤ number ∧ number ≤ last then some number else none
  | none =>
    (List.range (last + 1)).find? fun signal =>
      smallest ≤ signal && (name signal).toList = word.map Char.toUpper

/-- What is said when one of the first signals ends a process. -/
def firstNotices : List String :=
  ["Hangup", "Interrupt", "Quit", "Illegal instruction", "Trace/breakpoint trap", "Aborted",
    "Bus error", "Floating point exception", "Killed", "User defined signal 1",
    "Segmentation fault", "User defined signal 2", "Broken pipe", "Alarm clock", "Terminated",
    "Stack fault", "Child exited", "Continued", "Stopped (signal)", "Stopped",
    "Stopped (tty input)", "Stopped (tty output)", "Urgent I/O condition",
    "CPU time limit exceeded", "File size limit exceeded", "Virtual timer expired",
    "Profiling timer expired", "Window changed", "I/O possible", "Power failure",
    "Bad system call", "Unknown signal 32", "Unknown signal 33"]

/-- What a shell says about a process that a signal ended; two signals are not worth a word. -/
def notice? (signal : Nat) : Option String :=
  if signal = interrupt ∨ signal = pipe then none
  else
    match firstNotices[signal - 1]? with
    | some notice => some notice
    | none => some ("Real-time signal " ++ Text.decimal (signal - 34))

def isHarmless (signal : Nat) : Bool :=
  signal = 0 || signal = 17 || signal = 18 || signal = 23 || signal = 28

def halts (signal : Nat) : Bool :=
  19 ≤ signal && signal ≤ 22

end SizeSurvey.Shell.Signal
