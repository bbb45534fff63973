import BucketMount.Text.Basic

/-!
# Signals

The signals of Linux with their numbers and names. A signal is read back from its number
(`Signal.ofNumber?_number`).
-/

namespace BucketMount

inductive Signal where
  | hup
  | int
  | quit
  | ill
  | trap
  | abrt
  | bus
  | fpe
  | kill
  | usr1
  | segv
  | usr2
  | pipe
  | alrm
  | term
  | stkflt
  | chld
  | cont
  | stop
  | tstp
  | ttin
  | ttou
  | urg
  | xcpu
  | xfsz
  | vtalrm
  | prof
  | winch
  | io
  | pwr
  | sys
deriving DecidableEq, Repr

namespace Signal

def number : Signal → Nat
  | hup => 1
  | int => 2
  | quit => 3
  | ill => 4
  | trap => 5
  | abrt => 6
  | bus => 7
  | fpe => 8
  | kill => 9
  | usr1 => 10
  | segv => 11
  | usr2 => 12
  | pipe => 13
  | alrm => 14
  | term => 15
  | stkflt => 16
  | chld => 17
  | cont => 18
  | stop => 19
  | tstp => 20
  | ttin => 21
  | ttou => 22
  | urg => 23
  | xcpu => 24
  | xfsz => 25
  | vtalrm => 26
  | prof => 27
  | winch => 28
  | io => 29
  | pwr => 30
  | sys => 31

def ofNumber? : Nat → Option Signal
  | 1 => some hup
  | 2 => some int
  | 3 => some quit
  | 4 => some ill
  | 5 => some trap
  | 6 => some abrt
  | 7 => some bus
  | 8 => some fpe
  | 9 => some kill
  | 10 => some usr1
  | 11 => some segv
  | 12 => some usr2
  | 13 => some pipe
  | 14 => some alrm
  | 15 => some term
  | 16 => some stkflt
  | 17 => some chld
  | 18 => some cont
  | 19 => some stop
  | 20 => some tstp
  | 21 => some ttin
  | 22 => some ttou
  | 23 => some urg
  | 24 => some xcpu
  | 25 => some xfsz
  | 26 => some vtalrm
  | 27 => some prof
  | 28 => some winch
  | 29 => some io
  | 30 => some pwr
  | 31 => some sys
  | _ => none

def name : Signal → Text
  | hup => "SIGHUP".toList
  | int => "SIGINT".toList
  | quit => "SIGQUIT".toList
  | ill => "SIGILL".toList
  | trap => "SIGTRAP".toList
  | abrt => "SIGABRT".toList
  | bus => "SIGBUS".toList
  | fpe => "SIGFPE".toList
  | kill => "SIGKILL".toList
  | usr1 => "SIGUSR1".toList
  | segv => "SIGSEGV".toList
  | usr2 => "SIGUSR2".toList
  | pipe => "SIGPIPE".toList
  | alrm => "SIGALRM".toList
  | term => "SIGTERM".toList
  | stkflt => "SIGSTKFLT".toList
  | chld => "SIGCHLD".toList
  | cont => "SIGCONT".toList
  | stop => "SIGSTOP".toList
  | tstp => "SIGTSTP".toList
  | ttin => "SIGTTIN".toList
  | ttou => "SIGTTOU".toList
  | urg => "SIGURG".toList
  | xcpu => "SIGXCPU".toList
  | xfsz => "SIGXFSZ".toList
  | vtalrm => "SIGVTALRM".toList
  | prof => "SIGPROF".toList
  | winch => "SIGWINCH".toList
  | io => "SIGIO".toList
  | pwr => "SIGPWR".toList
  | sys => "SIGSYS".toList

def description : Signal → Text
  | hup => "Hangup".toList
  | int => "Interrupt".toList
  | quit => "Quit".toList
  | ill => "Illegal instruction".toList
  | trap => "Trace/breakpoint trap".toList
  | abrt => "Aborted".toList
  | bus => "Bus error".toList
  | fpe => "Floating point exception".toList
  | kill => "Killed".toList
  | usr1 => "User defined signal 1".toList
  | segv => "Segmentation fault".toList
  | usr2 => "User defined signal 2".toList
  | pipe => "Broken pipe".toList
  | alrm => "Alarm clock".toList
  | term => "Terminated".toList
  | stkflt => "Stack fault".toList
  | chld => "Child exited".toList
  | cont => "Continued".toList
  | stop => "Stopped (signal)".toList
  | tstp => "Stopped".toList
  | ttin => "Stopped (tty input)".toList
  | ttou => "Stopped (tty output)".toList
  | urg => "Urgent I/O condition".toList
  | xcpu => "CPU time limit exceeded".toList
  | xfsz => "File size limit exceeded".toList
  | vtalrm => "Virtual timer expired".toList
  | prof => "Profiling timer expired".toList
  | winch => "Window changed".toList
  | io => "I/O possible".toList
  | pwr => "Power failure".toList
  | sys => "Bad system call".toList

def ofName? (t : Text) : Option Signal :=
  ((List.range 32).filterMap ofNumber?).find? (·.name = t)

/-- What the signal does to a process that has made no arrangement for it. -/
inductive DefaultAction where
  | terminate
  | ignore
  | stop
  | resume
deriving DecidableEq, Repr

/-- The highest number of a signal. Beyond the last name the numbers stand for signals without one. -/
def lastNumber : Nat := 64

def defaultAction : Signal → DefaultAction
  | chld | urg | winch => .ignore
  | stop | tstp | ttin | ttou => .stop
  | cont => .resume
  | _ => .terminate

/-- The arrangement for a signal by its number; one without a name ends the process. -/
def actionOfNumber (n : Nat) : DefaultAction := (ofNumber? n).elim .terminate defaultAction

/-- Whether a process that dies of the signal leaves a core image, where the system allows it. -/
def dumpsCore : Signal → Bool
  | quit | ill | trap | abrt | bus | fpe | segv | xcpu | xfsz | sys => true
  | _ => false

end Signal
end BucketMount
