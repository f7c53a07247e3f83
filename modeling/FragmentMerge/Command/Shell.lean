import FragmentMerge.Files.Disk

/-! Commands that the system's shell runs. What they do is no matter of the program, which takes it as it
comes. -/

namespace FragmentMerge

def signalNames : List (Nat × String) :=
  [(1, "HUP"), (2, "INT"), (3, "QUIT"), (4, "ILL"), (5, "TRAP"), (6, "ABRT"), (7, "BUS"), (8, "FPE"),
    (9, "KILL"), (10, "USR1"), (11, "SEGV"), (12, "USR2"), (13, "PIPE"), (14, "ALRM"), (15, "TERM"),
    (16, "STKFLT"), (17, "CHLD"), (18, "CONT"), (19, "STOP"), (20, "TSTP"), (21, "TTIN"), (22, "TTOU"),
    (23, "URG"), (24, "XCPU"), (25, "XFSZ"), (26, "VTALRM"), (27, "PROF"), (28, "WINCH"), (29, "IO"),
    (30, "PWR"), (31, "SYS")]

inductive Ended where
  | exited (status : Nat)
  | killed (signal : Nat)
  deriving DecidableEq, Repr

namespace Ended

def isSuccess (e : Ended) : Bool := e == exited 0

def text : Ended → String
  | exited status => s!"exit status: {status}"
  | killed signal =>
    match signalNames.lookup signal with
    | some name => s!"signal: {signal} (SIG{name})"
    | none => s!"signal: {signal}"

end Ended

structure Effect where
  ended : Ended
  out : String
  err : String
  disk : Disk

class SystemShell where
  run : (command : String) → Disk → Effect

end FragmentMerge
