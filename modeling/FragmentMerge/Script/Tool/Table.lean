import FragmentMerge.Script.Tool.Difference
import FragmentMerge.Script.Tool.Grep
import FragmentMerge.Script.Tool.Lines
import FragmentMerge.Script.Tool.Listing
import FragmentMerge.Script.Tool.Sed
import FragmentMerge.Script.Tool.Sums
import FragmentMerge.Script.Tool.Values
import FragmentMerge.Script.Tool.Words

/-! The tools by their names. -/

namespace FragmentMerge.Script.Tool

def table : List (String × Job Unit) := [
  ("base64", base64), ("basename", basename), ("cat", cat), ("chmod", chmod), ("cksum", cksum), ("cmp", cmp), ("comm", comm), ("cp", cp),
  ("cut", cut), ("diff", diff), ("dirname", dirname), ("echo", echo), ("egrep", grepWith false true), ("env", env), ("expr", expr),
  ("false", Job.setStatus 1), ("fgrep", grepWith true false), ("find", find), ("fold", fold),
  ("grep", grep), ("head", head), ("ls", ls), ("md5sum", md5sum), ("mkdir", mkdir), ("mv", mv),
  ("nice", nice), ("nl", nl), ("nohup", runRest ⟨"", "", []⟩), ("od", od), ("paste", paste),
  ("printenv", printenv), ("printf", printf), ("pwd", pwd), ("readlink", readlink), ("realpath", realpath), ("rev", rev), ("rm", rm),
  ("rmdir", rmdir), ("sed", sed), ("seq", seq), ("setsid", runRest ⟨"w", "", []⟩),
  ("sha1sum", sha1sum), ("sha256sum", sha256sum), ("sha512sum", sha512sum), ("sleep", sleep), ("sort", sort), ("stat", stat), ("sync", pure ()),
  ("tac", tac), ("tail", tail), ("tee", tee), ("timeout", timeout), ("touch", touch),
  ("tr", tr), ("true", pure ()), ("uname", uname), ("uniq", uniq), ("wc", wc),
  ("whoami", Job.print "root\n"), ("xargs", xargs), ("yes", yes)]

def ofName? (name : String) : Option (Job Unit) := table.lookup name

/-- The names that stand for programs of their own although the shell has builtins for them, and those
of shells. -/
def otherPrograms : List String :=
  ["test", "[", "kill", "sh", "dash", "bash", "which", "awk", "mawk"]

def isProgram (name : String) : Bool := (ofName? name).isSome || otherPrograms.contains name

end FragmentMerge.Script.Tool
